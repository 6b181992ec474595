import Mathlib.Logic.Function.Basic
import SignalkDoctor.JsonText
import SignalkDoctor.Steps
/-!
# Mutex — the shared operation lock (`src/mutex.ts`)

The lock is a file: taken by an exclusive create, given up by a read of the file and an unlink of the path when the
file carries the own nonce.  The steps are separate, so `lockStep` runs them one at a time, those of any number of
acquisitions in any order.  A file is named by the acquisition that created it (`LockFs.path`): a write goes to the
file the acquisition has open, also when the path names another one since.

`LockFs.Inv` says that an acquisition not yet given up or force-cleared is the one on disk and that a file carries no
nonce but its creator's.  `lock_exclusive` follows: one handle at a time, and no release removes another's lock.
-/
namespace SignalkDoctor
namespace Mutex

open Steps (exec Guarded exec_inv)
open Function (update)

inductive Owner where
  | updater | doctor
  deriving DecidableEq, Repr

inductive Operation where
  | switch | rollback | selfUpdate | hardwareApply | recover | restart | installerRefresh | healPluginDeps
  deriving DecidableEq, Repr

def Owner.text : Owner → String
  | .updater => "updater"
  | .doctor => "doctor"

def Operation.text : Operation → String
  | .switch => "switch"
  | .rollback => "rollback"
  | .selfUpdate => "self-update"
  | .hardwareApply => "hardware-apply"
  | .recover => "recover"
  | .restart => "restart"
  | .installerRefresh => "installer-refresh"
  | .healPluginDeps => "heal-plugin-deps"

/-- `LockInfo`; the updater writes it without a nonce. -/
structure LockInfo where
  owner : Owner
  operation : Operation
  startedAt : String
  pid : Option UInt32
  nonce : Option String
  deriving DecidableEq, Repr

/-- The fields `JSON.stringify` writes: an `undefined` one is left out. -/
def LockInfo.fields (l : LockInfo) : List (String × Json) :=
  [("owner", .str l.owner.text), ("operation", .str l.operation.text), ("startedAt", .str l.startedAt)] ++
    (l.pid.map (fun p => ("pid", Json.num p.toNat))).toList ++ (l.nonce.map (fun n => ("nonce", Json.str n))).toList

def LockInfo.toJson (l : LockInfo) : Json := .obj l.fields

theorem LockInfo.toJson_wf (l : LockInfo) : l.toJson.wf = true := by
  obtain ⟨o, op, t, p, n⟩ := l
  cases p with
  | none => cases n <;> simp [LockInfo.toJson, LockInfo.fields, Json.wf, Json.wfFields, Json.keysOk] <;> decide
  | some p =>
    have hpid : p.toNat ≤ 9007199254740992 := by have := p.toNat_lt; omega
    cases n <;> simp [LockInfo.toJson, LockInfo.fields, Json.wf, Json.wfFields, Json.keysOk] <;>
      exact ⟨by decide, hpid⟩

theorem LockInfo.nonce_toJson (l : LockInfo) : l.toJson.get? "nonce" = l.nonce.map Json.str := by
  obtain ⟨o, op, t, p, n⟩ := l
  cases p <;> cases n <;> rfl

/-! ## Reading the lock -/

inductive FileRead where
  | enoent
  | failed
  | text (t : Text)

/-- `LockState`: no lock file, one that cannot be read or parsed, or what it holds. -/
inductive LockState where
  | absent
  | unreadable
  | lock (l : Json)

def readLockState (J : JsonCodec) : FileRead → LockState
  | .enoent => .absent
  | .failed => .unreadable
  | .text t =>
    match J.parse t with
    | some v => .lock v
    | none => .unreadable

/-- The check of `release`: `state.kind === 'lock' && state.lock.nonce === info.nonce`.  Reading `nonce` of a lock that
is JSON `null` throws, which the surrounding `try` turns into "leave it". -/
def ownsLock (st : LockState) (nonce : Option String) : Bool :=
  match st with
  | .lock l => l.get? "nonce" == nonce.map Json.str
  | _ => false

/-! ## The lock file and the acquisitions -/

inductive Phase where
  /-- `open(lockPath(), 'wx')` is still to come. -/
  | idle
  /-- The file is created, `fh.write` not yet through. -/
  | writing
  /-- The create answered `EEXIST`. -/
  | busy
  /-- `acquireMutex` has rejected with `MutexBusyError`. -/
  | refused
  | held
  /-- `release()` is called, `released` is set, the lock not yet read. -/
  | releasing
  /-- The lock carried the own nonce; the unlink comes next. -/
  | unlinking
  | released
  deriving DecidableEq, Repr

/-- The handle is out and its `release()`, if called, has not resolved. -/
def Phase.holding : Phase → Bool
  | .held | .releasing | .unlinking => true
  | _ => false

def Phase.created (p : Phase) : Bool := p == .writing || p.holding

/-- **The acquisitions of a run**: what each writes to its lock file, with pairwise distinct nonces; the doctor's always
carry one (`randomUUID()`). -/
structure Acquisitions (ι : Type) where
  info : ι → LockInfo
  doctor_nonce : ∀ i, (info i).owner = .doctor → (info i).nonce.isSome = true
  nonce_inj : ∀ i j n, (info i).nonce = some n → (info j).nonce = some n → i = j

/-- **The lock directory**: the file `operation.lock` names, by the acquisition that created it, what each created file
holds, where each acquisition stands, and which of them a `forceClear` has removed the lock of. -/
structure LockFs (ι : Type) where
  path : Option ι
  text : ι → Text
  phase : ι → Phase
  cleared : ι → Bool

def LockFs.init (ι : Type) : LockFs ι := ⟨none, fun _ => [], fun _ => .idle, fun _ => false⟩

def LockFs.read {ι : Type} (s : LockFs ι) : FileRead :=
  match s.path with
  | none => .enoent
  | some i => .text (s.text i)

/-- One file step, or a call that makes none. -/
inductive LockAct (ι : Type) where
  /-- `open(lockPath(), 'wx')` -/
  | create (i : ι)
  /-- `fh.write(body)`, as far as the file holds it -/
  | write (i : ι) (t : Text)
  | acquired (i : ι)
  /-- `readLock()`, then `MutexBusyError` -/
  | refuse (i : ι)
  | release (i : ι)
  /-- the `readLockState()` of `release` -/
  | readLock (i : ι)
  /-- the `unlink(lockPath())` of `release` -/
  | unlink (i : ι)
  /-- the updater unlinks the lock, if it is the one it created -/
  | updaterUnlink (i : ι)
  | forceClear

section
variable {ι : Type} (J : JsonCodec) (A : Acquisitions ι)

/-- What the file may hold during the write: of the doctor's lock text some prefix, which `FileHandle.write` may stop
at; of the updater's any text that carries no other acquisition's nonce. -/
def mayHold (i : ι) (t : Text) : Bool :=
  match (A.info i).owner with
  | .doctor => t.isPrefixOf (J.stringify 0 (A.info i).toJson)
  | .updater =>
    match J.parse t with
    | none => true
    | some v =>
      match v.get? "nonce" with
      | some (.str n) => (A.info i).nonce == some n
      | _ => true

/-- **One step of the lock protocol**: `tryAcquire`, `acquireMutex`, `release` and `forceClear`, a file step at a time. -/
def lockStep [DecidableEq ι] (s : LockFs ι) : LockAct ι → Option (LockFs ι)
  | .create i =>
    if s.phase i = .idle then
      match s.path with
      | none => some { s with path := some i, text := update s.text i [], phase := update s.phase i .writing }
      | some _ => some { s with phase := update s.phase i .busy }
    else none
  | .write i t =>
    if s.phase i = .writing ∧ mayHold J A i t = true then some { s with text := update s.text i t } else none
  | .acquired i => if s.phase i = .writing then some { s with phase := update s.phase i .held } else none
  | .refuse i => if s.phase i = .busy then some { s with phase := update s.phase i .refused } else none
  | .release i =>
    if (A.info i).owner = .doctor then
      match s.phase i with
      | .held => some { s with phase := update s.phase i .releasing }
      -- one-shot: `if (released) return`
      | .releasing | .unlinking | .released => some s
      | _ => none
    else none
  | .readLock i =>
    if s.phase i = .releasing then
      if ownsLock (readLockState J s.read) (A.info i).nonce then some { s with phase := update s.phase i .unlinking }
      else some { s with phase := update s.phase i .released }
    else none
  -- the unlink is blind: it removes whatever the path names now
  | .unlink i =>
    if s.phase i = .unlinking then some { s with path := none, phase := update s.phase i .released } else none
  | .updaterUnlink i =>
    if (A.info i).owner = .updater ∧ s.phase i = .held then
      some { s with path := if s.path = some i then none else s.path, phase := update s.phase i .released }
    else none
  | .forceClear =>
    match s.path with
    | none => some s
    | some i => some { s with path := none, cleared := update s.cleared i true }

/-- **The handle of the acquisition is neither released nor force-cleared**: it was returned, its `release()`, if called,
has not resolved, and no `forceClear` has removed its lock. -/
def LockFs.Holds (s : LockFs ι) (i : ι) : Prop := (s.phase i).holding = true ∧ s.cleared i = false

/-- No `forceClear` falls between the read and the unlink of a release. -/
def clearsOutsideRelease (s : LockFs ι) : LockAct ι → Prop
  | .forceClear => ∀ i, s.phase i ≠ .unlinking
  | _ => True

/-- **The ownership invariant**: who has created a lock and not given it up has it on disk, unless it was force-cleared;
a release about to unlink is about to unlink its own; a file carries no nonce but its creator's. -/
structure LockFs.Inv (s : LockFs ι) : Prop where
  onDisk : ∀ i, (s.phase i).created = true → s.cleared i = false → s.path = some i
  doctor : ∀ i, s.phase i = .releasing ∨ s.phase i = .unlinking → (A.info i).owner = .doctor
  unlinking : ∀ i, s.phase i = .unlinking → s.path = some i
  nonce : ∀ i v n, J.parse (s.text i) = some v → v.get? "nonce" = some (.str n) → (A.info i).nonce = some n

variable {J A}

/-- A text the doctor's lock file may hold carries, if it parses to a lock with a nonce, the own one; so does the
updater's. -/
theorem mayHold_nonce {i : ι} {t : Text} (h : mayHold J A i t = true) {v : Json} {n : String} (hv : J.parse t = some v)
    (hn : v.get? "nonce" = some (.str n)) : (A.info i).nonce = some n := by
  unfold mayHold at h
  split at h
  · have hv' := J.parse_of_prefix (A.info i).toJson_wf (List.isPrefixOf_iff_prefix.1 h) hv
    subst hv'
    rw [show Json.obj (A.info i).fields = (A.info i).toJson from rfl, LockInfo.nonce_toJson] at hn
    simpa using hn
  · rw [hv] at h
    simp only [hn] at h
    simpa using h

theorem parse_nil_nonce {i : ι} {v : Json} {n : String} (hv : J.parse [] = some v)
    (hn : v.get? "nonce" = some (.str n)) : (A.info i).nonce = some n := by
  have hv' := J.parse_of_prefix (A.info i).toJson_wf List.nil_prefix hv
  subst hv'
  rw [show Json.obj (A.info i).fields = (A.info i).toJson from rfl, LockInfo.nonce_toJson] at hn
  simpa using hn

/-- The lock a release finds its own nonce in is its own. -/
theorem ownsLock_path {s : LockFs ι} (hs : s.Inv J A) {i : ι} (hi : (A.info i).owner = .doctor)
    (h : ownsLock (readLockState J s.read) (A.info i).nonce = true) : s.path = some i := by
  obtain ⟨n, hn⟩ := Option.isSome_iff_exists.1 (A.doctor_nonce i hi)
  rw [hn] at h
  cases hp : s.path with
  | none => simp [LockFs.read, hp, readLockState, ownsLock] at h
  | some k =>
    cases hv : J.parse (s.text k) with
    | none => simp [LockFs.read, hp, readLockState, hv, ownsLock] at h
    | some v =>
      simp only [LockFs.read, hp, readLockState, hv, ownsLock, Option.map_some, beq_iff_eq] at h
      rw [A.nonce_inj k i n (hs.nonce k v n hv h) hn]

theorem LockFs.inv_init : (LockFs.init ι).Inv J A where
  onDisk := fun i h => by simp [LockFs.init, Phase.created, Phase.holding] at h
  doctor := fun i h => by simp [LockFs.init] at h
  unlinking := fun i h => by simp [LockFs.init] at h
  nonce := fun i v n hv hn => parse_nil_nonce hv hn

variable [DecidableEq ι]

/-- A step that only moves one acquisition keeps the invariant, unless it makes it a creator or an unlinker of a lock
that is not its own. -/
theorem LockFs.Inv.setPhase {s : LockFs ι} (hs : s.Inv J A) (i : ι) (p : Phase)
    (hc : p.created = true → (s.phase i).created = true)
    (hd : p = .releasing ∨ p = .unlinking → (A.info i).owner = .doctor) (hu : p = .unlinking → s.path = some i) :
    LockFs.Inv J A { s with phase := update s.phase i p } where
  onDisk := (Function.forall_update_iff s.phase
      (p := fun k (q : Phase) => q.created = true → s.cleared k = false → s.path = some k)).2
    ⟨fun h hcl => hs.onDisk i (hc h) hcl, fun k _ => hs.onDisk k⟩
  doctor := (Function.forall_update_iff s.phase
      (p := fun k (q : Phase) => q = .releasing ∨ q = .unlinking → (A.info k).owner = .doctor)).2
    ⟨hd, fun k _ => hs.doctor k⟩
  unlinking := (Function.forall_update_iff s.phase (p := fun k (q : Phase) => q = .unlinking → s.path = some k)).2
    ⟨hu, fun k _ => hs.unlinking k⟩
  nonce := hs.nonce

theorem LockFs.Inv.gone {s : LockFs ι} (hs : s.Inv J A) (i : ι) (hp : s.path = some i) (phase : ι → Phase)
    (cleared : ι → Bool) (hi : (phase i).created = true → cleared i = true)
    (hd : phase i = .releasing ∨ phase i = .unlinking → s.phase i = .releasing) (hu : phase i ≠ .unlinking)
    (hph : ∀ k, k ≠ i → phase k = s.phase k) (hcl : ∀ k, k ≠ i → cleared k = s.cleared k) :
    LockFs.Inv J A { s with path := none, phase := phase, cleared := cleared } where
  onDisk := fun k hk hc => by
    simp only at hk hc
    by_cases hki : k = i
    · subst hki
      rw [hi hk] at hc
      cases hc
    · rw [hph k hki] at hk
      rw [hcl k hki] at hc
      have := hs.onDisk k hk hc
      rw [hp, Option.some.injEq] at this
      exact absurd this.symm hki
  doctor := fun k hk => by
    simp only at hk
    by_cases hki : k = i
    · subst hki; exact hs.doctor k (.inl (hd hk))
    · rw [hph k hki] at hk
      exact hs.doctor k hk
  unlinking := fun k hk => by
    simp only at hk
    by_cases hki : k = i
    · subst hki; exact absurd hk hu
    · rw [hph k hki] at hk
      have := hs.unlinking k hk
      rw [hp, Option.some.injEq] at this
      exact absurd this.symm hki
  nonce := hs.nonce

theorem LockFs.Inv.setText {s : LockFs ι} (hs : s.Inv J A) {i : ι} {t : Text}
    (ht : ∀ v n, J.parse t = some v → v.get? "nonce" = some (.str n) → (A.info i).nonce = some n) :
    LockFs.Inv J A { s with text := update s.text i t } where
  onDisk := hs.onDisk
  doctor := hs.doctor
  unlinking := hs.unlinking
  nonce := (Function.forall_update_iff s.text (p := fun k (t : Text) => ∀ v n, J.parse t = some v →
      v.get? "nonce" = some (.str n) → (A.info k).nonce = some n)).2
    ⟨ht, fun k _ => hs.nonce k⟩

/-- With no lock on disk nobody has one created, so a new one is alone. -/
theorem LockFs.Inv.create {s : LockFs ι} (hs : s.Inv J A) {i : ι} (hp : s.path = none) :
    LockFs.Inv J A { s with path := some i, text := update s.text i [], phase := update s.phase i .writing } where
  onDisk := by
    have hfree : ∀ k, (s.phase k).created = true → s.cleared k = true := fun k hk => by
      by_contra hc
      have hpath := hs.onDisk k hk (by simpa using hc)
      rw [hp] at hpath
      cases hpath
    exact (Function.forall_update_iff s.phase
      (p := fun k (q : Phase) => q.created = true → s.cleared k = false → some i = some k)).2
      ⟨fun _ _ => rfl, fun k _ hk hc => by rw [hfree k hk] at hc; cases hc⟩
  doctor := (Function.forall_update_iff s.phase
      (p := fun k (q : Phase) => q = .releasing ∨ q = .unlinking → (A.info k).owner = .doctor)).2
    ⟨by simp, fun k _ => hs.doctor k⟩
  unlinking := (Function.forall_update_iff s.phase (p := fun k (q : Phase) => q = .unlinking → some i = some k)).2
    ⟨by simp, fun k _ hk => by
      have hpath := hs.unlinking k hk
      rw [hp] at hpath
      cases hpath⟩
  nonce := (hs.setText (fun _ _ hv hn => parse_nil_nonce hv hn)).nonce

/-- **What a step does**, and what it has found. -/
inductive LockMove (J : JsonCodec) (A : Acquisitions ι) (s : LockFs ι) : LockAct ι → LockFs ι → Prop where
  | created {i : ι} : s.phase i = .idle → s.path = none → LockMove J A s (.create i)
      { s with path := some i, text := update s.text i [], phase := update s.phase i .writing }
  | busy {i : ι} : s.phase i = .idle → LockMove J A s (.create i) { s with phase := update s.phase i .busy }
  | written {i : ι} {x : Text} : s.phase i = .writing → mayHold J A i x = true →
      LockMove J A s (.write i x) { s with text := update s.text i x }
  | acquired {i : ι} : s.phase i = .writing → LockMove J A s (.acquired i) { s with phase := update s.phase i .held }
  | refused {i : ι} : s.phase i = .busy → LockMove J A s (.refuse i) { s with phase := update s.phase i .refused }
  | releasing {i : ι} : (A.info i).owner = .doctor → s.phase i = .held →
      LockMove J A s (.release i) { s with phase := update s.phase i .releasing }
  | again {i : ι} : LockMove J A s (.release i) s
  | owned {i : ι} : s.phase i = .releasing → ownsLock (readLockState J s.read) (A.info i).nonce = true →
      LockMove J A s (.readLock i) { s with phase := update s.phase i .unlinking }
  | notOwned {i : ι} : s.phase i = .releasing → LockMove J A s (.readLock i) { s with phase := update s.phase i .released }
  | unlinked {i : ι} : s.phase i = .unlinking →
      LockMove J A s (.unlink i) { s with path := none, phase := update s.phase i .released }
  | updaterUnlinked {i : ι} : s.path = some i →
      LockMove J A s (.updaterUnlink i) { s with path := none, phase := update s.phase i .released }
  | updaterMissed {i : ι} : LockMove J A s (.updaterUnlink i) { s with phase := update s.phase i .released }
  | nothingToClear : LockMove J A s .forceClear s
  | forceCleared {i : ι} : s.path = some i →
      LockMove J A s .forceClear { s with path := none, cleared := update s.cleared i true }

theorem lockStep_cases {s t : LockFs ι} {a : LockAct ι} (h : lockStep J A s a = some t) : LockMove J A s a t := by
  cases a with
  | create i =>
    simp only [lockStep] at h
    split at h
    · rename_i hi
      split at h
      · rename_i hp
        exact Option.some.inj h ▸ .created hi hp
      · exact Option.some.inj h ▸ .busy hi
    · cases h
  | write i x =>
    simp only [lockStep] at h
    split at h
    · rename_i hw
      exact Option.some.inj h ▸ .written hw.1 hw.2
    · cases h
  | acquired i =>
    simp only [lockStep] at h
    split at h
    · rename_i hi
      exact Option.some.inj h ▸ .acquired hi
    · cases h
  | refuse i =>
    simp only [lockStep] at h
    split at h
    · rename_i hi
      exact Option.some.inj h ▸ .refused hi
    · cases h
  | release i =>
    simp only [lockStep] at h
    split at h
    · rename_i hdoc
      split at h
      · rename_i hi
        exact Option.some.inj h ▸ .releasing hdoc hi
      all_goals cases h
      all_goals exact .again
    · cases h
  | readLock i =>
    simp only [lockStep] at h
    split at h
    · rename_i hi
      split at h
      · rename_i hown
        exact Option.some.inj h ▸ .owned hi hown
      · exact Option.some.inj h ▸ .notOwned hi
    · cases h
  | unlink i =>
    simp only [lockStep] at h
    split at h
    · rename_i hi
      exact Option.some.inj h ▸ .unlinked hi
    · cases h
  | updaterUnlink i =>
    simp only [lockStep] at h
    split at h
    · cases h
      split
      · rename_i hp
        exact .updaterUnlinked hp
      · exact .updaterMissed
    · cases h
  | forceClear =>
    simp only [lockStep] at h
    split at h
    · exact Option.some.inj h ▸ .nothingToClear
    · rename_i hp
      exact Option.some.inj h ▸ .forceCleared hp

/-- **Every step keeps ownership**, a `forceClear` outside a release's read and unlink. -/
theorem lockStep_inv (s : LockFs ι) (a : LockAct ι) (t : LockFs ι) (hs : s.Inv J A) (hg : clearsOutsideRelease s a)
    (h : lockStep J A s a = some t) : t.Inv J A := by
  cases lockStep_cases h with
  | created _ hp => exact hs.create hp
  | busy => exact hs.setPhase _ .busy (by simp [Phase.created, Phase.holding]) (by simp) (by simp)
  | written _ hmay => exact hs.setText (fun v n hv hn => mayHold_nonce hmay hv hn)
  | acquired hi => exact hs.setPhase _ .held (fun _ => by rw [hi]; rfl) (by simp) (by simp)
  | refused => exact hs.setPhase _ .refused (by simp [Phase.created, Phase.holding]) (by simp) (by simp)
  | releasing hdoc hi => exact hs.setPhase _ .releasing (fun _ => by rw [hi]; rfl) (fun _ => hdoc) (by simp)
  | again => exact hs
  | owned hi hown =>
    have hdoc := hs.doctor _ (.inl hi)
    exact hs.setPhase _ .unlinking (fun _ => by rw [hi]; rfl) (fun _ => hdoc) (fun _ => ownsLock_path hs hdoc hown)
  | notOwned => exact hs.setPhase _ .released (by simp [Phase.created, Phase.holding]) (by simp) (by simp)
  | unlinked hi =>
    exact hs.gone _ (hs.unlinking _ hi) _ _ (by simp [Phase.created, Phase.holding]) (by simp) (by simp)
      (fun k hk => Function.update_of_ne hk _ _) (fun _ _ => rfl)
  | updaterUnlinked hp =>
    exact hs.gone _ hp _ _ (by simp [Phase.created, Phase.holding]) (by simp) (by simp)
      (fun k hk => Function.update_of_ne hk _ _) (fun _ _ => rfl)
  | updaterMissed => exact hs.setPhase _ .released (by simp [Phase.created, Phase.holding]) (by simp) (by simp)
  | nothingToClear => exact hs
  | @forceCleared i hp =>
    exact hs.gone i hp _ _ (fun _ => Function.update_self ..) (fun h => h.resolve_right (hg i)) (hg i) (fun _ _ => rfl)
      (fun k hk => Function.update_of_ne hk _ _)

theorem exec_acquire {s : LockFs ι} {i : ι} (hdoc : (A.info i).owner = .doctor) (hp : s.path = none)
    (hi : s.phase i = .idle) :
    ∃ t, exec (lockStep J A) s [.create i, .write i (J.stringify 0 (A.info i).toJson), .acquired i] = some t ∧
      t.path = some i ∧ t.phase i = .held ∧ t.text i = J.stringify 0 (A.info i).toJson := by
  have hm : mayHold J A i (J.stringify 0 (A.info i).toJson) = true := by simp [mayHold, hdoc]
  simp only [exec, lockStep, hi, hp, if_true, Option.bind_some, Function.update_self, hm, and_self]
  exact ⟨_, rfl, rfl, Function.update_self .., Function.update_self ..⟩

theorem exec_release {s : LockFs ι} {i : ι} (hdoc : (A.info i).owner = .doctor) (hp : s.path = some i)
    (hi : s.phase i = .held) (ht : s.text i = J.stringify 0 (A.info i).toJson) :
    ∃ t, exec (lockStep J A) s [.release i, .readLock i, .unlink i] = some t ∧ t.path = none := by
  have howns : ownsLock (readLockState J (.text (s.text i))) (A.info i).nonce = true := by
    rw [ht, readLockState, J.parse_stringify_self 0 _ (A.info i).toJson_wf]
    simp [ownsLock, LockInfo.nonce_toJson]
  simp only [exec, lockStep, hdoc, hi, if_true, Option.bind_some, Function.update_self, LockFs.read, hp, howns]
  exact ⟨_, rfl, rfl⟩

/-- **The operation lock is exclusive.**  Over every interleaving of the file steps of any number of acquisitions, their
releases and force-clears, no `forceClear` between the read and the unlink of a release: at most one handle is neither
released nor force-cleared, and the unlink of a release removes no file but the one its acquisition created. -/
theorem lock_exclusive (J : JsonCodec) (A : Acquisitions ι) (as : List (LockAct ι)) (s : LockFs ι)
    (hrun : exec (lockStep J A) (LockFs.init ι) as = some s)
    (hclear : Guarded (lockStep J A) clearsOutsideRelease (LockFs.init ι) as) :
    (∀ i k, s.Holds i → s.Holds k → i = k) ∧
      ∀ i k t, s.path = some k → lockStep J A s (.unlink i) = some t → k = i := by
  have hs : s.Inv J A := exec_inv lockStep_inv as _ s LockFs.inv_init hclear hrun
  have hcreated : ∀ i, s.Holds i → s.path = some i := fun i hi =>
    hs.onDisk i (by rw [Phase.created, hi.1, Bool.or_true]) hi.2
  refine ⟨fun i k hi hk => ?_, fun i k t hk h => ?_⟩
  · have := hcreated i hi
    rw [hcreated k hk, Option.some.injEq] at this
    exact this.symm
  · simp only [lockStep] at h
    split at h
    · rename_i hi
      have := hs.unlinking i hi
      rw [hk, Option.some.injEq] at this
      exact this
    · cases h

end

instance {n : Nat} (s : LockFs (Fin n)) (a : LockAct (Fin n)) : Decidable (clearsOutsideRelease s a) := by
  cases a <;> unfold clearsOutsideRelease <;> infer_instance

/-- Two operations of the doctor and one of the updater. -/
def threeOps : Acquisitions (Fin 3) where
  info := fun
    | 0 => ⟨.doctor, .healPluginDeps, "2026-07-17T00:00:00.000Z", some 7, some "a"⟩
    | 1 => ⟨.doctor, .recover, "2026-07-17T00:00:01.000Z", some 7, some "b"⟩
    | 2 => ⟨.updater, .switch, "2026-07-17T00:00:02.000Z", none, none⟩
  doctor_nonce := by decide
  nonce_inj := fun i j n hi hj => by
    match i, j with
    | 0, 0 | 1, 1 | 2, 2 => rfl
    | 0, 1 | 1, 0 | 2, 0 | 2, 1 | 0, 2 | 1, 2 => exact absurd (hi.trans hj.symm) (by decide)

def healOp : Fin 3 := 0

def recoverOp : Fin 3 := 1

/-- A heal whose lock is force-cleared and taken by `recover`, which it finds and leaves when it releases. -/
def staleRelease : List (LockAct (Fin 3)) :=
  [.create 0, .write 0 (jsonText.stringify 0 (threeOps.info 0).toJson), .acquired 0, .create 2, .refuse 2, .forceClear,
    .create 1, .write 1 ['{'], .release 0, .write 1 (jsonText.stringify 0 (threeOps.info 1).toJson), .acquired 1,
    .readLock 0, .release 0, .release 1, .readLock 1]

theorem lock_exclusive_staleRelease :
    ∃ s, exec (lockStep jsonText threeOps) (LockFs.init (Fin 3)) staleRelease = some s ∧
      (∀ i k, s.Holds i → s.Holds k → i = k) ∧
        ∀ i k t, s.path = some k → lockStep jsonText threeOps s (.unlink i) = some t → k = i := by
  obtain ⟨s, hs⟩ := Option.isSome_iff_exists.1
    (show (exec (lockStep jsonText threeOps) (LockFs.init (Fin 3)) staleRelease).isSome = true by decide +kernel)
  exact ⟨s, hs, lock_exclusive jsonText threeOps staleRelease s hs (by decide +kernel)⟩

end Mutex
end SignalkDoctor
