import SignalkDoctor.DriftStore
import SignalkDoctor.FileWrite
import SignalkDoctor.Restore
import SignalkDoctor.UnixPath
import SignalkDoctor.Writes
/-!
# RestoreDisk — a recovery from any record, on the disk (`src/recovery/restore.ts`)

`last-good.json` is parsed and not validated.  `recoverAll` is followed here over whatever it holds, with the files: each
restore copies the snapshot to a temporary file, renames it over the Quadlet and syncs the directory, and each of the
steps may fail.  `recoverAll_settles_iff` says when the result tells what became of each Quadlet; on a record as the
doctor writes it the result is that of `Restore.recoverAll` (`recoverAll_wellFormed`).
-/
namespace SignalkDoctor
namespace RestoreDisk

open JsRecord (Found)
open Restore (QUADLET_TO_UNIT addUnit unitText)
open Drift (JsVal)

abbrev Bytes := List UInt8

abbrev Disk := List Char → Option Bytes

/-- What the steps of one restore come to; an error is its message. -/
structure RestoreSteps where
  /-- The bytes of the snapshot, where `copyFile` copies them. -/
  copied : Except String Bytes
  /-- What a copy that fails makes of the temporary file; none where it leaves it alone. -/
  leftover : Option (Option Bytes)
  /-- What `copyFile` throws at a path that is none. -/
  invalidArg : String
  renameError : Option String
  dirOpenError : Option String
  dirSyncError : Option String
  dirCloseError : Option String

def RestoreSteps.fsyncDir (s : RestoreSteps) : Option String :=
  SignalkDoctor.fsyncDir s.dirOpenError s.dirSyncError s.dirCloseError

structure Env where
  quadletDir : List Char
  pid : List Char
  steps : String → RestoreSteps
  daemonReload : Except String Unit
  restartUnit : Found String → Except String Unit

def Env.target (env : Env) (quadletName : String) : List Char := UnixPath.join env.quadletDir quadletName.toList

def Env.tmp (env : Env) (quadletName : String) : List Char :=
  env.target quadletName ++ '.' :: (env.pid ++ ".recover.tmp".toList)

/-! ## The record -/

/-- A character past the first plane is two code units; none of their own is read. -/
def codeUnits (s : String) : List Char := s.toList.flatMap (fun c => if c.toNat < 0x10000 then [c] else [c, c])

/-- `Object.entries`, the fields of an object as it enumerates them. -/
def objectEntries : Json → Except String (List (String × Json))
  | .null => .error "Cannot convert undefined or null to object"
  | .bool _ | .num _ => .ok []
  | .str s => .ok ((codeUnits s).zipIdx.map (fun c => (toString c.2, .str (String.singleton c.1))))
  | .arr items => .ok (items.zipIdx.map (fun v => (toString v.2, v.1)))
  | .obj fields => .ok fields

/-- `readLastGood`: what cannot be read or parsed is null. -/
def readLastGood (J : JsonCodec) (body : Option Text) : Json := (body.bind J.parse).getD .null

/-- `Object.entries(lg.quadlets)` -/
def quadletEntries (lg : Json) : Except String (List (String × Json)) := objectEntries ((lg.get? "quadlets").getD .null)

/-- `entry.snapshotPath` -/
def snapshotPathOf : Json → Except String (Option Json)
  | .null => .error "Cannot read properties of null (reading 'snapshotPath')"
  | entry => .ok (entry.get? "snapshotPath")

/-! ## The restores -/

/-- A text, or an object that may pass for a URL. -/
def isPath : Option Json → Bool
  | some (.str _) | some (.obj _) => true
  | _ => false

def copyFile (s : RestoreSteps) (snapshotPath : Option Json) (tmp : List Char) (disk : Disk) : Except String Unit × Disk :=
  if isPath snapshotPath then
    match s.copied with
    | .ok bytes => (.ok (), Function.update disk tmp (some bytes))
    | .error msg =>
      (.error msg, match s.leftover with | none => disk | some part => Function.update disk tmp part)
  else (.error s.invalidArg, disk)

def restoreOne (env : Env) (quadletName : String) (snapshotPath : Option Json) (disk : Disk) : Except String Unit × Disk :=
  let s := env.steps quadletName
  let target := env.target quadletName
  let tmp := env.tmp quadletName
  match copyFile s snapshotPath tmp disk with
  | (.error msg, disk) => (.error msg, disk)
  | (.ok _, disk) =>
    match s.renameError with
    | some msg => (.error msg, disk)
    | none =>
      let disk := Function.update (Function.update disk target (disk tmp)) tmp none
      match s.fsyncDir with
      | some msg => (.error msg, disk)
      | none => (.ok (), disk)

structure Restored where
  quadlet : String
  «from» : Option Json
  toTag : Option Json
  deriving DecidableEq

/-- The entries of `errors`, by what they are about. -/
inductive RecoverError where
  | nothing
  | restore (quadlet msg : String)
  | restart (unit : Found String) (msg : String)
  | daemonReload (msg : String)
  deriving DecidableEq

def RecoverError.text : RecoverError → String
  | .nothing => "no last-known-good entries on disk; nothing to restore"
  | .restore quadlet msg => quadlet ++ ": " ++ msg
  | .restart unit msg => "restart " ++ unitText unit ++ ": " ++ msg
  | .daemonReload msg => "daemon-reload: " ++ msg

def RecoverError.quadlet? : RecoverError → Option String
  | .restore quadlet _ => some quadlet
  | _ => none

structure RecoverResult where
  ok : Bool
  restored : List Restored
  errors : List RecoverError
  deriving DecidableEq

def RecoverResult.fail (result : RecoverResult) (err : RecoverError) : RecoverResult :=
  { result with ok := false, errors := result.errors ++ [err] }

structure RestoreState where
  disk : Disk
  result : RecoverResult
  restartUnits : List (Found String)

def RestoreState.init (disk : Disk) : RestoreState := ⟨disk, ⟨true, [], []⟩, []⟩

/-- The body of the loop; its `try` begins before the entry is looked into. -/
def restoreEntry (env : Env) (s : RestoreState) (e : String × Json) : RestoreState :=
  match snapshotPathOf e.2 with
  | .error msg => { s with result := s.result.fail (.restore e.1 msg) }
  | .ok snapshotPath =>
    match restoreOne env e.1 snapshotPath s.disk with
    | (.error msg, disk) => { s with disk := disk, result := s.result.fail (.restore e.1 msg) }
    | (.ok _, disk) =>
      { disk := disk
        result := { s.result with restored := s.result.restored ++ [⟨e.1, snapshotPath, e.2.get? "tag"⟩] }
        restartUnits :=
          match JsRecord.get? QUADLET_TO_UNIT e.1 with
          | some unit => addUnit s.restartUnits unit
          | none => s.restartUnits }

def restartOne (env : Env) (result : RecoverResult) (unit : Found String) : RecoverResult :=
  match env.restartUnit unit with
  | .ok _ => result
  | .error msg => result.fail (.restart unit msg)

/-- What follows the loop. -/
def reloadAndRestart (env : Env) (s : RestoreState) : RecoverResult :=
  if s.result.restored = [] then { s.result with ok := false }
  else
    match env.daemonReload with
    | .error msg => s.result.fail (.daemonReload msg)
    | .ok _ => s.restartUnits.foldl (restartOne env) s.result

/-- `recoverAll`: its result unless it rejects, and the disk after it. -/
def recoverAll (J : JsonCodec) (env : Env) (body : Option Text) (disk : Disk) : Except String RecoverResult × Disk :=
  let lg := readLastGood J body
  if lg.truthy = false then (.ok ⟨false, [], [.nothing]⟩, disk)
  else
    match quadletEntries lg with
    | .error msg => (.error msg, disk)
    | .ok entries =>
      if entries = [] then (.ok ⟨false, [], [.nothing]⟩, disk)
      else
        let s := entries.foldl (restoreEntry env) (.init disk)
        (.ok (reloadAndRestart env s), s.disk)

/-! ## What a recovery promises -/

def recordEntries (lg : Json) : List (String × Json) :=
  if lg.truthy then (quadletEntries lg).toOption.getD [] else []

/-- **The result tells what became of each Quadlet**: each entry is restored or named in an error, once; what is restored
holds the bytes of its snapshot, and what an error names is as it was. -/
structure Settled (env : Env) (entries : List (String × Json)) (disk after : Disk) (result : RecoverResult) : Prop where
  once : (result.restored.map (·.quadlet) ++ result.errors.filterMap RecoverError.quadlet?).Perm (entries.map Prod.fst)
  restored : ∀ r ∈ result.restored, ∃ bytes, (env.steps r.quadlet).copied = .ok bytes ∧
    after (env.target r.quadlet) = some bytes
  failed : ∀ name ∈ result.errors.filterMap RecoverError.quadlet?, after (env.target name) = disk (env.target name)

def Settles (J : JsonCodec) (env : Env) (body : Option Text) (disk : Disk) : Prop :=
  ∃ result after, recoverAll J env body disk = (.ok result, after) ∧
    Settled env (recordEntries (readLastGood J body)) disk after result

/-- The record is falsy, or its `quadlets` is neither missing nor null. -/
def Readable (lg : Json) : Prop := lg.truthy = true → lg.get? "quadlets" ≠ none ∧ lg.get? "quadlets" ≠ some .null

/-- The snapshot is copied and renamed over the Quadlet. -/
def Env.Commits (env : Env) (e : String × Json) (bytes : Bytes) : Prop :=
  isPath (e.2.get? "snapshotPath") = true ∧ (env.steps e.1).copied = .ok bytes ∧ (env.steps e.1).renameError = none

def Env.writes (env : Env) (e : String × Json) : List (List Char × Option Bytes) :=
  if isPath (e.2.get? "snapshotPath") then
    match (env.steps e.1).copied with
    | .error _ => (env.steps e.1).leftover.toList.map (fun part => (env.tmp e.1, part))
    | .ok bytes =>
      if (env.steps e.1).renameError = none then
        [(env.tmp e.1, some bytes), (env.target e.1, some bytes), (env.tmp e.1, none)]
      else [(env.tmp e.1, some bytes)]
  else []

/-- **The last write to a Quadlet is the one its entry is told by**: of the entries whose steps all succeed, their own
bytes, and of the others what was there. -/
def LastWrites (env : Env) (entries : List (String × Json)) (disk : Disk) : Prop :=
  ∀ e ∈ entries, ∀ content, Writes.last? (entries.flatMap env.writes) (env.target e.1) = some content →
    (∀ bytes, env.Commits e bytes → (env.steps e.1).fsyncDir = none → content = some bytes) ∧
      ((∀ bytes, env.Commits e bytes → (env.steps e.1).fsyncDir ≠ none) → content = disk (env.target e.1))

/-- No Quadlet of the record is the Quadlet or the temporary file of another entry. -/
def Env.Separate (env : Env) (entries : List (String × Json)) : Prop :=
  entries.Pairwise (fun e f => env.target e.1 ≠ env.target f.1) ∧
    ∀ e ∈ entries, ∀ f ∈ entries, env.target e.1 ≠ env.tmp f.1

variable {J : JsonCodec} {env : Env} {body : Option Text} {disk : Disk}

/-! ## One restore -/

def Env.restores (env : Env) (e : String × Json) : Bool :=
  isPath (e.2.get? "snapshotPath") && (env.steps e.1).copied.isOk && (env.steps e.1).renameError.isNone &&
    (env.steps e.1).fsyncDir.isNone

theorem Env.restores_iff (env : Env) (e : String × Json) :
    env.restores e = true ↔ ∃ bytes, env.Commits e bytes ∧ (env.steps e.1).fsyncDir = none := by
  unfold Env.restores Env.Commits
  cases hc : (env.steps e.1).copied with
  | error msg => simp [Except.isOk, Except.toBool]
  | ok bytes => simp [Except.isOk, Except.toBool, and_assoc]

theorem tmp_ne_target (env : Env) (name : String) : env.tmp name ≠ env.target name := by
  intro h
  have hlen := congrArg List.length h
  simp only [Env.tmp, List.length_append, List.length_cons] at hlen
  omega

def restoredOf (e : String × Json) : Restored := ⟨e.1, e.2.get? "snapshotPath", e.2.get? "tag"⟩

/-- **A restore makes its writes**, and throws unless all its steps succeed. -/
theorem restoreOne_spec (env : Env) (e : String × Json) (disk : Disk) :
    (restoreOne env e.1 (e.2.get? "snapshotPath") disk).2 = Writes.apply (env.writes e) disk ∧
      (env.restores e = true ∧ (restoreOne env e.1 (e.2.get? "snapshotPath") disk).1 = .ok () ∨
        env.restores e = false ∧ ∃ msg, (restoreOne env e.1 (e.2.get? "snapshotPath") disk).1 = .error msg) := by
  unfold restoreOne copyFile Env.writes Env.restores
  by_cases hpath : isPath (e.2.get? "snapshotPath") = true
  · simp only [hpath, if_true, Bool.true_and]
    cases hcopied : (env.steps e.1).copied with
    | error msg => cases (env.steps e.1).leftover <;> simp [Except.isOk, Except.toBool]
    | ok bytes =>
      cases hrename : (env.steps e.1).renameError with
      | some msg => simp
      | none => cases (env.steps e.1).fsyncDir <;> simp [Except.isOk, Except.toBool]
  · simp [hpath]

/-- **What an entry adds**: the writes of its restore, and its line in the result. -/
theorem restoreEntry_spec (env : Env) (s : RestoreState) (e : String × Json) :
    (restoreEntry env s e).disk = Writes.apply (env.writes e) s.disk ∧
      (restoreEntry env s e).result.restored = s.result.restored ++ ([e].filter env.restores).map restoredOf ∧
      (restoreEntry env s e).result.errors.filterMap RecoverError.quadlet? =
        s.result.errors.filterMap RecoverError.quadlet? ++ ([e].filter (fun e => !env.restores e)).map Prod.fst := by
  unfold restoreEntry
  cases hnull : snapshotPathOf e.2 with
  | error msg =>
    have he : e.2 = .null := by
      cases he : e.2 <;> simp [he, snapshotPathOf] at hnull
      rfl
    have hno : env.restores e = false := by simp [Env.restores, he, Json.get?, isPath]
    have hwrites : env.writes e = [] := by simp [Env.writes, he, Json.get?, isPath]
    simp [hno, hwrites, RecoverResult.fail, RecoverError.quadlet?]
  | ok snapshotPath =>
    obtain rfl : e.2.get? "snapshotPath" = snapshotPath := by
      cases he : e.2 <;> simp [he, snapshotPathOf] at hnull <;> exact hnull
    obtain ⟨hdisk, hresult⟩ := restoreOne_spec env e s.disk
    cases hone : restoreOne env e.1 (e.2.get? "snapshotPath") s.disk with
    | mk outcome after =>
      rw [hone] at hdisk hresult
      rcases hresult with ⟨hrestores, hok⟩ | ⟨hfails, msg, herr⟩
      · obtain rfl : outcome = .ok () := hok
        simp [hone, hrestores, restoredOf, ← hdisk]
      · obtain rfl : outcome = .error msg := herr
        simp [hone, hfails, RecoverResult.fail, RecoverError.quadlet?, ← hdisk]

/-! ## The whole recovery -/

theorem foldl_restoreEntry (env : Env) : ∀ (entries : List (String × Json)) (s : RestoreState),
    (entries.foldl (restoreEntry env) s).disk = Writes.apply (entries.flatMap env.writes) s.disk ∧
      (entries.foldl (restoreEntry env) s).result.restored =
        s.result.restored ++ (entries.filter env.restores).map restoredOf ∧
      (entries.foldl (restoreEntry env) s).result.errors.filterMap RecoverError.quadlet? =
        s.result.errors.filterMap RecoverError.quadlet? ++ (entries.filter (fun e => !env.restores e)).map Prod.fst
  | [], s => by simp
  | e :: entries, s => by
    obtain ⟨hdisk, hrestored, herrors⟩ := restoreEntry_spec env s e
    obtain ⟨hdisk', hrestored', herrors'⟩ := foldl_restoreEntry env entries (restoreEntry env s e)
    rw [List.foldl_cons]
    refine ⟨?_, ?_, ?_⟩
    · rw [hdisk', hdisk, List.flatMap_cons, Writes.apply_append]
    · rw [hrestored', hrestored, List.append_assoc, ← List.map_append, ← List.filter_append]
      rfl
    · rw [herrors', herrors, List.append_assoc, ← List.map_append, ← List.filter_append]
      rfl

theorem reloadAndRestart_spec (env : Env) (s : RestoreState) : (reloadAndRestart env s).restored = s.result.restored ∧
    (reloadAndRestart env s).errors.filterMap RecoverError.quadlet? = s.result.errors.filterMap RecoverError.quadlet? := by
  have hunits : ∀ (units : List (Found String)) (result : RecoverResult),
      (units.foldl (restartOne env) result).restored = result.restored ∧
        (units.foldl (restartOne env) result).errors.filterMap RecoverError.quadlet? =
          result.errors.filterMap RecoverError.quadlet? := by
    intro units
    induction units with
    | nil => exact fun result => ⟨rfl, rfl⟩
    | cons unit units ih =>
      intro result
      rw [List.foldl_cons, (ih _).1, (ih _).2]
      unfold restartOne
      split
      · exact ⟨rfl, rfl⟩
      · simp [RecoverResult.fail, RecoverError.quadlet?]
  unfold reloadAndRestart
  split
  · exact ⟨rfl, rfl⟩
  · split
    · simp [RecoverResult.fail, RecoverError.quadlet?]
    · exact hunits s.restartUnits s.result

/-- **A run over the entries of a record**: what it returns and leaves, by the writes. -/
structure Ran (env : Env) (entries : List (String × Json)) (disk after : Disk) (result : RecoverResult) : Prop where
  restored : result.restored = (entries.filter env.restores).map restoredOf
  failed : result.errors.filterMap RecoverError.quadlet? = (entries.filter (fun e => !env.restores e)).map Prod.fst
  disk : after = Writes.apply (entries.flatMap env.writes) disk

/-- A recovery resolves exactly when the record is readable. -/
theorem recoverAll_spec (J : JsonCodec) (env : Env) (body : Option Text) (disk : Disk) :
    (Readable (readLastGood J body) ∧ ∃ result after, recoverAll J env body disk = (.ok result, after) ∧
        Ran env (recordEntries (readLastGood J body)) disk after result) ∨
      (¬ Readable (readLastGood J body) ∧ ∃ msg, recoverAll J env body disk = (.error msg, disk)) := by
  simp only [recoverAll, recordEntries]
  generalize readLastGood J body = lg
  cases htruthy : lg.truthy with
  | false =>
    have hreadable : Readable lg := fun h => by
      rw [htruthy] at h
      cases h
    exact .inl ⟨hreadable, _, disk, rfl, rfl, rfl, rfl⟩
  | true =>
    rw [if_neg (by simp), if_pos rfl]
    cases hentries : quadletEntries lg with
    | error msg =>
      refine .inr ⟨fun hreadable => ?_, msg, rfl⟩
      obtain ⟨hsome, hnull⟩ := hreadable htruthy
      obtain ⟨quadlets, hq⟩ := Option.ne_none_iff_exists'.1 hsome
      rw [quadletEntries, hq, Option.getD_some] at hentries
      cases quadlets with
      | null => exact hnull hq
      | bool b => cases hentries
      | num n => cases hentries
      | str s => cases hentries
      | arr items => cases hentries
      | obj fields => cases hentries
    | ok entries =>
      refine .inl ⟨fun _ => ?_, ?_⟩
      · constructor <;> intro hq <;> rw [quadletEntries, hq] at hentries <;> cases hentries
      · dsimp only
        by_cases hnil : entries = []
        · subst hnil
          exact ⟨_, disk, by rw [if_pos rfl], rfl, rfl, rfl⟩
        · rw [if_neg hnil]
          obtain ⟨hdisk, hrestored, herrors⟩ := foldl_restoreEntry env entries (.init disk)
          obtain ⟨hkeeps, hkeepe⟩ := reloadAndRestart_spec env (entries.foldl (restoreEntry env) (.init disk))
          exact ⟨_, _, rfl, hkeeps.trans hrestored, hkeepe.trans herrors, hdisk⟩

theorem last?_of_commits {entries : List (String × Json)} {e : String × Json} {bytes : Bytes} (he : e ∈ entries)
    (hc : env.Commits e bytes) : ∃ content, Writes.last? (entries.flatMap env.writes) (env.target e.1) = some content := by
  obtain ⟨before, after, rfl⟩ := List.append_of_mem he
  obtain ⟨hpath, hcopied, hrename⟩ := hc
  have hwrites : env.writes e = [(env.tmp e.1, some bytes), (env.target e.1, some bytes), (env.tmp e.1, none)] := by
    simp [Env.writes, hpath, hcopied, hrename]
  have hown : ∃ content, Writes.last? (env.writes e) (env.target e.1) = some content := by
    rw [hwrites]
    simp [Writes.last?_cons, Ne.symm (tmp_ne_target env e.1)]
  obtain ⟨content, hcontent⟩ := hown
  rw [List.flatMap_append, List.flatMap_cons, Writes.last?_append, Writes.last?_append, hcontent]
  cases Writes.last? (after.flatMap env.writes) (env.target e.1) <;> simp

/-- What the last write to a Quadlet leaves, by what its entry is told as. -/
theorem lastWrites_iff (entries : List (String × Json)) : LastWrites env entries disk ↔ ∀ e ∈ entries,
    if env.restores e then ∃ bytes, (env.steps e.1).copied = .ok bytes ∧
      Writes.apply (entries.flatMap env.writes) disk (env.target e.1) = some bytes
    else Writes.apply (entries.flatMap env.writes) disk (env.target e.1) = disk (env.target e.1) := by
  refine forall₂_congr (fun e he => ?_)
  rw [Writes.apply_eq]
  cases hrestores : env.restores e with
  | true =>
    obtain ⟨bytes, hc, hsync⟩ := (env.restores_iff e).1 hrestores
    obtain ⟨content, hlast⟩ := last?_of_commits he hc
    have hsame : ∀ bytes', env.Commits e bytes' → bytes' = bytes := fun bytes' hc' => by
      have := hc'.2.1.symm.trans hc.2.1
      injection this
    rw [if_pos rfl, hlast, Option.getD_some]
    constructor
    · intro h
      exact ⟨bytes, hc.2.1, (h content rfl).1 bytes hc hsync⟩
    · rintro ⟨bytes', hcopied, hcontent⟩ content' heq
      cases heq
      have hc' : env.Commits e bytes' := ⟨hc.1, hcopied, hc.2.2⟩
      refine ⟨fun bytes'' hc'' _ => ?_, fun hnever => absurd hsync (hnever bytes hc)⟩
      rw [hsame bytes'' hc'', hcontent, hsame bytes' hc']
  | false =>
    have hnever : ∀ bytes, env.Commits e bytes → (env.steps e.1).fsyncDir ≠ none := fun bytes hc hsync => by
      rw [(env.restores_iff e).2 ⟨bytes, hc, hsync⟩] at hrestores
      cases hrestores
    rw [if_neg Bool.false_ne_true]
    cases hlast : Writes.last? (entries.flatMap env.writes) (env.target e.1) with
    | none => simp
    | some content =>
      rw [Option.getD_some]
      constructor
      · exact fun h => (h content rfl).2 hnever
      · rintro hcontent content' heq
        cases heq
        exact ⟨fun bytes hc hsync => absurd hsync (hnever bytes hc), fun _ => hcontent⟩

/-- **What ran tells the truth exactly when the last writes are those told.** -/
theorem settled_iff_lastWrites {entries : List (String × Json)} {after : Disk} {result : RecoverResult}
    (hran : Ran env entries disk after result) : Settled env entries disk after result ↔ LastWrites env entries disk := by
  obtain ⟨hrestored, hfailed, rfl⟩ := hran
  rw [lastWrites_iff]
  constructor
  · intro h e he
    cases hrestores : env.restores e with
    | true =>
      rw [if_pos rfl]
      refine h.restored (restoredOf e) ?_
      rw [hrestored]
      exact List.mem_map_of_mem (List.mem_filter.2 ⟨he, hrestores⟩)
    | false =>
      rw [if_neg Bool.false_ne_true]
      refine h.failed e.1 ?_
      rw [hfailed]
      exact List.mem_map_of_mem (List.mem_filter.2 ⟨he, by rw [hrestores]; rfl⟩)
  · intro h
    refine ⟨?_, fun r hr => ?_, fun name hname => ?_⟩
    · rw [hrestored, hfailed, List.map_map]
      have hperm := List.filter_append_perm env.restores entries
      exact (List.map_append (f := Prod.fst) ▸ hperm.map Prod.fst :)
    · rw [hrestored] at hr
      obtain ⟨e, he, rfl⟩ := List.mem_map.1 hr
      obtain ⟨he, hrestores⟩ := List.mem_filter.1 he
      have := h e he
      rwa [if_pos hrestores] at this
    · rw [hfailed] at hname
      obtain ⟨e, he, rfl⟩ := List.mem_map.1 hname
      obtain ⟨he, hfails⟩ := List.mem_filter.1 he
      have := h e he
      rwa [if_neg (by simpa using hfails)] at this

/-- Where no other entry writes a Quadlet, its last write is that of its own restore. -/
theorem last?_of_separate {entries : List (String × Json)} (hsep : env.Separate entries) {e : String × Json}
    (he : e ∈ entries) : Writes.last? (entries.flatMap env.writes) (env.target e.1) =
      Writes.last? (env.writes e) (env.target e.1) := by
  obtain ⟨before, after, rfl⟩ := List.append_of_mem he
  obtain ⟨htargets, htmps⟩ := hsep
  have hother : ∀ l : List (String × Json), (∀ f ∈ l, f ∈ before ++ e :: after ∧ env.target e.1 ≠ env.target f.1) →
      Writes.last? (l.flatMap env.writes) (env.target e.1) = none := by
    intro l hl
    refine Writes.last?_eq_none (fun w hw => ?_)
    obtain ⟨f, hf, hw⟩ := List.mem_flatMap.1 hw
    obtain ⟨hmem, htarget⟩ := hl f hf
    have htmp : env.tmp f.1 ≠ env.target e.1 := (htmps e he f hmem).symm
    unfold Env.writes at hw
    split at hw
    · split at hw
      · obtain ⟨part, -, rfl⟩ := List.mem_map.1 hw
        exact htmp
      · split at hw
        · simp only [List.mem_cons, List.not_mem_nil, or_false] at hw
          rcases hw with rfl | rfl | rfl
          · exact htmp
          · exact htarget.symm
          · exact htmp
        · rw [List.mem_singleton.1 hw]
          exact htmp
    · cases hw
  obtain ⟨-, hcons, hbefore⟩ := List.pairwise_append.1 htargets
  have hafter := (List.pairwise_cons.1 hcons).1
  rw [List.flatMap_append, List.flatMap_cons, Writes.last?_append, Writes.last?_append,
    hother after (fun f hf => ⟨by simp [hf], hafter f hf⟩),
    hother before (fun f hf => ⟨by simp [hf], (hbefore f hf e (List.mem_cons_self ..)).symm⟩), Option.none_or, Option.or_none]

theorem last?_writes (env : Env) (e : String × Json) (content : Option Bytes) :
    Writes.last? (env.writes e) (env.target e.1) = some content ↔ ∃ bytes, env.Commits e bytes ∧ content = some bytes := by
  have htmp : env.target e.1 ≠ env.tmp e.1 := (tmp_ne_target env e.1).symm
  unfold Env.writes Env.Commits
  by_cases hpath : isPath (e.2.get? "snapshotPath") = true
  · rw [if_pos hpath]
    cases hcopied : (env.steps e.1).copied with
    | error msg => cases (env.steps e.1).leftover <;> simp [Writes.last?_cons, htmp]
    | ok bytes =>
      cases hrename : (env.steps e.1).renameError with
      | some msg => simp [Writes.last?_cons, htmp]
      | none => simp [Writes.last?_cons, htmp, hpath, eq_comm]
  · simp [hpath]

/-- **Where the entries name files of their own**, only a directory sync can betray one: failing after the rename, it
must find what was renamed to be what was there. -/
theorem lastWrites_of_separate {entries : List (String × Json)} (hsep : env.Separate entries) :
    LastWrites env entries disk ↔ ∀ e ∈ entries, ∀ bytes, env.Commits e bytes → (env.steps e.1).fsyncDir ≠ none →
      disk (env.target e.1) = some bytes := by
  refine forall₂_congr (fun e he => ?_)
  simp only [last?_of_separate hsep he, last?_writes]
  have hsame : ∀ bytes bytes', env.Commits e bytes → env.Commits e bytes' → bytes = bytes' := fun bytes bytes' hc hc' => by
    have := hc.2.1.symm.trans hc'.2.1
    injection this
  constructor
  · intro h bytes hc hsync
    exact ((h (some bytes) ⟨bytes, hc, rfl⟩).2 (fun _ _ => hsync)).symm
  · rintro h content ⟨bytes, hc, rfl⟩
    refine ⟨fun bytes' hc' _ => by rw [hsame bytes bytes' hc hc'], fun hnever => ?_⟩
    exact (h bytes hc (hnever bytes hc)).symm

/-- **The result tells what became of each Quadlet exactly when the record is readable and the last write to each is the
one it is told by**; where the entries name files of their own, that is up to the directory syncs. -/
theorem recoverAll_settles_iff (J : JsonCodec) (env : Env) (body : Option Text) (disk : Disk) :
    (Settles J env body disk ↔
      Readable (readLastGood J body) ∧ LastWrites env (recordEntries (readLastGood J body)) disk) ∧
    (env.Separate (recordEntries (readLastGood J body)) →
      (LastWrites env (recordEntries (readLastGood J body)) disk ↔
        ∀ e ∈ recordEntries (readLastGood J body), ∀ bytes, env.Commits e bytes → (env.steps e.1).fsyncDir ≠ none →
          disk (env.target e.1) = some bytes)) := by
  refine ⟨?_, lastWrites_of_separate⟩
  rcases recoverAll_spec J env body disk with ⟨hreadable, result, after, hresolves, hran⟩ | ⟨hno, msg, hrejects⟩
  · rw [and_iff_right hreadable, ← settled_iff_lastWrites hran]
    constructor
    · rintro ⟨result', after', hresolves', hsettled⟩
      rw [hresolves] at hresolves'
      cases hresolves'
      exact hsettled
    · exact fun h => ⟨result, after, hresolves, h⟩
  · refine iff_of_false ?_ (fun h => hno h.1)
    rintro ⟨result, after, hresolves, -⟩
    rw [hrejects] at hresolves
    cases hresolves

/-! ## A record as the doctor writes it -/

def entryJson (e : Restore.LastGoodEntry) : Json :=
  .obj [("tag", .str e.tag), ("image", .str e.image), ("snapshotPath", .str e.snapshotPath)]

def lastGoodJson (lg : Restore.LastGood) : Json :=
  .obj [("updatedAt", .str lg.updatedAt), ("quadlets", .obj (lg.quadlets.map (fun e => (e.1, entryJson e.2))))]

def RestoreSteps.outcome (s : RestoreSteps) : Except String Unit :=
  match s.copied with
  | .error msg => .error msg
  | .ok _ =>
    match s.renameError.or s.fsyncDir with
    | some msg => .error msg
    | none => .ok ()

def Env.recoverEnv (env : Env) : Restore.RecoverEnv where
  restoreOne := fun quadlet _ => (env.steps quadlet).outcome
  daemonReload := env.daemonReload
  restartUnit := env.restartUnit

def textOf : Option Json → String
  | some (.str s) => s
  | _ => ""

/-- The result, its errors as their texts. -/
def RecoverResult.told (result : RecoverResult) : Restore.RecoverResult where
  ok := result.ok
  restored := result.restored.map (fun r => ⟨r.quadlet, textOf r.from, textOf r.toTag⟩)
  errors := result.errors.map RecoverError.text

structure Alike (s : RestoreState) (t : Restore.RestoreState) : Prop where
  result : s.result.told = t.result
  restartUnits : s.restartUnits = t.restartUnits

theorem told_fail (result : RecoverResult) (err : RecoverError) : (result.fail err).told =
    { result.told with ok := false, errors := result.told.errors ++ [err.text] } := by
  simp [RecoverResult.fail, RecoverResult.told]

theorem restoreOne_outcome (env : Env) (name path : String) (disk : Disk) :
    (restoreOne env name (some (.str path)) disk).1 = (env.steps name).outcome := by
  unfold restoreOne copyFile RestoreSteps.outcome
  simp only [isPath, if_true]
  cases (env.steps name).copied with
  | error msg => rfl
  | ok bytes =>
    cases (env.steps name).renameError with
    | some msg => rfl
    | none => cases (env.steps name).fsyncDir <;> rfl

theorem alike_restoreEntry {s : RestoreState} {t : Restore.RestoreState} (h : Alike s t)
    (e : String × Restore.LastGoodEntry) :
    Alike (restoreEntry env s (e.1, entryJson e.2)) (Restore.restoreEntry env.recoverEnv t e) := by
  obtain ⟨hresult, hunits⟩ := h
  have hpath : snapshotPathOf (entryJson e.2) = .ok (some (.str e.2.snapshotPath)) := rfl
  have htag : (entryJson e.2).get? "tag" = some (.str e.2.tag) := rfl
  have hone := restoreOne_outcome env e.1 e.2.snapshotPath s.disk
  have henv : env.recoverEnv.restoreOne e.1 e.2.snapshotPath = (env.steps e.1).outcome := rfl
  simp only [restoreEntry, hpath, htag, Restore.restoreEntry, henv, ← hone]
  cases hrun : restoreOne env e.1 (some (.str e.2.snapshotPath)) s.disk with
  | mk outcome after =>
    cases outcome with
    | error msg =>
      refine ⟨?_, hunits⟩
      dsimp only
      rw [told_fail, hresult]
      rfl
    | ok _ =>
      constructor
      · rw [← hresult]
        simp [RecoverResult.told, textOf]
      · exact hunits ▸ rfl

theorem alike_foldl (env : Env) : ∀ (entries : List (String × Restore.LastGoodEntry)) {s : RestoreState}
    {t : Restore.RestoreState}, Alike s t → Alike ((entries.map (fun e => (e.1, entryJson e.2))).foldl (restoreEntry env) s)
      (entries.foldl (Restore.restoreEntry env.recoverEnv) t)
  | [], _, _, h => h
  | e :: entries, _, _, h => alike_foldl env entries (alike_restoreEntry h e)

theorem told_restartOne : ∀ (units : List (Found String)) (result : RecoverResult),
    (units.foldl (restartOne env) result).told = units.foldl (Restore.restartOne env.recoverEnv) result.told
  | [], _ => rfl
  | unit :: units, result => by
    have hone : (restartOne env result unit).told = Restore.restartOne env.recoverEnv result.told unit := by
      have henv : env.recoverEnv.restartUnit unit = env.restartUnit unit := rfl
      unfold restartOne Restore.restartOne
      rw [henv]
      cases env.restartUnit unit with
      | ok _ => rfl
      | error msg => exact told_fail result _
    rw [List.foldl_cons, List.foldl_cons, told_restartOne units, hone]

/-- **On a record as the doctor writes it the recovery is `Restore.recoverAll`.** -/
theorem recoverAll_wellFormed (J : JsonCodec) (env : Env) (lg : Restore.LastGood) (body : Option Text) (disk : Disk)
    (h : readLastGood J body = lastGoodJson lg) :
    ∃ result after, recoverAll J env body disk = (.ok result, after) ∧
      result.told = (Restore.recoverAll env.recoverEnv (some lg)).2 := by
  have hentries : quadletEntries (lastGoodJson lg) = .ok (lg.quadlets.map (fun e => (e.1, entryJson e.2))) := rfl
  have htruthy : (lastGoodJson lg).truthy = true := rfl
  simp only [recoverAll, h, htruthy, hentries, Restore.recoverAll, Bool.true_eq_false, if_false, List.map_eq_nil_iff]
  by_cases hnil : lg.quadlets = []
  · rw [if_pos hnil, if_pos hnil]
    exact ⟨_, _, rfl, rfl⟩
  · rw [if_neg hnil, if_neg hnil]
    refine ⟨_, _, rfl, ?_⟩
    obtain ⟨hresult, hunits⟩ := alike_foldl env lg.quadlets (s := .init disk) (t := ⟨[], ⟨true, [], []⟩, []⟩) ⟨rfl, rfl⟩
    unfold reloadAndRestart
    generalize (lg.quadlets.map (fun e => (e.1, entryJson e.2))).foldl (restoreEntry env) (.init disk) = s at *
    generalize lg.quadlets.foldl (Restore.restoreEntry env.recoverEnv) ⟨[], ⟨true, [], []⟩, []⟩ = t at *
    have hnone : s.result.restored = [] ↔ t.result.restored = [] := by
      rw [← hresult]
      exact List.map_eq_nil_iff.symm
    have hreload : env.recoverEnv.daemonReload = env.daemonReload := rfl
    by_cases hr : s.result.restored = []
    · rw [if_pos hr, if_pos (hnone.1 hr), ← hresult]
      rfl
    · rw [if_neg hr, if_neg (fun ht => hr (hnone.2 ht)), hreload]
      cases env.daemonReload with
      | error msg =>
        dsimp only
        rw [told_fail, hresult]
        rfl
      | ok _ =>
        dsimp only
        rw [told_restartOne, hresult, hunits]

def healthyEnv : Env where
  quadletDir := "/quadlets".toList
  pid := "1".toList
  steps := fun _ => ⟨.ok [], none, "", none, none, none, none⟩
  daemonReload := .ok ()
  restartUnit := fun _ => .ok ()

/-- A record that is the empty object makes the recovery reject. -/
theorem recoverAll_emptyRecord : ¬ ∀ (J : JsonCodec) (env : Env) (body : Option Text) (disk : Disk),
    Settles J env body disk := by
  intro h
  obtain ⟨result, after, hresolves, -⟩ := h jsonText healthyEnv (some (jsonText.stringify 0 (.obj []))) (fun _ => none)
  have hparsed : readLastGood jsonText (some (jsonText.stringify 0 (.obj []))) = .obj [] := by
    rw [readLastGood, Option.bind_some, jsonText.parse_stringify_self 0 (.obj []) rfl]
    rfl
  simp only [recoverAll, hparsed] at hresolves
  cases hresolves

end RestoreDisk
end SignalkDoctor
