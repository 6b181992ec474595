import SignalkDoctor.HealJobs
import SignalkDoctor.Mutex
/-!
# HealLock — the operation lock over a heal (`src/routes/drift.ts`, `POST /api/drift/heal`)

The world of one doctor: the lock file, the other operations guarded by it, the heal jobs the requests start, and the
`npm update` processes in the container.  One step is a file step of an acquisition or release, a move of a heal from one
await to the next, a request, or the container starting or ending a process; the steps of all parties come in any order
(`worldStep`).

`World.Inv` carries the guarantee: a heal whose npm may run (`JobPc.mayRun`) has not given up its lock (`JobPc.keepsLock`),
and a running process belongs to such a heal.
-/
namespace SignalkDoctor
namespace HealLock

open Steps (exec exec_inv')
open Mutex Exec Heal HealJobs
open Function (update)

/-- Where the job of a heal stands: the run handed to `startHealJob`. -/
inductive JobPc where
  | notStarted
  /-- `acquireMutex('heal-plugin-deps')` is pending. -/
  | acquiring
  | running (pc : HealPc)
  /-- The run is over, but for the release of the lock if it is not kept. -/
  | returning (r : Except String HealResult)
  | settled (r : Except String HealResult)

/-- The world; a job is named by the acquisition it makes, and so is the npm process of its heal. -/
structure World (ι : Type) where
  fs : LockFs ι
  /-- The `fn` of a `withMutex`, or the updater's operation, is under way. -/
  body : ι → Bool
  job : ι → JobPc
  proc : ι → Proc
  jobs : Jobs ι HealResult
  /-- The requests that await `readLock()`. -/
  posts : Nat

def World.init (ι : Type) : World ι :=
  ⟨LockFs.init ι, fun _ => false, fun _ => .notStarted, fun _ => .notStarted, [], 0⟩

/-- `result !== null && !result.ok && result.lockRetained === true` -/
def retainLock : Except String HealResult → Bool
  | .error _ => false
  | .ok r => r.lockRetained

/-- What the run returns when the lock is busy; the lock is given by the texts of its fields. -/
def lockBusy (owner operation startedAt : String) : HealResult :=
  .failure ⟨.exec, "operation lock held by " ++ owner ++ "/" ++ operation ++ " since " ++ startedAt ++
    " — wait for it to finish and retry", none, none, none, none⟩

/-- `readLock()` gives a lock, which `if (lock)` takes. -/
def lockSeen : LockState → Bool
  | .lock l => l.truthy
  | _ => false

def settled? : HealPc → Option (Except String HealResult)
  | .returned r => some (.ok r)
  | .rejected msg => some (.error msg)
  | _ => none

inductive WorldAct (ι : Type) where
  /-- A file step, or a call of `release()`, of the acquisition; a refusal reads the lock it met. -/
  | file (a : LockAct ι) (owner operation startedAt : String)
  | bodyEnd (i : ι)
  | post
  /-- The `readLock()` of a request resolves; a fresh job may start. -/
  | postLockRead (lock : LockState) (j : ι) (startedAt : String)
  | heal (j : ι) (a : HealAct)
  | procStart (j : ι)
  | procExit (j : ι)
  /-- `healRunner` has settled and the `finally` runs. -/
  | finish (j : ι)
  | settle (j : ι) (finishedAt : String)

section
variable {ι : Type} (J : JsonCodec) (A : Acquisitions ι) (call : ExecCall)

def isHeal (i : ι) : Bool := (A.info i).owner == .doctor && (A.info i).operation == .healPluginDeps

def lockText (i : ι) : Text := J.stringify 0 (A.info i).toJson

/-- The job of the heal awaits `acquireMutex`; for another operation nothing is asked. -/
def World.mayAcquire (w : World ι) (i : ι) : Bool :=
  !isHeal A i || (match w.job i with | .acquiring => true | _ => false)

/-- **Where the file step stands in the code of its party**: an acquisition of a heal is its job's, a doctor's handle is
returned once the write is through, a `withMutex` releases when its body has settled, a heal in its `finally` only
(`finish`), and nobody force-clears. -/
def World.fileReady (w : World ι) : LockAct ι → Bool
  | .create i | .write i _ | .refuse i => w.mayAcquire A i
  | .acquired i => w.mayAcquire A i && ((A.info i).owner == .updater || w.fs.text i == lockText J A i)
  | .release i => !isHeal A i && !w.body i
  | .updaterUnlink i => !w.body i
  | .readLock _ | .unlink _ => true
  | .forceClear => false

/-- What the party does when the step is through: with the lock in hand the body starts, or the heal. -/
def World.afterFile [DecidableEq ι] (w : World ι) (busy : HealResult) : LockAct ι → World ι
  | .acquired i =>
    if isHeal A i then { w with job := update w.job i (.running .loading) } else { w with body := update w.body i true }
  | .refuse i => if isHeal A i then { w with job := update w.job i (.returning (.ok busy)) } else w
  | _ => w

/-- The exec API is free but for one thing: of a running process `inspect` says that it runs. -/
def answersTruly (proc : Proc) : HealAct → Bool
  | .exec a => inspectTruthful proc a
  | _ => true

/-- `exec.start({})` is pending: the process of the heal may start. -/
def JobPc.starting : JobPc → Bool
  | .running pc => pc.starting
  | _ => false

/-- **One step of the world.** -/
def worldStep [DecidableEq ι] (w : World ι) : WorldAct ι → Option (World ι)
  | .file a owner operation startedAt =>
    if w.fileReady J A a then
      (lockStep J A w.fs a).map (fun fs => World.afterFile A { w with fs := fs } (lockBusy owner operation startedAt) a)
    else none
  | .bodyEnd i => if w.body i then some { w with body := update w.body i false } else none
  | .post =>
    match findRunningHealJob w.jobs with
    | some _ => some w
    | none => some { w with posts := w.posts + 1 }
  | .postLockRead lock j startedAt =>
    if w.posts = 0 then none
    -- the job started meanwhile, or 409
    else if lockSeen lock then some { w with posts := w.posts - 1 }
    else
      let (started, jobs) := startHealJob w.jobs j startedAt
      if started.reused then some { w with posts := w.posts - 1 }
      else
        match w.job j with
        | .notStarted =>
          if isHeal A j then some { w with posts := w.posts - 1, jobs := jobs, job := update w.job j .acquiring } else none
        | _ => none
  | .heal j a =>
    match w.job j with
    | .running pc =>
      if answersTruly (w.proc j) a then
        (healStep call pc a).map (fun pc' => { w with job := update w.job j (.running pc') })
      else none
    | _ => none
  | .procStart j =>
    if (w.job j).starting ∧ w.proc j = .notStarted then some { w with proc := update w.proc j .running } else none
  | .procExit j => if w.proc j = .running then some { w with proc := update w.proc j .exited } else none
  | .finish j =>
    match w.job j with
    | .running pc =>
      match settled? pc with
      | none => none
      | some r =>
        if retainLock r then some { w with job := update w.job j (.returning r) }
        else (lockStep J A w.fs (.release j)).map (fun fs => { w with fs := fs, job := update w.job j (.returning r) })
    | _ => none
  | .settle j finishedAt =>
    match w.job j with
    | .returning r =>
      -- `await handle.release()` has resolved, where it was called
      if retainLock r ∨ w.fs.phase j = .released ∨ w.fs.phase j = .refused then
        some { w with job := update w.job j (.settled r), jobs := finalizeHealJob w.jobs j finishedAt r }
      else none
    | _ => none

/-! ## The guarantee -/

/-- The npm process of the job may be running. -/
def JobPc.mayRun : JobPc → Bool
  | .notStarted | .acquiring => false
  | .running pc => pc.mayRun
  | .returning r | .settled r => retainLock r

/-- The job has its lock and has not given it up. -/
def JobPc.keepsLock : JobPc → Bool
  | .notStarted | .acquiring => false
  | .running _ => true
  | .returning r | .settled r => retainLock r

/-- The body the lock of `i` guards is executing. -/
def World.executing (w : World ι) (i : ι) : Bool :=
  w.body i || (match w.job i with | .running _ => true | _ => false)

/-- **The invariant of the world**: a body executes under a held lock; so does a heal, whose lock carries its text and is
held for as long as its npm may run. -/
structure World.Inv (w : World ι) : Prop where
  lock : w.fs.Inv J A
  uncleared : ∀ i, w.fs.cleared i = false
  body : ∀ i, w.body i = true → w.fs.phase i = .held ∧ isHeal A i = false
  job : ∀ j, (w.job j).keepsLock = true → w.fs.phase j = .held ∧ w.fs.text j = lockText J A j ∧ isHeal A j = true
  proc : ∀ j, w.proc j = .running → (w.job j).mayRun = true

variable {J A call}

theorem isHeal_owner {i : ι} (h : isHeal A i = true) : (A.info i).owner = .doctor := by
  simp only [isHeal, Bool.and_eq_true, beq_iff_eq] at h
  exact h.1

theorem JobPc.keepsLock_of_mayRun {j : JobPc} (h : j.mayRun = true) : j.keepsLock = true := by
  cases j with
  | running pc => rfl
  | notStarted => cases h
  | acquiring => cases h
  | returning r => exact h
  | settled r => exact h

theorem JobPc.mayRun_of_starting {j : JobPc} (h : j.starting = true) : j.mayRun = true := by
  cases j with
  | running pc => exact HealPc.mayRun_of_starting h
  | _ => cases h

/-- A settled run keeps the lock exactly when its npm may run. -/
theorem retainLock_settled? {pc : HealPc} {r : Except String HealResult} (h : settled? pc = some r) :
    retainLock r = pc.mayRun := by
  cases pc <;> simp only [settled?, Option.some.injEq, reduceCtorEq] at h <;> subst h <;> rfl

theorem World.inv_init : (World.init ι).Inv J A where
  lock := LockFs.inv_init
  uncleared := fun _ => rfl
  body := fun i h => by cases h
  job := fun j h => by cases h
  proc := fun j h => by cases h

/-- The guard of a file step, in words: nobody force-clears, and a body or a heal that needs its lock keeps it. -/
theorem World.fileReady_keeps {w : World ι} {a : LockAct ι} (hw : w.Inv J A) (h : w.fileReady J A a = true) :
    a ≠ .forceClear ∧ (∀ i, a = .release i ∨ a = .updaterUnlink i → w.body i = false) ∧
      ∀ i, a = .release i → (w.job i).keepsLock = false := by
  refine ⟨fun e => ?_, fun i e => ?_, fun i e => ?_⟩
  · subst e
    cases h
  · rcases e with rfl | rfl <;> simp only [World.fileReady, Bool.and_eq_true, Bool.not_eq_true'] at h
    · exact h.2
    · exact h
  · subst e
    simp only [World.fileReady, Bool.and_eq_true, Bool.not_eq_true'] at h
    by_contra hk
    have := (hw.job i (by simpa using hk)).2.2
    rw [h.1] at this
    cases this

theorem World.mayAcquire_job {w : World ι} {i : ι} (h : w.mayAcquire A i = true) (hheal : isHeal A i = true) :
    w.job i = .acquiring := by
  simp only [World.mayAcquire, hheal, Bool.not_true, Bool.false_or] at h
  split at h
  · assumption
  · cases h

theorem World.Inv.path_of_held {w : World ι} (hw : w.Inv J A) {i : ι} (h : w.fs.phase i = .held) : w.fs.path = some i :=
  hw.lock.onDisk i (by rw [h]; rfl) (hw.uncleared i)

theorem World.Inv.held_of_executing {w : World ι} (hw : w.Inv J A) {i : ι} (h : w.executing i = true) :
    w.fs.phase i = .held := by
  simp only [World.executing, Bool.or_eq_true] at h
  rcases h with hb | hj
  · exact (hw.body i hb).1
  · refine (hw.job i ?_).1
    split at hj
    · rename_i pc hpc
      rw [hpc]
      rfl
    · cases hj

/-- A heal's acquisition guards no other body. -/
theorem World.Inv.body_false_of_job {w : World ι} (hw : w.Inv J A) {i : ι} (h : (w.job i).keepsLock = true) :
    w.body i = false := by
  by_contra hb
  have := (hw.body i (by simpa using hb)).2
  rw [(hw.job i h).2.2] at this
  cases this

variable [DecidableEq ι]

/-! ## What a file step leaves alone -/

theorem lockStep_cleared {s t : LockFs ι} {a : LockAct ι} (h : lockStep J A s a = some t) (ha : a ≠ .forceClear) :
    t.cleared = s.cleared := by
  cases lockStep_cases h with
  | nothingToClear | forceCleared _ => exact absurd rfl ha
  | _ => rfl

/-- Of a held lock no step changes the phase or the text, but a call of its release or the updater's unlink. -/
theorem lockStep_held {s t : LockFs ι} {a : LockAct ι} {k : ι} (h : lockStep J A s a = some t) (hk : s.phase k = .held)
    (hrel : a ≠ .release k) (hupd : a ≠ .updaterUnlink k) : t.phase k = .held ∧ t.text k = s.text k := by
  have hother : ∀ {i p}, s.phase i = p → p ≠ .held → k ≠ i := by
    rintro i p hi hp rfl
    exact hp (hi.symm.trans hk)
  have hkept : ∀ {i p}, k ≠ i → update s.phase i p k = .held := fun hne => (Function.update_of_ne hne _ _).trans hk
  cases lockStep_cases h with
  | created hi _ =>
    have hne := hother hi (by decide)
    exact ⟨hkept hne, Function.update_of_ne hne _ _⟩
  | written hi _ => exact ⟨hk, Function.update_of_ne (hother hi (by decide)) _ _⟩
  | busy hi | acquired hi | refused hi | owned hi _ | notOwned hi | unlinked hi =>
    exact ⟨hkept (hother hi (by decide)), rfl⟩
  | releasing _ _ => exact ⟨hkept (fun e => hrel (congrArg _ e.symm)), rfl⟩
  | updaterUnlinked _ | updaterMissed => exact ⟨hkept (fun e => hupd (congrArg _ e.symm)), rfl⟩
  | again | nothingToClear | forceCleared _ => exact ⟨hk, rfl⟩

theorem lockStep_acquired {s t : LockFs ι} {i : ι} (h : lockStep J A s (.acquired i) = some t) :
    t.phase i = .held ∧ t.text = s.text := by
  cases lockStep_cases h with
  | acquired _ => exact ⟨Function.update_self .., rfl⟩

/-! ## What a step keeps -/

/-- A file step keeps the invariant, unless it gives up a lock a body or a heal rests on. -/
theorem World.Inv.setFs {w : World ι} (hw : w.Inv J A) {a : LockAct ι} {fs : LockFs ι} (h : lockStep J A w.fs a = some fs)
    (hclear : a ≠ .forceClear) (hbody : ∀ i, a = .release i ∨ a = .updaterUnlink i → w.body i = false)
    (hjob : ∀ i, a = .release i → (w.job i).keepsLock = false) : World.Inv J A { w with fs := fs } where
  lock := lockStep_inv w.fs a fs hw.lock (by cases a <;> trivial) h
  uncleared := fun i => by
    rw [lockStep_cleared h hclear]
    exact hw.uncleared i
  body := fun i hi => by
    obtain ⟨hheld, hother⟩ := hw.body i hi
    refine ⟨(lockStep_held h hheld (fun e => ?_) (fun e => ?_)).1, hother⟩
    · rw [hbody i (.inl e)] at hi
      cases hi
    · rw [hbody i (.inr e)] at hi
      cases hi
  job := fun j hj => by
    obtain ⟨hheld, htext, hheal⟩ := hw.job j hj
    have hrel : a ≠ .release j := fun e => by
      rw [hjob j e] at hj
      cases hj
    -- the updater unlinks no lock of the doctor
    have hupd : a ≠ .updaterUnlink j := fun e => by
      subst e
      simp [lockStep, isHeal_owner hheal] at h
    obtain ⟨hheld', htext'⟩ := lockStep_held h hheld hrel hupd
    exact ⟨hheld', htext'.trans htext, hheal⟩
  proc := hw.proc

/-- A move of one job keeps the invariant, if it keeps the lock it holds while its npm may run. -/
theorem World.Inv.setJob {w : World ι} (hw : w.Inv J A) (j : ι) (q : JobPc)
    (hq : q.keepsLock = true → w.fs.phase j = .held ∧ w.fs.text j = lockText J A j ∧ isHeal A j = true)
    (hproc : w.proc j = .running → q.mayRun = true) (jobs : Jobs ι HealResult) (posts : Nat) :
    World.Inv J A { w with job := update w.job j q, jobs := jobs, posts := posts } where
  lock := hw.lock
  uncleared := hw.uncleared
  body := hw.body
  job := (Function.forall_update_iff w.job (p := fun k (q : JobPc) => q.keepsLock = true →
      w.fs.phase k = .held ∧ w.fs.text k = lockText J A k ∧ isHeal A k = true)).2 ⟨hq, fun k _ => hw.job k⟩
  proc := (Function.forall_update_iff w.job
      (p := fun k (q : JobPc) => w.proc k = .running → q.mayRun = true)).2 ⟨hproc, fun k _ => hw.proc k⟩

theorem World.Inv.setBody {w : World ι} (hw : w.Inv J A) (i : ι) (b : Bool)
    (hb : b = true → w.fs.phase i = .held ∧ isHeal A i = false) : World.Inv J A { w with body := update w.body i b } where
  lock := hw.lock
  uncleared := hw.uncleared
  body := (Function.forall_update_iff w.body (p := fun k (b : Bool) => b = true →
      w.fs.phase k = .held ∧ isHeal A k = false)).2 ⟨hb, fun k _ => hw.body k⟩
  job := hw.job
  proc := hw.proc

theorem World.Inv.setProc {w : World ι} (hw : w.Inv J A) (j : ι) (q : Proc)
    (hq : q = .running → (w.job j).mayRun = true) : World.Inv J A { w with proc := update w.proc j q } where
  lock := hw.lock
  uncleared := hw.uncleared
  body := hw.body
  job := hw.job
  proc := (Function.forall_update_iff w.proc
      (p := fun k (q : Proc) => q = .running → (w.job k).mayRun = true)).2 ⟨hq, fun k _ => hw.proc k⟩

omit [DecidableEq ι] in
theorem World.Inv.setPosts {w : World ι} (hw : w.Inv J A) (posts : Nat) : World.Inv J A { w with posts := posts } :=
  ⟨hw.lock, hw.uncleared, hw.body, hw.job, hw.proc⟩

/-- With the file step through, its party goes on: a body or a heal starts with the lock in hand. -/
theorem World.Inv.file {w : World ι} (hw : w.Inv J A) {a : LockAct ι} {fs : LockFs ι} (busy : HealResult)
    (hready : w.fileReady J A a = true) (h : lockStep J A w.fs a = some fs) (hbusy : busy.lockRetained = false) :
    World.Inv J A (World.afterFile A { w with fs := fs } busy a) := by
  obtain ⟨hclear, hbody, hjob⟩ := World.fileReady_keeps hw hready
  have hfs : World.Inv J A { w with fs := fs } := hw.setFs h hclear hbody hjob
  cases a with
  | acquired i =>
    obtain ⟨hheld, htext⟩ := lockStep_acquired h
    simp only [World.fileReady, Bool.and_eq_true, Bool.or_eq_true, beq_iff_eq] at hready
    simp only [World.afterFile]
    split
    · rename_i hheal
      have hacq := World.mayAcquire_job hready.1 hheal
      refine hfs.setJob i (.running .loading) (fun _ => ⟨hheld, ?_, hheal⟩) (fun hp => ?_) w.jobs w.posts
      · rcases hready.2 with ho | ht
        · rw [isHeal_owner hheal] at ho
          cases ho
        · exact (congrFun htext i).trans ht
      · have := hw.proc i hp
        rw [hacq] at this
        cases this
    · rename_i hheal
      exact hfs.setBody i true (fun _ => ⟨hheld, by simpa using hheal⟩)
  | refuse i =>
    simp only [World.fileReady] at hready
    simp only [World.afterFile]
    split
    · rename_i hheal
      have hacq := World.mayAcquire_job hready hheal
      refine hfs.setJob i (.returning (.ok busy)) (fun hk => ?_) (fun hp => ?_) w.jobs w.posts
      · rw [JobPc.keepsLock, retainLock, hbusy] at hk
        cases hk
      · have := hw.proc i hp
        rw [hacq] at this
        cases this
    · exact hfs
  | _ => exact hfs

/-- A move of a heal keeps the invariant: npm starts under its lock, and is taken as stopped only when it is. -/
theorem World.Inv.heal {w : World ι} (hw : w.Inv J A) {j : ι} {pc pc' : HealPc} {a : HealAct}
    (hj : w.job j = .running pc) (htrue : answersTruly (w.proc j) a = true) (h : healStep call pc a = some pc') :
    World.Inv J A { w with job := update w.job j (.running pc') } := by
  have hheld := hw.job j (by rw [hj]; rfl)
  refine hw.setJob j (.running pc') (fun _ => hheld) (fun hp => ?_) w.jobs w.posts
  have hbefore : pc.mayRun = true := by
    have := hw.proc j hp
    rwa [hj] at this
  by_contra hafter
  obtain ⟨info, deadlinePassed, collected, rfl, hrun⟩ := healStep_stopped h hbefore (by simpa [JobPc.mayRun] using hafter)
  simp [answersTruly, inspectTruthful, hp] at htrue
  exact hrun htrue

/-- The `finally` keeps the lock exactly when npm may run. -/
theorem World.Inv.finish {w : World ι} (hw : w.Inv J A) {j : ι} {pc : HealPc} {r : Except String HealResult}
    (hj : w.job j = .running pc) (hr : settled? pc = some r) :
    World.Inv J A { w with job := update w.job j (.returning r) } := by
  refine hw.setJob j (.returning r) (fun _ => hw.job j (by rw [hj]; rfl)) (fun hp => ?_) w.jobs w.posts
  have := hw.proc j hp
  rw [hj] at this
  exact (retainLock_settled? hr).trans this

theorem World.Inv.postLockRead {w w' : World ι} (hw : w.Inv J A) {lock : LockState} {j : ι} {startedAt : String}
    (h : worldStep J A call w (.postLockRead lock j startedAt) = some w') : w'.Inv J A := by
  simp only [worldStep] at h
  split at h
  · cases h
  split at h
  · exact Option.some.inj h ▸ hw.setPosts _
  split at h
  · exact Option.some.inj h ▸ hw.setPosts _
  split at h
  · rename_i hj
    split at h
    · cases h
      refine hw.setJob j .acquiring (fun hk => by cases hk) (fun hp => ?_) _ _
      have := hw.proc j hp
      rw [hj] at this
      cases this
    · cases h
  · cases h

theorem World.Inv.finished {w w' : World ι} (hw : w.Inv J A) {j : ι}
    (h : worldStep J A call w (.finish j) = some w') : w'.Inv J A := by
  simp only [worldStep] at h
  split at h
  · rename_i pc hj
    split at h
    · cases h
    · rename_i r hr
      have hfin := hw.finish hj hr
      split at h
      · exact Option.some.inj h ▸ hfin
      · rename_i hretain
        obtain ⟨fs, hfs, rfl⟩ := Option.map_eq_some_iff.1 h
        refine hfin.setFs hfs (by simp) (fun i hi => ?_) (fun i hi => ?_)
        · rcases hi with hi | hi <;> cases hi
          exact hw.body_false_of_job (by rw [hj]; rfl)
        · cases hi
          simpa [JobPc.keepsLock] using hretain
  · cases h

/-- **Every step keeps the invariant.** -/
theorem worldStep_inv (w : World ι) (a : WorldAct ι) (w' : World ι) (hw : w.Inv J A)
    (h : worldStep J A call w a = some w') : w'.Inv J A := by
  cases a with
  | file a owner operation startedAt =>
    simp only [worldStep] at h
    split at h
    · rename_i hready
      obtain ⟨fs, hfs, rfl⟩ := Option.map_eq_some_iff.1 h
      exact hw.file _ hready hfs rfl
    · cases h
  | bodyEnd i =>
    simp only [worldStep] at h
    split at h
    · exact Option.some.inj h ▸ hw.setBody i false (fun hb => by cases hb)
    · cases h
  | post =>
    simp only [worldStep] at h
    split at h <;> cases h
    · exact hw
    · exact hw.setPosts _
  | postLockRead lock j startedAt => exact hw.postLockRead h
  | heal j a =>
    simp only [worldStep] at h
    split at h
    · rename_i pc hj
      split at h
      · rename_i htrue
        obtain ⟨pc', hpc, rfl⟩ := Option.map_eq_some_iff.1 h
        exact hw.heal hj htrue hpc
      · cases h
    · cases h
  | procStart j =>
    simp only [worldStep] at h
    split at h
    · rename_i hstart
      exact Option.some.inj h ▸ hw.setProc j .running (fun _ => JobPc.mayRun_of_starting hstart.1)
    · cases h
  | procExit j =>
    simp only [worldStep] at h
    split at h
    · exact Option.some.inj h ▸ hw.setProc j .exited (fun hp => by cases hp)
    · cases h
  | finish j => exact hw.finished h
  | settle j finishedAt =>
    simp only [worldStep] at h
    split at h
    · rename_i r hj
      split at h
      · cases h
        refine hw.setJob j (.settled r) (fun hk => hw.job j (by rw [hj]; exact hk)) (fun hp => ?_) _ w.posts
        have := hw.proc j hp
        rwa [hj] at this
      · cases h
    · cases h

/-- **The lock is kept while npm runs.**  In every run of heal requests and other lock-guarded operations, with the exec
API behaving in any way but that it calls a running process running: where the `npm update` of a heal runs in the
container, that heal's lock is the one on disk and carries its nonce, and no body but its own is executing. -/
theorem heal_lock_kept (J : JsonCodec) (A : Acquisitions ι) (call : ExecCall) (as : List (WorldAct ι)) (w : World ι)
    (hrun : exec (worldStep J A call) (World.init ι) as = some w) (j : ι) (hj : w.proc j = .running) :
    isHeal A j = true ∧ w.fs.path = some j ∧ ownsLock (readLockState J w.fs.read) (A.info j).nonce = true ∧
      ∀ k, w.executing k = true → k = j := by
  have hw : w.Inv J A := exec_inv' worldStep_inv as _ w World.inv_init hrun
  obtain ⟨hheld, htext, hheal⟩ := hw.job j (JobPc.keepsLock_of_mayRun (hw.proc j hj))
  have hpath : w.fs.path = some j := hw.path_of_held hheld
  refine ⟨hheal, hpath, ?_, fun k hk => ?_⟩
  · rw [LockFs.read, hpath]
    simp only [htext, lockText, readLockState, J.parse_stringify_self 0 _ (A.info j).toJson_wf]
    simp [ownsLock, LockInfo.nonce_toJson]
  · have hkpath := hw.path_of_held (hw.held_of_executing hk)
    rw [hpath, Option.some.injEq] at hkpath
    exact hkpath.symm

end

def behindReport : Drift.ReportObj :=
  ⟨.json .null, .json (.str "2026-07-17T00:00:00.000Z"), .json .null, .json (.bool true), none,
    [⟨"@signalk/server-api", none, some ⟨"2.3.0", .minor⟩, some "2.4.0", none, none⟩]⟩

/-- A heal whose npm outlives the timeout and the grace, whose rescan then rejects and whose job settles, with a `recover`
asking for the lock. -/
def lingeringHeal : List (WorldAct (Fin 3)) :=
  [.post, .postLockRead .absent healOp "2026-07-17T00:00:00.000Z", .file (.create healOp) "" "" "",
    .file (.write healOp (lockText jsonText threeOps healOp)) "" "" "", .file (.acquired healOp) "" "" "",
    .heal healOp (.loaded (.ok (some behindReport))), .heal healOp (.explained (.ok [])),
    .heal healOp (.exec (.resolved true)), .heal healOp (.exec (.created (.ok ()))), .procStart healOp,
    .heal healOp (.exec (.started (.ok ()))), .post, .heal healOp (.exec (.finished .timeout)),
    .file (.create recoverOp) "" "" "", .heal healOp (.exec (.inspected (.ok ⟨some true, none⟩) true ⟨"", ""⟩)),
    .heal healOp (.rescanned (.error "EIO")), .finish healOp, .settle healOp "2026-07-17T00:11:00.000Z",
    .file (.refuse recoverOp) "doctor" "heal-plugin-deps" "2026-07-17T00:00:00.000Z"]

theorem heal_lock_kept_lingeringHeal :
    ∃ w, exec (worldStep jsonText threeOps ⟨600000, 60000, false⟩) (World.init (Fin 3)) lingeringHeal = some w ∧
      w.proc healOp = .running ∧ isHeal threeOps healOp = true ∧ w.fs.path = some healOp ∧
        ownsLock (readLockState jsonText w.fs.read) (threeOps.info healOp).nonce = true ∧
          ∀ k, w.executing k = true → k = healOp := by
  have hproc : ((exec (worldStep jsonText threeOps ⟨600000, 60000, false⟩) (World.init (Fin 3)) lingeringHeal).map
      (fun w => w.proc healOp)) = some .running := by
    decide +kernel
  obtain ⟨w, hw, hrunning⟩ := Option.map_eq_some_iff.1 hproc
  exact ⟨w, hw, hrunning, heal_lock_kept jsonText threeOps _ lingeringHeal w hw healOp hrunning⟩

end HealLock
end SignalkDoctor
