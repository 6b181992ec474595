import Mathlib.Data.List.TakeDrop
import SignalkDoctor.FileWrite
import SignalkDoctor.Mutex
/-!
# LockFile — what one operation leaves on disk (`src/mutex.ts`)

`Mutex` takes the file steps as they succeed.  Here a single operation touches the lock, and each step of `tryAcquire` may
fail: the file exists from its creation on, so a later failure, or a write that accepts a prefix, leaves it behind.
`operation_leaves_no_lock_iff` says exactly when nothing stays.
-/
namespace SignalkDoctor
namespace Mutex

/-- What a file step fails with; `EEXIST` is what the exclusive create answers for a lock that exists, and nothing else. -/
structure IoError where
  code : String
  not_exist : code ≠ "EEXIST"

/-- The outcomes of the steps of `tryAcquire` when no lock exists. -/
structure AcquireSteps where
  openError : Option IoError
  accepted : Nat
  writeError : Option IoError
  syncError : Option IoError
  closeError : Option IoError

def AcquireSteps.write (steps : AcquireSteps) : WriteSteps IoError :=
  ⟨steps.openError, steps.accepted, steps.writeError, [steps.syncError], steps.closeError⟩

section
variable (J : JsonCodec)

/-- `tryAcquire`, and the lock file after it. -/
def tryAcquire (info : LockInfo) (steps : AcquireSteps) : Option Text → Except IoError Bool × Option Text
  | some t => (.ok false, some t)
  | none =>
    match steps.write.run (J.stringify 0 info.toJson) with
    | (none, disk) => (.ok true, disk)
    | (some err, disk) => (.error err, disk)

def readDisk : Option Text → FileRead
  | none => .enoent
  | some t => .text t

inductive AcquireError where
  /-- `MutexBusyError`, with the lock it found. -/
  | busy (lock : Json)
  | io (err : IoError)

/-- The lock a racy read is taken for. -/
def assumedLock (now : String) : LockInfo := ⟨.doctor, .recover, now, none, none⟩

/-- `acquireMutex`, every read succeeding; the handle is its `info`. -/
def acquireMutex (info : LockInfo) (steps : AcquireSteps) (now : String) (disk : Option Text) :
    Except AcquireError LockInfo × Option Text :=
  match tryAcquire J info steps disk with
  | (.ok true, disk) => (.ok info, disk)
  | (.ok false, disk) =>
    match readLockState J (readDisk disk) with
    | .lock l => (.error (.busy l), disk)
    | _ => (.error (.busy (assumedLock now).toJson), disk)
  | (.error err, disk) => (.error (.io err), disk)

/-- The first `release()` of a handle, its read and its unlink succeeding. -/
def release (info : LockInfo) (disk : Option Text) : Option Text :=
  if ownsLock (readLockState J (readDisk disk)) info.nonce then none else disk

/-- The lock file once an operation that found none is over: `acquireMutex` has rejected, or `release()` has resolved. -/
def afterOperation (info : LockInfo) (steps : AcquireSteps) (now : String) : Option Text :=
  match acquireMutex J info steps now none with
  | (.ok handle, disk) => release J handle disk
  | (.error _, disk) => disk

/-- `MutexBusyError` -/
def Refused {α : Type} : Except AcquireError α → Prop
  | .error (.busy _) => True
  | _ => False

/-- **No lock file is left, and no later acquisition is refused.** -/
def LeavesNoLock (info : LockInfo) (steps : AcquireSteps) (now : String) : Prop :=
  afterOperation J info steps now = none ∧
    ∀ info' steps' now', ¬ Refused (acquireMutex J info' steps' now' (afterOperation J info steps now)).1

/-- The create failed, or every step succeeded and the write accepted the whole text. -/
def AcquireSteps.Complete (info : LockInfo) (steps : AcquireSteps) : Prop :=
  steps.openError ≠ none ∨ (J.stringify 0 info.toJson).length ≤ steps.accepted ∧ steps.writeError = none ∧
    steps.syncError = none ∧ steps.closeError = none

variable {J}

theorem AcquireSteps.bodyError_eq_none_iff (steps : AcquireSteps) :
    steps.write.bodyError = none ↔ steps.writeError = none ∧ steps.syncError = none ∧ steps.closeError = none := by
  cases hs : steps.syncError <;>
    simp [WriteSteps.bodyError, AcquireSteps.write, List.findSome?, Option.or_eq_none_iff, hs, and_comm]

theorem not_refused_of_absent (info : LockInfo) (steps : AcquireSteps) (now : String) :
    ¬ Refused (acquireMutex J info steps now none).1 := by
  unfold acquireMutex tryAcquire
  cases hrun : steps.write.run (J.stringify 0 info.toJson) with
  | mk err disk => cases err <;> simp [Refused]

/-- **A text cut short is nobody's**: it does not parse, so the release leaves it. -/
theorem release_take {info : LockInfo} {n : Nat} :
    release J info (some ((J.stringify 0 info.toJson).take n)) = none ↔ (J.stringify 0 info.toJson).length ≤ n := by
  by_cases hn : (J.stringify 0 info.toJson).length ≤ n
  · rw [List.take_of_length_le hn]
    simp [release, readDisk, readLockState, J.parse_stringify_self 0 _ info.toJson_wf, ownsLock, LockInfo.nonce_toJson, hn]
  · have hcut : J.parse ((J.stringify 0 info.toJson).take n) = none :=
      J.parse_prefix info.fields _ info.toJson_wf (List.take_prefix ..)
        (fun h => hn ((List.take_eq_self_iff _).1 h))
    simp [release, readDisk, readLockState, hcut, ownsLock, hn]

theorem afterOperation_eq_none_iff (info : LockInfo) (steps : AcquireSteps) (now : String) :
    afterOperation J info steps now = none ↔ steps.Complete J info := by
  unfold afterOperation acquireMutex tryAcquire AcquireSteps.Complete
  cases ho : steps.openError with
  | some e =>
    have hrun := WriteSteps.run_of_openError (w := steps.write) (e := e) ho (J.stringify 0 info.toJson)
    simp [hrun]
  | none =>
    have hrun := WriteSteps.run_opened (w := steps.write) ho (J.stringify 0 info.toJson)
    have herr := steps.bodyError_eq_none_iff
    cases hb : steps.write.bodyError with
    | some e =>
      have hsome : ¬ (steps.writeError = none ∧ steps.syncError = none ∧ steps.closeError = none) := by
        rw [← herr, hb]
        simp
      simp [hrun, hb, hsome]
    | none =>
      obtain ⟨hw, hs, hc⟩ := herr.1 hb
      simp only [hrun, hb]
      rw [show steps.write.accepted = steps.accepted from rfl, release_take]
      simp [hw, hs, hc]

/-- **An operation leaves no lock exactly when the create failed or the lock text was written whole and every other step
succeeded.** -/
theorem operation_leaves_no_lock_iff (J : JsonCodec) (info : LockInfo) (steps : AcquireSteps) (now : String) :
    LeavesNoLock J info steps now ↔ steps.Complete J info := by
  have hgone := afterOperation_eq_none_iff (J := J) info steps now
  rw [← hgone]
  constructor
  · exact And.left
  · intro h
    refine ⟨h, fun info' steps' now' => ?_⟩
    rw [h]
    exact not_refused_of_absent info' steps' now'

end

/-- A disk that is full once the lock file is created. -/
def fullDisk : AcquireSteps := ⟨none, 0, some ⟨"ENOSPC", by decide⟩, none, none⟩

def recoverInfo : LockInfo := ⟨.doctor, .recover, "2026-07-17T00:00:00.000Z", some 7, some "6a1f0b52-1111-4111-8111-111111111111"⟩

/-- The acquisition rejects with `ENOSPC`, and its empty lock file stays. -/
theorem operation_leaves_lock_fullDisk : ¬ ∀ (J : JsonCodec) (info : LockInfo) (steps : AcquireSteps) (now : String),
    LeavesNoLock J info steps now := by
  intro h
  have hnone := (h jsonText recoverInfo fullDisk "2026-07-17T00:00:01.000Z").1
  have hsome : afterOperation jsonText recoverInfo fullDisk "2026-07-17T00:00:01.000Z" = some [] := rfl
  rw [hsome] at hnone
  cases hnone

end Mutex
end SignalkDoctor
