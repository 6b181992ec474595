import SignalkDoctor.Heal
/-!
# HealJobs — the registry of heal jobs (`src/drift/heal-jobs.ts`)

An in-memory map from job id to job, in the order the ids were first set (`Jobs`).  A start while a job runs gives that
job; else it enters a new one and drops the oldest over the cap.  The map is that of any job registry, over the type of
the results; a heal's results are `HealResult`.
-/
namespace SignalkDoctor
namespace HealJobs

open Heal (HealResult)

inductive JobStatus where
  | running | done | error
  deriving DecidableEq, Repr

/-- A job; the status of a finished one is told by its result's `ok`. -/
inductive Job (ρ : Type) where
  | running (startedAt : String)
  | finished (ok : Bool) (startedAt finishedAt : String) (result : ρ)
  deriving DecidableEq, Repr

variable {κ ρ : Type}

def Job.status : Job ρ → JobStatus
  | .running _ => .running
  | .finished ok _ _ _ => if ok then .done else .error

def Job.startedAt : Job ρ → String
  | .running startedAt | .finished _ startedAt _ _ => startedAt

/-- The map, its entries in insertion order. -/
abbrev Jobs (κ ρ : Type) := List (κ × Job ρ)

def maxJobs : Nat := 8

/-- `while (jobs.size > MAX_JOBS)` the oldest is deleted. -/
def pruneJobs : Jobs κ ρ → Jobs κ ρ
  | [] => []
  | job :: jobs => if (job :: jobs).length > maxJobs then pruneJobs jobs else job :: jobs

def findRunningJob (jobs : Jobs κ ρ) : Option (κ × String) :=
  jobs.findSome? (fun j => match j.2 with
    | .running startedAt => some (j.1, startedAt)
    | .finished .. => none)

structure StartResult (κ : Type) where
  jobId : κ
  status : JobStatus
  startedAt : String
  reused : Bool
  deriving DecidableEq, Repr

/-- **A start**: the running job if there is one, else a new job under the fresh id. -/
def startJob (jobs : Jobs κ ρ) (jobId : κ) (startedAt : String) : StartResult κ × Jobs κ ρ :=
  match findRunningJob jobs with
  | some (running, startedAt) => (⟨running, .running, startedAt, true⟩, jobs)
  | none => (⟨jobId, .running, startedAt, false⟩, pruneJobs (jobs ++ [(jobId, .running startedAt)]))

/-- The job's entry is set in its place; a job pruned since is left alone. -/
def finalize [DecidableEq κ] (ok : ρ → Bool) (jobs : Jobs κ ρ) (jobId : κ) (finishedAt : String) (result : ρ) : Jobs κ ρ :=
  jobs.map (fun j => if j.1 = jobId then (j.1, .finished (ok result) j.2.startedAt finishedAt result) else j)

/-! ## The heals -/

def resultOk : HealResult → Bool
  | .success .. => true
  | .failure _ => false

def rejectedResult (message : String) : HealResult :=
  .failure ⟨.exec, message, none, none, none, none⟩

/-- What `run()` settles with: a result or the message of a rejection. -/
def settledResult : Except String HealResult → HealResult
  | .ok r => r
  | .error message => rejectedResult message

def findRunningHealJob (jobs : Jobs κ HealResult) : Option (κ × String) := findRunningJob jobs

def startHealJob (jobs : Jobs κ HealResult) (jobId : κ) (startedAt : String) : StartResult κ × Jobs κ HealResult :=
  startJob jobs jobId startedAt

def finalizeHealJob [DecidableEq κ] (jobs : Jobs κ HealResult) (jobId : κ) (finishedAt : String)
    (settled : Except String HealResult) : Jobs κ HealResult :=
  finalize resultOk jobs jobId finishedAt (settledResult settled)

end HealJobs
end SignalkDoctor
