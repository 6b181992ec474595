import SignalkDoctor.Installed
/-!
# Exec — one command in a container (`src/podman/exec.ts`)

`execInContainer` resolves the runtime, creates the exec, starts it, reads its stream and polls `inspect` until the
command is proven stopped or the budget is spent.  It is a machine (`execStep`) whose labels are what each call of the
runtime gives, in the order the function awaits them.

What a caller that holds a lock relies on is `execStep_stopped`: the machine goes from a state the command may be
running in to one it is taken not to run in only by an inspection that found it not running.
-/
namespace SignalkDoctor
namespace Exec

open Drift (CategorizedError)

inductive ExecFailureReason where
  | timeout | unreachable | runtime
  deriving DecidableEq, Repr

def ExecFailureReason.text : ExecFailureReason → String
  | .timeout => "timeout"
  | .unreachable => "unreachable"
  | .runtime => "runtime"

structure ExecFailure where
  reason : ExecFailureReason
  detail : String
  stillRunning : Option Bool
  error : Option CategorizedError
  deriving DecidableEq, Repr

inductive ExecResult where
  | success (exitCode : Int) (output : String) (stderr : Option String)
  | failure (f : ExecFailure)
  deriving DecidableEq, Repr

/-- `ExecInspect` -/
structure ExecInspect where
  Running : Option Bool
  ExitCode : Option Int
  deriving DecidableEq, Repr

inductive ExitWait where
  | exit (code : Int)
  | running
  | error (e : CategorizedError)
  deriving DecidableEq, Repr

/-- One turn of `waitForExit`: what it returns, or `none` to poll again. -/
def waitForExit (inspected : Except CategorizedError ExecInspect) (deadlinePassed : Bool) : Option ExitWait :=
  match inspected with
  | .error e => some (.error e)
  | .ok info =>
    -- a stopped exec without a code counts as failed
    if info.Running ≠ some true then some (.exit (info.ExitCode.getD 1))
    else if deadlinePassed then some .running
    else none

/-- What `execInContainer` waits for the exit after. -/
inductive WaitReason where
  | startFailed (error : CategorizedError)
  | timeout
  | streamError (error : CategorizedError)
  | ended
  deriving DecidableEq, Repr

inductive StreamEnd where
  | ended
  | timeout
  | error (error : CategorizedError)
  deriving DecidableEq, Repr

structure ExecCall where
  timeoutMs : Nat
  lingerGraceMs : Nat
  separateStderr : Bool
  deriving DecidableEq, Repr

structure Collected where
  output : String
  stderr : String
  deriving DecidableEq, Repr

/-- `Math.round(ms / 1000)` -/
def roundSeconds (ms : Nat) : Nat := (ms + 500) / 1000

def errorDetail (e : CategorizedError) : String := e.kind.text ++ ": " ++ e.userMessage

def success (call : ExecCall) (collected : Collected) (exitCode : Int) : ExecResult :=
  .success exitCode collected.output (if call.separateStderr then some collected.stderr else none)

/-- What the function returns once the wait is over. -/
def settle (call : ExecCall) (collected : Collected) : WaitReason → ExitWait → ExecResult
  | .startFailed e, w | .streamError e, w =>
    .failure ⟨.runtime, errorDetail e, some (match w with | .exit _ => false | _ => true), some e⟩
  | .timeout, .exit code => success call collected code
  | .timeout, .error e => .failure ⟨.runtime, errorDetail e, some true, some e⟩
  | .timeout, .running =>
    .failure ⟨.timeout, "command did not finish within " ++ toString (roundSeconds call.timeoutMs) ++
      "s and was still running after a further " ++ toString (roundSeconds call.lingerGraceMs) ++
      "s grace — it may still be running inside the container", some true, none⟩
  | .ended, .exit code => success call collected code
  | .ended, .error e => .failure ⟨.runtime, errorDetail e, some true, some e⟩
  | .ended, .running =>
    .failure ⟨.runtime, "exec finished streaming but never reported an exit code", some true, none⟩

/-- Where `execInContainer` stands. -/
inductive ExecPc where
  | resolving
  | creating
  /-- `exec.start({})` is pending. -/
  | starting
  | streaming
  | waiting (why : WaitReason)
  | done (r : ExecResult)
  deriving DecidableEq, Repr

inductive ExecAct where
  | resolved (found : Bool)
  | created (r : Except CategorizedError Unit)
  | started (r : Except CategorizedError Unit)
  | finished (e : StreamEnd)
  | inspected (r : Except CategorizedError ExecInspect) (deadlinePassed : Bool) (collected : Collected)

/-- **`execInContainer`**, from one await to the next. -/
def execStep (call : ExecCall) : ExecPc → ExecAct → Option ExecPc
  | .resolving, .resolved found =>
    some (if found then .creating
      else .done (.failure ⟨.unreachable, "no container runtime socket available", none, none⟩))
  | .creating, .created r =>
    match r with
    | .ok _ => some .starting
    | .error e => some (.done (.failure ⟨.runtime, errorDetail e, none, some e⟩))
  | .starting, .started r =>
    match r with
    | .ok _ => some .streaming
    | .error e => some (.waiting (.startFailed e))
  | .streaming, .finished e =>
    match e with
    | .ended => some (.waiting .ended)
    | .timeout => some (.waiting .timeout)
    | .error e => some (.waiting (.streamError e))
  | .waiting why, .inspected r deadlinePassed collected =>
    match waitForExit r deadlinePassed with
    | none => some (.waiting why)
    | some w => some (.done (settle call collected why w))
  | _, _ => none

/-- `stillRunning === true` -/
def ExecResult.stillRunning : ExecResult → Bool
  | .success .. => false
  | .failure f => decide (f.stillRunning = some true)

/-- **The command may be running**: it may have been started and nothing has proven it stopped. -/
def ExecPc.mayRun : ExecPc → Bool
  | .resolving | .creating => false
  | .starting | .streaming | .waiting _ => true
  | .done r => r.stillRunning

inductive Proc where
  | notStarted | running | exited
  deriving DecidableEq, Repr

/-- Of a running process `inspect` says that it runs. -/
def inspectTruthful (proc : Proc) : ExecAct → Bool
  | .inspected (.ok info) _ _ => proc != .running || info.Running == some true
  | _ => true

/-- A wait leaves the command taken as stopped only by an exit. -/
theorem settle_stillRunning {call : ExecCall} {collected : Collected} {why : WaitReason} {w : ExitWait}
    (h : (settle call collected why w).stillRunning = false) : ∃ code, w = .exit code := by
  cases w with
  | exit code => exact ⟨code, rfl⟩
  | running => cases why <;> simp [settle, ExecResult.stillRunning] at h
  | error e => cases why <;> simp [settle, ExecResult.stillRunning] at h

theorem settle_success {call : ExecCall} {collected : Collected} {why : WaitReason} {w : ExitWait} {code : Int}
    {output : String} {stderr : Option String} (h : settle call collected why w = .success code output stderr) :
    w = .exit code := by
  cases why <;> cases w <;> simp [settle, success] at h <;> rw [h.1]

/-- An exit is an inspection that found the command not running, and its code. -/
theorem waitForExit_exit {r : Except CategorizedError ExecInspect} {deadlinePassed : Bool} {code : Int}
    (h : waitForExit r deadlinePassed = some (.exit code)) :
    ∃ info, r = .ok info ∧ info.Running ≠ some true ∧ info.ExitCode.getD 1 = code := by
  unfold waitForExit at h
  split at h
  · cases h
  · rename_i info
    split at h
    · rename_i hrun
      simp only [Option.some.injEq, ExitWait.exit.injEq] at h
      exact ⟨info, rfl, hrun, h⟩
    · split at h <;> cases h

/-- **The command is taken as stopped only when an inspection found it not running.** -/
theorem execStep_stopped {call : ExecCall} {pc pc' : ExecPc} {a : ExecAct} (h : execStep call pc a = some pc')
    (hbefore : pc.mayRun = true) (hafter : pc'.mayRun = false) :
    ∃ info deadlinePassed collected, a = .inspected (.ok info) deadlinePassed collected ∧ info.Running ≠ some true := by
  cases pc with
  | resolving => cases hbefore
  | creating => cases hbefore
  | done r => cases a <;> simp [execStep] at h
  | starting =>
    cases a with
    | started r => cases r <;> (cases h; cases hafter)
    | _ => simp [execStep] at h
  | streaming =>
    cases a with
    | finished e => cases e <;> (cases h; cases hafter)
    | _ => simp [execStep] at h
  | waiting why =>
    cases a with
    | inspected r deadlinePassed collected =>
      simp only [execStep] at h
      split at h
      · cases h; cases hafter
      · rename_i w hw
        cases h
        obtain ⟨code, rfl⟩ := settle_stillRunning hafter
        obtain ⟨info, rfl, hrun, -⟩ := waitForExit_exit hw
        exact ⟨info, deadlinePassed, collected, rfl, hrun⟩
    | _ => simp [execStep] at h

/-- A success is an inspection that found the command not running, and its exit code. -/
theorem execStep_success {call : ExecCall} {pc : ExecPc} {a : ExecAct} {code : Int} {output : String}
    {stderr : Option String} (h : execStep call pc a = some (.done (.success code output stderr))) :
    ∃ info deadlinePassed collected,
      a = .inspected (.ok info) deadlinePassed collected ∧ info.Running ≠ some true ∧ info.ExitCode.getD 1 = code := by
  cases pc with
  | waiting why =>
    cases a with
    | inspected r deadlinePassed collected =>
      simp only [execStep] at h
      split at h
      · cases h
      · rename_i w hw
        simp only [Option.some.injEq, ExecPc.done.injEq] at h
        rw [settle_success h] at hw
        obtain ⟨info, rfl, hrun, hcode⟩ := waitForExit_exit hw
        exact ⟨info, deadlinePassed, collected, rfl, hrun, hcode⟩
    | _ => simp [execStep] at h
  | resolving => cases a <;> simp [execStep] at h; split at h <;> cases h
  | creating => cases a <;> simp [execStep] at h; split at h <;> cases h
  | starting => cases a <;> simp [execStep] at h; split at h <;> cases h
  | streaming => cases a <;> simp [execStep] at h; split at h <;> cases h
  | done r => cases a <;> simp [execStep] at h

end Exec
end SignalkDoctor
