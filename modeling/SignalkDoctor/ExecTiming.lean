import SignalkDoctor.Exec
import SignalkDoctor.Probes
import SignalkDoctor.Steps
/-!
# ExecTiming — how long a command in a container is waited for (`src/podman/exec.ts`)

`execInContainer` on the virtual clock: what the runtime answers, and when.  A call that outlives its timeout is inspected
for a grace more.  `execInContainer_run` is that a timed call is a run of the machine of `Exec`, and `execInContainer_timed`
what the times make of it: when the call is over, and which stops it cannot miss.
-/
namespace SignalkDoctor
namespace ExecTiming

open Drift (CategorizedError)
open Exec
open Probes (dateNow timerDelay)
open Steps (exec)

/-- What is awaited, and after how many milliseconds it comes. -/
structure Answer (α : Type) where
  after : ℚ
  after_nonneg : 0 ≤ after
  value : α

/-- The runtime as one call meets it. -/
structure ExecEnv where
  resolved : Answer Bool
  created : Answer (Except CategorizedError Unit)
  started : Answer (Except CategorizedError Unit)
  /-- The first of the stream's `end`, `close` and `error`, from its start on. -/
  stream : Option (Answer (Option CategorizedError))
  /-- What an inspection asked for at a time is answered. -/
  inspect : ℚ → Option (Answer (Except CategorizedError ExecInspect))
  /-- What the collectors hold at a time. -/
  collected : ℚ → Collected

/-! ## The call -/

/-- A `waitForExit` that has returned: the inspections, what it returns, and when. -/
structure Waited where
  acts : List ExecAct
  result : ExitWait
  time : ℚ

/-- The loop of `waitForExit`; `none` when so many inspections are not enough, or one is not answered. -/
def waitLoop (env : ExecEnv) (deadline : Int) (intervalMs : ℚ) : Nat → ℚ → Option Waited
  | 0, _ => none
  | n + 1, t =>
    match env.inspect t with
    | none => none
    | some inspected =>
      let now := t + inspected.after
      let act : ExecAct := .inspected inspected.value (decide (deadline ≤ dateNow now)) (env.collected now)
      match Exec.waitForExit inspected.value (decide (deadline ≤ dateNow now)) with
      | some w => some ⟨[act], w, now⟩
      | none =>
        (waitLoop env deadline intervalMs n (now + timerDelay intervalMs)).map (fun w => { w with acts := act :: w.acts })

/-- **`waitForExit`**.  A turn takes a millisecond at least, so the budget bounds the inspections (`waitLoop_ends`). -/
def waitForExit (env : ExecEnv) (budgetMs : Nat) (intervalMs : ℚ) (t : ℚ) : Option Waited :=
  waitLoop env (dateNow t + budgetMs) intervalMs (budgetMs + 1) t

/-- The budget and the interval of the wait. -/
def waitBudget (call : ExecCall) : WaitReason → Nat × ℚ
  | .timeout => (call.lingerGraceMs, 5000)
  | _ => (2000, 100)

/-- What comes first: the stream's end, or the timer that destroys it. -/
def streamEnd (call : ExecCall) (env : ExecEnv) (t : ℚ) : StreamEnd × ℚ :=
  match env.stream with
  | none => (.timeout, t + timerDelay call.timeoutMs)
  | some a =>
    if a.after ≤ timerDelay call.timeoutMs then
      (match a.value with
        | none => .ended
        | some e => .error e, t + a.after)
    else (.timeout, t + timerDelay call.timeoutMs)

def waitReason : StreamEnd → WaitReason
  | .ended => .ended
  | .timeout => .timeout
  | .error e => .streamError e

/-- A call that has returned: the answers in their order, the result, and when. -/
structure Executed where
  acts : List ExecAct
  result : ExecResult
  time : ℚ

def Executed.following (acts : List ExecAct) (x : Executed) : Executed := { x with acts := acts ++ x.acts }

def settleAfter (call : ExecCall) (env : ExecEnv) (why : WaitReason) (t : ℚ) : Option Executed :=
  (waitForExit env (waitBudget call why).1 (waitBudget call why).2 t).map
    (fun w => ⟨w.acts, settle call (env.collected w.time) why w.result, w.time⟩)

/-- **`execInContainer`** from a time on. -/
def execInContainer (call : ExecCall) (env : ExecEnv) (t : ℚ) : Option Executed :=
  let resolvedAt := t + env.resolved.after
  if env.resolved.value = false then
    some ⟨[.resolved false], .failure ⟨.unreachable, "no container runtime socket available", none, none⟩, resolvedAt⟩
  else
    let createdAt := resolvedAt + env.created.after
    match env.created.value with
    | .error e => some ⟨[.resolved true, .created (.error e)], .failure ⟨.runtime, errorDetail e, none, some e⟩, createdAt⟩
    | .ok _ =>
      let startedAt := createdAt + env.started.after
      match env.started.value with
      | .error e =>
        (settleAfter call env (.startFailed e) startedAt).map
          (·.following [.resolved true, .created (.ok ()), .started (.error e)])
      | .ok _ =>
        let finished := streamEnd call env startedAt
        (settleAfter call env (waitReason finished.1) finished.2).map
          (·.following [.resolved true, .created (.ok ()), .started (.ok ()), .finished finished.1])

/-! ## A timed call is a run of the machine -/

theorem waitLoop_run {call : ExecCall} {why : WaitReason} {env : ExecEnv} {deadline : Int} {intervalMs : ℚ} :
    ∀ {n : Nat} {t : ℚ} {w : Waited}, waitLoop env deadline intervalMs n t = some w →
      exec (execStep call) (.waiting why) w.acts = some (.done (settle call (env.collected w.time) why w.result))
  | 0, t, w, h => by cases h
  | n + 1, t, w, h => by
    rw [waitLoop] at h
    cases hinspect : env.inspect t with
    | none => rw [hinspect] at h; cases h
    | some inspected =>
      rw [hinspect] at h
      dsimp only at h
      cases hturn : Exec.waitForExit inspected.value (decide (deadline ≤ dateNow (t + inspected.after))) with
      | some r =>
        rw [hturn] at h
        cases h
        simp only [exec, execStep, hturn, Option.bind_some]
      | none =>
        rw [hturn] at h
        obtain ⟨rest, hrest, rfl⟩ := Option.map_eq_some_iff.1 h
        simp only [exec, execStep, hturn, Option.bind_some]
        exact waitLoop_run hrest

/-- **A timed call is a run of the machine**: whatever is proved of the machine's runs holds of it. -/
theorem execInContainer_run {call : ExecCall} {env : ExecEnv} {t : ℚ} {x : Executed} (h : execInContainer call env t = some x) :
    exec (execStep call) .resolving x.acts = some (.done x.result) := by
  unfold execInContainer at h
  dsimp only at h
  split at h
  · cases h
    rfl
  · split at h
    · cases h
      rfl
    · split at h
      · rename_i e _
        obtain ⟨y, hy, rfl⟩ := Option.map_eq_some_iff.1 h
        obtain ⟨w, hw, rfl⟩ := Option.map_eq_some_iff.1 hy
        exact waitLoop_run hw
      · generalize streamEnd call env _ = finished at h
        obtain ⟨streamEnded, endedAt⟩ := finished
        obtain ⟨y, hy, rfl⟩ := Option.map_eq_some_iff.1 h
        obtain ⟨w, hw, rfl⟩ := Option.map_eq_some_iff.1 hy
        cases streamEnded <;> exact waitLoop_run hw

/-! ## What the times make of it -/

/-- The command's record says from a time on that it stopped with a code, or never; an inspection is answered within the
latency with what held at some moment since it was asked for. -/
def Truthful (env : ExecEnv) (stops : Option (ℚ × Int)) (latency : ℚ) : Prop :=
  ∀ t, ∃ inspected info, env.inspect t = some inspected ∧ inspected.value = .ok info ∧ inspected.after ≤ latency ∧
    (info.Running = some true → ∀ q code, stops = some (q, code) → t < q) ∧
    (info.Running ≠ some true → ∃ q, stops = some (q, info.ExitCode.getD 1) ∧ q ≤ t + inspected.after)

/-- What a wait that began at a time, with a budget and an interval, has come to. -/
structure Waited.Sound (stops : Option (ℚ × Int)) (latency : ℚ) (deadline : Int) (intervalMs : ℚ) (w : Waited) : Prop where
  inTime : w.time ≤ deadline + intervalMs + latency
  stopped : ∀ code, w.result = .exit code → ∃ q, stops = some (q, code) ∧ q ≤ w.time
  noticed : ∀ q code, stops = some (q, code) → q ≤ deadline - latency → w.result = .exit code
  answered : ∀ e, w.result ≠ .error e

section
variable {env : ExecEnv} {stops : Option (ℚ × Int)} {latency : ℚ}

/-- **The loop ends** with an inspection to spare for each millisecond left. -/
theorem waitLoop_ends (htrue : Truthful env stops latency) {deadline : Int} {intervalMs : ℚ} (hinterval : 1 ≤ intervalMs) :
    ∀ (n : Nat) (t : ℚ), (deadline - dateNow t).toNat < n → t ≤ deadline + intervalMs →
      ∃ w, waitLoop env deadline intervalMs n t = some w ∧ w.Sound stops latency deadline intervalMs := by
  intro n
  induction n with
  | zero => intro t hfuel; exact absurd hfuel (Nat.not_lt_zero _)
  | succ n ih =>
    intro t hfuel ht
    obtain ⟨inspected, info, hinspect, hvalue, hafter, hruns, hstopped⟩ := htrue t
    have hnonneg := inspected.after_nonneg
    rw [waitLoop, hinspect]
    dsimp only
    rw [hvalue]
    by_cases hrunning : info.Running = some true
    · by_cases hpassed : deadline ≤ dateNow (t + inspected.after)
      · -- the deadline has passed, and the command was running when it was asked for
        have hturn : Exec.waitForExit (.ok info) (decide (deadline ≤ dateNow (t + inspected.after))) = some .running := by
          simp [Exec.waitForExit, hrunning, hpassed]
        rw [hturn]
        have hnow : (deadline : ℚ) ≤ t + inspected.after := by
          have hcast : (deadline : ℚ) ≤ (dateNow (t + inspected.after) : ℚ) := by exact_mod_cast hpassed
          exact hcast.trans (Probes.dateNow_le _)
        refine ⟨_, rfl, ⟨by dsimp only; linarith, (fun code h => by cases h), fun q code hq hle => ?_, (fun e h => by cases h)⟩⟩
        have hasked := hruns hrunning q code hq
        linarith
      · -- another turn, a millisecond later at least
        have hturn : Exec.waitForExit (.ok info) (decide (deadline ≤ dateNow (t + inspected.after))) = none := by
          simp [Exec.waitForExit, hrunning, hpassed]
        have hdelay := Probes.one_le_timerDelay intervalMs
        have hdelay' := Probes.timerDelay_le hinterval
        have hlater : dateNow t + 1 ≤ dateNow (t + inspected.after + timerDelay intervalMs) := by
          unfold dateNow
          rw [← Int.floor_add_one]
          exact Int.floor_le_floor (by linarith)
        have hbefore : dateNow t ≤ dateNow (t + inspected.after) := Int.floor_le_floor (by linarith)
        have hnow : t + inspected.after < deadline := by
          have hcast : (dateNow (t + inspected.after) : ℚ) + 1 ≤ deadline := by exact_mod_cast Int.add_one_le_of_lt (not_le.1 hpassed)
          exact (Probes.lt_dateNow_add_one _).trans_le hcast
        obtain ⟨w, hw, hsound⟩ := ih (t + inspected.after + timerDelay intervalMs) (by omega) (by linarith)
        rw [hturn, hw]
        exact ⟨_, rfl, hsound.inTime, hsound.stopped, hsound.noticed, hsound.answered⟩
    · -- the record says that the command has stopped
      have hturn : Exec.waitForExit (.ok info) (decide (deadline ≤ dateNow (t + inspected.after))) =
          some (.exit (info.ExitCode.getD 1)) := by
        simp [Exec.waitForExit, hrunning]
      rw [hturn]
      obtain ⟨q, hq, hle⟩ := hstopped hrunning
      refine ⟨_, rfl, ⟨by dsimp only; linarith, fun code h => ?_, fun q' code hq' _ => ?_, (fun e h => by cases h)⟩⟩
      · cases h
        exact ⟨q, hq, hle⟩
      · rw [hq] at hq'
        cases hq'
        rfl

theorem waitForExit_ends (htrue : Truthful env stops latency) (budgetMs : Nat) {intervalMs : ℚ} (hinterval : 1 ≤ intervalMs)
    (t : ℚ) : ∃ w, waitForExit env budgetMs intervalMs t = some w ∧
      w.Sound stops latency (dateNow t + budgetMs) intervalMs := by
  have hnow := Probes.lt_dateNow_add_one t
  refine waitLoop_ends htrue hinterval (budgetMs + 1) t (by omega) ?_
  push_cast
  have : (0 : ℚ) ≤ budgetMs := Nat.cast_nonneg _
  linarith

theorem waitBudget_interval (call : ExecCall) (why : WaitReason) : 1 ≤ (waitBudget call why).2 := by
  cases why <;> norm_num [waitBudget]

/-- Why the call waits for the exit, and from when on. -/
def waitOf (call : ExecCall) (env : ExecEnv) (t : ℚ) : WaitReason × ℚ :=
  let startedAt := t + env.resolved.after + env.created.after + env.started.after
  match env.started.value with
  | .error e => (.startFailed e, startedAt)
  | .ok _ => (waitReason (streamEnd call env startedAt).1, (streamEnd call env startedAt).2)

theorem execInContainer_wait {call : ExecCall} {t : ℚ} (hresolved : env.resolved.value = true)
    (hcreated : env.created.value = .ok ()) {x : Executed}
    (h : settleAfter call env (waitOf call env t).1 (waitOf call env t).2 = some x) :
    ∃ y, execInContainer call env t = some y ∧ y.result = x.result ∧ y.time = x.time := by
  unfold waitOf at h
  unfold execInContainer
  dsimp only at h ⊢
  rw [if_neg (by rw [hresolved]; decide), hcreated]
  dsimp only
  cases hstarted : env.started.value with
  | error e =>
    rw [hstarted] at h
    dsimp only at h ⊢
    rw [h]
    exact ⟨_, rfl, rfl, rfl⟩
  | ok _ =>
    rw [hstarted] at h
    dsimp only at h ⊢
    rw [h]
    exact ⟨_, rfl, rfl, rfl⟩

/-- **When a call is over, and what it cannot miss.**  While inspections are answered within a latency and truly, a call
whose exec could be created is a run of the machine that is over when the budget of its wait, one more interval and the
latency have passed; it takes the command as stopped only if it has stopped; and a stop of which the record tells before the
budget is spent, less the latency and a millisecond, is never missed, so that a command which outlives its timeout and
stops in the grace is reported with its exit code. -/
theorem execInContainer_timed (htrue : Truthful env stops latency) (call : ExecCall) (t : ℚ)
    (hresolved : env.resolved.value = true) (hcreated : env.created.value = .ok ()) :
    ∃ x, execInContainer call env t = some x ∧ exec (execStep call) .resolving x.acts = some (.done x.result) ∧
      x.time ≤ (waitOf call env t).2 + (waitBudget call (waitOf call env t).1).1 +
        (waitBudget call (waitOf call env t).1).2 + latency ∧
      (x.result.stillRunning = false → ∃ q code, stops = some (q, code) ∧ q ≤ x.time) ∧
      ∀ q code, stops = some (q, code) →
        q ≤ (waitOf call env t).2 + (waitBudget call (waitOf call env t).1).1 - 1 - latency →
          x.result = settle call (env.collected x.time) (waitOf call env t).1 (.exit code) := by
  obtain ⟨w, hw, hsound⟩ := waitForExit_ends htrue (waitBudget call (waitOf call env t).1).1
    (waitBudget_interval call (waitOf call env t).1) (waitOf call env t).2
  have hsettled : settleAfter call env (waitOf call env t).1 (waitOf call env t).2 =
      some ⟨w.acts, settle call (env.collected w.time) (waitOf call env t).1 w.result, w.time⟩ := by
    rw [settleAfter, hw]
    rfl
  obtain ⟨x, hx, hresult, htime⟩ := execInContainer_wait hresolved hcreated hsettled
  have hbegun := Probes.dateNow_le (waitOf call env t).2
  have hbegun' := Probes.lt_dateNow_add_one (waitOf call env t).2
  have hintime := hsound.inTime
  push_cast at hintime
  refine ⟨x, hx, execInContainer_run hx, ?_, fun hstill => ?_, fun q code hq hle => ?_⟩
  · rw [htime]
    dsimp only
    linarith
  · rw [hresult] at hstill
    obtain ⟨code, hexit⟩ := settle_stillRunning hstill
    obtain ⟨q, hq, hle⟩ := hsound.stopped code hexit
    exact ⟨q, code, hq, htime ▸ hle⟩
  · have hexit := hsound.noticed q code hq (by push_cast; linarith)
    rw [hresult, htime]
    dsimp only
    rw [hexit]

end

/-! An install that outlives its ten minutes and stops twenty seconds into the grace. -/

def lateStop : ExecEnv where
  resolved := ⟨4, by norm_num, true⟩
  created := ⟨18, by norm_num, .ok ()⟩
  started := ⟨23, by norm_num, .ok ()⟩
  stream := none
  inspect t := some ⟨37, by norm_num, .ok ⟨some (decide (t < 620000)), if t < 620000 then none else some 0⟩⟩
  collected _ := ⟨"added 12 packages", ""⟩

theorem lateStop_truthful : Truthful lateStop (some (620000, 0)) 37 := by
  intro t
  refine ⟨_, _, rfl, rfl, le_refl _, fun hrunning q code hq => ?_, fun hstopped => ?_⟩
  · cases hq
    simpa using hrunning
  · have hle : 620000 ≤ t := by simpa using hstopped
    exact ⟨620000, by simp [not_lt.2 hle], by dsimp only; linarith⟩

theorem execInContainer_timed_lateStop : ∃ x, execInContainer ⟨600000, 60000, false⟩ lateStop 0 = some x ∧
    x.time ≤ 665082 ∧ x.result = .success 0 "added 12 packages" none := by
  have hwait : waitOf ⟨600000, 60000, false⟩ lateStop 0 = (.timeout, 600045) := by
    norm_num [waitOf, lateStop, streamEnd, waitReason, Probes.timerDelay]
  obtain ⟨x, hx, -, htime, -, hnoticed⟩ := execInContainer_timed lateStop_truthful ⟨600000, 60000, false⟩ 0 rfl rfl
  rw [hwait] at htime hnoticed
  refine ⟨x, hx, ?_, hnoticed 620000 0 rfl (by norm_num [waitBudget])⟩
  norm_num [waitBudget] at htime
  exact htime

end ExecTiming
end SignalkDoctor
