import SignalkDoctor.Scanner
import SignalkDoctor.Steps
/-!
# DriftScheduler — the periodic scans and the manual ones (`src/drift/scheduler.ts`)

One scheduler on the event loop: its timers fire, `refreshNow` is called by a tick or by anyone else at any moment, and each
scan ends online, offline or throwing.  What a promise owes its awaiters is a step of its own (`returns`, `continues`); the
steps come in any order, which allows more runs than the microtask queue does.

`driftScheduler_sound`: in every run one scan is in flight at most, every `refreshNow` resolves once its scan has ended, the
periodic schedule goes on in exactly one way until `stop` and in none after it, and each tick arms the delay that the
outcomes so far ask for.
-/
namespace SignalkDoctor
namespace DriftScheduler

open Steps (exec exec_inv')
open Drift (ScanOutcome toDouble)

def FIRST_SCAN_DELAY_MS : Nat := 60000

def MIN_INTERVAL_MS : Nat := 12 * 60 * 60 * 1000

def MAX_INTERVAL_MS : Nat := 24 * 60 * 60 * 1000

def BACKOFF_INITIAL_MS : Nat := 15 * 60 * 1000

def BACKOFF_MAX_MS : Nat := MAX_INTERVAL_MS

/-- `Math.random()`: a double of [0, 1), as `mantissa / 2 ^ shift`. -/
structure Random where
  mantissa : Nat
  shift : Nat
  precise : mantissa < 2 ^ 53
  belowOne : 53 ≤ shift

/-- The product of two doubles is rounded. -/
def nextHealthyDelay (random : Random) : Nat :=
  let span := MAX_INTERVAL_MS - MIN_INTERVAL_MS
  MIN_INTERVAL_MS + toDouble (random.mantissa * span) / 2 ^ random.shift

inductive LogLine where
  | info (packages : Nat)
  | warn (installedFetchError : Option String) (backoffMs : Nat)
  | error (err : String) (backoffMs : Nat)
  deriving DecidableEq, Repr

def LogLine.msg : LogLine → String
  | .info _ => "drift scan completed (online)"
  | .warn _ _ => "drift scan offline; backing off"
  | .error _ _ => "drift scan threw"

/-- `runOnce` from the end of `runDriftScan` on: the new `currentBackoffMs` and what is logged. -/
def runOnce (currentBackoffMs : Nat) (scan : Except String ScanOutcome) : Except String (Nat × LogLine) :=
  tryCatch
    (do
      let outcome ← scan
      if outcome.online then
        return (BACKOFF_INITIAL_MS, .info outcome.report.packages.length)
      else
        let backoffMs := min (currentBackoffMs * 2) BACKOFF_MAX_MS
        return (backoffMs, .warn outcome.installedFetchError backoffMs))
    (fun err =>
      let backoffMs := min (currentBackoffMs * 2) BACKOFF_MAX_MS
      return (backoffMs, .error err backoffMs))

/-! ## The event loop -/

structure Timer where
  id : Nat
  delayMs : Nat
  deriving DecidableEq, Repr

abbrev Settled := Option (Except String Unit)

structure Call where
  /-- By the timer's callback, which goes on in `.then`. -/
  tick : Bool
  /-- The scan it started or joined. -/
  scan : Nat
  starter : Bool
  promise : Settled
  /-- The callback of `.then` has run. -/
  continued : Bool
  deriving DecidableEq

/-- **The state**: the fields of the scheduler, a handle being the number of its timer or of its scan; the event loop; and
every scan and every call so far. -/
structure World where
  timer : Option Nat
  stopped : Bool
  currentBackoffMs : Nat
  inflight : Option Nat
  armed : List Timer
  timersMade : Nat
  /-- The promises of `runOnce`. -/
  scans : List Settled
  calls : List Call
  logged : List LogLine
  started : Bool
  /-- Which of the scans that have ended were online, the last one first. -/
  finished : List Bool

def World.init : World := ⟨none, false, BACKOFF_INITIAL_MS, none, [], 0, [], [], [], false, []⟩

def clearTimeout (timer : Nat) (armed : List Timer) : List Timer := armed.filter (fun t => t.id ≠ timer)

/-- `if (this.timer) clearTimeout(this.timer)` -/
def clearTimer (timer : Option Nat) (armed : List Timer) : List Timer :=
  match timer with
  | some timer => clearTimeout timer armed
  | none => armed

def World.scheduleNext (w : World) (delayMs : Nat) : World :=
  if w.stopped then w
  else { w with
    armed := clearTimer w.timer w.armed ++ [⟨w.timersMade, delayMs⟩]
    timer := some w.timersMade
    timersMade := w.timersMade + 1 }

def World.start (w : World) : World :=
  if w.stopped then w else w.scheduleNext FIRST_SCAN_DELAY_MS

def World.stop (w : World) : World :=
  { w with stopped := true, armed := clearTimer w.timer w.armed, timer := none }

/-- `refreshNow` up to its first await. -/
def World.refreshNow (w : World) (tick : Bool) : World :=
  match w.inflight with
  | some scan => { w with calls := w.calls ++ [⟨tick, scan, false, none, false⟩] }
  | none => { w with
    scans := w.scans ++ [none]
    inflight := some w.scans.length
    calls := w.calls ++ [⟨tick, w.scans.length, true, none, false⟩] }

/-- A scan that threw was not online. -/
def online : Except String ScanOutcome → Bool
  | .ok outcome => outcome.online
  | .error _ => false

def World.scanEnds (w : World) (scan : Nat) (outcome : Except String ScanOutcome) : World :=
  let ended := { w with finished := online outcome :: w.finished }
  match runOnce w.currentBackoffMs outcome with
  | .ok (currentBackoffMs, line) => { ended with
    currentBackoffMs := currentBackoffMs
    logged := w.logged ++ [line]
    scans := w.scans.set scan (some (.ok ())) }
  | .error err => { ended with scans := w.scans.set scan (some (.error err)) }

/-- `refreshNow` from its await on: the one that started the scan clears the handle, whatever the scan gave. -/
def World.returns (w : World) (i : Nat) (call : Call) (result : Except String Unit) : World :=
  { w with
    inflight := if call.starter then none else w.inflight
    calls := w.calls.set i { call with promise := some result } }

/-- The callback of `.then`. -/
def World.continues (w : World) (i : Nat) (call : Call) (random : Random) : World :=
  let next := if w.currentBackoffMs = BACKOFF_INITIAL_MS then nextHealthyDelay random else w.currentBackoffMs
  { w with calls := w.calls.set i { call with continued := true } }.scheduleNext next

inductive Event where
  | start
  | stop
  | fires (id : Nat)
  | refreshNow
  | scanEnds (scan : Nat) (outcome : Except String ScanOutcome)
  | returns (call : Nat)
  | continues (call : Nat) (random : Random)

def step (w : World) : Event → Option World
  | .start => if w.started then none else some { w.start with started := true }
  | .stop => some w.stop
  | .fires id =>
    if w.armed.any (fun t => t.id == id) then some ({ w with armed := clearTimeout id w.armed }.refreshNow true) else none
  | .refreshNow => some (w.refreshNow false)
  | .scanEnds scan outcome =>
    match w.scans[scan]? with
    | some none => some (w.scanEnds scan outcome)
    | _ => none
  | .returns i =>
    match w.calls[i]? with
    | some call =>
      match call.promise, w.scans[call.scan]? with
      | none, some (some result) => some (w.returns i call result)
      | _, _ => none
    | none => none
  -- `.then` has no second argument: a rejection ends the schedule
  | .continues i random =>
    match w.calls[i]? with
    | some call =>
      if call.tick ∧ ¬ call.continued ∧ call.promise = some (.ok ()) then some (w.continues i call random) else none
    | none => none

/-! ## What a run is about -/

/-- The scans that have ended since the last online one. -/
def World.offline (w : World) : Nat := (w.finished.takeWhile (fun online => !online)).length

def World.Ended (w : World) (scan : Nat) : Prop := ∃ result, w.scans[scan]? = some (some result)

/-- The schedule goes on from the callback of its `.then`. -/
def Call.pendingTick (call : Call) : Bool := call.tick && !call.continued

def Call.waiting (call : Call) : Bool := call.promise.isNone

/-- It will clear the handle. -/
def Call.clears (call : Call) : Bool := call.starter && call.promise.isNone

def Event.microtask : Event → Bool
  | .returns _ | .continues _ _ => true
  | _ => false

/-- No microtask is left. -/
def World.Drained (w : World) : Prop := ∀ e : Event, e.microtask = true → step w e = none

/-- The microtasks that the scans in flight and the calls so far can still give rise to. -/
def World.rank (w : World) : Nat := w.calls.countP Call.waiting + w.calls.countP Call.pendingTick

/-- **What holds in every state of every run.** -/
structure World.Sound (w : World) : Prop where
  /-- At most one scan is in flight. -/
  single : ∀ i j : Nat, w.scans[i]? = some none → w.scans[j]? = some none → i = j
  /-- A call that has settled has resolved, and its scan has ended. -/
  settled : ∀ c ∈ w.calls, ∀ result, c.promise = some result → result = .ok () ∧ w.Ended c.scan
  /-- A call whose scan has ended resolves: microtasks run out, and then it has. -/
  runsOut : ∀ es v, (∀ e ∈ es, e.microtask = true) → exec step w es = some v → es.length + v.rank = w.rank
  resolves : w.Drained → ∀ c ∈ w.calls, w.Ended c.scan → c.promise = some (.ok ())
  /-- Until `stop`, one timer is armed or one tick has fired and not gone on; where no microtask is left, the scan of that
  tick has not ended. -/
  chain : w.started = true → w.stopped = false → w.armed.length + w.calls.countP Call.pendingTick = 1
  ticking : w.Drained → ∀ c ∈ w.calls, c.pendingTick = true → w.scans[c.scan]? = some none
  /-- After `stop` no timer is armed. -/
  silent : w.stopped = true → w.armed = []
  /-- What a tick arms, by the scans that have ended. -/
  delay : ∀ i random v, step w (.continues i random) = some v → v.stopped = false →
    ∃ t last earlier, v.armed = [t] ∧ w.finished = last :: earlier ∧
      if last then MIN_INTERVAL_MS ≤ t.delayMs ∧ t.delayMs < MAX_INTERVAL_MS
      else t.delayMs = min (BACKOFF_INITIAL_MS * 2 ^ w.offline) MAX_INTERVAL_MS

/-! ## The delays -/

/-- Rounding to 53 bits adds half a unit of the last place at most. -/
theorem toDouble_lt {n d : Nat} (h : n + 2 ^ 25 < d) (hn : n < 2 ^ 79) : toDouble n < d := by
  unfold toDouble
  split
  · omega
  · have he : n.log2 - 52 ≤ 26 := by
      have := Nat.log2_lt (n := n) (k := 79) (by omega)
      omega
    have hpow : 2 ^ (n.log2 - 52) ≤ 2 ^ 26 := Nat.pow_le_pow_right (by decide) he
    refine Nat.lt_of_le_of_lt (Nat.min_le_left _ _) ?_
    have hdiv := Nat.div_add_mod' n (2 ^ (n.log2 - 52))
    split
    · rw [Nat.add_one_mul]
      omega
    · omega

/-- **`Math.random()` draws no delay of `MAX_INTERVAL_MS`**: the product rounds below the span. -/
theorem nextHealthyDelay_range (random : Random) :
    MIN_INTERVAL_MS ≤ nextHealthyDelay random ∧ nextHealthyDelay random < MAX_INTERVAL_MS := by
  have hspan : MAX_INTERVAL_MS - MIN_INTERVAL_MS = 43200000 := rfl
  have hpow : 2 ^ 53 ≤ 2 ^ random.shift := Nat.pow_le_pow_right (by decide) random.belowOne
  have hproduct : toDouble (random.mantissa * 43200000) < 2 ^ random.shift * 43200000 := by
    have hm := random.precise
    apply toDouble_lt <;> omega
  have hfloor := Nat.div_lt_of_lt_mul hproduct
  simp only [nextHealthyDelay, hspan]
  exact ⟨Nat.le_add_right _ _, Nat.add_lt_add_left hfloor MIN_INTERVAL_MS⟩

theorem offline_cons (last : Bool) (earlier : List Bool) :
    ((last :: earlier).takeWhile (fun online => !online)).length =
      if last then 0 else (earlier.takeWhile (fun online => !online)).length + 1 := by
  cases last <;> rfl

/-! ## What one scan does -/

/-- **`runOnce` never rejects**, and keeps the backoff that the outcomes ask for. -/
theorem runOnce_eq (currentBackoffMs : Nat) (scan : Except String ScanOutcome) :
    ∃ line, runOnce currentBackoffMs scan =
      .ok (if online scan then BACKOFF_INITIAL_MS else min (currentBackoffMs * 2) BACKOFF_MAX_MS, line) := by
  cases scan with
  | error err => exact ⟨_, rfl⟩
  | ok outcome =>
    obtain ⟨report, isOnline, fetchError⟩ := outcome
    cases isOnline <;> exact ⟨_, rfl⟩

/-- The backoff after `k` scans in a row that were not online. -/
def backoff (k : Nat) : Nat := min (BACKOFF_INITIAL_MS * 2 ^ k) BACKOFF_MAX_MS

theorem backoff_succ (k : Nat) : backoff (k + 1) = min (backoff k * 2) BACKOFF_MAX_MS := by
  unfold backoff
  rw [Nat.pow_succ, ← Nat.mul_assoc]
  omega

/-- Only a scan that was not online makes the tick back off. -/
theorem backoff_succ_ne (k : Nat) : backoff (k + 1) ≠ BACKOFF_INITIAL_MS := by
  have hpow : 0 < 2 ^ k := Nat.two_pow_pos k
  unfold backoff
  rw [Nat.pow_succ]
  simp only [BACKOFF_INITIAL_MS, BACKOFF_MAX_MS, MAX_INTERVAL_MS]
  omega

/-! ## What one event does -/

theorem step_start {w v : World} (h : step w .start = some v) : w.started = false ∧ v = { w.start with started := true } := by
  simp only [step] at h
  split at h
  · cases h
  · rename_i hstarted
    exact ⟨eq_false_of_ne_true hstarted, (Option.some.inj h).symm⟩

theorem step_fires {w v : World} {id : Nat} (h : step w (.fires id) = some v) :
    (∃ t ∈ w.armed, t.id = id) ∧ v = { w with armed := clearTimeout id w.armed }.refreshNow true := by
  simp only [step] at h
  split at h
  · rename_i hany
    obtain ⟨t, ht, hid⟩ := List.any_eq_true.1 hany
    exact ⟨⟨t, ht, eq_of_beq hid⟩, (Option.some.inj h).symm⟩
  · cases h

theorem step_scanEnds {w v : World} {scan : Nat} {outcome : Except String ScanOutcome}
    (h : step w (.scanEnds scan outcome) = some v) : w.scans[scan]? = some none ∧ v = w.scanEnds scan outcome := by
  simp only [step] at h
  split at h
  · rename_i hscan
    exact ⟨hscan, (Option.some.inj h).symm⟩
  · cases h

theorem step_returns {w v : World} {i : Nat} (h : step w (.returns i) = some v) : ∃ call result,
    w.calls[i]? = some call ∧ call.promise = none ∧ w.scans[call.scan]? = some (some result) ∧ v = w.returns i call result := by
  simp only [step] at h
  split at h
  · rename_i call hcall
    split at h
    · rename_i result hpromise hscan
      exact ⟨call, result, hcall, hpromise, hscan, (Option.some.inj h).symm⟩
    · cases h
  · cases h

theorem step_continues {w v : World} {i : Nat} {random : Random} (h : step w (.continues i random) = some v) : ∃ call,
    w.calls[i]? = some call ∧ call.pendingTick = true ∧ call.promise = some (.ok ()) ∧ v = w.continues i call random := by
  simp only [step] at h
  split at h
  · rename_i call hcall
    split at h
    · rename_i hdue
      refine ⟨call, hcall, ?_, hdue.2.2, (Option.some.inj h).symm⟩
      rw [Call.pendingTick, hdue.1, eq_false_of_ne_true hdue.2.1]
      rfl
    · cases h
  · cases h

theorem returns_enabled {w : World} {i : Nat} {call : Call} {result : Except String Unit} (hcall : w.calls[i]? = some call)
    (hpromise : call.promise = none) (hscan : w.scans[call.scan]? = some (some result)) :
    step w (.returns i) = some (w.returns i call result) := by
  simp only [step, hcall, hpromise, hscan]

theorem continues_enabled {w : World} {i : Nat} {call : Call} (hcall : w.calls[i]? = some call)
    (hpending : call.pendingTick = true) (hpromise : call.promise = some (.ok ())) (random : Random) :
    step w (.continues i random) = some (w.continues i call random) := by
  obtain ⟨htick, hcontinued⟩ := Bool.and_eq_true_iff.1 hpending
  have hdue : call.tick = true ∧ ¬ call.continued = true ∧ call.promise = some (.ok ()) :=
    ⟨htick, by simpa using hcontinued, hpromise⟩
  simp only [step, hcall]
  exact if_pos hdue

/-- **The end of a scan**: its promise is fulfilled, the backoff and the history are brought up to date, and the rest stays. -/
theorem scanEnds_eq (w : World) (scan : Nat) (outcome : Except String ScanOutcome) : ∃ line, w.scanEnds scan outcome = { w with
    finished := online outcome :: w.finished
    currentBackoffMs := if online outcome then BACKOFF_INITIAL_MS else min (w.currentBackoffMs * 2) BACKOFF_MAX_MS
    logged := w.logged ++ [line]
    scans := w.scans.set scan (some (.ok ())) } := by
  obtain ⟨line, hrun⟩ := runOnce_eq w.currentBackoffMs outcome
  exact ⟨line, by rw [World.scanEnds, hrun]⟩

theorem forall_mem_set {p : Call → Prop} {l : List Call} {i : Nat} {d : Call} (hl : ∀ c ∈ l, p c) (hd : p d) :
    ∀ c ∈ l.set i d, p c := by
  intro c hc
  rcases List.mem_or_eq_of_mem_set hc with hc | rfl
  · exact hl c hc
  · exact hd

theorem countP_set_add {p : Call → Bool} {l : List Call} {i : Nat} {c d : Call} (h : l[i]? = some c) :
    (l.set i d).countP p + (if p c then 1 else 0) = l.countP p + (if p d then 1 else 0) := by
  obtain ⟨hi, hc⟩ := List.getElem?_eq_some_iff.1 h
  have hpos : p c = true → 0 < l.countP p := fun hp => List.countP_pos_iff.2 ⟨c, List.mem_of_getElem? h, hp⟩
  rw [List.countP_set hi, hc]
  by_cases hp : p c = true
  · have := hpos hp
    rw [if_pos hp]
    omega
  · rw [if_neg hp]
    omega

/-- `scheduleNext` and what goes before it touch the timers only. -/
theorem scheduleNext_frame (w : World) (delayMs : Nat) : ∃ timer armed timersMade,
    w.scheduleNext delayMs = { w with timer := timer, armed := armed, timersMade := timersMade } := by
  unfold World.scheduleNext
  split
  · exact ⟨w.timer, w.armed, w.timersMade, rfl⟩
  · exact ⟨_, _, _, rfl⟩

theorem start_frame (w : World) : ∃ timer armed timersMade,
    w.start = { w with timer := timer, armed := armed, timersMade := timersMade } := by
  unfold World.start
  split
  · exact ⟨w.timer, w.armed, w.timersMade, rfl⟩
  · exact scheduleNext_frame w FIRST_SCAN_DELAY_MS

theorem continues_frame (w : World) (i : Nat) (call : Call) (random : Random) : ∃ timer armed timersMade,
    w.continues i call random = { w with
      calls := w.calls.set i { call with continued := true }, timer := timer, armed := armed, timersMade := timersMade } :=
  scheduleNext_frame { w with calls := w.calls.set i { call with continued := true } } _

/-! ## The scans and the calls -/

/-- **The handle, the scans and the calls agree**: a scan in flight is the one of the handle, one call will clear it, and a
call settles as its scan did. -/
structure Flight (w : World) : Prop where
  known : ∀ c ∈ w.calls, c.scan < w.scans.length
  running : ∀ i : Nat, w.scans[i]? = some none → w.inflight = some i
  clears : w.calls.countP Call.clears = if w.inflight.isSome then 1 else 0
  cleared : ∀ c ∈ w.calls, c.clears = true → w.inflight = some c.scan
  fulfilled : ∀ (i : Nat) result, w.scans[i]? = some (some result) → result = .ok ()
  resolved : ∀ c ∈ w.calls, ∀ result, c.promise = some result → w.scans[c.scan]? = some (some result)
  backoff : w.currentBackoffMs = backoff w.offline
  scanned : ∀ i, w.Ended i → w.finished ≠ []

theorem Flight.init : Flight World.init where
  known := fun _ hc => nomatch hc
  running := fun _ h => by cases h
  clears := rfl
  cleared := fun _ hc => nomatch hc
  fulfilled := fun _ _ h => by cases h
  resolved := fun _ hc => nomatch hc
  backoff := rfl
  scanned := fun _ h => by
    obtain ⟨result, h⟩ := h
    cases h

theorem Flight.frame {w : World} (h : Flight w) (timer : Option Nat) (armed : List Timer) (timersMade : Nat)
    (stopped started : Bool) : Flight { w with
      timer := timer, armed := armed, timersMade := timersMade, stopped := stopped, started := started } :=
  ⟨h.known, h.running, h.clears, h.cleared, h.fulfilled, h.resolved, h.backoff, h.scanned⟩

theorem Flight.start {w : World} (h : Flight w) : Flight { w.start with started := true } := by
  obtain ⟨timer, armed, timersMade, hw⟩ := start_frame w
  rw [hw]
  exact h.frame timer armed timersMade w.stopped true

theorem refreshNow_joins {w : World} {scan : Nat} (h : w.inflight = some scan) (tick : Bool) :
    w.refreshNow tick = { w with calls := w.calls ++ [⟨tick, scan, false, none, false⟩] } := by
  rw [World.refreshNow, h]

theorem refreshNow_starts {w : World} (h : w.inflight = none) (tick : Bool) : w.refreshNow tick = { w with
    scans := w.scans ++ [none]
    inflight := some w.scans.length
    calls := w.calls ++ [⟨tick, w.scans.length, true, none, false⟩] } := by
  rw [World.refreshNow, h]

theorem Flight.lt {w : World} (h : Flight w) {scan : Nat} (hinflight : w.inflight = some scan) : scan < w.scans.length := by
  have hpos : 0 < w.calls.countP Call.clears := by
    rw [h.clears, hinflight]
    exact Nat.one_pos
  obtain ⟨c, hc, hclears⟩ := List.countP_pos_iff.1 hpos
  have heq := h.cleared c hc hclears
  rw [hinflight, Option.some.injEq] at heq
  exact heq ▸ h.known c hc

theorem Flight.joins {w : World} (h : Flight w) {scan : Nat} (hinflight : w.inflight = some scan) (tick : Bool) :
    Flight (w.refreshNow tick) := by
  rw [refreshNow_joins hinflight]
  exact {
    known := List.forall_mem_append.2 ⟨h.known, List.forall_mem_singleton.2 (h.lt hinflight)⟩
    running := h.running
    clears := by
      rw [List.countP_append, h.clears]
      rfl
    cleared := List.forall_mem_append.2 ⟨h.cleared, List.forall_mem_singleton.2 (fun hclears => by cases hclears)⟩
    fulfilled := h.fulfilled
    resolved := List.forall_mem_append.2 ⟨h.resolved, List.forall_mem_singleton.2 (fun _ hpromise => by cases hpromise)⟩
    backoff := h.backoff
    scanned := h.scanned }

theorem getElem?_concat_scan {scans : List Settled} {i : Nat} {s : Settled} (h : (scans ++ [none])[i]? = some s) :
    (i = scans.length ∧ s = none) ∨ scans[i]? = some s := by
  rw [List.getElem?_append] at h
  split at h
  · exact .inr h
  · obtain ⟨hlt, hs⟩ := List.getElem?_eq_some_iff.1 h
    rw [List.length_singleton] at hlt
    refine .inl ⟨by omega, ?_⟩
    rw [← hs, List.getElem_singleton]

theorem Flight.starts {w : World} (h : Flight w) (hinflight : w.inflight = none) (tick : Bool) :
    Flight (w.refreshNow tick) := by
  have hlength : w.scans.length < (w.scans ++ [none]).length := by
    rw [List.length_append]
    exact Nat.lt_add_one _
  rw [refreshNow_starts hinflight]
  exact {
    known := by
      refine List.forall_mem_append.2 ⟨fun c hc => ?_, List.forall_mem_singleton.2 hlength⟩
      exact Nat.lt_trans (h.known c hc) hlength
    running := fun i hi => by
      rcases getElem?_concat_scan hi with ⟨rfl, -⟩ | hi
      · rfl
      · cases hinflight.symm.trans (h.running i hi)
    clears := by
      rw [List.countP_append, h.clears, hinflight]
      rfl
    cleared := by
      refine List.forall_mem_append.2 ⟨fun c hc hclears => ?_, List.forall_mem_singleton.2 (fun _ => rfl)⟩
      cases hinflight.symm.trans (h.cleared c hc hclears)
    fulfilled := fun i result hi => by
      rcases getElem?_concat_scan hi with ⟨-, hnone⟩ | hi
      · cases hnone
      · exact h.fulfilled i result hi
    resolved := by
      refine List.forall_mem_append.2 ⟨fun c hc result hpromise => ?_,
        List.forall_mem_singleton.2 (fun _ hpromise => by cases hpromise)⟩
      exact (List.getElem?_append_left (h.known c hc)).trans (h.resolved c hc result hpromise)
    backoff := h.backoff
    scanned := fun i hi => by
      obtain ⟨result, hi⟩ := hi
      rcases getElem?_concat_scan hi with ⟨-, hnone⟩ | hi
      · cases hnone
      · exact h.scanned i ⟨result, hi⟩ }

theorem Flight.refreshNow {w : World} (h : Flight w) (tick : Bool) : Flight (w.refreshNow tick) := by
  cases hinflight : w.inflight with
  | some scan => exact h.joins hinflight tick
  | none => exact h.starts hinflight tick

theorem Flight.scanEnds {w : World} (h : Flight w) {scan : Nat} (hscan : w.scans[scan]? = some none)
    (outcome : Except String ScanOutcome) : Flight (w.scanEnds scan outcome) := by
  obtain ⟨line, hw⟩ := scanEnds_eq w scan outcome
  obtain ⟨hlt, -⟩ := List.getElem?_eq_some_iff.1 hscan
  have hself : (w.scans.set scan (some (.ok ())))[scan]? = some (some (.ok ())) := List.getElem?_set_self hlt
  have hother : ∀ {i : Nat}, i ≠ scan → (w.scans.set scan (some (.ok ())))[i]? = w.scans[i]? :=
    fun hne => List.getElem?_set_ne (Ne.symm hne)
  rw [hw]
  exact {
    known := fun c hc => by
      rw [List.length_set]
      exact h.known c hc
    running := fun i hi => by
      by_cases hne : i = scan
      · rw [hne, hself] at hi
        cases hi
      · exact h.running i (hother hne ▸ hi)
    clears := h.clears
    cleared := h.cleared
    fulfilled := fun i result hi => by
      by_cases hne : i = scan
      · rw [hne, hself] at hi
        cases hi
        rfl
      · exact h.fulfilled i result (hother hne ▸ hi)
    resolved := fun c hc result hpromise => by
      have hsettled := h.resolved c hc result hpromise
      have hne : c.scan ≠ scan := by
        intro heq
        rw [heq, hscan] at hsettled
        cases hsettled
      exact (hother hne).trans hsettled
    backoff := by
      rw [World.offline, offline_cons]
      cases online outcome with
      | true => rfl
      | false =>
        rw [if_neg Bool.false_ne_true, if_neg Bool.false_ne_true, backoff_succ, h.backoff]
        rfl
    scanned := fun _ _ => List.cons_ne_nil _ _ }

/-- **The starter of a scan that has ended is the one call that clears the handle.** -/
theorem Flight.returns_starter {w : World} (h : Flight w) {i : Nat} {call : Call} {result : Except String Unit}
    (hcall : w.calls[i]? = some call) (hpromise : call.promise = none) (hscan : w.scans[call.scan]? = some (some result)) :
    (∀ j : Nat, w.scans[j]? = some none → (if call.starter then none else w.inflight) = some j) ∧
      (w.returns i call result).calls.countP Call.clears =
        if (if call.starter then none else w.inflight).isSome then 1 else 0 := by
  have hclears : call.clears = call.starter := by rw [Call.clears, hpromise, Option.isNone_none, Bool.and_true]
  have hafter : Call.clears { call with promise := some result } = false := Bool.and_false _
  have hcount : (w.returns i call result).calls.countP Call.clears + (if call.starter then 1 else 0) =
      if w.inflight.isSome then 1 else 0 := by
    have hset := countP_set_add (p := Call.clears) (d := { call with promise := some result }) hcall
    rwa [h.clears, hafter, if_neg Bool.false_ne_true, hclears] at hset
  cases hstarter : call.starter with
  | false =>
    rw [hstarter] at hcount
    exact ⟨h.running, hcount⟩
  | true =>
    have hinflight := h.cleared call (List.mem_of_getElem? hcall) (hclears.trans hstarter)
    rw [hstarter, hinflight] at hcount
    refine ⟨fun j hj => ?_, Nat.succ.inj hcount⟩
    -- no other scan is in flight
    have hj' := hinflight.symm.trans (h.running j hj)
    rw [Option.some.injEq] at hj'
    rw [← hj', hscan] at hj
    cases hj

theorem Flight.returns {w : World} (h : Flight w) {i : Nat} {call : Call} {result : Except String Unit}
    (hcall : w.calls[i]? = some call) (hpromise : call.promise = none) (hscan : w.scans[call.scan]? = some (some result)) :
    Flight (w.returns i call result) := by
  obtain ⟨hrunning, hclears⟩ := h.returns_starter hcall hpromise hscan
  exact {
    known := forall_mem_set h.known (h.known call (List.mem_of_getElem? hcall))
    running := hrunning
    clears := hclears
    cleared := fun c hc hc' => by
      have hpos : 0 < (w.returns i call result).calls.countP Call.clears := List.countP_pos_iff.2 ⟨c, hc, hc'⟩
      rw [hclears] at hpos
      cases hstarter : call.starter with
      | true =>
        rw [hstarter] at hpos
        cases hpos
      | false =>
        rcases List.mem_or_eq_of_mem_set hc with hc | rfl
        · exact (if_neg (ne_true_of_eq_false hstarter)).trans (h.cleared c hc hc')
        · cases (Bool.and_false _).symm.trans hc'
    fulfilled := h.fulfilled
    resolved := forall_mem_set h.resolved (fun _ hr => hscan.trans (congrArg some hr))
    backoff := h.backoff
    scanned := h.scanned }

theorem Flight.continues {w : World} (h : Flight w) {i : Nat} {call : Call} (hcall : w.calls[i]? = some call)
    (random : Random) : Flight (w.continues i call random) := by
  have hset : Flight { w with calls := w.calls.set i { call with continued := true } } := {
    known := forall_mem_set h.known (h.known call (List.mem_of_getElem? hcall))
    running := h.running
    clears := by
      have hcount := countP_set_add (p := Call.clears) (d := { call with continued := true }) hcall
      exact (Nat.add_right_cancel hcount).trans h.clears
    cleared := forall_mem_set h.cleared (h.cleared call (List.mem_of_getElem? hcall))
    fulfilled := h.fulfilled
    resolved := forall_mem_set h.resolved (h.resolved call (List.mem_of_getElem? hcall))
    backoff := h.backoff
    scanned := h.scanned }
  obtain ⟨timer, armed, timersMade, hw⟩ := continues_frame w i call random
  rw [hw]
  exact hset.frame timer armed timersMade w.stopped w.started

theorem Flight.step {w v : World} (h : Flight w) {e : Event} (he : step w e = some v) : Flight v := by
  cases e with
  | start =>
    rw [(step_start he).2]
    exact h.start
  | stop =>
    rw [← Option.some.inj he]
    exact h.frame none (clearTimer w.timer w.armed) w.timersMade true w.started
  | fires id =>
    rw [(step_fires he).2]
    exact (h.frame w.timer (clearTimeout id w.armed) w.timersMade w.stopped w.started).refreshNow true
  | refreshNow =>
    rw [← Option.some.inj he]
    exact h.refreshNow false
  | scanEnds scan outcome =>
    obtain ⟨hscan, rfl⟩ := step_scanEnds he
    exact h.scanEnds hscan outcome
  | returns i =>
    obtain ⟨call, result, hcall, hpromise, hscan, rfl⟩ := step_returns he
    exact h.returns hcall hpromise hscan
  | continues i random =>
    obtain ⟨call, hcall, -, -, rfl⟩ := step_continues he
    exact h.continues hcall random

/-! ## The timers and the ticks -/

/-- **The periodic schedule**: every armed timer is the one of the handle. -/
structure Chain (w : World) : Prop where
  handle : ∀ t ∈ w.armed, w.timer = some t.id
  single : w.started = true → w.stopped = false → w.armed.length + w.calls.countP Call.pendingTick = 1
  before : w.started = false → w.armed = [] ∧ w.calls.countP Call.pendingTick = 0
  silent : w.stopped = true → w.armed = []

theorem Chain.init : Chain World.init where
  handle := fun _ ht => nomatch ht
  single := fun h => nomatch h
  before := fun _ => ⟨rfl, rfl⟩
  silent := fun _ => rfl

theorem clearTimer_eq_nil {timer : Option Nat} {armed : List Timer} (h : ∀ t ∈ armed, timer = some t.id) :
    clearTimer timer armed = [] := by
  cases armed with
  | nil => cases timer <;> rfl
  | cons t armed =>
    have ht := h t (List.mem_cons_self ..)
    subst ht
    refine List.filter_eq_nil_iff.2 (fun u hu => ?_)
    rw [Option.some.inj (h u hu)]
    simp

theorem scheduleNext_stopped {w : World} (h : w.stopped = true) (delayMs : Nat) : w.scheduleNext delayMs = w := if_pos h

theorem scheduleNext_armed {w : World} (h : w.stopped = false) (hnil : w.armed = []) (delayMs : Nat) :
    w.scheduleNext delayMs = { w with
      armed := [⟨w.timersMade, delayMs⟩], timer := some w.timersMade, timersMade := w.timersMade + 1 } := by
  have hclear : clearTimer w.timer [] = [] := by cases w.timer <;> rfl
  rw [World.scheduleNext, if_neg (ne_true_of_eq_false h), hnil, hclear]
  rfl

theorem Chain.calls {w : World} (h : Chain w) {calls : List Call}
    (hcalls : calls.countP Call.pendingTick = w.calls.countP Call.pendingTick) (inflight : Option Nat)
    (scans : List Settled) : Chain { w with calls := calls, inflight := inflight, scans := scans } :=
  ⟨h.handle, fun hs hn => hcalls ▸ h.single hs hn, fun hs => hcalls ▸ h.before hs, h.silent⟩

theorem Chain.start {w : World} (h : Chain w) (hstarted : w.started = false) :
    Chain { w.start with started := true } := by
  obtain ⟨harmed, hpending⟩ := h.before hstarted
  unfold World.start
  cases hstopped : w.stopped with
  | true => exact ⟨h.handle, fun _ hn => (nomatch hstopped.symm.trans hn), fun hs => (nomatch hs), h.silent⟩
  | false =>
    rw [if_neg Bool.false_ne_true, scheduleNext_armed hstopped harmed]
    exact {
      handle := fun t ht => by rw [List.mem_singleton.1 ht]
      single := fun _ _ => by rw [hpending]; rfl
      before := fun hs => nomatch hs
      silent := fun hs => nomatch hstopped.symm.trans hs }

theorem Chain.stop {w : World} (h : Chain w) : Chain w.stop where
  handle := fun t ht => by
    have hnil : w.stop.armed = [] := clearTimer_eq_nil h.handle
    rw [hnil] at ht
    cases ht
  single := fun _ hn => nomatch hn
  before := fun hs => ⟨clearTimer_eq_nil h.handle, (h.before hs).2⟩
  silent := fun _ => clearTimer_eq_nil h.handle

theorem countP_refreshNow (w : World) (tick : Bool) : (w.refreshNow tick).calls.countP Call.pendingTick =
    w.calls.countP Call.pendingTick + if tick then 1 else 0 := by
  unfold World.refreshNow
  cases w.inflight <;> cases tick <;> exact List.countP_append

theorem Chain.refreshNow {w : World} (h : Chain w) : Chain (w.refreshNow false) := by
  have hcalls := countP_refreshNow w false
  cases hinflight : w.inflight with
  | some scan =>
    rw [refreshNow_joins hinflight] at hcalls ⊢
    exact h.calls hcalls w.inflight w.scans
  | none =>
    rw [refreshNow_starts hinflight] at hcalls ⊢
    exact h.calls hcalls (some w.scans.length) (w.scans ++ [none])

/-- **A timer that fires was the only one, and its tick takes its place.** -/
theorem Chain.fires {w : World} (h : Chain w) {id : Nat} (ht : ∃ t ∈ w.armed, t.id = id) :
    Chain ({ w with armed := clearTimeout id w.armed }.refreshNow true) := by
  obtain ⟨t, ht, rfl⟩ := ht
  have hne : w.armed ≠ [] := List.ne_nil_of_mem ht
  have hnil : clearTimeout t.id w.armed = [] := by
    have hclear := clearTimer_eq_nil h.handle
    rwa [h.handle t ht] at hclear
  have hstarted : w.started = true := by
    cases hs : w.started with
    | true => rfl
    | false => exact absurd (h.before hs).1 hne
  have hstopped : w.stopped = false := by
    cases hs : w.stopped with
    | false => rfl
    | true => exact absurd (h.silent hs) hne
  have hsingle := h.single hstarted hstopped
  have hlength := List.length_pos_iff.2 hne
  have hcalls := countP_refreshNow { w with armed := clearTimeout t.id w.armed } true
  have hframe : ∀ v : World, v.armed = [] → v.started = true → v.stopped = false → v.calls.countP Call.pendingTick = 1 →
      Chain v := fun v ha hs hn hc => {
    handle := fun u hu => by rw [ha] at hu; cases hu
    single := fun _ _ => by rw [ha, hc]; rfl
    before := fun hs' => nomatch hs.symm.trans hs'
    silent := fun _ => ha }
  have hpending : w.calls.countP Call.pendingTick + 1 = 1 := by omega
  refine hframe _ ?_ ?_ ?_ (hcalls.trans hpending)
  all_goals
    unfold World.refreshNow
    cases w.inflight <;> assumption

theorem continues_stopped {w : World} (h : w.stopped = true) (i : Nat) (call : Call) (random : Random) :
    w.continues i call random = { w with calls := w.calls.set i { call with continued := true } } :=
  scheduleNext_stopped (w := { w with calls := w.calls.set i { call with continued := true } }) h _

theorem continues_armed {w : World} (h : w.stopped = false) (hnil : w.armed = []) (i : Nat) (call : Call) (random : Random) :
    w.continues i call random = { w with
      calls := w.calls.set i { call with continued := true }
      armed := [⟨w.timersMade,
        if w.currentBackoffMs = BACKOFF_INITIAL_MS then nextHealthyDelay random else w.currentBackoffMs⟩]
      timer := some w.timersMade
      timersMade := w.timersMade + 1 } :=
  scheduleNext_armed (w := { w with calls := w.calls.set i { call with continued := true } }) h hnil _

/-- A tick that has not gone on is the whole schedule, where it goes on at all. -/
theorem Chain.alone {w : World} (h : Chain w) {i : Nat} {call : Call} (hcall : w.calls[i]? = some call)
    (hpending : call.pendingTick = true) : w.started = true ∧ w.armed = [] := by
  have hpos : 0 < w.calls.countP Call.pendingTick := List.countP_pos_iff.2 ⟨call, List.mem_of_getElem? hcall, hpending⟩
  have hstarted : w.started = true := by
    cases hs : w.started with
    | true => rfl
    | false =>
      have := (h.before hs).2
      omega
  refine ⟨hstarted, ?_⟩
  cases hstopped : w.stopped with
  | true => exact h.silent hstopped
  | false =>
    have hsingle := h.single hstarted hstopped
    exact List.eq_nil_of_length_eq_zero (by omega)

theorem Chain.continues {w : World} (h : Chain w) {i : Nat} {call : Call} (hcall : w.calls[i]? = some call)
    (hpending : call.pendingTick = true) (random : Random) : Chain (w.continues i call random) := by
  obtain ⟨hstarted, harmed⟩ := h.alone hcall hpending
  have hcount := countP_set_add (p := Call.pendingTick) (d := { call with continued := true }) hcall
  have hafter : Call.pendingTick { call with continued := true } = false := Bool.and_false _
  rw [hpending, if_pos rfl, hafter, if_neg Bool.false_ne_true] at hcount
  cases hstopped : w.stopped with
  | true =>
    rw [continues_stopped hstopped]
    exact {
      handle := h.handle
      single := fun _ hn => nomatch hstopped.symm.trans hn
      before := fun hs => nomatch hstarted.symm.trans hs
      silent := h.silent }
  | false =>
    have hsingle := h.single hstarted hstopped
    rw [harmed, List.length_nil, Nat.zero_add] at hsingle
    have hnone : (w.calls.set i { call with continued := true }).countP Call.pendingTick = 0 := by omega
    rw [continues_armed hstopped harmed]
    exact {
      handle := fun t ht => by rw [List.mem_singleton.1 ht]
      single := fun _ _ => congrArg (1 + ·) hnone
      before := fun hs => nomatch hstarted.symm.trans hs
      silent := fun hs => nomatch hstopped.symm.trans hs }

theorem Chain.step {w v : World} (h : Chain w) {e : Event} (he : step w e = some v) : Chain v := by
  cases e with
  | start =>
    obtain ⟨hstarted, rfl⟩ := step_start he
    exact h.start hstarted
  | stop =>
    rw [← Option.some.inj he]
    exact h.stop
  | fires id =>
    obtain ⟨ht, rfl⟩ := step_fires he
    exact h.fires ht
  | refreshNow =>
    rw [← Option.some.inj he]
    exact h.refreshNow
  | scanEnds scan outcome =>
    obtain ⟨-, rfl⟩ := step_scanEnds he
    obtain ⟨line, hw⟩ := scanEnds_eq w scan outcome
    rw [hw]
    exact ⟨h.handle, h.single, h.before, h.silent⟩
  | returns i =>
    obtain ⟨call, result, hcall, -, -, rfl⟩ := step_returns he
    have hcount := countP_set_add (p := Call.pendingTick) (d := { call with promise := some result }) hcall
    exact h.calls (Nat.add_right_cancel hcount) _ w.scans
  | continues i random =>
    obtain ⟨call, hcall, hpending, -, rfl⟩ := step_continues he
    exact h.continues hcall hpending random

/-! ## Whole runs -/

theorem rank_step {w v : World} {e : Event} (hmicrotask : e.microtask = true) (he : step w e = some v) :
    v.rank + 1 = w.rank := by
  cases e with
  | returns i =>
    obtain ⟨call, result, hcall, hpromise, -, rfl⟩ := step_returns he
    have hwaiting := countP_set_add (p := Call.waiting) (d := { call with promise := some result }) hcall
    have hpending := countP_set_add (p := Call.pendingTick) (d := { call with promise := some result }) hcall
    have hbefore : call.waiting = true := by rw [Call.waiting, hpromise]; rfl
    have hafter : Call.waiting { call with promise := some result } = false := rfl
    rw [hbefore, hafter, if_pos rfl, if_neg Bool.false_ne_true] at hwaiting
    have hsame := Nat.add_right_cancel hpending
    simp only [World.rank, World.returns]
    omega
  | continues i random =>
    obtain ⟨call, hcall, hpending, -, rfl⟩ := step_continues he
    have hwaiting := countP_set_add (p := Call.waiting) (d := { call with continued := true }) hcall
    have hcount := countP_set_add (p := Call.pendingTick) (d := { call with continued := true }) hcall
    have hafter : Call.pendingTick { call with continued := true } = false := Bool.and_false _
    rw [hpending, hafter, if_pos rfl, if_neg Bool.false_ne_true] at hcount
    have hsame := Nat.add_right_cancel hwaiting
    obtain ⟨timer, armed, timersMade, hw⟩ := continues_frame w i call random
    simp only [hw, World.rank]
    omega
  | start | stop | fires _ | refreshNow | scanEnds _ _ => cases hmicrotask

theorem rank_exec : ∀ (es : List Event) (w v : World), (∀ e ∈ es, e.microtask = true) → exec step w es = some v →
    es.length + v.rank = w.rank
  | [], w, v, _, h => by
    rw [Option.some.inj h]
    exact Nat.zero_add _
  | e :: es, w, v, hes, h => by
    obtain ⟨u, hu, hv⟩ := Steps.exec_cons h
    have hhead := rank_step (hes e (List.mem_cons_self ..)) hu
    have htail := rank_exec es u v (fun e' he' => hes e' (List.mem_cons_of_mem e he')) hv
    rw [List.length_cons]
    omega

theorem Flight.resolves {w : World} (h : Flight w) (hdrained : w.Drained) {c : Call} (hc : c ∈ w.calls)
    (hended : w.Ended c.scan) : c.promise = some (.ok ()) := by
  obtain ⟨result, hscan⟩ := hended
  cases hpromise : c.promise with
  | some r =>
    have hr := h.resolved c hc r hpromise
    rw [h.fulfilled c.scan r hr]
  | none =>
    obtain ⟨i, hi, hget⟩ := List.getElem_of_mem hc
    have hcall : w.calls[i]? = some c := List.getElem?_eq_some_iff.2 ⟨hi, hget⟩
    cases (hdrained (.returns i) rfl).symm.trans (returns_enabled hcall hpromise hscan)

theorem Flight.ticking {w : World} (h : Flight w) (hdrained : w.Drained) {c : Call} (hc : c ∈ w.calls)
    (hpending : c.pendingTick = true) : w.scans[c.scan]? = some none := by
  cases hscan : w.scans[c.scan]? with
  | none => exact absurd (h.known c hc) (Nat.not_lt_of_le (List.getElem?_eq_none_iff.1 hscan))
  | some s =>
    cases s with
    | none => rfl
    | some result =>
      have hpromise := h.resolves hdrained hc ⟨result, hscan⟩
      obtain ⟨i, hi, hget⟩ := List.getElem_of_mem hc
      have hcall : w.calls[i]? = some c := List.getElem?_eq_some_iff.2 ⟨hi, hget⟩
      let random : Random := ⟨0, 53, by decide, Nat.le_refl _⟩
      cases (hdrained (.continues i random) rfl).symm.trans (continues_enabled hcall hpending hpromise random)

theorem delay_of_inv {w v : World} (hflight : Flight w) (hchain : Chain w) {i : Nat} {random : Random}
    (h : step w (.continues i random) = some v) (hstopped : v.stopped = false) :
    ∃ t last earlier, v.armed = [t] ∧ w.finished = last :: earlier ∧
      if last then MIN_INTERVAL_MS ≤ t.delayMs ∧ t.delayMs < MAX_INTERVAL_MS
      else t.delayMs = min (BACKOFF_INITIAL_MS * 2 ^ w.offline) MAX_INTERVAL_MS := by
  obtain ⟨call, hcall, hpending, hpromise, rfl⟩ := step_continues h
  obtain ⟨-, harmed⟩ := hchain.alone hcall hpending
  have hstop : w.stopped = false := by
    cases hs : w.stopped with
    | false => rfl
    | true => rw [continues_stopped hs] at hstopped; exact hs.symm.trans hstopped
  have hfinished := hflight.scanned call.scan ⟨_, hflight.resolved call (List.mem_of_getElem? hcall) _ hpromise⟩
  obtain ⟨last, earlier, hlast⟩ := List.exists_cons_of_ne_nil hfinished
  rw [continues_armed hstop harmed]
  refine ⟨_, last, earlier, rfl, hlast, ?_⟩
  have hoffline : w.offline = if last then 0 else (earlier.takeWhile (fun online => !online)).length + 1 := by
    rw [World.offline, hlast, offline_cons]
  cases last with
  | true =>
    have hbackoff : w.currentBackoffMs = BACKOFF_INITIAL_MS := by rw [hflight.backoff, hoffline]; rfl
    rw [if_pos rfl, if_pos hbackoff]
    exact nextHealthyDelay_range random
  | false =>
    have hbackoff : w.currentBackoffMs ≠ BACKOFF_INITIAL_MS := by
      rw [hflight.backoff, hoffline]
      exact backoff_succ_ne _
    rw [if_neg Bool.false_ne_true, if_neg hbackoff]
    exact hflight.backoff

/-- **The scheduler is sound in every state of every run.** -/
theorem driftScheduler_sound {es : List Event} {w : World} (h : exec step World.init es = some w) : w.Sound := by
  obtain ⟨hflight, hchain⟩ := exec_inv' (I := fun w => Flight w ∧ Chain w) (fun _ _ _ hI he => ⟨hI.1.step he, hI.2.step he⟩)
    es World.init w ⟨Flight.init, Chain.init⟩ h
  exact {
    single := fun i j hi hj => Option.some.inj ((hflight.running i hi).symm.trans (hflight.running j hj))
    settled := fun c hc result hpromise =>
      have hscan := hflight.resolved c hc result hpromise
      ⟨hflight.fulfilled c.scan result hscan, result, hscan⟩
    runsOut := fun es v hes hv => rank_exec es w v hes hv
    resolves := fun hdrained c hc hended => hflight.resolves hdrained hc hended
    chain := hchain.single
    ticking := fun hdrained c hc hpending => hflight.ticking hdrained hc hpending
    silent := hchain.silent
    delay := fun i random v hv hstopped => delay_of_inv hflight hchain hv hstopped }

/-- A manual call joins the first tick's scan, which throws: both return, and the tick arms thirty minutes. -/
theorem driftScheduler_sound_joined : ∃ w, exec step World.init [.start, .fires 0, .refreshNow, .scanEnds 0 (.error "EACCES"),
    .returns 1, .returns 0, .continues 0 ⟨0, 53, by decide, Nat.le_refl _⟩] = some w ∧ w.armed = [⟨1, 1800000⟩] ∧ w.Sound := by
  let calls : List Call := [⟨true, 0, true, some (.ok ()), true⟩, ⟨false, 0, false, some (.ok ()), false⟩]
  let w : World := ⟨some 1, false, 1800000, none, [⟨1, 1800000⟩], 2, [some (.ok ())], calls, [.error "EACCES" 1800000], true,
    [false]⟩
  have hrun : exec step World.init [.start, .fires 0, .refreshNow, .scanEnds 0 (.error "EACCES"), .returns 1, .returns 0,
      .continues 0 ⟨0, 53, by decide, Nat.le_refl _⟩] = some w := rfl
  exact ⟨w, hrun, rfl, driftScheduler_sound hrun⟩

end DriftScheduler
end SignalkDoctor
