import Mathlib.Tactic.Linarith
import SignalkDoctor.Double
import SignalkDoctor.Json
/-!
# Probes — results, the time budget and the runner (`src/probes/types.ts`, `budget.ts`, `runner.ts`)

Time is a virtual clock in milliseconds; `Date.now()` is its floor.  The runner gives up on a probe after the ceiling
`probeTimeoutMs` and drops its verdict; a probe opens a budget that ends earlier (`startProbeDeadline`) and sizes its
hops by what is left of it.  `endsAt_lt` is how much earlier, whatever the ceiling and the rounding.
-/
namespace SignalkDoctor
namespace Probes

inductive ProbeStatus where
  | ok | warn | fail | unknown
  deriving DecidableEq, Repr

/-- `ProbeResult`, over what a probe gives as details. -/
structure ProbeResult (δ : Type) where
  id : String
  label : String
  status : ProbeStatus
  message : String
  details : Option δ
  durationMs : Int
  deriving DecidableEq, Repr

/-! ## Time -/

/-- `Date.now()` -/
def dateNow (t : ℚ) : Int := ⌊t⌋

/-- The delay `setTimeout` schedules: whole milliseconds, and one for a delay out of its range. -/
def timerDelay (ms : ℚ) : ℚ := if 1 ≤ ms ∧ ms ≤ 2 ^ 31 - 1 then ⌊ms⌋ else 1

theorem timerDelay_le {ms : ℚ} (h : 1 ≤ ms) : timerDelay ms ≤ ms := by
  unfold timerDelay
  split
  · exact Int.floor_le ms
  · exact h

theorem timerDelay_le_max (ms : ℚ) : timerDelay ms ≤ max 1 ms := by
  rcases le_total 1 ms with h | h
  · exact (timerDelay_le h).trans (le_max_right ..)
  · unfold timerDelay
    split
    · exact (Int.floor_le ms).trans (le_max_right ..)
    · exact le_max_left ..

theorem one_le_timerDelay (ms : ℚ) : 1 ≤ timerDelay ms := by
  unfold timerDelay
  split
  · rename_i h
    exact_mod_cast Int.le_floor.2 (by exact_mod_cast h.1)
  · exact le_rfl

theorem sub_one_lt_timerDelay {ms : ℚ} (h : 1 ≤ ms) (hlim : ms ≤ 2 ^ 31 - 1) : ms - 1 < timerDelay ms := by
  rw [timerDelay, if_pos ⟨h, hlim⟩]
  exact Int.sub_one_lt_floor ms

/-! ## The budget -/

/-- The environment of the doctor as far as the budget reads it: `PROBE_TIMEOUT_MS`, the conversion `Number` makes of it,
and the rounding of the arithmetic. -/
structure ProbeEnv where
  PROBE_TIMEOUT_MS : Option String
  number : String → JsNumber
  fl : Rounding

def probeTimeoutMs (env : ProbeEnv) : ℚ :=
  match env.PROBE_TIMEOUT_MS with
  | none => 8000
  | some raw =>
    match env.number raw with
    | .finite parsed => if 0 < parsed then max 250 parsed else 8000
    | _ => 8000

def marginMs : ℚ := 500

def minHopMs : ℚ := 1000

/-- `ProbeDeadline`: its three functions read the clock when they are called. -/
structure ProbeDeadline where
  fl : Rounding
  endsAt : ℚ

def ProbeDeadline.remaining (d : ProbeDeadline) (now : ℚ) : ℚ := max 0 (d.fl.round (d.endsAt - dateNow now))

def ProbeDeadline.hop (d : ProbeDeadline) (now want : ℚ) : ℚ := min want (d.remaining now)

def ProbeDeadline.allows (d : ProbeDeadline) (now need : ℚ) : Bool := need ≤ d.remaining now

def startProbeDeadline (env : ProbeEnv) (now : ℚ) : ProbeDeadline :=
  let ceiling := probeTimeoutMs env
  let budget := max 1 (env.fl.round (ceiling - min marginMs ⌈env.fl.round (ceiling / 10)⌉))
  ⟨env.fl, env.fl.round (dateNow now + budget)⟩

/-! ## The runner -/

structure ProbeSpec where
  id : String
  label : String

def degraded {δ : Type} (spec : ProbeSpec) (message : String) (durationMs : Int) : ProbeResult δ :=
  ⟨spec.id, spec.label, .unknown, message, none, durationMs⟩

/-- A probe that settled: with what, and at which time. -/
structure Settled (δ : Type) where
  result : Except String (ProbeResult δ)
  settledAt : ℚ

/-- `runWithTimeout`, of a probe started at `t0`: its own verdict if it settles before the timer fires. -/
def runWithTimeout {δ : Type} (spec : ProbeSpec) (timeoutMs t0 : ℚ) (timeoutText : String) (run : Settled δ) :
    ProbeResult δ :=
  if run.settledAt < t0 + timerDelay timeoutMs then
    match run.result with
    | .ok r => r
    | .error message => degraded spec message (dateNow run.settledAt - dateNow t0)
  else
    degraded spec ("probe did not finish within " ++ timeoutText ++ "ms (timed out)")
      (dateNow (t0 + timerDelay timeoutMs) - dateNow t0)

/-! ## What is left of the budget -/

theorem probeTimeoutMs_ge (env : ProbeEnv) : 250 ≤ probeTimeoutMs env := by
  unfold probeTimeoutMs
  split
  · norm_num
  · split
    · split
      · exact le_max_left ..
      · norm_num
    · norm_num

theorem dateNow_le (t : ℚ) : (dateNow t : ℚ) ≤ t := Int.floor_le t

theorem lt_dateNow_add_one (t : ℚ) : t < dateNow t + 1 := Int.lt_floor_add_one t

/-- A time `Date.now()` can tell, with room for a timer. -/
def OnCalendar (t : ℚ) : Prop := |t| ≤ 8640000000000000

section
variable {env : ProbeEnv} {t0 : ℚ}

/-- A tenth of the ceiling, the least of the margins, is at least 25 ms. -/
theorem margin_ge (env : ProbeEnv) : 25 ≤ min marginMs ⌈env.fl.round (probeTimeoutMs env / 10)⌉ := by
  have hten : ((25 : ℤ) : ℚ) ≤ probeTimeoutMs env / 10 := by
    have := probeTimeoutMs_ge env
    push_cast
    linarith
  have hround : ((25 : ℤ) : ℚ) ≤ env.fl.round (probeTimeoutMs env / 10) := env.fl.int_le_round (by norm_num) hten
  refine le_min (by norm_num [marginMs]) ?_
  exact_mod_cast hround.trans (Int.le_ceil _)

/-- **The budget ends well before the runner's timer.** -/
theorem endsAt_lt (hlim : probeTimeoutMs env ≤ 2 ^ 31 - 1) (ht : OnCalendar t0) :
    (startProbeDeadline env t0).endsAt < t0 + probeTimeoutMs env - 23 := by
  have hge := probeTimeoutMs_ge env
  have hmargin := margin_ge env
  have hmargin' : min marginMs ⌈env.fl.round (probeTimeoutMs env / 10)⌉ ≤ 500 := min_le_left ..
  obtain ⟨hlo, hhi⟩ := abs_le.1 ht
  have hnow := dateNow_le t0
  have hnow' := lt_dateNow_add_one t0
  simp only [startProbeDeadline]
  generalize min marginMs ⌈env.fl.round (probeTimeoutMs env / 10)⌉ = m at hmargin hmargin' ⊢
  have hbudget : env.fl.round (probeTimeoutMs env - m) < probeTimeoutMs env - 24 := by
    have := env.fl.round_lt_add_one (x := probeTimeoutMs env - m) (abs_le.2 ⟨by linarith, by linarith⟩)
    linarith
  have hmax : max 1 (env.fl.round (probeTimeoutMs env - m)) < probeTimeoutMs env - 24 :=
    max_lt (by linarith) hbudget
  have hmax' : 1 ≤ max 1 (env.fl.round (probeTimeoutMs env - m)) := le_max_left ..
  generalize max 1 (env.fl.round (probeTimeoutMs env - m)) = b at hmax hmax' ⊢
  have := env.fl.round_lt_add_one (x := dateNow t0 + b) (abs_le.2 ⟨by linarith, by linarith⟩)
  linarith

theorem dateNow_le_endsAt (ht : OnCalendar t0) : (dateNow t0 : ℚ) ≤ (startProbeDeadline env t0).endsAt := by
  obtain ⟨hlo, hhi⟩ := abs_le.1 ht
  have hnow := dateNow_le t0
  have hnow' := lt_dateNow_add_one t0
  refine env.fl.int_le_round ?_ (le_add_of_nonneg_right (zero_le_one.trans (le_max_left ..)))
  have h1 : ((-2 ^ 53 : ℤ) : ℚ) ≤ dateNow t0 := by
    push_cast
    linarith
  have h2 : (dateNow t0 : ℚ) ≤ (2 ^ 53 : ℤ) := by
    push_cast
    linarith
  exact abs_le.2 ⟨by exact_mod_cast h1, by exact_mod_cast h2⟩

/-- The probe, started at `t0`, is still within its budget, up to the two milliseconds the clock's floor and the rounding
may add. -/
def Within (env : ProbeEnv) (t0 t : ℚ) : Prop := t0 ≤ t ∧ t < (startProbeDeadline env t0).endsAt + 2

/-- **What is left of the budget ends with the budget.** -/
theorem within_add_of_le_remaining (hlim : probeTimeoutMs env ≤ 2 ^ 31 - 1) (ht : OnCalendar t0) {t n : ℚ}
    (hw : Within env t0 t) (hn : 0 < n) (h : n ≤ (startProbeDeadline env t0).remaining t) : Within env t0 (t + n) := by
  obtain ⟨h0, hlt⟩ := hw
  have hends := endsAt_lt hlim ht
  have hfloor := dateNow_le t
  have hfloor' := lt_dateNow_add_one t
  have hround := env.fl.round_lt_add_one (x := (startProbeDeadline env t0).endsAt - dateNow t)
    (abs_le.2 ⟨by linarith, by linarith⟩)
  have hle : n ≤ env.fl.round ((startProbeDeadline env t0).endsAt - dateNow t) :=
    (le_max_iff.1 h).resolve_left (not_le.2 hn)
  exact ⟨by linarith, by linarith⟩

/-- A hop with a budget of `minHopMs` ends with the budget. -/
theorem within_hop (hlim : probeTimeoutMs env ≤ 2 ^ 31 - 1) (ht : OnCalendar t0) {t want : ℚ} (hw : Within env t0 t)
    (hwant : 1 ≤ want) (h : minHopMs ≤ (startProbeDeadline env t0).remaining t) {t' : ℚ} (hle : t ≤ t')
    (hend : t' ≤ t + timerDelay ((startProbeDeadline env t0).hop t want)) : Within env t0 t' := by
  have hleft : 1 ≤ (startProbeDeadline env t0).remaining t := le_trans (by norm_num [minHopMs]) h
  have hdelay : timerDelay ((startProbeDeadline env t0).hop t want) ≤ (startProbeDeadline env t0).remaining t :=
    (timerDelay_le (le_min hwant hleft)).trans (min_le_right ..)
  obtain ⟨-, hleft'⟩ := within_add_of_le_remaining hlim ht hw (zero_lt_one.trans_le hleft) le_rfl
  exact ⟨hw.1.trans hle, by linarith⟩

theorem within_start (ht : OnCalendar t0) : Within env t0 t0 := by
  have hge : (dateNow t0 : ℚ) ≤ (startProbeDeadline env t0).endsAt := dateNow_le_endsAt ht
  have hnow := lt_dateNow_add_one t0
  exact ⟨le_rfl, by linarith⟩

/-- The first hop, which is started whatever is left, ends with the budget too. -/
theorem within_firstHop (hlim : probeTimeoutMs env ≤ 2 ^ 31 - 1) (ht : OnCalendar t0) {want t : ℚ} (hle : t0 ≤ t)
    (hend : t ≤ t0 + timerDelay ((startProbeDeadline env t0).hop t0 want)) : Within env t0 t := by
  have hge : (dateNow t0 : ℚ) ≤ (startProbeDeadline env t0).endsAt := dateNow_le_endsAt ht
  have hnow := lt_dateNow_add_one t0
  refine ⟨hle, ?_⟩
  have hdelay : timerDelay ((startProbeDeadline env t0).hop t0 want) ≤ max 1 ((startProbeDeadline env t0).remaining t0) :=
    (timerDelay_le_max _).trans (max_le_max_left 1 (min_le_right ..))
  rcases le_total ((startProbeDeadline env t0).remaining t0) 1 with h | h
  · rw [max_eq_left h] at hdelay
    linarith
  · rw [max_eq_right h] at hdelay
    obtain ⟨-, hleft⟩ := within_add_of_le_remaining hlim ht (within_start ht) (zero_lt_one.trans_le h) le_rfl
    linarith

/-- **A probe that settles within its budget settles before the runner's timer.** -/
theorem within_lt_ceiling (hlim : probeTimeoutMs env ≤ 2 ^ 31 - 1) (ht : OnCalendar t0) {t : ℚ} (h : Within env t0 t) :
    t < t0 + timerDelay (probeTimeoutMs env) := by
  have hends := endsAt_lt hlim ht
  have hge := probeTimeoutMs_ge env
  have := sub_one_lt_timerDelay (by linarith) hlim
  linarith [h.2]

end

end Probes
end SignalkDoctor
