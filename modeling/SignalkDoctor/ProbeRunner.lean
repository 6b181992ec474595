import Mathlib.Data.List.Nodup
import Mathlib.Logic.Function.Basic
import SignalkDoctor.Probes
/-!
# ProbeRunner — all probes at once (`src/probes/runner.ts`)

The runner starts the probes together, each with a timer of its own, and answers when each of them has settled: with what
came first of its verdict, its failure and its timer.  The events of the probes come in any order.

`runAllProbes_isolated` says that what a probe contributes depends on its own first event alone.
-/
namespace SignalkDoctor
namespace ProbeRunner

open Function (update)
open Probes (ProbeResult ProbeSpec ProbeStatus degraded)

def PROBES : List ProbeSpec :=
  [⟨"podman", "Container runtime"⟩,
    ⟨"dbus", "User-instance DBus socket"⟩,
    ⟨"container-signalk-server", "SignalK Server container"⟩,
    ⟨"container-signalk-updater-server", "SignalK Updater container"⟩,
    ⟨"signalk-health", "SignalK server HTTP health"⟩,
    ⟨"updater-health", "Updater HTTP health"⟩,
    ⟨"version-drift", "Version drift"⟩,
    ⟨"timezone-drift", "Timezone drift"⟩,
    ⟨"dependency-drift", "Dependency drift"⟩,
    ⟨"snapshots", "Quadlet snapshots"⟩,
    ⟨"disk", "Disk free on /data"⟩,
    ⟨"memory", "Free RAM"⟩,
    ⟨"time-drift", "System clock vs ghcr.io"⟩,
    ⟨"cgroup-delegation", "cgroup controller delegation"⟩,
    ⟨"storage-type", "Host root storage"⟩,
    ⟨"hardware-watchdog", "Hardware watchdog"⟩,
    ⟨"host-restarts", "Unclean host restarts"⟩,
    ⟨"pi-power", "Pi power and temperature"⟩]

variable {δ : Type}

inductive Outcome (δ : Type) where
  | resolved (r : ProbeResult δ)
  | rejected (message : String)
  | timer
  deriving DecidableEq, Repr

/-- An event of the probe at a place of the list. -/
structure RunEvent (δ : Type) where
  index : Nat
  outcome : Outcome δ
  durationMs : Int
  deriving DecidableEq, Repr

/-- What `runWithTimeout` resolves with at an event. -/
def resultOf (timeoutText : String) (spec : ProbeSpec) (e : RunEvent δ) : ProbeResult δ :=
  match e.outcome with
  | .resolved r => r
  | .rejected message => degraded spec message e.durationMs
  | .timer => degraded spec ("probe did not finish within " ++ timeoutText ++ "ms (timed out)") e.durationMs

/-- `if (settled) return;` -/
def onEvent (timeoutText : String) (specs : List ProbeSpec) (settled : Nat → Option (ProbeResult δ)) (e : RunEvent δ) :
    Nat → Option (ProbeResult δ) :=
  match settled e.index, specs[e.index]? with
  | none, some spec => update settled e.index (some (resultOf timeoutText spec e))
  | _, _ => settled

structure RunSummary where
  ok : Nat
  warn : Nat
  fail : Nat
  unknown : Nat
  deriving DecidableEq, Repr

/-- `summary[r.status]++` -/
def RunSummary.count (s : RunSummary) : ProbeStatus → RunSummary
  | .ok => { s with ok := s.ok + 1 }
  | .warn => { s with warn := s.warn + 1 }
  | .fail => { s with fail := s.fail + 1 }
  | .unknown => { s with unknown := s.unknown + 1 }

def summarize (results : List (ProbeResult δ)) : RunSummary := results.foldl (fun s r => s.count r.status) ⟨0, 0, 0, 0⟩

structure RunAnswer (δ : Type) where
  results : List (ProbeResult δ)
  summary : RunSummary

/-- What each probe has settled with after some events. -/
def settledBy (timeoutText : String) (specs : List ProbeSpec) (events : List (RunEvent δ)) : Nat → Option (ProbeResult δ) :=
  events.foldl (onEvent timeoutText specs) (fun _ => none)

/-- `runAllProbes` over the specs, `none` while a probe has not settled. -/
def runAll (timeoutText : String) (specs : List ProbeSpec) (events : List (RunEvent δ)) : Option (RunAnswer δ) :=
  ((List.range specs.length).mapM (settledBy timeoutText specs events)).map (fun results => ⟨results, summarize results⟩)

def runAllProbes (timeoutText : String) (events : List (RunEvent δ)) : Option (RunAnswer δ) := runAll timeoutText PROBES events

/-! ## The first event of a probe -/

def firstOf (i : Nat) (events : List (RunEvent δ)) : Option (RunEvent δ) := events.find? (fun e => e.index = i)

section
variable {timeoutText : String} {specs : List ProbeSpec}

theorem onEvent_self {settled : Nat → Option (ProbeResult δ)} {e : RunEvent δ} (h : settled e.index = none) :
    onEvent timeoutText specs settled e e.index = specs[e.index]?.map (resultOf timeoutText · e) := by
  unfold onEvent
  rw [h]
  cases hspec : specs[e.index]? with
  | none => exact h
  | some spec => exact Function.update_self ..

/-- A settled probe stays as it is, and an event is nothing to the others. -/
theorem onEvent_other {settled : Nat → Option (ProbeResult δ)} {e : RunEvent δ} {i : Nat}
    (h : e.index ≠ i ∨ settled i ≠ none) : onEvent timeoutText specs settled e i = settled i := by
  unfold onEvent
  cases hnone : settled e.index with
  | some r => rfl
  | none =>
    cases hspec : specs[e.index]? with
    | none => rfl
    | some spec =>
      refine Function.update_of_ne (fun hi => ?_) _ _
      rcases h with hne | hsome
      · exact hne hi.symm
      · exact hsome (hi ▸ hnone)

theorem foldl_onEvent_settled {i : Nat} {r : ProbeResult δ} : ∀ (events : List (RunEvent δ))
    {settled : Nat → Option (ProbeResult δ)}, settled i = some r → events.foldl (onEvent timeoutText specs) settled i = some r
  | [], _, h => h
  | e :: events, settled, h => by
    rw [List.foldl_cons]
    exact foldl_onEvent_settled events ((onEvent_other (.inr (by simp [h]))).trans h)

/-- **A probe settles by its first event**, whatever the events of the others. -/
theorem foldl_onEvent {i : Nat} {spec : ProbeSpec} (hspec : specs[i]? = some spec) : ∀ (events : List (RunEvent δ))
    {settled : Nat → Option (ProbeResult δ)}, settled i = none →
    events.foldl (onEvent timeoutText specs) settled i = (firstOf i events).map (resultOf timeoutText spec)
  | [], settled, h => h
  | e :: events, settled, h => by
    rw [List.foldl_cons, firstOf, List.find?_cons]
    by_cases hi : e.index = i
    · subst hi
      rw [decide_eq_true rfl]
      refine foldl_onEvent_settled events ?_
      rw [onEvent_self h, hspec]
      rfl
    · rw [decide_eq_false hi]
      exact foldl_onEvent hspec events ((onEvent_other (.inl hi)).trans h)

theorem settledBy_eq {i : Nat} {spec : ProbeSpec} (hspec : specs[i]? = some spec) (events : List (RunEvent δ)) :
    settledBy timeoutText specs events i = (firstOf i events).map (resultOf timeoutText spec) := foldl_onEvent hspec events rfl

end

/-! ## The summary -/

def countOf (status : ProbeStatus) (results : List (ProbeResult δ)) : Nat := results.countP (fun r => r.status = status)

theorem foldl_count : ∀ (results : List (ProbeResult δ)) (s : RunSummary),
    results.foldl (fun s r => s.count r.status) s =
      ⟨s.ok + countOf .ok results, s.warn + countOf .warn results, s.fail + countOf .fail results,
        s.unknown + countOf .unknown results⟩
  | [], s => rfl
  | r :: results, s => by
    rw [List.foldl_cons, foldl_count results]
    unfold countOf
    cases hr : r.status <;> simp [RunSummary.count, hr, Nat.add_assoc, Nat.add_comm]

/-- **The summary counts the results.** -/
theorem summarize_eq (results : List (ProbeResult δ)) : summarize results =
    ⟨countOf .ok results, countOf .warn results, countOf .fail results, countOf .unknown results⟩ := by
  rw [summarize, foldl_count]
  simp

theorem countOf_total : ∀ results : List (ProbeResult δ),
    countOf .ok results + countOf .warn results + countOf .fail results + countOf .unknown results = results.length
  | [] => rfl
  | r :: results => by
    have ih := countOf_total results
    unfold countOf at ih ⊢
    rw [List.length_cons]
    cases hr : r.status <;> simp [hr] <;> omega

/-! ## The answer -/

theorem mapM_eq_some_iff {α β : Type} {f : α → Option β} : ∀ {xs : List α} {ys : List β},
    xs.mapM f = some ys ↔ List.Forall₂ (fun x y => f x = some y) xs ys
  | [], ys => by
    rw [List.mapM_nil]
    exact ⟨fun h => by cases h; exact .nil, fun h => by cases h; rfl⟩
  | x :: xs, ys => by
    rw [List.mapM_cons]
    constructor
    · intro h
      obtain ⟨y, hy, h⟩ := Option.bind_eq_some_iff.1 h
      obtain ⟨rest, hrest, h⟩ := Option.bind_eq_some_iff.1 h
      cases h
      exact .cons hy (mapM_eq_some_iff.1 hrest)
    · rintro (_ | ⟨hy, hrest⟩)
      rw [hy, mapM_eq_some_iff.2 hrest]
      rfl

theorem mapM_option_congr {α β : Type} {f g : α → Option β} : ∀ {xs : List α}, (∀ x ∈ xs, f x = g x) → xs.mapM f = xs.mapM g
  | [], _ => rfl
  | x :: xs, h => by
    rw [List.mapM_cons, List.mapM_cons, h x (List.mem_cons_self ..),
      mapM_option_congr (fun y hy => h y (List.mem_cons_of_mem x hy))]

theorem mapM_isSome_iff {α β : Type} {f : α → Option β} : ∀ {xs : List α},
    (xs.mapM f).isSome = true ↔ ∀ x ∈ xs, (f x).isSome = true
  | [] => by simp
  | x :: xs => by
    have ih : (xs.mapM f).isSome = true ↔ ∀ y ∈ xs, (f y).isSome = true := mapM_isSome_iff
    rw [List.mapM_cons]
    cases hx : f x with
    | none => simp [hx]
    | some y =>
      cases hxs : xs.mapM f with
      | none => simpa [hx, hxs] using ih
      | some ys => simpa [hx, hxs] using ih

section
variable {timeoutText : String} {specs : List ProbeSpec} {events : List (RunEvent δ)}

/-- **A result of the answer**, at its place in the list. -/
theorem runAll_result {a : RunAnswer δ} (h : runAll timeoutText specs events = some a) :
    a.results.length = specs.length ∧ a.summary = summarize a.results ∧ ∀ i spec, specs[i]? = some spec →
      ∃ e, firstOf i events = some e ∧ a.results[i]? = some (resultOf timeoutText spec e) := by
  obtain ⟨results, hresults, rfl⟩ := Option.map_eq_some_iff.1 h
  have hall := mapM_eq_some_iff.1 hresults
  have hlength : results.length = specs.length := by rw [← hall.length_eq, List.length_range]
  refine ⟨hlength, rfl, fun i spec hspec => ?_⟩
  obtain ⟨hi, -⟩ := List.getElem?_eq_some_iff.1 hspec
  have hone := List.forall₂_iff_get.1 hall |>.2 i (by rwa [List.length_range]) (by rwa [hlength])
  simp only [List.get_eq_getElem, List.getElem_range, settledBy_eq hspec, Option.map_eq_some_iff] at hone
  obtain ⟨e, he, hr⟩ := hone
  exact ⟨e, he, by rw [hr, List.getElem?_eq_getElem]⟩

theorem runAll_isSome_iff : (runAll timeoutText specs events).isSome = true ↔
    ∀ i < specs.length, (firstOf i events).isSome = true := by
  rw [runAll, Option.isSome_map, mapM_isSome_iff]
  refine forall_congr' (fun i => ?_)
  rw [List.mem_range]
  refine imp_congr_right (fun hi => ?_)
  rw [settledBy_eq (List.getElem?_eq_getElem hi), Option.isSome_map]

/-- The answer is made of the first events. -/
theorem runAll_congr {events' : List (RunEvent δ)} (h : ∀ i < specs.length, firstOf i events = firstOf i events') :
    runAll timeoutText specs events = runAll timeoutText specs events' := by
  have hsame : (List.range specs.length).mapM (settledBy timeoutText specs events) =
      (List.range specs.length).mapM (settledBy timeoutText specs events') := by
    refine mapM_option_congr (fun i hi => ?_)
    have hi := List.mem_range.1 hi
    rw [settledBy_eq (List.getElem?_eq_getElem hi), settledBy_eq (List.getElem?_eq_getElem hi), h i hi]
  rw [runAll, hsame, runAll]

end

/-- **No probe holds up or spoils another.**  For every order of the events: the runner answers exactly when every probe has
settled, failed or run out of time; each result is what the first event of its probe gives, at the probe's place; the
order of the events of different probes makes no difference; the summary counts the results; and if the verdicts carry
their probes' ids, each id of the list is there once. -/
theorem runAllProbes_isolated (timeoutText : String) (events : List (RunEvent δ)) :
    ((runAllProbes timeoutText events).isSome = true ↔ ∀ i < 18, (firstOf i events).isSome = true) ∧
    (∀ events', (∀ i < 18, firstOf i events = firstOf i events') →
      runAllProbes timeoutText events' = runAllProbes timeoutText events) ∧
    ∀ a, runAllProbes timeoutText events = some a →
      (∀ i spec, PROBES[i]? = some spec →
        ∃ e, firstOf i events = some e ∧ a.results[i]? = some (resultOf timeoutText spec e)) ∧
      a.summary = ⟨countOf .ok a.results, countOf .warn a.results, countOf .fail a.results, countOf .unknown a.results⟩ ∧
      a.summary.ok + a.summary.warn + a.summary.fail + a.summary.unknown = 18 ∧
      ((∀ e ∈ events, ∀ r spec, e.outcome = .resolved r → PROBES[e.index]? = some spec → r.id = spec.id) →
        a.results.map (·.id) = PROBES.map (·.id) ∧ (a.results.map (·.id)).Nodup) := by
  refine ⟨runAll_isSome_iff, fun events' h => ?_, fun a ha => ?_⟩
  · have hsame : runAll timeoutText PROBES events = runAll timeoutText PROBES events' := runAll_congr h
    exact hsame.symm
  obtain ⟨hlength, hsummary, hresults⟩ := runAll_result ha
  refine ⟨hresults, hsummary.trans (summarize_eq _), ?_, fun hids => ?_⟩
  · rw [hsummary, summarize_eq, countOf_total, hlength]
    rfl
  · have hsame : a.results.map (·.id) = PROBES.map (·.id) := by
      refine List.ext_getElem? (fun i => ?_)
      rw [List.getElem?_map, List.getElem?_map]
      cases hspec : PROBES[i]? with
      | none =>
        rw [List.getElem?_eq_none_iff] at hspec
        rw [List.getElem?_eq_none_iff.2 (by omega)]
        rfl
      | some spec =>
        obtain ⟨e, hfirst, hr⟩ := hresults i spec hspec
        rw [hr, Option.map_some, Option.map_some]
        have hindex : e.index = i := by simpa using List.find?_some hfirst
        cases houtcome : e.outcome with
        | resolved r =>
          have hid := hids e (List.mem_of_find?_eq_some hfirst) r spec houtcome (hindex ▸ hspec)
          simp [resultOf, houtcome, hid]
        | rejected message => simp [resultOf, houtcome, degraded]
        | timer => simp [resultOf, houtcome, degraded]
    refine ⟨hsame, ?_⟩
    rw [hsame]
    decide

end ProbeRunner
end SignalkDoctor
