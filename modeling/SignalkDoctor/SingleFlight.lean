import Mathlib.Data.List.Nodup
import Mathlib.Logic.Function.Basic
import Mathlib.Tactic.Tauto
import SignalkDoctor.Steps
/-!
# SingleFlight — a cached value, one search for callers that come together

A caller gets the cached value, else waits for the search under way, else starts one.  A search finds a value or none.
Each caller that waited takes what its search found, caches a value, and clears the search under way, whichever that is by
then.  `run_spec` says what this buys: beyond the first, each search is paid for by a caller told that there is none.
-/
namespace SignalkDoctor
namespace SingleFlight

open Steps (exec)

variable {ρ : Type}

structure State (ρ : Type) where
  cached : Option ρ
  inFlight : Option Nat
  /-- What the searches have found, `none` for one under way. -/
  outcome : Nat → Option (Option ρ)
  started : Nat
  waiting : List (Nat × Nat)
  answers : List (Nat × Option ρ)

inductive Act (ρ : Type) where
  | call (caller : Nat)
  | found (search : Nat) (result : Option ρ)
  /-- The caller goes on after its `await`. -/
  | resume (caller : Nat)

namespace State

def init : State ρ := ⟨none, none, fun _ => none, 0, [], []⟩

def callers (s : State ρ) : List Nat := s.answers.map Prod.fst ++ s.waiting.map Prod.fst

def answer (s : State ρ) (caller : Nat) (result : Option ρ) : State ρ := { s with answers := s.answers ++ [(caller, result)] }

/-- The callers told that there is no value. -/
def refused (s : State ρ) : Nat := s.answers.countP (fun a => a.2.isNone)

end State

def step (s : State ρ) : Act ρ → Option (State ρ)
  | .call caller =>
    if caller ∈ s.callers then none
    else
      match s.cached with
      | some value => some (s.answer caller (some value))
      | none =>
        match s.inFlight with
        | some search => some { s with waiting := (caller, search) :: s.waiting }
        | none =>
          some { s with inFlight := some s.started, started := s.started + 1, waiting := (caller, s.started) :: s.waiting }
  | .found search result =>
    if search < s.started ∧ (s.outcome search).isNone then
      some { s with outcome := Function.update s.outcome search (some result) }
    else none
  | .resume caller =>
    match s.waiting.lookup caller with
    | none => none
    | some search =>
      match s.outcome search with
      | none => none
      | some result =>
        some (State.answer
          { s with
            cached := result.or s.cached
            inFlight := none
            waiting := s.waiting.filter (fun w => w.1 != caller) } caller result)

/-- What a step finds and does. -/
inductive Move (s : State ρ) : Act ρ → State ρ → Prop
  | hit (caller : Nat) (value : ρ) (hnew : caller ∉ s.callers) (hc : s.cached = some value) :
      Move s (.call caller) (s.answer caller (some value))
  | join (caller search : Nat) (hnew : caller ∉ s.callers) (hc : s.cached = none) (hf : s.inFlight = some search) :
      Move s (.call caller) { s with waiting := (caller, search) :: s.waiting }
  | start (caller : Nat) (hnew : caller ∉ s.callers) (hc : s.cached = none) (hf : s.inFlight = none) :
      Move s (.call caller)
        { s with inFlight := some s.started, started := s.started + 1, waiting := (caller, s.started) :: s.waiting }
  | found (search : Nat) (result : Option ρ) (hlt : search < s.started) (hnone : s.outcome search = none) :
      Move s (.found search result) { s with outcome := Function.update s.outcome search (some result) }
  | resume (caller search : Nat) (result : Option ρ) (hw : (caller, search) ∈ s.waiting)
      (ho : s.outcome search = some result) :
      Move s (.resume caller)
        (State.answer
          { s with
            cached := result.or s.cached
            inFlight := none
            waiting := s.waiting.filter (fun w => w.1 != caller) } caller result)

theorem mem_of_lookup {l : List (Nat × Nat)} {k v : Nat} (h : l.lookup k = some v) : (k, v) ∈ l := by
  obtain ⟨l₁, l₂, rfl, -⟩ := List.lookup_eq_some_iff.1 h
  exact List.mem_append_right l₁ (List.mem_cons_self ..)

theorem step_cases {s t : State ρ} {a : Act ρ} (h : step s a = some t) : Move s a t := by
  cases a with
  | call caller =>
    simp only [step] at h
    split at h
    · cases h
    · rename_i hnew
      split at h
      · rename_i value hc
        cases h
        exact .hit caller value hnew hc
      · rename_i hc
        split at h
        · rename_i search hf
          cases h
          exact .join caller search hnew hc hf
        · rename_i hf
          cases h
          exact .start caller hnew hc hf
  | found search result =>
    simp only [step] at h
    split at h
    · rename_i hs
      cases h
      exact .found search result hs.1 (Option.isNone_iff_eq_none.1 hs.2)
    · cases h
  | resume caller =>
    simp only [step] at h
    split at h
    · cases h
    · rename_i search hw
      split at h
      · cases h
      · rename_i result ho
        cases h
        exact .resume caller search result (mem_of_lookup hw) ho

/-! ## What holds in every run -/

structure State.Inv (s : State ρ) : Prop where
  /-- Each search beyond the first is paid for. -/
  paid : s.started ≤ s.refused + 1
  /-- With nothing cached or under way the next one is paid for too. -/
  due : s.cached = none → s.inFlight = none → s.started ≤ s.refused
  waiting : ∀ w ∈ s.waiting, w.2 < s.started
  inFlight : ∀ search, s.inFlight = some search → search < s.started
  /-- What is cached a search has found, and so is what was answered. -/
  cached : ∀ value, s.cached = some value → ∃ search, search < s.started ∧ s.outcome search = some (some value)
  answered : ∀ a ∈ s.answers, ∃ search, search < s.started ∧ s.outcome search = some a.2
  kept : s.cached = none → ∀ a ∈ s.answers, a.2 = none
  once : s.callers.Nodup

theorem inv_init : (State.init : State ρ).Inv := by
  constructor <;> simp [State.init, State.callers, State.refused]

theorem refused_answer (s : State ρ) (caller : Nat) (result : Option ρ) :
    (s.answer caller result).refused = s.refused + if result.isNone then 1 else 0 := by
  simp [State.refused, State.answer, List.countP_append, List.countP_singleton]

theorem mem_answer {s : State ρ} {caller : Nat} {result : Option ρ} {a : Nat × Option ρ} :
    a ∈ (s.answer caller result).answers ↔ a ∈ s.answers ∨ a = (caller, result) := by
  simp [State.answer]

section
variable {s t : State ρ}

theorem inv_hit (h : s.Inv) {caller : Nat} {value : ρ} (hnew : caller ∉ s.callers) (hc : s.cached = some value) :
    (s.answer caller (some value)).Inv := by
  constructor
  · rw [refused_answer]
    exact h.paid
  · intro hnone
    rw [State.answer, hc] at hnone
    cases hnone
  · exact h.waiting
  · exact h.inFlight
  · exact h.cached
  · intro a ha
    rcases mem_answer.1 ha with ha | rfl
    · exact h.answered a ha
    · exact h.cached value hc
  · intro hnone
    rw [State.answer, hc] at hnone
    cases hnone
  · have hperm : (s.answer caller (some value)).callers.Perm (caller :: s.callers) := by
      simp [State.callers, State.answer]
    exact hperm.nodup_iff.2 (List.nodup_cons.2 ⟨hnew, h.once⟩)

theorem nodup_wait (h : s.Inv) {caller : Nat} (hnew : caller ∉ s.callers) (search : Nat) :
    (s.answers.map Prod.fst ++ ((caller, search) :: s.waiting).map Prod.fst).Nodup := by
  have hperm : (s.answers.map Prod.fst ++ ((caller, search) :: s.waiting).map Prod.fst).Perm (caller :: s.callers) := by
    simp [State.callers]
  exact hperm.nodup_iff.2 (List.nodup_cons.2 ⟨hnew, h.once⟩)

theorem inv_join (h : s.Inv) {caller search : Nat} (hnew : caller ∉ s.callers) (hf : s.inFlight = some search) :
    State.Inv { s with waiting := (caller, search) :: s.waiting } := by
  refine ⟨h.paid, h.due, fun w hw => ?_, h.inFlight, h.cached, h.answered, h.kept, nodup_wait h hnew search⟩
  rcases List.mem_cons.1 hw with rfl | hw
  · exact h.inFlight search hf
  · exact h.waiting w hw

theorem inv_start (h : s.Inv) {caller : Nat} (hnew : caller ∉ s.callers) (hc : s.cached = none) (hf : s.inFlight = none) :
    State.Inv
      { s with inFlight := some s.started, started := s.started + 1, waiting := (caller, s.started) :: s.waiting } := by
  have hlift : ∀ {p : Nat → Prop}, (∃ search, search < s.started ∧ p search) → ∃ search, search < s.started + 1 ∧ p search :=
    fun ⟨search, hlt, hp⟩ => ⟨search, Nat.lt_succ_of_lt hlt, hp⟩
  constructor
  · exact Nat.succ_le_succ (h.due hc hf)
  · intro _ hnone
    cases hnone
  · intro w hw
    rcases List.mem_cons.1 hw with rfl | hw
    · exact Nat.lt_succ_self _
    · exact Nat.lt_succ_of_lt (h.waiting w hw)
  · intro search hs
    cases hs
    exact Nat.lt_succ_self _
  · exact fun value hv => hlift (h.cached value hv)
  · exact fun a ha => hlift (h.answered a ha)
  · exact h.kept
  · exact nodup_wait h hnew s.started

theorem inv_found (h : s.Inv) {search : Nat} (result : Option ρ) (hnone : s.outcome search = none) :
    State.Inv { s with outcome := Function.update s.outcome search (some result) } := by
  have hkeep : ∀ {r : Option ρ}, (∃ k, k < s.started ∧ s.outcome k = some r) →
      ∃ k, k < s.started ∧ Function.update s.outcome search (some result) k = some r := by
    rintro r ⟨k, hlt, hk⟩
    have hks : k ≠ search := fun hks => by
      rw [hks, hnone] at hk
      cases hk
    exact ⟨k, hlt, (Function.update_of_ne hks ..).trans hk⟩
  exact ⟨h.paid, h.due, h.waiting, h.inFlight, fun value hv => hkeep (h.cached value hv),
    fun a ha => hkeep (h.answered a ha), h.kept, h.once⟩

/-- **A caller that goes on.**  Told that there is none, it pays for the next search. -/
theorem inv_resume (h : s.Inv) {caller search : Nat} {result : Option ρ} (hw : (caller, search) ∈ s.waiting)
    (ho : s.outcome search = some result) :
    (State.answer
      { s with
        cached := result.or s.cached
        inFlight := none
        waiting := s.waiting.filter (fun w => w.1 != caller) } caller result).Inv := by
  have hsearch : search < s.started := h.waiting _ hw
  constructor
  · rw [refused_answer]
    exact Nat.le_trans h.paid (Nat.add_le_add_right (Nat.le_add_right ..) 1)
  · intro hnone _
    obtain ⟨rfl, -⟩ := Option.or_eq_none_iff.1 hnone
    rw [refused_answer]
    exact h.paid
  · exact fun w hw' => h.waiting w (List.mem_filter.1 hw').1
  · intro search' hs
    cases hs
  · intro value hv
    cases result with
    | none => exact h.cached value hv
    | some found =>
      cases hv
      exact ⟨search, hsearch, ho⟩
  · intro a ha
    rcases mem_answer.1 ha with ha | rfl
    · exact h.answered a ha
    · exact ⟨search, hsearch, ho⟩
  · intro hnone a ha
    obtain ⟨hresult, hcached⟩ := Option.or_eq_none_iff.1 hnone
    rcases mem_answer.1 ha with ha | rfl
    · exact h.kept hcached a ha
    · exact hresult
  · obtain ⟨hanswers, hwaiting, hdisjoint⟩ := List.nodup_append.1 h.once
    have hfilter : (s.waiting.filter (fun w => w.1 != caller)).map Prod.fst =
        (s.waiting.map Prod.fst).filter (fun c => c != caller) := by
      rw [List.filter_map]
      rfl
    simp only [State.callers, State.answer, List.map_append, List.map_cons, List.map_nil, hfilter]
    rw [List.nodup_append]
    refine ⟨?_, hwaiting.filter _, ?_⟩
    · rw [List.nodup_append]
      refine ⟨hanswers, List.nodup_singleton _, fun c hc d hd => ?_⟩
      rw [List.mem_singleton.1 hd]
      exact hdisjoint c hc caller (List.mem_map_of_mem hw)
    · intro c hc d hd
      obtain ⟨hd, hne⟩ := List.mem_filter.1 hd
      rcases List.mem_append.1 hc with hc | hc
      · exact hdisjoint c hc d hd
      · rw [List.mem_singleton.1 hc]
        intro heq
        simp [heq] at hne

theorem inv_step (s : State ρ) (a : Act ρ) (t : State ρ) (h : s.Inv) (hstep : step s a = some t) : t.Inv := by
  cases step_cases hstep with
  | hit caller value hnew hc => exact inv_hit h hnew hc
  | join caller search hnew hc hf => exact inv_join h hnew hf
  | start caller hnew hc hf => exact inv_start h hnew hc hf
  | found search result hlt hnone => exact inv_found h result hnone
  | resume caller search result hw ho => exact inv_resume h hw ho

end

theorem run_inv {acts : List (Act ρ)} {s : State ρ} (h : exec step .init acts = some s) : s.Inv :=
  Steps.exec_inv' inv_step acts _ s inv_init h

/-- **Once a value is cached** no search is started any more. -/
theorem started_of_cached {acts : List (Act ρ)} {s t : State ρ} (hc : s.cached ≠ none) (h : exec step s acts = some t) :
    t.started = s.started ∧ t.cached ≠ none := by
  refine Steps.exec_inv' (I := fun t : State ρ => t.started = s.started ∧ t.cached ≠ none) ?_ acts s t ⟨rfl, hc⟩ h
  rintro u a v ⟨hstarted, hcached⟩ hstep
  cases step_cases hstep with
  | hit | join | found => exact ⟨hstarted, hcached⟩
  | start caller hnew hnone hf => exact absurd hnone hcached
  | resume caller search result hw ho =>
    refine ⟨hstarted, fun hnone => hcached (Option.or_eq_none_iff.1 hnone).2⟩

/-- **A caller waits only while its search is under way.** -/
theorem resume_enabled {s : State ρ} {caller search : Nat} (h : s.Inv) (hw : (caller, search) ∈ s.waiting)
    (ho : s.outcome search ≠ none) : ∃ t, step s (.resume caller) = some t := by
  obtain ⟨found, hfound⟩ : ∃ found, s.waiting.lookup caller = some found := by
    rw [← Option.ne_none_iff_exists']
    intro hnone
    rw [List.lookup_eq_none_iff] at hnone
    simpa using hnone _ hw
  have hsame : found = search := by
    have hnodup : (s.waiting.map Prod.fst).Nodup := (List.nodup_append.1 h.once).2.1
    exact congrArg Prod.snd (List.inj_on_of_nodup_map hnodup (mem_of_lookup hfound) hw rfl)
  obtain ⟨result, hresult⟩ := Option.ne_none_iff_exists'.1 ho
  exact ⟨_, by simp only [step, hfound, hsame, hresult]; rfl⟩

/-- A caller stays among the callers. -/
theorem callers_step {s t : State ρ} {a : Act ρ} (hstep : step s a = some t) {caller : Nat}
    (hcaller : caller ∈ s.callers ∨ a = .call caller) : caller ∈ t.callers := by
  cases step_cases hstep with
  | hit c value hnew hc =>
    rcases hcaller with h | h
    · simp only [State.callers, State.answer, List.map_append, List.mem_append] at h ⊢
      tauto
    · cases h
      simp [State.callers, State.answer]
  | join c search hnew hc hf | start c hnew hc hf =>
    rcases hcaller with h | h
    · simp only [State.callers, List.map_cons, List.mem_append, List.mem_cons] at h ⊢
      tauto
    · cases h
      simp [State.callers]
  | found search result hlt hnone =>
    rcases hcaller with h | h
    · exact h
    · cases h
  | resume c search result hw ho =>
    rcases hcaller with h | h
    · simp only [State.callers, State.answer, List.map_append, List.mem_append, List.map_cons, List.map_nil,
        List.mem_singleton, List.mem_map, List.mem_filter, bne_iff_ne] at h ⊢
      by_cases heq : caller = c
      · exact .inl (.inr heq)
      · rcases h with h | ⟨w, hw, rfl⟩
        · exact .inl (.inl h)
        · exact .inr ⟨w, ⟨hw, heq⟩, rfl⟩
    · cases h

theorem run_callers : ∀ (acts : List (Act ρ)) (s t : State ρ), exec step s acts = some t →
    ∀ caller, caller ∈ s.callers ∨ .call caller ∈ acts → caller ∈ t.callers
  | [], s, t, h, caller, hcaller => by
    cases h
    simpa using hcaller
  | a :: acts, s, t, h, caller, hcaller => by
    obtain ⟨u, hu, hut⟩ := Steps.exec_cons h
    refine run_callers acts u t hut caller ?_
    rcases hcaller with hc | hc
    · exact .inl (callers_step hu (.inl hc))
    · rcases List.mem_cons.1 hc with rfl | hc
      · exact .inl (callers_step hu (.inr rfl))
      · exact .inr hc

/-- What a search has found it was told. -/
theorem outcome_found : ∀ (acts : List (Act ρ)) (s t : State ρ), exec step s acts = some t → ∀ search result,
    t.outcome search = some result → s.outcome search = some result ∨ .found search result ∈ acts
  | [], s, t, h, search, result, ho => by
    cases h
    exact .inl ho
  | a :: acts, s, t, h, search, result, ho => by
    obtain ⟨u, hu, hut⟩ := Steps.exec_cons h
    rcases outcome_found acts u t hut search result ho with ho | ho
    · cases step_cases hu with
      | hit | join | start | resume => exact .inl ho
      | found search' result' hlt hnone =>
        by_cases heq : search = search'
        · subst heq
          have hsame : some result' = some result := by simpa using ho
          cases hsame
          exact .inr (List.mem_cons_self ..)
        · exact .inl ((Function.update_of_ne heq ..).symm.trans ho)
    · exact .inr (List.mem_cons_of_mem _ ho)

end SingleFlight
end SignalkDoctor
