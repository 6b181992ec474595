import Mathlib.Data.List.Induction
/-!
# Fields — the fields of a text between separators

`fields` are the longest runs free of separators; how many separators stand between two of them makes no difference.
`mem_fields_iff` says what a field is without the list of them.
-/
namespace SignalkDoctor
namespace Fields

variable {α : Type} (sep : α → Bool)

def fields (t : List α) : List (List α) := (t.splitOnP sep).filter (fun w => !w.isEmpty)

/-- A run of the text, free of separators, with one or an end of the text on either side. -/
structure IsField (t w : List α) : Prop where
  ne_nil : w ≠ []
  free : ∀ c ∈ w, sep c = false
  bounded : ∃ before after, t = before ++ w ++ after ∧ (∀ c ∈ before.getLast?, sep c = true) ∧ ∀ c ∈ after.head?, sep c = true

variable {sep}

theorem fields_append (s : List α) {c : α} (hc : sep c = true) (t : List α) :
    fields sep (s ++ c :: t) = fields sep s ++ fields sep t := by
  rw [fields, List.splitOnP_append_cons _ _ hc, List.filter_append, fields, fields]

theorem fields_cons {c : α} (hc : sep c = true) (t : List α) : fields sep (c :: t) = fields sep t := fields_append [] hc t

theorem fields_of_free {w : List α} (hne : w ≠ []) (h : ∀ c ∈ w, sep c = false) : fields sep w = [w] := by
  rw [fields, List.splitOnP_eq_singleton h, List.filter_cons_of_pos (by simpa using hne), List.filter_nil]

/-- A field before a separator. -/
theorem fields_free_append {w : List α} (hne : w ≠ []) (h : ∀ c ∈ w, sep c = false) {c : α} (hc : sep c = true) (t : List α) :
    fields sep (w ++ c :: t) = w :: fields sep t := by
  rw [fields_append w hc, fields_of_free hne h]
  rfl

theorem fields_all_sep : ∀ {ws : List α}, (∀ c ∈ ws, sep c = true) → ∀ t, fields sep (ws ++ t) = fields sep t
  | [], _, _ => rfl
  | c :: ws, h, t => by
    rw [List.cons_append, fields_cons (h c (List.mem_cons_self ..)),
      fields_all_sep (fun d hd => h d (List.mem_cons_of_mem c hd)) t]

theorem IsField.append {a w : List α} (h : IsField sep a w) {c : α} (hc : sep c = true) (b : List α) :
    IsField sep (a ++ c :: b) w := by
  obtain ⟨hne, hfree, before, after, rfl, hbefore, hafter⟩ := h
  refine ⟨hne, hfree, before, after ++ c :: b, by simp, hbefore, fun d hd => ?_⟩
  cases after with
  | nil =>
    cases hd
    exact hc
  | cons e after => exact hafter d hd

theorem IsField.prepend {b w : List α} (h : IsField sep b w) {c : α} (hc : sep c = true) (a : List α) :
    IsField sep (a ++ c :: b) w := by
  obtain ⟨hne, hfree, before, after, rfl, hbefore, hafter⟩ := h
  refine ⟨hne, hfree, a ++ c :: before, after, by simp, fun d hd => ?_, hafter⟩
  rw [List.getLast?_append, List.getLast?_cons, Option.some_or] at hd
  cases hlast : before.getLast? with
  | none =>
    rw [hlast] at hd
    cases hd
    exact hc
  | some e =>
    rw [hlast] at hd
    cases hd
    exact hbefore e hlast

theorem isField_of_mem {t w : List α} (h : w ∈ fields sep t) : IsField sep t w := by
  by_cases hfree : ∀ c ∈ t, sep c = false
  · cases t with
    | nil => cases h
    | cons d t =>
      rw [fields_of_free (List.cons_ne_nil d t) hfree] at h
      rw [List.mem_singleton.1 h]
      exact ⟨List.cons_ne_nil d t, hfree, [], [], by simp, by simp, by simp⟩
  · -- cut at a separator: both sides are shorter
    obtain ⟨c, hmem, hc⟩ : ∃ c ∈ t, sep c = true := by simpa using hfree
    obtain ⟨a, b, ht⟩ := List.append_of_mem hmem
    have hlength : t.length = a.length + b.length + 1 := by
      rw [ht, List.length_append, List.length_cons, Nat.add_assoc]
    rw [ht, fields_append a hc, List.mem_append] at h
    rw [ht]
    rcases h with h | h
    · exact (isField_of_mem h).append hc b
    · exact (isField_of_mem h).prepend hc a
termination_by t.length
decreasing_by all_goals omega

/-- **The fields of a text are its runs between separators.** -/
theorem mem_fields_iff {t w : List α} : w ∈ fields sep t ↔ IsField sep t w := by
  refine ⟨isField_of_mem, fun h => ?_⟩
  obtain ⟨hne, hfree, before, after, rfl, hbefore, hafter⟩ := h
  have hrest : w ∈ fields sep (w ++ after) := by
    cases after with
    | nil =>
      rw [List.append_nil, fields_of_free hne hfree]
      exact List.mem_singleton_self w
    | cons c after =>
      rw [fields_free_append hne hfree (hafter c rfl)]
      exact List.mem_cons_self ..
  induction before using List.reverseRec with
  | nil => exact hrest
  | append_singleton before c _ =>
    rw [List.append_assoc, List.append_assoc, List.singleton_append, fields_append before (hbefore c (by simp))]
    exact List.mem_append_right _ hrest

end Fields
end SignalkDoctor
