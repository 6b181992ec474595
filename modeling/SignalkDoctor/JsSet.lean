/-!
# JsSet — the `Set` of the language

The entries stand in insertion order; a removed one leaves an empty slot, so that a `for … of` in progress, which keeps
an index, sees what is added and skips what is removed while it runs (`nextFrom`).
-/
namespace SignalkDoctor

structure JsSet (α : Type) where
  entries : List (Option α)
  deriving DecidableEq, Repr

namespace JsSet

variable {α : Type}

def empty : JsSet α := ⟨[]⟩

/-- `Array.from(set)` -/
def toList (s : JsSet α) : List α := s.entries.filterMap id

def size (s : JsSet α) : Nat := s.toList.length

def clear (s : JsSet α) : JsSet α := ⟨s.entries.map (fun _ => none)⟩

/-- The first live entry among the given ones, the first of them at index `k`, with the index after it. -/
def firstLive : List (Option α) → Nat → Option (α × Nat)
  | [], _ => none
  | some a :: _, k => some (a, k + 1)
  | none :: es, k => firstLive es (k + 1)

/-- **One turn of `for … of`**: the live entry at index `k` or after, and where the iteration goes on. -/
def nextFrom (s : JsSet α) (k : Nat) : Option (α × Nat) := firstLive (s.entries.drop k) k

variable [DecidableEq α]

def has (s : JsSet α) (a : α) : Bool := s.toList.contains a

def add (s : JsSet α) (a : α) : JsSet α := if s.has a then s else ⟨s.entries ++ [some a]⟩

def delete (s : JsSet α) (a : α) : JsSet α := ⟨s.entries.map (fun e => if e = some a then none else e)⟩

omit [DecidableEq α] in
@[simp] theorem toList_empty : (empty : JsSet α).toList = [] := rfl

omit [DecidableEq α] in
@[simp] theorem toList_clear (s : JsSet α) : s.clear.toList = [] := by
  simp [clear, toList]

omit [DecidableEq α] in
theorem size_eq_zero_iff (s : JsSet α) : s.size = 0 ↔ s.toList = [] := List.length_eq_zero_iff

theorem has_iff (s : JsSet α) (a : α) : s.has a = true ↔ a ∈ s.toList := by
  simp [has]

theorem toList_add {s : JsSet α} {a : α} (h : a ∉ s.toList) : (s.add a).toList = s.toList ++ [a] := by
  have hh : s.has a = false := by simpa [has] using h
  simp [add, hh, toList, List.filterMap_append]

theorem toList_delete (s : JsSet α) (a : α) : (s.delete a).toList = s.toList.filter (fun b => decide (b ≠ a)) := by
  obtain ⟨es⟩ := s
  simp only [delete, toList]
  induction es with
  | nil => rfl
  | cons e es ih =>
    rw [List.map_cons]
    cases e with
    | none => simpa using ih
    | some b =>
      by_cases hb : b = a
      · subst hb; simpa using ih
      · simpa [hb] using ih

omit [DecidableEq α] in
theorem firstLive_mem {a : α} {j : Nat} : ∀ (es : List (Option α)) (k : Nat), firstLive es k = some (a, j) →
    some a ∈ es
  | [], _, h => by cases h
  | some b :: es, k, h => by
    cases h
    exact List.mem_cons_self ..
  | none :: es, k, h => List.mem_cons_of_mem _ (firstLive_mem es (k + 1) h)

omit [DecidableEq α] in
theorem nextFrom_mem {s : JsSet α} {k j : Nat} {a : α} (h : s.nextFrom k = some (a, j)) : a ∈ s.toList :=
  List.mem_filterMap.2 ⟨some a, List.mem_of_mem_drop (firstLive_mem _ _ h), rfl⟩

/-- What an iteration at index `k` still has to visit, if the set stays as it is. -/
def rest (s : JsSet α) (k : Nat) : List α := (s.entries.drop k).filterMap id

omit [DecidableEq α] in
theorem firstLive_eq_none : ∀ (es : List (Option α)) (k : Nat), firstLive es k = none → es.filterMap id = []
  | [], _, _ => rfl
  | none :: es, k, h => firstLive_eq_none es (k + 1) h

omit [DecidableEq α] in
theorem firstLive_eq_some {a : α} {j : Nat} : ∀ (es : List (Option α)) (k : Nat), firstLive es k = some (a, j) →
    k < j ∧ es.filterMap id = a :: (es.drop (j - k)).filterMap id
  | some b :: es, k, h => by
    cases h
    exact ⟨Nat.lt_succ_self k, by simp⟩
  | none :: es, k, h => by
    obtain ⟨hlt, heq⟩ := firstLive_eq_some es (k + 1) h
    have hsub : j - k = (j - (k + 1)) + 1 := by omega
    exact ⟨by omega, by rw [hsub]; exact heq⟩

omit [DecidableEq α] in
/-- One turn visits the first of what is left. -/
theorem rest_of_nextFrom {s : JsSet α} {k : Nat} : s.nextFrom k = none ∧ s.rest k = [] ∨
    ∃ a j, s.nextFrom k = some (a, j) ∧ s.rest k = a :: s.rest j := by
  cases h : s.nextFrom k with
  | none => exact .inl ⟨rfl, firstLive_eq_none _ _ h⟩
  | some p =>
    obtain ⟨hlt, heq⟩ := firstLive_eq_some _ _ h
    refine .inr ⟨p.1, p.2, rfl, ?_⟩
    rw [rest, heq, List.drop_drop, Nat.add_sub_cancel' (Nat.le_of_lt hlt)]
    rfl

end JsSet
end SignalkDoctor
