import Mathlib.Logic.Function.Basic
/-!
# Writes — a store after a list of writes

`apply` makes the writes one after the other; what a place holds then is the last write at it, or what it held before
(`apply_eq`).
-/
namespace SignalkDoctor
namespace Writes

variable {κ ν : Type} [DecidableEq κ]

def apply (ws : List (κ × ν)) (d : κ → ν) : κ → ν := ws.foldl (fun d w => Function.update d w.1 w.2) d

def last? (ws : List (κ × ν)) (k : κ) : Option ν := ws.reverse.lookup k

@[simp] theorem apply_nil (d : κ → ν) : apply [] d = d := rfl

@[simp] theorem apply_cons (w : κ × ν) (ws : List (κ × ν)) (d : κ → ν) :
    apply (w :: ws) d = apply ws (Function.update d w.1 w.2) := rfl

theorem apply_append (ws xs : List (κ × ν)) (d : κ → ν) : apply (ws ++ xs) d = apply xs (apply ws d) :=
  List.foldl_append

@[simp] theorem last?_nil (k : κ) : last? ([] : List (κ × ν)) k = none := rfl

theorem last?_append (ws xs : List (κ × ν)) (k : κ) : last? (ws ++ xs) k = (last? xs k).or (last? ws k) := by
  rw [last?, List.reverse_append, List.lookup_append]
  rfl

theorem last?_singleton (w : κ × ν) (k : κ) : last? [w] k = if k = w.1 then some w.2 else none := by
  obtain ⟨a, v⟩ := w
  by_cases hk : k = a
  · simp [last?, hk]
  · have hbeq : (k == a) = false := by simpa using hk
    simp [last?, List.lookup_cons, hk, hbeq]

theorem last?_cons (w : κ × ν) (ws : List (κ × ν)) (k : κ) :
    last? (w :: ws) k = (last? ws k).or (if k = w.1 then some w.2 else none) := by
  rw [← last?_singleton w k, ← last?_append]
  rfl

theorem last?_eq_none {ws : List (κ × ν)} {k : κ} (h : ∀ w ∈ ws, w.1 ≠ k) : last? ws k = none := by
  induction ws with
  | nil => rfl
  | cons w ws ih =>
    rw [last?_cons, ih (fun x hx => h x (List.mem_cons_of_mem w hx)), Option.none_or,
      if_neg (fun hk => h w (List.mem_cons_self ..) hk.symm)]

/-- **A place holds the last write at it, else what it held before.** -/
theorem apply_eq : ∀ (ws : List (κ × ν)) (d : κ → ν) (k : κ), apply ws d k = (last? ws k).getD (d k)
  | [], _, _ => rfl
  | w :: ws, d, k => by
    rw [apply_cons, apply_eq ws, last?_cons]
    by_cases hk : k = w.1
    · subst hk
      cases last? ws w.1 <;> simp
    · rw [if_neg hk, Function.update_of_ne hk, Option.or_none]

end Writes
end SignalkDoctor
