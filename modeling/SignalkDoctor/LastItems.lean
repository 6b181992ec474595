import Mathlib.Data.List.DropRight
/-!
# LastItems — the last items of a list that grows

What is kept of a list by taking its last `n` items again and again, as items come, is the last `n` of them all
(`rtake_rtake_append`).
-/
namespace SignalkDoctor
namespace LastItems

variable {α : Type}

theorem rtake_of_length_le {l : List α} {n : Nat} (h : l.length ≤ n) : l.rtake n = l := by
  rw [List.rtake, Nat.sub_eq_zero_of_le h, List.drop_zero]

theorem length_rtake (l : List α) (n : Nat) : (l.rtake n).length = min n l.length := by
  rw [List.rtake, List.length_drop]
  omega

theorem map_rtake {β : Type} (f : α → β) (l : List α) (n : Nat) : (l.map f).rtake n = (l.rtake n).map f := by
  simp [List.rtake, List.map_drop]

theorem mem_of_mem_rtake {l : List α} {n : Nat} {a : α} (h : a ∈ l.rtake n) : a ∈ l := (List.drop_sublist _ _).mem h

theorem getLast?_rtake_concat (l : List α) (a : α) {n : Nat} (hn : 0 < n) : ((l ++ [a]).rtake n).getLast? = some a := by
  obtain ⟨m, rfl⟩ := Nat.exists_eq_succ_of_ne_zero hn.ne'
  rw [List.rtake_concat_succ, List.getLast?_concat]

/-- **Keeping the last items as items come.** -/
theorem rtake_rtake_append (l m : List α) (n : Nat) : (l.rtake n ++ m).rtake n = (l ++ m).rtake n := by
  have hlength : (l.rtake n ++ m).length - n = l.length + m.length - n - (l.length - n) := by
    rw [List.length_append, length_rtake]
    omega
  have hsplit : l.drop (l.length - n) ++ m = (l ++ m).drop (l.length - n) := by
    rw [List.drop_append, Nat.sub_eq_zero_of_le (Nat.sub_le _ _), List.drop_zero]
  rw [List.rtake, hlength, List.rtake, hsplit, List.drop_drop, List.rtake, List.length_append]
  congr 1
  omega

theorem rtake_min (l : List α) (n : Nat) : l.rtake (min n l.length) = l.rtake n := by
  have hdrop : l.length - min n l.length = l.length - n := by omega
  rw [List.rtake, hdrop, List.rtake]

/-- The last of the last. -/
theorem rtake_rtake (l : List α) (m n : Nat) : (l.rtake n).rtake m = l.rtake (min m n) := by
  rw [List.rtake, length_rtake, List.rtake, List.drop_drop, List.rtake]
  congr 1
  omega

end LastItems
end SignalkDoctor
