import Mathlib.Data.List.Nodup
import Mathlib.Data.List.Perm.Subperm
import SignalkDoctor.LastItems
/-!
# Retention — a collection that drops its oldest items

Items are added one after the other, `H` all of them and `S` those that are left, both from the oldest on.  What a drop that
spares the newest `n` cannot lose is `Retains`, whatever else it fails to remove; what is left when it removes all the others
is `left`.
-/
namespace SignalkDoctor
namespace Retention

variable {α : Type}

/-- **The newest `n` are left**, in the order they came. -/
structure Retains (n : Nat) (H S : List α) : Prop where
  sublist : S.Sublist H
  newest : ∀ a ∈ H.rtake n, a ∈ S

theorem Retains.refl (n : Nat) (H : List α) : Retains n H H := ⟨.refl H, fun _ h => (List.drop_sublist _ _).subset h⟩

theorem rtake_append_singleton_subset {n : Nat} {H : List α} {a b : α} (h : a ∈ (H ++ [b]).rtake n) : a ∈ H.rtake n ∨ a = b := by
  cases n with
  | zero => simp [List.rtake] at h
  | succ n =>
    rw [List.rtake_concat_succ, List.mem_append, List.mem_singleton] at h
    refine h.imp_left (fun h => ?_)
    rw [List.rtake] at h ⊢
    exact (List.drop_sublist_drop_left _ (by omega)).subset h

theorem Retains.add {n : Nat} {H S : List α} (h : Retains n H S) (a : α) : Retains n (H ++ [a]) (S ++ [a]) where
  sublist := h.sublist.append (.refl [a])
  newest b hb := by
    rw [List.mem_append, List.mem_singleton]
    exact (rtake_append_singleton_subset hb).imp_left (h.newest b)

/-- **The newest of all are the newest of what is left.** -/
theorem mem_rtake_of_sublist {n : Nat} {H S : List α} (hsub : S.Sublist H) (hnodup : H.Nodup) {a : α} (hH : a ∈ H.rtake n)
    (hS : a ∈ S) : a ∈ S.rtake n := by
  have hsplit : H.rdrop n ++ H.rtake n = H := List.take_append_drop _ _
  rw [← hsplit] at hsub hnodup
  obtain ⟨S₁, S₂, rfl, hS₁, hS₂⟩ := List.sublist_append_iff.1 hsub
  have hlength : S₂.length ≤ n := hS₂.length_le.trans (by rw [LastItems.length_rtake]; omega)
  have hmem : a ∈ S₂ := by
    refine (List.mem_append.1 hS).resolve_left (fun h => ?_)
    exact (List.nodup_append.1 hnodup).2.2 a (hS₁.subset h) a hH rfl
  rw [List.rtake, List.drop_append_of_le_length (by rw [List.length_append]; omega)]
  exact List.mem_append_right _ hmem

/-- **A drop that spares the newest keeps them.** -/
theorem Retains.filter {n : Nat} {H S : List α} (h : Retains n H S) (hnodup : H.Nodup) {keep : α → Bool}
    (hkeep : ∀ a ∈ S.rtake n, keep a = true) : Retains n H (S.filter keep) where
  sublist := (List.filter_sublist).trans h.sublist
  newest a ha := by
    have hS := h.newest a ha
    exact List.mem_filter.2 ⟨hS, hkeep a (mem_rtake_of_sublist h.sublist hnodup ha hS)⟩

/-- The newest `n` of what is left are the newest `n` of all. -/
theorem Retains.rtake {n : Nat} {H S : List α} (h : Retains n H S) (hnodup : H.Nodup) : S.rtake n = H.rtake n := by
  have hsplit : H.rdrop n ++ H.rtake n = H := List.take_append_drop _ _
  have hsub := h.sublist
  rw [← hsplit] at hsub
  obtain ⟨S₁, S₂, rfl, hS₁, hS₂⟩ := List.sublist_append_iff.1 hsub
  have hsubset : H.rtake n ⊆ S₂ := by
    intro a ha
    refine (List.mem_append.1 (h.newest a ha)).resolve_left (fun hmem => ?_)
    rw [← hsplit] at hnodup
    exact (List.nodup_append.1 hnodup).2.2 a (hS₁.subset hmem) a ha rfl
  have hle : (H.rtake n).length ≤ S₂.length :=
    ((hnodup.sublist (List.drop_sublist _ _)).subperm hsubset).length_le
  obtain rfl := hS₂.eq_of_length_le hle
  rcases Nat.lt_or_ge H.length n with hshort | hlong
  · have hnone : H.rdrop n = [] := by rw [List.rdrop, Nat.sub_eq_zero_of_le hshort.le, List.take_zero]
    rw [hnone, List.sublist_nil] at hS₁
    rw [hS₁, List.nil_append, LastItems.rtake_rtake, Nat.min_self]
  · have hlength : (H.rtake n).length = n := by rw [LastItems.length_rtake, Nat.min_eq_left hlong]
    rw [List.rtake, List.length_append, hlength, Nat.add_sub_cancel, List.drop_left]

/-- The newest of the first `seen` is among the newest `n` of all while fewer than `n` have come since. -/
theorem getLast?_take_mem_rtake {H : List α} {seen n : Nat} {a : α} (hseen : seen ≤ H.length)
    (hlast : (H.take seen).getLast? = some a) (hn : H.length < seen + n) : a ∈ H.rtake n := by
  obtain ⟨earlier, hsplit⟩ := List.getLast?_eq_some_iff.1 hlast
  have hlength : seen = earlier.length + 1 := by
    rw [← List.length_take_of_le hseen, hsplit, List.length_append, List.length_singleton]
  have hwhole : H = earlier ++ a :: H.drop seen := by
    rw [← List.singleton_append, ← List.append_assoc, ← hsplit, List.take_append_drop]
  have hrest := congrArg (List.drop (H.length - n)) hwhole
  rw [List.drop_append_of_le_length (by omega)] at hrest
  rw [List.rtake, hrest]
  exact List.mem_append_right _ (List.mem_cons_self ..)

/-- What is left of the items when the last drop, after the first `m`, spared the newest `n` only. -/
def left (n m : Nat) (H : List α) : List α := (H.take m).rtake n ++ H.drop m

theorem left_length (n : Nat) (H : List α) : left n H.length H = H.rtake n := by
  rw [left, List.take_length, List.drop_length, List.append_nil]

theorem left_add {n m : Nat} {H : List α} (h : m ≤ H.length) (a : α) : left n m (H ++ [a]) = left n m H ++ [a] := by
  rw [left, left, List.take_append_of_le_length h, List.drop_append_of_le_length h, List.append_assoc]

theorem rtake_left (n m : Nat) (H : List α) : (left n m H).rtake n = H.rtake n := by
  rw [left, LastItems.rtake_rtake_append, List.take_append_drop]

theorem length_left_le (n m : Nat) (H : List α) : (left n m H).length ≤ n + (H.length - m) := by
  rw [left, List.length_append, LastItems.length_rtake, List.length_drop]
  omega

end Retention
end SignalkDoctor
