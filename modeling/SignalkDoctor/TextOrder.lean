import Mathlib.Data.List.Sort
import SignalkDoctor.Comparator
import SignalkDoctor.Utf16
/-!
# TextOrder — the order in which `sort` without a comparator puts strings

By code units.  The order is total and tells any two strings apart (`lawful_compareTexts`, `compareTexts_eq_zero_iff`), so a
sorted list is strictly sorted where its members differ.
-/
namespace SignalkDoctor
namespace TextOrder

open Comparator (Lawful byLex byNat)
open Utf16 (text units text_units)

def codes (s : String) : List Nat := (units s.toList).map UInt16.toNat

def compareTexts (a b : String) : Int := byLex byNat (codes a) (codes b)

/-- `xs.sort()`; equal strings are the same, so no order of theirs is seen. -/
def sortTexts (xs : List String) : List String := xs.insertionSort (fun a b => compareTexts a b ≤ 0)

theorem lawful_compareTexts : Lawful (fun _ => True) compareTexts :=
  (Comparator.lawful_byNat.byLex.comap codes).mono (fun _ _ _ _ => trivial)

/-- A string is its code units. -/
theorem codes_injective {a b : String} (h : codes a = codes b) : a = b := by
  have hunits : units a.toList = units b.toList := (List.map_inj_right (fun _ _ => UInt16.toNat_inj.1)).1 h
  rw [← String.toList_inj, ← text_units a.toList, hunits, text_units]

theorem compareTexts_eq_zero_iff {a b : String} : compareTexts a b = 0 ↔ a = b :=
  ⟨fun h => codes_injective (Comparator.byLex_byNat_eq_zero h), fun h => h ▸ lawful_compareTexts.self trivial⟩

/-- **One string stands before another.** -/
def Before (a b : String) : Prop := compareTexts a b < 0

instance (a b : String) : Decidable (Before a b) := inferInstanceAs (Decidable (_ < _))

theorem Before.trans {a b c : String} (hab : Before a b) (hbc : Before b c) : Before a c := by
  unfold Before at *
  have hac : compareTexts a c ≤ 0 := lawful_compareTexts.trans trivial trivial trivial (Int.le_of_lt hab) (Int.le_of_lt hbc)
  have hne : compareTexts a c ≠ 0 := by
    intro heq
    rw [compareTexts_eq_zero_iff.1 heq] at hab
    have hback := (lawful_compareTexts.anti (x := b) (y := c) trivial trivial).2 (Int.le_of_lt hab)
    omega
  omega

theorem Before.ne {a b : String} (h : Before a b) : a ≠ b := by
  rintro rfl
  unfold Before at h
  rw [lawful_compareTexts.self trivial] at h
  exact absurd h (by decide)

theorem perm_sortTexts (xs : List String) : (sortTexts xs).Perm xs := List.perm_insertionSort _ _

theorem mem_sortTexts {xs : List String} {x : String} : x ∈ sortTexts xs ↔ x ∈ xs := (perm_sortTexts xs).mem_iff

/-- Different strings come out strictly sorted. -/
theorem pairwise_sortTexts {xs : List String} (h : xs.Nodup) : (sortTexts xs).Pairwise Before := by
  have : Std.Total (fun a b => compareTexts a b ≤ 0) := ⟨fun _ _ => lawful_compareTexts.total trivial trivial⟩
  have : IsTrans String (fun a b => compareTexts a b ≤ 0) := ⟨fun _ _ _ => lawful_compareTexts.trans trivial trivial trivial⟩
  have hle : (sortTexts xs).Pairwise (fun a b => compareTexts a b ≤ 0) := List.pairwise_insertionSort _ _
  have hne : (sortTexts xs).Nodup := ((perm_sortTexts xs).nodup_iff).2 h
  exact hle.imp₂ (fun a b hab hne => Int.lt_iff_le_and_ne.2 ⟨hab, fun heq => hne (compareTexts_eq_zero_iff.1 heq)⟩) hne

/-- **A strictly sorted list is the sorted list of its members.** -/
theorem sortTexts_eq {xs sorted : List String} (hsorted : sorted.Pairwise Before) (hperm : sorted.Perm xs) :
    sortTexts xs = sorted := by
  have hnodup : xs.Nodup := (hperm.nodup_iff).1 (hsorted.imp Before.ne)
  refine List.Perm.eq_of_pairwise (fun a b _ _ (hab : Before a b) (hba : Before b a) => absurd rfl (hab.trans hba).ne)
    (pairwise_sortTexts hnodup) hsorted ?_
  exact (perm_sortTexts xs).trans hperm.symm

end TextOrder
end SignalkDoctor
