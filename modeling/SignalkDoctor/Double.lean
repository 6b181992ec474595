import Mathlib.Data.Rat.Floor
/-!
# Double — numbers of the language, and rounded arithmetic

A finite double is a rational; an operation on doubles is the exact one, rounded.  `Rounding` is any rounding, by what a user
relies on: it is monotone and exact on the integers up to 2^53.  So a rounded value passes no integer (`round_le_int`,
`int_le_round`) and stays less than one above the exact one (`round_lt_add_one`).
-/
namespace SignalkDoctor

inductive JsNumber where
  | nan
  | infinite (negative : Bool)
  | finite (q : ℚ)
  deriving DecidableEq

structure Rounding where
  round : ℚ → ℚ
  mono : ∀ x y, x ≤ y → round x ≤ round y
  int : ∀ n : ℤ, |n| ≤ 2 ^ 53 → round n = n

namespace Rounding

variable (R : Rounding)

/-- The rounding that rounds nothing, which is that of any operation whose result is a double. -/
def exact : Rounding := ⟨id, fun _ _ h => h, fun _ _ => rfl⟩

theorem round_le_int {x : ℚ} {n : ℤ} (hn : |n| ≤ 2 ^ 53) (h : x ≤ n) : R.round x ≤ n :=
  (R.mono x n h).trans_eq (R.int n hn)

theorem int_le_round {x : ℚ} {n : ℤ} (hn : |n| ≤ 2 ^ 53) (h : (n : ℚ) ≤ x) : (n : ℚ) ≤ R.round x :=
  (R.int n hn).symm.trans_le (R.mono n x h)

theorem round_lt_add_one {x : ℚ} (h : |x| ≤ 2 ^ 53) : R.round x < x + 1 := by
  obtain ⟨hlo, hhi⟩ := abs_le.1 h
  have hceil : |⌈x⌉| ≤ 2 ^ 53 := by
    refine abs_le.2 ⟨?_, Int.ceil_le.2 (by exact_mod_cast hhi)⟩
    have : ((-2 ^ 53 : ℤ) : ℚ) ≤ ⌈x⌉ := le_trans (by exact_mod_cast hlo) (Int.le_ceil x)
    exact_mod_cast this
  exact (R.round_le_int hceil (Int.le_ceil x)).trans_lt (Int.ceil_lt_add_one x)

end Rounding
end SignalkDoctor
