import Mathlib.Data.Rat.Cast.Order
import Mathlib.Algebra.Order.Ring.Rat
import SignalkDoctor.Double
import SignalkDoctor.JsString
/-!
# NumberText — numbers and their texts

`number` is `Number` of a text: a decimal literal with its sign, point and exponent, `Infinity`, a hexadecimal, octal or
binary integer, nothing for white space alone, and `NaN` for all else.  What is read is rounded once.  A natural number up
to 2^53 is read from its decimal text exactly (`number_toString`).
-/
namespace SignalkDoctor
namespace NumberText

open JsString (trim)

def natural (t : List Char) : Option Nat :=
  if t ≠ [] ∧ t.all Char.isDigit then some (Nat.ofDigitChars 10 t 0) else none

/-- An exponent, zero where there is none. -/
def exponent : List Char → Option Int
  | [] => some 0
  | e :: t =>
    if e = 'e' ∨ e = 'E' then
      match t with
      | '-' :: t => (natural t).map (fun n => -(n : Int))
      | '+' :: t => (natural t).map Int.ofNat
      | t => (natural t).map Int.ofNat
    else none

/-- A decimal literal without its sign. -/
def decimal (t : List Char) : Option ℚ :=
  let whole := t.takeWhile Char.isDigit
  let rest := t.dropWhile Char.isDigit
  let (fraction, rest) := match rest with
    | '.' :: rest => (rest.takeWhile Char.isDigit, rest.dropWhile Char.isDigit)
    | rest => ([], rest)
  if whole = [] ∧ fraction = [] then none
  else (exponent rest).map (fun e => Nat.ofDigitChars 10 (whole ++ fraction) 0 * (10 : ℚ) ^ (e - (fraction.length : Int)))

def digitValue (c : Char) : Nat :=
  if c.isDigit then c.toNat - '0'.toNat
  else if 'a'.toNat ≤ c.toNat ∧ c.toNat ≤ 'f'.toNat then c.toNat - 'a'.toNat + 10
  else if 'A'.toNat ≤ c.toNat ∧ c.toNat ≤ 'F'.toNat then c.toNat - 'A'.toNat + 10
  else 16

/-- The base of a literal that names it, and its digits. -/
def radix : List Char → Option (Nat × List Char)
  | '0' :: c :: rest =>
    if c = 'x' ∨ c = 'X' then some (16, rest)
    else if c = 'o' ∨ c = 'O' then some (8, rest)
    else if c = 'b' ∨ c = 'B' then some (2, rest)
    else none
  | _ => none

/-- The double nearest to a rational. -/
def toDouble (R : Rounding) (q : ℚ) : JsNumber :=
  if 2 ^ 1024 - 2 ^ 970 ≤ |q| then .infinite (q < 0) else .finite (R.round q)

def unsigned (R : Rounding) (negative : Bool) (t : List Char) : JsNumber :=
  if t = "Infinity".toList then .infinite negative
  else
    match decimal t with
    | some q => toDouble R (if negative then -q else q)
    | none => .nan

/-- `Number(text)` -/
def number (R : Rounding) (text : String) : JsNumber :=
  let t := (trim text).toList
  if t = [] then .finite 0
  else
    match radix t with
    | some (base, digits) =>
      if digits ≠ [] ∧ digits.all (fun c => digitValue c < base) then
        toDouble R (digits.foldl (fun n c => n * base + digitValue c) 0 : Nat)
      else .nan
    | none =>
      match t with
      | '-' :: t => unsigned R true t
      | '+' :: t => unsigned R false t
      | t => unsigned R false t

def finite : JsNumber → Option ℚ
  | .finite q => some q
  | _ => none

/-- The text of a number; that of one that is no integer, or has more than 21 digits, is `other`'s. -/
def textOf (other : ℚ → String) (q : ℚ) : String := if q.den = 1 ∧ |q| < 10 ^ 21 then toString q.num else other q

theorem textOf_nat (other : ℚ → String) {n : Nat} (hn : n < 10 ^ 21) : textOf other n = toString n := by
  have hsmall : |(n : ℚ)| < 10 ^ 21 := by
    rw [abs_of_nonneg (Nat.cast_nonneg n)]
    exact_mod_cast hn
  rw [textOf, if_pos ⟨rfl, hsmall⟩]
  rfl

/-! ## Decimal texts -/

theorem toString_toList (n : Nat) : (toString n).toList = Nat.toDigits 10 n := by
  rw [Nat.toString_eq_repr, Nat.toList_repr]

theorem isDigit_of_mem {n : Nat} {c : Char} (h : c ∈ (toString n).toList) : c.isDigit = true := by
  rw [toString_toList] at h
  exact Nat.isDigit_of_mem_toDigits (by decide) (by decide) h

theorem toString_ne_nil (n : Nat) : (toString n).toList ≠ [] := by
  rw [toString_toList]
  exact Nat.toDigits_ne_nil

section
variable {t : List Char} (hdigits : ∀ c ∈ t, c.isDigit = true)
include hdigits

theorem radix_digits : radix t = none := by
  unfold radix
  split
  · rename_i c rest
    have hc := hdigits c (by simp)
    have hne : ∀ d : Char, d.isDigit = false → c ≠ d := fun d hd heq => by rw [heq, hd] at hc; cases hc
    rw [if_neg (not_or.2 ⟨hne 'x' rfl, hne 'X' rfl⟩), if_neg (not_or.2 ⟨hne 'o' rfl, hne 'O' rfl⟩),
      if_neg (not_or.2 ⟨hne 'b' rfl, hne 'B' rfl⟩)]
  · rfl

theorem decimal_digits (hne : t ≠ []) : decimal t = some (Nat.ofDigitChars 10 t 0 : ℚ) := by
  have htake : t.takeWhile Char.isDigit = t := by simpa using @List.takeWhile_append_of_pos _ _ t [] hdigits
  have hdrop : t.dropWhile Char.isDigit = [] := by simpa using @List.dropWhile_append_of_pos _ _ t [] hdigits
  simp [decimal, htake, hdrop, hne, exponent]

theorem unsigned_digits (R : Rounding) (hne : t ≠ []) (hn : Nat.ofDigitChars 10 t 0 ≤ 2 ^ 53) :
    unsigned R false t = .finite (Nat.ofDigitChars 10 t 0 : ℚ) := by
  have hinfinity : t ≠ "Infinity".toList := by
    rintro rfl
    exact absurd (hdigits 'I' (by decide)) (by decide)
  have hsmall : ¬ (2 : ℚ) ^ 1024 - 2 ^ 970 ≤ |(Nat.ofDigitChars 10 t 0 : ℚ)| := by
    have hcast : (Nat.ofDigitChars 10 t 0 : ℚ) ≤ 2 ^ 53 := by exact_mod_cast hn
    rw [abs_of_nonneg (Nat.cast_nonneg _), not_le]
    refine hcast.trans_lt ?_
    calc (2 : ℚ) ^ 53 < 2 ^ 1023 := pow_lt_pow_right₀ one_lt_two (by decide)
      _ = 2 ^ 1024 - 2 ^ 1023 := by rw [pow_succ' 2 1023, two_mul, add_sub_cancel_right]
      _ ≤ 2 ^ 1024 - 2 ^ 970 := sub_le_sub_left (pow_le_pow_right₀ one_le_two (by decide)) _
  have hround := R.int (Nat.ofDigitChars 10 t 0) (by
    rw [abs_of_nonneg (Int.natCast_nonneg _)]
    exact_mod_cast hn)
  rw [unsigned, if_neg hinfinity, decimal_digits hdigits hne]
  dsimp only
  rw [if_neg Bool.false_ne_true, toDouble, if_neg hsmall]
  exact congrArg JsNumber.finite (by exact_mod_cast hround)

end

/-- **A natural number is read back exactly.** -/
theorem number_toString (R : Rounding) {n : Nat} (hn : n ≤ 2 ^ 53) : number R (toString n) = .finite n := by
  have hdigits : ∀ c ∈ (toString n).toList, c.isDigit = true := fun c hc => isDigit_of_mem hc
  have hvalue : Nat.ofDigitChars 10 (toString n).toList 0 = n := by rw [toString_toList, Nat.ofDigitChars_ten_toDigits]
  have hunsigned := unsigned_digits hdigits R (toString_ne_nil n) (by rwa [hvalue])
  rw [hvalue] at hunsigned
  rw [number, JsString.trim_eq_self (fun c hc => JsString.isSpace_of_isDigit (hdigits c hc)), if_neg (toString_ne_nil n),
    radix_digits hdigits]
  dsimp only
  split
  · rename_i t heq
    exact absurd (hdigits '-' (heq ▸ List.mem_cons_self ..)) (by decide)
  · rename_i t heq
    exact absurd (hdigits '+' (heq ▸ List.mem_cons_self ..)) (by decide)
  · exact hunsigned

end NumberText
end SignalkDoctor
