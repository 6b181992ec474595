import Mathlib.Algebra.Ring.Nat
import Mathlib.Tactic.SplitIfs
import SignalkDoctor.Comparator
/-!
# Precedence — versions by SemVer 2.0.0

The three numbers come first; a version without a prerelease is above those with one; prereleases are compared identifier
by identifier, numeric ones as numbers and below the others, which are compared as text.  Numbers written out compare as
text does when they are equally long; else the longer one, which has no zero in front, is the greater
(`byLex_numerals_iff`).
-/
namespace SignalkDoctor
namespace Precedence

open Comparator (byNat byLex thenBy orElse Lawful)

/-- The number a text of digits stands for. -/
def value (digits : List Char) : Nat := digits.foldl (fun n c => 10 * n + (c.toNat - 48)) 0

inductive Identifier where
  | numeric (n : Nat)
  | alphanumeric (s : List Char)
  deriving DecidableEq, Repr

def Identifier.ofText (s : List Char) : Identifier := if s.all Char.isDigit then .numeric (value s) else .alphanumeric s

def compareIdentifier : Identifier → Identifier → Int
  | .numeric m, .numeric n => byNat m n
  | .numeric _, .alphanumeric _ => -1
  | .alphanumeric _, .numeric _ => 1
  | .alphanumeric s, .alphanumeric t => byLex byNat (s.map Char.toNat) (t.map Char.toNat)

def comparePrerelease : List Identifier → List Identifier → Int
  | [], [] => 0
  | [], _ :: _ => 1
  | _ :: _, [] => -1
  | x :: xs, y :: ys => byLex compareIdentifier (x :: xs) (y :: ys)

structure Version where
  major : Nat
  minor : Nat
  patch : Nat
  prerelease : List Identifier
  deriving DecidableEq, Repr

/-- **Precedence**: below zero where the first version is the older. -/
def precedence : Version → Version → Int :=
  thenBy (fun a b => byNat a.major b.major)
    (thenBy (fun a b => byNat a.minor b.minor)
      (thenBy (fun a b => byNat a.patch b.patch)
        (fun a b => comparePrerelease a.prerelease b.prerelease)))

theorem compareIdentifier_self (i : Identifier) : compareIdentifier i i = 0 := by
  cases i with
  | numeric n => exact Int.sub_self n
  | alphanumeric s => exact Comparator.lawful_byNat.byLex.self (fun _ _ => trivial)

theorem byLex_compareIdentifier_self : ∀ is : List Identifier, byLex compareIdentifier is is = 0
  | [] => rfl
  | i :: is => by
    rw [byLex, compareIdentifier_self, byLex_compareIdentifier_self is]
    rfl

theorem comparePrerelease_self (is : List Identifier) : comparePrerelease is is = 0 := by
  cases is with
  | nil => rfl
  | cons i is => exact byLex_compareIdentifier_self (i :: is)

/-- The three numbers agree. -/
def Version.SameTriple (a b : Version) : Prop := a.major = b.major ∧ a.minor = b.minor ∧ a.patch = b.patch

instance (a b : Version) : Decidable (a.SameTriple b) :=
  inferInstanceAs (Decidable (a.major = b.major ∧ a.minor = b.minor ∧ a.patch = b.patch))

theorem Version.SameTriple.symm {a b : Version} (h : a.SameTriple b) : b.SameTriple a :=
  ⟨h.1.symm, h.2.1.symm, h.2.2.symm⟩

theorem precedence_of_sameTriple {a b : Version} (h : a.SameTriple b) :
    precedence a b = comparePrerelease a.prerelease b.prerelease := by
  obtain ⟨hmajor, hminor, hpatch⟩ := h
  simp only [precedence, thenBy, byNat, hmajor, hminor, hpatch, Int.sub_self]
  rfl

/-- **Of versions with different triples the first number that differs decides.** -/
theorem precedence_le_zero_iff {a b : Version} (h : ¬ a.SameTriple b) : precedence a b ≤ 0 ↔
    a.major < b.major ∨ a.major = b.major ∧ (a.minor < b.minor ∨ a.minor = b.minor ∧ a.patch < b.patch) := by
  unfold Version.SameTriple at h
  simp only [precedence, thenBy, orElse, byNat]
  split_ifs <;> omega

/-! ## Numbers written out -/

theorem foldl_digits (n : Nat) : ∀ cs : List Char,
    cs.foldl (fun n c => 10 * n + (c.toNat - 48)) n = n * 10 ^ cs.length + value cs
  | [] => by simp [value]
  | c :: cs => by
    have hcons : value (c :: cs) = (10 * 0 + (c.toNat - 48)) * 10 ^ cs.length + value cs :=
      foldl_digits (10 * 0 + (c.toNat - 48)) cs
    rw [List.foldl_cons, foldl_digits (10 * n + (c.toNat - 48)) cs, hcons, List.length_cons, Nat.pow_succ, Nat.mul_zero,
      Nat.zero_add, Nat.add_mul, Nat.add_assoc, Nat.mul_comm 10 n, Nat.mul_assoc, Nat.mul_comm 10]

theorem value_cons (c : Char) (cs : List Char) : value (c :: cs) = (c.toNat - 48) * 10 ^ cs.length + value cs := by
  rw [value, List.foldl_cons, foldl_digits, Nat.mul_zero, Nat.zero_add]

theorem digit_lt {c : Char} (h : c.isDigit = true) : c.toNat - 48 < 10 := by
  simp only [Char.isDigit, Bool.and_eq_true, decide_eq_true_eq] at h
  have hle : c.toNat ≤ 57 := h.2
  omega

theorem value_lt : ∀ {cs : List Char}, cs.all Char.isDigit = true → value cs < 10 ^ cs.length
  | [], _ => by decide
  | c :: cs, h => by
    rw [List.all_cons, Bool.and_eq_true] at h
    have hc := digit_lt h.1
    have ih := value_lt h.2
    have hmul : (c.toNat - 48) * 10 ^ cs.length ≤ 9 * 10 ^ cs.length := Nat.mul_le_mul_right _ (by omega)
    rw [value_cons, List.length_cons, Nat.pow_succ]
    omega

/-- A shorter number is below one without a zero in front. -/
theorem value_lt_of_length_lt {x y : List Char} (hx : x.all Char.isDigit = true) (hy : y.all Char.isDigit = true)
    (hlt : x.length < y.length) (hzero : y.head? ≠ some '0') : value x < value y := by
  cases y with
  | nil => exact absurd hlt (Nat.not_lt_zero _)
  | cons d ds =>
    have hd : 1 ≤ d.toNat - 48 := by
      rw [List.all_cons, Bool.and_eq_true] at hy
      have hdigit := hy.1
      simp only [Char.isDigit, Bool.and_eq_true, decide_eq_true_eq] at hdigit
      have hge : 48 ≤ d.toNat := hdigit.1
      have hne : d.toNat ≠ 48 := fun h => hzero (congrArg some (Char.toNat_inj.1 h))
      omega
    have hpow : 10 ^ x.length ≤ 10 ^ ds.length := Nat.pow_le_pow_right (by decide) (Nat.le_of_lt_succ hlt)
    have hmul : 1 * 10 ^ ds.length ≤ (d.toNat - 48) * 10 ^ ds.length := Nat.mul_le_mul_right _ hd
    have hval := value_lt hx
    rw [value_cons]
    omega

/-- Against a longer list, what the leading elements say, and else below. -/
theorem byLex_take {x : List Nat} : ∀ {y : List Nat}, x.length < y.length →
    byLex byNat x y = orElse (byLex byNat x (y.take x.length)) (-1) := by
  induction x with
  | nil =>
    intro y hlt
    cases y with
    | nil => exact absurd hlt (Nat.lt_irrefl _)
    | cons d ds => rfl
  | cons c cs ih =>
    intro y hlt
    cases y with
    | nil => exact absurd hlt (Nat.not_lt_zero _)
    | cons d ds =>
      have hrest := ih (Nat.lt_of_succ_lt_succ hlt)
      rw [List.length_cons, List.take_succ_cons, byLex, byLex, hrest]
      unfold orElse
      split <;> simp_all

/-- The number `x`, though shorter, exceeds the leading digits of `y`. -/
def Exceeds (x y : List Char) : Prop := x.length < y.length ∧ value (y.take x.length) < value x

/-- A numeric identifier: digits, without a zero in front. -/
structure IsNumeral (x : List Char) : Prop where
  ne_nil : x ≠ []
  digits : x.all Char.isDigit = true
  no_zero : x.head? = some '0' → x = ['0']

theorem IsNumeral.head?_ne {x y : List Char} (hx : IsNumeral x) (hy : IsNumeral y) (hlt : x.length < y.length) :
    y.head? ≠ some '0' := by
  intro hzero
  have hone := hy.no_zero hzero
  have hpos := List.length_pos_iff.2 hx.ne_nil
  rw [hone] at hlt
  exact absurd hlt (Nat.not_lt.2 hpos)

section
variable {w : Char → Nat} {k : Nat} (hw : ∀ c : Char, c.isDigit = true → w c = k + (c.toNat - 48))
include hw

/-- **Equally long numbers compare as text.** -/
theorem byLex_same_length : ∀ {x y : List Char}, x.all Char.isDigit = true → y.all Char.isDigit = true →
    x.length = y.length → (byLex byNat (x.map w) (y.map w)).sign = (byNat (value x) (value y)).sign
  | [], [], _, _, _ => rfl
  | c :: cs, d :: ds, hx, hy, hlen => by
    rw [List.all_cons, Bool.and_eq_true] at hx hy
    have hlen : cs.length = ds.length := Nat.succ.inj hlen
    have ih := byLex_same_length hx.2 hy.2 hlen
    have hcs := value_lt hx.2
    have hds := value_lt hy.2
    rw [List.map_cons, List.map_cons, byLex, value_cons, value_cons, hw c hx.1, hw d hy.1, orElse]
    rw [hlen] at hcs ⊢
    rcases Nat.lt_trichotomy (c.toNat - 48) (d.toNat - 48) with hlt | heq | hgt
    · have hmul : (c.toNat - 48 + 1) * 10 ^ ds.length ≤ (d.toNat - 48) * 10 ^ ds.length := Nat.mul_le_mul_right _ hlt
      rw [Nat.add_mul, Nat.one_mul] at hmul
      rw [if_pos (by unfold byNat; omega), Int.sign_eq_neg_one_of_neg (by unfold byNat; omega),
        Int.sign_eq_neg_one_of_neg (by unfold byNat; omega)]
    · rw [heq, if_neg (by unfold byNat; omega), ih]
      congr 1
      unfold byNat
      omega
    · have hmul : (d.toNat - 48 + 1) * 10 ^ ds.length ≤ (c.toNat - 48) * 10 ^ ds.length := Nat.mul_le_mul_right _ hgt
      rw [Nat.add_mul, Nat.one_mul] at hmul
      rw [if_pos (by unfold byNat; omega), Int.sign_eq_one_of_pos (by unfold byNat; omega),
        Int.sign_eq_one_of_pos (by unfold byNat; omega)]

/-- Against the leading digits of a longer number. -/
theorem byLex_leading {x y : List Char} (hx : x.all Char.isDigit = true) (hy : y.all Char.isDigit = true)
    (hlt : x.length < y.length) :
    byLex byNat (x.map w) (y.map w) = orElse (byLex byNat (x.map w) ((y.take x.length).map w)) (-1) ∧
      (byLex byNat (x.map w) ((y.take x.length).map w)).sign = (byNat (value x) (value (y.take x.length))).sign := by
  have htake : (y.take x.length).all Char.isDigit = true := by
    rw [List.all_eq_true] at hy ⊢
    exact fun c hc => hy c (List.mem_of_mem_take hc)
  have hlen : x.length = (y.take x.length).length := by
    rw [List.length_take]
    omega
  refine ⟨?_, byLex_same_length hw hx htake hlen⟩
  rw [byLex_take (by simpa using hlt), List.length_map, ← List.map_take]

/-- A number that exceeds the leading digits of a longer one is above it as text. -/
theorem byLex_pos_of_exceeds {x y : List Char} (hx : x.all Char.isDigit = true) (hy : y.all Char.isDigit = true)
    (h : Exceeds x y) : 0 < byLex byNat (x.map w) (y.map w) := by
  obtain ⟨hlead, hsign⟩ := byLex_leading hw hx hy h.1
  have hlt := h.2
  rw [Int.sign_eq_one_of_pos (a := byNat (value x) _) (by unfold byNat; omega), Int.sign_eq_one_iff_pos] at hsign
  rw [hlead, orElse, if_pos (by omega)]
  exact hsign

/-- A shorter number compares as text as it should unless it exceeds the leading digits of the longer one. -/
theorem byLex_shorter_iff {x y : List Char} (hx : x.all Char.isDigit = true) (hy : y.all Char.isDigit = true)
    (hlt : x.length < y.length) (hzero : y.head? ≠ some '0') :
    (byLex byNat (x.map w) (y.map w)).sign = (byNat (value x) (value y)).sign ↔ ¬ Exceeds x y := by
  have hvalue := value_lt_of_length_lt hx hy hlt hzero
  rw [Int.sign_eq_neg_one_of_neg (a := byNat (value x) (value y)) (by unfold byNat; omega), Int.sign_eq_neg_one_iff_neg]
  by_cases hex : Exceeds x y
  · have hpos := byLex_pos_of_exceeds hw hx hy hex
    exact ⟨fun h => absurd h (by omega), fun h => absurd hex h⟩
  · obtain ⟨hlead, hsign⟩ := byLex_leading hw hx hy hlt
    have hle : value x ≤ value (y.take x.length) := Nat.le_of_not_lt (fun h => hex ⟨hlt, h⟩)
    rw [hlead, orElse, iff_true_right hex]
    split
    · rename_i hne
      have hneg : byNat (value x) (value (y.take x.length)) ≠ 0 := by
        intro h0
        rw [h0, Int.sign_zero, Int.sign_eq_zero_iff_zero] at hsign
        exact hne hsign
      rw [Int.sign_eq_neg_one_of_neg (a := byNat (value x) _) (by unfold byNat at hneg ⊢; omega),
        Int.sign_eq_neg_one_iff_neg] at hsign
      exact hsign
    · decide

/-- **Two numbers compare as text as they should exactly when neither, though shorter, exceeds the leading digits of the
other.** -/
theorem byLex_numerals_iff {x y : List Char} (hx : IsNumeral x) (hy : IsNumeral y) :
    (byLex byNat (x.map w) (y.map w)).sign = (byNat (value x) (value y)).sign ↔ ¬ Exceeds x y ∧ ¬ Exceeds y x := by
  rcases Nat.lt_trichotomy x.length y.length with hlt | heq | hgt
  · rw [byLex_shorter_iff hw hx.digits hy.digits hlt (hx.head?_ne hy hlt), iff_self_and]
    exact fun _ h => absurd h.1 (Nat.lt_asymm hlt)
  · have hsame := byLex_same_length hw hx.digits hy.digits heq
    simp [Exceeds, heq, hsame]
  · have hswap := byLex_shorter_iff hw hy.digits hx.digits hgt (hy.head?_ne hx hgt)
    have hsign := Comparator.lawful_byNat.byLex.sign_swap (x := y.map w) (y := x.map w) (fun _ _ => trivial) (fun _ _ => trivial)
    have hneg : (byNat (value x) (value y)).sign = -(byNat (value y) (value x)).sign := by
      rw [← Int.sign_neg]
      congr 1
      unfold byNat
      omega
    rw [hsign, hneg, Int.neg_inj, hswap, iff_and_self]
    exact fun _ h => absurd h.1 (Nat.lt_asymm hgt)

end

end Precedence
end SignalkDoctor
