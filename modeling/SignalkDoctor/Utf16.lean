import Mathlib.Data.List.Flatten
import SignalkDoctor.Utf8
/-!
# Utf16 — texts as the code units a string of the language is made of

`units` writes a text as code units, `text` reads any units back; a surrogate that stands alone is no character and comes
back as U+FFFD.  `text_units` is the round trip.
-/
namespace SignalkDoctor
namespace Utf16

abbrev Units := List UInt16

def unitsOf (c : Char) : Units :=
  if c.toNat < 0x10000 then [UInt16.ofNat c.toNat]
  else [UInt16.ofNat (0xD800 + (c.toNat - 0x10000) / 0x400), UInt16.ofNat (0xDC00 + (c.toNat - 0x10000) % 0x400)]

def units (t : List Char) : Units := t.flatMap unitsOf

def IsHigh (u : UInt16) : Prop := 0xD800 ≤ u.toNat ∧ u.toNat ≤ 0xDBFF

def IsLow (u : UInt16) : Prop := 0xDC00 ≤ u.toNat ∧ u.toNat ≤ 0xDFFF

instance (u : UInt16) : Decidable (IsHigh u) := inferInstanceAs (Decidable (_ ∧ _))

instance (u : UInt16) : Decidable (IsLow u) := inferInstanceAs (Decidable (_ ∧ _))

/-- A unit that is no part of a pair. -/
def single (u : UInt16) : Char := if IsHigh u ∨ IsLow u then Utf8.replacement else Char.ofNat u.toNat

def pair (u v : UInt16) : Char := Char.ofNat (0x10000 + (u.toNat - 0xD800) * 0x400 + (v.toNat - 0xDC00))

def text : Units → List Char
  | [] => []
  | [u] => [single u]
  | u :: v :: us => if IsHigh u ∧ IsLow v then pair u v :: text us else single u :: text (v :: us)

/-- A code point is in the planes, and no surrogate. -/
theorem toNat_cases (c : Char) : c.toNat < 0xD800 ∨ (0xDFFF < c.toNat ∧ c.toNat < 0x110000) := by
  rcases c.valid with h | h
  · exact .inl h
  · exact .inr h

theorem text_single {u : UInt16} (h : ¬ IsHigh u) (us : Units) : text (u :: us) = single u :: text us := by
  cases us with
  | nil => rfl
  | cons v us => rw [text, if_neg (fun hpair => h hpair.1)]

theorem text_unitsOf_append (c : Char) (us : Units) : text (unitsOf c ++ us) = c :: text us := by
  have hc := toNat_cases c
  unfold unitsOf
  split
  · rename_i hsmall
    have hunit : (UInt16.ofNat c.toNat).toNat = c.toNat := by
      rw [UInt16.toNat_ofNat', Nat.mod_eq_of_lt hsmall]
    have hhigh : ¬ IsHigh (UInt16.ofNat c.toNat) := by
      rw [IsHigh, hunit]
      omega
    have hlow : ¬ IsLow (UInt16.ofNat c.toNat) := by
      rw [IsLow, hunit]
      omega
    rw [List.cons_append, List.nil_append, text_single hhigh, single, if_neg (not_or.2 ⟨hhigh, hlow⟩), hunit,
      Char.ofNat_toNat]
  · rename_i hlarge
    have hu : (UInt16.ofNat (0xD800 + (c.toNat - 0x10000) / 0x400)).toNat = 0xD800 + (c.toNat - 0x10000) / 0x400 := by
      rw [UInt16.toNat_ofNat', Nat.mod_eq_of_lt (by omega)]
    have hv : (UInt16.ofNat (0xDC00 + (c.toNat - 0x10000) % 0x400)).toNat = 0xDC00 + (c.toNat - 0x10000) % 0x400 := by
      rw [UInt16.toNat_ofNat', Nat.mod_eq_of_lt (by omega)]
    have hpair : IsHigh (UInt16.ofNat (0xD800 + (c.toNat - 0x10000) / 0x400)) ∧
        IsLow (UInt16.ofNat (0xDC00 + (c.toNat - 0x10000) % 0x400)) := by
      rw [IsHigh, IsLow, hu, hv]
      omega
    have hvalue : 0x10000 + (0xD800 + (c.toNat - 0x10000) / 0x400 - 0xD800) * 0x400 +
        (0xDC00 + (c.toNat - 0x10000) % 0x400 - 0xDC00) = c.toNat := by omega
    rw [List.cons_append, List.cons_append, List.nil_append, text, if_pos hpair, pair, hu, hv, hvalue, Char.ofNat_toNat]

/-- **The round trip.** -/
theorem text_units : ∀ t : List Char, text (units t) = t
  | [] => rfl
  | c :: t => by
    have htail := text_units t
    rw [units, List.flatMap_cons, text_unitsOf_append, ← units, htail]

theorem units_append (t u : List Char) : units (t ++ u) = units t ++ units u := List.flatMap_append

end Utf16
end SignalkDoctor
