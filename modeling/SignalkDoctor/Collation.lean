import SignalkDoctor.Comparator
/-!
# Collation — `String.prototype.localeCompare`

The collation of the root locale, of text made of full stops, digits and ASCII letters: first the characters, a full stop
before the digits and these before the letters, and only then the case, the lower before the upper.
-/
namespace SignalkDoctor
namespace Collation

open Comparator (Lawful byLex byNat thenBy)

def primaryWeight (c : Char) : Nat :=
  if c.isDigit then 2 + (c.toNat - 48) else if c.isAlpha then 12 + (c.toLower.toNat - 97) else 1

def caseWeight (c : Char) : Nat := if c.isUpper then 1 else 0

def localeCompare : String → String → Int :=
  thenBy (fun a b => byLex byNat (a.toList.map primaryWeight) (b.toList.map primaryWeight))
    (fun a b => byLex byNat (a.toList.map caseWeight) (b.toList.map caseWeight))

theorem lawful_localeCompare : Lawful (fun _ => True) localeCompare := by
  have hby : ∀ f : String → List Nat, Lawful (fun _ => True) (fun a b => byLex byNat (f a) (f b)) :=
    fun f => (Comparator.lawful_byNat.byLex.comap f).mono (fun _ _ _ _ => trivial)
  exact (hby _).thenBy (hby _)

theorem primaryWeight_digit (c : Char) (h : c.isDigit = true) : primaryWeight c = 2 + (c.toNat - 48) := by
  rw [primaryWeight, if_pos h]

end Collation
end SignalkDoctor
