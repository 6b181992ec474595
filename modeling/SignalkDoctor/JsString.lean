/-!
# JsString — the string operations of the language

`String.prototype.trim` and the `\s` of a regular expression know the same white space (`isSpace`); a `.` stops at a
line terminator (`isLineEnd`).
-/
namespace SignalkDoctor
namespace JsString

def isLineEnd (c : Char) : Bool := c.toNat = 0x0A || c.toNat = 0x0D || c.toNat = 0x2028 || c.toNat = 0x2029

/-- White space and line terminators of the language. -/
def isSpace (c : Char) : Bool :=
  isLineEnd c || c.toNat = 0x09 || c.toNat = 0x0B || c.toNat = 0x0C || c.toNat = 0x20 || c.toNat = 0xA0 ||
    c.toNat = 0x1680 || (0x2000 ≤ c.toNat && c.toNat ≤ 0x200A) || c.toNat = 0x202F || c.toNat = 0x205F ||
    c.toNat = 0x3000 || c.toNat = 0xFEFF

/-- The `\w` of a regular expression. -/
def isWord (c : Char) : Bool := c.isAlphanum || c == '_'

def trim (s : String) : String :=
  String.ofList (((s.toList.dropWhile isSpace).reverse.dropWhile isSpace).reverse)

/-- A text without white space is its own trim. -/
theorem trim_eq_self {s : String} (h : ∀ c ∈ s.toList, isSpace c = false) : trim s = s := by
  have hdrop : ∀ cs : List Char, (∀ c ∈ cs, isSpace c = false) → cs.dropWhile isSpace = cs := by
    intro cs hcs
    cases cs with
    | nil => rfl
    | cons c cs => rw [List.dropWhile_cons, hcs c (List.mem_cons_self ..)]; rfl
  rw [trim, hdrop s.toList h, hdrop s.toList.reverse (fun c hc => h c (List.mem_reverse.1 hc)), List.reverse_reverse,
    String.ofList_toList]

/-- A joined text holds each of its parts. -/
theorem intercalate_contains {sep w : String} : ∀ {ws : List String}, w ∈ ws → w.toList <:+: (sep.intercalate ws).toList
  | [v], h => by
    rw [List.mem_singleton.1 h]
    simp
  | v :: u :: ws, h => by
    rw [String.intercalate_cons_cons, String.toList_append, String.toList_append]
    rcases List.mem_cons.1 h with rfl | h
    · exact ⟨[], sep.toList ++ (sep.intercalate (u :: ws)).toList, by simp⟩
    · obtain ⟨before, after, heq⟩ := @intercalate_contains sep w (u :: ws) h
      exact ⟨v.toList ++ sep.toList ++ before, after, by rw [← heq]; simp⟩

theorem forall_not_of_all {p : Char → Bool} {t : List Char} (h : t.all (fun c => !p c) = true) : ∀ c ∈ t, p c = false :=
  fun c hc => by simpa using List.all_eq_true.1 h c hc

theorem isSpace_of_visible {c : Char} (h : 33 ≤ c.toNat ∧ c.toNat ≤ 126) : isSpace c = false := by
  simp only [isSpace, isLineEnd, Bool.or_eq_false_iff, Bool.and_eq_false_iff, decide_eq_false_iff_not]
  omega

theorem isSpace_of_isDigit {c : Char} (h : c.isDigit = true) : isSpace c = false := by
  obtain ⟨hlow, hhigh⟩ : 48 ≤ c.toNat ∧ c.toNat ≤ 57 := Char.isDigit_iff_toNat.1 h
  exact isSpace_of_visible (by omega)

end JsString
end SignalkDoctor
