import SignalkDoctor.PackageLookups
/-!
# TarEntry — the first entry of an archive (`src/drift/installed-packages.ts`)

`firstTarEntry` reads the size of the entry from a text of octal digits, which writers of archives pad in different ways.
`firstTarEntry_spec`: it inverts each of these, and reads nothing outside the buffer.
-/
namespace SignalkDoctor
namespace Drift

open JsString (trim isSpace)

/-- **The size field of a header**: the number in octal, behind spaces or zeros and before NULs or spaces. -/
structure SizeField (n : Nat) where
  spaces : Nat
  zeros : Nat
  fill : List Char
  blank : ∀ c ∈ fill, c = '\x00' ∨ c = ' '
  length : spaces + zeros + (Nat.toDigits 8 n).length + fill.length = 12

def SizeField.chars {n : Nat} (f : SizeField n) : List Char :=
  List.replicate f.spaces ' ' ++ (List.replicate f.zeros '0' ++ Nat.toDigits 8 n) ++ f.fill

def SizeField.bytes {n : Nat} (f : SizeField n) : List UInt8 := f.chars.map (fun c => UInt8.ofNat c.toNat)

def isOctalDigit (c : Char) : Bool := '0' ≤ c && c ≤ '7'

/-! ## The digits -/

theorem isOctalDigit_toDigits (n : Nat) : ∀ c ∈ Nat.toDigits 8 n, isOctalDigit c = true := by
  have hdigit : ∀ d, d < 8 → isOctalDigit d.digitChar = true := by decide
  induction n using Nat.strongRecOn with
  | _ n ih =>
    intro c hc
    rw [Nat.toDigits_eq_if (by decide)] at hc
    by_cases hn : n < 8
    · rw [if_pos hn, List.mem_singleton] at hc
      exact hc ▸ hdigit n hn
    · rw [if_neg hn, List.mem_append, List.mem_singleton] at hc
      rcases hc with hc | hc
      · exact ih (n / 8) (Nat.div_lt_self (by omega) (by decide)) c hc
      · exact hc ▸ hdigit (n % 8) (Nat.mod_lt n (by decide))

theorem octal_bounds {c : Char} (h : isOctalDigit c = true) : 48 ≤ c.toNat ∧ c.toNat ≤ 55 := by
  rw [isOctalDigit, Bool.and_eq_true, decide_eq_true_eq, decide_eq_true_eq] at h
  exact h

/-- **A text of octal digits is read as its number.** -/
theorem parseOctal_digits {cs : List Char} (hne : cs ≠ []) (h : ∀ c ∈ cs, isOctalDigit c = true) :
    parseOctal (String.ofList cs) = some ((Nat.ofDigitChars 8 cs 0 : Nat) : Int) := by
  obtain ⟨c, cs, rfl⟩ := List.exists_cons_of_ne_nil hne
  have hc := octal_bounds (h c (List.mem_cons_self ..))
  have hspace : isSpace c = false := JsString.isSpace_of_visible (by omega)
  have hminus : c ≠ '-' := by
    rintro rfl
    exact absurd hc.1 (by decide)
  have hplus : c ≠ '+' := by
    rintro rfl
    exact absurd hc.1 (by decide)
  have htake : (c :: cs).takeWhile (fun c => '0' ≤ c && c ≤ '7') = c :: cs := List.takeWhile_eq_self_iff.2 h
  unfold parseOctal
  rw [String.toList_ofList, List.dropWhile_cons, hspace]
  simp only [Bool.false_eq_true, if_false, List.cons.injEq, hminus, false_and, imp_self, implies_true, hplus, Int.one_mul]
  rw [htake, Nat.ofDigitChars_eq_foldl]
  rfl

theorem ofDigitChars_padded (n zeros : Nat) :
    Nat.ofDigitChars 8 (List.replicate zeros '0' ++ Nat.toDigits 8 n) 0 = n := by
  rw [Nat.ofDigitChars_append, Nat.ofDigitChars_replicate_zero, Nat.mul_zero,
    Nat.ofDigitChars_toDigits (by decide) (by decide)]

/-! ## The field -/

theorem rdropWhile_append_of_pos {α : Type} {p : α → Bool} {l fill : List α} (h : ∀ a ∈ fill, p a = true) :
    (l ++ fill).rdropWhile p = l.rdropWhile p := by
  rw [List.rdropWhile, List.reverse_append, List.dropWhile_append_of_pos (fun a ha => h a (List.mem_reverse.1 ha)),
    List.rdropWhile]

section
variable {n : Nat} (f : SizeField n)

def SizeField.digits : List Char := List.replicate f.zeros '0' ++ Nat.toDigits 8 n

theorem SizeField.digits_octal : ∀ c ∈ f.digits, isOctalDigit c = true := by
  intro c hc
  rcases List.mem_append.1 hc with hc | hc
  · exact (List.mem_replicate.1 hc).2 ▸ rfl
  · exact isOctalDigit_toDigits n c hc

theorem SizeField.digits_ne_nil : f.digits ≠ [] := List.append_ne_nil_of_right_ne_nil _ Nat.toDigits_ne_nil

theorem SizeField.ascii_bytes : f.bytes.map (fun b => Char.ofNat (b.toNat % 128)) = f.chars := by
  have hsmall : ∀ c ∈ f.chars, c.toNat < 128 := by
    intro c hc
    rcases List.mem_append.1 hc with hc | hc
    · rcases List.mem_append.1 hc with hc | hc
      · exact (List.mem_replicate.1 hc).2 ▸ by decide
      · have := octal_bounds (f.digits_octal c hc)
        omega
    · rcases f.blank c hc with rfl | rfl <;> decide
  have hchar : ∀ c ∈ f.chars, Char.ofNat ((UInt8.ofNat c.toNat).toNat % 128) = c := by
    intro c hc
    have hc := hsmall c hc
    have hbyte : (UInt8.ofNat c.toNat).toNat % 128 = c.toNat := by
      rw [UInt8.toNat_ofNat']
      omega
    rw [hbyte, Char.ofNat_toNat]
  rw [SizeField.bytes, List.map_map]
  calc f.chars.map _ = f.chars.map id := List.map_congr_left hchar
    _ = f.chars := List.map_id _

/-- What stands behind the digits is taken off, then the spaces before them. -/
theorem SizeField.trim_chars :
    trim (String.ofList (f.chars.rdropWhile (fun c => c = '\x00' || c = ' '))) = String.ofList f.digits := by
  have hvisible : ∀ c ∈ f.digits, 33 ≤ c.toNat ∧ c.toNat ≤ 126 := by
    intro c hc
    have := octal_bounds (f.digits_octal c hc)
    omega
  have hfill : ∀ c ∈ f.fill, (decide (c = '\x00') || decide (c = ' ')) = true := by
    intro c hc
    rw [Bool.or_eq_true, decide_eq_true_eq, decide_eq_true_eq]
    exact f.blank c hc
  have hrtrim : f.chars.rdropWhile (fun c => c = '\x00' || c = ' ') = List.replicate f.spaces ' ' ++ f.digits := by
    have hchars : f.chars = List.replicate f.spaces ' ' ++ f.digits ++ f.fill := rfl
    rw [hchars, rdropWhile_append_of_pos hfill, List.rdropWhile_eq_self_iff]
    intro hne hblank
    rw [List.getLast_append_of_ne_nil hne f.digits_ne_nil] at hblank
    have hlast := hvisible _ (List.getLast_mem f.digits_ne_nil)
    rw [Bool.or_eq_true, decide_eq_true_eq, decide_eq_true_eq] at hblank
    rcases hblank with h | h
    · rw [h] at hlast
      exact absurd hlast.1 (by decide)
    · rw [h] at hlast
      exact absurd hlast.1 (by decide)
  have hltrim : (List.replicate f.spaces ' ' ++ f.digits).dropWhile isSpace = f.digits.dropWhile isSpace :=
    List.dropWhile_append_of_pos (fun c hc => (List.mem_replicate.1 hc).2 ▸ by decide)
  have hself : trim (String.ofList f.digits) = String.ofList f.digits := by
    refine JsString.trim_eq_self (fun c hc => JsString.isSpace_of_visible (hvisible c ?_))
    rwa [String.toList_ofList] at hc
  rw [hrtrim, ← hself]
  simp only [trim, String.toList_ofList, hltrim]

end

/-! ## The entry -/

/-- **An entry is what follows its header**, however the size in it is padded. -/
theorem firstTarEntry_header {header p rest : List UInt8} (f : SizeField p.length) (hlength : header.length = 512)
    (hfield : header.extract 124 136 = f.bytes) : firstTarEntry (header ++ p ++ rest) = some p := by
  have hsize : (header ++ p ++ rest).extract 124 136 = f.bytes := by
    rw [← hfield, List.append_assoc, List.extract_eq_take_drop, List.extract_eq_take_drop,
      List.drop_append_of_le_length (by omega), List.take_append_of_le_length (by rw [List.length_drop]; omega)]
  have hentry : (header ++ p ++ rest).extract 512 (512 + p.length) = p := by
    rw [List.append_assoc, List.extract_eq_take_drop, ← hlength, List.drop_left, Nat.add_sub_cancel_left, List.take_left]
  have hne : String.ofList f.digits ≠ "" := by
    intro h
    have hlist := congrArg String.toList h
    rw [String.toList_ofList] at hlist
    exact f.digits_ne_nil hlist
  have hlen : (header ++ p ++ rest).length = 512 + p.length + rest.length := by
    rw [List.length_append, List.length_append, hlength]
  unfold firstTarEntry
  rw [if_neg (by omega)]
  simp only [hsize, f.ascii_bytes, f.trim_chars, if_neg hne, parseOctal_digits f.digits_ne_nil f.digits_octal]
  rw [SizeField.digits, ofDigitChars_padded, if_neg (by omega), Int.toNat_natCast, if_neg (by omega), hentry]

/-- Nothing outside the buffer is read. -/
theorem firstTarEntry_inside (buf : List UInt8) : firstTarEntry buf = none ∨
    ∃ size, 512 + size ≤ buf.length ∧ firstTarEntry buf = some (buf.extract 512 (512 + size)) := by
  unfold firstTarEntry
  split
  · exact .inl rfl
  · simp only
    split
    · exact .inl rfl
    · split
      · exact .inl rfl
      · rename_i size _
        split
        · exact .inl rfl
        · split
          · exact .inl rfl
          · rename_i hfits
            exact .inr ⟨size.toNat, Nat.le_of_not_lt hfits, rfl⟩

/-- **The entry is read back under every padding of its size, and every answer lies in the buffer behind the header.** -/
theorem firstTarEntry_spec :
    (∀ (header p rest : List UInt8) (f : SizeField p.length), header.length = 512 → header.extract 124 136 = f.bytes →
      firstTarEntry (header ++ p ++ rest) = some p) ∧
    ∀ buf : List UInt8, firstTarEntry buf = none ∨
      ∃ size, 512 + size ≤ buf.length ∧ firstTarEntry buf = some (buf.extract 512 (512 + size)) :=
  ⟨fun _ _ _ f hlength hfield => firstTarEntry_header f hlength hfield, firstTarEntry_inside⟩

def twoBytes : SizeField 2 := ⟨10, 0, ['\x00'], by simp, rfl⟩

theorem firstTarEntry_spec_twoBytes :
    firstTarEntry ((List.replicate 124 0 ++ twoBytes.bytes ++ List.replicate 376 0) ++ [123, 125] ++ [0]) =
      some [123, 125] :=
  firstTarEntry_spec.1 _ [123, 125] [0] twoBytes (by decide +kernel) (by decide +kernel)

end Drift
end SignalkDoctor
