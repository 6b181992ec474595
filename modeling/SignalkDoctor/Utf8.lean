/-!
# Utf8 — bytes of a text and the text of bytes

`encode` writes a text as UTF-8; `decode` reads any bytes, a byte at a time, and puts one U+FFFD where a character breaks
off or a byte begins none, as a decoder that never fails does.  `decode_encode` is the round trip; a text cut inside a
character comes out longer (`decode_pieces`).
-/
namespace SignalkDoctor
namespace Utf8

abbrev Bytes := List UInt8

def encode (t : List Char) : Bytes := t.flatMap String.utf8EncodeChar

def replacement : Char := Char.ofNat 0xFFFD

/-- **A character begun**: the bounds of its next byte, how many follow that one, and its value so far. -/
structure Pending where
  more : Nat
  low : Nat
  high : Nat
  value : Nat
  deriving DecidableEq, Repr

/-- A byte between characters: what it gives, and the character it begins. -/
def first (b : Nat) : List Char × Option Pending :=
  if b ≤ 0x7F then ([Char.ofNat b], none)
  else if 0xC2 ≤ b ∧ b ≤ 0xDF then ([], some ⟨0, 0x80, 0xBF, b - 0xC0⟩)
  else if 0xE0 ≤ b ∧ b ≤ 0xEF then
    ([], some ⟨1, if b = 0xE0 then 0xA0 else 0x80, if b = 0xED then 0x9F else 0xBF, b - 0xE0⟩)
  else if 0xF0 ≤ b ∧ b ≤ 0xF4 then
    ([], some ⟨2, if b = 0xF0 then 0x90 else 0x80, if b = 0xF4 then 0x8F else 0xBF, b - 0xF0⟩)
  else ([replacement], none)

/-- A byte wherever the decoder stands; one that does not go on with the character begun breaks it off. -/
def next : Option Pending → Nat → List Char × Option Pending
  | none, b => first b
  | some p, b =>
    if p.low ≤ b ∧ b ≤ p.high then
      let value := p.value * 64 + (b - 0x80)
      if p.more = 0 then ([Char.ofNat value], none) else ([], some ⟨p.more - 1, 0x80, 0xBF, value⟩)
    else (replacement :: (first b).1, (first b).2)

def decodeFrom : Option Pending → Bytes → List Char
  | none, [] => []
  | some _, [] => [replacement]
  | p, b :: bs => (next p b.toNat).1 ++ decodeFrom (next p b.toNat).2 bs

def decode (bs : Bytes) : List Char := decodeFrom none bs

def IsTail (b : UInt8) : Prop := 0x80 ≤ b.toNat ∧ b.toNat ≤ 0xBF

/-! ## The bytes of a character -/

/-- **The four lengths of a character**, byte by byte. -/
inductive Encoded (c : Char) : Bytes → Prop where
  | one (a : UInt8) : c.toNat ≤ 0x7F → a.toNat = c.toNat → Encoded c [a]
  | two (a b : UInt8) : 0x80 ≤ c.toNat → c.toNat ≤ 0x7FF → a.toNat = c.toNat / 64 + 0xC0 →
      b.toNat = c.toNat % 64 + 0x80 → Encoded c [a, b]
  | three (a b d : UInt8) : 0x800 ≤ c.toNat → c.toNat ≤ 0xFFFF → (c.toNat < 0xD800 ∨ 0xDFFF < c.toNat) →
      a.toNat = c.toNat / 4096 + 0xE0 → b.toNat = c.toNat / 64 % 64 + 0x80 → d.toNat = c.toNat % 64 + 0x80 →
      Encoded c [a, b, d]
  | four (a b d e : UInt8) : 0x10000 ≤ c.toNat → c.toNat ≤ 0x10FFFF → a.toNat = c.toNat / 262144 + 0xF0 →
      b.toNat = c.toNat / 4096 % 64 + 0x80 → d.toNat = c.toNat / 64 % 64 + 0x80 → e.toNat = c.toNat % 64 + 0x80 →
      Encoded c [a, b, d, e]

theorem encoded (c : Char) : Encoded c (String.utf8EncodeChar c) := by
  have hval : c.val.toNat = c.toNat := rfl
  have hvalid : c.toNat < 0xD800 ∨ (0xDFFF < c.toNat ∧ c.toNat < 0x110000) := c.valid
  unfold String.utf8EncodeChar
  simp only [hval]
  split
  · rename_i h
    exact .one _ h (by rw [UInt8.toNat_ofNat']; omega)
  · split
    · rename_i h1 h2
      exact .two _ _ (by omega) h2 (by rw [UInt8.toNat_ofNat']; omega) (by rw [UInt8.toNat_ofNat']; omega)
    · split
      · rename_i h1 h2 h3
        exact .three _ _ _ (by omega) h3 (by omega) (by rw [UInt8.toNat_ofNat']; omega)
          (by rw [UInt8.toNat_ofNat']; omega) (by rw [UInt8.toNat_ofNat']; omega)
      · rename_i h1 h2 h3
        exact .four _ _ _ _ (by omega) (by omega) (by rw [UInt8.toNat_ofNat']; omega)
          (by rw [UInt8.toNat_ofNat']; omega) (by rw [UInt8.toNat_ofNat']; omega) (by rw [UInt8.toNat_ofNat']; omega)

theorem length_le_encode : ∀ t : List Char, t.length ≤ (encode t).length
  | [] => Nat.le_refl 0
  | c :: t => by
    have hpos : 1 ≤ (String.utf8EncodeChar c).length := List.length_pos_iff.2 String.utf8EncodeChar_ne_nil
    have := length_le_encode t
    rw [encode] at this ⊢
    rw [List.flatMap_cons, List.length_append, List.length_cons]
    omega

/-! ## Decoding -/

theorem decodeFrom_more {p : Pending} {b : UInt8} (hb : p.low ≤ b.toNat ∧ b.toNat ≤ p.high) (hmore : p.more ≠ 0)
    (bs : Bytes) : decodeFrom (some p) (b :: bs) =
      decodeFrom (some ⟨p.more - 1, 0x80, 0xBF, p.value * 64 + (b.toNat - 0x80)⟩) bs := by
  simp [decodeFrom, next, hb, hmore]

theorem decodeFrom_last {p : Pending} {b : UInt8} (hb : p.low ≤ b.toNat ∧ b.toNat ≤ p.high) (hmore : p.more = 0)
    (bs : Bytes) : decodeFrom (some p) (b :: bs) = Char.ofNat (p.value * 64 + (b.toNat - 0x80)) :: decode bs := by
  simp [decodeFrom, next, hb, hmore, decode]

theorem decode_first {a : UInt8} {p : Pending} (h : first a.toNat = ([], some p)) (bs : Bytes) :
    decode (a :: bs) = decodeFrom (some p) bs := by
  simp [decode, decodeFrom, next, h]

theorem first_two {a : Nat} (h : 0xC2 ≤ a ∧ a ≤ 0xDF) : first a = ([], some ⟨0, 0x80, 0xBF, a - 0xC0⟩) := by
  unfold first
  rw [if_neg (by omega), if_pos h]

theorem first_three {a : Nat} (h : 0xE0 ≤ a ∧ a ≤ 0xEF) : first a =
    ([], some ⟨1, if a = 0xE0 then 0xA0 else 0x80, if a = 0xED then 0x9F else 0xBF, a - 0xE0⟩) := by
  unfold first
  rw [if_neg (by omega), if_neg (by omega), if_pos h]

theorem first_four {a : Nat} (h : 0xF0 ≤ a ∧ a ≤ 0xF4) : first a =
    ([], some ⟨2, if a = 0xF0 then 0x90 else 0x80, if a = 0xF4 then 0x8F else 0xBF, a - 0xF0⟩) := by
  unfold first
  rw [if_neg (by omega), if_neg (by omega), if_neg (by omega), if_pos h]

theorem ofNat_eq {n : Nat} {c : Char} (h : n = c.toNat) : Char.ofNat n = c := by
  rw [h, Char.ofNat_toNat]

/-- The rest of a character, from where the decoder stands in it. -/
inductive Reads (c : Char) : Pending → Bytes → Prop where
  | last (p : Pending) (b : UInt8) : p.low ≤ b.toNat ∧ b.toNat ≤ p.high → IsTail b → p.more = 0 →
      p.value * 64 + (b.toNat - 0x80) = c.toNat → Reads c p [b]
  | more (p : Pending) (b : UInt8) (bs : Bytes) : p.low ≤ b.toNat ∧ b.toNat ≤ p.high → IsTail b → p.more ≠ 0 →
      Reads c ⟨p.more - 1, 0x80, 0xBF, p.value * 64 + (b.toNat - 0x80)⟩ bs → Reads c p (b :: bs)

theorem Reads.whole {c : Char} {p : Pending} {rest : Bytes} (h : Reads c p rest) (bs : Bytes) :
    decodeFrom (some p) (rest ++ bs) = c :: decode bs := by
  induction h with
  | last p b hb _ hmore hvalue => rw [List.singleton_append, decodeFrom_last hb hmore, ofNat_eq hvalue]
  | more p b rest hb _ hmore _ ih => rw [List.cons_append, decodeFrom_more hb hmore, ih]

theorem Reads.cut {c : Char} {p : Pending} {rest : Bytes} (h : Reads c p rest) :
    ∀ x y, rest = x ++ y → y ≠ [] → decodeFrom (some p) x = [replacement] := by
  induction h with
  | last p b _ _ _ _ =>
    intro x y hxy hy
    cases x with
    | nil => rfl
    | cons a x =>
      have hnil := List.append_eq_nil_iff.1 (List.cons.inj hxy).2.symm
      exact absurd hnil.2 hy
  | more p b rest hb _ hmore _ ih =>
    intro x y hxy hy
    cases x with
    | nil => rfl
    | cons a x =>
      obtain ⟨rfl, hrest⟩ := List.cons.inj hxy
      rw [decodeFrom_more hb hmore]
      exact ih x y hrest hy

theorem Reads.tail {c : Char} {p : Pending} {rest : Bytes} (h : Reads c p rest) : ∀ b ∈ rest, IsTail b := by
  induction h with
  | last p b _ ht _ _ => simpa using ht
  | more p b rest _ ht _ _ ih => simpa using ⟨ht, ih⟩

/-- **A character is one byte, or a first byte and its rest.** -/
theorem encodeChar_cases (c : Char) :
    (c.toNat ≤ 0x7F ∧ ∃ a, String.utf8EncodeChar c = [a] ∧ a.toNat = c.toNat) ∨
      (0x80 ≤ c.toNat ∧ ∃ a p rest, String.utf8EncodeChar c = a :: rest ∧ first a.toNat = ([], some p) ∧ Reads c p rest) := by
  have henc := encoded c
  generalize String.utf8EncodeChar c = bytes at henc
  cases henc with
  | one a hc ha => exact .inl ⟨hc, a, rfl, ha⟩
  | two a b hlow hhigh ha hb =>
    refine .inr ⟨hlow, a, _, _, rfl, first_two (by omega), .last _ b ?_ ?_ rfl ?_⟩
    · dsimp only
      omega
    · unfold IsTail
      omega
    · dsimp only
      omega
  | three a b d hlow hhigh hsurrogate ha hb hd =>
    refine .inr ⟨by omega, a, _, _, rfl, first_three (by omega), .more _ b _ ?_ ?_ (by simp) (.last _ d ?_ ?_ rfl ?_)⟩
    · dsimp only
      split <;> split <;> omega
    · unfold IsTail
      omega
    · dsimp only
      omega
    · unfold IsTail
      omega
    · dsimp only
      omega
  | four a b d e hlow hhigh ha hb hd he =>
    refine .inr ⟨by omega, a, _, _, rfl, first_four (by omega), .more _ b _ ?_ ?_ (by simp)
      (.more _ d _ ?_ ?_ (by simp) (.last _ e ?_ ?_ rfl ?_))⟩
    · dsimp only
      split <;> split <;> omega
    · unfold IsTail
      omega
    · dsimp only
      omega
    · unfold IsTail
      omega
    · dsimp only
      omega
    · unfold IsTail
      omega
    · dsimp only
      omega

theorem decode_encodeChar_append (c : Char) (bs : Bytes) : decode (String.utf8EncodeChar c ++ bs) = c :: decode bs := by
  rcases encodeChar_cases c with ⟨hc, a, henc, ha⟩ | ⟨-, a, p, rest, henc, hfirst, hreads⟩
  · rw [henc]
    simp [decode, decodeFrom, next, first, ha, hc]
  · rw [henc, List.cons_append, decode_first hfirst, hreads.whole]

/-- **What was encoded is decoded**, whatever follows. -/
theorem decode_encode_append : ∀ (t : List Char) (bs : Bytes), decode (encode t ++ bs) = t ++ decode bs
  | [], _ => rfl
  | c :: t, bs => by
    rw [encode, List.flatMap_cons, List.append_assoc, decode_encodeChar_append]
    exact congrArg (c :: ·) (decode_encode_append t bs)

theorem decode_encode (t : List Char) : decode (encode t) = t := by
  have h := decode_encode_append t []
  rwa [List.append_nil, show decode [] = [] from rfl, List.append_nil] at h

theorem decode_tail {b : UInt8} (hb : IsTail b) (bs : Bytes) : decode (b :: bs) = replacement :: decode bs := by
  have hfirst : first b.toNat = ([replacement], none) := by
    unfold IsTail at hb
    unfold first
    rw [if_neg (by omega), if_neg (by omega), if_neg (by omega), if_neg (by omega)]
  simp [decode, decodeFrom, next, hfirst]

theorem decode_tails : ∀ {q : Bytes}, (∀ b ∈ q, IsTail b) → ∀ bs,
    decode (q ++ bs) = List.replicate q.length replacement ++ decode bs
  | [], _, _ => rfl
  | b :: q, h, bs => by
    rw [List.cons_append, decode_tail (h b (List.mem_cons_self ..)),
      decode_tails (fun x hx => h x (List.mem_cons_of_mem b hx))]
    rfl

/-- **A character cut in two**: its first part is one U+FFFD, and its second is bytes of a tail. -/
theorem encodeChar_cut {c : Char} {p q : Bytes} (h : String.utf8EncodeChar c = p ++ q) (hp : p ≠ []) (hq : q ≠ []) :
    decode p = [replacement] ∧ (∀ b ∈ q, IsTail b) ∧ 0x80 ≤ c.toNat := by
  cases p with
  | nil => exact absurd rfl hp
  | cons x p =>
    rcases encodeChar_cases c with ⟨-, a, henc, -⟩ | ⟨hwide, a, pending, rest, henc, hfirst, hreads⟩
    · have hnil := List.append_eq_nil_iff.1 (List.cons.inj (henc.symm.trans h)).2.symm
      exact absurd hnil.2 hq
    · obtain ⟨rfl, hrest⟩ := List.cons.inj (henc.symm.trans h)
      refine ⟨?_, fun b hb => hreads.tail b (hrest ▸ List.mem_append_right p hb), hwide⟩
      rw [decode_first hfirst]
      exact hreads.cut p q hrest hq

/-! ## Pieces -/

def Whole (piece : Bytes) : Prop := ∃ u, piece = encode u

theorem encode_append (u v : List Char) : encode (u ++ v) = encode u ++ encode v := List.flatMap_append

/-- **A beginning of a text's bytes**: whole characters, and the first part of one that is cut. -/
theorem encode_eq_append : ∀ {t : List Char} {piece rest : Bytes}, encode t = piece ++ rest →
    (∃ u v, piece = encode u ∧ rest = encode v ∧ t = u ++ v) ∨
      ∃ u c v p q, piece = encode u ++ p ∧ rest = q ++ encode v ∧ t = u ++ c :: v ∧ String.utf8EncodeChar c = p ++ q ∧
        p ≠ [] ∧ q ≠ []
  | [], piece, rest, h => by
    obtain ⟨rfl, rfl⟩ := List.append_eq_nil_iff.1 h.symm
    exact .inl ⟨[], [], rfl, rfl, rfl⟩
  | c :: t, piece, rest, h => by
    rw [encode, List.flatMap_cons] at h
    rcases List.append_eq_append_iff.1 h with ⟨mid, hpiece, hmid⟩ | ⟨q, hc, hrest⟩
    · rcases encode_eq_append hmid with ⟨u, v, hu, hv, ht⟩ | ⟨u, x, v, p, q, hu, hv, ht, hcut⟩
      · exact .inl ⟨c :: u, v, by rw [hpiece, hu]; rfl, hv, by rw [ht]; rfl⟩
      · refine .inr ⟨c :: u, x, v, p, q, ?_, hv, by rw [ht]; rfl, hcut⟩
        rw [hpiece, hu, ← List.append_assoc]
        rfl
    · by_cases hp : piece = []
      · rw [hp, List.nil_append] at hc
        exact .inl ⟨[], c :: t, hp, by rw [hrest, ← hc]; rfl, rfl⟩
      · by_cases hq : q = []
        · rw [hq, List.append_nil] at hc
          rw [hq, List.nil_append] at hrest
          exact .inl ⟨[c], t, by rw [← hc]; simp [encode], hrest, rfl⟩
        · exact .inr ⟨[], c, t, piece, q, rfl, hrest, rfl, hc, hp, hq⟩

section
variable {keep : Char → Bool}

/-- **The text of pieces decoded one by one is no shorter**, counting characters that are kept, as every character of
more than one byte is; it is longer when a piece is not whole.  `q` is what a cut before left of its character. -/
theorem countP_decode_pieces (hwide : ∀ c : Char, 0x80 ≤ c.toNat → keep c = true) :
    ∀ (pieces : List Bytes) (q : Bytes) (v : List Char), (∀ b ∈ q, IsTail b) → pieces.flatten = q ++ encode v →
      q.length + v.countP keep ≤ (pieces.flatMap decode).countP keep ∧
        (q = [] → ¬ (∀ piece ∈ pieces, Whole piece) → v.countP keep < (pieces.flatMap decode).countP keep)
  | [], q, v, _, h => by
    obtain ⟨rfl, hv⟩ := List.append_eq_nil_iff.1 h.symm
    have hnil : v = [] := by
      have hdecode := congrArg decode hv
      rw [decode_encode] at hdecode
      exact hdecode
    exact ⟨by rw [hnil]; exact Nat.le_refl 0, fun _ hnot => absurd (fun _ h => absurd h List.not_mem_nil) hnot⟩
  | piece :: pieces, q, v, hq, h => by
    have hreplacement : keep replacement = true := hwide replacement (by decide)
    have hreplicate : ∀ n, (List.replicate n replacement).countP keep = n := fun n => by
      rw [List.countP_replicate, if_pos hreplacement]
    have hrest : ¬ (∀ x ∈ piece :: pieces, Whole x) → Whole piece → ¬ (∀ x ∈ pieces, Whole x) := fun hnot hone hall =>
      hnot (fun x hx => (List.mem_cons.1 hx).elim (fun heq => heq ▸ hone) (hall x))
    rw [List.flatten_cons] at h
    rw [List.flatMap_cons, List.countP_append]
    rcases List.append_eq_append_iff.1 h with ⟨q', rfl, hflat⟩ | ⟨m, rfl, hv⟩
    · -- the piece ends inside what the cut left
      have hpiece := decode_tails (fun b hb => hq b (List.mem_append_left q' hb)) []
      rw [List.append_nil, show decode [] = [] from rfl, List.append_nil] at hpiece
      obtain ⟨hle, hlt⟩ := countP_decode_pieces hwide pieces q' v (fun b hb => hq b (List.mem_append_right piece hb)) hflat
      rw [hpiece, hreplicate, List.length_append]
      refine ⟨by omega, fun hnil hnot => ?_⟩
      obtain ⟨rfl, rfl⟩ := List.append_eq_nil_iff.1 hnil
      have := hlt rfl (hrest hnot ⟨[], rfl⟩)
      omega
    · rcases encode_eq_append hv with ⟨u, w, rfl, hflat, rfl⟩ | ⟨u, c, w, p, q', rfl, hflat, rfl, hc, hp, hq'⟩
      · -- the piece ends between characters
        obtain ⟨hle, hlt⟩ := countP_decode_pieces hwide pieces [] w (fun _ h => absurd h List.not_mem_nil) hflat
        rw [List.length_nil, Nat.zero_add] at hle
        simp only [decode_tails hq, decode_encode, List.countP_append, hreplicate]
        refine ⟨by omega, fun hnil hnot => ?_⟩
        subst hnil
        have := hlt rfl (hrest hnot ⟨u, rfl⟩)
        omega
      · -- the piece ends inside a character
        obtain ⟨hcut, htails, -⟩ := encodeChar_cut hc hp hq'
        obtain ⟨hle, -⟩ := countP_decode_pieces hwide pieces q' w htails hflat
        have hone : List.countP keep [replacement] = 1 := hreplicate 1
        have hchar : List.countP keep (c :: w) ≤ 1 + w.countP keep := by
          rw [List.countP_cons]
          split <;> omega
        have hpos : 1 ≤ q'.length := List.length_pos_iff.2 hq'
        simp only [decode_tails hq, decode_encode_append, hcut, List.countP_append, hreplicate, hone]
        exact ⟨by omega, fun _ _ => by omega⟩

end

theorem flatMap_decode_of_whole : ∀ {pieces : List Bytes} {t : List Char}, (∀ piece ∈ pieces, Whole piece) →
    pieces.flatten = encode t → pieces.flatMap decode = t
  | [], t, _, h => by
    have hdecode := congrArg decode h
    rwa [decode_encode] at hdecode
  | piece :: pieces, t, hwhole, h => by
    obtain ⟨u, rfl⟩ := hwhole piece (List.mem_cons_self ..)
    rw [List.flatten_cons] at h
    have ht := congrArg decode h
    rw [decode_encode_append, decode_encode] at ht
    have hrest : pieces.flatten = encode (decode pieces.flatten) := by
      have := h
      rw [← ht, encode_append] at this
      exact List.append_cancel_left this
    rw [List.flatMap_cons, decode_encode,
      flatMap_decode_of_whole (fun x hx => hwhole x (List.mem_cons_of_mem _ hx)) hrest, ht]

end Utf8
end SignalkDoctor
