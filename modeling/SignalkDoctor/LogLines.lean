import SignalkDoctor.Utf8
/-!
# LogLines — the lines of one log stream (`defaultSpawnTail` in `src/log-stream-broker.ts`)

Each chunk of a stream is decoded by itself and handed to `splitLines`, which keeps the line not yet ended in its buffer;
the end of the stream flushes the buffer.  What comes out are the lines of the chunks' texts one after the other
(`emitted_eq`), so those of the whole text exactly when no chunk ends inside a character (`emitted_iff`).
-/
namespace SignalkDoctor
namespace LogLines

open Utf8 (Bytes encode decode Whole)

def isEol (c : Char) : Bool := c == '\r' || c == '\n'

/-- `split(/\r\n|\r|\n/)`, the segment so far before the text. -/
def splitEolFrom (segment : List Char) : List Char → List (List Char)
  | [] => [segment]
  | '\r' :: '\n' :: t => segment :: splitEolFrom [] t
  | '\r' :: t => segment :: splitEolFrom [] t
  | '\n' :: t => segment :: splitEolFrom [] t
  | c :: t => splitEolFrom (segment ++ [c]) t

def splitEol (t : List Char) : List (List Char) := splitEolFrom [] t

/-- A tail's lines so far and its `buffer`. -/
structure Splitter where
  emitted : List (List Char)
  buffer : List Char
  deriving DecidableEq, Repr

def Splitter.init : Splitter := ⟨[], []⟩

def splitLines (s : Splitter) (chunk : List Char) : Splitter :=
  let parts := splitEol (s.buffer ++ chunk)
  ⟨s.emitted ++ parts.dropLast.filter (fun part => part ≠ []), parts.getLast?.getD []⟩

def onChunk (s : Splitter) (chunk : Bytes) : Splitter := splitLines s (decode chunk)

def onEnd (s : Splitter) : Splitter := if s.buffer ≠ [] then ⟨s.emitted ++ [s.buffer], []⟩ else s

/-- **What a stream emits**, from its first chunk to its end. -/
def emitted (chunks : List Bytes) : List (List Char) := (onEnd (chunks.foldl onChunk .init)).emitted

/-- The non-empty segments of a text between its line ends. -/
def lines (t : List Char) : List (List Char) := (splitEol t).filter (fun part => part ≠ [])

/-! ## Segments -/

/-- The segments between single line ends; that CR LF is one only makes an empty segment less. -/
def segments (t : List Char) : List (List Char) := (t.splitOnP isEol).filter (fun part => part ≠ [])

theorem segments_append (s : List Char) {c : Char} (hc : isEol c = true) (t : List Char) :
    segments (s ++ c :: t) = segments s ++ segments t := by
  rw [segments, List.splitOnP_append_cons s t hc, List.filter_append]
  rfl

theorem segments_cons {c : Char} (hc : isEol c = true) (t : List Char) : segments (c :: t) = segments t :=
  segments_append [] hc t

theorem segments_of_open {s : List Char} (h : ∀ c ∈ s, isEol c = false) : segments s = [s].filter (fun part => part ≠ []) := by
  rw [segments, List.splitOnP_eq_singleton h]

/-- **What a split leaves of a text**: the segments closed and the one still open, such that the segments of any
continuation are those closed and those of the open one continued. -/
structure Splits (segment t : List Char) (closed : List (List Char)) (buffer : List Char) : Prop where
  isOpen : ∀ c ∈ buffer, isEol c = false
  continued : ∀ x, segments (segment ++ (t ++ x)) = closed.filter (fun part => part ≠ []) ++ segments (buffer ++ x)

theorem Splits.close {segment t buffer : List Char} {closed : List (List Char)} {c : Char} (hc : isEol c = true)
    (hsegment : ∀ c ∈ segment, isEol c = false) (h : Splits [] t closed buffer) :
    Splits segment (c :: t) (segment :: closed) buffer := by
  refine ⟨h.isOpen, fun x => ?_⟩
  have hrest := h.continued x
  rw [List.nil_append] at hrest
  rw [List.cons_append, segments_append segment hc, segments_of_open hsegment, hrest, ← List.append_assoc,
    ← List.filter_append]
  rfl

/-- The line feed of a CR LF ends no segment of its own. -/
theorem Splits.skip {t buffer : List Char} {closed : List (List Char)} {c : Char} (hc : isEol c = true)
    (h : Splits [] t closed buffer) : Splits [] (c :: t) closed buffer := by
  refine ⟨h.isOpen, fun x => ?_⟩
  rw [List.nil_append, List.cons_append, segments_cons hc]
  exact h.continued x

theorem splitEolFrom_spec (segment t : List Char) (hsegment : ∀ c ∈ segment, isEol c = false) :
    ∃ closed buffer, splitEolFrom segment t = closed ++ [buffer] ∧ Splits segment t closed buffer := by
  fun_induction splitEolFrom segment t with
  | case1 segment => exact ⟨[], segment, rfl, hsegment, fun x => rfl⟩
  | case2 segment t ih =>
    obtain ⟨closed, buffer, hsplit, hsplits⟩ := ih (fun _ h => absurd h List.not_mem_nil)
    exact ⟨segment :: closed, buffer, by rw [hsplit]; rfl, .close (by decide) hsegment (.skip (by decide) hsplits)⟩
  | case3 segment t hno ih =>
    obtain ⟨closed, buffer, hsplit, hsplits⟩ := ih (fun _ h => absurd h List.not_mem_nil)
    exact ⟨segment :: closed, buffer, by rw [hsplit]; rfl, .close (by decide) hsegment hsplits⟩
  | case4 segment t ih =>
    obtain ⟨closed, buffer, hsplit, hsplits⟩ := ih (fun _ h => absurd h List.not_mem_nil)
    exact ⟨segment :: closed, buffer, by rw [hsplit]; rfl, .close (by decide) hsegment hsplits⟩
  | case5 segment c t hcrlf hcr hlf ih =>
    have hc : isEol c = false := by
      have hcr : c ≠ '\r' := fun h => hcr h
      have hlf : c ≠ '\n' := fun h => hlf h
      simp [isEol, hcr, hlf]
    obtain ⟨closed, buffer, hsplit, hsplits⟩ := ih (fun d hd => by
      rcases List.mem_append.1 hd with hd | hd
      · exact hsegment d hd
      · rw [List.mem_singleton.1 hd]
        exact hc)
    refine ⟨closed, buffer, hsplit, hsplits.isOpen, fun x => ?_⟩
    have := hsplits.continued x
    rwa [List.append_assoc, List.singleton_append, ← List.cons_append] at this

theorem lines_eq_segments (t : List Char) : lines t = segments t := by
  obtain ⟨closed, buffer, hsplit, hopen, hrest⟩ := splitEolFrom_spec [] t (fun _ h => absurd h List.not_mem_nil)
  have hall := hrest []
  rw [List.nil_append, List.append_nil, List.append_nil, segments_of_open hopen, ← List.filter_append, ← hsplit] at hall
  exact hall.symm

/-! ## The splitter -/

/-- **One chunk**: what was emitted and is buffered stands for the whole text so far, whatever follows. -/
theorem splitLines_spec (s : Splitter) (chunk : List Char) :
    (∀ c ∈ (splitLines s chunk).buffer, isEol c = false) ∧
      ∀ x, s.emitted ++ segments (s.buffer ++ (chunk ++ x)) =
        (splitLines s chunk).emitted ++ segments ((splitLines s chunk).buffer ++ x) := by
  obtain ⟨closed, buffer, hsplit, hbuffer, hrest⟩ :=
    splitEolFrom_spec [] (s.buffer ++ chunk) (fun _ h => absurd h List.not_mem_nil)
  have hparts : splitLines s chunk = ⟨s.emitted ++ closed.filter (fun part => part ≠ []), buffer⟩ := by
    simp only [splitLines, splitEol, hsplit, List.dropLast_concat, List.getLast?_concat, Option.getD_some]
  rw [hparts]
  refine ⟨hbuffer, fun x => ?_⟩
  have := hrest x
  rw [List.nil_append, List.append_assoc] at this
  rw [this, List.append_assoc]

theorem foldl_onChunk_spec : ∀ (chunks : List Bytes) (s : Splitter), (∀ c ∈ s.buffer, isEol c = false) →
    (∀ c ∈ (chunks.foldl onChunk s).buffer, isEol c = false) ∧
      s.emitted ++ segments (s.buffer ++ chunks.flatMap decode) =
        (chunks.foldl onChunk s).emitted ++ segments (chunks.foldl onChunk s).buffer
  | [], s, hopen => ⟨hopen, by rw [List.flatMap_nil, List.append_nil]; rfl⟩
  | chunk :: chunks, s, hopen => by
    obtain ⟨hopen', hrest⟩ := splitLines_spec s (decode chunk)
    obtain ⟨hopen'', hrest'⟩ := foldl_onChunk_spec chunks (onChunk s chunk) hopen'
    refine ⟨hopen'', ?_⟩
    rw [List.flatMap_cons, hrest, List.foldl_cons]
    exact hrest'

/-- **A stream emits the lines of its chunks' texts**, one after the other. -/
theorem emitted_eq (chunks : List Bytes) : emitted chunks = lines (chunks.flatMap decode) := by
  obtain ⟨hopen, hrest⟩ := foldl_onChunk_spec chunks .init (fun _ h => absurd h List.not_mem_nil)
  rw [lines_eq_segments]
  have hflush : ∀ s : Splitter, (∀ c ∈ s.buffer, isEol c = false) → (onEnd s).emitted = s.emitted ++ segments s.buffer := by
    intro s hs
    rw [segments_of_open hs]
    unfold onEnd
    by_cases hb : s.buffer = []
    · simp [hb]
    · simp [hb]
  rw [emitted, hflush _ hopen, ← hrest]
  rfl

theorem isEol_of_mem_splitOnP : ∀ {t part : List Char} {c : Char}, part ∈ t.splitOnP isEol → c ∈ part → isEol c = false
  | [], part, c, hpart, hc => by
    rw [List.splitOnP_nil, List.mem_singleton] at hpart
    rw [hpart] at hc
    cases hc
  | d :: t, part, c, hpart, hc => by
    rw [List.splitOnP_cons_eq_if_modifyHead] at hpart
    obtain ⟨head, tail, hsplit⟩ := List.exists_cons_of_ne_nil (List.splitOnP_ne_nil isEol t)
    have ih : ∀ {part' : List Char}, part' ∈ head :: tail → c ∈ part' → isEol c = false :=
      fun h hc => isEol_of_mem_splitOnP (hsplit ▸ h) hc
    split at hpart
    · rcases List.mem_cons.1 hpart with rfl | hpart
      · cases hc
      · exact isEol_of_mem_splitOnP hpart hc
    · rename_i hd
      rw [hsplit, List.modifyHead_cons] at hpart
      rcases List.mem_cons.1 hpart with rfl | hpart
      · rcases List.mem_cons.1 hc with rfl | hc
        · exact Bool.eq_false_iff.2 hd
        · exact ih (List.mem_cons_self ..) hc
      · exact ih (List.mem_cons_of_mem _ hpart) hc

/-- **No line emitted holds a line end.** -/
theorem isEol_of_mem_emitted {chunks : List Bytes} {line : List Char} (h : line ∈ emitted chunks) {c : Char} (hc : c ∈ line) :
    isEol c = false := by
  rw [emitted_eq, lines_eq_segments, segments] at h
  exact isEol_of_mem_splitOnP (List.mem_filter.1 h).1 hc

/-! ## Cuts inside a character -/

/-- The segments hold the characters that end no line. -/
theorem flatten_segments : ∀ t : List Char, (segments t).flatten = t.filter (fun c => !isEol c) := by
  have hdrop : ∀ l : List (List Char), (l.filter (fun part => part ≠ [])).flatten = l.flatten := by
    intro l
    induction l with
    | nil => rfl
    | cons part l ih =>
      by_cases hp : part = []
      · subst hp
        simpa using ih
      · simp [hp, ← ih]
  intro t
  rw [segments, hdrop]
  induction t with
  | nil => rfl
  | cons c t ih =>
    rw [List.splitOnP_cons_eq_if_modifyHead]
    cases hc : isEol c with
    | true => simpa [hc] using ih
    | false =>
      obtain ⟨head, tail, hsplit⟩ := List.exists_cons_of_ne_nil (List.splitOnP_ne_nil isEol t)
      rw [hsplit] at ih
      simp [hsplit, hc, ← ih]

/-- **A stream emits the lines of its text exactly when no chunk ends inside a character.** -/
theorem emitted_iff (t : List Char) (chunks : List Bytes) (h : chunks.flatten = encode t) :
    emitted chunks = lines t ↔ ∀ chunk ∈ chunks, Whole chunk := by
  constructor
  · intro hsame
    have hwide : ∀ c : Char, 0x80 ≤ c.toNat → (!isEol c) = true := by
      intro c hc
      have hcr : c ≠ '\r' := fun heq => by rw [heq] at hc; exact absurd hc (by decide)
      have hlf : c ≠ '\n' := fun heq => by rw [heq] at hc; exact absurd hc (by decide)
      simp [isEol, hcr, hlf]
    have hcount := Utf8.countP_decode_pieces hwide chunks [] t (fun _ h => absurd h List.not_mem_nil) h
    rw [emitted_eq, lines_eq_segments, lines_eq_segments] at hsame
    have hlength := congrArg (fun l => l.flatten.length) hsame
    simp only [flatten_segments, ← List.countP_eq_length_filter] at hlength
    refine Classical.byContradiction (fun hnot => ?_)
    have := hcount.2 rfl hnot
    omega
  · intro hwhole
    rw [emitted_eq, Utf8.flatMap_decode_of_whole hwhole h]

/-- Two lines cut between CR and LF, and after a character of two bytes. -/
theorem emitted_crlf : emitted [[97, 13], [10, 195, 169], [98]] = lines ['a', '\r', '\n', 'é', 'b'] ↔
    ∀ chunk ∈ [[97, 13], [10, 195, 169], [98]], Whole chunk :=
  emitted_iff ['a', '\r', '\n', 'é', 'b'] _ (by decide)

/-- A character of two bytes that comes in two chunks is emitted as two U+FFFD. -/
theorem emitted_cut : ¬ ∀ (t : List Char) (chunks : List Bytes), chunks.flatten = encode t → emitted chunks = lines t := by
  intro h
  have hcut := h ['é'] [[195], [169]] (by decide)
  exact absurd hcut (by decide)

end LogLines
end SignalkDoctor
