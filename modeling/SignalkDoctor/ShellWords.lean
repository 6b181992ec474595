/-!
# ShellWords — how a POSIX shell cuts a command into tokens

The token recognition of the shell language as a machine over the characters (`step`): quotes and escapes, operators by
their longest match, blanks, comments.  A character of a word keeps whether it was quoted, since the later stages ask:
reserved words, aliases, assignments and the expansions see unquoted characters only.  A `$` or a backquote that is not
quoted ends the recognition, for it begins an expansion.
-/
namespace SignalkDoctor
namespace Shell

structure WordChar where
  char : Char
  quoted : Bool
  deriving DecidableEq, Repr

abbrev Word := List WordChar

def Word.text (w : Word) : List Char := w.map WordChar.char

inductive Token where
  | word (w : Word)
  | operator (o : List Char)
  | newline
  deriving DecidableEq, Repr

inductive Issue where
  | unterminated | expansion
  deriving DecidableEq, Repr

/-! ## Token recognition -/

/-- What the recognition is in the middle of. -/
inductive Mode where
  | start
  | word (w : Word)
  /-- After a backslash; there need not be a word yet. -/
  | escaped (w : Option Word)
  | single (w : Word)
  | double (w : Word)
  | doubleEscaped (w : Word)
  | operator (o : List Char)
  | comment
  deriving DecidableEq, Repr

def operators : List (List Char) :=
  ["&", "|", ";", "<", ">", "(", ")", "&&", "||", ";;", "<<", ">>", "<&", ">&", "<>", ">|", "<<-"].map String.toList

def isBlank (c : Char) : Bool := c == ' ' || c == '\t'

def wordTokens : Option Word → List Token
  | none => []
  | some w => [.word w]

/-- A character outside quotes, in the word that has begun, if one has. -/
def unquoted (w : Option Word) (c : Char) : Except Issue (List Token × Mode) :=
  if c = '\\' then .ok ([], .escaped w)
  else if c = '\'' then .ok ([], .single (w.getD []))
  else if c = '"' then .ok ([], .double (w.getD []))
  else if c = '$' ∨ c = Char.ofNat 0x60 then .error .expansion
  else if c = '\n' then .ok (wordTokens w ++ [.newline], .start)
  else if isBlank c then .ok (wordTokens w, .start)
  else if operators.contains [c] then .ok (wordTokens w, .operator [c])
  else if c = '#' ∧ w = none then .ok ([], .comment)
  else .ok ([], .word (w.getD [] ++ [⟨c, false⟩]))

/-- One character: the tokens it ends, and what comes next. -/
def step : Mode → Char → Except Issue (List Token × Mode)
  | .start, c => unquoted none c
  | .word w, c => unquoted (some w) c
  | .escaped w, c =>
    -- a backslash and a newline are removed
    if c = '\n' then .ok ([], match w with | none => .start | some w => .word w)
    else .ok ([], .word (w.getD [] ++ [⟨c, true⟩]))
  | .single w, c => if c = '\'' then .ok ([], .word w) else .ok ([], .single (w ++ [⟨c, true⟩]))
  | .double w, c =>
    if c = '"' then .ok ([], .word w)
    else if c = '\\' then .ok ([], .doubleEscaped w)
    else if c = '$' ∨ c = Char.ofNat 0x60 then .error .expansion
    else .ok ([], .double (w ++ [⟨c, true⟩]))
  | .doubleEscaped w, c =>
    if c = '\n' then .ok ([], .double w)
    else if c = '$' ∨ c = Char.ofNat 0x60 ∨ c = '"' ∨ c = '\\' then .ok ([], .double (w ++ [⟨c, true⟩]))
    else .ok ([], .double (w ++ [⟨'\\', true⟩, ⟨c, true⟩]))
  | .operator o, c =>
    if operators.contains (o ++ [c]) then .ok ([], .operator (o ++ [c]))
    else (unquoted none c).map (fun p => (.operator o :: p.1, p.2))
  | .comment, c => if c = '\n' then .ok ([.newline], .start) else .ok ([], .comment)

def finish : Mode → Except Issue (List Token)
  | .start => .ok []
  | .word w => .ok [.word w]
  | .operator o => .ok [.operator o]
  | .comment => .ok []
  | .escaped _ | .single _ | .double _ | .doubleEscaped _ => .error .unterminated

def tokens : Mode → List Char → Except Issue (List Token)
  | m, [] => finish m
  | m, c :: cs =>
    match step m c with
    | .error e => .error e
    | .ok (ts, m') => (tokens m' cs).map (ts ++ ·)

/-! ## A simple command -/

def reservedWords : List (List Char) :=
  ["!", "\x7b", "\x7d", "case", "do", "done", "elif", "else", "esac", "fi", "for", "if", "in", "then", "until", "while"].map
    String.toList

/-- The word stands there as it is written; one without characters has come from quotes. -/
def Word.plain (w : Word) : Bool := w != [] && w.all (fun c => !c.quoted)

def Word.isNamed (names : List (List Char)) (w : Word) : Bool := w.plain && names.contains w.text

/-- A name and an `=`, none of it quoted. -/
def Word.isAssignment (w : Word) : Bool :=
  let name := w.takeWhile (fun c => !c.quoted && (c.char.isAlphanum || c.char == '_'))
  name != [] && !(name.head?.any (fun c => c.char.isDigit)) && w[name.length]? == some ⟨'=', false⟩

/-- A file name pattern, or a tilde at the beginning. -/
def Word.expands (w : Word) : Bool :=
  w.any (fun c => !c.quoted && (c.char == '*' || c.char == '?' || c.char == '[')) || w.head? == some ⟨'~', false⟩

def Token.word? : Token → Option Word
  | .word w => some w
  | _ => none

/-- **The words of a command that is one simple command, free of expansions**: `none` for any other. -/
def simpleCommand (aliases : List (List Char)) (command : List Char) : Option (List (List Char)) :=
  match tokens .start command with
  | .error _ => none
  | .ok ts =>
    match ts.mapM Token.word? with
    | some (w :: ws) =>
      if w.isNamed reservedWords || w.isNamed aliases || w.isAssignment || (w :: ws).any Word.expands then none
      else some ((w :: ws).map Word.text)
    | _ => none

example : simpleCommand [] "ls -l 'a b'".toList = some ["ls".toList, "-l".toList, "a b".toList] := by decide
example : simpleCommand [] "ls; rm x".toList = none := by decide

/-! ## Quoted text -/

/-- A text of which every character is quoted. -/
def quotedWord (s : List Char) : Word := s.map (fun c => ⟨c, true⟩)

@[simp] theorem text_quotedWord (s : List Char) : (quotedWord s).text = s := by
  rw [quotedWord, Word.text, List.map_map]
  exact List.map_id s

theorem quotedWord_append (s t : List Char) : quotedWord (s ++ t) = quotedWord s ++ quotedWord t := List.map_append ..

theorem tokens_cons {m m' : Mode} {c : Char} (h : step m c = .ok ([], m')) (cs : List Char) :
    tokens m (c :: cs) = tokens m' cs := by
  rw [tokens, h]
  cases hrest : tokens m' cs with
  | error e => simp only [hrest]; rfl
  | ok ts => simp only [hrest]; rfl

/-- A character that means nothing to the recognition. -/
def isOrdinary (c : Char) : Bool :=
  !isBlank c && !operators.contains [c] && c != '\\' && c != '\'' && c != '"' && c != '$' && c != Char.ofNat 0x60 &&
    c != '\n' && c != '#'

theorem unquoted_ordinary {c : Char} (h : isOrdinary c = true) (w : Option Word) :
    unquoted w c = .ok ([], .word (w.getD [] ++ [⟨c, false⟩])) := by
  simp only [isOrdinary, Bool.and_eq_true, Bool.not_eq_true', bne_iff_ne, ne_eq] at h
  obtain ⟨⟨⟨⟨⟨⟨⟨⟨hblank, hoperator⟩, hescape⟩, hsingle⟩, hdouble⟩, hdollar⟩, hback⟩, hnewline⟩, hcomment⟩ := h
  rw [unquoted, if_neg hescape, if_neg hsingle, if_neg hdouble, if_neg (not_or.2 ⟨hdollar, hback⟩), if_neg hnewline,
    if_neg (Bool.eq_false_iff.1 hblank), if_neg (Bool.eq_false_iff.1 hoperator), if_neg (fun hc => hcomment hc.1)]

def plainWord (t : List Char) : Word := t.map (fun c => ⟨c, false⟩)

/-- **Ordinary characters go into the word as they are.** -/
theorem tokens_ordinary : ∀ {t : List Char}, (∀ c ∈ t, isOrdinary c = true) → ∀ (w : Word) (cs : List Char),
    tokens (.word w) (t ++ cs) = tokens (.word (w ++ plainWord t)) cs
  | [], _, w, cs => by rw [plainWord, List.map_nil, List.append_nil, List.nil_append]
  | c :: t, h, w, cs => by
    have hstep : step (.word w) c = .ok ([], .word (w ++ [⟨c, false⟩])) :=
      unquoted_ordinary (h c (List.mem_cons_self ..)) (some w)
    rw [List.cons_append, tokens_cons hstep, tokens_ordinary (fun d hd => h d (List.mem_cons_of_mem c hd)),
      List.append_assoc, List.singleton_append]
    rfl

theorem tokens_start_ordinary {t : List Char} (hne : t ≠ []) (h : ∀ c ∈ t, isOrdinary c = true) (cs : List Char) :
    tokens .start (t ++ cs) = tokens (.word (plainWord t)) cs := by
  obtain ⟨c, t, rfl⟩ := List.exists_cons_of_ne_nil hne
  have hstep : step .start c = .ok ([], .word [⟨c, false⟩]) := unquoted_ordinary (h c (List.mem_cons_self ..)) none
  rw [List.cons_append, tokens_cons hstep, tokens_ordinary (fun d hd => h d (List.mem_cons_of_mem c hd))]
  rfl

theorem tokens_blank {c : Char} (hc : isBlank c = true) (w : Word) (cs : List Char) :
    tokens (.word w) (c :: cs) = (tokens .start cs).map (fun ts => .word w :: ts) := by
  have hspace : c = ' ' ∨ c = '\t' := by simpa [isBlank] using hc
  rcases hspace with rfl | rfl <;> rfl

/-- Between single quotes every character but the quote stands for itself. -/
theorem tokens_single {c : Char} (hc : c ≠ '\'') (w : Word) (cs : List Char) :
    tokens (.single w) (c :: cs) = tokens (.single (w ++ [⟨c, true⟩])) cs :=
  tokens_cons (by simp only [step, if_neg hc]) cs

/-- Out of the quotes, an escaped quote, and back. -/
theorem tokens_single_quote (w : Word) (cs : List Char) :
    tokens (.single w) ('\'' :: '\\' :: '\'' :: '\'' :: cs) = tokens (.single (w ++ [⟨'\'', true⟩])) cs := by
  rw [tokens_cons rfl, tokens_cons rfl, tokens_cons rfl, tokens_cons rfl]
  rfl

/-- **A word of quoted characters is only its text**: no reserved word, alias or assignment. -/
theorem quotedWord_inert (s : List Char) (names : List (List Char)) :
    (quotedWord s).isNamed names = false ∧ (quotedWord s).isAssignment = false := by
  cases s with
  | nil => exact ⟨rfl, rfl⟩
  | cons c s => exact ⟨rfl, rfl⟩

theorem quotedWord_expands (s : List Char) : (quotedWord s).expands = false := by
  have hpattern : ∀ c ∈ quotedWord s, c.quoted = true := by
    intro c hc
    obtain ⟨d, -, rfl⟩ := List.mem_map.1 hc
    rfl
  rw [Word.expands, Bool.or_eq_false_iff, List.any_eq_false, beq_eq_false_iff_ne]
  refine ⟨fun c hc => by simp [hpattern c hc], fun hhead => ?_⟩
  exact absurd (hpattern _ (List.mem_of_head? hhead)) (by decide)

end Shell
end SignalkDoctor
