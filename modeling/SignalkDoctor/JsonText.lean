import SignalkDoctor.Json
/-!
# JsonText — a codec on JSON texts with integer numbers

`print` is `JSON.stringify` with its two indentations, `parse` reads the text back.  Both facts of `JsonCodec` are
proved of them (`jsonText`): `value_print` is the round trip, by the size of the value, and `value_extend` says that a
parse that stops before the end of its text, or at a closing bracket, does not look further — so a proper prefix of an
object's text cannot be a whole text.
-/
namespace SignalkDoctor
namespace JsonText

/-! ## Printing -/

def hexDigit (n : Nat) : Char := if n < 10 then Char.ofNat (48 + n) else Char.ofNat (87 + n)

def escape (c : Char) : Text :=
  if c = '"' then ['\\', '"']
  else if c = '\\' then ['\\', '\\']
  else if c = '\n' then ['\\', 'n']
  else if c = '\r' then ['\\', 'r']
  else if c = '\t' then ['\\', 't']
  else if c = Char.ofNat 8 then ['\\', 'b']
  else if c = Char.ofNat 12 then ['\\', 'f']
  else if c.toNat < 32 then ['\\', 'u', '0', '0', hexDigit (c.toNat / 16), hexDigit (c.toNat % 16)]
  else [c]

def quote (s : String) : Text := '"' :: (s.toList.flatMap escape ++ ['"'])

/-- The break before an item, `indent` columns a level. -/
def newline (indent depth : Nat) : Text := if indent = 0 then [] else '\n' :: List.replicate (indent * depth) ' '

/-- What stands between the colon of a field and its value. -/
def gap (indent : Nat) : Text := if indent = 0 then [] else [' ']

def printInt (n : Int) : Text := if n < 0 then '-' :: Nat.toDigits 10 n.natAbs else Nat.toDigits 10 n.natAbs

mutual
def print (indent depth : Nat) : Json → Text
  | .null => ['n', 'u', 'l', 'l']
  | .bool true => ['t', 'r', 'u', 'e']
  | .bool false => ['f', 'a', 'l', 's', 'e']
  | .num n => printInt n
  | .str s => quote s
  | .arr [] => ['[', ']']
  | .arr (v :: vs) =>
    '[' :: (newline indent (depth + 1) ++ (print indent (depth + 1) v ++
      (printItems indent (depth + 1) vs ++ (newline indent depth ++ [']']))))
  | .obj [] => ['{', '}']
  | .obj ((k, v) :: fs) =>
    '{' :: (newline indent (depth + 1) ++ (quote k ++ (':' :: (gap indent ++ (print indent (depth + 1) v ++
      (printFields indent (depth + 1) fs ++ (newline indent depth ++ ['}'])))))))

def printItems (indent depth : Nat) : List Json → Text
  | [] => []
  | v :: vs => ',' :: (newline indent depth ++ (print indent depth v ++ printItems indent depth vs))

def printFields (indent depth : Nat) : List (String × Json) → Text
  | [] => []
  | (k, v) :: fs =>
    ',' :: (newline indent depth ++ (quote k ++ (':' :: (gap indent ++
      (print indent depth v ++ printFields indent depth fs)))))
end

/-! ## Parsing -/

def skipWs (s : Text) : Text := s.dropWhile isJsonSpace

def hexValue (c : Char) : Option Nat :=
  if c.isDigit then some (c.toNat - 48)
  else if 'a' ≤ c ∧ c ≤ 'f' then some (c.toNat - 87)
  else if 'A' ≤ c ∧ c ≤ 'F' then some (c.toNat - 55)
  else none

def hex4 (a b c d : Char) : Option Char := do
  let n := (((← hexValue a) * 16 + (← hexValue b)) * 16 + (← hexValue c)) * 16 + (← hexValue d)
  if n < 0xd800 ∨ 0xdfff < n then some (Char.ofNat n) else none

def unescape : Char → Option Char
  | '"' => some '"'
  | '\\' => some '\\'
  | '/' => some '/'
  | 'b' => some (Char.ofNat 8)
  | 'f' => some (Char.ofNat 12)
  | 'n' => some '\n'
  | 'r' => some '\r'
  | 't' => some '\t'
  | _ => none

def chars : Text → Option (List Char × Text)
  | [] => none
  | '"' :: r => some ([], r)
  | '\\' :: 'u' :: h1 :: h2 :: h3 :: h4 :: r =>
    (hex4 h1 h2 h3 h4).bind fun x => (chars r).map fun p => (x :: p.1, p.2)
  | '\\' :: e :: r => (unescape e).bind fun x => (chars r).map fun p => (x :: p.1, p.2)
  | c :: r => if c.toNat < 32 ∨ c = '\\' then none else (chars r).map fun p => (c :: p.1, p.2)

def digits (s : Text) : Option (Nat × Text) :=
  match s.takeWhile Char.isDigit with
  | [] => none
  | d :: ds => some (Nat.ofDigitChars 10 (d :: ds) 0, s.dropWhile Char.isDigit)

def word (w : Text) (v : Json) (s : Text) : Option (Json × Text) :=
  if w.isPrefixOf s then some (v, s.drop w.length) else none

/-- A repeated key keeps its first place and takes the last value. -/
def setKey (fs : List (String × Json)) (f : String × Json) : List (String × Json) :=
  if fs.any (fun g => g.1 == f.1) then fs.map (fun g => if g.1 == f.1 then f else g) else fs ++ [f]

mutual
def value : Nat → Text → Option (Json × Text)
  | 0, _ => none
  | n + 1, s =>
    match skipWs s with
    | [] => none
    | c :: r =>
      if c = '"' then (chars r).map fun p => (.str (String.ofList p.1), p.2)
      else if c = '[' then
        match skipWs r with
        | ']' :: r' => some (.arr [], r')
        | _ => (items n r).map fun p => (.arr p.1, p.2)
      else if c = '{' then
        match skipWs r with
        | '}' :: r' => some (.obj [], r')
        | _ => (fields n r).map fun p => (.obj (p.1.foldl setKey []), p.2)
      else if c = '-' then (digits r).map fun p => (.num (-(p.1 : Int)), p.2)
      else if c.isDigit then (digits (c :: r)).map fun p => (.num p.1, p.2)
      else if c = 'n' then word ['n', 'u', 'l', 'l'] .null (c :: r)
      else if c = 't' then word ['t', 'r', 'u', 'e'] (.bool true) (c :: r)
      else word ['f', 'a', 'l', 's', 'e'] (.bool false) (c :: r)

def items : Nat → Text → Option (List Json × Text)
  | 0, _ => none
  | n + 1, s =>
    (value n s).bind fun p =>
      match skipWs p.2 with
      | ',' :: r => (items n r).map fun q => (p.1 :: q.1, q.2)
      | ']' :: r => some ([p.1], r)
      | _ => none

def fields : Nat → Text → Option (List (String × Json) × Text)
  | 0, _ => none
  | n + 1, s =>
    match skipWs s with
    | '"' :: r =>
      (chars r).bind fun k =>
        match skipWs k.2 with
        | ':' :: r =>
          (value n r).bind fun p =>
            match skipWs p.2 with
            | ',' :: r => (fields n r).map fun q => ((String.ofList k.1, p.1) :: q.1, q.2)
            | '}' :: r => some ([(String.ofList k.1, p.1)], r)
            | _ => none
        | _ => none
    | _ => none
end

def parse (s : Text) : Option Json :=
  (value (s.length + 1) s).bind fun p => if p.2.all isJsonSpace then some p.1 else none

/-! ## The round trip -/

theorem hex4_control (n : Nat) (h : n < 32) :
    hex4 '0' '0' (hexDigit (n / 16)) (hexDigit (n % 16)) = some (Char.ofNat n) := by
  have : ∀ m, m < 32 → hex4 '0' '0' (hexDigit (m / 16)) (hexDigit (m % 16)) = some (Char.ofNat m) := by decide
  exact this n h

/-- A character that needs no escape stands for itself. -/
theorem chars_plain {c : Char} (hquote : c ≠ '"') (hslash : c ≠ '\\') (hcontrol : ¬ c.toNat < 32) (r : Text) :
    chars (c :: r) = (chars r).map fun p => (c :: p.1, p.2) := by
  rw [chars.eq_def]
  split
  case h_1 heq => cases heq
  case h_2 heq => exact absurd (List.cons.inj heq).1 hquote
  case h_3 heq => exact absurd (List.cons.inj heq).1 hslash
  case h_4 heq => exact absurd (List.cons.inj heq).1 hslash
  case h_5 heq =>
    obtain ⟨rfl, rfl⟩ := List.cons.inj heq
    rw [if_neg (not_or.2 ⟨hcontrol, hslash⟩)]

theorem chars_escape (c : Char) (r : Text) :
    chars (escape c ++ r) = (chars r).map fun p => (c :: p.1, p.2) := by
  unfold escape
  split
  · subst_vars; rfl
  split
  · subst_vars; rfl
  split
  · subst_vars; rfl
  split
  · subst_vars; rfl
  split
  · subst_vars; rfl
  split
  · subst_vars; rfl
  split
  · subst_vars; rfl
  split
  · rename_i h
    simp only [List.cons_append, List.nil_append, chars, hex4_control _ h, Option.bind_some, Char.ofNat_toNat]
  · rename_i hquote hslash _ _ _ _ _ h
    rw [List.cons_append, List.nil_append]
    exact chars_plain hquote hslash h r

theorem chars_quote : ∀ (cs : List Char) (r : Text), chars (cs.flatMap escape ++ '"' :: r) = some (cs, r)
  | [], r => rfl
  | c :: cs, r => by
    rw [List.flatMap_cons, List.append_assoc, chars_escape, chars_quote cs r]
    rfl

/-- What follows a number does not continue it. -/
def NoDigit (r : Text) : Prop := ∀ c ∈ r.head?, c.isDigit = false

theorem digits_print (n : Nat) (r : Text) (hr : NoDigit r) : digits (Nat.toDigits 10 n ++ r) = some (n, r) := by
  have hd : ∀ c ∈ Nat.toDigits 10 n, c.isDigit = true := fun c hc =>
    Nat.isDigit_of_mem_toDigits (by decide) (by decide) hc
  have htake : r.takeWhile Char.isDigit = [] ∧ r.dropWhile Char.isDigit = r := by
    cases r with
    | nil => exact ⟨rfl, rfl⟩
    | cons c r => simp [hr c rfl]
  unfold digits
  rw [List.takeWhile_append_of_pos hd, List.dropWhile_append_of_pos hd, htake.1, htake.2, List.append_nil]
  split
  · rename_i h
    exact absurd h Nat.toDigits_ne_nil
  · rename_i h
    rw [← h, Nat.ofDigitChars_ten_toDigits]

theorem skipWs_append (ws : Text) (c : Char) (r : Text) (hws : ws.all isJsonSpace = true) (hc : isJsonSpace c = false) :
    skipWs (ws ++ c :: r) = c :: r := by
  unfold skipWs
  rw [List.dropWhile_append_of_pos (List.all_eq_true.1 hws), List.dropWhile_cons_of_neg (by simp [hc])]

theorem skipWs_comma (r : Text) : skipWs (',' :: r) = ',' :: r := rfl

theorem skipWs_brace (r : Text) : skipWs ('{' :: r) = '{' :: r := rfl

theorem skipWs_colon (r : Text) : skipWs (':' :: r) = ':' :: r := rfl

theorem gap_all (indent : Nat) : (gap indent).all isJsonSpace = true := by
  unfold gap
  split <;> rfl

theorem newline_all (indent depth : Nat) : (newline indent depth).all isJsonSpace = true := by
  unfold newline
  split
  · rfl
  · simp [isJsonSpace]

theorem print_head (i d : Nat) (v : Json) : ∃ c t, print i d v = c :: t ∧ isJsonSpace c = false ∧ c ≠ ']' := by
  have hint : ∀ n : Int, ∃ c t, printInt n = c :: t ∧ isJsonSpace c = false ∧ c ≠ ']' := fun n => by
    unfold printInt
    split
    · exact ⟨'-', _, rfl, rfl, by decide⟩
    · cases h : Nat.toDigits 10 n.natAbs with
      | nil => exact absurd h Nat.toDigits_ne_nil
      | cons c t =>
        have hc : c.isDigit = true := Nat.isDigit_of_mem_toDigits (by decide) (by decide) (h ▸ List.mem_cons_self)
        refine ⟨c, t, rfl, ?_, by rintro rfl; cases hc⟩
        cases hs : isJsonSpace c with
        | false => rfl
        | true =>
          simp only [isJsonSpace, Bool.or_eq_true, beq_iff_eq] at hs
          rcases hs with ((rfl | rfl) | rfl) | rfl <;> cases hc
  match v with
  | .null => exact ⟨_, _, rfl, rfl, by decide⟩
  | .bool true => exact ⟨_, _, rfl, rfl, by decide⟩
  | .bool false => exact ⟨_, _, rfl, rfl, by decide⟩
  | .num n => rw [print]; exact hint n
  | .str s => exact ⟨_, _, rfl, rfl, by decide⟩
  | .arr [] => exact ⟨_, _, rfl, rfl, by decide⟩
  | .arr (_ :: _) => exact ⟨_, _, rfl, rfl, by decide⟩
  | .obj [] => exact ⟨_, _, rfl, rfl, by decide⟩
  | .obj (_ :: _) => exact ⟨_, _, rfl, rfl, by decide⟩

theorem setKey_fold : ∀ (fs acc : List (String × Json)), ((acc ++ fs).map Prod.fst).Nodup →
    fs.foldl setKey acc = acc ++ fs
  | [], acc, _ => by simp
  | f :: fs, acc, h => by
    have hf : ∀ g ∈ acc, ¬ g.1 = f.1 := fun g hg he => by
      rw [List.map_append, List.map_cons, List.nodup_append] at h
      exact h.2.2 g.1 (List.mem_map_of_mem hg) f.1 List.mem_cons_self he
    have hset : setKey acc f = acc ++ [f] := by
      unfold setKey
      rw [if_neg (by rw [Bool.not_eq_true, List.any_eq_false]; exact fun g hg => by simpa using hf g hg)]
    rw [List.foldl_cons, hset, setKey_fold fs (acc ++ [f]) (by simpa using h), List.append_assoc]
    rfl

mutual
/-- The calls a parse of the printed value nests. -/
def size : Json → Nat
  | .arr vs => 1 + sizeItems vs
  | .obj fs => 1 + sizeFields fs
  | _ => 1

def sizeItems : List Json → Nat
  | [] => 0
  | v :: vs => 1 + size v + sizeItems vs

def sizeFields : List (String × Json) → Nat
  | [] => 0
  | f :: fs => 1 + size f.2 + sizeFields fs
end

theorem noDigit_cons {c : Char} {r : Text} (h : c.isDigit = false) : NoDigit (c :: r) := by
  intro x hx
  cases hx
  exact h

/-- What follows an item of a list is a comma, a break or the closing bracket. -/
theorem noDigit_rest {i d : Nat} {c : Char} {r t : Text} (hc : c.isDigit = false)
    (ht : t = [] ∨ ∃ t', t = ',' :: t') : NoDigit (t ++ (newline i d ++ c :: r)) := by
  rcases ht with rfl | ⟨t', rfl⟩
  · unfold newline
    split
    · exact noDigit_cons hc
    · exact noDigit_cons (by decide)
  · exact noDigit_cons (by decide)

theorem printItems_head (i d : Nat) (vs : List Json) : printItems i d vs = [] ∨ ∃ t, printItems i d vs = ',' :: t := by
  cases vs
  · exact .inl rfl
  · exact .inr ⟨_, rfl⟩

theorem printFields_head (i d : Nat) (fs : List (String × Json)) :
    printFields i d fs = [] ∨ ∃ t, printFields i d fs = ',' :: t := by
  cases fs
  · exact .inl rfl
  · exact .inr ⟨_, rfl⟩

mutual
/-- **A printed value parses back**, whatever white space stands before it and whatever follows that does not continue
a number. -/
theorem value_print (i : Nat) : ∀ (v : Json) (d n : Nat) (ws r : Text), v.wf = true → size v ≤ n →
    ws.all isJsonSpace = true → NoDigit r → value n (ws ++ (print i d v ++ r)) = some (v, r)
  | v, d, 0, _, _, _, h, _, _ => by cases v <;> simp [size] at h
  | .null, d, n + 1, ws, r, _, _, hws, _ => by
    rw [value, print, List.cons_append, skipWs_append ws _ _ hws rfl]
    simp [word]
  | .bool true, d, n + 1, ws, r, _, _, hws, _ => by
    rw [value, print, List.cons_append, skipWs_append ws _ _ hws rfl]
    simp [word]
  | .bool false, d, n + 1, ws, r, _, _, hws, _ => by
    rw [value, print, List.cons_append, skipWs_append ws _ _ hws rfl]
    simp [word]
  | .num k, d, n + 1, ws, r, _, _, hws, hr => by
    have hdig := digits_print k.natAbs r hr
    rw [value, print, printInt]
    by_cases hk : k < 0
    · rw [if_pos hk, List.cons_append, skipWs_append ws _ _ hws rfl]
      simp only [Char.reduceEq, ↓reduceIte, hdig, Option.map_some, Option.some.injEq, Prod.mk.injEq,
        Json.num.injEq, and_true]
      omega
    · obtain ⟨c, t, hct, hsp, -⟩ := print_head i d (.num k)
      rw [print, printInt, if_neg hk] at hct
      have hc : c.isDigit = true := Nat.isDigit_of_mem_toDigits (by decide) (by decide) (hct ▸ List.mem_cons_self)
      have hne : ∀ x : Char, x.isDigit = false → ¬ c = x := fun x hx he => by rw [← he, hc] at hx; cases hx
      rw [hct, List.cons_append] at hdig
      rw [if_neg hk, hct, List.cons_append, skipWs_append ws _ _ hws hsp]
      simp only [hne '"' rfl, hne '[' rfl, hne '{' rfl, hne '-' rfl, hc, ↓reduceIte, hdig, Option.map_some,
        Option.some.injEq, Prod.mk.injEq, Json.num.injEq, and_true]
      omega
  | .str s, d, n + 1, ws, r, _, _, hws, _ => by
    rw [value, print, quote, List.cons_append, skipWs_append ws _ _ hws rfl]
    simp [chars_quote]
  | .arr [], d, n + 1, ws, r, _, _, hws, _ => by
    rw [value, print, List.cons_append, skipWs_append ws _ _ hws rfl]
    simp [skipWs, isJsonSpace]
  | .arr (v :: vs), d, n + 1, ws, r, hwf, hn, hws, _ => by
    simp only [Json.wf, Json.wfList, Bool.and_eq_true] at hwf
    simp only [size] at hn
    have hit := items_print i v vs (d + 1) d n (newline i (d + 1)) r hwf.1 hwf.2 (by omega) (newline_all ..)
    obtain ⟨c, t, hct, hsp, hc⟩ := print_head i (d + 1) v
    rw [value, print, List.cons_append, skipWs_append ws _ _ hws rfl]
    simp only [List.append_assoc, List.singleton_append, Char.reduceEq, ↓reduceIte, hit, Option.map_some]
    rw [hct, List.cons_append, skipWs_append _ _ _ (newline_all ..) hsp]
    split
    · rename_i h
      rw [List.cons.injEq] at h
      exact absurd h.1 hc
    · rfl
  | .obj [], d, n + 1, ws, r, _, _, hws, _ => by
    rw [value, print, List.cons_append, skipWs_append ws _ _ hws rfl]
    simp [skipWs, isJsonSpace]
  | .obj ((k, v) :: fs), d, n + 1, ws, r, hwf, hn, hws, _ => by
    simp only [Json.wf, Json.wfFields, Bool.and_eq_true, Json.keysOk, decide_eq_true_eq] at hwf
    simp only [size] at hn
    have hit := fields_print i k v fs (d + 1) d n (newline i (d + 1)) r hwf.2.1 hwf.2.2 (by omega) (newline_all ..)
    rw [value, print, List.cons_append, skipWs_append ws _ _ hws rfl]
    simp only [List.append_assoc, List.cons_append, List.nil_append, Char.reduceEq, ↓reduceIte, hit, Option.map_some,
      setKey_fold ((k, v) :: fs) [] hwf.1.1]
    rw [quote, List.cons_append, skipWs_append _ _ _ (newline_all ..) rfl]
    split
    · rename_i h
      simp at h
    · rfl
termination_by structural _ _ n => n

theorem items_print (i : Nat) : ∀ (v : Json) (vs : List Json) (d d' n : Nat) (ws r : Text), v.wf = true →
    Json.wfList vs = true → sizeItems (v :: vs) ≤ n → ws.all isJsonSpace = true →
    items n (ws ++ (print i d v ++ (printItems i d vs ++ (newline i d' ++ ']' :: r)))) = some (v :: vs, r)
  | v, vs, d, d', 0, _, _, _, _, h, _ => by simp only [sizeItems] at h; omega
  | v, [], d, d', n + 1, ws, r, hwf, _, hn, hws => by
    simp only [sizeItems] at hn
    rw [items, value_print i v d n ws _ hwf (by omega) hws (noDigit_rest (by decide) (printItems_head i d []))]
    simp only [printItems, List.nil_append, Option.bind_some]
    rw [skipWs_append _ _ _ (newline_all ..) rfl]
    rfl
  | v, v' :: vs, d, d', n + 1, ws, r, hwf, hwfs, hn, hws => by
    simp only [sizeItems] at hn
    simp only [Json.wfList, Bool.and_eq_true] at hwfs
    have hit := items_print i v' vs d d' n (newline i d) r hwfs.1 hwfs.2 (by simp only [sizeItems]; omega)
      (newline_all ..)
    rw [items, value_print i v d n ws _ hwf (by omega) hws (noDigit_rest (by decide) (printItems_head i d (v' :: vs)))]
    simp only [printItems, List.cons_append, List.append_assoc, Option.bind_some]
    simp only [skipWs_comma, hit, Option.map_some]
termination_by structural _ _ _ _ n => n

theorem fields_print (i : Nat) : ∀ (k : String) (v : Json) (fs : List (String × Json)) (d d' n : Nat) (ws r : Text),
    v.wf = true → Json.wfFields fs = true → sizeFields ((k, v) :: fs) ≤ n → ws.all isJsonSpace = true →
    fields n (ws ++ (quote k ++ (':' :: (gap i ++
      (print i d v ++ (printFields i d fs ++ (newline i d' ++ '}' :: r))))))) =
      some ((k, v) :: fs, r)
  | k, v, fs, d, d', 0, _, _, _, _, h, _ => by simp only [sizeFields] at h; omega
  | k, v, [], d, d', n + 1, ws, r, hwf, _, hn, hws => by
    simp only [sizeFields] at hn
    rw [fields, quote, List.cons_append, skipWs_append ws _ _ hws rfl]
    simp only [List.append_assoc, List.singleton_append, chars_quote, Option.bind_some, skipWs_colon]
    rw [value_print i v d n (gap i) _ hwf (by omega) (gap_all i) (noDigit_rest (by decide) (printFields_head i d []))]
    simp only [printFields, List.nil_append, Option.bind_some, String.ofList_toList]
    rw [skipWs_append _ _ _ (newline_all ..) rfl]
    rfl
  | k, v, (k', v') :: fs, d, d', n + 1, ws, r, hwf, hwfs, hn, hws => by
    simp only [sizeFields] at hn
    simp only [Json.wfFields, Bool.and_eq_true] at hwfs
    have hit := fields_print i k' v' fs d d' n (newline i d) r hwfs.1 hwfs.2 (by simp only [sizeFields]; omega)
      (newline_all ..)
    rw [fields, quote, List.cons_append, skipWs_append ws _ _ hws rfl]
    simp only [List.append_assoc, List.singleton_append, chars_quote, Option.bind_some, skipWs_colon]
    rw [value_print i v d n (gap i) _ hwf (by omega) (gap_all i)
      (noDigit_rest (by decide) (printFields_head i d ((k', v') :: fs)))]
    simp only [printFields, List.cons_append, List.append_assoc, Option.bind_some, String.ofList_toList, skipWs_comma,
      hit, Option.map_some]
termination_by structural _ _ _ _ _ n => n
end

/-! ## A parse does not look past its end -/

theorem chars_extend (t : Text) (s : Text) : ∀ {cs r}, chars s = some (cs, r) → chars (s ++ t) = some (cs, r ++ t) := by
  fun_induction chars s with
  | case1 => intro cs r h; cases h
  | case2 r' => intro cs r h; cases h; rfl
  | case3 h1 h2 h3 h4 r' ih =>
    intro cs r h
    simp only [Option.bind_eq_some_iff, Option.map_eq_some_iff, Prod.mk.injEq] at h
    obtain ⟨x, hx, p, hp, rfl, rfl⟩ := h
    simp only [List.cons_append, chars, hx, ih hp, Option.bind_some, Option.map_some]
  | case4 e r' hne ih =>
    intro cs r h
    simp only [Option.bind_eq_some_iff, Option.map_eq_some_iff, Prod.mk.injEq] at h
    obtain ⟨x, hx, p, hp, rfl, rfl⟩ := h
    have hu : e ≠ 'u' := by rintro rfl; cases hx
    have hrw : chars ('\\' :: e :: (r' ++ t)) =
        (unescape e).bind fun x => (chars (r' ++ t)).map fun p => (x :: p.1, p.2) := by
      rw [chars.eq_def]
      split
      · rename_i heq; cases heq
      · rename_i heq; simp at heq
      · rename_i heq; simp only [List.cons.injEq, true_and] at heq; exact absurd heq.1 hu
      · rename_i heq; simp only [List.cons.injEq, true_and] at heq; rw [heq.1, heq.2]
      · rename_i hbs heq
        simp only [List.cons.injEq] at heq
        exact absurd heq.2.symm (hbs _ _ heq.1.symm)
    simp only [List.cons_append, hrw, hx, ih hp, Option.bind_some, Option.map_some]
  | case5 => intro cs r h; cases h
  | case6 c r' hq _ _ hc ih =>
    intro cs r h
    simp only [Option.map_eq_some_iff, Prod.mk.injEq] at h
    obtain ⟨p, hp, rfl, rfl⟩ := h
    rw [not_or] at hc
    rw [List.cons_append, chars.eq_def]
    split <;> simp_all
    exact ih rfl

theorem skipWs_extend {s : Text} {c : Char} {r : Text} (t : Text) (h : skipWs s = c :: r) :
    skipWs (s ++ t) = c :: (r ++ t) := by
  unfold skipWs at *
  rw [List.dropWhile_append, h]
  rfl

theorem word_extend {w s : Text} {v v' : Json} {r : Text} (t : Text) (h : word w v s = some (v', r)) :
    word w v (s ++ t) = some (v', r ++ t) := by
  unfold word at *
  split at h
  · rename_i hp
    obtain ⟨u, rfl⟩ := List.isPrefixOf_iff_prefix.1 hp
    simp only [List.drop_left, Option.some.injEq, Prod.mk.injEq] at h
    obtain ⟨rfl, rfl⟩ := h
    simp
  · cases h

theorem digits_extend {s : Text} {n : Nat} {r : Text} (t : Text) (h : digits s = some (n, r)) (hr : r ≠ []) :
    digits (s ++ t) = some (n, r ++ t) := by
  unfold digits at *
  split at h
  · cases h
  · rename_i d ds hd
    simp only [Option.some.injEq, Prod.mk.injEq] at h
    obtain ⟨rfl, rfl⟩ := h
    have hlen : (s.takeWhile Char.isDigit).length ≠ s.length := fun he => by
      have := congrArg List.length (List.takeWhile_append_dropWhile (p := Char.isDigit) (l := s))
      rw [List.length_append, he] at this
      exact hr (List.length_eq_zero_iff.1 (by omega))
    rw [List.takeWhile_append, if_neg hlen, hd, List.dropWhile_append]
    simp [hr]

theorem value_nonblank {n : Nat} {s : Text} {p : Json × Text} (h : value n s = some p) :
    ∃ c u, skipWs s = c :: u := by
  cases n with
  | zero => cases h
  | succ n =>
    cases hs : skipWs s with
    | nil => rw [value, hs] at h; cases h
    | cons c u => exact ⟨c, u, rfl⟩

theorem items_nonblank {n : Nat} {s : Text} {p : List Json × Text} (h : items n s = some p) :
    ∃ c u, skipWs s = c :: u := by
  cases n with
  | zero => cases h
  | succ n =>
    rw [items] at h
    obtain ⟨q, hq, -⟩ := Option.bind_eq_some_iff.1 h
    exact value_nonblank hq

theorem fields_nonblank {n : Nat} {s : Text} {p : List (String × Json) × Text} (h : fields n s = some p) :
    ∃ c u, skipWs s = c :: u := by
  cases n with
  | zero => cases h
  | succ n =>
    cases hs : skipWs s with
    | nil => rw [fields, hs] at h; cases h
    | cons c u => exact ⟨c, u, rfl⟩

mutual
/-- **A parse that stops before the end of its text, or behind a closing bracket, does not see what follows.** -/
theorem value_extend (t : Text) : ∀ (n m : Nat) (s : Text) (v : Json) (r : Text), n ≤ m →
    value n s = some (v, r) → (r ≠ [] ∨ ∃ fs, v = .obj fs) → value m (s ++ t) = some (v, r ++ t)
  | 0, _, _, _, _, _, h, _ => by cases h
  | n + 1, m, s, v, r, hm, h, hr => by
    obtain ⟨m, rfl⟩ : ∃ m', m = m' + 1 := ⟨m - 1, by omega⟩
    rw [value] at h ⊢
    cases hs : skipWs s with
    | nil => rw [hs] at h; cases h
    | cons c s' =>
      rw [hs] at h
      rw [skipWs_extend t hs]
      simp only at h ⊢
      split at h
      · rename_i hc
        rw [if_pos hc]
        obtain ⟨p, hp, he⟩ := Option.map_eq_some_iff.1 h
        simp only [Prod.mk.injEq] at he
        rw [chars_extend t s' hp, Option.map_some, ← he.1, ← he.2]
      rename_i hc
      rw [if_neg hc]
      split at h
      · rename_i hc
        rw [if_pos hc]
        split at h
        · rename_i r' hs'
          cases h
          rw [skipWs_extend t hs']
          rfl
        · rename_i hne
          obtain ⟨p, hp, he⟩ := Option.map_eq_some_iff.1 h
          simp only [Prod.mk.injEq] at he
          obtain ⟨c', u, hu⟩ := items_nonblank hp
          rw [skipWs_extend t hu]
          split
          · rename_i heq
            rw [List.cons.injEq] at heq
            exact absurd (heq.1 ▸ hu) (hne u)
          · rw [items_extend t n m s' p.1 p.2 (by omega) hp, Option.map_some, ← he.1, ← he.2]
      rename_i hc
      rw [if_neg hc]
      split at h
      · rename_i hc
        rw [if_pos hc]
        split at h
        · rename_i r' hs'
          cases h
          rw [skipWs_extend t hs']
          rfl
        · rename_i hne
          obtain ⟨p, hp, he⟩ := Option.map_eq_some_iff.1 h
          simp only [Prod.mk.injEq] at he
          obtain ⟨c', u, hu⟩ := fields_nonblank hp
          rw [skipWs_extend t hu]
          split
          · rename_i heq
            rw [List.cons.injEq] at heq
            exact absurd (heq.1 ▸ hu) (hne u)
          · rw [fields_extend t n m s' p.1 p.2 (by omega) hp, Option.map_some, ← he.1, ← he.2]
      rename_i hc
      rw [if_neg hc]
      split at h
      · rename_i hc
        rw [if_pos hc]
        obtain ⟨p, hp, he⟩ := Option.map_eq_some_iff.1 h
        simp only [Prod.mk.injEq] at he
        have hr' : p.2 ≠ [] := he.2 ▸ hr.resolve_right (fun ⟨fs, hfs⟩ => by rw [hfs] at he; cases he.1)
        rw [digits_extend t hp hr', Option.map_some, ← he.1, ← he.2]
      rename_i hc
      rw [if_neg hc]
      split at h
      · rename_i hc
        rw [if_pos hc]
        obtain ⟨p, hp, he⟩ := Option.map_eq_some_iff.1 h
        simp only [Prod.mk.injEq] at he
        have hr' : p.2 ≠ [] := he.2 ▸ hr.resolve_right (fun ⟨fs, hfs⟩ => by rw [hfs] at he; cases he.1)
        rw [← List.cons_append, digits_extend t hp hr', Option.map_some, ← he.1, ← he.2]
      rename_i hc
      rw [if_neg hc, ← List.cons_append]
      split at h
      · rename_i hc; rw [if_pos hc, word_extend t h]
      rename_i hc
      rw [if_neg hc]
      split at h
      · rename_i hc; rw [if_pos hc, word_extend t h]
      · rename_i hc; rw [if_neg hc, word_extend t h]

theorem items_extend (t : Text) : ∀ (n m : Nat) (s : Text) (vs : List Json) (r : Text), n ≤ m →
    items n s = some (vs, r) → items m (s ++ t) = some (vs, r ++ t)
  | 0, _, _, _, _, _, h => by cases h
  | n + 1, m, s, vs, r, hm, h => by
    obtain ⟨m, rfl⟩ : ∃ m', m = m' + 1 := ⟨m - 1, by omega⟩
    rw [items] at h ⊢
    obtain ⟨p, hp, h⟩ := Option.bind_eq_some_iff.1 h
    have hne : p.2 ≠ [] := fun he => by rw [he] at h; cases h
    rw [value_extend t n m s p.1 p.2 (by omega) hp (.inl hne), Option.bind_some]
    simp only at h ⊢
    split at h
    · rename_i r' hs
      obtain ⟨q, hq, he⟩ := Option.map_eq_some_iff.1 h
      simp only [Prod.mk.injEq] at he
      rw [skipWs_extend t hs]
      simp only [items_extend t n m r' q.1 q.2 (by omega) hq, Option.map_some, ← he.1, ← he.2]
    · rename_i r' hs
      cases h
      rw [skipWs_extend t hs]
      rfl
    · cases h

theorem fields_extend (t : Text) : ∀ (n m : Nat) (s : Text) (fs : List (String × Json)) (r : Text), n ≤ m →
    fields n s = some (fs, r) → fields m (s ++ t) = some (fs, r ++ t)
  | 0, _, _, _, _, _, h => by cases h
  | n + 1, m, s, fs, r, hm, h => by
    obtain ⟨m, rfl⟩ : ∃ m', m = m' + 1 := ⟨m - 1, by omega⟩
    rw [fields] at h ⊢
    split at h
    · rename_i s' hs
      obtain ⟨k, hk, h⟩ := Option.bind_eq_some_iff.1 h
      rw [skipWs_extend t hs]
      simp only [chars_extend t s' hk, Option.bind_some]
      split at h
      · rename_i u hu
        obtain ⟨p, hp, h⟩ := Option.bind_eq_some_iff.1 h
        have hne : p.2 ≠ [] := fun he => by rw [he] at h; cases h
        rw [skipWs_extend t hu]
        simp only [value_extend t n m u p.1 p.2 (by omega) hp (.inl hne), Option.bind_some]
        split at h
        · rename_i r' hs
          obtain ⟨q, hq, he⟩ := Option.map_eq_some_iff.1 h
          simp only [Prod.mk.injEq] at he
          rw [skipWs_extend t hs]
          simp only [fields_extend t n m r' q.1 q.2 (by omega) hq, Option.map_some, ← he.1, ← he.2]
        · rename_i r' hs
          cases h
          rw [skipWs_extend t hs]
          rfl
        · cases h
      · cases h
    · cases h
end

/-! ## The codec -/

theorem length_digits (n : Nat) : 1 ≤ (Nat.toDigits 10 n).length :=
  List.length_pos_iff.2 Nat.toDigits_ne_nil

mutual
theorem size_le (i : Nat) : ∀ (v : Json) (d : Nat), size v ≤ (print i d v).length
  | .null, _ => by simp [size, print]
  | .bool true, _ => by simp [size, print]
  | .bool false, _ => by simp [size, print]
  | .num n, _ => by
    have := length_digits n.natAbs
    simp only [size, print, printInt]
    split
    · exact Nat.le_add_left 1 _
    · exact this
  | .str s, _ => by simp [size, print, quote]
  | .arr [], _ => by simp [size, sizeItems, print]
  | .arr (v :: vs), d => by
    have h1 := size_le i v (d + 1)
    have h2 := sizeItems_le i vs (d + 1)
    simp only [size, sizeItems, print, List.length_cons, List.length_append, List.length_nil]
    omega
  | .obj [], _ => by simp [size, sizeFields, print]
  | .obj ((k, v) :: fs), d => by
    have h1 := size_le i v (d + 1)
    have h2 := sizeFields_le i fs (d + 1)
    simp only [size, sizeFields, print, List.length_cons, List.length_append, List.length_nil]
    omega

theorem sizeItems_le (i : Nat) : ∀ (vs : List Json) (d : Nat), sizeItems vs ≤ (printItems i d vs).length
  | [], _ => by simp [sizeItems]
  | v :: vs, d => by
    have h1 := size_le i v d
    have h2 := sizeItems_le i vs d
    simp only [sizeItems, printItems, List.length_cons, List.length_append]
    omega

theorem sizeFields_le (i : Nat) : ∀ (fs : List (String × Json)) (d : Nat), sizeFields fs ≤ (printFields i d fs).length
  | [], _ => by simp [sizeFields]
  | (k, v) :: fs, d => by
    have h1 := size_le i v d
    have h2 := sizeFields_le i fs d
    simp only [sizeFields, printFields, List.length_cons, List.length_append]
    omega
end

theorem print_obj_head (i d : Nat) (fs : List (String × Json)) : ∃ u, print i d (.obj fs) = '{' :: u := by
  cases fs
  · exact ⟨_, rfl⟩
  · exact ⟨_, rfl⟩

theorem parse_print (i : Nat) (v : Json) (ws : Text) (hwf : v.wf = true) (hws : ws.all isJsonSpace = true) :
    parse (print i 0 v ++ ws) = some v := by
  have hnd : NoDigit ws := fun c hc => by
    have hsp : isJsonSpace c = true := List.all_eq_true.1 hws c (List.mem_of_mem_head? hc)
    simp only [isJsonSpace, Bool.or_eq_true, beq_iff_eq] at hsp
    rcases hsp with ((rfl | rfl) | rfl) | rfl <;> decide
  have hsz := size_le i v 0
  have := value_print i v 0 ((print i 0 v ++ ws).length + 1) [] ws hwf (by rw [List.length_append]; omega) rfl hnd
  rw [List.nil_append] at this
  unfold parse
  rw [this, Option.bind_some, if_pos hws]

theorem parse_print_prefix (fs : List (String × Json)) (p : Text) (hwf : (Json.obj fs).wf = true)
    (hp : p <+: print 0 0 (.obj fs)) (hne : p ≠ print 0 0 (.obj fs)) : parse p = none := by
  obtain ⟨t, ht⟩ := hp
  cases h : parse p with
  | none => rfl
  | some v =>
    exfalso
    unfold parse at h
    obtain ⟨⟨w, r⟩, hv, hr⟩ := Option.bind_eq_some_iff.1 h
    -- a text that opens as an object parses to one
    have hobj : ∃ gs, w = .obj gs := by
      obtain ⟨c, u, hu⟩ := value_nonblank hv
      have hc : c = '{' := by
        have hext := skipWs_extend t hu
        obtain ⟨u', hu'⟩ := print_obj_head 0 0 fs
        rw [ht, hu', skipWs_brace, List.cons.injEq] at hext
        exact hext.1.symm
      rw [value, hu, hc] at hv
      simp only [Char.reduceEq, ↓reduceIte] at hv
      split at hv
      · cases hv; exact ⟨_, rfl⟩
      · obtain ⟨q, -, he⟩ := Option.map_eq_some_iff.1 hv
        cases he; exact ⟨_, rfl⟩
    have hlong := value_extend t _ ((print 0 0 (.obj fs)).length + 1) p w r
      (by have := congrArg List.length ht; rw [List.length_append] at this; omega) hv (.inr hobj)
    have hsz := size_le 0 (.obj fs) 0
    have hfull := value_print 0 (.obj fs) 0 ((print 0 0 (.obj fs)).length + 1) [] [] hwf (by omega) rfl
      (fun c hc => by cases hc)
    rw [List.nil_append, List.append_nil] at hfull
    rw [ht, hfull, Option.some.injEq, Prod.mk.injEq] at hlong
    have : t = [] := (List.append_eq_nil_iff.1 hlong.2.symm).2
    rw [this, List.append_nil] at ht
    exact hne ht

end JsonText

/-- **The codec on JSON texts.** -/
def jsonText : JsonCodec where
  parse := JsonText.parse
  stringify := fun i v => JsonText.print i 0 v
  parse_stringify := JsonText.parse_print
  parse_prefix := JsonText.parse_print_prefix

end SignalkDoctor
