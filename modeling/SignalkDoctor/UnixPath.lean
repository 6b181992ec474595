/-!
# UnixPath — absolute paths as text

A path is the names from the root down; `render` writes it out and `segments` reads it back.  `normalize` and `join` are
those of the `path` module, on any text; on absolute paths without dots they are the append (`join_render`).
-/
namespace SignalkDoctor
namespace UnixPath

/-- The name of a directory entry. -/
structure Name where
  text : List Char
  ne_nil : text ≠ []
  no_slash : '/' ∉ text
  no_dots : text ≠ ['.'] ∧ text ≠ ['.', '.']
  deriving DecidableEq

abbrev Path := List Name

def slashed (p : Path) : List Char := p.flatMap (fun n => '/' :: n.text)

def endSlash (slash : Bool) : List Char := if slash then ['/'] else []

/-- A path, with a slash at its end or not; the root is its slash. -/
def render (p : Path) (slash : Bool) : List Char := if p = [] then ['/'] else slashed p ++ endSlash slash

def segments (t : List Char) : List (List Char) := (t.splitOn '/').filter (fun s => s ≠ [])

/-! ## `node:path` -/

/-- One segment in `normalizeString`; the segments kept so far are last first. -/
def keepSegment (aboveRoot : Bool) (kept : List (List Char)) (s : List Char) : List (List Char) :=
  if s = [] ∨ s = ['.'] then kept
  else if s = ['.', '.'] then
    match kept with
    | [] => if aboveRoot then [s] else []
    | top :: rest => if top ≠ ['.', '.'] then rest else if aboveRoot then s :: kept else kept
  else s :: kept

def normalizeString (aboveRoot : Bool) (t : List Char) : List Char :=
  ['/'].intercalate ((t.splitOn '/').foldl (keepSegment aboveRoot) []).reverse

def normalize (t : List Char) : List Char :=
  if t = [] then ['.']
  else
    let isAbsolute := decide (t.head? = some '/')
    let trailingSeparator := decide (t.getLast? = some '/')
    let kept := normalizeString (!isAbsolute) t
    if kept = [] then if isAbsolute then ['/'] else '.' :: endSlash trailingSeparator
    else endSlash isAbsolute ++ kept ++ endSlash trailingSeparator

def join (a b : List Char) : List Char :=
  if a = [] then normalize b else if b = [] then normalize a else normalize (a ++ '/' :: b)

/-! ## Reading a path back -/

theorem slashed_append (p q : Path) : slashed (p ++ q) = slashed p ++ slashed q := List.flatMap_append

theorem slashed_cons (n : Name) (p : Path) : slashed (n :: p) = '/' :: (n.text ++ slashed p) := by
  rw [slashed, List.flatMap_cons, List.cons_append]
  rfl

theorem map_text_inj {p q : Path} (h : p.map Name.text = q.map Name.text) : p = q := by
  refine List.map_inj_right (fun a b hab => ?_) |>.1 h
  cases a
  cases b
  cases hab
  rfl

theorem segments_append_slash (s t : List Char) : segments (s ++ '/' :: t) = segments s ++ segments t := by
  rw [segments, List.splitOn_append_cons_self, List.filter_append]
  rfl

theorem segments_slash (t : List Char) : segments ('/' :: t) = segments t := segments_append_slash [] t

theorem segments_name (n : Name) : segments n.text = [n.text] := by
  rw [segments, List.splitOn_eq_singleton n.no_slash]
  simp [n.ne_nil]

theorem segments_slashed : ∀ p : Path, segments (slashed p) = p.map Name.text
  | [] => rfl
  | [n] => by
    rw [slashed_cons, segments_slash]
    simpa [slashed] using segments_name n
  | n :: m :: p => by
    have ih := segments_slashed (m :: p)
    rw [slashed_cons, segments_slash]
    rw [slashed_cons] at ih ⊢
    rw [segments_append_slash, segments_name, ← segments_slash, ih]
    rfl

theorem segments_slashed_endSlash (p : Path) (slash : Bool) :
    segments (slashed p ++ endSlash slash) = p.map Name.text := by
  cases slash with
  | false => rw [endSlash, if_neg Bool.false_ne_true, List.append_nil, segments_slashed]
  | true =>
    rw [endSlash, if_pos rfl, segments_append_slash, segments_slashed]
    exact List.append_nil _

@[simp] theorem segments_render (p : Path) (slash : Bool) : segments (render p slash) = p.map Name.text := by
  rw [render]
  split
  · rename_i h
    rw [h]
    rfl
  · exact segments_slashed_endSlash p slash

/-- **Paths written alike are the same.** -/
theorem render_inj {p q : Path} {s s' : Bool} (h : render p s = render q s') : p = q := by
  have hseg := congrArg segments h
  rw [segments_render, segments_render] at hseg
  exact map_text_inj hseg

theorem render_nil (slash : Bool) : render [] slash = ['/'] := if_pos rfl

theorem render_of_ne_nil {p : Path} (h : p ≠ []) (slash : Bool) : render p slash = slashed p ++ endSlash slash := if_neg h

theorem render_false {p : Path} (h : p ≠ []) : render p false = slashed p := by
  rw [render_of_ne_nil h]
  exact List.append_nil _

theorem render_ne_nil (p : Path) (slash : Bool) : render p slash ≠ [] := by
  cases p with
  | nil => simp [render]
  | cons n p => simp [render, slashed_cons]

theorem head?_render (p : Path) (slash : Bool) : (render p slash).head? = some '/' := by
  cases p with
  | nil => rfl
  | cons n p => simp [render, slashed_cons]

theorem getLast?_append_of_ne_nil {α : Type} (s : List α) {t : List α} (ht : t ≠ []) :
    (s ++ t).getLast? = t.getLast? := by
  rw [List.getLast?_append, List.getLast?_eq_some_getLast ht, Option.some_or]

theorem getLast?_slashed : ∀ {p : Path}, p ≠ [] → (slashed p).getLast? ≠ some '/'
  | [n], _ => by
    intro h
    rw [slashed_cons, show slashed [] = [] from rfl, List.append_nil, List.getLast?_cons,
      List.getLast?_eq_some_getLast n.ne_nil, Option.getD_some, Option.some.injEq] at h
    exact n.no_slash (h ▸ List.getLast_mem n.ne_nil)
  | n :: m :: p, _ => by
    have ih := getLast?_slashed (List.cons_ne_nil m p)
    have hne : slashed (m :: p) ≠ [] := by simp [slashed_cons]
    rw [slashed_cons n, ← List.cons_append, getLast?_append_of_ne_nil _ hne]
    exact ih

theorem getLast?_slashed_endSlash {p : Path} {slash : Bool} (h : slashed p ++ endSlash slash ≠ []) :
    decide ((slashed p ++ endSlash slash).getLast? = some '/') = slash := by
  cases slash with
  | true => simp [endSlash]
  | false =>
    have hp : p ≠ [] := by
      intro hp
      rw [hp] at h
      exact h rfl
    rw [endSlash, if_neg Bool.false_ne_true, List.append_nil]
    exact decide_eq_false (getLast?_slashed hp)

/-- Only the root ends in its slash. -/
theorem getLast?_render_false (p : Path) : (render p false).getLast? = some '/' ↔ p = [] := by
  constructor
  · intro h
    refine Decidable.byContradiction (fun hp => getLast?_slashed hp ?_)
    rwa [render_false hp] at h
  · rintro rfl
    rfl

/-! ## Joining -/

theorem keepSegment_name (aboveRoot : Bool) (kept : List (List Char)) (n : Name) :
    keepSegment aboveRoot kept n.text = n.text :: kept := by
  unfold keepSegment
  rw [if_neg (fun h => h.elim n.ne_nil n.no_dots.1), if_neg n.no_dots.2]

/-- The empty segments are skipped. -/
theorem foldl_keepSegment_filter (aboveRoot : Bool) : ∀ (l : List (List Char)) (kept : List (List Char)),
    l.foldl (keepSegment aboveRoot) kept = (l.filter (fun s => s ≠ [])).foldl (keepSegment aboveRoot) kept
  | [], _ => rfl
  | s :: l, kept => by
    rw [List.foldl_cons, foldl_keepSegment_filter aboveRoot l]
    by_cases hs : s = []
    · subst hs
      rfl
    · rw [List.filter_cons_of_pos (by simpa using hs), List.foldl_cons]

theorem foldl_keepSegment_path (aboveRoot : Bool) : ∀ (p : Path) (kept : List (List Char)),
    (p.map Name.text).foldl (keepSegment aboveRoot) kept = (p.map Name.text).reverse ++ kept
  | [], _ => rfl
  | n :: p, kept => by
    rw [List.map_cons, List.foldl_cons, keepSegment_name, foldl_keepSegment_path aboveRoot p, List.reverse_cons,
      List.append_assoc]
    rfl

theorem normalizeString_eq (aboveRoot : Bool) {t : List Char} {p : Path} (h : segments t = p.map Name.text) :
    normalizeString aboveRoot t = ['/'].intercalate (p.map Name.text) := by
  rw [normalizeString, foldl_keepSegment_filter]
  rw [segments] at h
  rw [h, foldl_keepSegment_path, List.append_nil, List.reverse_reverse]

theorem slash_intercalate : ∀ {p : Path}, p ≠ [] → '/' :: ['/'].intercalate (p.map Name.text) = slashed p
  | [n], _ => by simp [slashed, List.intercalate]
  | n :: m :: p, _ => by
    have ih := slash_intercalate (List.cons_ne_nil m p)
    rw [slashed_cons, ← ih]
    simp [List.intercalate]

/-- **Normalising an absolute text without dots drops its repeated slashes.** -/
theorem normalize_eq {t : List Char} {p : Path} (ht : t.head? = some '/') (h : segments t = p.map Name.text) :
    normalize t = render p (decide (t.getLast? = some '/')) := by
  have hne : t ≠ [] := by
    rintro rfl
    cases ht
  simp only [normalize, if_neg hne, ht, decide_true, normalizeString_eq _ h]
  cases p with
  | nil => simp [List.intercalate, render]
  | cons n p =>
    have hkept := slash_intercalate (List.cons_ne_nil n p)
    have hsome : ['/'].intercalate ((n :: p).map Name.text) ≠ [] := by
      intro hnil
      rw [hnil, slashed_cons] at hkept
      have := List.append_eq_nil_iff.1 (List.cons.inj hkept).2.symm
      exact n.ne_nil this.1
    rw [if_neg hsome, render_of_ne_nil (List.cons_ne_nil n p), ← hkept]
    rfl

/-- **Joining appends the names.** -/
theorem join_render (r q : Path) {t : List Char} (ht : t ≠ []) (h : segments t = q.map Name.text) :
    join (render r false) t = render (r ++ q) (decide (t.getLast? = some '/')) := by
  have hhead : (render r false ++ '/' :: t).head? = some '/' := by
    rw [List.head?_append, head?_render]
    rfl
  have hseg : segments (render r false ++ '/' :: t) = (r ++ q).map Name.text := by
    rw [segments_append_slash, segments_render, h, List.map_append]
  have hlast : (render r false ++ '/' :: t).getLast? = t.getLast? := by
    rw [getLast?_append_of_ne_nil _ (List.cons_ne_nil '/' t), List.getLast?_cons,
      List.getLast?_eq_some_getLast ht, Option.getD_some]
  rw [join, if_neg (render_ne_nil r false), if_neg ht, normalize_eq hhead hseg, hlast]

/-! ## Base names -/

def basename (t : List Char) : List Char := ((segments t).getLast?).getD []

theorem basename_name (n : Name) : basename n.text = n.text := by
  rw [basename, segments_name]
  rfl

theorem basename_append_slash (s : List Char) (n : Name) : basename (s ++ '/' :: n.text) = n.text := by
  rw [basename, segments_append_slash, segments_name, List.getLast?_append]
  rfl

theorem intercalate_concat : ∀ (L : List (List Char)) (x : List Char),
    ['/'].intercalate (L ++ [x]) = x ∨ ∃ s, ['/'].intercalate (L ++ [x]) = s ++ '/' :: x
  | [], x => .inl (by simp [List.intercalate])
  | a :: L, x => by
    have hcons : ['/'].intercalate (a :: (L ++ [x])) = a ++ '/' :: ['/'].intercalate (L ++ [x]) := by
      cases L <;> simp [List.intercalate]
    rcases intercalate_concat L x with h | ⟨s, h⟩
    · exact .inr ⟨a, by rw [List.cons_append, hcons, h]⟩
    · exact .inr ⟨a ++ '/' :: s, by rw [List.cons_append, hcons, h]; simp⟩

/-- The last name of a text stays its last under `normalize`. -/
theorem basename_normalize {t : List Char} {l : List (List Char)} (n : Name) (hsplit : t.splitOn '/' = l ++ [n.text])
    (hlast : t.getLast? ≠ some '/') (hne : t ≠ []) : basename (normalize t) = n.text := by
  have hfold : ∀ aboveRoot, (t.splitOn '/').foldl (keepSegment aboveRoot) [] =
      n.text :: l.foldl (keepSegment aboveRoot) [] := fun aboveRoot => by
    rw [hsplit, List.foldl_append, List.foldl_cons, List.foldl_nil, keepSegment_name]
  simp only [normalize, if_neg hne, hlast, decide_false, normalizeString, hfold, List.reverse_cons, endSlash,
    Bool.false_eq_true, if_false, List.append_nil]
  generalize (l.foldl (keepSegment (!decide (t.head? = some '/'))) []).reverse = L
  rcases intercalate_concat L n.text with h | ⟨s, h⟩
  · rw [h, if_neg n.ne_nil]
    split
    · exact basename_append_slash [] n
    · exact basename_name n
  · rw [h, if_neg (by simp)]
    rw [← List.append_assoc]
    exact basename_append_slash _ n

/-- **Joining a name makes it the base name.** -/
theorem basename_join (a : List Char) (n : Name) : basename (join a n.text) = n.text := by
  have hends : n.text.getLast? ≠ some '/' := fun h => n.no_slash (List.mem_of_getLast? h)
  have hname : n.text.splitOn '/' = [n.text] := List.splitOn_eq_singleton n.no_slash
  rw [join, if_neg n.ne_nil]
  split
  · exact basename_normalize (l := []) n hname hends n.ne_nil
  · have hsplit : (a ++ '/' :: n.text).splitOn '/' = a.splitOn '/' ++ [n.text] := by
      rw [List.splitOn_append_cons_self, hname]
    have hlast : (a ++ '/' :: n.text).getLast? ≠ some '/' := by
      rw [getLast?_append_of_ne_nil _ (List.cons_ne_nil '/' n.text), List.getLast?_cons,
        List.getLast?_eq_some_getLast n.ne_nil, Option.getD_some]
      rwa [List.getLast?_eq_some_getLast n.ne_nil] at hends
    exact basename_normalize n hsplit hlast (by simp)

/-! ## Parents -/

def dirname (t : List Char) : List Char :=
  -- read from the end: the slash before the last name, and what is before it
  let before := (t.reverse.dropWhile (fun c => c = '/')).dropWhile (fun c => c ≠ '/')
  let hasRoot := decide (t.head? = some '/')
  if before.length ≤ 1 then if hasRoot then ['/'] else ['.']
  else if hasRoot ∧ before.length = 2 then ['/', '/']
  else before.tail.reverse

/-- `resolve(a, b)` in the directory `cwd`: from the right, up to the first path that is absolute. -/
def resolve (cwd a b : List Char) : List Char :=
  let resolvedPath :=
    if b.head? = some '/' then b else if a.head? = some '/' then a ++ '/' :: b else cwd ++ '/' :: (a ++ '/' :: b)
  let isAbsolute := decide (resolvedPath.head? = some '/')
  let kept := normalizeString (!isAbsolute) resolvedPath
  if isAbsolute then '/' :: kept else if kept = [] then ['.'] else kept

theorem two_le_length_slashed : ∀ {p : Path}, p ≠ [] → 2 ≤ (slashed p).length
  | n :: p, _ => by
    have := List.length_pos_iff.2 n.ne_nil
    rw [slashed_cons, List.length_cons, List.length_append]
    omega

theorem dropWhile_reverse_text (n : Name) (rest : List Char) :
    (n.text.reverse ++ rest).dropWhile (fun c => c = '/') = n.text.reverse ++ rest := by
  cases h : n.text.reverse with
  | nil => exact absurd (List.reverse_eq_nil_iff.1 h) n.ne_nil
  | cons c cs =>
    have hc : c ≠ '/' := by
      rintro rfl
      exact n.no_slash (List.mem_reverse.1 (h ▸ List.mem_cons_self ..))
    rw [List.cons_append, List.dropWhile_cons_of_neg (by simpa using hc)]

/-- **The parent of a path loses its last name.** -/
theorem dirname_render (p : Path) (n : Name) : dirname (render (p ++ [n]) false) = render p false := by
  have htext : render (p ++ [n]) false = slashed p ++ '/' :: n.text := by
    rw [render_false (by simp), slashed_append, slashed_cons]
    simp [slashed]
  have hbefore : ((slashed p ++ '/' :: n.text).reverse.dropWhile (fun c => c = '/')).dropWhile (fun c => c ≠ '/') =
      '/' :: (slashed p).reverse := by
    rw [List.reverse_append, List.reverse_cons, List.append_assoc, dropWhile_reverse_text, List.dropWhile_append_of_pos]
    · rfl
    · intro c hc
      simpa using fun h : c = '/' => n.no_slash (h ▸ List.mem_reverse.1 hc)
  have hhead : (slashed p ++ '/' :: n.text).head? = some '/' := by
    rw [← htext]
    exact head?_render (p ++ [n]) false
  simp only [dirname, htext, hbefore, hhead, decide_true, if_true, List.length_cons, List.length_reverse, List.tail_cons,
    List.reverse_reverse, true_and]
  by_cases hp : p = []
  · subst hp
    rfl
  · have hlength := two_le_length_slashed hp
    rw [if_neg (by omega), if_neg (by omega), render_false hp]

/-- A `..` drops the last name kept. -/
theorem foldl_keepSegment_up (aboveRoot : Bool) : ∀ (up : Path) (kept : List (List Char)),
    (List.replicate up.length ['.', '.']).foldl (keepSegment aboveRoot) (up.map Name.text ++ kept) = kept
  | [], _ => rfl
  | n :: up, kept => by
    rw [List.length_cons, List.replicate_succ, List.foldl_cons, List.map_cons, List.cons_append, keepSegment,
      if_neg (by decide), if_pos rfl]
    simp only [if_pos n.no_dots.2, foldl_keepSegment_up aboveRoot up]

/-- **A relative path climbs and descends** from the directory it is resolved in. -/
theorem resolve_up (cwd : List Char) (s up q : Path) {t : List Char} (ht : t.head? ≠ some '/')
    (h : segments t = List.replicate up.length ['.', '.'] ++ q.map Name.text) :
    resolve cwd (render (s ++ up) false) t = render (s ++ q) false := by
  have hhead : (render (s ++ up) false ++ '/' :: t).head? = some '/' := by
    rw [List.head?_append, head?_render]
    rfl
  have hkept : normalizeString false (render (s ++ up) false ++ '/' :: t) = ['/'].intercalate ((s ++ q).map Name.text) := by
    have hseg : ((render (s ++ up) false ++ '/' :: t).splitOn '/').filter (fun s => s ≠ []) =
        (s ++ up).map Name.text ++ (List.replicate up.length ['.', '.'] ++ q.map Name.text) := by
      have := segments_append_slash (render (s ++ up) false) t
      rwa [segments_render, h] at this
    have hup := foldl_keepSegment_up false up.reverse (s.map Name.text).reverse
    rw [List.length_reverse, List.map_reverse, ← List.reverse_append, ← List.map_append] at hup
    rw [normalizeString, foldl_keepSegment_filter, hseg, List.foldl_append, List.foldl_append,
      foldl_keepSegment_path false (s ++ up), List.append_nil, hup, foldl_keepSegment_path]
    simp
  simp only [resolve, if_neg ht, head?_render, if_true, hhead, decide_true, Bool.not_true, hkept]
  by_cases hp : s ++ q = []
  · rw [hp]
    rfl
  · rw [slash_intercalate hp, render_false hp]

end UnixPath
end SignalkDoctor
