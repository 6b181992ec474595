import Mathlib.Data.List.DropRight
import Mathlib.Data.List.TakeWhile
import SignalkDoctor.Json
import SignalkDoctor.JsString
/-!
# Quadlet — the `Image=` line of a unit file (`src/quadlet/rewriter.ts`, `src/probes/version-drift.ts`)

A unit file is a text; the rewriter sets the image of its first `Image=` line and the version probe reads it back.
`rewriteImageLine_laws` are the laws of the two: what is read after a rewrite, that a later rewrite leaves no trace of an
earlier one, and when the rewrite of the old image is the old text again.
-/
namespace SignalkDoctor
namespace Quadlet

open JsString (isLineEnd isSpace)

/-- `s.split('\n')` -/
def lines (t : Text) : List Text := t.splitOn '\n'

def trimEnd (t : Text) : Text := t.rdropWhile isSpace

def trim (t : Text) : Text := trimEnd (t.dropWhile isSpace)

/-! ## The rewriter -/

/-- What follows `Image`, in whatever case, at the start of a text. -/
def imageKey : Text → Option Text
  | a :: b :: c :: d :: e :: rest => if [a, b, c, d, e].map Char.toLower = ['i', 'm', 'a', 'g', 'e'] then some rest else none
  | _ => none

/-- What follows `Image\s*=` at the start of a text. -/
def imageAssignment (t : Text) : Option Text :=
  match imageKey t with
  | none => none
  | some rest =>
    match rest.dropWhile isSpace with
    | '=' :: rest => some rest
    | _ => none

/-- `line.match(/^(\s*)Image\s*=\s*(.*)$/i)`: the two groups; the second holds no line terminator. -/
def matchImage (line : Text) : Option (Text × Text) :=
  match imageAssignment (line.dropWhile isSpace) with
  | none => none
  | some rest =>
    let value := rest.dropWhile isSpace
    if value.any isLineEnd then none else some (line.takeWhile isSpace, value)

/-- The two tests of a line in the loop. -/
def imageLine (line : Text) : Option (Text × Text) :=
  if (imageAssignment (trim line)).isSome then matchImage line else none

def imageText : Text := ['I', 'm', 'a', 'g', 'e', '=']

/-- The loop up to the first line it rewrites: the lines after it and the image it held. -/
def rewriteLines (newImage : Text) : List Text → Option (List Text × Text)
  | [] => none
  | line :: rest =>
    match imageLine line with
    | some (indent, value) => some ((indent ++ imageText ++ newImage) :: rest, trim value)
    | none => (rewriteLines newImage rest).map (fun r => (line :: r.1, r.2))

/-- `rewriteImageLine`: the text after, and the previous image. -/
def rewriteImageLine (body newImage : Text) : Except String (Text × Text) :=
  match rewriteLines newImage (lines body) with
  | none => .error "Image= line not found in Quadlet"
  | some (rewritten, previous) => .ok (['\n'].intercalate rewritten, previous)

/-! ## The reader of the version probe -/

def dropCr (line : Text) : Text := if line.getLast? = some '\r' then line.dropLast else line

/-- `t.split(/\r?\n/)` -/
def crlfLines (t : Text) : List Text := (lines t).dropLast.map dropCr ++ (lines t).getLast?.toList

/-- What `readQuadletImage` takes from a line. -/
def imageOfLine (line : Text) : Option Text :=
  if imageText.isPrefixOf (trim line) then some (trim ((trim line).drop imageText.length)) else none

/-- `readQuadletImage` of the text of the file, `none` for one it cannot read. -/
def readQuadletImage (file : Option Text) : Option Text := file.bind (fun t => (crlfLines t).findSome? imageOfLine)

/-! ## Lines -/

/-- A line is a piece of the text that holds no line feed. -/
theorem of_mem_lines : ∀ {t line : Text}, line ∈ lines t → ∀ c ∈ line, c ∈ t ∧ c ≠ '\n'
  | [], line, h => by
    rw [lines, List.splitOn_nil, List.mem_singleton] at h
    simp [h]
  | a :: t, line, h => by
    obtain ⟨first, rest, hsplit⟩ := List.exists_cons_of_ne_nil (List.splitOn_ne_nil '\n' t)
    have htail : ∀ l ∈ first :: rest, ∀ c ∈ l, c ∈ a :: t ∧ c ≠ '\n' := by
      intro l hl c hc
      have := of_mem_lines (t := t) (by rw [lines, hsplit]; exact hl) c hc
      exact ⟨List.mem_cons_of_mem a this.1, this.2⟩
    rw [lines, List.splitOn_cons_eq_if_modifyHead, hsplit] at h
    by_cases ha : a = '\n'
    · simp only [ha, beq_self_eq_true, if_true, List.mem_cons] at h
      rcases h with rfl | h
      · simp
      · exact htail line (List.mem_cons.2 h)
    · have hne : (a == '\n') = false := by simpa using ha
      simp only [hne, Bool.false_eq_true, if_false, List.modifyHead_cons, List.mem_cons] at h
      rcases h with rfl | h
      · intro c hc
        rcases List.mem_cons.1 hc with rfl | hc
        · exact ⟨List.mem_cons_self .., ha⟩
        · exact htail first (List.mem_cons_self ..) c hc
      · exact htail line (List.mem_cons_of_mem first h)

theorem lines_ne_nil (t : Text) : lines t ≠ [] := List.splitOn_ne_nil _ _

theorem lines_intercalate {ls : List Text} (hls : ls ≠ []) (h : ∀ l ∈ ls, '\n' ∉ l) : lines (['\n'].intercalate ls) = ls :=
  List.splitOn_intercalate '\n' h hls

theorem intercalate_lines (t : Text) : ['\n'].intercalate (lines t) = t := List.intercalate_splitOn '\n'

/-! ## A line and its image -/

/-- Trimming the end stops at a character that is no space. -/
theorem trimEnd_append_cons (head t : Text) {c : Char} (hc : isSpace c = false) :
    trimEnd (head ++ c :: t) = head ++ c :: trimEnd t := by
  rw [trimEnd, List.rdropWhile, List.append_cons, List.reverse_append, List.dropWhile_append]
  split
  · rename_i hnil
    rw [List.isEmpty_iff] at hnil
    rw [List.reverse_append, List.reverse_singleton, List.singleton_append, List.dropWhile_cons, hc, if_neg (by simp),
      List.reverse_cons, List.reverse_reverse, trimEnd, List.rdropWhile, hnil]
    rfl
  · rw [List.reverse_append, List.reverse_reverse, ← List.append_cons]
    rfl

/-- A text is spaces, or has a first character that is none. -/
theorem spaces_or_split (t : Text) : (∀ c ∈ t, isSpace c = true) ∨
    ∃ spaces c rest, t = spaces ++ c :: rest ∧ (∀ c ∈ spaces, isSpace c = true) ∧ isSpace c = false := by
  cases hdrop : t.dropWhile isSpace with
  | nil =>
    have hall : t.takeWhile isSpace = t := by
      have := List.takeWhile_append_dropWhile (p := isSpace) (l := t)
      rwa [hdrop, List.append_nil] at this
    exact .inl (fun c hc => List.mem_takeWhile_imp (hall ▸ hc))
  | cons c rest =>
    refine .inr ⟨t.takeWhile isSpace, c, rest, ?_, fun c hc => List.mem_takeWhile_imp hc, ?_⟩
    · rw [← hdrop, List.takeWhile_append_dropWhile]
    · have := List.head?_dropWhile_not isSpace t
      rw [hdrop] at this
      simpa using this

/-- The ends may be trimmed in any order, and more than once. -/
theorem trim_trimEnd (t : Text) : trim (trimEnd t) = trim t := by
  rcases spaces_or_split t with h | ⟨spaces, c, rest, rfl, hspaces, hc⟩
  · rw [trimEnd, List.rdropWhile_eq_nil_iff.2 h, trim, trim, List.dropWhile_eq_nil_iff.2 h]
    rfl
  · have hfirst : ∀ t, (spaces ++ c :: t).dropWhile isSpace = c :: t := fun t => by
      rw [List.dropWhile_append_of_pos hspaces, List.dropWhile_cons, hc]
      rfl
    have hend : ∀ t, trimEnd (c :: t) = c :: trimEnd t := fun t => trimEnd_append_cons [] t hc
    rw [trimEnd_append_cons spaces rest hc, trim, trim, hfirst, hfirst, hend, hend]
    exact congrArg (c :: ·) (List.rdropWhile_idempotent ..)

/-- A line as the rewriter writes it. -/
def written (indent image : Text) : Text := indent ++ imageText ++ image

section
variable {indent image : Text}

theorem dropWhile_written (hindent : ∀ c ∈ indent, isSpace c = true) :
    (written indent image).dropWhile isSpace = imageText ++ image := by
  rw [written, List.append_assoc, List.dropWhile_append_of_pos hindent]
  rfl

theorem takeWhile_written (hindent : ∀ c ∈ indent, isSpace c = true) : (written indent image).takeWhile isSpace = indent := by
  rw [written, List.append_assoc, List.takeWhile_append_of_pos hindent]
  exact List.append_nil indent

theorem trim_written (hindent : ∀ c ∈ indent, isSpace c = true) :
    trim (written indent image) = imageText ++ trimEnd image := by
  rw [trim, dropWhile_written hindent]
  exact trimEnd_append_cons ['I', 'm', 'a', 'g', 'e'] image rfl

theorem imageAssignment_image (t : Text) : imageAssignment (imageText ++ t) = some t := rfl

/-- **What the rewriter writes it finds again.** -/
theorem imageLine_written (hindent : ∀ c ∈ indent, isSpace c = true) (himage : ∀ c ∈ image, isLineEnd c = false) :
    imageLine (written indent image) = some (indent, image.dropWhile isSpace) := by
  have hvalue : (image.dropWhile isSpace).any isLineEnd = false :=
    List.any_eq_false.2 (fun c hc => by rw [himage c ((List.dropWhile_sublist _).subset hc)]; exact Bool.false_ne_true)
  rw [imageLine, trim_written hindent, imageAssignment_image, Option.isSome_some, if_pos rfl, matchImage, dropWhile_written hindent,
    imageAssignment_image]
  simp only [hvalue, takeWhile_written hindent, Bool.false_eq_true, if_false]

/-- The probe reads it, too. -/
theorem imageOfLine_written (hindent : ∀ c ∈ indent, isSpace c = true) :
    imageOfLine (written indent image) = some (trim image) := by
  rw [imageOfLine, trim_written hindent, if_pos (by simp), List.drop_left, trim_trimEnd]

end

/-! ## The laws -/

/-- **What a rewrite does**: the first line that is recognised is written anew, no other line changes. -/
theorem rewriteLines_eq_some_iff {newImage : Text} : ∀ {ls after : List Text} {previous : Text},
    rewriteLines newImage ls = some (after, previous) ↔ ∃ before line rest indent value, ls = before ++ line :: rest ∧
      (∀ l ∈ before, imageLine l = none) ∧ imageLine line = some (indent, value) ∧ previous = trim value ∧
      after = before ++ written indent newImage :: rest
  | [], after, previous => by
    simp [rewriteLines]
  | l :: ls, after, previous => by
    unfold rewriteLines
    cases hl : imageLine l with
    | some r =>
      obtain ⟨indent, value⟩ := r
      constructor
      · intro h
        simp only [Option.some.injEq, Prod.mk.injEq] at h
        exact ⟨[], l, ls, indent, value, rfl, by simp, hl, h.2.symm, h.1.symm⟩
      · rintro ⟨before, line, rest, indent', value', hls, hbefore, hline, rfl, rfl⟩
        cases before with
        | nil =>
          obtain ⟨rfl, rfl⟩ := List.cons.inj hls
          rw [hl] at hline
          cases hline
          rfl
        | cons b before =>
          obtain ⟨rfl, -⟩ := List.cons.inj hls
          rw [hbefore l (List.mem_cons_self ..)] at hl
          cases hl
    | none =>
      simp only [Option.map_eq_some_iff, Prod.exists, Prod.mk.injEq, rewriteLines_eq_some_iff]
      constructor
      · rintro ⟨after', previous', ⟨before, line, rest, indent, value, rfl, hbefore, hline, rfl, rfl⟩, rfl, rfl⟩
        refine ⟨l :: before, line, rest, indent, value, rfl, fun b hb => ?_, hline, rfl, rfl⟩
        rcases List.mem_cons.1 hb with rfl | hb
        · exact hl
        · exact hbefore b hb
      · rintro ⟨before, line, rest, indent, value, hls, hbefore, hline, rfl, rfl⟩
        cases before with
        | nil =>
          obtain ⟨rfl, rfl⟩ := List.cons.inj hls
          rw [hl] at hline
          cases hline
        | cons b before =>
          obtain ⟨rfl, rfl⟩ := List.cons.inj hls
          exact ⟨_, _, ⟨before, line, rest, indent, value, rfl, fun b hb => hbefore b (List.mem_cons_of_mem _ hb), hline,
            rfl, rfl⟩, rfl, rfl⟩

theorem imageLine_groups {line indent value : Text} (h : imageLine line = some (indent, value)) :
    indent = line.takeWhile isSpace ∧ ∀ c ∈ value, isLineEnd c = false := by
  unfold imageLine at h
  split at h
  · unfold matchImage at h
    split at h
    · cases h
    · dsimp only at h
      split at h
      · cases h
      · rename_i hplain
        cases h
        exact ⟨rfl, fun c hc => Bool.eq_false_iff.2 (fun hend => hplain (List.any_eq_true.2 ⟨c, hc, hend⟩))⟩
  · cases h

theorem mem_of_mem_trim {t : Text} {c : Char} (h : c ∈ trim t) : c ∈ t :=
  (List.dropWhile_sublist isSpace).subset ((List.rdropWhile_prefix isSpace (t.dropWhile isSpace)).subset h)

/-- **A rewrite of a text**, line by line. -/
structure Rewrites (body newImage after previous : Text) (before : List Text) (line : Text) (rest : List Text) : Prop where
  lines : lines body = before ++ line :: rest
  first : ∀ l ∈ before, imageLine l = none
  found : ∃ value, imageLine line = some (line.takeWhile isSpace, value) ∧ previous = trim value
  after : after = ['\n'].intercalate (before ++ written (line.takeWhile isSpace) newImage :: rest)

theorem rewriteImageLine_eq_ok_iff {body newImage after previous : Text} :
    rewriteImageLine body newImage = .ok (after, previous) ↔
      ∃ before line rest, Rewrites body newImage after previous before line rest := by
  unfold rewriteImageLine
  constructor
  · intro h
    split at h
    · cases h
    · rename_i rewritten previous' hrw
      simp only [Except.ok.injEq, Prod.mk.injEq] at h
      obtain ⟨rfl, rfl⟩ := h
      obtain ⟨before, line, rest, indent, value, hlines, hfirst, hline, hprevious, rfl⟩ := rewriteLines_eq_some_iff.1 hrw
      obtain ⟨rfl, -⟩ := imageLine_groups hline
      exact ⟨before, line, rest, hlines, hfirst, ⟨value, hline, hprevious⟩, rfl⟩
  · rintro ⟨before, line, rest, hlines, hfirst, ⟨value, hline, hprevious⟩, rfl⟩
    rw [rewriteLines_eq_some_iff.2 ⟨before, line, rest, _, value, hlines, hfirst, hline, hprevious, rfl⟩]

section
variable {body newImage after previous : Text} {before rest : List Text} {line : Text}

theorem Rewrites.plain_line (h : Rewrites body newImage after previous before line rest) {l : Text}
    (hl : l ∈ before ++ line :: rest) : ∀ c ∈ l, c ∈ body ∧ c ≠ '\n' := of_mem_lines (h.lines ▸ hl)

theorem not_mem_written {indent image : Text} {c : Char} (hindent : c ∉ indent) (himage : c ∉ image)
    (hc : c ∉ imageText) : c ∉ written indent image := by
  simp [written, hindent, himage, hc]

/-- The lines after a rewrite are those the rewriter joined. -/
theorem Rewrites.lines_after (h : Rewrites body newImage after previous before line rest) {image : Text}
    (himage : '\n' ∉ image) :
    Quadlet.lines (['\n'].intercalate (before ++ written (line.takeWhile isSpace) image :: rest)) =
      before ++ written (line.takeWhile isSpace) image :: rest := by
  refine lines_intercalate (by simp) (fun l hl => ?_)
  have hplain : ∀ {l}, l ∈ before ++ line :: rest → '\n' ∉ l := fun hl hc => (h.plain_line hl _ hc).2 rfl
  rcases List.mem_append.1 hl with hl | hl
  · exact hplain (List.mem_append_left _ hl)
  · rcases List.mem_cons.1 hl with rfl | hl
    · refine not_mem_written (fun hc => ?_) himage (by decide)
      exact hplain (List.mem_append_right _ (List.mem_cons_self ..)) ((List.takeWhile_sublist _).subset hc)
    · exact hplain (List.mem_append_right _ (List.mem_cons_of_mem _ hl))

/-- **A later rewrite leaves no trace of an earlier one**, and answers with the image it set. -/
theorem Rewrites.again (h : Rewrites body newImage after previous before line rest)
    (hnew : ∀ c ∈ newImage, isLineEnd c = false) (image : Text) :
    Rewrites body image (['\n'].intercalate (before ++ written (line.takeWhile isSpace) image :: rest)) previous before line
        rest ∧
      Rewrites after image (['\n'].intercalate (before ++ written (line.takeWhile isSpace) image :: rest)) (trim newImage)
        before (written (line.takeWhile isSpace) newImage) rest := by
  have hindent : ∀ c ∈ line.takeWhile isSpace, isSpace c = true := fun c hc => List.mem_takeWhile_imp hc
  have hfeed : '\n' ∉ newImage := fun hc => absurd (hnew _ hc) (by decide)
  refine ⟨⟨h.lines, h.first, h.found, rfl⟩, ?_, h.first, ⟨newImage.dropWhile isSpace, ?_, ?_⟩, ?_⟩
  · rw [h.after]
    exact h.lines_after hfeed
  · rw [imageLine_written hindent hnew, takeWhile_written hindent]
  · rw [trim, trim, List.dropWhile_idempotent]
  · rw [takeWhile_written hindent]

/-- A line the probe reads and the rewriter does not holds a line end of its own. -/
theorem imageOfLine_eq_none {l : Text} (hplain : ∀ c ∈ l, isLineEnd c = false) (hl : imageLine l = none) :
    imageOfLine l = none := by
  unfold imageOfLine
  by_cases hpre : imageText.isPrefixOf (trim l) = true
  swap
  · rw [if_neg hpre]
  · obtain ⟨more, hmore⟩ := List.isPrefixOf_iff_prefix.1 hpre
    obtain ⟨spaces, hspaces⟩ := List.rdropWhile_prefix isSpace (l.dropWhile isSpace)
    have hdrop : l.dropWhile isSpace = imageText ++ (more ++ spaces) := by
      rw [← hspaces, ← List.append_assoc, hmore]
      rfl
    have hvalue : ((more ++ spaces).dropWhile isSpace).any isLineEnd = false := by
      refine List.any_eq_false.2 (fun c hc => ?_)
      have hmem : c ∈ l := by
        refine (List.dropWhile_sublist isSpace).subset ?_
        rw [hdrop]
        exact List.mem_append_right _ ((List.dropWhile_sublist _).subset hc)
      rw [hplain c hmem]
      exact Bool.false_ne_true
    rw [imageLine, ← hmore, imageAssignment_image, Option.isSome_some, if_pos rfl, matchImage, hdrop,
      imageAssignment_image] at hl
    simp [hvalue] at hl

theorem crlfLines_eq_lines {t : Text} (h : ∀ l ∈ lines t, '\r' ∉ l) : crlfLines t = lines t := by
  have hcr : ∀ l ∈ (lines t).dropLast, dropCr l = l := by
    intro l hl
    rw [dropCr, if_neg]
    exact fun hlast => h l (List.dropLast_subset _ hl) (List.mem_of_getLast? hlast)
  rw [crlfLines, List.map_congr_left hcr, List.map_id', List.getLast?_eq_some_getLast (lines_ne_nil t)]
  exact List.dropLast_append_getLast (lines_ne_nil t)

/-- **The probe reads what the rewriter wrote**, of a text with no line end but the line feed. -/
theorem Rewrites.read (h : Rewrites body newImage after previous before line rest)
    (hnew : ∀ c ∈ newImage, isLineEnd c = false) (hbody : ∀ c ∈ body, isLineEnd c = true → c = '\n') :
    readQuadletImage (some after) = some (trim newImage) := by
  have hindent : ∀ c ∈ line.takeWhile isSpace, isSpace c = true := fun c hc => List.mem_takeWhile_imp hc
  have hplain : ∀ l ∈ before ++ line :: rest, ∀ c ∈ l, isLineEnd c = false := by
    intro l hl c hc
    obtain ⟨hmem, hne⟩ := h.plain_line hl c hc
    exact Bool.eq_false_iff.2 (fun hend => hne (hbody c hmem hend))
  have hlines : Quadlet.lines after = before ++ written (line.takeWhile isSpace) newImage :: rest := by
    rw [h.after]
    exact h.lines_after (fun hc => absurd (hnew _ hc) (by decide))
  have hcr : ∀ l ∈ Quadlet.lines after, '\r' ∉ l := by
    have hold : ∀ l ∈ before ++ line :: rest, '\r' ∉ l := fun l hl hc => absurd (hplain l hl _ hc) (by decide)
    intro l hl
    rw [hlines] at hl
    rcases List.mem_append.1 hl with hl | hl
    · exact hold l (List.mem_append_left _ hl)
    · rcases List.mem_cons.1 hl with rfl | hl
      · refine not_mem_written (fun hc => ?_) (fun hc => absurd (hnew _ hc) (by decide)) (by decide)
        exact hold line (List.mem_append_right _ (List.mem_cons_self ..)) ((List.takeWhile_sublist _).subset hc)
      · exact hold l (List.mem_append_right _ (List.mem_cons_of_mem _ hl))
  have hbefore : before.findSome? imageOfLine = none :=
    List.findSome?_eq_none_iff.2 (fun l hl => imageOfLine_eq_none (hplain l (List.mem_append_left _ hl)) (h.first l hl))
  rw [readQuadletImage, Option.bind_some, crlfLines_eq_lines hcr, hlines, List.findSome?_append, hbefore, Option.none_or,
    List.findSome?_cons, imageOfLine_written hindent]

end

/-- **The laws of the image line.**  A rewrite finds every later rewrite of the same text: it gives what that one gives of the
text before, and answers with the image set in between.  The version probe reads the image set, if the text has no line end
but the line feed.  Setting the old image again gives the old text exactly when its line was written as the rewriter
writes. -/
theorem rewriteImageLine_laws {body newImage after previous : Text}
    (h : rewriteImageLine body newImage = .ok (after, previous)) (hnew : ∀ c ∈ newImage, isLineEnd c = false) :
    (∀ image, ∃ final, rewriteImageLine body image = .ok (final, previous) ∧
      rewriteImageLine after image = .ok (final, trim newImage)) ∧
    ((∀ c ∈ body, isLineEnd c = true → c = '\n') → readQuadletImage (some after) = some (trim newImage)) ∧
    ∃ before line rest, Rewrites body newImage after previous before line rest ∧
      (rewriteImageLine after previous = .ok (body, trim newImage) ↔ line = written (line.takeWhile isSpace) previous) := by
  obtain ⟨before, line, rest, hrw⟩ := rewriteImageLine_eq_ok_iff.1 h
  have hagain := hrw.again hnew
  refine ⟨fun image => ⟨_, rewriteImageLine_eq_ok_iff.2 ⟨before, line, rest, (hagain image).1⟩,
    rewriteImageLine_eq_ok_iff.2 ⟨before, _, rest, (hagain image).2⟩⟩, fun hbody => hrw.read hnew hbody,
    before, line, rest, hrw, ?_⟩
  rw [rewriteImageLine_eq_ok_iff.2 ⟨before, _, rest, (hagain previous).2⟩]
  simp only [Except.ok.injEq, Prod.mk.injEq, and_true]
  obtain ⟨value, hfound, hprevious⟩ := hrw.found
  have hfeed : '\n' ∉ previous := by
    intro hc
    rw [hprevious] at hc
    exact absurd ((imageLine_groups hfound).2 _ (mem_of_mem_trim hc)) (by decide)
  constructor
  · intro hback
    have hsame := (hrw.lines_after hfeed).symm.trans ((congrArg lines hback).trans hrw.lines)
    exact ((List.cons.inj (List.append_cancel_left hsame)).1).symm
  · intro hline
    rw [← hline, ← hrw.lines, intercalate_lines]

theorem plain_of_all {body : Text} (h : body.all (fun c => !isLineEnd c || c == '\n') = true) :
    ∀ c ∈ body, isLineEnd c = true → c = '\n' := by
  intro c hc hend
  have := List.all_eq_true.1 h c hc
  simpa [hend] using this

def serverQuadlet : Text := "[Container]\n  image = ghcr.io/signalk/signalk-server:v2.13.0 \nPull=newer\n".toList

def updatedQuadlet : Text := "[Container]\n  Image=ghcr.io/signalk/signalk-server:v2.14.0\nPull=newer\n".toList

theorem rewriteImageLine_laws_server :
    readQuadletImage (some updatedQuadlet) = some (trim "ghcr.io/signalk/signalk-server:v2.14.0".toList) :=
  (@rewriteImageLine_laws serverQuadlet "ghcr.io/signalk/signalk-server:v2.14.0".toList updatedQuadlet
    "ghcr.io/signalk/signalk-server:v2.13.0".toList (by decide +kernel) (JsString.forall_not_of_all (by decide +kernel))).2.1
    (plain_of_all (by decide +kernel))

end Quadlet
end SignalkDoctor
