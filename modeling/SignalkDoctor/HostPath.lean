import Mathlib.Data.List.MinMax
import Mathlib.Data.List.Nodup
import SignalkDoctor.Installed
import SignalkDoctor.Json
import SignalkDoctor.UnixPath
/-!
# HostPath — the host path behind a container path (`src/bug-report.ts`)

`resolveHostPath` looks the most specific mount up in `mountinfo` and puts the rest of the path under its root field.  The
kernel's side is the lines of the bind mounts: escaped paths, the root field being a path within the filesystem that holds
the bind's source.  `resolveHostPath_iff` says when that is the path by which the host reaches the file.
-/
namespace SignalkDoctor
namespace BugReport

open UnixPath
open Drift (codeUnits)

/-! ## The lookup -/

def isOctal (c : Char) : Bool := '0' ≤ c && c ≤ '7'

/-- `s.replace(/\\([0-7]{3})/g, …)` -/
def unescapeMountinfoField : Text → Text
  | '\\' :: a :: b :: c :: rest =>
    if isOctal a && isOctal b && isOctal c then
      Char.ofNat (64 * (a.toNat - 48) + 8 * (b.toNat - 48) + (c.toNat - 48)) :: unescapeMountinfoField rest
    else '\\' :: unescapeMountinfoField (a :: b :: c :: rest)
  | c :: rest => c :: unescapeMountinfoField rest
  | [] => []

structure Candidate where
  hostRoot : Text
  mountPoint : Text
  deriving DecidableEq, Repr

def parseLine (line : Text) : Option Candidate :=
  match line.splitOn ' ' with
  | _ :: _ :: _ :: hostRootRaw :: mountPointRaw :: _ =>
    some ⟨unescapeMountinfoField hostRootRaw, unescapeMountinfoField mountPointRaw⟩
  | _ => none

/-- The length of a string of the language. -/
def units (t : Text) : Nat := (t.map codeUnits).sum

/-- The mounts, the longest mount point first. -/
def candidates (raw : Text) : List Candidate :=
  ((raw.splitOn '\n').filterMap parseLine).mergeSort (fun a b => decide (units b.mountPoint ≤ units a.mountPoint))

def candidatePath (containerPath : Text) (c : Candidate) : Option Text :=
  if containerPath = c.mountPoint then some c.hostRoot
  else
    let under := if c.mountPoint.getLast? = some '/' then c.mountPoint else c.mountPoint ++ ['/']
    if under <+: containerPath then some (join c.hostRoot (containerPath.drop c.mountPoint.length)) else none

/-- `resolveHostPath`, given what `mountinfo` is read as, if it is. -/
def resolveHostPath (containerPath : Text) (raw : Option Text) : Option Text :=
  raw.bind (fun raw => (candidates raw).findSome? (candidatePath containerPath))

/-! ## The kernel's side -/

structure HostMount where
  mountPoint : Path
  /-- The directory mounted, within its filesystem. -/
  root : Path

/-- The host's mounts: the directory mounted at `/`, then the others, as they were mounted. -/
structure HostMounts where
  rootDir : Path
  mounts : List HostMount

/-- The mount that holds a path: a later mount covers the earlier ones. -/
def HostMounts.holding (host : HostMounts) (h : Path) : HostMount :=
  (host.mounts.reverse.find? (fun m => m.mountPoint.isPrefixOf h)).getD ⟨[], host.rootDir⟩

/-- A path within the filesystem that holds it. -/
def HostMounts.within (host : HostMounts) (h : Path) : Path :=
  (host.holding h).root ++ h.drop (host.holding h).mountPoint.length

/-- A bind mount; of its line in `mountinfo` also what stands before and after the two paths. -/
structure BindMount where
  mountPoint : Path
  hostPath : Path
  mountId : Text
  parentId : Text
  device : Text
  rest : Text
  plain : ∀ t ∈ [mountId, parentId, device], ' ' ∉ t ∧ '\n' ∉ t
  one_line : '\n' ∉ rest

/-- The kernel's escape of one character. -/
def escapeChar (c : Char) : Text :=
  if c = ' ' then "\\040".toList
  else if c = '\t' then "\\011".toList
  else if c = '\n' then "\\012".toList
  else if c = '\\' then "\\134".toList
  else [c]

def escapePath (p : Path) : Text := (render p false).flatMap escapeChar

/-- A line of escaped fields. -/
def mountinfoLine (fields : List Text) : Text := [' '].intercalate (fields.map (fun f => f.flatMap escapeChar))

def BindMount.line (host : HostMounts) (b : BindMount) : Text :=
  b.mountId ++ ' ' :: (b.parentId ++ ' ' :: (b.device ++ ' ' ::
    (escapePath (host.within b.hostPath) ++ ' ' :: (escapePath b.mountPoint ++ ' ' :: b.rest))))

/-- The container's bind mounts. -/
structure BindMounts where
  mounts : List BindMount
  distinct : (mounts.map (·.mountPoint)).Nodup

def BindMounts.mountinfo (binds : BindMounts) (host : HostMounts) : Text :=
  binds.mounts.flatMap (fun b => b.line host ++ ['\n'])

/-- A normalised absolute path of the container; it may end in a slash, where it is not the root. -/
structure ContainerPath where
  names : Path
  slash : Bool
  proper : slash = true → names ≠ []

def ContainerPath.text (p : ContainerPath) : Text := render p.names p.slash

/-- **The most specific mount a path is at or under.** -/
structure BindMounts.Backs (binds : BindMounts) (b : BindMount) (p : ContainerPath) : Prop where
  mem : b ∈ binds.mounts
  covers : b.mountPoint <+: p.names
  nearest : ∀ b' ∈ binds.mounts, b'.mountPoint <+: p.names → b'.mountPoint.length ≤ b.mountPoint.length

/-- The path by which the host reaches the file. -/
def BindMount.reaches (b : BindMount) (p : ContainerPath) : Text :=
  render (b.hostPath ++ p.names.drop b.mountPoint.length) p.slash

/-! ## The lines are read back -/

theorem unescape_cons {c : Char} (h : c ≠ '\\') (t : Text) :
    unescapeMountinfoField (c :: t) = c :: unescapeMountinfoField t := by
  rw [unescapeMountinfoField]
  intro _ _ _ _ hc
  exact absurd hc h

theorem unescape_escapeChar (c : Char) (t : Text) :
    unescapeMountinfoField (escapeChar c ++ t) = c :: unescapeMountinfoField t := by
  unfold escapeChar
  by_cases h1 : c = ' '
  · subst h1
    rfl
  by_cases h2 : c = '\t'
  · subst h2
    rfl
  by_cases h3 : c = '\n'
  · subst h3
    rfl
  by_cases h4 : c = '\\'
  · subst h4
    rfl
  rw [if_neg h1, if_neg h2, if_neg h3, if_neg h4]
  exact unescape_cons h4 t

/-- **The escapes are undone.** -/
theorem unescape_escape : ∀ t : Text, unescapeMountinfoField (t.flatMap escapeChar) = t
  | [] => rfl
  | c :: t => by rw [List.flatMap_cons, unescape_escapeChar, unescape_escape t]

theorem not_mem_escapeChar (c : Char) : ' ' ∉ escapeChar c ∧ '\n' ∉ escapeChar c := by
  unfold escapeChar
  by_cases h1 : c = ' '
  · subst h1
    decide
  by_cases h2 : c = '\t'
  · subst h2
    decide
  by_cases h3 : c = '\n'
  · subst h3
    decide
  by_cases h4 : c = '\\'
  · subst h4
    decide
  rw [if_neg h1, if_neg h2, if_neg h3, if_neg h4, List.mem_singleton, List.mem_singleton]
  exact ⟨fun h => h1 h.symm, fun h => h3 h.symm⟩

theorem not_mem_escape (t : Text) : ' ' ∉ t.flatMap escapeChar ∧ '\n' ∉ t.flatMap escapeChar := by
  simp only [List.mem_flatMap, not_exists, not_and]
  exact ⟨fun c _ => (not_mem_escapeChar c).1, fun c _ => (not_mem_escapeChar c).2⟩

theorem not_mem_escapePath (p : Path) : ' ' ∉ escapePath p ∧ '\n' ∉ escapePath p := not_mem_escape (render p false)

/-- Splitting a line of escaped fields gives the fields as they were escaped. -/
theorem splitOn_mountinfoLine {fields : List Text} (h : fields ≠ []) :
    (mountinfoLine fields).splitOn ' ' = fields.map (fun f => f.flatMap escapeChar) := by
  refine List.splitOn_intercalate ' ' (fun l hl => ?_) (fun hnil => h (List.map_eq_nil_iff.1 hnil))
  obtain ⟨f, -, rfl⟩ := List.mem_map.1 hl
  exact (not_mem_escape f).1

/-- **The kernel's escape is undone, and of any line of escaped fields the fourth and the fifth are read back**: the root
and the mount point. -/
theorem mountinfo_read_back :
    (∀ p : Text, unescapeMountinfoField (p.flatMap escapeChar) = p) ∧
      ∀ (mountId parentId device root mountPoint : Text) (rest : List Text),
        ((mountinfoLine (mountId :: parentId :: device :: root :: mountPoint :: rest)).splitOn ' ').map
            unescapeMountinfoField = mountId :: parentId :: device :: root :: mountPoint :: rest ∧
          parseLine (mountinfoLine (mountId :: parentId :: device :: root :: mountPoint :: rest)) =
            some ⟨root, mountPoint⟩ := by
  refine ⟨unescape_escape, fun mountId parentId device root mountPoint rest => ?_⟩
  have hsplit := @splitOn_mountinfoLine (mountId :: parentId :: device :: root :: mountPoint :: rest) (by simp)
  constructor
  · rw [hsplit, List.map_map]
    exact List.map_id'' unescape_escape _
  · simp only [parseLine, hsplit, List.map_cons, unescape_escape]

def BindMount.candidate (host : HostMounts) (b : BindMount) : Candidate :=
  ⟨render (host.within b.hostPath) false, render b.mountPoint false⟩

theorem parseLine_line (host : HostMounts) (b : BindMount) : parseLine (b.line host) = some (b.candidate host) := by
  have hplain : ∀ t ∈ [b.mountId, b.parentId, b.device], ' ' ∉ t := fun t ht => (b.plain t ht).1
  rw [parseLine, BindMount.line, List.splitOn_append_cons_self_of_not_mem (hplain _ (by simp)),
    List.splitOn_append_cons_self_of_not_mem (hplain _ (by simp)),
    List.splitOn_append_cons_self_of_not_mem (hplain _ (by simp)),
    List.splitOn_append_cons_self_of_not_mem (not_mem_escapePath _).1,
    List.splitOn_append_cons_self_of_not_mem (not_mem_escapePath _).1]
  simp only [escapePath, unescape_escape]
  rfl

theorem newline_not_mem_line (host : HostMounts) (b : BindMount) : '\n' ∉ b.line host := by
  have hplain : ∀ t ∈ [b.mountId, b.parentId, b.device], '\n' ∉ t := fun t ht => (b.plain t ht).2
  simp only [BindMount.line, List.mem_append, List.mem_cons, not_or]
  exact ⟨hplain _ (by simp), by decide, hplain _ (by simp), by decide, hplain _ (by simp), by decide,
    (not_mem_escapePath _).2, by decide, (not_mem_escapePath _).2, by decide, b.one_line⟩

theorem filterMap_splitOn_mountinfo (host : HostMounts) : ∀ bs : List BindMount,
    ((bs.flatMap (fun b => b.line host ++ ['\n'])).splitOn '\n').filterMap parseLine = bs.map (·.candidate host)
  | [] => rfl
  | b :: bs => by
    rw [List.flatMap_cons, List.append_assoc, List.singleton_append,
      List.splitOn_append_cons_self_of_not_mem (newline_not_mem_line host b), List.filterMap_cons, parseLine_line,
      filterMap_splitOn_mountinfo host bs]
    rfl

/-! ## One candidate -/

theorem prefix_of_map_text {m p : Path} {rest : List Text} (h : p.map Name.text = m.map Name.text ++ rest) :
    m <+: p := by
  have hlen : (m.map Name.text) <+: (p.map Name.text) := ⟨rest, h.symm⟩
  have htake := List.prefix_iff_eq_take.1 hlen
  rw [List.length_map, ← List.map_take] at htake
  exact map_text_inj htake ▸ List.take_prefix ..

/-- What stands after the root's slash. -/
theorem drop_render_root {rest : Path} (hrest : rest ≠ []) (slash : Bool) :
    ((render rest slash).drop 1 ≠ [] ∧ segments ((render rest slash).drop 1) = rest.map Name.text) ∧
      decide (((render rest slash).drop 1).getLast? = some '/') = slash := by
  obtain ⟨n, rest, rfl⟩ := List.exists_cons_of_ne_nil hrest
  have htext : render (n :: rest) slash = '/' :: (n.text ++ (slashed rest ++ endSlash slash)) := by
    rw [render_of_ne_nil hrest, slashed_cons, List.cons_append, List.append_assoc]
  have hne : n.text ++ (slashed rest ++ endSlash slash) ≠ [] := List.append_ne_nil_of_left_ne_nil n.ne_nil _
  have hseg := segments_render (n :: rest) slash
  have hlast : (render (n :: rest) slash).getLast? = (n.text ++ (slashed rest ++ endSlash slash)).getLast? := by
    rw [htext]
    exact getLast?_append_of_ne_nil ['/'] hne
  have hend : decide ((render (n :: rest) slash).getLast? = some '/') = slash := by
    rw [render_of_ne_nil hrest]
    exact getLast?_slashed_endSlash (by simp [slashed_cons])
  rw [htext, segments_slash] at hseg
  rw [hlast] at hend
  rw [htext, List.drop_succ_cons, List.drop_zero]
  exact ⟨⟨hne, hseg⟩, hend⟩

/-- The text after a mount point, for a path under it. -/
theorem drop_render {m rest : Path} {slash : Bool} (hne : render (m ++ rest) slash ≠ render m false) :
    ((render (m ++ rest) slash).drop (render m false).length ≠ [] ∧
        segments ((render (m ++ rest) slash).drop (render m false).length) = rest.map Name.text) ∧
      decide (((render (m ++ rest) slash).drop (render m false).length).getLast? = some '/') = slash := by
  by_cases hm : m = []
  · subst hm
    have hrest : rest ≠ [] := by
      rintro rfl
      exact hne rfl
    rw [List.nil_append, render_nil, List.length_singleton]
    exact drop_render_root hrest slash
  · have hfalse : render m false = slashed m := render_false hm
    have htext : render (m ++ rest) slash = slashed m ++ (slashed rest ++ endSlash slash) := by
      rw [render_of_ne_nil (List.append_ne_nil_of_left_ne_nil hm _), slashed_append, List.append_assoc]
    have hrest : slashed rest ++ endSlash slash ≠ [] := by
      intro hnil
      rw [htext, hfalse, hnil, List.append_nil] at hne
      exact hne rfl
    rw [htext, hfalse, List.drop_left]
    exact ⟨⟨hrest, segments_slashed_endSlash rest slash⟩, getLast?_slashed_endSlash hrest⟩

/-- A path that is written like a mount point is that one, and has no slash at its end. -/
theorem ContainerPath.eq_of_text_eq {p : ContainerPath} {m : Path} (h : p.text = render m false) :
    p.names = m ∧ ∀ r : Path, render r p.slash = render r false := by
  refine ⟨render_inj h, fun r => ?_⟩
  cases hs : p.slash with
  | false => rfl
  | true =>
    have hne := p.proper hs
    have hm : p.names = m := render_inj h
    rw [ContainerPath.text, ← hm, hs, render_of_ne_nil hne, render_of_ne_nil hne] at h
    exact absurd (List.append_cancel_left h) (by decide)

/-- A path starts with a mount point and a slash exactly when it is under it. -/
theorem under_prefix_iff {m names : Path} {slash : Bool} (hne : render names slash ≠ render m false) :
    (if (render m false).getLast? = some '/' then render m false else render m false ++ ['/']) <+: render names slash ↔
      m <+: names := by
  by_cases hm : m = []
  · subst hm
    obtain ⟨rest, hrest⟩ := List.head?_eq_some_iff.1 (head?_render names slash)
    rw [render_nil, if_pos (show ['/'].getLast? = some '/' from rfl)]
    exact ⟨fun _ => List.nil_prefix, fun _ => ⟨rest, hrest.symm⟩⟩
  · rw [if_neg (fun h => hm ((getLast?_render_false m).1 h))]
    constructor
    · rintro ⟨t, ht⟩
      have hseg := congrArg segments ht
      rw [List.append_assoc, List.singleton_append, segments_append_slash, segments_render, segments_render] at hseg
      exact prefix_of_map_text hseg.symm
    · rintro ⟨rest, rfl⟩
      have happ : m ++ rest ≠ [] := List.append_ne_nil_of_left_ne_nil hm _
      rw [render_of_ne_nil happ, render_false hm, slashed_append, List.append_assoc] at hne ⊢
      refine (List.prefix_append_right_inj _).2 ?_
      cases rest with
      | cons n rest => exact ⟨n.text ++ slashed rest ++ endSlash slash, by simp [slashed_cons]⟩
      | nil =>
        cases slash with
        | true => exact List.prefix_refl _
        | false => exact absurd (by simp [slashed, endSlash]) hne

/-- **A candidate gives a path exactly when its mount point is at or above the container path**, and then the rest of it
under the root field. -/
theorem candidatePath_render (r m : Path) (p : ContainerPath) :
    candidatePath p.text ⟨render r false, render m false⟩ =
      if m <+: p.names then some (render (r ++ p.names.drop m.length) p.slash) else none := by
  unfold candidatePath ContainerPath.text
  by_cases heq : render p.names p.slash = render m false
  · obtain ⟨hm, hslash⟩ := p.eq_of_text_eq heq
    rw [if_pos heq, if_pos (hm ▸ List.prefix_refl m), hm, List.drop_length, List.append_nil, hslash]
  · rw [if_neg heq]
    by_cases hover : m <+: p.names
    · simp only
      rw [if_pos ((under_prefix_iff heq).2 hover), if_pos hover]
      obtain ⟨rest, hrest⟩ := hover
      rw [← hrest] at heq ⊢
      obtain ⟨⟨hne, hseg⟩, hlast⟩ := drop_render heq
      rw [join_render r rest hne hseg, hlast, List.drop_left]
    · simp only
      rw [if_neg (fun h => hover ((under_prefix_iff heq).1 h)), if_neg hover]

/-! ## The most specific mount -/

theorem units_append (s t : Text) : units (s ++ t) = units s + units t := by
  rw [units, List.map_append, List.sum_append]
  rfl

theorem units_pos {t : Text} (h : t ≠ []) : 0 < units t := by
  cases t with
  | nil => exact absurd rfl h
  | cons c t =>
    have hc : 0 < codeUnits c := by
      unfold codeUnits
      split <;> decide
    rw [units, List.map_cons, List.sum_cons]
    exact Nat.add_pos_left hc _

/-- A mount point above another is the shorter text. -/
theorem units_render_lt {m m' : Path} (h : m <+: m') (hlt : m.length < m'.length) :
    units (render m false) < units (render m' false) := by
  obtain ⟨rest, rfl⟩ := h
  have hrest : rest ≠ [] := by
    rintro rfl
    rw [List.append_nil] at hlt
    exact Nat.lt_irrefl _ hlt
  have hne : m ++ rest ≠ [] := List.append_ne_nil_of_right_ne_nil m hrest
  rw [render_false hne, slashed_append, units_append]
  by_cases hm : m = []
  · subst hm
    obtain ⟨n, rest', rfl⟩ := List.exists_cons_of_ne_nil hrest
    have hn := units_pos n.ne_nil
    have hslash : units ('/' :: (n.text ++ slashed rest')) = 1 + (units n.text + units (slashed rest')) := by
      rw [← units_append]
      rfl
    have hroot : units (render [] false) = 1 := rfl
    rw [slashed_cons, hslash, hroot]
    omega
  · have hpos : 0 < units (slashed rest) := by
      obtain ⟨n, rest', rfl⟩ := List.exists_cons_of_ne_nil hrest
      exact units_pos (by simp [slashed_cons])
    rw [render_false hm]
    exact Nat.lt_add_of_pos_right hpos

/-- The first answer in a sorted list is that of an element every other answering one is strictly behind. -/
theorem findSome?_of_first {α β : Type} {R : α → α → Prop} {f : α → Option β} {a : α} {b : β} (hf : f a = some b) :
    ∀ {l : List α}, l.Pairwise R → a ∈ l → (∀ c ∈ l, f c ≠ none → c ≠ a → ¬ R c a) → l.findSome? f = some b
  | c :: l, hs, ha, hfirst => by
    rw [List.pairwise_cons] at hs
    rw [List.findSome?_cons]
    cases hc : f c with
    | some b' =>
      by_cases hca : c = a
      · rw [← hf, ← hca, hc]
      · have hmem : a ∈ l := (List.mem_cons.1 ha).resolve_left (fun h => hca h.symm)
        exact absurd (hs.1 a hmem) (hfirst c (List.mem_cons_self ..) (by simp [hc]) hca)
    | none =>
      have hmem : a ∈ l := by
        rcases List.mem_cons.1 ha with rfl | h
        · rw [hf] at hc
          cases hc
        · exact h
      exact findSome?_of_first hf hs.2 hmem (fun d hd => hfirst d (List.mem_cons_of_mem _ hd))

theorem BindMounts.exists_backs {binds : BindMounts} {p : ContainerPath}
    (h : ∃ b ∈ binds.mounts, b.mountPoint <+: p.names) : ∃ b, binds.Backs b p := by
  obtain ⟨b, hb, hover⟩ := h
  have hover : b ∈ binds.mounts.filter (fun b => decide (b.mountPoint <+: p.names)) :=
    List.mem_filter.2 ⟨hb, decide_eq_true hover⟩
  cases hmax : List.argmax (fun b : BindMount => b.mountPoint.length)
      (binds.mounts.filter (fun b => decide (b.mountPoint <+: p.names))) with
  | none => exact absurd (List.argmax_eq_none.1 hmax) (List.ne_nil_of_mem hover)
  | some b' =>
    have hmem := List.mem_filter.1 (List.argmax_mem hmax)
    refine ⟨b', hmem.1, of_decide_eq_true hmem.2, fun c hc hcover => ?_⟩
    have hcmem : c ∈ binds.mounts.filter (fun b => decide (b.mountPoint <+: p.names)) :=
      List.mem_filter.2 ⟨hc, decide_eq_true hcover⟩
    exact List.le_of_mem_argmax (f := fun b : BindMount => b.mountPoint.length) hcmem hmax

theorem candidates_sorted (l : List Candidate) :
    (l.mergeSort (fun a b => decide (units b.mountPoint ≤ units a.mountPoint))).Pairwise
      (fun a b => decide (units b.mountPoint ≤ units a.mountPoint) = true) := by
  refine List.pairwise_mergeSort (fun a b c hab hbc => ?_) (fun a b => ?_) l
  · rw [decide_eq_true_eq] at hab hbc ⊢
    exact Nat.le_trans hbc hab
  · rw [Bool.or_eq_true, decide_eq_true_eq, decide_eq_true_eq]
    exact Nat.le_total _ _

/-- **The lookup finds the most specific mount**, and takes its root field for the host path. -/
theorem resolveHostPath_eq {host : HostMounts} {binds : BindMounts} {b : BindMount} {p : ContainerPath}
    (hb : binds.Backs b p) : resolveHostPath p.text (some (binds.mountinfo host)) =
      some (render (host.within b.hostPath ++ p.names.drop b.mountPoint.length) p.slash) := by
  have hcand : ∀ b' : BindMount, candidatePath p.text (b'.candidate host) =
      if b'.mountPoint <+: p.names then
        some (render (host.within b'.hostPath ++ p.names.drop b'.mountPoint.length) p.slash) else none :=
    fun b' => candidatePath_render (host.within b'.hostPath) b'.mountPoint p
  rw [resolveHostPath, Option.bind_some, candidates, BindMounts.mountinfo, filterMap_splitOn_mountinfo]
  refine findSome?_of_first (R := fun c d : Candidate => units d.mountPoint ≤ units c.mountPoint)
    (a := b.candidate host) ?_ ?_ ?_ ?_
  · rw [hcand, if_pos hb.covers]
  · exact (candidates_sorted _).imp (fun h => of_decide_eq_true h)
  · exact List.mem_mergeSort.2 (List.mem_map_of_mem hb.mem)
  · intro c hc hsome hne hle
    obtain ⟨b', hb', rfl⟩ := List.mem_map.1 (List.mem_mergeSort.1 hc)
    have hover : b'.mountPoint <+: p.names := by
      refine Decidable.byContradiction (fun hno => hsome ?_)
      rw [hcand, if_neg hno]
    -- two mount points above one path: the shorter is above the longer
    have habove : b'.mountPoint <+: b.mountPoint := List.prefix_of_prefix_length_le hover hb.covers (hb.nearest b' hb' hover)
    by_cases hlt : b'.mountPoint.length < b.mountPoint.length
    · exact absurd hle (Nat.not_le.2 (units_render_lt habove hlt))
    · have hsame : b'.mountPoint = b.mountPoint :=
        habove.eq_of_length (Nat.le_antisymm habove.length_le (Nat.not_lt.1 hlt))
      exact hne (congrArg _ (List.inj_on_of_nodup_map binds.distinct hb' hb.mem hsame))

theorem HostMounts.holding_over (host : HostMounts) (h : Path) : (host.holding h).mountPoint <+: h := by
  unfold HostMounts.holding
  cases hf : host.mounts.reverse.find? (fun m => m.mountPoint.isPrefixOf h) with
  | none => exact List.nil_prefix
  | some m =>
    have hm : m.mountPoint.isPrefixOf h = true := by simpa using List.find?_some hf
    exact List.isPrefixOf_iff_prefix.1 hm

theorem HostMounts.within_eq_iff (host : HostMounts) (h : Path) :
    host.within h = h ↔ (host.holding h).root = (host.holding h).mountPoint := by
  have hover := host.holding_over h
  rw [HostMounts.within]
  generalize host.holding h = m at hover ⊢
  obtain ⟨rest, rfl⟩ := hover
  rw [List.drop_left]
  exact List.append_left_inj rest

/-- **The answer is the path by which the host reaches the file exactly when the host mounts the filesystem that holds the
bind's source at the directory of the same path within it**, such as its root at `/`. -/
theorem resolveHostPath_iff (host : HostMounts) (binds : BindMounts) (p : ContainerPath)
    (h : ∃ b ∈ binds.mounts, b.mountPoint <+: p.names) :
    ∃ b, binds.Backs b p ∧
      (resolveHostPath p.text (some (binds.mountinfo host)) = some (b.reaches p) ↔
        (host.holding b.hostPath).root = (host.holding b.hostPath).mountPoint) := by
  obtain ⟨b, hb⟩ := BindMounts.exists_backs h
  refine ⟨b, hb, ?_⟩
  rw [resolveHostPath_eq hb, BindMount.reaches, Option.some.injEq, ← HostMounts.within_eq_iff]
  constructor
  · intro heq
    exact List.append_cancel_right (render_inj heq)
  · intro heq
    rw [heq]

def homeName : Name := ⟨"home".toList, by decide, by decide, by decide⟩
def piName : Name := ⟨"pi".toList, by decide, by decide, by decide⟩
def hostBinName : Name := ⟨"host-bin".toList, by decide, by decide, by decide⟩
def signalkName : Name := ⟨"signalk".toList, by decide, by decide, by decide⟩

/-- The script directory of the home directory, at `/host-bin`. -/
def hostBinMount : BindMount where
  mountPoint := [hostBinName]
  hostPath := [homeName, piName]
  mountId := "36".toList
  parentId := "35".toList
  device := "98:0".toList
  rest := "rw,noatime - ext4 /dev/root rw".toList
  plain := by decide
  one_line := by decide

def hostBin : BindMounts := ⟨[hostBinMount], by simp⟩

def hostScript : ContainerPath := ⟨[hostBinName, signalkName], false, by decide⟩

/-- A host with one filesystem. -/
theorem resolveHostPath_iff_oneFilesystem :
    ∃ b, hostBin.Backs b hostScript ∧
      (resolveHostPath hostScript.text (some (hostBin.mountinfo ⟨[], []⟩)) = some (b.reaches hostScript) ↔
        ((⟨[], []⟩ : HostMounts).holding b.hostPath).root = ((⟨[], []⟩ : HostMounts).holding b.hostPath).mountPoint) :=
  resolveHostPath_iff ⟨[], []⟩ hostBin hostScript ⟨hostBinMount, List.mem_singleton.2 rfl, ⟨[signalkName], rfl⟩⟩

/-- With `/home` on a partition of its own, `/host-bin/signalk` resolves to `/pi/signalk`. -/
theorem resolveHostPath_homePartition :
    ¬ ∀ (host : HostMounts) (binds : BindMounts) (p : ContainerPath) (b : BindMount), binds.Backs b p →
      resolveHostPath p.text (some (binds.mountinfo host)) = some (b.reaches p) := by
  intro h
  have hb : hostBin.Backs hostBinMount hostScript := by
    refine ⟨List.mem_singleton.2 rfl, ⟨[signalkName], rfl⟩, fun b' hb' _ => ?_⟩
    rw [List.mem_singleton.1 hb']
  have hres := h ⟨[], [⟨[homeName], []⟩]⟩ hostBin hostScript hostBinMount hb
  rw [resolveHostPath_eq hb] at hres
  exact absurd hres (by decide)

end BugReport
end SignalkDoctor
