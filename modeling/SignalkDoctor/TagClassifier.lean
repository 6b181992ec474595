import Mathlib.Data.List.Infix
import SignalkDoctor.Comparator
import SignalkDoctor.DriftTypes
/-!
# TagClassifier — semver tags and their order (`src/tagClassifier.ts`)

`SEMVER_RE` reads a tag; `compareSemver` compares the three numbers one after the other and then the prereleases, as text.
How the runtime compares text (`localeCompare`) is a parameter.  `lawful_compareSemver`: where that is a total preorder,
so is the order of the semver tags.
-/
namespace SignalkDoctor
namespace Tags

open Drift (dot parseInt)
open JsString (trim isSpace)
open Comparator (Lawful thenBy byNat)

/-! ## `SEMVER_RE` -/

/-- The groups of a match, as they are written. -/
structure SemverMatch where
  major : List Char
  minor : List Char
  patch : List Char
  prerelease : Option (List Char × List Char)
  deriving DecidableEq, Repr

/-- `v?`, in any case -/
def dropV : List Char → List Char
  | 'v' :: cs => cs
  | 'V' :: cs => cs
  | cs => cs

/-- `(\d+)` -/
def digits (cs : List Char) : Option (List Char × List Char) :=
  if cs.takeWhile Char.isDigit = [] then none else some (cs.takeWhile Char.isDigit, cs.dropWhile Char.isDigit)

/-- `(beta|rc)`, in any case -/
def word (cs : List Char) : Option (List Char × List Char) :=
  if (cs.take 4).map Char.toLower = "beta".toList then some (cs.take 4, cs.drop 4)
  else if (cs.take 2).map Char.toLower = "rc".toList then some (cs.take 2, cs.drop 2)
  else none

/-- `(?:-(beta|rc)\.(\d+))?$` -/
def prereleasePart : List Char → Option (Option (List Char × List Char))
  | [] => some none
  | '-' :: cs => do
    let (label, cs) ← word cs
    let cs ← dot cs
    let (number, cs) ← digits cs
    if cs = [] then some (some (label, number)) else none
  | _ => none

/-- `tag.match(SEMVER_RE)` -/
def matchSemver (tag : String) : Option SemverMatch := do
  let (major, cs) ← digits (dropV tag.toList)
  let cs ← dot cs
  let (minor, cs) ← digits cs
  let cs ← dot cs
  let (patch, cs) ← digits cs
  let prerelease ← prereleasePart cs
  return ⟨major, minor, patch, prerelease⟩

def isSemverTag (tag : String) : Bool := (matchSemver tag).isSome

/-! ## The channels -/

/-- `Channel` of `src/types.ts` -/
inductive Channel where
  | stable | beta | master | dirkwa
  deriving DecidableEq, Repr

/-- `/^-(beta|rc)\./i` -/
def startsWithLabel : List Char → Bool
  | '-' :: cs => ((word cs).bind (fun p => dot p.2)).isSome
  | _ => false

/-- `/^(master|main)(-[0-9a-f]{4,40})?$/i`, of a text in lower case. -/
def isMasterTag (cs : List Char) : Bool :=
  ["master".toList, "main".toList].any (fun name =>
    decide (name <+: cs) &&
      match cs.drop name.length with
      | [] => true
      | '-' :: sha => sha.all (fun c => c.isDigit || ('a' ≤ c && c ≤ 'f')) && 4 ≤ sha.length && sha.length ≤ 40
      | _ => false)

def classifyChannel (tag : String) : Channel :=
  let t := trim tag
  if t = "" then .dirkwa
  else if isSemverTag t then if t.toList.tails.any startsWithLabel then .beta else .stable
  else if isMasterTag (t.toList.map Char.toLower) then .master
  -- a fork's tags, and what is recognised as nothing else
  else .dirkwa

/-! ## The order -/

def SemverMatch.pre (m : SemverMatch) : String :=
  match m.prerelease with
  | some (label, number) => String.ofList (label ++ '.' :: number)
  | none => ""

section
variable (localeCompare : String → String → Int)

/-- The prerelease strings: none is newest. -/
def comparePre (aPre bPre : String) : Int :=
  if aPre = bPre then 0
  else if aPre = "" then 1
  else if bPre = "" then -1
  else localeCompare aPre bPre

/-- The first number that differs, then the prereleases.  The difference is exact here; its sign is the language's. -/
def compareMatches : SemverMatch → SemverMatch → Int :=
  thenBy (fun A B => byNat (parseInt A.major) (parseInt B.major))
    (thenBy (fun A B => byNat (parseInt A.minor) (parseInt B.minor))
      (thenBy (fun A B => byNat (parseInt A.patch) (parseInt B.patch))
        (fun A B => comparePre localeCompare A.pre B.pre)))

def compareSemver (a b : String) : Int :=
  match matchSemver a, matchSemver b with
  | some A, some B => compareMatches localeCompare A B
  | _, _ => 0

end

/-! ## The order is lawful -/

/-- `beta.1`, `RC.02` and the like. -/
def IsPrerelease (s : String) : Prop :=
  ∃ label number : List Char, s = String.ofList (label ++ '.' :: number) ∧
    (label.map Char.toLower = "beta".toList ∨ label.map Char.toLower = "rc".toList) ∧
      number ≠ [] ∧ number.all Char.isDigit = true

theorem digits_eq {cs ds rest : List Char} (h : digits cs = some (ds, rest)) :
    ds ≠ [] ∧ ds.all Char.isDigit = true ∧ cs = ds ++ rest := by
  unfold digits at h
  split at h
  · cases h
  · rename_i hne
    cases h
    exact ⟨hne, List.all_takeWhile, List.takeWhile_append_dropWhile.symm⟩

theorem dot_eq {cs rest : List Char} (h : dot cs = some rest) : cs = '.' :: rest := by
  unfold dot at h
  split at h
  · cases h
    rfl
  · cases h

theorem dropV_eq (cs : List Char) : ∃ v, cs = v ++ dropV cs ∧ ∀ c ∈ v, c = 'v' ∨ c = 'V' := by
  unfold dropV
  split
  · exact ⟨['v'], rfl, by simp⟩
  · exact ⟨['V'], rfl, by simp⟩
  · exact ⟨[], rfl, by simp⟩

theorem word_eq {cs label rest : List Char} (h : word cs = some (label, rest)) :
    (label.map Char.toLower = "beta".toList ∨ label.map Char.toLower = "rc".toList) ∧ cs = label ++ rest := by
  unfold word at h
  split at h
  · rename_i hbeta
    cases h
    exact ⟨.inl hbeta, (List.take_append_drop 4 cs).symm⟩
  · split at h
    · rename_i hrc
      cases h
      exact ⟨.inr hrc, (List.take_append_drop 2 cs).symm⟩
    · cases h

theorem prereleasePart_none {cs : List Char} (h : prereleasePart cs = some none) : cs = [] := by
  unfold prereleasePart at h
  split at h
  · rfl
  · obtain ⟨_, -, h⟩ := Option.bind_eq_some_iff.1 h
    obtain ⟨_, -, h⟩ := Option.bind_eq_some_iff.1 h
    obtain ⟨_, -, h⟩ := Option.bind_eq_some_iff.1 h
    simp only at h
    split at h <;> cases h
  · cases h

theorem prereleasePart_some {cs label number : List Char} (h : prereleasePart cs = some (some (label, number))) :
    (label.map Char.toLower = "beta".toList ∨ label.map Char.toLower = "rc".toList) ∧
      (number ≠ [] ∧ number.all Char.isDigit = true) ∧ startsWithLabel cs = true ∧
        cs = '-' :: (label ++ '.' :: number) := by
  unfold prereleasePart at h
  split at h
  · cases h
  · rename_i cs
    obtain ⟨⟨label', cs'⟩, hword, h⟩ := Option.bind_eq_some_iff.1 h
    obtain ⟨cs'', hdot, h⟩ := Option.bind_eq_some_iff.1 h
    obtain ⟨⟨number', rest⟩, hdigits, h⟩ := Option.bind_eq_some_iff.1 h
    simp only at h
    split at h
    · rename_i hrest
      cases h
      obtain ⟨hlabel, hcs⟩ := word_eq hword
      obtain ⟨hne, hall, hnumber⟩ := digits_eq hdigits
      refine ⟨hlabel, ⟨hne, hall⟩, ?_, ?_⟩
      · rw [startsWithLabel, hword, Option.bind_some, hdot]
        rfl
      · rw [hcs, dot_eq hdot, hnumber, hrest, List.append_nil]
    · cases h
  · cases h

/-- **A match is the whole tag.** -/
theorem matchSemver_eq {tag : String} {m : SemverMatch} (h : matchSemver tag = some m) :
    ∃ v tail, (∀ c ∈ v, c = 'v' ∨ c = 'V') ∧ m.major.all Char.isDigit = true ∧ m.minor.all Char.isDigit = true ∧
      m.patch.all Char.isDigit = true ∧ prereleasePart tail = some m.prerelease ∧
        tag.toList = v ++ (m.major ++ '.' :: (m.minor ++ '.' :: (m.patch ++ tail))) := by
  unfold matchSemver at h
  obtain ⟨⟨major, cs1⟩, hmajor, h⟩ := Option.bind_eq_some_iff.1 h
  obtain ⟨cs2, hdot, h⟩ := Option.bind_eq_some_iff.1 h
  obtain ⟨⟨minor, cs3⟩, hminor, h⟩ := Option.bind_eq_some_iff.1 h
  obtain ⟨cs4, hdot', h⟩ := Option.bind_eq_some_iff.1 h
  obtain ⟨⟨patch, cs5⟩, hpatch, h⟩ := Option.bind_eq_some_iff.1 h
  obtain ⟨prerelease, hpre, h⟩ := Option.bind_eq_some_iff.1 h
  cases h
  obtain ⟨v, hv, hvs⟩ := dropV_eq tag.toList
  obtain ⟨-, hmajor, hcs1⟩ := digits_eq hmajor
  obtain ⟨-, hminor, hcs3⟩ := digits_eq hminor
  obtain ⟨-, hpatch, hcs5⟩ := digits_eq hpatch
  refine ⟨v, cs5, hvs, hmajor, hminor, hpatch, hpre, ?_⟩
  rw [hv, hcs1, dot_eq hdot, hcs3, dot_eq hdot', hcs5]

/-- A match has no prerelease, or one of the two labels with a number. -/
theorem pre_of_matchSemver {tag : String} {m : SemverMatch} (h : matchSemver tag = some m) :
    m.pre = "" ∨ IsPrerelease m.pre := by
  obtain ⟨-, cs, -, -, -, -, hpre, -⟩ := matchSemver_eq h
  unfold SemverMatch.pre
  cases hm : m.prerelease with
  | none => exact .inl rfl
  | some p =>
    obtain ⟨label, number⟩ := p
    rw [hm] at hpre
    obtain ⟨hlabel, hnumber, -, -⟩ := prereleasePart_some hpre
    exact .inr ⟨label, number, rfl, hlabel, hnumber⟩

theorem not_isPrerelease_empty : ¬ IsPrerelease "" := by
  rintro ⟨label, number, hs, -⟩
  have hlen := congrArg String.toList hs
  simp at hlen

theorem lawful_comparePre {localeCompare : String → String → Int} (h : Lawful IsPrerelease localeCompare) :
    Lawful (fun s => s = "" ∨ IsPrerelease s) (comparePre localeCompare) := by
  have hne : ∀ s, IsPrerelease s → s ≠ "" := by
    rintro s hs rfl
    exact not_isPrerelease_empty hs
  have hself : ∀ s, comparePre localeCompare s s = 0 := fun s => if_pos rfl
  have hempty : ∀ s, s ≠ "" → comparePre localeCompare "" s = 1 ∧ comparePre localeCompare s "" = -1 := by
    intro s hs
    simp [comparePre, hs, Ne.symm hs]
  -- two prereleases compare as the runtime compares them, also where they are the same
  have hboth : ∀ x y, IsPrerelease x → IsPrerelease y → comparePre localeCompare x y = localeCompare x y := by
    intro x y hx hy
    by_cases hxy : x = y
    · subst hxy
      rw [hself, h.self hx]
    · rw [comparePre, if_neg hxy, if_neg (hne x hx), if_neg (hne y hy)]
  constructor
  · rintro x y (rfl | hx) (rfl | hy)
    · simp [hself]
    · simp [hempty y (hne y hy)]
    · simp [hempty x (hne x hx)]
    · rw [hboth x y hx hy, hboth y x hy hx]
      exact h.anti hx hy
  · rintro x y z (rfl | hx) (rfl | hy) (rfl | hz)
    · simp [hself]
    · simp [hself, hempty z (hne z hz)]
    · simp [hself]
    · simp [hempty y (hne y hy)]
    · simp [hself, hempty x (hne x hx)]
    · simp [hempty z (hne z hz)]
    · simp [hempty x (hne x hx)]
    · rw [hboth x y hx hy, hboth y z hy hz, hboth x z hx hz]
      exact h.trans hx hy hz

theorem lawful_compareMatches {localeCompare : String → String → Int} (h : Lawful IsPrerelease localeCompare) :
    Lawful (fun m => m.pre = "" ∨ IsPrerelease m.pre) (compareMatches localeCompare) := by
  have hnat : ∀ f : SemverMatch → Nat, Lawful (fun m => m.pre = "" ∨ IsPrerelease m.pre) (fun A B => byNat (f A) (f B)) :=
    fun f => (Comparator.lawful_byNat.comap f).mono (fun _ _ => trivial)
  exact (hnat _).thenBy ((hnat _).thenBy ((hnat _).thenBy ((lawful_comparePre h).comap SemverMatch.pre)))

theorem isSemverTag_iff {tag : String} : isSemverTag tag = true ↔ ∃ m, matchSemver tag = some m := Option.isSome_iff_exists

theorem compareSemver_eq {localeCompare : String → String → Int} {a b : String} {A B : SemverMatch}
    (hA : matchSemver a = some A) (hB : matchSemver b = some B) :
    compareSemver localeCompare a b = compareMatches localeCompare A B := by
  simp only [compareSemver, hA, hB]

/-- **The semver tags are ordered by `compareSemver`** where the runtime orders the prereleases. -/
theorem lawful_compareSemver {localeCompare : String → String → Int} (h : Lawful IsPrerelease localeCompare) :
    Lawful (fun tag => isSemverTag tag = true) (compareSemver localeCompare) := by
  have hlaw := lawful_compareMatches h
  constructor
  · intro x y hx hy
    obtain ⟨X, hX⟩ := isSemverTag_iff.1 hx
    obtain ⟨Y, hY⟩ := isSemverTag_iff.1 hy
    rw [compareSemver_eq hX hY, compareSemver_eq hY hX]
    exact hlaw.anti (pre_of_matchSemver hX) (pre_of_matchSemver hY)
  · intro x y z hx hy hz
    obtain ⟨X, hX⟩ := isSemverTag_iff.1 hx
    obtain ⟨Y, hY⟩ := isSemverTag_iff.1 hy
    obtain ⟨Z, hZ⟩ := isSemverTag_iff.1 hz
    rw [compareSemver_eq hX hY, compareSemver_eq hY hZ, compareSemver_eq hX hZ]
    exact hlaw.trans (pre_of_matchSemver hX) (pre_of_matchSemver hY) (pre_of_matchSemver hZ)

/-! ## Stable tags -/

theorem visible_digit {c : Char} (h : c.isDigit = true) : 33 ≤ c.toNat ∧ c.toNat ≤ 126 := by
  simp only [Char.isDigit, Bool.and_eq_true, decide_eq_true_eq] at h
  have hge : 48 ≤ c.toNat := h.1
  have hle : c.toNat ≤ 57 := h.2
  omega

theorem visible_label {label : List Char} (h : label.map Char.toLower = "beta".toList ∨ label.map Char.toLower = "rc".toList)
    {c : Char} (hc : c ∈ label) : 33 ≤ c.toNat ∧ c.toNat ≤ 126 := by
  have hmem : c.toLower ∈ label.map Char.toLower := List.mem_map_of_mem hc
  have hlower : c.toLower ∈ "beta".toList ∨ c.toLower ∈ "rc".toList := by
    rcases h with h | h
    · exact .inl (h ▸ hmem)
    · exact .inr (h ▸ hmem)
  have hvisible : 33 ≤ c.toLower.toNat ∧ c.toLower.toNat ≤ 126 := by
    generalize c.toLower = d at hlower
    have hall : ("beta".toList ++ "rc".toList).all (fun d => decide (33 ≤ d.toNat ∧ d.toNat ≤ 126)) = true := by decide
    exact of_decide_eq_true (List.all_eq_true.1 hall d (List.mem_append.2 hlower))
  unfold Char.toLower at hvisible
  split at hvisible
  · rename_i hupper
    have hge : 65 ≤ c.toNat := hupper.1
    have hle : c.toNat ≤ 90 := hupper.2
    omega
  · exact hvisible

/-- A semver tag has no white space. -/
theorem trim_semverTag {tag : String} (h : isSemverTag tag = true) : trim tag = tag := by
  obtain ⟨m, hm⟩ := isSemverTag_iff.1 h
  obtain ⟨v, tail, hv, hmajor, hminor, hpatch, htail, htext⟩ := matchSemver_eq hm
  have hdigits : ∀ ds : List Char, ds.all Char.isDigit = true → ∀ c ∈ ds, 33 ≤ c.toNat ∧ c.toNat ≤ 126 :=
    fun ds hds c hc => visible_digit (List.all_eq_true.1 hds c hc)
  have hrest : ∀ c ∈ tail, 33 ≤ c.toNat ∧ c.toNat ≤ 126 := by
    intro c hc
    cases hp : m.prerelease with
    | none =>
      rw [hp] at htail
      rw [prereleasePart_none htail] at hc
      cases hc
    | some p =>
      obtain ⟨label, number⟩ := p
      rw [hp] at htail
      obtain ⟨hlabel, hnumber, -, hcs⟩ := prereleasePart_some htail
      rw [hcs, List.mem_cons, List.mem_append, List.mem_cons] at hc
      rcases hc with rfl | hc | rfl | hc
      · decide
      · exact visible_label hlabel hc
      · decide
      · exact hdigits number hnumber.2 c hc
  refine JsString.trim_eq_self (fun c hc => JsString.isSpace_of_visible ?_)
  rw [htext, List.mem_append, List.mem_append, List.mem_cons, List.mem_append, List.mem_cons, List.mem_append] at hc
  rcases hc with hc | hc | rfl | hc | rfl | hc | hc
  · rcases hv c hc with rfl | rfl <;> decide
  · exact hdigits _ hmajor c hc
  · decide
  · exact hdigits _ hminor c hc
  · decide
  · exact hdigits _ hpatch c hc
  · exact hrest c hc

/-- **The stable tags are the releases without a prerelease.** -/
theorem prerelease_of_stable {tag : String} {m : SemverMatch} (h : classifyChannel tag = .stable)
    (hm : matchSemver tag = some m) : m.prerelease = none := by
  have hsemver := isSemverTag_iff.2 ⟨m, hm⟩
  rw [classifyChannel, trim_semverTag hsemver] at h
  simp only [hsemver, if_true] at h
  obtain ⟨v, tail, -, -, -, -, htail, htext⟩ := matchSemver_eq hm
  cases hp : m.prerelease with
  | none => rfl
  | some p =>
    obtain ⟨label, number⟩ := p
    rw [hp] at htail
    have hstart := (prereleasePart_some htail).2.2.1
    have hsuffix : tail <:+ tag.toList := by
      rw [htext]
      exact ⟨v ++ m.major ++ '.' :: m.minor ++ '.' :: m.patch, by simp⟩
    have hany : tag.toList.tails.any startsWithLabel = true :=
      List.any_eq_true.2 ⟨tail, (List.mem_tails _ _).2 hsuffix, hstart⟩
    rw [hany] at h
    split at h
    · cases h
    · cases h

end Tags
end SignalkDoctor
