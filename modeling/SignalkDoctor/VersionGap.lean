import SignalkDoctor.Precedence
import SignalkDoctor.TagClassifier
/-!
# VersionGap — the classification of a gap against SemVer precedence (`src/drift/classify.ts`)

`classify` compares the three numbers, and of versions that agree on them only whether the texts of their prereleases are
the same.  `classify_gap_iff` says of which pairs of versions its answer is the gap that SemVer precedence sees.
-/
namespace SignalkDoctor
namespace Drift

open JsString (trim)
open Precedence (Version Identifier value precedence comparePrerelease comparePrerelease_self)
open Comparator (byNat thenBy orElse)
open Tags (digits)

/-! ## The texts of a match -/

/-- The groups of a match of `SEMVER_RE`, as they are written. -/
structure VersionMatch where
  major : List Char
  minor : List Char
  patch : List Char
  prerelease : Option (List Char)
  deriving DecidableEq, Repr

/-- `(?:-([\w.+-]+))?$` -/
def prereleaseGroup : List Char → Option (Option (List Char))
  | [] => some none
  | '-' :: cs => if cs ≠ [] ∧ cs.all isPrereleaseChar = true then some (some cs) else none
  | _ => none

def matchVersion (v : String) : Option VersionMatch := do
  let (major, cs) ← digits (dropV (trim v).toList)
  let cs ← dot cs
  let (minor, cs) ← digits cs
  let cs ← dot cs
  let (patch, cs) ← digits cs
  let prerelease ← prereleaseGroup cs
  return ⟨major, minor, patch, prerelease⟩

def VersionMatch.parsed (m : VersionMatch) : Parsed where
  major := parseInt m.major
  minor := parseInt m.minor
  patch := parseInt m.patch
  prerelease := m.prerelease.map String.ofList

/-! ## The version by SemVer -/

/-- The identifiers of a prerelease; what stands behind a `+` is build metadata and has no part in precedence. -/
def identifiers (group : List Char) : List Identifier :=
  ((group.takeWhile (· ≠ '+')).splitOn '.').map Identifier.ofText

def VersionMatch.version (m : VersionMatch) : Version where
  major := value m.major
  minor := value m.minor
  patch := value m.patch
  prerelease := (m.prerelease.map identifiers).getD []

structure VersionMatch.Exact (m : VersionMatch) : Prop where
  major : value m.major < 2 ^ 53
  minor : value m.minor < 2 ^ 53
  patch : value m.patch < 2 ^ 53

/-- **The gap between two versions**: none where the latest does not exceed the installed one, else the first component
in which it is larger. -/
def gap (installed latest : Version) : DriftClassification :=
  if precedence latest installed ≤ 0 then .upToDate
  else if latest.major > installed.major then .major
  else if latest.minor > installed.minor then .minor
  else if latest.patch > installed.patch then .patch
  else .prerelease

/-- **Prereleases of one triple, written differently, of which the latest is not the later.** -/
def Phantom (installed latest : VersionMatch) : Prop :=
  installed.version.SameTriple latest.version ∧ installed.prerelease ≠ latest.prerelease ∧
    comparePrerelease latest.version.prerelease installed.version.prerelease ≤ 0

/-! ## What `classify` reads -/

theorem toDouble_of_lt {n : Nat} (h : n < 2 ^ 53) : toDouble n = n := if_pos h

theorem parseInt_eq {ds : List Char} (h : value ds < 2 ^ 53) : parseInt ds = value ds := toDouble_of_lt h

theorem number_eq_digits (cs : List Char) : number cs = (digits cs).map (fun p => (parseInt p.1, p.2)) := by
  unfold number digits
  split <;> rfl

theorem prereleasePart_eq (cs : List Char) :
    prereleasePart cs = (prereleaseGroup cs).map (fun p => p.map String.ofList) := by
  fun_cases prereleaseGroup cs with
  | case1 => rfl
  | case2 cs h => rw [prereleasePart, if_pos h, Option.map_some, Option.map_some]
  | case3 cs h => rw [prereleasePart, if_neg h, Option.map_none]
  | case4 cs hnil hdash =>
    unfold prereleasePart
    split
    · exact absurd rfl hnil
    · exact absurd rfl (hdash _)
    · rfl

theorem parse_eq (v : String) : parse v = (matchVersion v).map VersionMatch.parsed := by
  unfold parse matchVersion
  simp only [number_eq_digits, prereleasePart_eq, Option.bind_eq_bind, Option.bind_map, Option.map_bind, Function.comp_def]
  rfl

theorem map_ofList_inj {s t : Option (List Char)} : s.map String.ofList = t.map String.ofList ↔ s = t :=
  (Option.map_injective (fun _ _ h => String.ofList_injective h)).eq_iff

/-- With exact numbers `classify` goes by the versions, and by the texts of the prereleases. -/
theorem classify_eq {installed latest : String} {A B : VersionMatch} (hA : matchVersion installed = some A)
    (hB : matchVersion latest = some B) (hexactA : A.Exact) (hexactB : B.Exact) : classify installed latest =
      if A.version.SameTriple B.version then if A.prerelease = B.prerelease then .upToDate else .prerelease
      else if B.version.major > A.version.major then .major
      else if B.version.major = A.version.major ∧ B.version.minor > A.version.minor then .minor
      else if B.version.major = A.version.major ∧ B.version.minor = A.version.minor ∧
        B.version.patch > A.version.patch then .patch
      else .upToDate := by
  have hparsedA : A.parsed.major = A.version.major ∧ A.parsed.minor = A.version.minor ∧ A.parsed.patch = A.version.patch :=
    ⟨parseInt_eq hexactA.major, parseInt_eq hexactA.minor, parseInt_eq hexactA.patch⟩
  have hparsedB : B.parsed.major = B.version.major ∧ B.parsed.minor = B.version.minor ∧ B.parsed.patch = B.version.patch :=
    ⟨parseInt_eq hexactB.major, parseInt_eq hexactB.minor, parseInt_eq hexactB.patch⟩
  have hpre : A.parsed.prerelease = B.parsed.prerelease ↔ A.prerelease = B.prerelease := map_ofList_inj
  simp only [classify, parse_eq, hA, hB, Option.map_some, hparsedA, hparsedB, hpre]
  rfl

/-- With one triple only the prereleases tell two versions apart. -/
theorem gap_of_sameTriple {A B : Version} (h : A.SameTriple B) :
    gap A B = if comparePrerelease B.prerelease A.prerelease ≤ 0 then .upToDate else .prerelease := by
  rw [gap, Precedence.precedence_of_sameTriple h.symm, if_neg (show ¬ B.major > A.major by rw [h.1]; exact Nat.lt_irrefl _),
    if_neg (show ¬ B.minor > A.minor by rw [h.2.1]; exact Nat.lt_irrefl _),
    if_neg (show ¬ B.patch > A.patch by rw [h.2.2]; exact Nat.lt_irrefl _)]

/-- With different triples the first number that differs is what `classify` names. -/
theorem gap_of_not_sameTriple {A B : Version} (h : ¬ A.SameTriple B) : gap A B =
    if B.major > A.major then .major
    else if B.major = A.major ∧ B.minor > A.minor then .minor
    else if B.major = A.major ∧ B.minor = A.minor ∧ B.patch > A.patch then .patch
    else .upToDate := by
  have hle := Precedence.precedence_le_zero_iff (fun hs => h hs.symm)
  unfold Version.SameTriple at h
  rw [gap]
  split_ifs <;> first | rfl | omega

/-- **`classify` answers the gap of SemVer precedence exactly where it is not taken in by a difference of prereleases
in which the latest is not the later.** -/
theorem classify_gap_iff (installed latest : String) (A B : VersionMatch) (hA : matchVersion installed = some A)
    (hB : matchVersion latest = some B) (hexactA : A.Exact) (hexactB : B.Exact) :
    classify installed latest = gap A.version B.version ↔ ¬ Phantom A B := by
  rw [classify_eq hA hB hexactA hexactB, Phantom]
  by_cases hsame : A.version.SameTriple B.version
  · rw [if_pos hsame, gap_of_sameTriple hsame, and_iff_right hsame]
    by_cases hpre : A.prerelease = B.prerelease
    · have hself : comparePrerelease B.version.prerelease A.version.prerelease = 0 := by
        rw [VersionMatch.version, VersionMatch.version, hpre, comparePrerelease_self]
      rw [if_pos hpre, if_pos (Int.le_of_eq hself)]
      exact ⟨fun _ h => h.1 hpre, fun _ => rfl⟩
    · rw [if_neg hpre, and_iff_right hpre]
      by_cases hle : comparePrerelease B.version.prerelease A.version.prerelease ≤ 0
      · rw [if_pos hle]
        exact ⟨fun h => absurd h (by decide), fun h => absurd hle h⟩
      · rw [if_neg hle]
        exact ⟨fun _ => hle, fun _ => rfl⟩
  · rw [if_neg hsame, gap_of_not_sameTriple hsame]
    exact ⟨fun _ h => hsame h.1, fun _ => rfl⟩

theorem classify_gap_iff_minor :
    classify "3.18.0" "v3.19.0-beta.2" = gap ⟨3, 18, 0, []⟩ ⟨3, 19, 0, [.alphanumeric "beta".toList, .numeric 2]⟩ ↔
      ¬ Phantom ⟨['3'], ['1', '8'], ['0'], none⟩ ⟨['3'], ['1', '9'], ['0'], some "beta.2".toList⟩ :=
  classify_gap_iff "3.18.0" "v3.19.0-beta.2" ⟨['3'], ['1', '8'], ['0'], none⟩
    ⟨['3'], ['1', '9'], ['0'], some "beta.2".toList⟩ (by decide +kernel) (by decide +kernel)
    ⟨by decide, by decide, by decide⟩ ⟨by decide, by decide, by decide⟩

/-- A release counts as behind its own beta. -/
theorem classify_gap_beta : ¬ ∀ (installed latest : String) (A B : VersionMatch), matchVersion installed = some A →
    matchVersion latest = some B → A.Exact → B.Exact → classify installed latest = gap A.version B.version := by
  intro h
  have hgap := h "2.0.0" "2.0.0-beta.1" ⟨['2'], ['0'], ['0'], none⟩ ⟨['2'], ['0'], ['0'], some "beta.1".toList⟩
    (by decide +kernel) (by decide +kernel) ⟨by decide, by decide, by decide⟩ ⟨by decide, by decide, by decide⟩
  exact absurd hgap (by decide +kernel)

end Drift
end SignalkDoctor
