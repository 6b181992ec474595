import SignalkDoctor.Collation
import SignalkDoctor.ImageRetention
import SignalkDoctor.VersionGap
/-!
# TagOrder — the order of the tags against SemVer precedence (`src/tagClassifier.ts`, `src/routes/self.ts`)

`compareSemver` compares two prereleases as text.  `compareSemver_precedence` says on which tags its sign is that of SemVer
precedence, and what follows for the newest-first sort and for the newest stable release.
-/
namespace SignalkDoctor
namespace Tags

open Comparator (byNat byLex orElse thenBy sort Lawful)
open Precedence (value Version Identifier precedence comparePrerelease compareIdentifier compareIdentifier_self IsNumeral
  Exceeds)
open Collation (localeCompare primaryWeight)
open Drift (parseInt parseInt_eq)
open ImageRetention (TaggedImage semverNewestFirst)
open JsString (trim isSpace)

/-! ## The versions behind the tags -/

/-- The version a tag is read as; the dots of its prerelease separate the identifiers. -/
def SemverMatch.version (m : SemverMatch) : Version where
  major := value m.major
  minor := value m.minor
  patch := value m.patch
  prerelease := if m.pre = "" then [] else (m.pre.toList.splitOn '.').map Identifier.ofText

def versionOf (tag : String) : Version :=
  match matchSemver tag with
  | some m => m.version
  | none => ⟨0, 0, 0, []⟩

/-- **The numbers are exact, and the prerelease is a valid one in lower case.** -/
structure SemverMatch.Valid (m : SemverMatch) : Prop where
  major : value m.major < 2 ^ 53
  minor : value m.minor < 2 ^ 53
  patch : value m.patch < 2 ^ 53
  lower : ∀ label number, m.prerelease = some (label, number) → label.map Char.toLower = label
  numeral : ∀ label number, m.prerelease = some (label, number) → IsNumeral number

/-- A semver tag as releases carry them. -/
def ValidTag (tag : String) : Prop := ∃ m, matchSemver tag = some m ∧ m.Valid

/-- **Prereleases of one version and label, the number of one exceeding, though shorter, the leading digits of the
other's**, as 9 and 10. -/
def Misordered (a b : String) : Prop :=
  ∃ A B label x y, matchSemver a = some A ∧ matchSemver b = some B ∧
    value A.major = value B.major ∧ value A.minor = value B.minor ∧ value A.patch = value B.patch ∧
      A.prerelease = some (label, x) ∧ B.prerelease = some (label, y) ∧ (Exceeds x y ∨ Exceeds y x)

/-! ## The uses -/

/-- `/api/self/check-update`: the newest of the stable tags. -/
def latestStable (tags : List String) : Option String :=
  (sort (fun a b => compareSemver localeCompare b a) (tags.filter (fun t => classifyChannel t == .stable))).head?

def updateAvailable (tags : List String) (cachedCurrent : String) : Bool :=
  match latestStable tags with
  | some latest => cachedCurrent != "unknown" && decide (compareSemver localeCompare latest cachedCurrent > 0)
  | none => false

/-! ## Two prereleases -/

theorem pre_ne_empty (label number : List Char) : String.ofList (label ++ '.' :: number) ≠ "" := by
  intro h
  have hlist := congrArg String.toList h
  simp at hlist

theorem pre_of_some {m : SemverMatch} {label number : List Char} (hm : m.prerelease = some (label, number)) :
    m.pre = String.ofList (label ++ '.' :: number) := by
  rw [SemverMatch.pre, hm]

theorem pre_of_none {m : SemverMatch} (hm : m.prerelease = none) : m.pre = "" ∧ m.version.prerelease = [] := by
  have hpre : m.pre = "" := by rw [SemverMatch.pre, hm]
  exact ⟨hpre, by rw [SemverMatch.version, if_pos hpre]⟩

/-- The identifiers of a prerelease. -/
theorem version_prerelease {m : SemverMatch} {label number : List Char} (hm : m.prerelease = some (label, number))
    (hlabel : label = "beta".toList ∨ label = "rc".toList) (hn : IsNumeral number) :
    m.version.prerelease = [.alphanumeric label, .numeric (value number)] := by
  have hpre := pre_of_some hm
  have hne : m.pre ≠ "" := hpre ▸ pre_ne_empty label number
  have hdot : '.' ∉ label := by rcases hlabel with rfl | rfl <;> decide
  have hdot' : '.' ∉ number := fun hmem => absurd (List.all_eq_true.1 hn.digits _ hmem) (by decide)
  have hall : label.all Char.isDigit = false := by rcases hlabel with rfl | rfl <;> decide
  simp only [SemverMatch.version]
  rw [if_neg hne, hpre, String.toList_ofList, List.splitOn_append_cons_self_of_not_mem hdot,
    List.splitOn_eq_singleton hdot', List.map_cons, List.map_cons, List.map_nil, Identifier.ofText, Identifier.ofText,
    hall, hn.digits]
  rfl

/-- The primary weights of two prereleases with one label: those of the numbers decide. -/
theorem localeCompare_primary (label x y : List Char) :
    byLex byNat ((label ++ '.' :: x).map primaryWeight) ((label ++ '.' :: y).map primaryWeight) =
      byLex byNat (x.map primaryWeight) (y.map primaryWeight) := by
  have hsplit : ∀ z : List Char, (label ++ '.' :: z).map primaryWeight =
      (label ++ ['.']).map primaryWeight ++ z.map primaryWeight := fun z => by simp
  rw [hsplit x, hsplit y, Comparator.byLex_append_left Comparator.lawful_byNat _ _ (fun _ _ => trivial)]

theorem map_primaryWeight_inj : ∀ {x y : List Char}, x.all Char.isDigit = true → y.all Char.isDigit = true →
    x.map primaryWeight = y.map primaryWeight → x = y
  | [], [], _, _, _ => rfl
  | c :: cs, d :: ds, hx, hy, h => by
    rw [List.all_cons, Bool.and_eq_true] at hx hy
    rw [List.map_cons, List.map_cons, List.cons.injEq, Collation.primaryWeight_digit c hx.1,
      Collation.primaryWeight_digit d hy.1] at h
    have hcs := map_primaryWeight_inj hx.2 hy.2 h.2
    have hc : 48 ≤ c.toNat ∧ 48 ≤ d.toNat := by
      have hc := hx.1
      have hd := hy.1
      simp only [Char.isDigit, Bool.and_eq_true, decide_eq_true_eq] at hc hd
      exact ⟨hc.1, hd.1⟩
    have hnat : c.toNat = d.toNat := by omega
    rw [hcs, Char.toNat_inj.1 hnat]

/-- Two prereleases with one label compare as the text of their numbers does. -/
theorem comparePre_same_label {label x y : List Char} (hx : IsNumeral x) (hy : IsNumeral y) :
    comparePre localeCompare (String.ofList (label ++ '.' :: x)) (String.ofList (label ++ '.' :: y)) =
      byLex byNat (x.map primaryWeight) (y.map primaryWeight) := by
  by_cases hxy : x = y
  · subst hxy
    rw [comparePre, if_pos rfl, Comparator.lawful_byNat.byLex.self (fun _ _ => trivial)]
  · have hdiff : byLex byNat (x.map primaryWeight) (y.map primaryWeight) ≠ 0 :=
      fun h => hxy (map_primaryWeight_inj hx.digits hy.digits (Comparator.byLex_byNat_eq_zero h))
    have htext : String.ofList (label ++ '.' :: x) ≠ String.ofList (label ++ '.' :: y) := by
      intro h
      have hlist := congrArg String.toList h
      rw [String.toList_ofList, String.toList_ofList] at hlist
      exact hxy (List.cons.inj (List.append_cancel_left hlist)).2
    rw [comparePre, if_neg htext, if_neg (pre_ne_empty label x), if_neg (pre_ne_empty label y), localeCompare, thenBy]
    simp only [String.toList_ofList, localeCompare_primary]
    exact if_pos hdiff

/-- The two labels differ in their first letters, which are as far apart in the collation as they are in ASCII. -/
theorem comparePre_labels (x y : List Char) :
    comparePre localeCompare (String.ofList ("beta".toList ++ '.' :: x)) (String.ofList ("rc".toList ++ '.' :: y)) =
        comparePrerelease [.alphanumeric "beta".toList, .numeric (value x)] [.alphanumeric "rc".toList, .numeric (value y)] ∧
      comparePre localeCompare (String.ofList ("rc".toList ++ '.' :: y)) (String.ofList ("beta".toList ++ '.' :: x)) =
        comparePrerelease [.alphanumeric "rc".toList, .numeric (value y)] [.alphanumeric "beta".toList, .numeric (value x)] := by
  have hbeta := pre_ne_empty "beta".toList x
  have hrc := pre_ne_empty "rc".toList y
  have hne : String.ofList ("beta".toList ++ '.' :: x) ≠ String.ofList ("rc".toList ++ '.' :: y) :=
    fun h => by simpa using congrArg String.toList h
  constructor
  · rw [comparePre, if_neg hne, if_neg hbeta, if_neg hrc, localeCompare, thenBy]
    simp only [String.toList_ofList]
    rfl
  · rw [comparePre, if_neg hne.symm, if_neg hrc, if_neg hbeta, localeCompare, thenBy]
    simp only [String.toList_ofList]
    rfl

theorem comparePrerelease_same_label (label : List Char) (m n : Nat) :
    comparePrerelease [.alphanumeric label, .numeric m] [.alphanumeric label, .numeric n] = byNat m n := by
  rw [comparePrerelease, byLex, byLex, compareIdentifier_self, byLex]
  have hself : orElse (byNat m n) 0 = byNat m n := by
    unfold orElse
    split
    · rfl
    · omega
  exact hself

theorem label_eq {m : SemverMatch} {tag : String} (hm : matchSemver tag = some m) (hv : m.Valid) {label number : List Char}
    (h : m.prerelease = some (label, number)) : label = "beta".toList ∨ label = "rc".toList := by
  obtain ⟨-, tail, -, -, -, -, hpre, -⟩ := matchSemver_eq hm
  rw [h] at hpre
  have hlabel := (prereleasePart_some hpre).1
  rwa [hv.lower label number h] at hlabel

theorem version_prerelease_of_some {tag : String} {m : SemverMatch} (hm : matchSemver tag = some m) (hv : m.Valid)
    {label number : List Char} (h : m.prerelease = some (label, number)) :
    m.version.prerelease = [.alphanumeric label, .numeric (value number)] :=
  version_prerelease h (label_eq hm hv h) (hv.numeral label number h)

/-- With different labels the first letters of the two decide in both orders. -/
theorem comparePre_of_labels_ne {l l' x y : List Char} (hl : l = "beta".toList ∨ l = "rc".toList)
    (hl' : l' = "beta".toList ∨ l' = "rc".toList) (hne : l ≠ l') :
    comparePre localeCompare (String.ofList (l ++ '.' :: x)) (String.ofList (l' ++ '.' :: y)) =
      comparePrerelease [.alphanumeric l, .numeric (value x)] [.alphanumeric l', .numeric (value y)] := by
  rcases hl with rfl | rfl
  · rcases hl' with rfl | rfl
    · exact absurd rfl hne
    · exact (comparePre_labels x y).1
  · rcases hl' with rfl | rfl
    · exact (comparePre_labels y x).2
    · exact absurd rfl hne

/-- With one label the numbers decide, by value and as text. -/
theorem sign_comparePre_same_label {label x y : List Char} (hx : IsNumeral x) (hy : IsNumeral y) :
    (comparePre localeCompare (String.ofList (label ++ '.' :: x)) (String.ofList (label ++ '.' :: y))).sign =
        (comparePrerelease [.alphanumeric label, .numeric (value x)] [.alphanumeric label, .numeric (value y)]).sign ↔
      ¬ (Exceeds x y ∨ Exceeds y x) := by
  rw [comparePre_same_label hx hy, comparePrerelease_same_label,
    Precedence.byLex_numerals_iff Collation.primaryWeight_digit hx hy, ← not_or]

/-- What the prereleases of two versions that agree on the numbers say. -/
theorem sign_comparePre_iff {a b : String} {A B : SemverMatch} (hA : matchSemver a = some A) (hB : matchSemver b = some B)
    (hvA : A.Valid) (hvB : B.Valid) :
    (comparePre localeCompare A.pre B.pre).sign = (comparePrerelease A.version.prerelease B.version.prerelease).sign ↔
      ¬ ∃ label x y, A.prerelease = some (label, x) ∧ B.prerelease = some (label, y) ∧ (Exceeds x y ∨ Exceeds y x) := by
  cases hpA : A.prerelease with
  | none =>
    obtain ⟨hA0, hA1⟩ := pre_of_none hpA
    rw [hA0, hA1]
    cases hpB : B.prerelease with
    | none =>
      obtain ⟨hB0, hB1⟩ := pre_of_none hpB
      rw [hB0, hB1]
      simp [comparePre, comparePrerelease]
    | some q =>
      rw [pre_of_some hpB, version_prerelease_of_some hB hvB hpB]
      simp [comparePre, comparePrerelease]
  | some p =>
    obtain ⟨label, x⟩ := p
    rw [pre_of_some hpA, version_prerelease_of_some hA hvA hpA]
    cases hpB : B.prerelease with
    | none =>
      obtain ⟨hB0, hB1⟩ := pre_of_none hpB
      rw [hB0, hB1]
      simp [comparePre, comparePrerelease]
    | some q =>
      obtain ⟨label', y⟩ := q
      rw [pre_of_some hpB, version_prerelease_of_some hB hvB hpB]
      by_cases hl : label = label'
      · subst hl
        rw [sign_comparePre_same_label (hvA.numeral label x hpA) (hvB.numeral label y hpB), not_iff_not]
        constructor
        · exact fun h => ⟨label, x, y, rfl, rfl, h⟩
        · rintro ⟨label', x', y', h, h', hex⟩
          cases h
          cases h'
          exact hex
      · have hno : ¬ ∃ l x' y', some (label, x) = some (l, x') ∧ some (label', y) = some (l, y') ∧
            (Exceeds x' y' ∨ Exceeds y' x') := by
          rintro ⟨l, x', y', h, h', -⟩
          cases h
          cases h'
          exact hl rfl
        rw [iff_true_right hno, comparePre_of_labels_ne (label_eq hA hvA hpA) (label_eq hB hvB hpB) hl]

/-! ## Two tags -/

theorem versionOf_eq {tag : String} {m : SemverMatch} (h : matchSemver tag = some m) : versionOf tag = m.version := by
  rw [versionOf, h]

theorem ValidTag.isSemverTag {tag : String} (h : ValidTag tag) : isSemverTag tag = true := by
  obtain ⟨m, hm, -⟩ := h
  exact isSemverTag_iff.2 ⟨m, hm⟩

/-- The numbers compare alike; where they agree, the prereleases decide on both sides. -/
theorem compareMatches_precedence {A B : SemverMatch} (hA : A.Valid) (hB : B.Valid) :
    ∃ major minor patch : Int,
      (major = 0 ∧ minor = 0 ∧ patch = 0 ↔ value A.major = value B.major ∧ value A.minor = value B.minor ∧
        value A.patch = value B.patch) ∧
      compareMatches localeCompare A B =
        orElse major (orElse minor (orElse patch (comparePre localeCompare A.pre B.pre))) ∧
      precedence A.version B.version =
        orElse major (orElse minor (orElse patch (comparePrerelease A.version.prerelease B.version.prerelease))) := by
  refine ⟨byNat (value A.major) (value B.major), byNat (value A.minor) (value B.minor),
    byNat (value A.patch) (value B.patch), ?_, ?_, rfl⟩
  · unfold byNat
    omega
  · simp only [compareMatches, thenBy, parseInt_eq hA.major, parseInt_eq hB.major, parseInt_eq hA.minor,
      parseInt_eq hB.minor, parseInt_eq hA.patch, parseInt_eq hB.patch]

theorem sign_compareSemver_iff {a b : String} (ha : ValidTag a) (hb : ValidTag b) :
    (compareSemver localeCompare a b).sign = (precedence (versionOf a) (versionOf b)).sign ↔ ¬ Misordered a b := by
  obtain ⟨A, hA, hvA⟩ := ha
  obtain ⟨B, hB, hvB⟩ := hb
  obtain ⟨major, minor, patch, hzero, hcompare, hprecedence⟩ := compareMatches_precedence hvA hvB
  rw [compareSemver_eq hA hB, versionOf_eq hA, versionOf_eq hB, hcompare, hprecedence, Comparator.sign_orElse_iff,
    Comparator.sign_orElse_iff, Comparator.sign_orElse_iff, sign_comparePre_iff hA hB hvA hvB]
  constructor
  · rintro h ⟨A', B', label, x, y, hA', hB', hmajor, hminor, hpatch, hpA, hpB, hex⟩
    rw [hA] at hA'
    rw [hB] at hB'
    cases hA'
    cases hB'
    obtain ⟨h1, h2, h3⟩ := hzero.2 ⟨hmajor, hminor, hpatch⟩
    exact h h1 h2 h3 ⟨label, x, y, hpA, hpB, hex⟩
  · rintro h h1 h2 h3 ⟨label, x, y, hpA, hpB, hex⟩
    obtain ⟨hmajor, hminor, hpatch⟩ := hzero.1 ⟨h1, h2, h3⟩
    exact h ⟨A, B, label, x, y, hA, hB, hmajor, hminor, hpatch, hpA, hpB, hex⟩

/-- **Misordered tags are ordered the other way round.** -/
theorem opposite_of_misordered {a b : String} (ha : ValidTag a) (hb : ValidTag b) (h : Misordered a b) :
    (0 < compareSemver localeCompare a b ∧ precedence (versionOf a) (versionOf b) < 0) ∨
      (compareSemver localeCompare a b < 0 ∧ 0 < precedence (versionOf a) (versionOf b)) := by
  obtain ⟨A, hA, hvA⟩ := ha
  obtain ⟨B, hB, hvB⟩ := hb
  obtain ⟨A', B', label, x, y, hA', hB', hmajor, hminor, hpatch, hpA, hpB, hex⟩ := h
  rw [hA] at hA'
  rw [hB] at hB'
  cases hA'
  cases hB'
  obtain ⟨major, minor, patch, hzero, hcompare, hprecedence⟩ := compareMatches_precedence hvA hvB
  obtain ⟨rfl, rfl, rfl⟩ := hzero.2 ⟨hmajor, hminor, hpatch⟩
  have hx := hvA.numeral label x hpA
  have hy := hvB.numeral label y hpB
  have hskip : ∀ n : Int, orElse 0 (orElse 0 (orElse 0 n)) = n := fun n => rfl
  rw [compareSemver_eq hA hB, versionOf_eq hA, versionOf_eq hB, hcompare, hprecedence, hskip, hskip, pre_of_some hpA,
    pre_of_some hpB, comparePre_same_label hx hy, version_prerelease_of_some hA hvA hpA,
    version_prerelease_of_some hB hvB hpB, comparePrerelease_same_label]
  rcases hex with hex | hex
  · left
    have hvalue := Precedence.value_lt_of_length_lt hx.digits hy.digits hex.1 (hx.head?_ne hy hex.1)
    refine ⟨Precedence.byLex_pos_of_exceeds Collation.primaryWeight_digit hx.digits hy.digits hex, ?_⟩
    unfold byNat
    omega
  · right
    have hvalue := Precedence.value_lt_of_length_lt hy.digits hx.digits hex.1 (hy.head?_ne hx hex.1)
    have hpos := Precedence.byLex_pos_of_exceeds Collation.primaryWeight_digit hy.digits hx.digits hex
    have hanti := Comparator.lawful_byNat.byLex.anti (x := x.map primaryWeight) (y := y.map primaryWeight)
      (fun _ _ => trivial) (fun _ _ => trivial)
    refine ⟨by omega, ?_⟩
    unfold byNat
    omega

theorem lawful_tags : Lawful (fun tag => isSemverTag tag = true) (compareSemver localeCompare) :=
  lawful_compareSemver (Collation.lawful_localeCompare.mono (fun _ _ => trivial))

theorem precedence_nonpos {a b : String} (ha : ValidTag a) (hb : ValidTag b) (hno : ¬ Misordered a b)
    (h : compareSemver localeCompare a b ≤ 0) : precedence (versionOf a) (versionOf b) ≤ 0 := by
  have hsign := (sign_compareSemver_iff ha hb).2 hno
  rcases Int.lt_or_eq_of_le h with hlt | heq
  · rw [Int.sign_eq_neg_one_of_neg hlt] at hsign
    exact Int.le_of_lt (Int.sign_eq_neg_one_iff_neg.1 hsign.symm)
  · rw [heq, Int.sign_zero] at hsign
    exact Int.le_of_eq (Int.sign_eq_zero_iff_zero.1 hsign.symm)

/-! ## The newest-first sort -/

theorem Misordered.isSemverTag {a b : String} (h : Misordered a b) :
    Tags.isSemverTag a = true ∧ Tags.isSemverTag b = true := by
  obtain ⟨A, B, -, -, -, hA, hB, -⟩ := h
  exact ⟨isSemverTag_iff.2 ⟨A, hA⟩, isSemverTag_iff.2 ⟨B, hB⟩⟩

/-- **The sort puts no tag behind an older one exactly when no two tags are misordered.** -/
theorem pairwise_semverNewestFirst_iff {tagged : List TaggedImage}
    (hvalid : ∀ t ∈ tagged, isSemverTag t.tag = true → ValidTag t.tag) :
    (semverNewestFirst localeCompare tagged).Pairwise (fun s t => precedence (versionOf t.tag) (versionOf s.tag) ≤ 0) ↔
      ∀ s ∈ tagged, ∀ t ∈ tagged, ¬ Misordered s.tag t.tag := by
  have hmem : ∀ {t}, t ∈ semverNewestFirst localeCompare tagged → t ∈ tagged ∧ ValidTag t.tag := by
    intro t ht
    obtain ⟨ht, hsemver⟩ := ImageRetention.mem_semverNewestFirst.1 ht
    exact ⟨ht, hvalid t ht hsemver⟩
  have hsorted := ImageRetention.pairwise_semverNewestFirst
    (Collation.lawful_localeCompare.mono (fun _ _ => trivial)) tagged
  constructor
  · intro hprec s hs t ht hmis
    obtain ⟨hs', ht'⟩ := hmis.isSemverTag
    have hne : s ≠ t := by
      rintro rfl
      have hself := lawful_tags.self hs'
      rcases opposite_of_misordered (hvalid s hs hs') (hvalid s hs hs') hmis with h | h <;> omega
    have hopp := opposite_of_misordered (hvalid s hs hs') (hvalid t ht ht') hmis
    have hmis' : Misordered t.tag s.tag := by
      obtain ⟨A, B, label, x, y, hA, hB, hmajor, hminor, hpatch, hpA, hpB, hex⟩ := hmis
      exact ⟨B, A, label, y, x, hB, hA, hmajor.symm, hminor.symm, hpatch.symm, hpB, hpA, hex.symm⟩
    have hopp' := opposite_of_misordered (hvalid t ht ht') (hvalid s hs hs') hmis'
    -- whichever stands first, the two orders cannot agree on the pair
    rcases Comparator.rel_or_rel_of_pairwise hne (hsorted.and hprec) (ImageRetention.mem_semverNewestFirst.2 ⟨hs, hs'⟩)
      (ImageRetention.mem_semverNewestFirst.2 ⟨ht, ht'⟩) with h | h <;> omega
  · intro hno
    refine hsorted.imp_of_mem (fun {s t} hs ht hle => ?_)
    obtain ⟨hs, hvs⟩ := hmem hs
    obtain ⟨ht, hvt⟩ := hmem ht
    exact precedence_nonpos hvt hvs (hno t ht s hs) hle

/-! ## The newest stable release -/

theorem not_misordered_of_stable {a b : String} (h : classifyChannel a = .stable) :
    ¬ Misordered a b ∧ ¬ Misordered b a := by
  constructor
  · rintro ⟨A, B, label, x, y, hA, -, -, -, -, hpA, -⟩
    rw [prerelease_of_stable h hA] at hpA
    cases hpA
  · rintro ⟨A, B, label, x, y, -, hB, -, -, -, -, hpB, -⟩
    rw [prerelease_of_stable h hB] at hpB
    cases hpB

/-- The release chosen is the newest by precedence. -/
theorem latestStable_newest {tags : List String} (hvalid : ∀ t ∈ tags, classifyChannel t = .stable → ValidTag t)
    {latest : String} (h : latestStable tags = some latest) :
    (latest ∈ tags ∧ classifyChannel latest = .stable) ∧
      ∀ t ∈ tags, classifyChannel t = .stable → precedence (versionOf t) (versionOf latest) ≤ 0 := by
  have hmem : ∀ {t}, t ∈ tags.filter (fun t => classifyChannel t == .stable) ↔ t ∈ tags ∧ classifyChannel t = .stable := by
    simp
  have hsorted := Comparator.pairwise_sort lawful_tags.swap
    (fun t (ht : t ∈ tags.filter (fun t => classifyChannel t == .stable)) =>
      (hvalid t (hmem.1 ht).1 (hmem.1 ht).2).isSemverTag)
  rw [latestStable] at h
  obtain ⟨rest, hsort⟩ := List.head?_eq_some_iff.1 h
  rw [hsort, List.pairwise_cons] at hsorted
  have hlatest : latest ∈ tags ∧ classifyChannel latest = .stable :=
    hmem.1 (Comparator.mem_sort.1 (hsort ▸ List.mem_cons_self ..))
  refine ⟨hlatest, fun t ht hstable => ?_⟩
  have hle : compareSemver localeCompare t latest ≤ 0 := by
    have htsort := Comparator.mem_sort (c := fun a b => compareSemver localeCompare b a) |>.2 (hmem.2 ⟨ht, hstable⟩)
    rw [hsort] at htsort
    rcases List.mem_cons.1 htsort with rfl | htrest
    · exact Int.le_of_eq (lawful_tags.self (hvalid t ht hstable).isSemverTag)
    · exact hsorted.1 t htrest
  exact precedence_nonpos (hvalid t ht hstable) (hvalid latest hlatest.1 hlatest.2)
    (not_misordered_of_stable hstable).1 hle

theorem updateAvailable_iff {tags : List String} {latest current : String} (h : latestStable tags = some latest)
    (hlatest : ValidTag latest) (hstable : classifyChannel latest = .stable) (hcurrent : ValidTag current) :
    updateAvailable tags current = true ↔ 0 < precedence (versionOf latest) (versionOf current) := by
  have hunknown : current ≠ "unknown" := by
    rintro rfl
    obtain ⟨m, hm, -⟩ := hcurrent
    rw [show matchSemver "unknown" = none by decide +kernel] at hm
    cases hm
  have hsign := (sign_compareSemver_iff hlatest hcurrent).2 (not_misordered_of_stable hstable).1
  simp only [updateAvailable, h, Bool.and_eq_true, bne_iff_ne, ne_eq, hunknown, not_false_eq_true, true_and,
    decide_eq_true_eq]
  rw [gt_iff_lt, ← Int.sign_eq_one_iff_pos, hsign, Int.sign_eq_one_iff_pos]

/-- **`compareSemver` has the sign of SemVer precedence exactly on the tags that are not misordered**: so has the
newest-first sort, and the choice of the newest release always does. -/
theorem compareSemver_precedence (a b : String) (ha : ValidTag a) (hb : ValidTag b) :
    ((compareSemver localeCompare a b).sign = (precedence (versionOf a) (versionOf b)).sign ↔ ¬ Misordered a b) ∧
    (∀ tagged : List TaggedImage, (∀ t ∈ tagged, isSemverTag t.tag = true → ValidTag t.tag) →
      ((semverNewestFirst localeCompare tagged).Pairwise (fun s t => precedence (versionOf t.tag) (versionOf s.tag) ≤ 0) ↔
        ∀ s ∈ tagged, ∀ t ∈ tagged, ¬ Misordered s.tag t.tag)) ∧
    ∀ (tags : List String) (latest current : String), (∀ t ∈ tags, classifyChannel t = .stable → ValidTag t) →
      ValidTag current → latestStable tags = some latest →
        (∀ t ∈ tags, classifyChannel t = .stable → precedence (versionOf t) (versionOf latest) ≤ 0) ∧
          (updateAvailable tags current = true ↔ 0 < precedence (versionOf latest) (versionOf current)) := by
  refine ⟨sign_compareSemver_iff ha hb, fun tagged h => pairwise_semverNewestFirst_iff h, ?_⟩
  intro tags latest current hvalid hcurrent h
  obtain ⟨⟨hmem, hstable⟩, hnewest⟩ := latestStable_newest hvalid h
  exact ⟨hnewest, updateAvailable_iff h (hvalid latest hmem hstable) hstable hcurrent⟩

theorem validTag_release : ValidTag "1.2.3" :=
  ⟨⟨['1'], ['2'], ['3'], none⟩, by decide +kernel, by decide, by decide, by decide, by simp, by simp⟩

theorem isNumeral_of {x : List Char} (h : x ≠ [] ∧ x.all Char.isDigit = true ∧ (x.head? = some '0' → x = ['0'])) :
    IsNumeral x := ⟨h.1, h.2.1, h.2.2⟩

theorem validTag_beta9 : ValidTag "1.2.3-beta.9" := by
  refine ⟨⟨['1'], ['2'], ['3'], some (['b', 'e', 't', 'a'], ['9'])⟩, by decide +kernel, by decide, by decide, by decide, ?_, ?_⟩
  · intro label number h
    cases h
    decide
  · intro label number h
    cases h
    exact isNumeral_of (by decide)

theorem validTag_beta10 : ValidTag "1.2.3-beta.10" := by
  refine ⟨⟨['1'], ['2'], ['3'], some (['b', 'e', 't', 'a'], ['1', '0'])⟩, by decide +kernel, by decide, by decide, by decide,
    ?_, ?_⟩
  · intro label number h
    cases h
    decide
  · intro label number h
    cases h
    exact isNumeral_of (by decide)

/-- `beta.9` comes before the release, and the release is newer than it. -/
theorem compareSemver_precedence_release :
    ((compareSemver localeCompare "1.2.3" "1.2.3-beta.9").sign =
        (precedence (versionOf "1.2.3") (versionOf "1.2.3-beta.9")).sign ↔ ¬ Misordered "1.2.3" "1.2.3-beta.9") ∧
      ((semverNewestFirst localeCompare [⟨"r:1.2.3", "1.2.3", "sha256:1", 1⟩]).Pairwise
          (fun s t => precedence (versionOf t.tag) (versionOf s.tag) ≤ 0) ↔
        ∀ s ∈ [(⟨"r:1.2.3", "1.2.3", "sha256:1", 1⟩ : TaggedImage)], ∀ t ∈ [(⟨"r:1.2.3", "1.2.3", "sha256:1", 1⟩ : TaggedImage)],
          ¬ Misordered s.tag t.tag) ∧
      (updateAvailable ["1.2.3", "latest"] "1.2.3-beta.9" = true ↔
        0 < precedence (versionOf "1.2.3") (versionOf "1.2.3-beta.9")) := by
  obtain ⟨hsign, hsort, hcheck⟩ := compareSemver_precedence _ _ validTag_release validTag_beta9
  refine ⟨hsign, hsort _ ?_, (hcheck _ _ _ ?_ validTag_beta9 (by decide +kernel)).2⟩
  · intro t ht _
    rw [List.mem_singleton.1 ht]
    exact validTag_release
  · intro t ht hstable
    rcases List.mem_cons.1 ht with rfl | ht
    · exact validTag_release
    · rw [List.mem_singleton.1 ht] at hstable
      exact absurd hstable (by decide +kernel)

/-- `beta.10` counts as older than `beta.9`. -/
theorem compareSemver_beta10 : ¬ ∀ a b, ValidTag a → ValidTag b →
    (compareSemver localeCompare a b).sign = (precedence (versionOf a) (versionOf b)).sign := by
  intro h
  exact absurd (h _ _ validTag_beta10 validTag_beta9) (by decide +kernel)

end Tags
end SignalkDoctor
