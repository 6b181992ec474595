import SignalkDoctor.PackageLookups
import SignalkDoctor.Utf8
/-!
# PackageIndependence — one package's file against the others' (`src/drift/installed-packages.ts`)

Each tracked package has calls of its own, and an answer that breaks one lookup is meant to cost that package only.  A
`package.json` that is the document `null` costs them all: `reads_isolated_iff` says that this is the one thing that
does.
-/
namespace SignalkDoctor
namespace Drift
namespace ReadRun

variable (J : JsonCodec) (utf8 : List UInt8 → Text)

/-- What the calls of a lookup are answered. -/
def answers (r : ReadRun) (name : String) (tree : Tree) : List FetchResult :=
  (r.calls name tree).map (fun c => r.fetch c.1 c.2)

/-- The entry of a package, if it is listed. -/
def listed (packages : List InstalledPackage) (name : String) : Option InstalledPackage :=
  packages.find? (fun p => p.name == name)

/-- **The call returns, and each package's entry or absence is up to its own answers**: whatever else another call was
answered, with the same answers to this package's calls it lists the same. -/
structure Isolated (r : ReadRun) : Prop where
  resolves : ¬ r.Throws J utf8
  independent : ∀ packages, r.Returns J utf8 packages → ∀ (r' : ReadRun) (packages' : List InstalledPackage),
    r'.Returns J utf8 packages' → ∀ name ∈ trackedPackages, (∀ tree, r'.answers name tree = r.answers name tree) →
      listed packages' name = listed packages name

/-- The document in an archive, if it has one. -/
def document (value : List UInt8) : Option Json := (firstTarEntry value).bind (fun entry => J.parse (utf8 entry))

/-- A path that is not there, or an archive without a usable version: the next candidate is tried. -/
def IsMiss : FetchResult → Prop
  | .error error => error.kind = .notFound
  | .ok value => ∀ parsed, document J utf8 value = some parsed →
    parsed ≠ .null ∧ ∀ version, parsed.get? "version" = some (.str version) → version = ""

/-- **A lookup gets to the document `null`**, all its answers before being misses. -/
def MeetsNull (r : ReadRun) (name : String) (tree : Tree) : Prop :=
  ∃ before value after, r.answers name tree = before ++ .ok value :: after ∧ (∀ b ∈ before, IsMiss J utf8 b) ∧
    document J utf8 value = some .null

variable {J utf8} {r : ReadRun}

/-! ## One answer -/

theorem readOne_ok (value : List UInt8) : readOne J utf8 (.ok value) =
    match document J utf8 value with
    | none => none
    | some .null => some none
    | some parsed =>
      match parsed.get? "version" with
      | some (.str version) => if version ≠ "" then some (some (.found version)) else none
      | _ => none := rfl

theorem readOne_eq_some_none_iff (res : FetchResult) :
    readOne J utf8 res = some none ↔ ∃ value, res = .ok value ∧ document J utf8 value = some .null := by
  cases res with
  | error error =>
    simp only [readOne, reduceCtorEq, false_and, exists_false, iff_false]
    split <;> simp
  | ok value =>
    rw [readOne_ok]
    simp only [Except.ok.injEq, exists_eq_left']
    split
    · simp [*]
    · simp [*]
    · rename_i parsed hnull hparsed
      have hne : parsed ≠ .null := fun h => hnull h
      rw [hparsed, Option.some.injEq, iff_false_right hne]
      split
      · split <;> simp
      · simp

theorem readOne_eq_none_iff (res : FetchResult) : readOne J utf8 res = none ↔ IsMiss J utf8 res := by
  cases res with
  | error error =>
    simp only [readOne, IsMiss]
    split <;> simp_all
  | ok value =>
    rw [readOne_ok]
    simp only [IsMiss]
    split
    · simp [*]
    · simp [*]
    · rename_i parsed hnull hparsed
      have hne : parsed ≠ .null := fun h => hnull h
      simp only [hparsed, Option.some.injEq, forall_eq', ne_eq, hne, not_false_eq_true, true_and]
      split
      · rename_i version hversion
        simp only [hversion, Option.some.injEq, Json.str.injEq, forall_eq']
        split <;> simp_all
      · rename_i hno
        simp only [true_iff]
        exact fun version hversion => absurd hversion (hno version)

/-! ## The lookups -/

theorem told_eq (name : String) (tree : Tree) : r.told J utf8 name tree = (r.answers name tree).findSome? (readOne J utf8) := by
  rw [told, answers, List.findSome?_map]
  rfl

/-- A lookup throws exactly when it gets to a `null`. -/
theorem told_eq_some_none_iff (name : String) (tree : Tree) :
    r.told J utf8 name tree = some none ↔ r.MeetsNull J utf8 name tree := by
  rw [told_eq, List.findSome?_eq_some_iff]
  constructor
  · rintro ⟨before, res, after, hsplit, hthrows, hmiss⟩
    obtain ⟨value, rfl, hnull⟩ := (readOne_eq_some_none_iff res).1 hthrows
    exact ⟨before, value, after, hsplit, fun b hb => (readOne_eq_none_iff b).1 (hmiss b hb), hnull⟩
  · rintro ⟨before, value, after, hsplit, hmiss, hnull⟩
    exact ⟨before, .ok value, after, hsplit, (readOne_eq_some_none_iff _).2 ⟨value, rfl, hnull⟩,
      fun b hb => (readOne_eq_none_iff b).2 (hmiss b hb)⟩

/-- What a list says of a name is what that name's own entry is. -/
theorem find?_filterMap_eq {f : String → Option InstalledPackage} (hf : ∀ name p, f name = some p → p.name = name)
    (name : String) : ∀ names : List String, name ∈ names → listed (names.filterMap f) name = f name := by
  intro names hname
  cases hp : f name with
  | some p => exact find?_filterMap_name hf hp names hname
  | none =>
    rw [listed, List.find?_eq_none]
    intro q hq heq
    obtain ⟨n, -, hn⟩ := List.mem_filterMap.1 hq
    rw [beq_iff_eq, hf n q hn] at heq
    rw [heq, hp] at hn
    cases hn

theorem listed_of_returns {packages : List InstalledPackage} (h : r.Returns J utf8 packages) {name : String}
    (hname : name ∈ trackedPackages) : listed packages name = packageEntry (r.reads J utf8) name := by
  obtain ⟨-, -, rfl, -⟩ := readInstalledPackages_ok_iff.1 h.2
  exact find?_filterMap_eq (fun name p => packageEntry_name) name trackedPackages hname

/-- **A package's entry is a function of its own answers.** -/
theorem packageEntry_congr {r' : ReadRun} {name : String} (h : ∀ tree, r'.answers name tree = r.answers name tree) :
    packageEntry (r'.reads J utf8) name = packageEntry (r.reads J utf8) name := by
  have hlookup : ∀ tree, r'.lookup J utf8 name tree = r.lookup J utf8 name tree := fun tree => by
    rw [lookup_eq, lookup_eq, told_eq, told_eq, h tree]
  have hd : (r'.reads J utf8).dataDir name = (r.reads J utf8).dataDir name := by
    rw [(reads_eq name).1, (reads_eq name).1, hlookup]
  have hi : (r'.reads J utf8).image name = (r.reads J utf8).image name := by
    rw [(reads_eq name).2, (reads_eq name).2, hlookup]
  rw [packageEntry, packageEntry, packageError, packageError, installedEntry, installedEntry, hd, hi]

/-- **One package costs the others nothing exactly when no lookup gets to the document `null`.** -/
theorem reads_isolated_iff (J : JsonCodec) (utf8 : List UInt8 → Text) (r : ReadRun) (hruntime : r.runtime = true)
    (hprobe : r.probe = none) :
    r.Isolated J utf8 ↔ ∀ name ∈ trackedPackages, ∀ tree, ¬ r.MeetsNull J utf8 name tree := by
  have hthrows : r.Throws J utf8 ↔ ∃ name ∈ trackedPackages, ∃ tree, r.MeetsNull J utf8 name tree := by
    rw [throws_iff, and_iff_right hruntime, and_iff_right hprobe]
    simp only [told_eq_some_none_iff]
  constructor
  · intro h name hname tree hnull
    exact h.resolves (hthrows.2 ⟨name, hname, tree, hnull⟩)
  · intro hno
    refine ⟨fun h => ?_, fun packages hr r' packages' hr' name hname hsame => ?_⟩
    · obtain ⟨name, hname, tree, hnull⟩ := hthrows.1 h
      exact hno name hname tree hnull
    · rw [listed_of_returns hr hname, listed_of_returns hr' hname, packageEntry_congr hsame]

end ReadRun

/-- An archive of one file of this content, fewer than sixty-four bytes. -/
def smallTar (content : List UInt8) : List UInt8 :=
  let size := content.length
  List.replicate 124 0 ++ (List.replicate 9 48 ++ [48 + UInt8.ofNat (size / 8), 48 + UInt8.ofNat (size % 8), 0]) ++
    List.replicate 376 0 ++ content

/-- A `package.json` with a version. -/
def versionFile : List UInt8 := "\x7b\"version\":\"1.2.0\"\x7d".toUTF8.toList

/-- A container that stays and answers every path with this. -/
def answering (answer : FetchResult) : ReadRun :=
  { recreated with
    existed := fun _ => true
    serves := fun _ _ => answer }

/-- Every package has a version, and no lookup costs another. -/
theorem reads_isolated_versions :
    (answering (.ok (smallTar versionFile))).Isolated jsonText Utf8.decode ∧
      ∀ name ∈ trackedPackages, (answering (.ok (smallTar versionFile))).told jsonText Utf8.decode name .dataDir =
        some (some (.found "1.2.0")) := by
  have hread : readOne jsonText Utf8.decode (.ok (smallTar versionFile)) = some (some (.found "1.2.0")) := by decide +kernel
  have hanswers : ∀ name tree, ∀ b ∈ (answering (.ok (smallTar versionFile))).answers name tree,
      b = .ok (smallTar versionFile) := by
    intro name tree b hb
    obtain ⟨c, -, rfl⟩ := List.mem_map.1 hb
    rfl
  constructor
  · refine (ReadRun.reads_isolated_iff jsonText Utf8.decode _ rfl rfl).2 (fun name _ tree hnull => ?_)
    obtain ⟨before, value, after, hsplit, -, hdoc⟩ := hnull
    have hvalue := hanswers name tree (.ok value) (by rw [hsplit]; simp)
    have hthrows : readOne jsonText Utf8.decode (.ok value) = some none :=
      (ReadRun.readOne_eq_some_none_iff _).2 ⟨value, rfl, hdoc⟩
    rw [hvalue, hread] at hthrows
    cases hthrows
  · intro name _
    rw [ReadRun.told_eq]
    obtain ⟨b, rest, hsplit⟩ : ∃ b rest, (answering (.ok (smallTar versionFile))).answers name .dataDir = b :: rest :=
      ⟨_, _, rfl⟩
    rw [hsplit, List.findSome?_cons, hanswers name .dataDir b (by rw [hsplit]; exact List.mem_cons_self ..), hread]

/-- The file of the first package holds the four letters `null`, and the call rejects. -/
theorem reads_null : ¬ ∀ (J : JsonCodec) (utf8 : List UInt8 → Text) (r : ReadRun), r.runtime = true → r.probe = none →
    r.Isolated J utf8 := by
  intro h
  refine (h jsonText Utf8.decode (answering (.ok (smallTar [110, 117, 108, 108]))) rfl rfl).resolves ?_
  rw [ReadRun.throws_iff]
  refine ⟨rfl, rfl, "@canboat/canboatjs", by decide, .dataDir, ?_⟩
  rw [ReadRun.told_eq_some_none_iff]
  refine ⟨[], _, [], rfl, fun b hb => absurd hb List.not_mem_nil, ?_⟩
  decide +kernel

end Drift
end SignalkDoctor
