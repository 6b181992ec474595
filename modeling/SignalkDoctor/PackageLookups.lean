import Mathlib.Data.List.Infix
import Mathlib.Data.List.DropRight
import SignalkDoctor.Scanner
import SignalkDoctor.UnixPath
/-!
# PackageLookups — the reads behind the lookups (`src/drift/installed-packages.ts`)

`Installed` takes what the two lookups of a package gave.  Here a lookup is its `getArchive` calls, each answered at a
moment by the container of that moment or, while there is none, by the error that a missing path gets too.  The presence
check is made once, before all of them: `absences_honest_iff` says when what the result takes as absent was looked up
while the container existed.
-/
namespace SignalkDoctor
namespace Drift

open JsString (trim isSpace)

/-! ## The candidate paths -/

/-- The two locations a copy can live in. -/
inductive Tree where
  | dataDir | image
  deriving DecidableEq, Repr

def dataDirCandidatePaths (dataDirRoot name : String) : List String :=
  [dataDirRoot ++ "/node_modules/" ++ name ++ "/package.json"]

/-- The `package.json` of a package at a directory and at every ancestor of it. -/
def ancestorPaths (name base : String) : List String :=
  let segments := UnixPath.segments base.toList
  (List.range (segments.length + 1)).reverse.map (fun i =>
    let dir := String.ofList ((segments.take i).flatMap (fun s => '/' :: s))
    dir ++ "/node_modules/" ++ name ++ "/package.json")

def imageCandidatePaths (appDir name : String) : List String :=
  ([appDir ++ "/node_modules/signalk-server", appDir].flatMap (ancestorPaths name)).eraseDups

/-! ## One answer -/

/-- `Number.parseInt(s, 8)`, none for `NaN`. -/
def parseOctal (s : String) : Option Int :=
  let cs := s.toList.dropWhile isSpace
  let (sign, cs) := match cs with
    | '-' :: cs => ((-1 : Int), cs)
    | '+' :: cs => (1, cs)
    | cs => (1, cs)
  match cs.takeWhile (fun c => '0' ≤ c && c ≤ '7') with
  | [] => none
  | digits => some (sign * (digits.foldl (fun n c => 8 * n + (c.toNat - 48)) 0 : Nat))

/-- The first entry of an uncompressed tar; the size is 12 octal digits at offset 124, padded with NUL or space. -/
def firstTarEntry (buf : List UInt8) : Option (List UInt8) :=
  if buf.length < 512 then none
  else
    let ascii := (buf.extract 124 136).map (fun b => Char.ofNat (b.toNat % 128))
    let sizeField := trim (String.ofList (ascii.rdropWhile (fun c => c = '\x00' || c = ' ')))
    if sizeField = "" then none
    else
      match parseOctal sizeField with
      | none => none
      | some size =>
        if size < 0 then none
        else if 512 + size.toNat > buf.length then none
        else some (buf.extract 512 (512 + size.toNat))

/-- `/^\/proc\/\d+\/ns\/mnt/`, of a text in lower case. -/
def startsWithProcNs (cs : List Char) : Bool :=
  let rest := cs.drop 6
  cs.take 6 = "/proc/".toList && (rest.head?.map Char.isDigit).getD false &&
    (rest.dropWhile Char.isDigit).take 7 = "/ns/mnt".toList

def isStaleApiNamespaceError (raw : String) : Bool :=
  let cs := raw.toList.map Char.toLower
  cs.tails.any startsWithProcNs && decide ("permission denied".toList <:+: cs)

def describeReadError (error : CategorizedError) : String :=
  if error.kind = .permission && isStaleApiNamespaceError error.raw then
    "permission: the podman API service is in a stale user namespace and " ++
      "cannot read signalk-server's files (a shell `podman exec` still works). " ++
      "Fix: `systemctl --user restart podman.service`, then restart this " ++
      "container. Re-running the installer also repairs it."
  else error.kind.text ++ ": " ++ error.userMessage ++ " (" ++ truncateRaw error.raw ++ ")"

/-- `FetchResult` -/
abbrev FetchResult := Except CategorizedError (List UInt8)

section
variable (J : JsonCodec) (utf8 : List UInt8 → Text)

/-- What one answer makes of the walk: nothing, and the next candidate is tried, or its end; the end is none where the
`.version` of `null` throws. -/
def readOne : FetchResult → Option (Option ReadOne)
  | .ok value =>
    match (firstTarEntry value).bind (fun entry => J.parse (utf8 entry)) with
    | none => none
    | some .null => some none
    | some parsed =>
      match parsed.get? "version" with
      | some (.str version) => if version ≠ "" then some (some (.found version)) else none
      | _ => none
  | .error error => if error.kind = .notFound then none else some (some (.error (describeReadError error)))

/-- The walk over the candidates, each with the moment of its call. -/
def readVersionAt (fetch : Nat → String → FetchResult) : List (Nat × String) → Option ReadOne
  | [] => some .absent
  | (moment, path) :: rest =>
    match readOne J utf8 (fetch moment path) with
    | some r => r
    | none => readVersionAt fetch rest

/-! ## A read while the container comes and goes -/

/-- One call of `readInstalledPackages`, and the container over time. -/
structure ReadRun where
  runtime : Bool
  existed : Nat → Bool
  /-- What the container of a moment answers for a path. -/
  serves : Nat → String → FetchResult
  /-- What the runtime answers without a container. -/
  missing : CategorizedError
  missing_kind : missing.kind = .notFound
  probedAt : Nat
  /-- What the inspection of a container that exists fails with. -/
  probeError : Option CategorizedError
  calledAt : String → Tree → Nat → Nat
  after_probe : ∀ name tree i, probedAt < calledAt name tree i
  in_order : ∀ name tree i j, i < j → calledAt name tree i < calledAt name tree j
  dataDirRoot : String
  appDirRoot : String

namespace ReadRun

def fetch (r : ReadRun) (moment : Nat) (path : String) : FetchResult :=
  if r.existed moment then r.serves moment path else .error r.missing

def probe (r : ReadRun) : Option CategorizedError := if r.existed r.probedAt then r.probeError else some r.missing

def candidates (r : ReadRun) (name : String) : Tree → List String
  | .dataDir => dataDirCandidatePaths r.dataDirRoot name
  | .image => imageCandidatePaths r.appDirRoot name

def calls (r : ReadRun) (name : String) (tree : Tree) : List (Nat × String) :=
  (r.candidates name tree).mapIdx (fun i path => (r.calledAt name tree i, path))

def lookup (r : ReadRun) (name : String) (tree : Tree) : Option ReadOne :=
  readVersionAt J utf8 r.fetch (r.calls name tree)

/-- The reads as `Installed` takes them. -/
def reads (r : ReadRun) : ContainerReads where
  runtime := r.runtime
  probe := r.probe
  dataDir := fun name => (r.lookup J utf8 name .dataDir).getD .absent
  image := fun name => (r.lookup J utf8 name .image).getD .absent

/-- The loop is reached, and a lookup in it throws. -/
def Throws (r : ReadRun) : Prop :=
  r.runtime = true ∧ r.probe = none ∧ ∃ name ∈ trackedPackages, ∃ tree, r.lookup J utf8 name tree = none

/-- The call returns the list. -/
def Returns (r : ReadRun) (packages : List InstalledPackage) : Prop :=
  ¬ r.Throws J utf8 ∧ readInstalledPackages (r.reads J utf8) = .ok packages

/-- **The container existed throughout the lookup**, from its first call to its last. -/
def Whole (r : ReadRun) (name : String) (tree : Tree) : Prop :=
  ∀ moment, r.calledAt name tree 0 ≤ moment → moment ≤ r.calledAt name tree ((r.candidates name tree).length - 1) →
    r.existed moment = true

/-- The first answer of a lookup that is more than a miss. -/
def told (r : ReadRun) (name : String) (tree : Tree) : Option (Option ReadOne) :=
  (r.calls name tree).findSome? (fun c => readOne J utf8 (r.fetch c.1 c.2))

/-- A lookup of the package meets a runtime error. -/
def Fails (r : ReadRun) (name : String) : Prop := ∃ tree d, r.told J utf8 name tree = some (some (.error d))

def Found (r : ReadRun) (name : String) : Prop := ∃ tree v, r.told J utf8 name tree = some (some (.found v))

/-- The container is reached, no `package.json` is a `null`, and a package is found or none fails. -/
def AnswersList (r : ReadRun) : Prop :=
  r.runtime = true ∧ r.probe = none ∧ (∀ name ∈ trackedPackages, ∀ tree, r.told J utf8 name tree ≠ some none) ∧
    ((∃ name ∈ trackedPackages, r.Found J utf8 name ∧ ¬ r.Fails J utf8 name) ∨
      ∀ name ∈ trackedPackages, ¬ r.Fails J utf8 name)

/-- **The container was missing at some moment of the lookup, and all it answered while it existed were misses.** -/
def Unnoticed (r : ReadRun) (name : String) (tree : Tree) : Prop :=
  (∃ moment, r.calledAt name tree 0 ≤ moment ∧ moment ≤ r.calledAt name tree ((r.candidates name tree).length - 1) ∧
      r.existed moment = false) ∧
    ∀ c ∈ r.calls name tree, r.existed c.1 = true → readOne J utf8 (r.serves c.1 c.2) = none

/-- No absence of the container goes unnoticed in a lookup that counts. -/
def AbsencesNoticed (r : ReadRun) : Prop :=
  r.AnswersList J utf8 → ∀ name ∈ trackedPackages, ¬ r.Fails J utf8 name → ∀ tree, ¬ r.Unnoticed J utf8 name tree

/-- **What a returned list takes as absent was looked up while the container existed**, so that no scan empties the
stored packages for want of a container. -/
structure HonestAbsences (r : ReadRun) : Prop where
  omitted : ∀ packages, r.Returns J utf8 packages → ∀ name ∈ trackedPackages, name ∉ packages.map (·.name) →
    (∀ tree d, r.lookup J utf8 name tree ≠ some (.error d)) → ∀ tree, r.Whole name tree
  null : ∀ packages, r.Returns J utf8 packages → ∀ p ∈ packages,
    (p.dataDir = none → r.Whole p.name .dataDir) ∧ (p.image = none → r.Whole p.name .image)
  emptied : ∀ (npmRegistry : String) (disk : Option Text) (i : ScanInput), i.container = r.reads J utf8 →
    ¬ r.Throws J utf8 → (runDriftScan J npmRegistry disk i).report.packages = [] →
      ((baseReport (loadDriftReport J disk) i.tag).map (·.packages)).getD [] ≠ [] →
        ∀ name ∈ trackedPackages, ∀ tree, r.Whole name tree

variable {J utf8} {r : ReadRun}

theorem readVersionAt_eq (fetch : Nat → String → FetchResult) : ∀ calls : List (Nat × String),
    readVersionAt J utf8 fetch calls =
      (calls.findSome? (fun c => readOne J utf8 (fetch c.1 c.2))).getD (some .absent)
  | [] => rfl
  | c :: calls => by
    rw [readVersionAt, List.findSome?_cons, readVersionAt_eq fetch calls]
    cases readOne J utf8 (fetch c.1 c.2) <;> rfl

theorem lookup_eq (name : String) (tree : Tree) :
    r.lookup J utf8 name tree = (r.told J utf8 name tree).getD (some .absent) :=
  readVersionAt_eq ..

theorem readOne_ne_absent (res : FetchResult) : readOne J utf8 res ≠ some (some .absent) := by
  intro h
  cases res with
  | error e =>
    simp only [readOne] at h
    split at h <;> cases h
  | ok value =>
    simp only [readOne] at h
    split at h
    · cases h
    · cases h
    · split at h
      · split at h <;> cases h
      · cases h

theorem told_ne_absent (name : String) (tree : Tree) : r.told J utf8 name tree ≠ some (some .absent) := by
  intro h
  obtain ⟨c, -, hc⟩ := List.exists_of_findSome?_eq_some h
  exact readOne_ne_absent _ hc

theorem lookup_eq_absent_iff (name : String) (tree : Tree) :
    r.lookup J utf8 name tree = some .absent ↔ r.told J utf8 name tree = none := by
  rw [lookup_eq]
  cases h : r.told J utf8 name tree with
  | none => simp
  | some o =>
    have hne : r.told J utf8 name tree ≠ some (some .absent) := told_ne_absent name tree
    rw [h] at hne
    simpa using hne

theorem lookup_eq_iff {name : String} {tree : Tree} {o : Option ReadOne} (ho : o ≠ some .absent) :
    r.lookup J utf8 name tree = o ↔ r.told J utf8 name tree = some o := by
  rw [lookup_eq]
  cases h : r.told J utf8 name tree with
  | none => simpa using fun e => ho e.symm
  | some o' => simp

/-- A call made while the container is missing is a miss. -/
theorem readOne_fetch_missing {moment : Nat} {path : String} (h : r.existed moment = false) :
    readOne J utf8 (r.fetch moment path) = none := by
  rw [fetch, h]
  exact if_pos r.missing_kind

theorem told_eq_none_iff (name : String) (tree : Tree) : r.told J utf8 name tree = none ↔
    ∀ c ∈ r.calls name tree, r.existed c.1 = true → readOne J utf8 (r.serves c.1 c.2) = none := by
  rw [told, List.findSome?_eq_none_iff]
  refine forall₂_congr (fun c _ => ?_)
  cases he : r.existed c.1 with
  | false => simp [readOne_fetch_missing he]
  | true => simp [fetch, he]

theorem not_whole_iff (name : String) (tree : Tree) : ¬ r.Whole name tree ↔
    ∃ moment, r.calledAt name tree 0 ≤ moment ∧
      moment ≤ r.calledAt name tree ((r.candidates name tree).length - 1) ∧ r.existed moment = false := by
  simp [Whole]

theorem not_unnoticed_iff (name : String) (tree : Tree) :
    ¬ r.Unnoticed J utf8 name tree ↔ (r.lookup J utf8 name tree = some .absent → r.Whole name tree) := by
  rw [Unnoticed, ← not_whole_iff, ← told_eq_none_iff, ← lookup_eq_absent_iff]
  tauto

/-! ## The list, from the answers -/

theorem reads_eq (name : String) : (r.reads J utf8).dataDir name = (r.lookup J utf8 name .dataDir).getD .absent ∧
    (r.reads J utf8).image name = (r.lookup J utf8 name .image).getD .absent := by
  constructor <;> rw [reads]

theorem getD_eq_error_iff (name : String) (tree : Tree) (d : String) :
    (r.lookup J utf8 name tree).getD .absent = .error d ↔ r.told J utf8 name tree = some (some (.error d)) := by
  rw [← lookup_eq_iff (by simp)]
  cases r.lookup J utf8 name tree <;> simp

theorem packageError_reads_iff (name : String) :
    packageError (r.reads J utf8) name = none ↔ ¬ r.Fails J utf8 name := by
  rw [packageError_eq_none_iff, (reads_eq name).1, (reads_eq name).2, Fails]
  simp only [ne_eq, getD_eq_error_iff]
  constructor
  · rintro ⟨hd, hi⟩ ⟨tree, d, h⟩
    cases tree with
    | dataDir => exact hd d h
    | image => exact hi d h
  · exact fun h => ⟨fun d hd => h ⟨.dataDir, d, hd⟩, fun d hi => h ⟨.image, d, hi⟩⟩

theorem not_fails_iff (name : String) :
    ¬ r.Fails J utf8 name ↔ ∀ tree d, r.lookup J utf8 name tree ≠ some (.error d) := by
  simp only [Fails, not_exists, ne_eq]
  exact forall₂_congr (fun tree d => by rw [lookup_eq_iff (by simp)])

theorem throws_iff : r.Throws J utf8 ↔
    r.runtime = true ∧ r.probe = none ∧ ∃ name ∈ trackedPackages, ∃ tree, r.told J utf8 name tree = some none := by
  simp only [Throws, lookup_eq_iff (o := none) (by simp)]

theorem probe_of_returns {packages : List InstalledPackage} (h : r.Returns J utf8 packages) :
    r.runtime = true ∧ r.probe = none :=
  ⟨(readInstalledPackages_ok_iff.1 h.2).1, (readInstalledPackages_ok_iff.1 h.2).2.1⟩

/-- Where the call returns a list, no lookup threw: what `reads` holds is what the lookups gave. -/
theorem lookup_of_returns {packages : List InstalledPackage} (h : r.Returns J utf8 packages) {name : String}
    (hname : name ∈ trackedPackages) (tree : Tree) {o : ReadOne} (ho : (r.lookup J utf8 name tree).getD .absent = o) :
    r.lookup J utf8 name tree = some o := by
  cases hl : r.lookup J utf8 name tree with
  | none => exact absurd ⟨(probe_of_returns h).1, (probe_of_returns h).2, name, hname, tree, hl⟩ h.1
  | some o' =>
    rw [hl] at ho
    exact congrArg some ho

theorem packageEntry_reads_ne_none_iff (name : String) :
    packageEntry (r.reads J utf8) name ≠ none ↔ r.Found J utf8 name ∧ ¬ r.Fails J utf8 name := by
  rw [packageEntry]
  by_cases hf : r.Fails J utf8 name
  · have herr : ¬ packageError (r.reads J utf8) name = none := fun h => packageError_reads_iff name |>.1 h hf
    simp [herr, hf]
  · have hnone := (packageError_reads_iff name).2 hf
    rw [if_pos hnone, and_iff_left hf]
    have hfound : ∀ tree, (r.lookup J utf8 name tree).getD .absent ≠ .absent ↔
        ∃ v, r.told J utf8 name tree = some (some (.found v)) := by
      intro tree
      have herr := (not_fails_iff name).1 hf tree
      have hlook : ∀ v, r.told J utf8 name tree = some (some (.found v)) ↔ r.lookup J utf8 name tree = some (.found v) :=
        fun v => (lookup_eq_iff (by simp)).symm
      simp only [hlook]
      rcases hl : r.lookup J utf8 name tree with _ | (_ | _ | d)
      · simp
      · simp
      · simp
      · exact absurd hl (herr d)
    rw [installedEntry_ne_none_iff, (reads_eq name).1, (reads_eq name).2, hfound, hfound]
    constructor
    · rintro (⟨v, hv⟩ | ⟨v, hv⟩)
      · exact ⟨.dataDir, v, hv⟩
      · exact ⟨.image, v, hv⟩
    · rintro ⟨tree, v, hv⟩
      cases tree with
      | dataDir => exact .inl ⟨v, hv⟩
      | image => exact .inr ⟨v, hv⟩

theorem returns_iff : (∃ packages, r.Returns J utf8 packages) ↔ r.AnswersList J utf8 := by
  have hlist : trackedPackages.filterMap (packageEntry (r.reads J utf8)) ≠ [] ↔
      ∃ name ∈ trackedPackages, r.Found J utf8 name ∧ ¬ r.Fails J utf8 name := by
    rw [ne_eq, List.filterMap_eq_nil_iff]
    push Not
    exact exists_congr (fun name => and_congr_right (fun _ => packageEntry_reads_ne_none_iff name))
  constructor
  · rintro ⟨packages, hthrow, hok⟩
    obtain ⟨hrt, hp, rfl, hne⟩ := readInstalledPackages_ok_iff.1 hok
    refine ⟨hrt, hp, ?_, ?_⟩
    · intro name hname tree htold
      exact hthrow (throws_iff.2 ⟨hrt, hp, name, hname, tree, htold⟩)
    · rcases hne with hne | hall
      · exact .inl (hlist.1 hne)
      · exact .inr (fun name hname => (packageError_reads_iff name).1 (hall name hname))
  · rintro ⟨hrt, hp, hthrow, hne⟩
    refine ⟨_, fun h => ?_, readInstalledPackages_ok_iff.2 ⟨hrt, hp, rfl, ?_⟩⟩
    · obtain ⟨-, -, name, hname, tree, htold⟩ := throws_iff.1 h
      exact hthrow name hname tree htold
    · rcases hne with hfound | hall
      · exact .inl (hlist.2 hfound)
      · exact .inr (fun name hname => (packageError_reads_iff name).2 (hall name hname))

/-- **A location is taken as absent exactly when its lookup found nothing**: the package is omitted, or listed with a null. -/
theorem absent_whole_of_honest {packages : List InstalledPackage} (h : r.HonestAbsences J utf8)
    (hr : r.Returns J utf8 packages) {name : String} (hname : name ∈ trackedPackages) (hf : ¬ r.Fails J utf8 name)
    (tree : Tree) (habs : r.lookup J utf8 name tree = some .absent) : r.Whole name tree := by
  obtain ⟨-, -, hpkgs, -⟩ := readInstalledPackages_ok_iff.1 hr.2
  by_cases hlisted : name ∈ packages.map (·.name)
  · obtain ⟨p, hp, rfl⟩ := List.mem_map.1 hlisted
    obtain ⟨-, hread⟩ := readInstalledPackages_mem hr.2 hp
    obtain ⟨hd, hi⟩ := h.null packages hr p hp
    cases tree with
    | dataDir => exact hd (by rw [hread.2.2.1, (reads_eq p.name).1, habs]; rfl)
    | image => exact hi (by rw [hread.2.2.2.1, (reads_eq p.name).2, habs]; rfl)
  · exact h.omitted packages hr name hname hlisted ((not_fails_iff name).1 hf) tree

theorem omitted_absent {packages : List InstalledPackage} (hr : r.Returns J utf8 packages) {name : String}
    (hname : name ∈ trackedPackages) (hout : name ∉ packages.map (·.name)) (hf : ¬ r.Fails J utf8 name) (tree : Tree) :
    r.lookup J utf8 name tree = some .absent := by
  obtain ⟨-, -, hpkgs, -⟩ := readInstalledPackages_ok_iff.1 hr.2
  have hentry : packageEntry (r.reads J utf8) name = none := by
    cases he : packageEntry (r.reads J utf8) name with
    | none => rfl
    | some p =>
      have hp : p ∈ packages := hpkgs ▸ List.mem_filterMap.2 ⟨name, hname, he⟩
      have hn : p.name = name := by
        rw [packageEntry, if_pos ((packageError_reads_iff name).2 hf)] at he
        exact installedEntry_name he
      exact absurd (hn ▸ List.mem_map_of_mem hp) hout
  rw [packageEntry, if_pos ((packageError_reads_iff name).2 hf)] at hentry
  have habs : (r.reads J utf8).dataDir name = .absent ∧ (r.reads J utf8).image name = .absent := by
    simpa [installedEntry] using hentry
  rw [(reads_eq name).1, (reads_eq name).2] at habs
  cases tree with
  | dataDir => exact lookup_of_returns hr hname .dataDir habs.1
  | image => exact lookup_of_returns hr hname .image habs.2

theorem null_absent {packages : List InstalledPackage} (hr : r.Returns J utf8 packages) {p : InstalledPackage}
    (hp : p ∈ packages) : p.name ∈ trackedPackages ∧ ¬ r.Fails J utf8 p.name ∧
      (p.dataDir = none → r.lookup J utf8 p.name .dataDir = some .absent) ∧
        (p.image = none → r.lookup J utf8 p.name .image = some .absent) := by
  obtain ⟨hname, hd, hi, hpd, hpi, -⟩ := readInstalledPackages_mem hr.2 hp
  have hver : ∀ o : ReadOne, (∀ d, o ≠ .error d) → o.version? = none → o = .absent := by
    intro o herr hv
    cases o with
    | found v => cases hv
    | absent => rfl
    | error d => exact absurd rfl (herr d)
  refine ⟨hname, (packageError_reads_iff p.name).1 (packageError_eq_none_iff.2 ⟨hd, hi⟩), fun h => ?_, fun h => ?_⟩
  · have habs := hver _ hd (hpd.symm.trans h)
    rw [(reads_eq p.name).1] at habs
    exact lookup_of_returns hr hname .dataDir habs
  · have habs := hver _ hi (hpi.symm.trans h)
    rw [(reads_eq p.name).2] at habs
    exact lookup_of_returns hr hname .image habs

theorem honest_of_noticed (h : r.AbsencesNoticed J utf8) : r.HonestAbsences J utf8 := by
  have hwhole : ∀ packages, r.Returns J utf8 packages → ∀ name ∈ trackedPackages, ¬ r.Fails J utf8 name →
      ∀ tree, r.lookup J utf8 name tree = some .absent → r.Whole name tree :=
    fun packages hr name hname hf tree => (not_unnoticed_iff name tree).1 (h (returns_iff.1 ⟨packages, hr⟩) name hname hf tree)
  refine ⟨?_, ?_, ?_⟩
  · intro packages hr name hname hout herr tree
    have hf := (not_fails_iff name).2 herr
    exact hwhole packages hr name hname hf tree (omitted_absent hr hname hout hf tree)
  · intro packages hr p hp
    obtain ⟨hname, hf, hd, hi⟩ := null_absent hr hp
    exact ⟨fun h => hwhole packages hr p.name hname hf .dataDir (hd h),
      fun h => hwhole packages hr p.name hname hf .image (hi h)⟩
  · intro npmRegistry disk i hi hthrow hempty hstored name hname tree
    cases hres : i.installed with
    | failed reason detail =>
      rw [runDriftScan_failed J npmRegistry disk hres] at hempty
      exact absurd hempty hstored
    | ok packages =>
      have hok : readInstalledPackages (r.reads J utf8) = .ok packages := by rw [← hi]; exact hres
      -- an empty report is an empty list, and an empty list has met no runtime error
      have hnil : packages = [] := by
        simp only [runDriftScan, scanOutcome, hres] at hempty
        exact List.map_eq_nil_iff.1 hempty
      subst hnil
      have hr : r.Returns J utf8 [] := ⟨hthrow, hok⟩
      obtain ⟨-, -, -, hne⟩ := readInstalledPackages_ok_iff.1 hok
      have hf := (packageError_reads_iff name).1 (hne.resolve_left (fun hc => hc rfl) name hname)
      exact hwhole [] hr name hname hf tree (omitted_absent hr hname (by simp) hf tree)

end ReadRun

open ReadRun in
/-- **What the result takes as absent was looked up while the container existed exactly when no absence of the container
goes unnoticed in a lookup that counts.** -/
theorem absences_honest_iff (J : JsonCodec) (utf8 : List UInt8 → Text) (r : ReadRun) :
    r.HonestAbsences J utf8 ↔ r.AbsencesNoticed J utf8 := by
  constructor
  · intro h hlist name hname hf tree
    obtain ⟨packages, hr⟩ := returns_iff.2 hlist
    exact (not_unnoticed_iff name tree).2 (absent_whole_of_honest h hr hname hf tree)
  · exact honest_of_noticed

end

/-- The container is probed at 0 and recreated from 1 on. -/
def recreated : ReadRun where
  runtime := true
  existed := fun moment => moment == 0
  serves := fun _ _ => .error ⟨.notFound, "Resource not found.", "no such file"⟩
  missing := ⟨.notFound, "Resource not found.", "no such container"⟩
  missing_kind := rfl
  probedAt := 0
  probeError := none
  calledAt := fun _ _ i => i + 1
  after_probe := fun _ _ _ => Nat.succ_pos _
  in_order := fun _ _ _ _ h => Nat.succ_lt_succ h
  dataDirRoot := "/home/node/.signalk"
  appDirRoot := "/home/node/signalk"

/-- The container is gone right after the probe, and the result is an empty list. -/
theorem absences_dishonest_recreated :
    ¬ ∀ (J : JsonCodec) (utf8 : List UInt8 → Text) (r : ReadRun), r.HonestAbsences J utf8 := by
  intro h
  have hmiss : ∀ name tree, recreated.told jsonText (fun _ => []) name tree = none := by
    intro name tree
    rw [ReadRun.told_eq_none_iff]
    exact fun _ _ _ => rfl
  have hlist : recreated.AnswersList jsonText (fun _ => []) :=
    ⟨rfl, rfl, fun name _ tree => by simp [hmiss name tree], .inr (fun name _ ⟨tree, d, hd⟩ => by simp [hmiss] at hd)⟩
  obtain ⟨packages, hr⟩ := ReadRun.returns_iff.2 hlist
  have hwhole := ReadRun.absent_whole_of_honest (h jsonText (fun _ => []) recreated) hr
    (by decide : "@canboat/canboatjs" ∈ trackedPackages) (fun ⟨tree, d, hd⟩ => by simp [hmiss] at hd) .dataDir
    ((ReadRun.lookup_eq_absent_iff _ _).2 (hmiss _ _))
  exact absurd (hwhole 1 (Nat.le_refl 1) (Nat.le_add_left ..)) (by decide)

end Drift
end SignalkDoctor
