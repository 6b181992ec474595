import SignalkDoctor.DriftTypes
/-!
# Installed — the installed versions of the tracked packages (`src/drift/installed-packages.ts`)

Each tracked package is looked up at two locations of the running container; `reads` is what the two lookups of a
package gave.  A package one of whose lookups failed is left out, one found nowhere too; the result fails only when
nothing was found and some lookup failed (`readInstalledPackages`).
-/
namespace SignalkDoctor
namespace Drift

open JsString (trim isSpace)

/-- `ErrorKind` of `src/errors.ts` -/
inductive ErrorKind where
  | network | registryUnavailable | auth | disk | permission | notFound | unknown
  deriving DecidableEq, Repr

def ErrorKind.text : ErrorKind → String
  | .network => "network"
  | .registryUnavailable => "registry-unavailable"
  | .auth => "auth"
  | .disk => "disk"
  | .permission => "permission"
  | .notFound => "not-found"
  | .unknown => "unknown"

structure CategorizedError where
  kind : ErrorKind
  userMessage : String
  raw : String
  deriving DecidableEq, Repr

structure InstalledPackage where
  name : String
  image : Option String
  dataDir : Option String
  deriving DecidableEq, Repr

/-- `InstalledPackagesResult`; the reasons are those a report carries. -/
inductive InstalledPackagesResult where
  | ok (packages : List InstalledPackage)
  | failed (reason : DriftFetchReason) (detail : String)
  deriving DecidableEq, Repr

def trackedPackages : List String :=
  ["@canboat/canboatjs", "@canboat/ts-pgns", "@signalk/n2k-signalk", "@signalk/nmea0183-signalk",
    "@signalk/path-metadata", "@signalk/server-admin-ui", "@signalk/server-api", "@signalk/streams"]

inductive ReadOne where
  | found (version : String)
  | absent
  | error (detail : String)
  deriving DecidableEq, Repr

def ReadOne.version? : ReadOne → Option String
  | .found v => some v
  | _ => none

/-- `s.replace(/\s+/g, ' ')` -/
def collapseSpaces : List Char → List Char
  | [] => []
  | c :: cs =>
    if isSpace c then
      match collapseSpaces cs with
      | ' ' :: rest => ' ' :: rest
      | rest => ' ' :: rest
    else c :: collapseSpaces cs

def codeUnits (c : Char) : Nat := if c.toNat < 0x10000 then 1 else 2

/-- `s.slice(0, n)`, short of a character cut in two. -/
def sliceUnits : Nat → List Char → List Char
  | _, [] => []
  | n, c :: cs => if codeUnits c ≤ n then c :: sliceUnits (n - codeUnits c) cs else []

def truncateRaw (raw : String) : String :=
  let oneLine := trim (String.ofList (collapseSpaces raw.toList))
  if (oneLine.toList.map codeUnits).sum > 200 then String.ofList (sliceUnits 197 oneLine.toList) ++ "…" else oneLine

/-- The running container as one read of it finds it: whether there is a runtime at all, the error of the probe if it
failed, and what the lookups of each package in the data dir and in the image gave. -/
structure ContainerReads where
  runtime : Bool
  probe : Option CategorizedError
  dataDir : String → ReadOne
  image : String → ReadOne

/-- One turn of the loop over the tracked packages: the packages so far and the first error. -/
def readPackage (c : ContainerReads) (acc : List InstalledPackage × Option String) (name : String) :
    List InstalledPackage × Option String :=
  match c.dataDir name, c.image name with
  | .error d, _ => (acc.1, acc.2.or (some d))
  | _, .error d => (acc.1, acc.2.or (some d))
  | dataDir, image =>
    if dataDir ≠ .absent ∨ image ≠ .absent then
      (acc.1 ++ [⟨name, image.version?, dataDir.version?⟩], acc.2)
    else acc

def readInstalledPackages (c : ContainerReads) : InstalledPackagesResult :=
  if c.runtime then
    match c.probe with
    | some e =>
      .failed .runtime (e.kind.text ++ ": cannot reach signalk-server (" ++ e.userMessage ++ ") (" ++ truncateRaw e.raw ++ ")")
    | none =>
      match trackedPackages.foldl (readPackage c) ([], none) with
      | ([], some firstRuntimeError) => .failed .runtime firstRuntimeError
      | (packages, _) => .ok packages
  else .failed .unreachable "no container runtime socket available"

/-- What a package listed as installed was read as: both lookups succeeded, one of them found it. -/
def ContainerReads.Read (c : ContainerReads) (p : InstalledPackage) : Prop :=
  (∀ d, c.dataDir p.name ≠ .error d) ∧ (∀ d, c.image p.name ≠ .error d) ∧
    p.dataDir = (c.dataDir p.name).version? ∧ p.image = (c.image p.name).version? ∧
    (p.dataDir ≠ none ∨ p.image ≠ none)

theorem readPackage_mem {c : ContainerReads} {acc : List InstalledPackage × Option String} {name : String}
    {p : InstalledPackage} (h : p ∈ (readPackage c acc name).1) : p ∈ acc.1 ∨ (p.name = name ∧ c.Read p) := by
  unfold readPackage at h
  split at h
  · exact .inl h
  · exact .inl h
  · rename_i hd hi
    split at h
    · rename_i hfound
      rcases List.mem_append.1 h with h | h
      · exact .inl h
      · rw [List.mem_singleton] at h
        subst h
        refine .inr ⟨rfl, hd, hi, rfl, rfl, ?_⟩
        simp only
        cases hdr : c.dataDir name with
        | found v => simp [ReadOne.version?]
        | error d => exact absurd hdr (hd d)
        | absent =>
          cases hir : c.image name with
          | found v => simp [ReadOne.version?]
          | error d => exact absurd hir (hi d)
          | absent => simp [hdr, hir] at hfound
    · exact .inl h

theorem foldl_readPackage_mem {c : ContainerReads} : ∀ (names : List String) (acc : List InstalledPackage × Option String)
    {p : InstalledPackage}, p ∈ (names.foldl (readPackage c) acc).1 → p ∈ acc.1 ∨ (p.name ∈ names ∧ c.Read p)
  | [], _, _, h => .inl h
  | name :: names, acc, p, h => by
    rcases foldl_readPackage_mem names _ h with h | ⟨hn, hp⟩
    · rcases readPackage_mem h with h | ⟨hn, hp⟩
      · exact .inl h
      · exact .inr ⟨hn ▸ List.mem_cons_self .., hp⟩
    · exact .inr ⟨List.mem_cons_of_mem _ hn, hp⟩

/-- **A listed package is a tracked one, at the versions its lookups found.** -/
theorem readInstalledPackages_mem {c : ContainerReads} {packages : List InstalledPackage} {p : InstalledPackage}
    (h : readInstalledPackages c = .ok packages) (hp : p ∈ packages) : p.name ∈ trackedPackages ∧ c.Read p := by
  unfold readInstalledPackages at h
  split at h
  · split at h
    · cases h
    · split at h
      · cases h
      · rename_i heq
        cases h
        have hm : p ∈ (trackedPackages.foldl (readPackage c) ([], none)).1 := by rw [heq]; exact hp
        exact (foldl_readPackage_mem trackedPackages _ hm).resolve_left (by simp)
  · cases h

def installedEntry (c : ContainerReads) (name : String) : Option InstalledPackage :=
  if c.dataDir name ≠ .absent ∨ c.image name ≠ .absent then
    some ⟨name, (c.image name).version?, (c.dataDir name).version?⟩
  else none

theorem installedEntry_name {c : ContainerReads} {name : String} {p : InstalledPackage}
    (h : installedEntry c name = some p) : p.name = name := by
  unfold installedEntry at h
  split at h <;> cases h
  rfl

theorem installedEntry_ne_none_iff {c : ContainerReads} {name : String} :
    installedEntry c name ≠ none ↔ c.dataDir name ≠ .absent ∨ c.image name ≠ .absent := by
  unfold installedEntry
  split <;> simp_all

/-- The first error of the lookups of a package. -/
def packageError (c : ContainerReads) (name : String) : Option String :=
  match c.dataDir name, c.image name with
  | .error d, _ => some d
  | _, .error d => some d
  | _, _ => none

def packageEntry (c : ContainerReads) (name : String) : Option InstalledPackage :=
  if packageError c name = none then installedEntry c name else none

theorem packageEntry_name {c : ContainerReads} {name : String} {p : InstalledPackage} (h : packageEntry c name = some p) :
    p.name = name := by
  unfold packageEntry at h
  split at h
  · exact installedEntry_name h
  · cases h

theorem packageError_eq_none_iff {c : ContainerReads} {name : String} :
    packageError c name = none ↔ (∀ d, c.dataDir name ≠ .error d) ∧ ∀ d, c.image name ≠ .error d := by
  cases hd : c.dataDir name <;> cases hi : c.image name <;> simp [packageError, hd, hi]

theorem readPackage_eq (c : ContainerReads) (acc : List InstalledPackage × Option String) (name : String) :
    readPackage c acc name = (acc.1 ++ (packageEntry c name).toList, acc.2.or (packageError c name)) := by
  cases hd : c.dataDir name <;> cases hi : c.image name <;>
    simp [readPackage, packageEntry, packageError, installedEntry, hd, hi]

/-- **The loop lists what was found of the packages none of whose lookups failed, and keeps the first error.** -/
theorem foldl_readPackage (c : ContainerReads) : ∀ (names : List String) (acc : List InstalledPackage × Option String),
    names.foldl (readPackage c) acc =
      (acc.1 ++ names.filterMap (packageEntry c), acc.2.or (names.findSome? (packageError c)))
  | [], acc => by simp
  | name :: names, acc => by
    rw [List.foldl_cons, readPackage_eq, foldl_readPackage c names, List.filterMap_cons, List.findSome?_cons]
    cases packageEntry c name <;> cases packageError c name <;> simp

/-- **The result is a list exactly when the container was reached and, where nothing is listed, no lookup failed.** -/
theorem readInstalledPackages_ok_iff {c : ContainerReads} {packages : List InstalledPackage} :
    readInstalledPackages c = .ok packages ↔ c.runtime = true ∧ c.probe = none ∧
      packages = trackedPackages.filterMap (packageEntry c) ∧
        (packages ≠ [] ∨ ∀ name ∈ trackedPackages, packageError c name = none) := by
  unfold readInstalledPackages
  rw [foldl_readPackage, List.nil_append, Option.none_or]
  by_cases hr : c.runtime = true
  · cases hp : c.probe with
    | some e => simp [hr]
    | none =>
      rw [if_pos hr]
      cases hl : trackedPackages.filterMap (packageEntry c) with
      | nil =>
        cases he : trackedPackages.findSome? (packageError c) with
        | none =>
          have hall := List.findSome?_eq_none_iff.1 he
          simp only [hr, true_and, InstalledPackagesResult.ok.injEq]
          exact ⟨fun h => ⟨h.symm, .inr hall⟩, fun h => h.1.symm⟩
        | some d =>
          obtain ⟨name, hname, hd⟩ := List.exists_of_findSome?_eq_some he
          simp only [hr, true_and, reduceCtorEq, false_iff]
          rintro ⟨rfl, hne | hall⟩
          · exact hne rfl
          · rw [hall name hname] at hd
            cases hd
      | cons p ps =>
        simp only [hr, true_and, InstalledPackagesResult.ok.injEq]
        exact ⟨fun h => ⟨h.symm, .inl (by rw [← h]; simp)⟩, fun h => h.1.symm⟩
  · simp [hr]

/-- **Where every lookup succeeds, each tracked package found somewhere is listed.** -/
theorem readInstalledPackages_of_noError {c : ContainerReads} (hr : c.runtime = true) (hp : c.probe = none)
    (hd : ∀ name d, c.dataDir name ≠ .error d) (hi : ∀ name d, c.image name ≠ .error d) :
    readInstalledPackages c = .ok (trackedPackages.filterMap (installedEntry c)) := by
  have hnone : ∀ name, packageError c name = none := fun name => packageError_eq_none_iff.2 ⟨hd name, hi name⟩
  have hentry : packageEntry c = installedEntry c := funext (fun name => if_pos (hnone name))
  rw [readInstalledPackages_ok_iff, hentry]
  exact ⟨hr, hp, rfl, .inr (fun name _ => hnone name)⟩

/-- An entry listed under its own name is the one found under it. -/
theorem find?_filterMap_name {α : Type} {f : String → Option α} {nm : α → String}
    (hf : ∀ name p, f name = some p → nm p = name) {name : String} {p : α} (hp : f name = some p) :
    ∀ names : List String, name ∈ names → (names.filterMap f).find? (fun q => nm q == name) = some p
  | [], h => by cases h
  | n :: names, h => by
    rw [List.filterMap_cons]
    by_cases hn : n = name
    · subst hn
      rw [hp]
      simp [hf n p hp]
    · have hmem : name ∈ names := (List.mem_cons.1 h).resolve_left (fun e => hn e.symm)
      cases hq : f n with
      | none => exact find?_filterMap_name hf hp names hmem
      | some q =>
        have hne : (nm q == name) = false := by simpa [hf n q hq] using hn
        simp only [List.find?_cons, hne]
        exact find?_filterMap_name hf hp names hmem

theorem trackedPackages_ne_empty : ∀ name ∈ trackedPackages, name ≠ "" := by decide

end Drift
end SignalkDoctor
