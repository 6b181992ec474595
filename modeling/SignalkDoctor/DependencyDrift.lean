import SignalkDoctor.Probes
import SignalkDoctor.Scanner
/-!
# DependencyDrift — the verdict on a drift report (`src/probes/dependency-drift.ts`)

The probe reads the stored report and nothing else: it warns when a copy of a tracked package is a major version behind,
is `unknown` while some copy is not compared, and else `ok`.  The classifications it reads were made by an earlier scan.
`probe_sound` says what the verdict is worth: over the reports of all runs of scans an `ok` has compared every copy, and
a copy a major behind is never missed.
-/
namespace SignalkDoctor
namespace Drift

open Steps (exec)
open Probes (ProbeStatus ProbeResult)
open JsString (trim)

/-! ## The probe -/

def staleAfterMs : Int := 7 * 24 * 3600 * 1000

/-- `SEVERITY` -/
def severity : DriftClassification → Nat
  | .major => 5
  | .minor => 4
  | .patch => 3
  | .prerelease => 2
  | .unknown => 1
  | .upToDate => 0

/-- `Object.keys(SEVERITY)` -/
def severityKeys : List DriftClassification := [.major, .minor, .patch, .prerelease, .unknown, .upToDate]

inductive CopyLocation where
  | image | dataDir
  deriving DecidableEq, Repr

def CopyLocation.text : CopyLocation → String
  | .image => "image"
  | .dataDir => "data dir"

structure MajorEntry where
  name : String
  location : CopyLocation
  installed : String
  latest : Option String
  lastFetchedAt : Option String
  deriving DecidableEq, Repr

/-- The entry of one copy, if it is a major version behind. -/
def majorEntry (p : DriftPackage) (location : CopyLocation) : Option DriftLocation → Option MajorEntry
  | some l => if l.classification = .major then some ⟨p.name, location, l.installed, p.latest, p.lastFetchedAt⟩ else none
  | none => none

def collectMajors (packages : List DriftPackage) : List MajorEntry :=
  packages.flatMap (fun p => (majorEntry p .image p.image).toList ++ (majorEntry p .dataDir p.dataDir).toList)

/-- `location?.classification` -/
def classificationOf (l : Option DriftLocation) : Option DriftClassification := l.map (·.classification)

def isUncompared (p : DriftPackage) : Bool :=
  (p.image.isNone && p.dataDir.isNone) || classificationOf p.image == some .unknown ||
    classificationOf p.dataDir == some .unknown

def worse (worst : Option DriftClassification) (c : DriftClassification) : Option DriftClassification :=
  match worst with
  | none => some c
  | some w => if severity c > severity w then some c else some w

def worstOf (p : DriftPackage) : DriftClassification :=
  (((classificationOf p.image).toList ++ (classificationOf p.dataDir).toList).foldl worse none).getD .unknown

def phrase : DriftClassification → String
  | .upToDate => "up-to-date"
  | .patch => "patch behind"
  | .minor => "minor behind"
  | .major => "major behind"
  | .prerelease => "prerelease"
  | .unknown => "not compared yet"

def countSummary (packages : List DriftPackage) : String :=
  String.intercalate ", " (severityKeys.filterMap (fun cls =>
    let n := packages.countP (fun p => worstOf p = cls)
    if n > 0 then some (toString n ++ " " ++ phrase cls) else none))

/-- The clock of a run of the probe, and what the language makes of dates: `Date.now()` when the ages are taken, the time
the run took, `Date.parse` (none for `NaN`) and `(ms / 86_400_000).toFixed(1)`. -/
structure ProbeClock where
  now : Int
  durationMs : Int
  parse : String → Option Int
  days : Int → String

def oldestFetchAgeMs (clock : ProbeClock) (fetchedAts : List (Option String)) : Option Int :=
  ((fetchedAts.filterMap (fun iso => iso.bind clock.parse)).min?).map (fun oldest => clock.now - oldest)

def staleSuffix (clock : ProbeClock) : Option Int → String
  | none => ""
  | some ageMs => if ageMs < staleAfterMs then "" else " (registry data " ++ clock.days ageMs ++ " days old)"

structure DriftDetails where
  signalkImageTag : JsVal
  lastScannedAt : JsVal
  lastSuccessfulScanAt : JsVal
  majors : Option (List MajorEntry)
  deriving DecidableEq

def driftResult (clock : ProbeClock) (status : ProbeStatus) (message : String) (details : Option DriftDetails) :
    ProbeResult DriftDetails :=
  ⟨"dependency-drift", "Dependency drift", status, message, details, clock.durationMs⟩

def majorsMessage (clock : ProbeClock) (majors : List MajorEntry) : String :=
  let list := String.intercalate "; " (majors.map (fun m =>
    m.name ++ " (" ++ m.location.text ++ ") " ++ m.installed ++ " → " ++ m.latest.getD "?"))
  toString majors.length ++ " package cop" ++ (if majors.length = 1 then "y" else "ies") ++
    " a major version behind: " ++ list ++ " — see the Drift tab" ++
    staleSuffix clock (oldestFetchAgeMs clock (majors.map (·.lastFetchedAt)))

/-- `probeDependencyDrift`, over the content of `drift.json`. -/
def probeDependencyDrift (J : JsonCodec) (clock : ProbeClock) (disk : Option Text) : ProbeResult DriftDetails :=
  match loadDriftReport J disk with
  | none =>
    driftResult clock .unknown
      "no drift report yet — the scanner runs shortly after boot, or use Rescan on the Drift tab" none
  | some report =>
    let baseDetails : DriftDetails := ⟨report.signalkImageTag, report.lastScannedAt, report.lastSuccessfulScanAt, none⟩
    if report.packages.length = 0 then
      driftResult clock .unknown "drift report has no tracked packages — see the Drift tab for the scan status"
        (some baseDetails)
    else if ¬ report.packages.any (fun p => p.image.isSome || p.dataDir.isSome) then
      driftResult clock .unknown "package locations not scanned yet — awaiting the next drift scan" (some baseDetails)
    else
      let majors := collectMajors report.packages
      if majors.length > 0 then
        driftResult clock .warn (majorsMessage clock majors) (some { baseDetails with majors := some majors })
      else
        let summary := countSummary report.packages
        let stale := staleSuffix clock (oldestFetchAgeMs clock (report.packages.map (·.lastFetchedAt)))
        if report.packages.any isUncompared then
          driftResult clock .unknown ("comparison incomplete: " ++ summary ++ " — rescan on the Drift tab" ++ stale)
            (some baseDetails)
        else
          driftResult clock .ok (toString report.packages.length ++ " tracked package" ++
            (if report.packages.length = 1 then "" else "s") ++ ": " ++ summary ++ "; no major drift" ++ stale)
            (some baseDetails)

/-! ## What a verdict says of the versions -/

def DriftPackage.At (p : DriftPackage) (l : DriftLocation) : Prop := p.image = some l ∨ p.dataDir = some l

/-- The major version, as the digits name it. -/
def majorOf (v : String) : Option Nat :=
  (parse v).map (fun _ =>
    ((dropV (trim v).toList).takeWhile Char.isDigit).foldl (fun n c => 10 * n + (c.toNat - 48)) 0)

/-- The copy is a major version behind its package's latest. -/
def MajorBehind (p : DriftPackage) (l : DriftLocation) : Prop :=
  ∃ latest a b, p.latest = some latest ∧ majorOf l.installed = some a ∧ majorOf latest = some b ∧ a < b

/-- The copy and its package's latest both parse, and the copy is no major version behind. -/
def NotBehind (p : DriftPackage) (l : DriftLocation) : Prop :=
  ∃ latest a b, p.latest = some latest ∧ majorOf l.installed = some a ∧ majorOf latest = some b ∧ b ≤ a

/-- The major components of the report's versions are exact in a double. -/
def ExactMajors (packages : List DriftPackage) : Prop :=
  ∀ p ∈ packages, ∀ v n, (p.latest = some v ∨ ∃ l, p.At l ∧ l.installed = v) → majorOf v = some n → n < 2 ^ 53

theorem number_eq {cs : List Char} {n : Nat} {rest : List Char} (h : number cs = some (n, rest)) :
    n = parseInt (cs.takeWhile Char.isDigit) := by
  unfold number at h
  split at h
  · cases h
  · cases h
    rfl

theorem parse_major {v : String} {a : Parsed} (h : parse v = some a) :
    a.major = toDouble (((dropV (trim v).toList).takeWhile Char.isDigit).foldl (fun n c => 10 * n + (c.toNat - 48)) 0) := by
  simp only [parse, Option.bind_eq_bind, Option.bind_eq_some_iff] at h
  obtain ⟨⟨major, cs⟩, hmajor, cs₁, -, ⟨minor, cs₂⟩, -, cs₃, -, ⟨patch, cs₄⟩, -, pre, -, hp⟩ := h
  cases hp
  exact number_eq hmajor

/-- Below 2^53 the component the code compares is the one the digits name. -/
theorem majorOf_eq {v : String} {a : Parsed} (h : parse v = some a) (hn : ∀ n, majorOf v = some n → n < 2 ^ 53) :
    majorOf v = some a.major := by
  have hv : majorOf v = some (((dropV (trim v).toList).takeWhile Char.isDigit).foldl
      (fun n c => 10 * n + (c.toNat - 48)) 0) := by
    rw [majorOf, h]
    rfl
  rw [hv, parse_major h, toDouble, if_pos (hn _ hv)]

theorem classify_major_iff {installed latest : String} :
    classify installed latest = .major ↔ ∃ a b, parse installed = some a ∧ parse latest = some b ∧ a.major < b.major := by
  unfold classify
  cases parse installed with
  | none => simp
  | some a =>
    cases parse latest with
    | none => simp
    | some b =>
      simp only [Option.some.injEq, exists_and_left, exists_eq_left']
      by_cases hsame : a.major = b.major ∧ a.minor = b.minor ∧ a.patch = b.patch
      · rw [if_pos hsame]
        have hlt : ¬ a.major < b.major := by omega
        split <;> simp [hlt]
      · rw [if_neg hsame]
        by_cases hlt : a.major < b.major
        · simp [hlt]
        · rw [if_neg hlt]
          split
          · simp [hlt]
          · split <;> simp [hlt]

theorem classify_unknown_iff {installed latest : String} :
    classify installed latest = .unknown ↔ parse installed = none ∨ parse latest = none := by
  unfold classify
  cases parse installed with
  | none => simp
  | some a =>
    cases parse latest with
    | none => simp
    | some b =>
      simp only [reduceCtorEq, or_self, iff_false]
      split_ifs <;> simp

section
variable {p : DriftPackage} {l : DriftLocation}

/-- **A copy is classified `major` exactly when it is a major version behind.** -/
theorem classified_major_iff (hc : Classified p) (hl : p.At l)
    (hexact : ∀ v n, (p.latest = some v ∨ ∃ l, p.At l ∧ l.installed = v) → majorOf v = some n → n < 2 ^ 53) :
    l.classification = .major ↔ MajorBehind p l := by
  obtain ⟨hsome, hnone⟩ := hc l hl
  cases hlatest : p.latest with
  | none => simp [hnone hlatest, MajorBehind, hlatest]
  | some latest =>
    rw [hsome latest hlatest, classify_major_iff]
    constructor
    · rintro ⟨a, b, ha, hb, hlt⟩
      exact ⟨latest, a.major, b.major, hlatest, majorOf_eq ha (fun n => hexact _ n (.inr ⟨l, hl, rfl⟩)),
        majorOf_eq hb (fun n => hexact _ n (.inl hlatest)), hlt⟩
    · rintro ⟨latest', m, n, hlatest', hm, hn, hlt⟩
      rw [hlatest, Option.some.injEq] at hlatest'
      subst hlatest'
      obtain ⟨a, ha, -⟩ := Option.map_eq_some_iff.1 hm
      obtain ⟨b, hb, -⟩ := Option.map_eq_some_iff.1 hn
      rw [majorOf_eq ha (fun n => hexact _ n (.inr ⟨l, hl, rfl⟩)), Option.some.injEq] at hm
      rw [majorOf_eq hb (fun n => hexact _ n (.inl hlatest)), Option.some.injEq] at hn
      exact ⟨a, b, ha, hb, by omega⟩

/-- A compared copy that is not classified `major` is no major version behind. -/
theorem notBehind_of_compared (hc : Classified p) (hl : p.At l)
    (hexact : ∀ v n, (p.latest = some v ∨ ∃ l, p.At l ∧ l.installed = v) → majorOf v = some n → n < 2 ^ 53)
    (hunknown : l.classification ≠ .unknown) (hmajor : l.classification ≠ .major) : NotBehind p l := by
  obtain ⟨hsome, hnone⟩ := hc l hl
  cases hlatest : p.latest with
  | none => exact absurd (hnone hlatest) hunknown
  | some latest =>
    rw [hsome latest hlatest] at hunknown hmajor
    rw [Ne, classify_unknown_iff, not_or] at hunknown
    obtain ⟨a, ha⟩ := Option.ne_none_iff_exists'.1 hunknown.1
    obtain ⟨b, hb⟩ := Option.ne_none_iff_exists'.1 hunknown.2
    refine ⟨latest, a.major, b.major, hlatest, majorOf_eq ha (fun n => hexact _ n (.inr ⟨l, hl, rfl⟩)),
      majorOf_eq hb (fun n => hexact _ n (.inl hlatest)), ?_⟩
    by_contra hlt
    exact hmajor (classify_major_iff.2 ⟨a, b, ha, hb, by omega⟩)

end

theorem mem_collectMajors_iff {packages : List DriftPackage} :
    collectMajors packages ≠ [] ↔ ∃ p ∈ packages, ∃ l, p.At l ∧ l.classification = .major := by
  have hentry : ∀ (p : DriftPackage) (loc : CopyLocation) (o : Option DriftLocation),
      majorEntry p loc o ≠ none ↔ ∃ l, o = some l ∧ l.classification = .major := by
    intro p loc o
    cases o with
    | none => simp [majorEntry]
    | some l => by_cases h : l.classification = .major <;> simp [majorEntry, h]
  have hlist : ∀ {α : Type} (o : Option α), o.toList ≠ [] ↔ o ≠ none := fun o => by cases o <;> simp
  rw [collectMajors, Ne, List.flatMap_eq_nil_iff]
  simp only [not_forall, exists_prop, List.append_eq_nil_iff, not_and_or]
  simp only [hlist, hentry, DriftPackage.At]
  constructor
  · rintro ⟨p, hp, ⟨l, hl, hm⟩ | ⟨l, hl, hm⟩⟩
    · exact ⟨p, hp, l, .inl hl, hm⟩
    · exact ⟨p, hp, l, .inr hl, hm⟩
  · rintro ⟨p, hp, l, hl | hl, hm⟩
    · exact ⟨p, hp, .inl ⟨l, hl, hm⟩⟩
    · exact ⟨p, hp, .inr ⟨l, hl, hm⟩⟩

theorem isUncompared_eq_false {p : DriftPackage} (h : isUncompared p = false) :
    (p.image ≠ none ∨ p.dataDir ≠ none) ∧ ∀ l, p.At l → l.classification ≠ .unknown := by
  simp only [isUncompared, Bool.or_eq_false_iff, Bool.and_eq_false_iff] at h
  obtain ⟨⟨hsome, himage⟩, hdataDir⟩ := h
  refine ⟨?_, fun l hl hu => ?_⟩
  · rcases hsome with hi | hd
    · exact .inl (fun hn => by simp [hn] at hi)
    · exact .inr (fun hn => by simp [hn] at hd)
  · rcases hl with hl | hl
    · simp [classificationOf, hl, hu] at himage
    · simp [classificationOf, hl, hu] at hdataDir

/-! ## The reports of a run -/

theorem stored_classified {J : JsonCodec} {npmRegistry : String} {s t : ScanState} {i : ScanInput}
    (hs : Stored J s.disk Classified) (h : scanStep J npmRegistry s i = some t) : Stored J t.disk Classified := by
  simp only [scanStep, Option.some.injEq] at h
  subst h
  refine .inr ⟨_, rfl, fun p hp => ⟨runDriftScan_named hs hp, ?_⟩⟩
  rcases runDriftScan_packages hp with ⟨installed, q, -, -, rfl⟩ | ⟨-, b, hb, hpb⟩
  · exact classified_buildPackageEntry q _ _ _
  · exact (hs.load (baseReport_eq hb) p hpb).2

/-- What the probe's verdict is, by the classifications of a loaded report. -/
theorem probeDependencyDrift_status {J : JsonCodec} {clock : ProbeClock} {disk : Option Text} {r : ReportObj}
    (h : loadDriftReport J disk = some r) :
    ((probeDependencyDrift J clock disk).status = .warn ↔
        ∃ p ∈ r.packages, ∃ l, p.At l ∧ l.classification = .major) ∧
      ((probeDependencyDrift J clock disk).status = .ok → r.packages ≠ [] ∧ collectMajors r.packages = [] ∧
        ∀ p ∈ r.packages, isUncompared p = false) := by
  rw [← mem_collectMajors_iff]
  simp only [probeDependencyDrift, h]
  split
  · rename_i hlen
    rw [List.length_eq_zero_iff.1 hlen]
    simp [driftResult, collectMajors]
  · rename_i hlen
    split
    · rename_i hnone
      have hno : collectMajors r.packages = [] := by
        by_contra hne
        obtain ⟨p, hp, l, hl, -⟩ := mem_collectMajors_iff.1 hne
        refine hnone (List.any_eq_true.2 ⟨p, hp, ?_⟩)
        rcases hl with hl | hl <;> simp [hl]
      simp [driftResult, hno]
    · split
      · rename_i hpos
        have hne : collectMajors r.packages ≠ [] := List.length_pos_iff.1 hpos
        simp [driftResult, hne]
      · rename_i hpos
        have hno : collectMajors r.packages = [] := List.length_eq_zero_iff.1 (by omega)
        split
        · simp [driftResult, hno]
        · rename_i hunc
          have hne : r.packages ≠ [] := fun hnil => hlen (by rw [hnil]; rfl)
          refine ⟨by simp [driftResult, hno], fun _ => ⟨hne, hno, fun p hp => ?_⟩⟩
          rw [← Bool.not_eq_true]
          exact fun hu => hunc (List.any_eq_true.2 ⟨p, hp, hu⟩)

/-- **The verdict holds of the versions.**  On every report a run of scans leaves: an `ok` has found packages, each with
a copy, each copy parsed and no major version behind; a `warn` has found a copy a major version behind; and such a copy
always gives a `warn`. -/
theorem probe_sound (J : JsonCodec) (npmRegistry : String) (scans : List ScanInput) (s : ScanState) (clock : ProbeClock)
    (hrun : exec (scanStep J npmRegistry) .init scans = some s)
    (hexact : ∀ r, loadDriftReport J s.disk = some r → ExactMajors r.packages) :
    ((probeDependencyDrift J clock s.disk).status = .ok → ∃ r, loadDriftReport J s.disk = some r ∧ r.packages ≠ [] ∧
      ∀ p ∈ r.packages, (p.image ≠ none ∨ p.dataDir ≠ none) ∧ ∀ l, p.At l → NotBehind p l) ∧
    ((probeDependencyDrift J clock s.disk).status = .warn ↔
      ∃ r, loadDriftReport J s.disk = some r ∧ ∃ p ∈ r.packages, ∃ l, p.At l ∧ MajorBehind p l) := by
  have hstored : Stored J s.disk Classified :=
    Steps.exec_inv' (fun s i t hs h => stored_classified hs h) scans .init s (.inl rfl) hrun
  cases hload : loadDriftReport J s.disk with
  | none => simp [probeDependencyDrift, hload, driftResult]
  | some r =>
    have hclass : ∀ p ∈ r.packages, Classified p := fun p hp => (hstored.load hload p hp).2
    have hex := hexact r hload
    obtain ⟨hwarn, hok⟩ := @probeDependencyDrift_status J clock s.disk r hload
    refine ⟨fun h => ?_, ?_⟩
    · obtain ⟨hne, hno, hcompared⟩ := hok h
      refine ⟨r, rfl, hne, fun p hp => ?_⟩
      obtain ⟨hsome, hknown⟩ := isUncompared_eq_false (hcompared p hp)
      refine ⟨hsome, fun l hl => notBehind_of_compared (hclass p hp) hl (hex p hp) (hknown l hl) (fun hm => ?_)⟩
      exact mem_collectMajors_iff.2 ⟨p, hp, l, hl, hm⟩ hno
    · rw [hwarn]
      constructor
      · rintro ⟨p, hp, l, hl, hm⟩
        exact ⟨r, rfl, p, hp, l, hl, (classified_major_iff (hclass p hp) hl (hex p hp)).1 hm⟩
      · rintro ⟨r', hr', p, hp, l, hl, hb⟩
        cases hr'
        exact ⟨p, hp, l, hl, (classified_major_iff (hclass p hp) hl (hex p hp)).2 hb⟩

def probeClock : ProbeClock := ⟨1790000000000, 3, fun _ => none, fun _ => "0.0"⟩

/-- A scan that reads one package, and a registry whose version of it is two majors ahead. -/
def laggingScan : ScanInput where
  nowIso := "2026-07-17T00:00:00.000Z"
  inspect := none
  container := ⟨true, none, fun name => if name = "@signalk/streams" then .found "4.1.0" else .absent, fun _ => .absent⟩
  fetch := fun _ _ => .response 200 (some "W1") (.ok (.obj [("version", .str "6.0.0")]))

theorem probe_sound_lagging :
    ∃ s, exec (scanStep jsonText "https://registry.npmjs.org") .init [laggingScan] = some s ∧
      (probeDependencyDrift jsonText probeClock s.disk).status = .warn ∧
      ∃ r, loadDriftReport jsonText s.disk = some r ∧ ∃ p ∈ r.packages, ∃ l, p.At l ∧ MajorBehind p l := by
  obtain ⟨s, hs⟩ : ∃ s, exec (scanStep jsonText "https://registry.npmjs.org") .init [laggingScan] = some s := ⟨_, rfl⟩
  have hdisk : s.disk = (some (scanReport "https://registry.npmjs.org" none laggingScan)).map (saveDriftReport jsonText) :=
    exec_scanStep_disk [laggingScan] .init s none rfl (by simp) hs
  have hload : loadDriftReport jsonText s.disk = some (scanReport "https://registry.npmjs.org" none laggingScan).toObj := by
    rw [hdisk]
    exact loadDriftReport_save jsonText _ (by decide +kernel)
  have hpkgs : (scanReport "https://registry.npmjs.org" none laggingScan).packages =
      [⟨"@signalk/streams", none, some ⟨"4.1.0", .major⟩, some "6.0.0", some "W1", some "2026-07-17T00:00:00.000Z"⟩] := by
    decide +kernel
  have hexact : ∀ r, loadDriftReport jsonText s.disk = some r → ExactMajors r.packages := by
    intro r hr
    rw [hload, Option.some.injEq] at hr
    subst hr
    simp only [DriftReport.toObj, hpkgs]
    intro p hp v n hv hn
    rw [List.mem_singleton] at hp
    subst hp
    rcases hv with hv | ⟨l, hl | hl, hv⟩
    · cases hv
      have h6 : majorOf "6.0.0" = some 6 := by decide +kernel
      rw [h6] at hn
      cases hn
      decide
    · cases hl
    · cases hl
      cases hv
      have h4 : majorOf "4.1.0" = some 4 := by decide +kernel
      rw [h4] at hn
      cases hn
      decide
  have hwarn : (probeDependencyDrift jsonText probeClock s.disk).status = .warn := by
    refine (probeDependencyDrift_status hload).1.2 ?_
    simp only [DriftReport.toObj, hpkgs]
    exact ⟨_, List.mem_singleton.2 rfl, _, .inr rfl, rfl⟩
  exact ⟨s, hs, hwarn,
    (probe_sound jsonText "https://registry.npmjs.org" [laggingScan] s probeClock hs hexact).2.1 hwarn⟩

end Drift
end SignalkDoctor
