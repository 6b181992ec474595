import SignalkDoctor.DriftStore
import SignalkDoctor.Installed
import SignalkDoctor.Registry
import SignalkDoctor.Steps
/-!
# Scanner — one drift scan (`src/drift/scanner.ts`)

A scan loads the stored report, inspects the container, reads the installed packages, asks the registry for each and
saves a new report.  What it observes is its input (`ScanInput`); the file is the only state between scans.

`scan_pairs` is about the validator and the value it validates: over all runs the stored `latest` and `etag` of a
package stem from one 200 response, so a 304 confirms the version the registry serves.  `scan_tag_iff` is about the
image tag of the stored report: it is the tag its image versions were read under, unless a scan that cannot read the
packages puts a known tag on a report that had none.
-/
namespace SignalkDoctor
namespace Drift

open Steps (exec Guarded exec_inv)

structure InspectInfo where
  Image : Option String
  ImageName : Option String
  configImage : Option String
  deriving DecidableEq, Repr

/-- `readRunningSignalkImage`: `none` in when there is no runtime or the inspection failed. -/
def readRunningSignalkImage : Option InspectInfo → Option String
  | none => none
  | some info => (info.ImageName.or info.configImage).or info.Image

def priorEntry (report : Option ReportObj) (name : String) : Option DriftPackage :=
  report.bind (fun r => r.packages.find? (fun p => p.name == name))

def classifyLocation (installed latest : Option String) : Option DriftLocation :=
  installed.map (fun v => ⟨v, match latest with | some l => classify v l | none => .unknown⟩)

def buildPackageEntry (installed : InstalledPackage) (registry : NpmRegistryResult) (prior : Option DriftPackage)
    (nowIso : String) : DriftPackage :=
  match registry with
  | .fetched version etag =>
    { name := installed.name
      image := classifyLocation installed.image (some version)
      dataDir := classifyLocation installed.dataDir (some version)
      latest := some version
      etag := etag
      lastFetchedAt := some nowIso }
  | .notModified etag =>
    -- the prior latest, reclassified in case the installed versions moved
    let lastLatest := prior.bind (·.latest)
    { name := installed.name
      image := classifyLocation installed.image lastLatest
      dataDir := classifyLocation installed.dataDir lastLatest
      latest := lastLatest
      etag := if etag ≠ "" then some etag else prior.bind (·.etag)
      lastFetchedAt := some nowIso }
  | .offline _ | .error _ =>
    { name := installed.name
      image := classifyLocation installed.image (prior.bind (·.latest))
      dataDir := classifyLocation installed.dataDir (prior.bind (·.latest))
      latest := prior.bind (·.latest)
      etag := prior.bind (·.etag)
      lastFetchedAt := prior.bind (·.lastFetchedAt) }

def NpmRegistryResult.online : NpmRegistryResult → Bool
  | .fetched .. | .notModified .. => true
  | _ => false

structure ScanOutcome where
  report : DriftReport
  online : Bool
  installedFetchError : Option String
  deriving DecidableEq, Repr

/-- The image is positively known to have switched since the prior report. -/
def imageChanged (prior : Option ReportObj) (newImageTag : Option String) : Bool :=
  match prior.bind (·.signalkImageTag.str?), newImageTag with
  | some old, some new => old ≠ new
  | _, _ => false

/-- `baseReport`: the prior report, unless the image switched. -/
def baseReport (prior : Option ReportObj) (newImageTag : Option String) : Option ReportObj :=
  if imageChanged prior newImageTag then none else prior

/-- The registry's answer for a package, asked with the ETag the base report holds for it. -/
def registryAnswer (getLatest : String → Option String → NpmRegistryResult) (base : Option ReportObj)
    (name : String) : NpmRegistryResult :=
  getLatest name ((priorEntry base name).bind (·.etag))

/-- `runDriftScan` from what it has loaded, inspected and read. -/
def scanOutcome (nowIso : String) (prior : Option ReportObj) (newImageTag : Option String)
    (installedRes : InstalledPackagesResult) (getLatest : String → Option String → NpmRegistryResult) : ScanOutcome :=
  let base := baseReport prior newImageTag
  match installedRes with
  | .failed reason detail =>
    { report :=
        { signalkImageTag := newImageTag
          lastScannedAt := nowIso
          lastSuccessfulScanAt := base.bind (·.lastSuccessfulScanAt.str?)
          online := false
          lastFetchError := some ⟨reason, detail⟩
          packages := (base.map (·.packages)).getD [] }
      online := false
      installedFetchError := some (reason.text ++ ": " ++ detail) }
  | .ok installed =>
    let anyOnline := installed.any (fun i => (registryAnswer getLatest base i.name).online)
    { report :=
        { signalkImageTag := newImageTag
          lastScannedAt := nowIso
          lastSuccessfulScanAt := if anyOnline then some nowIso else base.bind (·.lastSuccessfulScanAt.str?)
          online := anyOnline
          lastFetchError := none
          packages := installed.map (fun i =>
            buildPackageEntry i (registryAnswer getLatest base i.name) (priorEntry base i.name) nowIso) }
      online := anyOnline
      installedFetchError := none }

structure ScanInput where
  nowIso : String
  inspect : Option InspectInfo
  container : ContainerReads
  fetch : String → RegistryRequest → HttpOutcome

def ScanInput.tag (i : ScanInput) : Option String := readRunningSignalkImage i.inspect

def ScanInput.installed (i : ScanInput) : InstalledPackagesResult := readInstalledPackages i.container

def ScanInput.getLatest (npmRegistry : String) (i : ScanInput) (name : String) (etag : Option String) :
    NpmRegistryResult :=
  getLatestVersion npmRegistry (i.fetch name) name etag

/-- `runDriftScan` over the content of `drift.json`. -/
def runDriftScan (J : JsonCodec) (npmRegistry : String) (disk : Option Text) (i : ScanInput) : ScanOutcome :=
  scanOutcome i.nowIso (loadDriftReport J disk) i.tag i.installed (i.getLatest npmRegistry)

/-- The requests a scan makes and what they get back, one per package it read. -/
def scanExchanges (J : JsonCodec) (npmRegistry : String) (disk : Option Text) (i : ScanInput) :
    List (String × HttpOutcome) :=
  match i.installed with
  | .failed .. => []
  | .ok installed =>
    let base := baseReport (loadDriftReport J disk) i.tag
    installed.map (fun p =>
      (p.name, i.fetch p.name ⟨latestUrl npmRegistry p.name, ifNoneMatch ((priorEntry base p.name).bind (·.etag))⟩))

/-! ## Runs of scans

A process restart changes nothing: every scan starts from the file. -/

/-- `drift.json`, and for the statements what went over the wire and the last read that succeeded, with the tag the
scan observed that made it. -/
structure ScanState where
  disk : Option Text
  exchanges : List (String × HttpOutcome)
  lastRead : Option (Option String × List InstalledPackage)

def ScanState.init : ScanState := ⟨none, [], none⟩

def scanStep (J : JsonCodec) (npmRegistry : String) (s : ScanState) (i : ScanInput) : Option ScanState :=
  some
    { disk := some (saveDriftReport J (runDriftScan J npmRegistry s.disk i).report)
      exchanges := s.exchanges ++ scanExchanges J npmRegistry s.disk i
      lastRead :=
        match i.installed with
        | .ok installed => some (i.tag, installed)
        | .failed .. => s.lastRead }

/-- A scan over the report itself, no file between. -/
def scanReport (npmRegistry : String) (prior : Option DriftReport) (i : ScanInput) : DriftReport :=
  (scanOutcome i.nowIso (prior.map DriftReport.toObj) i.tag i.installed (i.getLatest npmRegistry)).report

/-- The report the scans leave, none before the first. -/
def afterScans (npmRegistry : String) (scans : List ScanInput) : Option DriftReport :=
  scans.foldl (fun prior i => some (scanReport npmRegistry prior i)) none

/-- The file is absent or a saved report with named packages that all satisfy `P`. -/
def Stored (J : JsonCodec) (disk : Option Text) (P : DriftPackage → Prop) : Prop :=
  disk = none ∨ ∃ r : DriftReport, disk = some (saveDriftReport J r) ∧ ∀ p ∈ r.packages, p.name ≠ "" ∧ P p

theorem Stored.load {J : JsonCodec} {disk : Option Text} {P : DriftPackage → Prop} (h : Stored J disk P)
    {o : ReportObj} (ho : loadDriftReport J disk = some o) : ∀ p ∈ o.packages, p.name ≠ "" ∧ P p := by
  rcases h with rfl | ⟨r, rfl, hp⟩
  · cases ho
  · rw [loadDriftReport_save J r (fun p h => (hp p h).1), Option.some.injEq] at ho
    exact ho ▸ hp

theorem baseReport_eq {prior : Option ReportObj} {tag : Option String} {b : ReportObj}
    (h : baseReport prior tag = some b) : prior = some b := by
  unfold baseReport at h
  split at h
  · cases h
  · exact h

theorem priorEntry_mem {base : Option ReportObj} {name : String} {p : DriftPackage} (h : priorEntry base name = some p) :
    ∃ b, base = some b ∧ p ∈ b.packages ∧ p.name = name := by
  obtain ⟨b, hb, hf⟩ := Option.bind_eq_some_iff.1 h
  exact ⟨b, hb, List.mem_of_find?_eq_some hf, by simpa using List.find?_some hf⟩

theorem Stored.prior {J : JsonCodec} {disk : Option Text} {P : DriftPackage → Prop} (h : Stored J disk P)
    {tag : Option String} {name : String} {p : DriftPackage}
    (hp : priorEntry (baseReport (loadDriftReport J disk) tag) name = some p) : p.name = name ∧ P p := by
  obtain ⟨b, hb, hm, hn⟩ := priorEntry_mem hp
  exact ⟨hn, (h.load (baseReport_eq hb) p hm).2⟩

/-- A package of the report a scan saves was read by it, or carried over when it could read none. -/
theorem runDriftScan_packages {J : JsonCodec} {npmRegistry : String} {disk : Option Text} {i : ScanInput}
    {p : DriftPackage} (h : p ∈ (runDriftScan J npmRegistry disk i).report.packages) :
    (∃ installed q, i.installed = .ok installed ∧ q ∈ installed ∧
        p = buildPackageEntry q
          (registryAnswer (i.getLatest npmRegistry) (baseReport (loadDriftReport J disk) i.tag) q.name)
          (priorEntry (baseReport (loadDriftReport J disk) i.tag) q.name) i.nowIso) ∨
      (∃ reason detail, i.installed = .failed reason detail) ∧
        ∃ b, baseReport (loadDriftReport J disk) i.tag = some b ∧ p ∈ b.packages := by
  unfold runDriftScan scanOutcome at h
  split at h
  · rename_i reason detail hinst
    refine .inr ⟨⟨reason, detail, hinst⟩, ?_⟩
    cases hb : baseReport (loadDriftReport J disk) i.tag with
    | none => simp [hb] at h
    | some b => exact ⟨b, rfl, by simpa [hb] using h⟩
  · rename_i installed hinst
    obtain ⟨q, hq, rfl⟩ := List.mem_map.1 h
    exact .inl ⟨installed, q, hinst, hq, rfl⟩

theorem buildPackageEntry_name (q : InstalledPackage) (registry : NpmRegistryResult) (prior : Option DriftPackage)
    (nowIso : String) : (buildPackageEntry q registry prior nowIso).name = q.name := by
  cases registry <;> rfl

theorem runDriftScan_named {J : JsonCodec} {npmRegistry : String} {disk : Option Text} {i : ScanInput}
    {P : DriftPackage → Prop} (hs : Stored J disk P) {p : DriftPackage}
    (h : p ∈ (runDriftScan J npmRegistry disk i).report.packages) : p.name ≠ "" := by
  rcases runDriftScan_packages h with ⟨installed, q, hinst, hq, rfl⟩ | ⟨-, b, hb, hp⟩
  · rw [buildPackageEntry_name]
    exact trackedPackages_ne_empty _ (readInstalledPackages_mem hinst hq).1
  · exact (hs.load (baseReport_eq hb) p hp).1

/-- A scan of a stored report saves what a scan of the report gives. -/
theorem runDriftScan_report {J : JsonCodec} {npmRegistry : String} {prior : Option DriftReport}
    (h : ∀ r, prior = some r → ∀ p ∈ r.packages, p.name ≠ "") (i : ScanInput) :
    (runDriftScan J npmRegistry (prior.map (saveDriftReport J)) i).report = scanReport npmRegistry prior i := by
  have hload : loadDriftReport J (prior.map (saveDriftReport J)) = prior.map DriftReport.toObj := by
    cases prior with
    | none => rfl
    | some r => exact loadDriftReport_save J r (h r rfl)
  rw [runDriftScan, hload, scanReport]

/-- **The file holds what the scans, each of the report before it, leave.** -/
theorem exec_scanStep_disk {J : JsonCodec} {npmRegistry : String} : ∀ (scans : List ScanInput) (s t : ScanState)
    (prior : Option DriftReport), s.disk = prior.map (saveDriftReport J) →
      (∀ r, prior = some r → ∀ p ∈ r.packages, p.name ≠ "") → exec (scanStep J npmRegistry) s scans = some t →
        t.disk = (scans.foldl (fun prior i => some (scanReport npmRegistry prior i)) prior).map (saveDriftReport J)
  | [], s, t, prior, hs, _, h => by
    cases h
    exact hs
  | i :: scans, s, t, prior, hs, hnamed, h => by
    obtain ⟨u, hu, hut⟩ := Steps.exec_cons h
    have hrep := @runDriftScan_report J npmRegistry prior hnamed i
    simp only [scanStep, Option.some.injEq] at hu
    subst hu
    refine exec_scanStep_disk scans _ t (some (scanReport npmRegistry prior i)) ?_ ?_ hut
    · simp only [hs, hrep, Option.map_some]
    · intro r hr p hp
      cases hr
      rw [← hrep] at hp
      refine runDriftScan_named (P := fun _ => True) ?_ hp
      cases prior with
      | none => exact .inl rfl
      | some r => exact .inr ⟨r, rfl, fun p hp => ⟨hnamed r rfl p hp, trivial⟩⟩

/-! ## The validator and the value it validates -/

def Served (out : HttpOutcome) (version : String) (etag : Option String) : Prop :=
  ∃ body, out = .response 200 etag (.ok body) ∧ body.get? "version" = some (.str version)

/-- **The package's `latest` and `etag` stem from one and the same 200 response for it, or are both null.** -/
def Paired (exchanges : List (String × HttpOutcome)) (p : DriftPackage) : Prop :=
  (p.latest = none ∧ p.etag = none) ∨
    ∃ version out, p.latest = some version ∧ (p.name, out) ∈ exchanges ∧ Served out version p.etag

/-- **Each location is classified against `latest`, `unknown` without one.** -/
def Classified (p : DriftPackage) : Prop :=
  ∀ l, p.image = some l ∨ p.dataDir = some l →
    (∀ latest, p.latest = some latest → l.classification = classify l.installed latest) ∧
      (p.latest = none → l.classification = .unknown)

/-- A scan of a registry: its observations and the moment of the registry it asks. -/
structure RegistryScan (R : Registry) where
  nowIso : String
  inspect : Option InspectInfo
  container : ContainerReads
  registry : R.Moment

def RegistryScan.input {R : Registry} (i : RegistryScan R) : ScanInput :=
  ⟨i.nowIso, i.inspect, i.container, fun name req => i.registry.answer name req.ifNoneMatch⟩

/-- The 200 responses so far keep the registry's law of ETags. -/
def ExchangesLawful (R : Registry) (exchanges : List (String × HttpOutcome)) : Prop :=
  ∀ name out version etag, (name, out) ∈ exchanges → Served out version (some etag) → version = R.versionOf name etag

/-- **The invariant of the scans**: the stored pairs stem from 200 responses, which keep the registry's law. -/
structure ScanState.Inv (J : JsonCodec) (R : Registry) (s : ScanState) : Prop where
  stored : Stored J s.disk (fun p => Paired s.exchanges p ∧ Classified p)
  lawful : ExchangesLawful R s.exchanges

theorem Paired.mono {ex ex' : List (String × HttpOutcome)} (hsub : ∀ x ∈ ex, x ∈ ex') {p : DriftPackage}
    (h : Paired ex p) : Paired ex' p := by
  rcases h with h | ⟨version, out, hl, hm, hserved⟩
  · exact .inl h
  · exact .inr ⟨version, out, hl, hsub _ hm, hserved⟩

theorem classifyLocation_classification {installed latest : Option String} {l : DriftLocation}
    (h : classifyLocation installed latest = some l) :
    (∀ v, latest = some v → l.classification = classify l.installed v) ∧ (latest = none → l.classification = .unknown) := by
  obtain ⟨v, -, rfl⟩ := Option.map_eq_some_iff.1 h
  exact ⟨fun w hw => by rw [hw], fun hn => by rw [hn]⟩

theorem buildPackageEntry_locations (q : InstalledPackage) (registry : NpmRegistryResult) (prior : Option DriftPackage)
    (nowIso : String) :
    (buildPackageEntry q registry prior nowIso).image =
        classifyLocation q.image (buildPackageEntry q registry prior nowIso).latest ∧
      (buildPackageEntry q registry prior nowIso).dataDir =
        classifyLocation q.dataDir (buildPackageEntry q registry prior nowIso).latest := by
  cases registry <;> exact ⟨rfl, rfl⟩

theorem classified_buildPackageEntry (q : InstalledPackage) (registry : NpmRegistryResult) (prior : Option DriftPackage)
    (nowIso : String) : Classified (buildPackageEntry q registry prior nowIso) := by
  obtain ⟨himage, hdataDir⟩ := buildPackageEntry_locations q registry prior nowIso
  intro l hl
  rcases hl with hl | hl
  · exact classifyLocation_classification (himage ▸ hl)
  · exact classifyLocation_classification (hdataDir ▸ hl)

theorem getLatestVersion_fetched {npmRegistry name : String} {fetch : RegistryRequest → HttpOutcome}
    {prev etag : Option String} {version : String}
    (h : getLatestVersion npmRegistry fetch name prev = .fetched version etag) :
    ∃ status v, fetch ⟨latestUrl npmRegistry name, ifNoneMatch prev⟩ = .response status etag (.ok v) ∧
      (200 ≤ status ∧ status ≤ 299) ∧ v.get? "version" = some (.str version) := by
  unfold getLatestVersion at h
  simp only at h
  split at h
  · cases h
  · rename_i status etag' body heq
    split at h
    · cases h
    · split at h
      · cases h
      · rename_i hok
        split at h
        · cases h
        · cases h
        · rename_i v _
          split at h
          · rename_i version' hv
            cases h
            exact ⟨status, v, heq, by omega, hv⟩
          · cases h

theorem getLatestVersion_notModified {npmRegistry name : String} {fetch : RegistryRequest → HttpOutcome}
    {prev : Option String} {etag : String} (h : getLatestVersion npmRegistry fetch name prev = .notModified etag) :
    etag = prev.getD "" ∧
      ∃ etag' body, fetch ⟨latestUrl npmRegistry name, ifNoneMatch prev⟩ = .response 304 etag' body := by
  unfold getLatestVersion at h
  simp only at h
  split at h
  · cases h
  · rename_i status etag' body heq
    split at h
    · rename_i h304
      cases h
      exact ⟨rfl, etag', body, h304 ▸ heq⟩
    · split at h
      · cases h
      · split at h
        · cases h
        · cases h
        · split at h <;> cases h

theorem getLatestVersion_304 {npmRegistry name : String} {fetch : RegistryRequest → HttpOutcome} {prev etag : Option String}
    {body : Except String Json} (h : fetch ⟨latestUrl npmRegistry name, ifNoneMatch prev⟩ = .response 304 etag body) :
    getLatestVersion npmRegistry fetch name prev = .notModified (prev.getD "") := by
  simp [getLatestVersion, h]

theorem ifNoneMatch_eq_some {prev : Option String} {e : String} (h : ifNoneMatch prev = some e) : prev = some e ∧ e ≠ "" := by
  obtain ⟨hp, he⟩ := Option.filter_eq_some_iff.1 h
  exact ⟨hp, by simpa using he⟩

section
variable {J : JsonCodec} {R : Registry} {npmRegistry : String} {s : ScanState} {i : RegistryScan R}
  {installed : List InstalledPackage} {q : InstalledPackage}

theorem mem_scanExchanges (J : JsonCodec) (npmRegistry : String) (disk : Option Text) {i : ScanInput}
    (hi : i.installed = .ok installed) (hq : q ∈ installed) :
    (q.name, i.fetch q.name ⟨latestUrl npmRegistry q.name,
      ifNoneMatch ((priorEntry (baseReport (loadDriftReport J disk) i.tag) q.name).bind (·.etag))⟩) ∈
        scanExchanges J npmRegistry disk i := by
  simp only [scanExchanges, hi]
  exact List.mem_map.2 ⟨q, hq, rfl⟩

theorem RegistryScan.served_of_fetched {version : String} {prev etag : Option String}
    (h : i.input.getLatest npmRegistry q.name prev = .fetched version etag) :
    Served (i.input.fetch q.name ⟨latestUrl npmRegistry q.name, ifNoneMatch prev⟩) version etag := by
  obtain ⟨status, v, hout, ⟨hlo, hhi⟩, hv⟩ := getLatestVersion_fetched h
  obtain ⟨h200, -, -⟩ := i.registry.answer_200 _ _ _ _ _ _ hout hlo hhi hv
  exact ⟨v, h200 ▸ hout, hv⟩

/-- **What a 304 confirms**: the ETag the prior entry holds, its version the one the registry serves now. -/
theorem RegistryScan.prior_of_notModified (hs : s.Inv J R) {prior : Option DriftPackage}
    (hprior : prior = priorEntry (baseReport (loadDriftReport J s.disk) i.input.tag) q.name) {etag : Option String}
    {body : Except String Json}
    (hout : i.input.fetch q.name ⟨latestUrl npmRegistry q.name, ifNoneMatch (prior.bind (·.etag))⟩ =
      .response 304 etag body) :
    ∃ p e, prior = some p ∧ p.name = q.name ∧ p.etag = some e ∧ e ≠ "" ∧ Paired s.exchanges p ∧
      p.latest = some (i.registry.version q.name) := by
  obtain ⟨e, hinm, hetag⟩ := i.registry.answer_304 _ _ _ _ hout
  obtain ⟨hprev, hne⟩ := ifNoneMatch_eq_some hinm
  obtain ⟨p, hp, hpe⟩ := Option.bind_eq_some_iff.1 hprev
  obtain ⟨hname, hpair, -⟩ := hs.stored.prior (hprior ▸ hp)
  refine ⟨p, e, hp, hname, hpe, hne, hpair, ?_⟩
  rcases hpair with ⟨-, hnone⟩ | ⟨version, out, hl, hm, hserved⟩
  · rw [hnone] at hpe; cases hpe
  · have hv := hs.lawful p.name out version e hm (hpe ▸ hserved)
    rw [hl, hv, hname, i.registry.version_etag _ _ hetag]

theorem paired_buildPackageEntry (hs : s.Inv J R) (hi : i.input.installed = .ok installed) (hq : q ∈ installed)
    {prior : Option DriftPackage}
    (hprior : prior = priorEntry (baseReport (loadDriftReport J s.disk) i.input.tag) q.name) :
    Paired (s.exchanges ++ scanExchanges J npmRegistry s.disk i.input)
      (buildPackageEntry q (i.input.getLatest npmRegistry q.name (prior.bind (·.etag))) prior i.nowIso) := by
  have hkeep : Paired s.exchanges
      ⟨q.name, none, none, prior.bind (·.latest), prior.bind (·.etag), none⟩ := by
    cases hp : prior with
    | none => exact .inl ⟨rfl, rfl⟩
    | some p =>
      obtain ⟨hname, hpair, -⟩ := hs.stored.prior (hprior ▸ hp)
      rcases hpair with h | ⟨version, out, hl, hm, hserved⟩
      · exact .inl h
      · exact .inr ⟨version, out, hl, hname ▸ hm, hserved⟩
  have hmem := mem_scanExchanges J npmRegistry s.disk hi hq
  rw [← hprior] at hmem
  cases hreg : i.input.getLatest npmRegistry q.name (prior.bind (·.etag)) with
  | fetched version etag =>
    exact .inr ⟨version, _, rfl, List.mem_append_right _ hmem, RegistryScan.served_of_fetched hreg⟩
  | notModified etag =>
    obtain ⟨hetag, etag', body, hout⟩ := getLatestVersion_notModified hreg
    obtain ⟨p, e, hp, hname, hpe, hne, hpair, hl⟩ := RegistryScan.prior_of_notModified hs hprior hout
    have he : etag = e := by rw [hetag, hp]; simp [hpe]
    subst he
    rcases hpair with ⟨hnone, -⟩ | ⟨version, out, hl', hm, hserved⟩
    · rw [hl] at hnone; cases hnone
    · refine .inr ⟨version, out, ?_, List.mem_append_left _ (by rw [buildPackageEntry_name, ← hname]; exact hm), ?_⟩
      · simp [buildPackageEntry, hp, hl']
      · simpa [buildPackageEntry, hne, ← hpe] using hserved
  | offline detail => exact hkeep.mono (fun x hx => List.mem_append_left _ hx)
  | error detail => exact hkeep.mono (fun x hx => List.mem_append_left _ hx)

theorem exchangesLawful_scan (disk : Option Text) : ExchangesLawful R (scanExchanges J npmRegistry disk i.input) := by
  intro name out version etag hm ⟨body, hout, hv⟩
  unfold scanExchanges at hm
  split at hm
  · cases hm
  · obtain ⟨q, -, hq⟩ := List.mem_map.1 hm
    cases hq
    obtain ⟨-, hversion, hetag⟩ := i.registry.answer_200 _ _ _ _ _ _ hout (by decide) (by decide) hv
    rw [hversion, i.registry.version_etag _ _ hetag.symm]

theorem report_of_inv (hs : s.Inv J R) {p : DriftPackage}
    (hp : p ∈ (runDriftScan J npmRegistry s.disk i.input).report.packages) :
    Paired (s.exchanges ++ scanExchanges J npmRegistry s.disk i.input) p ∧ Classified p := by
  rcases runDriftScan_packages hp with ⟨installed, q, hi, hq, rfl⟩ | ⟨-, b, hb, hpb⟩
  · exact ⟨paired_buildPackageEntry hs hi hq rfl, classified_buildPackageEntry q _ _ _⟩
  · obtain ⟨-, hpair, hclass⟩ := hs.stored.load (baseReport_eq hb) p hpb
    exact ⟨hpair.mono (fun x hx => List.mem_append_left _ hx), hclass⟩

theorem scanStep_inv {t : ScanState} (hs : s.Inv J R) (h : scanStep J npmRegistry s i.input = some t) : t.Inv J R := by
  simp only [scanStep, Option.some.injEq] at h
  subst h
  constructor
  · exact .inr ⟨_, rfl, fun p hp => ⟨runDriftScan_named hs.stored hp, report_of_inv hs hp⟩⟩
  · intro name out version etag hm hserved
    rcases List.mem_append.1 hm with hm | hm
    · exact hs.lawful name out version etag hm hserved
    · exact exchangesLawful_scan s.disk name out version etag hm hserved

end

/-- **A 304 never pins a stale version.**  After any scans of a registry, in every report a further scan saves: the
`latest` and `etag` of each package stem from one 200 response, or are both null; each location is classified against
`latest`; and where the scan got a 304, `latest` is the version the registry served at that moment. -/
theorem scan_pairs (J : JsonCodec) (R : Registry) (npmRegistry : String) (scans : List (RegistryScan R)) (s : ScanState)
    (hrun : exec (fun s (i : RegistryScan R) => scanStep J npmRegistry s i.input) .init scans = some s)
    (i : RegistryScan R) (p : DriftPackage)
    (hp : p ∈ (runDriftScan J npmRegistry s.disk i.input).report.packages) :
    Paired (s.exchanges ++ scanExchanges J npmRegistry s.disk i.input) p ∧ Classified p ∧
      ∀ etag body, (p.name, .response 304 etag body) ∈ scanExchanges J npmRegistry s.disk i.input →
        p.latest = some (i.registry.version p.name) := by
  have hs : s.Inv J R := Steps.exec_inv' (fun s i t hs h => scanStep_inv hs h) scans .init s
    ⟨.inl rfl, fun _ _ _ _ hm => by cases hm⟩ hrun
  obtain ⟨hpair, hclass⟩ := report_of_inv hs hp
  refine ⟨hpair, hclass, fun etag body hm => ?_⟩
  rcases runDriftScan_packages hp with ⟨installed, q, hi, hq, rfl⟩ | ⟨⟨reason, detail, hi⟩, -⟩
  · rw [buildPackageEntry_name] at hm ⊢
    simp only [scanExchanges, hi] at hm
    obtain ⟨q', -, heq⟩ := List.mem_map.1 hm
    obtain ⟨hname, hout⟩ := Prod.mk.inj heq
    rw [hname] at hout
    obtain ⟨prior, e, hprior, -, -, -, -, hl⟩ := RegistryScan.prior_of_notModified hs rfl hout
    rw [registryAnswer, ScanInput.getLatest, getLatestVersion_304 hout]
    simp only [buildPackageEntry, hprior, Option.bind_some]
    exact hl
  · simp [scanExchanges, hi] at hm

def steadyRegistry : Registry := ⟨fun _ _ => "3.9.0"⟩

def steadyMoment : steadyRegistry.Moment where
  version := fun _ => "3.9.0"
  etag := fun _ => some "W1"
  version_etag := fun _ _ _ => rfl
  answer := fun _ inm =>
    if inm = some "W1" then .response 304 none (.error "no body")
    else .response 200 (some "W1") (.ok (.obj [("version", .str "3.9.0")]))
  answer_304 := fun name inm etag' body h => by
    split at h
    · rename_i hinm; exact ⟨"W1", hinm, rfl⟩
    · cases h
  answer_200 := fun name inm status etag' v version' h hlo hhi hv => by
    split at h
    · cases h
    · cases h
      refine ⟨rfl, ?_, rfl⟩
      simpa [Json.get?] using hv.symm

def canboatScan : RegistryScan steadyRegistry where
  nowIso := "2026-07-17T00:00:00.000Z"
  inspect := none
  container := ⟨true, none, fun name => if name = "@canboat/canboatjs" then .found "3.8.0" else .absent, fun _ => .absent⟩
  registry := steadyMoment

/-- The second scan of `canboatScan`, which gets a 304. -/
theorem scan_pairs_canboat :
    ∃ s p, exec (fun s (i : RegistryScan steadyRegistry) => scanStep jsonText "https://registry.npmjs.org" s i.input)
        .init [canboatScan] = some s ∧
      p ∈ (runDriftScan jsonText "https://registry.npmjs.org" s.disk canboatScan.input).report.packages ∧
        Paired (s.exchanges ++ scanExchanges jsonText "https://registry.npmjs.org" s.disk canboatScan.input) p ∧
          Classified p ∧
            ∀ etag body, (p.name, .response 304 etag body) ∈
                scanExchanges jsonText "https://registry.npmjs.org" s.disk canboatScan.input →
              p.latest = some (canboatScan.registry.version p.name) := by
  obtain ⟨s, hs⟩ : ∃ s, exec (fun s (i : RegistryScan steadyRegistry) =>
    scanStep jsonText "https://registry.npmjs.org" s i.input) .init [canboatScan] = some s := ⟨_, rfl⟩
  have hdisk : s.disk = (some (scanReport "https://registry.npmjs.org" none canboatScan.input)).map (saveDriftReport jsonText) :=
    exec_scanStep_disk [canboatScan.input] .init s none rfl (by simp) hs
  have hmem : (⟨"@canboat/canboatjs", none, some ⟨"3.8.0", .minor⟩, some "3.9.0", some "W1",
      some "2026-07-17T00:00:00.000Z"⟩ : DriftPackage) ∈
        (runDriftScan jsonText "https://registry.npmjs.org" s.disk canboatScan.input).report.packages := by
    rw [hdisk, runDriftScan_report (by decide +kernel)]
    decide +kernel
  exact ⟨s, _, hs, hmem, scan_pairs jsonText steadyRegistry _ [canboatScan] s hs canboatScan _ hmem⟩

/-! ## The tag of a stored report -/

def ImageRead (lastRead : Option (Option String × List InstalledPackage)) (p : DriftPackage) : Prop :=
  ∀ l, p.image = some l → ∃ tag installed q, lastRead = some (tag, installed) ∧ q ∈ installed ∧ q.name = p.name ∧
    q.image = some l.installed

/-- **Every image version of the stored report was read by a scan that itself observed the report's tag**, if it has
one. -/
def TagSound (J : JsonCodec) (s : ScanState) : Prop :=
  ∀ r t, loadDriftReport J s.disk = some r → r.signalkImageTag.str? = some t → ∀ p ∈ r.packages, ∀ l, p.image = some l →
    ∃ installed q, s.lastRead = some (some t, installed) ∧ q ∈ installed ∧ q.name = p.name ∧ q.image = some l.installed

/-- **The scan puts no foreign tag on the versions it carries over**: if it cannot read the packages, observes a known
tag, and the stored report, without a tag, lists an image version, then the last scan that could read the packages
observed the same tag. -/
def keepsTag (J : JsonCodec) (s : ScanState) (i : ScanInput) : Prop :=
  ∀ reason detail t r p, i.installed = .failed reason detail → i.tag = some t → loadDriftReport J s.disk = some r →
    r.signalkImageTag.str? = none → p ∈ r.packages → p.image ≠ none → s.lastRead.map Prod.fst = some (some t)

theorem image_buildPackageEntry {q : InstalledPackage} {registry : NpmRegistryResult} {prior : Option DriftPackage}
    {nowIso : String} {l : DriftLocation} (h : (buildPackageEntry q registry prior nowIso).image = some l) :
    q.image = some l.installed := by
  rw [(buildPackageEntry_locations q registry prior nowIso).1] at h
  obtain ⟨v, hv, rfl⟩ := Option.map_eq_some_iff.1 h
  exact hv

theorem runDriftScan_tag (J : JsonCodec) (npmRegistry : String) (disk : Option Text) (i : ScanInput) :
    (runDriftScan J npmRegistry disk i).report.signalkImageTag = i.tag := by
  unfold runDriftScan scanOutcome
  split <;> rfl

theorem runDriftScan_failed (J : JsonCodec) (npmRegistry : String) (disk : Option Text) {i : ScanInput}
    {reason : DriftFetchReason} {detail : String} (h : i.installed = .failed reason detail) :
    (runDriftScan J npmRegistry disk i).report.packages =
      ((baseReport (loadDriftReport J disk) i.tag).map (·.packages)).getD [] := by
  simp only [runDriftScan, scanOutcome, h]

theorem load_scanStep {J : JsonCodec} {npmRegistry : String} {s t : ScanState} {i : ScanInput} {P : DriftPackage → Prop}
    (hs : Stored J s.disk P) (h : scanStep J npmRegistry s i = some t) :
    loadDriftReport J t.disk = some (runDriftScan J npmRegistry s.disk i).report.toObj := by
  simp only [scanStep, Option.some.injEq] at h
  subst h
  exact loadDriftReport_save J _ (fun p hp => runDriftScan_named hs hp)

@[simp] theorem JsVal.str?_ofStr? (s : Option String) : JsVal.str? (.json (Json.ofStr? s)) = s := by
  cases s <;> rfl

section
variable {J : JsonCodec} {npmRegistry : String} {s t : ScanState} {i : ScanInput}

theorem scanStep_stored (hs : Stored J s.disk (ImageRead s.lastRead)) (h : scanStep J npmRegistry s i = some t) :
    Stored J t.disk (ImageRead t.lastRead) := by
  simp only [scanStep, Option.some.injEq] at h
  subst h
  refine .inr ⟨_, rfl, fun p hp => ⟨runDriftScan_named hs hp, ?_⟩⟩
  intro l hl
  rcases runDriftScan_packages hp with ⟨installed, q, hi, hq, rfl⟩ | ⟨⟨reason, detail, hi⟩, b, hb, hpb⟩
  · refine ⟨i.tag, installed, q, ?_, hq, (buildPackageEntry_name ..).symm, image_buildPackageEntry hl⟩
    simp only [hi]
  · simp only [hi]
    exact (hs.load (baseReport_eq hb) p hpb).2 l hl

/-- A scan that reads the packages leaves a sound tag. -/
theorem tagSound_of_read {installed : List InstalledPackage} (hs : Stored J s.disk (ImageRead s.lastRead))
    (hi : i.installed = .ok installed) (h : scanStep J npmRegistry s i = some t) : TagSound J t := by
  have hload := load_scanStep hs h
  simp only [scanStep, Option.some.injEq] at h
  subst h
  intro r tag hr htag p hp l hl
  rw [hload, Option.some.injEq] at hr
  subst hr
  simp only [DriftReport.toObj, JsVal.str?_ofStr?, runDriftScan_tag] at htag
  rcases runDriftScan_packages hp with ⟨installed', q, hi', hq, rfl⟩ | ⟨⟨reason, detail, hi'⟩, -⟩
  · rw [hi] at hi'
    cases hi'
    refine ⟨installed, q, ?_, hq, (buildPackageEntry_name ..).symm, image_buildPackageEntry hl⟩
    simp only [hi, htag]
  · rw [hi] at hi'; cases hi'

/-- A scan that cannot read them leaves a sound tag exactly when it puts no foreign one on what it carries over. -/
theorem tagSound_of_failed_iff {reason : DriftFetchReason} {detail : String}
    (hs : Stored J s.disk (ImageRead s.lastRead)) (hsound : TagSound J s) (hi : i.installed = .failed reason detail)
    (h : scanStep J npmRegistry s i = some t) : TagSound J t ↔ keepsTag J s i := by
  have hload := load_scanStep hs h
  have hread : t.lastRead = s.lastRead := by
    simp only [scanStep, hi, Option.some.injEq] at h
    exact h ▸ rfl
  have hpkgs := runDriftScan_failed J npmRegistry s.disk hi
  constructor
  · intro ht reason' detail' tag r p _ htag hr hnull hp himage
    obtain ⟨l, hl⟩ := Option.ne_none_iff_exists'.1 himage
    -- the stored tag is null, so the packages are carried over, under the tag observed now
    have hbase : baseReport (loadDriftReport J s.disk) i.tag = some r := by
      simp [baseReport, imageChanged, hr, hnull]
    obtain ⟨installed, q, hlast, -⟩ := ht _ tag hload
      (by simp only [DriftReport.toObj, JsVal.str?_ofStr?, runDriftScan_tag]; exact htag) p
      (by simp only [DriftReport.toObj, hpkgs, hbase, Option.map_some, Option.getD_some]; exact hp) l hl
    rw [← hread, hlast]
    rfl
  · intro hkeeps r' tag hr' htag p hp l hl
    rw [hload, Option.some.injEq] at hr'
    subst hr'
    simp only [DriftReport.toObj, JsVal.str?_ofStr?, runDriftScan_tag, hpkgs] at htag hp
    cases hb : baseReport (loadDriftReport J s.disk) i.tag with
    | none => simp [hb] at hp
    | some r =>
      simp only [hb, Option.map_some, Option.getD_some] at hp
      have hr := baseReport_eq hb
      obtain ⟨tag', installed, q, hlast, hq, hname, himage⟩ := (hs.load hr p hp).2 l hl
      cases hold : r.signalkImageTag.str? with
      | none =>
        have := hkeeps reason detail tag r p hi htag hr hold hp (by simp [hl])
        rw [hlast, Option.map_some, Option.some.injEq] at this
        simp only at this
        exact ⟨installed, q, by rw [hread, hlast, this], hq, hname, himage⟩
      | some old =>
        have hsame : old = tag := by
          by_cases hne : old = tag
          · exact hne
          · simp [baseReport, imageChanged, hr, hold, htag, hne] at hb
        subst hsame
        rw [hread]
        exact hsound r old hr hold p hp l hl

theorem scanStep_tagSound (hs : Stored J s.disk (ImageRead s.lastRead)) (hsound : TagSound J s)
    (h : scanStep J npmRegistry s i = some t) :
    Stored J t.disk (ImageRead t.lastRead) ∧ (TagSound J t ↔ keepsTag J s i) := by
  refine ⟨scanStep_stored hs h, ?_⟩
  cases hi : i.installed with
  | failed reason detail => exact tagSound_of_failed_iff hs hsound hi h
  | ok installed =>
    refine ⟨fun _ => ?_, fun _ => tagSound_of_read hs hi h⟩
    intro reason detail t r p hfail
    rw [hi] at hfail
    cases hfail

end

/-- **The stored tag stays sound over a run of scans exactly when no scan puts a foreign tag on what it carries over.** -/
theorem scan_tag_iff (J : JsonCodec) (npmRegistry : String) (scans : List ScanInput) (s : ScanState)
    (hrun : exec (scanStep J npmRegistry) .init scans = some s) :
    (∀ earlier t, earlier <+: scans → exec (scanStep J npmRegistry) .init earlier = some t → TagSound J t) ↔
      Guarded (scanStep J npmRegistry) (keepsTag J) .init scans :=
  (Steps.guarded_iff (I := fun s => Stored J s.disk (ImageRead s.lastRead)) (P := TagSound J)
    (fun _ _ _ hI hP h => scanStep_tagSound hI hP h) scans .init s (.inl rfl) (fun _ _ h => by cases h) hrun).symm

/-- A scan during an update: the image tag it observes, and whether it can read the packages. -/
def updateScan (tag : Option String) (readable : Bool) : ScanInput where
  nowIso := "2026-07-17T00:00:00.000Z"
  inspect := tag.map (fun t => ⟨none, some t, none⟩)
  container := ⟨true, none, fun _ => .absent,
    fun name =>
      if ¬ readable then .error "unknown: Unexpected error. See logs for details. (container state improper)"
      else if name = "@signalk/server-api" then .found "2.7.0" else .absent⟩
  fetch := fun _ _ => .threw "fetch failed"

/-- One good scan, one while the container is being replaced, one while the new one comes up. -/
def updateScans : List ScanInput :=
  [updateScan (some "signalk-server:2.24.0") true, updateScan none false, updateScan (some "signalk-server:2.25.0") false]

def mixedReport : DriftReport where
  signalkImageTag := some "signalk-server:2.25.0"
  lastScannedAt := "2026-07-17T00:00:00.000Z"
  lastSuccessfulScanAt := none
  online := false
  lastFetchError :=
    some ⟨.runtime, "unknown: Unexpected error. See logs for details. (container state improper)"⟩
  packages := [⟨"@signalk/server-api", some ⟨"2.7.0", .unknown⟩, none, none, none, none⟩]

/-- Across an image update the new tag comes to stand on the old image's versions. -/
theorem scan_tag_update :
    ¬ ∀ (J : JsonCodec) (npmRegistry : String) (scans : List ScanInput) (s : ScanState),
      exec (scanStep J npmRegistry) .init scans = some s → TagSound J s := by
  intro h
  obtain ⟨s, hs, hlast⟩ : ∃ s, exec (scanStep jsonText "r") .init updateScans = some s ∧
      s.lastRead = some (some "signalk-server:2.24.0", [⟨"@signalk/server-api", some "2.7.0", none⟩]) :=
    ⟨_, rfl, by decide +kernel⟩
  have hafter : afterScans "r" updateScans = some mixedReport := by decide +kernel
  have hdisk := exec_scanStep_disk updateScans .init s none rfl (by simp) hs
  rw [← afterScans, hafter, Option.map_some] at hdisk
  have hload : loadDriftReport jsonText s.disk = some mixedReport.toObj := by
    rw [hdisk]
    exact loadDriftReport_save jsonText mixedReport (by decide +kernel)
  obtain ⟨installed, q, hread, -⟩ := h jsonText "r" updateScans s hs _ "signalk-server:2.25.0" hload rfl _
    (List.mem_singleton.2 rfl) _ rfl
  have htag : some (some "signalk-server:2.24.0") = some (some "signalk-server:2.25.0") := by
    have := congrArg (Option.map Prod.fst) hread
    rwa [hlast] at this
  exact absurd htag (by decide)

/-- `updateScans` with the tag observed throughout: the read fails while the container is replaced. -/
theorem scan_tag_iff_update :
    ∃ s, exec (scanStep jsonText "r") .init [updateScan (some "signalk-server:2.24.0") true, updateScan none false] = some s ∧
      ((∀ earlier t, earlier <+: [updateScan (some "signalk-server:2.24.0") true, updateScan none false] →
          exec (scanStep jsonText "r") .init earlier = some t → TagSound jsonText t) ↔
        Guarded (scanStep jsonText "r") (keepsTag jsonText) .init
          [updateScan (some "signalk-server:2.24.0") true, updateScan none false]) :=
  ⟨_, rfl, scan_tag_iff jsonText "r" _ _ rfl⟩

end Drift
end SignalkDoctor
