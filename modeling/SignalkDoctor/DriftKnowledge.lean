import Mathlib.Data.List.Nodup
import SignalkDoctor.Scanner
/-!
# DriftKnowledge — what the stored reports know across scans (`src/drift/scanner.ts`)

The latest version of a package is carried from report to report through the entry of the same name, so a boat that is
offline keeps it.  A scan that cannot read one package leaves its entry out, and with it what was known:
`latest_recalled_iff` is about all reports saved while the image tag stays the same, and says exactly when each later
one still knows what an earlier one knew.
-/
namespace SignalkDoctor
namespace Drift

open Steps (exec Guarded)

/-! ## The names of a report -/

theorem names_packageEntry (c : ContainerReads) (name : String) :
    ((packageEntry c name).toList.map (·.name)).Sublist [name] := by
  cases h : packageEntry c name with
  | none => exact List.nil_sublist _
  | some p => simp [packageEntry_name h]

theorem names_foldl_readPackage (c : ContainerReads) : ∀ (names : List String)
    (acc : List InstalledPackage × Option String),
      ((names.foldl (readPackage c) acc).1.map (·.name)).Sublist (acc.1.map (·.name) ++ names)
  | [], acc => by simp
  | name :: names, acc => by
    have ih := names_foldl_readPackage c names (readPackage c acc name)
    rw [readPackage_eq c acc name, List.map_append, List.append_assoc] at ih
    rw [List.foldl_cons, readPackage_eq]
    refine ih.trans ((List.Sublist.refl _).append ?_)
    exact (names_packageEntry c name).append (List.Sublist.refl names)

theorem nodup_installed {c : ContainerReads} {packages : List InstalledPackage}
    (h : readInstalledPackages c = .ok packages) : (packages.map (·.name)).Nodup := by
  unfold readInstalledPackages at h
  split at h
  · split at h
    · cases h
    · split at h
      · cases h
      · rename_i heq
        cases h
        have hsub := names_foldl_readPackage c trackedPackages ([], none)
        rw [heq] at hsub
        exact hsub.nodup (by decide)
  · cases h

/-- A report the scanner can have saved: its packages are named, no two alike. -/
structure DriftReport.Named (r : DriftReport) : Prop where
  ne_empty : ∀ p ∈ r.packages, p.name ≠ ""
  nodup : (r.packages.map (·.name)).Nodup

theorem DriftReport.Named.inj {r : DriftReport} (h : r.Named) {p q : DriftPackage} (hp : p ∈ r.packages)
    (hq : q ∈ r.packages) (hname : p.name = q.name) : p = q :=
  List.inj_on_of_nodup_map h.nodup hp hq hname

/-- The file is absent or holds a report the scanner saved. -/
def Saved (J : JsonCodec) (disk : Option Text) : Prop :=
  disk = none ∨ ∃ r : DriftReport, disk = some (saveDriftReport J r) ∧ r.Named

theorem Saved.load {J : JsonCodec} {disk : Option Text} (h : Saved J disk) {o : ReportObj}
    (ho : loadDriftReport J disk = some o) : ∃ r : DriftReport, o = r.toObj ∧ r.Named := by
  rcases h with rfl | ⟨r, rfl, hr⟩
  · cases ho
  · rw [loadDriftReport_save J r hr.ne_empty, Option.some.injEq] at ho
    exact ⟨r, ho.symm, hr⟩

theorem DriftReport.Named.find? {r : DriftReport} (h : r.Named) {p : DriftPackage} (hp : p ∈ r.packages) :
    r.packages.find? (fun q => q.name == p.name) = some p := by
  cases hf : r.packages.find? (fun q => q.name == p.name) with
  | none =>
    have hne := List.find?_eq_none.1 hf p hp
    simp at hne
  | some q =>
    have hname : q.name = p.name := by simpa using List.find?_some hf
    rw [h.inj (List.mem_of_find?_eq_some hf) hp hname]

theorem named_of_read {J : JsonCodec} {npmRegistry : String} {disk : Option Text} {i : ScanInput}
    {installed : List InstalledPackage} (hi : i.installed = .ok installed) :
    (runDriftScan J npmRegistry disk i).report.Named := by
  have hpkgs : (runDriftScan J npmRegistry disk i).report.packages.map (·.name) = installed.map (·.name) := by
    simp only [runDriftScan, scanOutcome, hi, List.map_map]
    exact List.map_congr_left (fun q _ => buildPackageEntry_name ..)
  constructor
  · intro p hp
    have hm : p.name ∈ installed.map (·.name) := hpkgs ▸ List.mem_map_of_mem hp
    obtain ⟨q, hq, hname⟩ := List.mem_map.1 hm
    rw [← hname]
    exact trackedPackages_ne_empty _ (readInstalledPackages_mem hi hq).1
  · rw [hpkgs]
    exact nodup_installed hi

theorem named_runDriftScan {J : JsonCodec} (npmRegistry : String) {disk : Option Text} (h : Saved J disk)
    (i : ScanInput) : (runDriftScan J npmRegistry disk i).report.Named := by
  cases hi : i.installed with
  | ok installed => exact named_of_read hi
  | failed reason detail =>
    have hpkgs := runDriftScan_failed J npmRegistry disk hi
    cases hb : baseReport (loadDriftReport J disk) i.tag with
    | none => constructor <;> simp [hpkgs, hb]
    | some b =>
      obtain ⟨r, rfl, hr⟩ := h.load (baseReport_eq hb)
      have hsame : (runDriftScan J npmRegistry disk i).report.packages = r.packages := by
        rw [hpkgs, hb]
        rfl
      exact ⟨hsame ▸ hr.ne_empty, hsame ▸ hr.nodup⟩

theorem saved_scanStep {J : JsonCodec} {npmRegistry : String} {s t : ScanState} {i : ScanInput} (hs : Saved J s.disk)
    (h : scanStep J npmRegistry s i = some t) : Saved J t.disk := by
  simp only [scanStep, Option.some.injEq] at h
  subst h
  exact .inr ⟨_, rfl, named_runDriftScan npmRegistry hs i⟩

/-! ## Scans of one image -/

/-- A scan that observes the image tag `tag`, or cannot inspect the container. -/
structure ImageScan (tag : String) where
  input : ScanInput
  observed : input.tag = none ∨ input.tag = some tag

/-- `drift.json`, and for the statements the reports saved so far. -/
structure ScanHistory where
  disk : Option Text
  saved : List DriftReport

inductive HistoryAct (tag : String) where
  | scan (i : ImageScan tag)
  /-- A restart, a scan in flight lost before its save. -/
  | restarted

section
variable (J : JsonCodec) (npmRegistry : String) {tag : String}

def historyStep (s : ScanHistory) : HistoryAct tag → Option ScanHistory
  | .scan i =>
    let report := (runDriftScan J npmRegistry s.disk i.input).report
    some ⟨some (saveDriftReport J report), s.saved ++ [report]⟩
  | .restarted => some s

/-- Some report gave the package a latest version. -/
def Known (reports : List DriftReport) (name : String) : Prop :=
  ∃ r ∈ reports, ∃ p ∈ r.packages, p.name = name ∧ p.latest ≠ none

/-- Every package the report lists has a latest version in it if one of the earlier reports gave it one. -/
def Recalls (earlier : List DriftReport) (r : DriftReport) : Prop :=
  ∀ p ∈ r.packages, Known earlier p.name → p.latest ≠ none

/-- **Once a report lists a package with a latest version, every later report that lists it has one for it.** -/
def Recalled (reports : List DriftReport) : Prop :=
  ∀ earlier r later, reports = earlier ++ r :: later → Recalls earlier r

/-- **What the scan brings back is known anew**: a package it reads, which an earlier report gave a latest version and
which the stored report no longer lists, gets a version from the registry. -/
def refetches (s : ScanHistory) : HistoryAct tag → Prop
  | .scan i =>
    ∀ installed q, i.input.installed = .ok installed → q ∈ installed → Known s.saved q.name →
      priorEntry (loadDriftReport J s.disk) q.name = none →
        ∃ version etag, i.input.getLatest npmRegistry q.name none = .fetched version etag
  | .restarted => True

end

theorem recalled_nil : Recalled [] := by
  intro earlier r later h
  simp at h

theorem recalled_concat {reports : List DriftReport} {r : DriftReport} :
    Recalled (reports ++ [r]) ↔ Recalled reports ∧ Recalls reports r := by
  constructor
  · intro h
    refine ⟨fun earlier r' later heq => ?_, h reports r [] rfl⟩
    refine h earlier r' (later ++ [r]) ?_
    rw [heq, List.append_assoc, List.cons_append]
  · rintro ⟨hreports, hr⟩ earlier r' later heq
    rcases List.eq_nil_or_concat later with rfl | ⟨later', r'', rfl⟩
    · obtain ⟨rfl, hlast⟩ := List.append_inj' heq rfl
      cases hlast
      exact hr
    · rw [List.concat_eq_append, ← List.cons_append, ← List.append_assoc] at heq
      obtain ⟨heq, -⟩ := List.append_inj' heq rfl
      exact hreports earlier r' later' heq

theorem Recalled.of_prefix {reports reports' : List DriftReport} (h : Recalled reports')
    (hsub : reports <+: reports') : Recalled reports := by
  obtain ⟨rest, rfl⟩ := hsub
  intro earlier r later heq
  refine h earlier r (later ++ rest) ?_
  rw [heq, List.append_assoc, List.cons_append]

theorem latest_buildPackageEntry (q : InstalledPackage) (registry : NpmRegistryResult) (prior : Option DriftPackage)
    (nowIso : String) : (buildPackageEntry q registry prior nowIso).latest ≠ none ↔
      (∃ version etag, registry = .fetched version etag) ∨ ∃ p, prior = some p ∧ p.latest ≠ none := by
  cases registry <;> cases prior <;> simp [buildPackageEntry]

/-! ## What one scan keeps -/

section
variable {J : JsonCodec} {npmRegistry tag : String} {s : ScanHistory}

/-- The file holds the report saved last, of this image or of none that was observed. -/
structure ScanHistory.Inv (J : JsonCodec) (tag : String) (s : ScanHistory) : Prop where
  saved : Saved J s.disk
  last : ∀ earlier r, s.saved = earlier ++ [r] → s.disk = some (saveDriftReport J r) ∧ r.Named ∧
    (r.signalkImageTag = none ∨ r.signalkImageTag = some tag)

theorem inv_historyStep (hs : s.Inv J tag) {t : ScanHistory} {a : HistoryAct tag}
    (h : historyStep J npmRegistry s a = some t) : t.Inv J tag := by
  cases a with
  | restarted =>
    cases h
    exact hs
  | scan i =>
    cases h
    have hnamed := named_runDriftScan npmRegistry hs.saved i.input
    refine ⟨.inr ⟨_, rfl, hnamed⟩, fun earlier r heq => ?_⟩
    obtain ⟨-, hlast⟩ := List.append_inj' heq rfl
    cases hlast
    refine ⟨rfl, hnamed, ?_⟩
    rw [runDriftScan_tag]
    exact i.observed

/-- Under one image the scan starts from the report saved last. -/
theorem ScanHistory.Inv.base (hs : s.Inv J tag) {earlier : List DriftReport} {r : DriftReport}
    (heq : s.saved = earlier ++ [r]) (i : ImageScan tag) :
    loadDriftReport J s.disk = some r.toObj ∧ baseReport (loadDriftReport J s.disk) i.input.tag = some r.toObj := by
  obtain ⟨hdisk, hnamed, htag⟩ := hs.last earlier r heq
  have hload : loadDriftReport J s.disk = some r.toObj := by
    rw [hdisk, loadDriftReport_save J r hnamed.ne_empty]
  have hsame : imageChanged (some r.toObj) i.input.tag = false := by
    rcases htag with h | h <;> rcases i.observed with h' | h' <;> simp [imageChanged, DriftReport.toObj, h, h']
  refine ⟨hload, ?_⟩
  simp [hload, baseReport, hsame]

/-- The report saved last knows of each package it lists what any report knew. -/
theorem ScanHistory.Inv.latest_of_known (hs : s.Inv J tag) (hrec : Recalled s.saved) {earlier : List DriftReport}
    {r : DriftReport} (heq : s.saved = earlier ++ [r]) {p : DriftPackage} (hp : p ∈ r.packages)
    (hknown : Known s.saved p.name) : p.latest ≠ none := by
  obtain ⟨r', hr', p', hp', hname, hlatest⟩ := hknown
  rw [heq, List.mem_append, List.mem_singleton] at hr'
  rcases hr' with hr' | rfl
  · exact hrec earlier r [] heq p hp ⟨r', hr', p', hp', hname, hlatest⟩
  · have hsame : p' = p := (hs.last earlier r' heq).2.1.inj hp' hp hname
    exact hsame ▸ hlatest

/-- A scan keeps what is known exactly when it refetches what it brings back. -/
theorem recalls_scan_iff (hs : s.Inv J tag) (hrec : Recalled s.saved) (i : ImageScan tag) :
    Recalls s.saved (runDriftScan J npmRegistry s.disk i.input).report ↔ refetches J npmRegistry s (.scan i) := by
  rcases List.eq_nil_or_concat s.saved with hnil | ⟨earlier, r, heq⟩
  · have hnone : ∀ name, ¬ Known s.saved name := by
      rintro name ⟨r, hr, -⟩
      simp [hnil] at hr
    exact ⟨fun _ _ q _ _ hk => absurd hk (hnone q.name), fun _ p _ hk => absurd hk (hnone p.name)⟩
  · rw [List.concat_eq_append] at heq
    obtain ⟨hload, hbase⟩ := hs.base heq i
    cases hi : i.input.installed with
    | failed reason detail =>
      have hpkgs := runDriftScan_failed J npmRegistry s.disk hi
      rw [hbase] at hpkgs
      constructor
      · intro _ installed q hok
        rw [hi] at hok
        cases hok
      · intro _ p hp hk
        rw [hpkgs] at hp
        exact hs.latest_of_known hrec heq hp hk
    | ok installed =>
      have hprior : ∀ q p, priorEntry (some r.toObj) q = some p → Known s.saved q → p.latest ≠ none := by
        intro q p hp hk
        obtain ⟨b, hb, hm, hname⟩ := priorEntry_mem hp
        cases hb
        exact hs.latest_of_known hrec heq hm (hname ▸ hk)
      have hpkgs : (runDriftScan J npmRegistry s.disk i.input).report.packages = installed.map (fun q =>
          buildPackageEntry q (registryAnswer (i.input.getLatest npmRegistry) (some r.toObj) q.name)
            (priorEntry (some r.toObj) q.name) i.input.nowIso) := by
        simp only [runDriftScan, scanOutcome, hi, hbase]
      constructor
      · intro h installed' q hok hq hk hdropped
        rw [hi] at hok
        cases hok
        rw [hload] at hdropped
        have hlatest := h _ (hpkgs ▸ List.mem_map_of_mem hq) (by rw [buildPackageEntry_name]; exact hk)
        rw [latest_buildPackageEntry, registryAnswer, hdropped] at hlatest
        simpa using hlatest
      · intro h p hp hk
        rw [hpkgs] at hp
        obtain ⟨q, hq, rfl⟩ := List.mem_map.1 hp
        rw [buildPackageEntry_name] at hk
        rw [latest_buildPackageEntry]
        cases hentry : priorEntry (some r.toObj) q.name with
        | some p => exact .inr ⟨p, rfl, hprior q.name p hentry hk⟩
        | none =>
          refine .inl ?_
          rw [registryAnswer, hentry]
          exact h installed q hi hq hk (by rw [hload]; exact hentry)

theorem recalled_historyStep (hs : s.Inv J tag) (hrec : Recalled s.saved) {t : ScanHistory} {a : HistoryAct tag}
    (h : historyStep J npmRegistry s a = some t) :
    t.Inv J tag ∧ (Recalled t.saved ↔ refetches J npmRegistry s a) := by
  refine ⟨inv_historyStep hs h, ?_⟩
  cases a with
  | restarted =>
    cases h
    exact ⟨fun _ => trivial, fun _ => hrec⟩
  | scan i =>
    cases h
    rw [recalled_concat, recalls_scan_iff hs hrec i]
    exact ⟨fun h => h.2, fun h => ⟨hrec, h⟩⟩

end

theorem saved_extends {J : JsonCodec} {npmRegistry tag : String} : ∀ (acts : List (HistoryAct tag)) (s t : ScanHistory),
    exec (historyStep J npmRegistry) s acts = some t → s.saved <+: t.saved
  | [], s, t, h => by
    cases h
    exact List.prefix_rfl
  | a :: acts, s, t, h => by
    obtain ⟨u, hu, hut⟩ := Steps.exec_cons h
    refine List.IsPrefix.trans ?_ (saved_extends acts u t hut)
    cases a with
    | restarted => cases hu; exact List.prefix_rfl
    | scan i => cases hu; exact List.prefix_append ..

/-- **A known latest version stays known.**  After any scans, over any further ones during which the image tag does not
change: every saved report that lists a package has a latest version for it once an earlier one had, exactly when every
scan refetches what it brings back. -/
theorem latest_recalled_iff (J : JsonCodec) (npmRegistry tag : String) (before : List ScanInput) (s₀ : ScanState)
    (acts : List (HistoryAct tag)) (s : ScanHistory) (hbefore : exec (scanStep J npmRegistry) .init before = some s₀)
    (hrun : exec (historyStep J npmRegistry) ⟨s₀.disk, []⟩ acts = some s) :
    Recalled s.saved ↔ Guarded (historyStep J npmRegistry) (refetches J npmRegistry) ⟨s₀.disk, []⟩ acts := by
  have hsaved : Saved J s₀.disk :=
    Steps.exec_inv' (I := fun s => Saved J s.disk) (fun s i t hs h => saved_scanStep hs h) before .init s₀ (.inl rfl)
      hbefore
  have hinv : ScanHistory.Inv J tag ⟨s₀.disk, []⟩ := ⟨hsaved, fun earlier r h => by simp at h⟩
  rw [Steps.guarded_iff (I := fun s => s.Inv J tag) (P := fun s => Recalled s.saved)
    (fun _ _ _ hI hP h => recalled_historyStep hI hP h) acts _ s hinv recalled_nil hrun]
  constructor
  · rintro h earlier t ⟨rest, rfl⟩ ht
    rw [Steps.exec_append, ht, Option.bind_some] at hrun
    exact h.of_prefix (saved_extends rest t s hrun)
  · intro h
    exact h acts s List.prefix_rfl hrun

theorem historyStep_report {J : JsonCodec} {npmRegistry tag : String} (prior : Option DriftReport) {r : DriftReport}
    {i : ImageScan tag} (hr : scanReport npmRegistry prior i.input = r)
    (h : ∀ r, prior = some r → ∀ p ∈ r.packages, p.name ≠ "") (saved : List DriftReport) :
    historyStep J npmRegistry ⟨prior.map (saveDriftReport J), saved⟩ (.scan i) =
      some ⟨some (saveDriftReport J r), saved ++ [r]⟩ := by
  simp only [historyStep, runDriftScan_report h, hr]

/-- A scan of a container with two tracked packages, of which it may fail to read one, and what the registry gives. -/
def seaScan (unreadable latest : Option String) : ImageScan "signalk-server:2.24.0" where
  input :=
    { nowIso := "2026-07-17T00:00:00.000Z"
      inspect := some ⟨none, some "signalk-server:2.24.0", none⟩
      container := ⟨true, none, fun _ => .absent,
        fun name =>
          if some name = unreadable then .error "unknown: Unexpected error. See logs for details. (Input/output error)"
          else if ["@signalk/server-api", "@signalk/streams"].contains name then .found "2.7.0"
          else .absent⟩
      fetch := fun _ _ =>
        match latest with
        | some version => .response 200 none (.ok (.obj [("version", .str version)]))
        | none => .threw "fetch failed" }
  observed := .inr rfl

def seaEntry (name : String) : DriftPackage :=
  ⟨name, some ⟨"2.7.0", .minor⟩, none, some "2.8.0", none, some "2026-07-17T00:00:00.000Z"⟩

def forgottenEntry : DriftPackage := ⟨"@signalk/server-api", some ⟨"2.7.0", .unknown⟩, none, none, none, none⟩

def seaReport (online : Bool) (packages : List DriftPackage) : DriftReport :=
  ⟨some "signalk-server:2.24.0", "2026-07-17T00:00:00.000Z", some "2026-07-17T00:00:00.000Z", online, none, packages⟩

def portReport : DriftReport := seaReport true [seaEntry "@signalk/server-api", seaEntry "@signalk/streams"]

def partialReport : DriftReport := seaReport false [seaEntry "@signalk/streams"]

def forgottenReport : DriftReport := seaReport false [forgottenEntry, seaEntry "@signalk/streams"]

/-- In port, then two scans offline, the first of which cannot read the package. -/
def seaScans : List (HistoryAct "signalk-server:2.24.0") :=
  [.scan (seaScan none (some "2.8.0")), .scan (seaScan (some "@signalk/server-api") none), .scan (seaScan none none)]

theorem exec_seaScans (J : JsonCodec) : exec (historyStep J "r") ⟨none, []⟩ seaScans =
    some ⟨some (saveDriftReport J forgottenReport), [portReport, partialReport, forgottenReport]⟩ := by
  have hport : historyStep J "r" ⟨none, []⟩ (.scan (seaScan none (some "2.8.0"))) =
      some ⟨some (saveDriftReport J portReport), [portReport]⟩ :=
    historyStep_report none (by decide +kernel) (by simp) []
  have hpartial : historyStep J "r" ⟨some (saveDriftReport J portReport), [portReport]⟩
      (.scan (seaScan (some "@signalk/server-api") none)) =
        some ⟨some (saveDriftReport J partialReport), [portReport, partialReport]⟩ :=
    historyStep_report (some portReport) (by decide +kernel) (by decide +kernel) [portReport]
  have hforgotten : historyStep J "r" ⟨some (saveDriftReport J partialReport), [portReport, partialReport]⟩
      (.scan (seaScan none none)) =
        some ⟨some (saveDriftReport J forgottenReport), [portReport, partialReport, forgottenReport]⟩ :=
    historyStep_report (some partialReport) (by decide +kernel) (by decide +kernel) [portReport, partialReport]
  simp only [seaScans, exec, hport, hpartial, hforgotten, Option.bind_some]

/-- A scan that cannot read a package forgets its latest version. -/
theorem latest_recalled_sea :
    ¬ ∀ (J : JsonCodec) (npmRegistry tag : String) (acts : List (HistoryAct tag)) (s : ScanHistory),
      exec (historyStep J npmRegistry) ⟨none, []⟩ acts = some s → Recalled s.saved := by
  intro h
  have hrec := h jsonText "r" _ seaScans _ (exec_seaScans jsonText)
  have hknown : Known [portReport, partialReport] "@signalk/server-api" :=
    ⟨portReport, List.mem_cons_self .., seaEntry "@signalk/server-api", List.mem_cons_self .., rfl, by decide⟩
  exact hrec [portReport, partialReport] forgottenReport [] rfl forgottenEntry (List.mem_cons_self ..) hknown rfl

/-- `seaScans` after a scan of another image. -/
theorem latest_recalled_iff_sea :
    ∃ s₀ s, exec (scanStep jsonText "r") .init [updateScan (some "signalk-server:2.23.0") true] = some s₀ ∧
      exec (historyStep jsonText "r") ⟨s₀.disk, []⟩ seaScans = some s ∧
        (Recalled s.saved ↔ Guarded (historyStep jsonText "r") (refetches jsonText "r") ⟨s₀.disk, []⟩ seaScans) :=
  ⟨_, _, rfl, rfl,
    latest_recalled_iff jsonText "r" _ [updateScan (some "signalk-server:2.23.0") true] _ seaScans _ rfl rfl⟩

end Drift
end SignalkDoctor
