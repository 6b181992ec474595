import Mathlib.Logic.Function.Basic
import SignalkDoctor.Heal
import SignalkDoctor.Scanner
/-!
# HealRescan — the rescan of a heal over the scheduler (`src/drift/scheduler.ts`, `src/drift/heal.ts`)

Scans asked for by the timer, by `POST /api/drift/refresh` and by one heal, all through `refreshNow`, which joins a scan
already in flight.  A scan reads the installed versions one package after another, long before it saves its report; the
heal's outcomes are those of the report it finds after its rescan (`sysStep`).  Every lookup of the container succeeds.

Each data-dir lookup carries, for the statements only, whether npm had exited when it was made.  `heal_outcomes_fresh`:
the outcomes rest on lookups made after npm's exit in every run in which the rescan joins no scan that has already
looked a target up, and nothing else keeps a target out of the report the heal loads (`rescanSound`).
-/
namespace SignalkDoctor
namespace HealRescan

open Steps (exec Guarded exec_inv)
open Exec Heal Drift
open Function (update)

/-- A successful lookup of a package in the data dir, `none` when it is absent. -/
structure DataDirRead where
  version : Option String
  /-- npm had exited. -/
  afterExit : Bool
  deriving DecidableEq, Repr

/-- The lookups an entry of a report stems from, by package. -/
abbrev Reads := String → Option DataDirRead

/-- Where `runDriftScan` stands. -/
inductive ScanPc where
  | loading
  | inspecting (prior : Option ReportObj)
  | reading (prior : Option ReportObj) (tag : Option String) (left : List String)
  | saving (report : DriftReport)

structure Scan where
  nowIso : String
  pc : ScanPc
  reads : Reads

/-- **The state**: the data dir of the container and npm in it, the stored report as `loadDriftReport` gives it
(`loadDriftReport_save`), the scan in flight and the heal. -/
structure Sys where
  dataDir : String → Option String
  npm : Proc
  disk : Option ReportObj
  /-- The lookups the stored report stems from. -/
  source : Reads
  inflight : Option Scan
  heal : HealPc
  /-- The scan the heal's `refreshNow` started or joined has not ended. -/
  waits : Bool
  /-- The lookups the heal's outcomes stem from. -/
  rests : Reads

def Sys.init (dataDir : String → Option String) (disk : Option ReportObj) : Sys :=
  ⟨dataDir, .notStarted, disk, fun _ => none, none, .loading, false, fun _ => none⟩

inductive ScanAct where
  | loaded (readable : Bool)
  | inspected (info : Option InspectInfo)
  | looked
  | fetched (getLatest : String → Option String → NpmRegistryResult)
  | saved (replaced : Bool)

inductive SysAct where
  /-- A tick of the timer or `POST /api/drift/refresh`. -/
  | refresh (nowIso : String)
  | scan (a : ScanAct)
  | heal (a : HealAct) (nowIso : String)
  | npmStart
  | npmMove (name : String) (version : Option String)
  | npmExit

/-- `DriftScheduler.refreshNow`: a scan in flight is joined. -/
def Sys.refreshNow (w : Sys) (nowIso : String) : Sys :=
  match w.inflight with
  | some _ => w
  | none => { w with inflight := some ⟨nowIso, .loading, fun _ => none⟩ }

/-- The scan is over, and with it whoever waits for it: `this.inflight = null`. -/
def Sys.ended (w : Sys) : Sys := { w with inflight := none, waits := false }

def lookup : Option String → ReadOne
  | some v => .found v
  | none => .absent

/-- What the container gave the scan, the image's copies being `image`. -/
def Scan.container (image : String → Option String) (s : Scan) : ContainerReads :=
  ⟨true, none, fun name => lookup ((s.reads name).bind (·.version)), fun name => lookup (image name)⟩

section
variable (image : String → Option String) (call : ExecCall)

/-- `runDriftScan`, from one await to the next. -/
def Sys.scanAwait (w : Sys) (s : Scan) : ScanAct → Option Sys
  | .loaded readable =>
    match s.pc with
    | .loading => some { w with inflight := some { s with pc := .inspecting (if readable then w.disk else none) } }
    | _ => none
  | .inspected info =>
    match s.pc with
    | .inspecting prior =>
      some { w with inflight := some { s with pc := .reading prior (readRunningSignalkImage info) trackedPackages } }
    | _ => none
  | .looked =>
    match s.pc with
    | .reading prior tag (name :: left) =>
      some { w with inflight := some { s with
        pc := .reading prior tag left
        reads := update s.reads name (some ⟨w.dataDir name, w.npm == .exited⟩) } }
    | _ => none
  | .fetched getLatest =>
    match s.pc with
    | .reading prior tag [] =>
      let outcome := scanOutcome s.nowIso prior tag (readInstalledPackages (s.container image)) getLatest
      some { w with inflight := some { s with pc := .saving outcome.report } }
    | _ => none
  -- `runOnce` catches a save that fails
  | .saved replaced =>
    match s.pc with
    | .saving report =>
      if replaced then some { w.ended with disk := some report.toObj, source := s.reads } else some w.ended
    | _ => none

/-- What the heal's awaited calls can give: the stored report or, when the file cannot be read, none; a rescan that has
ended and never rejects; an exec API that calls a running process running and has code 0 of an exited one only. -/
def Sys.gives (w : Sys) : HealAct → Bool
  | .loaded (.ok r) | .reloaded (.ok r) => r == w.disk || r == none
  | .loaded (.error _) | .reloaded (.error _) | .rescanned (.error _) => false
  | .rescanned (.ok _) => !w.waits
  | .explained _ => true
  | .exec a =>
    inspectTruthful w.npm a &&
      (match a with
        | .inspected (.ok info) _ _ => info.Running == some true || info.ExitCode != some 0 || w.npm == .exited
        | _ => true)

def sysStep (w : Sys) : SysAct → Option Sys
  | .refresh nowIso => some (w.refreshNow nowIso)
  | .scan a =>
    match w.inflight with
    | none => none
    | some s => w.scanAwait image s a
  | .heal a nowIso =>
    if w.gives a then
      match healStep call w.heal a with
      | none => none
      | some (.rescanning c) => some (Sys.refreshNow { w with heal := .rescanning c, waits := true } nowIso)
      | some pc =>
        some { w with heal := pc, rests := match a with | .reloaded (.ok (some _)) => w.source | _ => w.rests }
    else none
  | .npmStart => if w.heal.starting ∧ w.npm = .notStarted then some { w with npm := .running } else none
  | .npmMove name version =>
    if w.npm = .running then some { w with dataDir := update w.dataDir name version } else none
  | .npmExit => if w.npm = .running then some { w with npm := .exited } else none

/-- **The outcomes rest on lookups made after npm exited**: where the heal has returned them, each has as `to` the
version of such a lookup, and a target npm has moved off the version the heal found is `updated`. -/
def Sys.Sound (w : Sys) : Prop :=
  ∀ targets exitCode output packages, w.heal = .returned (.success targets exitCode output packages) → ∀ o ∈ packages,
    (∃ r, w.rests o.name = some r ∧ r.afterExit = true ∧ o.to = r.version) ∧
      (w.dataDir o.name ≠ some o.from → o.outcome = .updated)

/-- What the rescan finds of a target when it is asked for: the next report will list it, and no scan in flight has
looked it up before npm exited. -/
def Sys.Unread (w : Sys) (name : String) : Prop :=
  name ∈ trackedPackages ∧ (w.dataDir name ≠ none ∨ image name ≠ none) ∧
    ∀ s ∈ w.inflight, ∀ r ∈ s.reads name, r.afterExit = true

/-- **The rescan is sound**: when the heal asks for it after an exit with code 0, that is what it finds of every target;
the scan it waits for saves its report; and the heal can read it. -/
def rescanSound (w : Sys) : SysAct → Prop
  | .heal (.reloaded (.ok after)) _ =>
    match w.heal with
    | .reloading c => c.completed = true → after = w.disk
    | _ => True
  | .heal a _ =>
    match healStep call w.heal a with
    | some (.rescanning c) => c.completed = true → ∀ t ∈ c.targets, w.Unread image t.name
    | _ => True
  | .scan (.saved false) =>
    match w.heal with
    | .rescanning c => c.completed = true → w.waits = false
    | _ => True
  | _ => True

instance (w : Sys) (name : String) : Decidable (w.Unread image name) := by
  unfold Sys.Unread
  infer_instance

instance (w : Sys) (a : SysAct) : Decidable (rescanSound image call w a) := by
  unfold rescanSound
  split <;> (try split) <;> infer_instance

/-! ## The invariant -/

/-- Each tracked package looked up and found somewhere is in the report, its data-dir version the one looked up. -/
def Listed (reads : Reads) (packages : List DriftPackage) : Prop :=
  ∀ name ∈ trackedPackages, ∀ r, reads name = some r → (r.version ≠ none ∨ image name ≠ none) →
    ∃ p, packages.find? (fun p => p.name == name) = some p ∧ p.dataDir.map (·.installed) = r.version

/-- A lookup made after the exit is what the data dir holds since. -/
def Sys.Current (w : Sys) (reads : Reads) : Prop :=
  ∀ name r, reads name = some r → r.afterExit = true → w.npm = .exited ∧ r.version = w.dataDir name

/-- A scan looks every tracked package up before it has its report, which lists what it found. -/
def Scan.Ok (s : Scan) : Prop :=
  match s.pc with
  | .loading | .inspecting _ => True
  | .reading _ _ left => ∀ name ∈ trackedPackages, name ∈ left ∨ (s.reads name).isSome = true
  | .saving report =>
    (∀ name ∈ trackedPackages, (s.reads name).isSome = true) ∧ Listed image s.reads report.packages

/-- The stored report stems, for these targets, from lookups made after npm exited. -/
def Sys.Saved (w : Sys) (targets : List HealTarget) : Prop :=
  ∃ o, w.disk = some o ∧ ∀ t ∈ targets, ∃ r, w.source t.name = some r ∧ r.afterExit = true

/-- A completed heal that has asked for its rescan: what it rests on is read after the exit, and stored once it no
longer waits. -/
def Sys.Due (w : Sys) (c : HealCtx) (waits : Bool) : Prop :=
  c.completed = true → w.npm = .exited ∧ (∀ t ∈ c.targets, w.Unread image t.name) ∧ (waits = false → w.Saved c.targets)

def Sys.SoundOutcome (w : Sys) (o : HealPackageOutcome) : Prop :=
  (∃ r, w.rests o.name = some r ∧ r.afterExit = true ∧ o.to = r.version) ∧
    (w.dataDir o.name ≠ some o.from → o.outcome = .updated)

def Sys.HealOk (w : Sys) : HealPc → Prop
  | .rescanning c => w.Due image c w.waits
  | .reloading c => w.Due image c false
  | .returned (.success _ _ _ packages) => packages = [] ∨ w.npm = .exited ∧ ∀ o ∈ packages, w.SoundOutcome o
  | _ => True

structure Sys.Inv (w : Sys) : Prop where
  source : w.Current w.source
  reads : ∀ s, w.inflight = some s → w.Current s.reads ∧ s.Ok image
  disk : ∀ o, w.disk = some o → Listed image w.source o.packages
  heal : w.HealOk image w.heal

variable {image call}

theorem Sys.inv_init (dataDir : String → Option String) (disk : Option ReportObj) :
    (Sys.init dataDir disk).Inv image where
  source := fun name r h => by cases h
  reads := fun s h => by cases h
  disk := fun o _ name _ r h => by cases h
  heal := trivial

theorem Sys.HealOk.sound {w : Sys} (h : w.HealOk image w.heal) : w.Sound := by
  intro targets exitCode output packages hret o ho
  rw [hret] at h
  rcases h with hnil | ⟨-, hall⟩
  · rw [hnil] at ho
    cases ho
  · exact hall o ho

theorem Sys.HealOk.of_withoutOutcomes {w : Sys} {pc : HealPc} (h : pc.withoutOutcomes = true) : w.HealOk image pc := by
  cases pc with
  | rescanning c => cases h
  | reloading c => cases h
  | returned r =>
    cases r with
    | success targets exitCode output packages => exact .inl (List.isEmpty_iff.1 h)
    | failure f => trivial
  | _ => trivial

/-! ## The scans -/

theorem lookup_not_error (v : Option String) (d : String) : lookup v ≠ .error d := by
  cases v <;> simp [lookup]

theorem lookup_version? (v : Option String) : (lookup v).version? = v := by
  cases v <;> rfl

theorem lookup_ne_absent {v : Option String} (h : v ≠ none) : lookup v ≠ .absent := by
  obtain ⟨s, rfl⟩ := Option.ne_none_iff_exists'.1 h
  simp [lookup]

theorem classifyLocation_installed (v latest : Option String) : (classifyLocation v latest).map (·.installed) = v := by
  cases v <;> rfl

/-- **The report of a scan that has looked every tracked package up lists what it found.** -/
theorem scanOutcome_listed {s : Scan} {prior : Option ReportObj} {tag : Option String}
    {getLatest : String → Option String → NpmRegistryResult} :
    Listed image s.reads
      (scanOutcome s.nowIso prior tag (readInstalledPackages (s.container image)) getLatest).report.packages := by
  intro name hname r hr hfound
  rw [readInstalledPackages_of_noError (c := s.container image) rfl rfl (fun n => lookup_not_error _)
    (fun n => lookup_not_error _)]
  have hentry : installedEntry (s.container image) name = some ⟨name, image name, r.version⟩ := by
    have hne : (s.container image).dataDir name ≠ .absent ∨ (s.container image).image name ≠ .absent := by
      simp only [Scan.container, hr, Option.bind_some]
      exact hfound.imp lookup_ne_absent lookup_ne_absent
    rw [installedEntry, if_pos hne]
    simp [Scan.container, hr, lookup_version?]
  let build := fun p : InstalledPackage => buildPackageEntry p
    (registryAnswer getLatest (baseReport prior tag) p.name) (priorEntry (baseReport prior tag) p.name) s.nowIso
  refine ⟨build ⟨name, image name, r.version⟩, ?_, ?_⟩
  · have hnames : (fun p : DriftPackage => p.name == name) ∘ build = fun p : InstalledPackage => p.name == name :=
      funext (fun p => by simp [build, buildPackageEntry_name])
    have hfind := find?_filterMap_name (fun n p => installedEntry_name) hentry trackedPackages hname
    simp only [scanOutcome]
    rw [show (fun i => buildPackageEntry i _ _ _) = build from rfl, List.find?_map, hnames, hfind]
    rfl
  · rw [(buildPackageEntry_locations _ _ _ _).2]
    exact classifyLocation_installed _ _

/-- The state before npm has exited: no lookup was made after it, and no completed heal rescans. -/
theorem Sys.Inv.setNpm {w : Sys} (hw : w.Inv image) (hnpm : w.npm ≠ .exited) (npm : Proc)
    (dataDir : String → Option String) : Sys.Inv image { w with npm := npm, dataDir := dataDir } where
  source := fun name r h hr => absurd (hw.source name r h hr).1 hnpm
  reads := fun s hs => ⟨fun name r h hr => absurd ((hw.reads s hs).1 name r h hr).1 hnpm, (hw.reads s hs).2⟩
  disk := hw.disk
  heal := by
    have h := hw.heal
    revert h
    show w.HealOk image w.heal → Sys.HealOk image { w with npm := npm, dataDir := dataDir } w.heal
    cases w.heal with
    | rescanning c => exact fun h hc => absurd (h hc).1 hnpm
    | reloading c => exact fun h hc => absurd (h hc).1 hnpm
    | returned r =>
      cases r with
      | success targets exitCode output packages => exact fun h => .inl (h.resolve_right (fun hs => hnpm hs.1))
      | failure f => exact fun _ => trivial
    | _ => exact fun _ => trivial

/-- A change that leaves the data dir and npm alone keeps what a heal rests on, if each of its targets stays unread
before the exit and the stored report stays as good. -/
theorem Sys.HealOk.mono {w w' : Sys} {pc : HealPc} (h : w.HealOk image pc) (hnpm : w'.npm = w.npm)
    (hdir : w'.dataDir = w.dataDir) (hrests : w'.rests = w.rests)
    (hunread : ∀ name, w.npm = .exited → w.Unread image name → w'.Unread image name)
    (hsaved : ∀ targets, (∀ t ∈ targets, w.Unread image t.name) → w.Saved targets → w'.Saved targets)
    (hwaits : ∀ c, pc = .rescanning c → c.completed = true → w'.waits = false →
      (∀ t ∈ c.targets, w.Unread image t.name) → w.waits = false ∨ w'.Saved c.targets) :
    w'.HealOk image pc := by
  cases pc with
  | rescanning c =>
    intro hc
    obtain ⟨hexit, htargets, hdisk⟩ := h hc
    refine ⟨hnpm ▸ hexit, fun t ht => hunread _ hexit (htargets t ht), fun hno => ?_⟩
    rcases hwaits c rfl hc hno htargets with hwas | hnow
    · exact hsaved _ htargets (hdisk hwas)
    · exact hnow
  | reloading c =>
    intro hc
    obtain ⟨hexit, htargets, hdisk⟩ := h hc
    exact ⟨hnpm ▸ hexit, fun t ht => hunread _ hexit (htargets t ht), fun _ => hsaved _ htargets (hdisk rfl)⟩
  | returned r =>
    cases r with
    | success targets exitCode output packages =>
      refine h.imp id (fun hs => ⟨hnpm ▸ hs.1, fun o ho => ?_⟩)
      have := hs.2 o ho
      rwa [Sys.SoundOutcome, ← hrests, ← hdir] at this
    | failure f => trivial
  | _ => trivial

/-- A move of the scan in flight that makes no lookup before the exit. -/
theorem Sys.Inv.setScan {w : Sys} (hw : w.Inv image) {s s' : Scan} (hs : w.inflight = some s)
    (hcur : w.Current s'.reads) (hok : s'.Ok image)
    (hafter : ∀ name r, w.npm = .exited → s'.reads name = some r → s.reads name = some r ∨ r.afterExit = true) :
    Sys.Inv image { w with inflight := some s' } where
  source := hw.source
  reads := fun t ht => by cases ht; exact ⟨hcur, hok⟩
  disk := hw.disk
  heal := by
    refine hw.heal.mono rfl rfl rfl (fun name hexit hun => ⟨hun.1, hun.2.1, fun t ht r hr => ?_⟩) (fun _ _ h => h)
      (fun c hpc hc hno _ => .inl hno)
    cases ht
    exact (hafter name r hexit hr).elim (hun.2.2 s hs r) id

theorem Sys.Unread.ended {w w' : Sys} {name : String} (h : w.Unread image name) (hdir : w'.dataDir = w.dataDir)
    (hnone : w'.inflight = none) : w'.Unread image name := by
  refine ⟨h.1, hdir ▸ h.2.1, fun s hs => ?_⟩
  rw [hnone] at hs
  cases hs

theorem Sys.Inv.ended {w : Sys} (hw : w.Inv image)
    (hsave : ∀ c, w.heal = .rescanning c → c.completed = true → w.waits = false) : w.ended.Inv image where
  source := hw.source
  reads := fun t ht => by cases ht
  disk := hw.disk
  heal := hw.heal.mono rfl rfl rfl (fun _ _ hun => hun.ended rfl rfl) (fun _ _ h => h)
    (fun c hc hdone _ _ => .inl (hsave c hc hdone))

/-- The end of a scan that stored its report: what a completed heal waits for. -/
theorem Sys.Inv.saved {w : Sys} (hw : w.Inv image) {s : Scan} (hs : w.inflight = some s) {report : DriftReport}
    (hpc : s.pc = .saving report) :
    Sys.Inv image { w.ended with disk := some report.toObj, source := s.reads } := by
  obtain ⟨hcur, hok⟩ := hw.reads s hs
  rw [Scan.Ok, hpc] at hok
  have hsaved : ∀ targets : List HealTarget, (∀ t ∈ targets, w.Unread image t.name) →
      Sys.Saved { w.ended with disk := some report.toObj, source := s.reads } targets := by
    refine fun targets htargets => ⟨report.toObj, rfl, fun t ht => ?_⟩
    obtain ⟨htracked, -, hafter⟩ := htargets t ht
    obtain ⟨r, hr⟩ := Option.isSome_iff_exists.1 (hok.1 t.name htracked)
    exact ⟨r, hr, hafter s hs r hr⟩
  constructor
  · exact hcur
  · intro t ht
    cases ht
  · intro o ho
    cases ho
    exact hok.2
  · exact hw.heal.mono rfl rfl rfl (fun _ _ hun => hun.ended rfl rfl) (fun targets htargets _ => hsaved targets htargets)
      (fun c _ _ _ htargets => .inr (hsaved c.targets htargets))

theorem Sys.Inv.refreshNow {w : Sys} (hw : w.Inv image) (nowIso : String) : (w.refreshNow nowIso).Inv image := by
  unfold Sys.refreshNow
  split
  · exact hw
  · constructor
    · exact hw.source
    · intro s hs
      cases hs
      exact ⟨(fun name r h => by cases h), trivial⟩
    · exact hw.disk
    · refine hw.heal.mono rfl rfl rfl (fun name _ hun => ⟨hun.1, hun.2.1, fun s hs r hr => ?_⟩) (fun _ _ h => h)
        (fun c _ _ hno _ => .inl hno)
      cases hs
      cases hr

theorem update_eq_some {reads : Reads} {name n : String} {x r : DataDirRead}
    (h : update reads name (some x) n = some r) : (n = name ∧ r = x) ∨ reads n = some r := by
  by_cases hne : n = name
  · subst hne
    rw [Function.update_self, Option.some.injEq] at h
    exact .inl ⟨rfl, h.symm⟩
  · rw [Function.update_of_ne hne] at h
    exact .inr h

/-- **A scan keeps the invariant**, if the one a completed heal waits for saves its report. -/
theorem Sys.Inv.scanAwait {w w' : Sys} (hw : w.Inv image) {s : Scan} {a : ScanAct} (hs : w.inflight = some s)
    (hsave : rescanSound image call w (.scan a)) (h : w.scanAwait image s a = some w') : w'.Inv image := by
  obtain ⟨hcur, hok⟩ := hw.reads s hs
  cases a with
  | loaded readable =>
    simp only [Sys.scanAwait] at h
    split at h
    · cases h
      exact hw.setScan hs hcur trivial (fun _ _ _ hr => .inl hr)
    · cases h
  | inspected info =>
    simp only [Sys.scanAwait] at h
    split at h
    · cases h
      exact hw.setScan hs hcur (fun name hname => .inl hname) (fun _ _ _ hr => .inl hr)
    · cases h
  | looked =>
    simp only [Sys.scanAwait] at h
    split at h
    · rename_i prior tag name left hpc
      cases h
      rw [Scan.Ok, hpc] at hok
      refine hw.setScan hs (fun n r hr hafter => ?_) (fun n hn => ?_) (fun n r hexit hr => ?_)
      · rcases update_eq_some hr with ⟨rfl, rfl⟩ | hr
        · exact ⟨by simpa using hafter, rfl⟩
        · exact hcur n r hr hafter
      · by_cases hne : n = name
        · subst hne
          exact .inr (by simp)
        · refine (hok n hn).imp (fun hmem => (List.mem_cons.1 hmem).resolve_left hne) (fun hsome => ?_)
          simpa only [Function.update_of_ne hne] using hsome
      · rcases update_eq_some hr with ⟨rfl, rfl⟩ | hr
        · exact .inr (by simpa using hexit)
        · exact .inl hr
    · cases h
  | fetched getLatest =>
    simp only [Sys.scanAwait] at h
    split at h
    · rename_i prior tag hpc
      cases h
      rw [Scan.Ok, hpc] at hok
      refine hw.setScan hs hcur ⟨fun name hname => ?_, scanOutcome_listed⟩ (fun _ _ _ hr => .inl hr)
      exact (hok name hname).resolve_left (by simp)
    · cases h
  | saved replaced =>
    simp only [Sys.scanAwait] at h
    split at h
    · rename_i report hpc
      split at h
      · cases h
        exact hw.saved hs hpc
      · rename_i hr
        cases h
        rw [Bool.not_eq_true] at hr
        subst hr
        exact hw.ended (fun c hc => by simpa only [rescanSound, hc] using hsave)
    · cases h

/-! ## The heal -/

theorem Sys.exited_of_completed {w : Sys} {epc : ExecPc} {b : ExecAct} {c : HealCtx}
    (hgives : w.gives (.exec b) = true) (hexec : execStep call epc b = some (.done c.result)) (hc : c.completed = true) :
    w.npm = .exited := by
  unfold HealCtx.completed at hc
  split at hc
  · rename_i exitCode output stderr hres
    rw [hres] at hexec
    obtain ⟨info, deadlinePassed, collected, rfl, hrun, hcode⟩ := execStep_success hexec
    simp only [beq_iff_eq] at hc
    have hzero : info.ExitCode = some 0 := by
      rw [hc] at hcode
      cases he : info.ExitCode with
      | none => simp [he] at hcode
      | some n => simpa [he] using hcode
    simp only [Sys.gives, hzero, Bool.and_eq_true] at hgives
    simpa [hrun] using hgives.2
  · cases hc

/-- **An outcome of the stored report**, for a target that is listed in it with a lookup made after the exit. -/
theorem outcomeFor_sound {w : Sys} {o : ReportObj} {t : HealTarget} {r : DataDirRead} (npmSucceeded : Bool)
    (explanation : Option PackageExplanation) (hun : w.Unread image t.name) (hlisted : Listed image w.source o.packages)
    (hr : w.source t.name = some r) (hver : r.version = w.dataDir t.name) :
    (outcomeFor t (some o) npmSucceeded explanation).to = r.version ∧
      (w.dataDir t.name ≠ some t.from → (outcomeFor t (some o) npmSucceeded explanation).outcome = .updated) := by
  obtain ⟨htracked, hpresent, -⟩ := hun
  obtain ⟨p, hp, hdir⟩ := hlisted t.name htracked r hr (hver ▸ hpresent)
  have hfind : findPackage (some o) t.name = some p := hp
  cases hd : p.dataDir with
  | none =>
    rw [hd] at hdir
    simp only [outcomeFor, hfind, hd]
    exact ⟨hdir, fun _ => trivial⟩
  | some l =>
    rw [hd] at hdir
    simp only [outcomeFor, hfind, hd]
    split
    · exact ⟨hdir, fun _ => rfl⟩
    · rename_i hsame
      rw [ne_eq, Decidable.not_not] at hsame
      refine ⟨hdir, fun hmoved => absurd ?_ hmoved⟩
      rw [← hver, ← hsame]
      exact hdir.symm

/-- What is returned is that of a completed heal only if it is a success. -/
theorem afterReload_success {c : HealCtx} {after : Option ReportObj} {targets : List HealTarget} {exitCode : Option Int}
    {output : String} {packages : List HealPackageOutcome}
    (h : afterReload c after = .success targets exitCode output packages) :
    c.completed = true ∧ packages = c.outcomes after true := by
  unfold afterReload at h
  split at h
  · cases h
  · rename_i code out stderr hres
    split at h
    · cases h
    · rename_i hzero
      simp only [ne_eq, Decidable.not_not] at hzero
      cases h
      simp [HealCtx.completed, hres, hzero]

/-- **A move of the heal keeps the invariant**, if its rescan is sound. -/
theorem Sys.Inv.healMove {w w' : Sys} (hw : w.Inv image) {a : HealAct} {nowIso : String}
    (hg : rescanSound image call w (.heal a nowIso)) (h : sysStep image call w (.heal a nowIso) = some w') :
    w'.Inv image := by
  simp only [sysStep] at h
  split at h
  rotate_left
  · cases h
  rename_i hgives
  split at h
  · cases h
  · rename_i c hstep
    cases h
    have hmoved : Sys.Inv image { w with heal := .rescanning c, waits := true } := by
      refine ⟨hw.source, hw.reads, hw.disk, fun hc => ?_⟩
      rcases healStep_cases hstep with hnone | ⟨c', explanations, cmd, epc, b, -, rfl, hexec, hpc⟩ |
        ⟨c', u, -, -, hpc⟩ | ⟨c', after, -, -, hpc⟩
      · cases hnone
      · cases hpc
        have hunread : c.completed = true → ∀ t ∈ c.targets, w.Unread image t.name := by
          simpa only [rescanSound, hstep] using hg
        exact ⟨Sys.exited_of_completed hgives hexec hc, hunread hc, fun hno => by cases hno⟩
      · cases hpc
      · cases hpc
    exact hmoved.refreshNow nowIso
  · rename_i pc hne hstep
    cases h
    refine ⟨hw.source, hw.reads, hw.disk, ?_⟩
    rcases healStep_cases hstep with hnone | ⟨c, explanations, cmd, epc, b, -, rfl, hexec, rfl⟩ |
      ⟨c, u, hpc, rfl, rfl⟩ | ⟨c, after, hpc, rfl, rfl⟩
    · exact Sys.HealOk.of_withoutOutcomes hnone
    · exact absurd rfl (hne c)
    · have hdue := hw.heal
      rw [hpc] at hdue
      intro hc
      obtain ⟨hexit, htargets, hsaved⟩ := hdue hc
      exact ⟨hexit, htargets, fun _ => hsaved (by simpa [Sys.gives] using hgives)⟩
    · have hdue := hw.heal
      rw [hpc] at hdue
      have hafter : c.completed = true → after = w.disk := by simpa only [rescanSound, hpc] using hg
      cases hret : afterReload c after with
      | failure f => trivial
      | success targets exitCode output packages =>
        obtain ⟨hc, rfl⟩ := afterReload_success hret
        obtain ⟨hexit, htargets, hsaved⟩ := hdue hc
        obtain ⟨o, ho, hsource⟩ := hsaved rfl
        obtain rfl : after = some o := (hafter hc).trans ho
        refine .inr ⟨hexit, fun out hout => ?_⟩
        obtain ⟨t, ht, rfl⟩ := List.mem_map.1 hout
        obtain ⟨r, hr, hfresh⟩ := hsource t ht
        have hver := (hw.source t.name r hr hfresh).2
        obtain ⟨hto, hupdated⟩ := outcomeFor_sound true (explanationOf c.explanations t.name) (htargets t ht)
          (hw.disk o ho) hr hver
        obtain ⟨hname, hfrom⟩ := outcomeFor_name t (some o) true (explanationOf c.explanations t.name)
        refine ⟨⟨r, ?_, hfresh, hto⟩, ?_⟩
        · rw [hname]
          exact hr
        · rw [hname, hfrom]
          exact hupdated

/-- **Every step keeps the invariant**, if the rescan is sound. -/
theorem sysStep_inv (w : Sys) (a : SysAct) (w' : Sys) (hw : w.Inv image) (hg : rescanSound image call w a)
    (h : sysStep image call w a = some w') : w'.Inv image := by
  cases a with
  | refresh nowIso =>
    cases h
    exact hw.refreshNow nowIso
  | scan a =>
    simp only [sysStep] at h
    split at h
    · cases h
    · rename_i s hs
      exact hw.scanAwait hs hg h
  | heal a nowIso => exact hw.healMove hg h
  | npmStart =>
    simp only [sysStep] at h
    split at h
    · rename_i hstart
      cases h
      exact hw.setNpm (by simp [hstart.2]) .running w.dataDir
    · cases h
  | npmMove name version =>
    simp only [sysStep] at h
    split at h
    · rename_i hrun
      cases h
      exact hw.setNpm (by simp [hrun]) w.npm _
    · cases h
  | npmExit =>
    simp only [sysStep] at h
    split at h
    · rename_i hrun
      cases h
      exact hw.setNpm (by simp [hrun]) .exited w.dataDir
    · cases h

/-- **The outcomes of a heal rest on what npm left.**  Over every interleaving of scans, refresh requests and one heal,
from any data dir and any stored report: while the heal's rescan is sound, a returned outcome has as `to` the version of
a lookup made after npm exited, and a target npm has moved is `updated`. -/
theorem heal_outcomes_fresh (image : String → Option String) (call : ExecCall) (dataDir : String → Option String)
    (disk : Option ReportObj) (as : List SysAct) (w : Sys)
    (hrun : exec (sysStep image call) (Sys.init dataDir disk) as = some w)
    (hsound : Guarded (sysStep image call) (rescanSound image call) (Sys.init dataDir disk) as) : w.Sound :=
  (exec_inv sysStep_inv as _ w (Sys.inv_init dataDir disk) hsound hrun).heal.sound

end

/-! ## A scan that straddles npm's exit -/

def serverApi : String := "@signalk/server-api"

def behind (name : String) : Option String := if name = serverApi then some "2.3.0" else none

/-- What a scan with the registry offline stores. -/
def scannedDisk (nowIso : String) (location : DriftLocation) : ReportObj :=
  ⟨.json (.str "signalk-server:2.24.0"), .json (.str nowIso), .json .null, .json (.bool false), none,
    [⟨serverApi, some ⟨"2.3.0", .minor⟩, some location, some "2.4.0", none, none⟩]⟩

def behindDisk : ReportObj := scannedDisk "2026-07-17T00:00:00.000Z" ⟨"2.3.0", .minor⟩

def healToNpm : List SysAct :=
  [.heal (.loaded (.ok (some behindDisk))) "", .heal (.explained (.ok [])) "", .heal (.exec (.resolved true)) "",
    .heal (.exec (.created (.ok ()))) "", .npmStart, .heal (.exec (.started (.ok ()))) ""]

/-- A scan up to its answers from the registry, which is offline. -/
def scanReads : List SysAct :=
  [.scan (.loaded true), .scan (.inspected (some ⟨none, some "signalk-server:2.24.0", none⟩))] ++
    List.replicate 8 (.scan .looked)

def scanSaves : List SysAct := [.scan (.fetched (fun _ _ => .offline "ENOTFOUND")), .scan (.saved true)]

/-- npm moves the package and exits with code 0, which the heal sees. -/
def npmDone : List SysAct :=
  [.npmMove serverApi (some "2.4.0"), .npmExit, .heal (.exec (.finished .ended)) "",
    .heal (.exec (.inspected (.ok ⟨some false, some 0⟩) false ⟨"changed 1 package", ""⟩)) "2026-07-17T00:05:00.000Z"]

def healReturns (report : Option ReportObj) : List SysAct :=
  [.heal (.rescanned (.ok ())) "", .heal (.reloaded (.ok report)) ""]

/-- A scheduled scan looks the package up while npm still runs and saves after it has exited; the heal joins it. -/
def straddlingScan : List SysAct :=
  healToNpm ++ .refresh "2026-07-17T00:04:00.000Z" :: scanReads ++ npmDone ++ scanSaves ++
    healReturns (some (scannedDisk "2026-07-17T00:04:00.000Z" ⟨"2.3.0", .minor⟩))

/-- The joined scan answers with the version before npm: the moved package is reported as range-limited. -/
theorem heal_outcomes_straddlingScan :
    ∃ w, exec (sysStep behind ⟨600000, 60000, false⟩) (Sys.init behind (some behindDisk)) straddlingScan = some w ∧
      ¬ w.Sound := by
  have hend : (exec (sysStep behind ⟨600000, 60000, false⟩) (Sys.init behind (some behindDisk)) straddlingScan).map
      (fun w => (w.heal, w.dataDir serverApi)) =
        some (.returned (.success [⟨serverApi, "2.3.0", some "2.4.0"⟩] (some 0) "changed 1 package"
          [⟨serverApi, "2.3.0", some "2.3.0", some "2.4.0", .rangeLimited, none, none, none⟩]), some "2.4.0") := by
    decide +kernel
  obtain ⟨w, hw, heq⟩ := Option.map_eq_some_iff.1 hend
  simp only [Prod.mk.injEq] at heq
  refine ⟨w, hw, fun hsound => ?_⟩
  have hout := hsound _ _ _ _ heq.1 _ (List.mem_singleton.2 rfl)
  have hmoved := hout.2 (by rw [heq.2]; decide)
  cases hmoved

/-- The scheduled scan ends before npm does, and the heal starts one of its own. -/
def ownScan : List SysAct :=
  healToNpm ++ .refresh "2026-07-17T00:04:00.000Z" :: scanReads ++ scanSaves ++ npmDone ++ scanReads ++ scanSaves ++
    healReturns (some (scannedDisk "2026-07-17T00:05:00.000Z" ⟨"2.4.0", .upToDate⟩))

theorem heal_outcomes_ownScan :
    ∃ w, exec (sysStep behind ⟨600000, 60000, false⟩) (Sys.init behind (some behindDisk)) ownScan = some w ∧
      w.heal = .returned (.success [⟨serverApi, "2.3.0", some "2.4.0"⟩] (some 0) "changed 1 package"
        [⟨serverApi, "2.3.0", some "2.4.0", some "2.4.0", .updated, none, none, none⟩]) ∧ w.Sound := by
  have hend : (exec (sysStep behind ⟨600000, 60000, false⟩) (Sys.init behind (some behindDisk)) ownScan).map
      (fun w => w.heal) =
        some (.returned (.success [⟨serverApi, "2.3.0", some "2.4.0"⟩] (some 0) "changed 1 package"
          [⟨serverApi, "2.3.0", some "2.4.0", some "2.4.0", .updated, none, none, none⟩])) := by
    decide +kernel
  obtain ⟨w, hw, hret⟩ := Option.map_eq_some_iff.1 hend
  exact ⟨w, hw, hret, heal_outcomes_fresh behind _ behind (some behindDisk) ownScan w hw (by decide +kernel)⟩

end HealRescan
end SignalkDoctor
