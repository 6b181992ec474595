import SignalkDoctor.DriftKnowledge
import SignalkDoctor.Heal
/-!
# HealEvidence — what a `range-limited` outcome rests on (`src/drift/heal.ts`, `src/drift/scanner.ts`)

The heal tells what became of its targets from the report it finds after its rescan, and that report looks the same
whether the rescan read the container or carried the packages over.  Scans run one after another here, none between the
heal's rescan and its load of the report (`healRunStep`); each rescan may read all packages, some or none, and may save
its report or not.

`rangeLimited_verified_iff`: over every run, `range-limited` is told of verified targets only, exactly when each rescan
that has not read the container leaves no target standing, still behind, in the report the heal loads.
-/
namespace SignalkDoctor
namespace HealEvidence

open Steps (exec Guarded)
open Exec Heal Drift

def outcomes : HealResult → List HealPackageOutcome
  | .success _ _ _ packages => packages
  | .failure f => f.packages.getD []

def exitCode : HealResult → Option Int
  | .success _ exitCode _ _ => exitCode
  | .failure f => f.exitCode

/-! ## The heal among scans -/

/-- The heal's rescan: the file it started from, what it observed, and whether it saved its report. -/
structure Rescan where
  disk : Option Text
  input : ScanInput
  saved : Bool

/-- `drift.json`, the heal, and for the statements its rescan, none where that threw before it had a report. -/
structure Run where
  disk : Option Text
  heal : HealPc
  rescan : Option Rescan

def Run.init (disk : Option Text) : Run := ⟨disk, .loading, none⟩

inductive RunAct where
  /-- A scan that is not the heal's. -/
  | scan (i : ScanInput)
  /-- `loadReport`, null where the file cannot be read. -/
  | load (readable : Bool)
  | explained (r : Except String (List PackageExplanation))
  | exec (a : ExecAct)
  | rescan (i : ScanInput) (saved : Bool)
  | rescanThrew

/-- The heal waits for its rescan, or for the report of it. -/
def rescans : HealPc → Bool
  | .rescanning _ | .reloading _ => true
  | _ => false

section
variable (J : JsonCodec) (npmRegistry : String) (call : ExecCall)

def Rescan.report (r : Rescan) : DriftReport := (runDriftScan J npmRegistry r.disk r.input).report

def Run.heals (s : Run) (a : HealAct) : Option Run := (healStep call s.heal a).map (fun pc => { s with heal := pc })

/-- `runDataDirHeal` and the scans.  `refreshNow` never rejects: what `runDriftScan` throws is logged. -/
def healRunStep (s : Run) : RunAct → Option Run
  | .scan i =>
    if rescans s.heal then none
    else some { s with disk := some (saveDriftReport J (runDriftScan J npmRegistry s.disk i).report) }
  | .load readable =>
    let report := if readable then loadDriftReport J s.disk else none
    match s.heal with
    | .reloading _ => s.heals call (.reloaded (.ok report))
    | _ => s.heals call (.loaded (.ok report))
  | .explained r => s.heals call (.explained r)
  | .exec a => s.heals call (.exec a)
  | .rescan i saved =>
    let r : Rescan := ⟨s.disk, i, saved⟩
    Run.heals call ⟨if saved then some (saveDriftReport J (r.report J npmRegistry)) else s.disk, s.heal, some r⟩
      (.rescanned (.ok ()))
  | .rescanThrew => Run.heals call { s with rescan := none } (.rescanned (.ok ()))

/-! ## Evidence -/

/-- **The rescan read the data-dir copy of the package from the container, at this version, and found it behind the
latest one.** -/
def Rescan.Finds (r : Rescan) (name version : String) : Prop :=
  (∃ installed, r.input.installed = .ok installed) ∧ r.input.container.dataDir name = .found version ∧
    ∃ p ∈ (r.report J npmRegistry).packages, p.name = name ∧
      ∃ latest, p.latest = some latest ∧ isBehind (classify version latest) = true

/-- **npm exited with code 0, and the rescan found the target where it was, still behind.** -/
def Run.Verified (s : Run) (result : HealResult) (o : HealPackageOutcome) : Prop :=
  exitCode result = some 0 ∧ ∃ r, s.rescan = some r ∧ r.Finds J npmRegistry o.name o.from

/-- **`range-limited` is told of verified targets only**, and a target that has not moved is otherwise `unchanged`. -/
def Run.Sound (s : Run) : Prop :=
  ∀ result, s.heal = .returned result → ∀ o ∈ outcomes result,
    (o.outcome = .rangeLimited → s.Verified J npmRegistry result o) ∧
      (o.to = some o.from → ¬ s.Verified J npmRegistry result o → o.outcome = .unchanged)

/-- The report lists the target's data-dir copy where the heal found it, still behind. -/
def Stands (report : Option ReportObj) (t : HealTarget) : Prop :=
  ∃ p l, findPackage report t.name = some p ∧ p.dataDir = some l ∧ l.installed = t.from ∧
    isBehind l.classification = true

/-- What the heal is about to load: the rescan read the container and saved its report, or the report there, carried
over or left alone, has no target standing; of a rescan that read the container but could not save, none that the
report it could not save does not have. -/
def Run.Current (s : Run) (targets : List HealTarget) : Prop :=
  match s.rescan with
  | none => ∀ t ∈ targets, ¬ Stands (loadDriftReport J s.disk) t
  | some r =>
    match r.input.installed with
    | .failed .. => ∀ t ∈ targets, ¬ Stands (loadDriftReport J s.disk) t
    | .ok _ =>
      r.saved = true ∨
        ∀ t ∈ targets, Stands (loadDriftReport J s.disk) t → Stands (some (r.report J npmRegistry).toObj) t

/-- **The report is current where it decides**: when the heal can load it after an exit with code 0. -/
def readsBack (s : Run) : RunAct → Prop
  | .load true => ∀ c, s.heal = .reloading c → c.completed = true → s.Current J npmRegistry c.targets
  | _ => True

end

/-! ## The outcome of one target -/

theorem outcomeFor_rangeLimited_iff {t : HealTarget} {after : Option ReportObj} {npmSucceeded : Bool}
    {explanation : Option PackageExplanation} :
    (outcomeFor t after npmSucceeded explanation).outcome = .rangeLimited ↔ npmSucceeded = true ∧ Stands after t := by
  unfold outcomeFor Stands
  simp only
  split
  · rename_i hfind
    simp [hfind]
  · rename_i pkg hfind
    split
    · rename_i hdir
      simp [hfind, hdir]
    · rename_i l hdir
      split
      · rename_i hmoved
        simp [hfind, hdir, hmoved]
      · rename_i hsame
        rw [ne_eq, Decidable.not_not] at hsame
        cases npmSucceeded <;> cases hb : isBehind l.classification <;> simp [hfind, hdir, hsame, hb]

theorem outcomeFor_not_updated {t : HealTarget} {after : Option ReportObj} {npmSucceeded : Bool}
    {explanation : Option PackageExplanation}
    (h : (outcomeFor t after npmSucceeded explanation).to = some t.from) :
    (outcomeFor t after npmSucceeded explanation).outcome ≠ .updated := by
  unfold outcomeFor at h ⊢
  simp only at h ⊢
  split at h
  · simp
  · split at h
    · cases h
    · split at h
      · rename_i hmoved
        exact absurd (Option.some.inj h) hmoved
      · rename_i l _ hsame
        simp only [hsame, ↓reduceIte]
        split <;> simp

theorem outcomes_afterReload (c : HealCtx) (after : Option ReportObj) :
    outcomes (afterReload c after) = c.outcomes after c.completed := by
  unfold afterReload HealCtx.completed
  cases c.result with
  | failure f => rfl
  | success exitCode output _ =>
    by_cases h : exitCode = 0
    · simp [h, outcomes]
    · simp [h, beq_eq_false_iff_ne.2 h, outcomes]

theorem exitCode_afterReload {c : HealCtx} (after : Option ReportObj) (h : c.completed = true) :
    exitCode (afterReload c after) = some 0 := by
  unfold HealCtx.completed at h
  unfold afterReload
  cases hres : c.result with
  | failure f => simp [hres] at h
  | success exitCode output _ =>
    have hzero : exitCode = 0 := by simpa [hres] using h
    simp [hzero, HealEvidence.exitCode]

/-! ## What the rescan's own report tells -/

theorem version?_eq_some {r : ReadOne} {v : String} (h : r.version? = some v) : r = .found v := by
  cases r <;> simp_all [ReadOne.version?]

theorem behind_of_classifyLocation {installed latest : Option String} {l : DriftLocation}
    (h : classifyLocation installed latest = some l) (hbehind : isBehind l.classification = true) :
    installed = some l.installed ∧ ∃ v, latest = some v ∧ isBehind (classify l.installed v) = true := by
  obtain ⟨v, rfl, rfl⟩ := Option.map_eq_some_iff.1 h
  cases latest with
  | none => cases hbehind
  | some latest =>
    refine ⟨rfl, latest, rfl, ?_⟩
    rw [← hbehind]

variable {J : JsonCodec} {npmRegistry : String} {call : ExecCall}

/-- A rescan that read the container found a target exactly when it stands in the report of it. -/
theorem stands_report_iff {r : Rescan} {installed : List InstalledPackage} (hi : r.input.installed = .ok installed)
    (t : HealTarget) :
    Stands (some (r.report J npmRegistry).toObj) t ↔ r.Finds J npmRegistry t.name t.from := by
  have hentry : ∀ p ∈ (r.report J npmRegistry).packages,
      p.dataDir = classifyLocation (r.input.container.dataDir p.name).version? p.latest := by
    intro p hp
    rcases runDriftScan_packages hp with ⟨installed', q, hi', hq, rfl⟩ | ⟨⟨reason, detail, hi'⟩, -⟩
    · rw [buildPackageEntry_name, (buildPackageEntry_locations ..).2, ← (readInstalledPackages_mem hi' hq).2.2.2.1]
    · rw [hi] at hi'
      cases hi'
  constructor
  · rintro ⟨p, l, hfind, hdir, hfrom, hbehind⟩
    have hp : p ∈ (r.report J npmRegistry).packages := List.mem_of_find?_eq_some hfind
    have hname : p.name = t.name := by simpa using List.find?_some hfind
    obtain ⟨hver, latest, hlatest, hlate⟩ := behind_of_classifyLocation ((hentry p hp).symm.trans hdir) hbehind
    rw [hname, hfrom] at hver
    exact ⟨⟨installed, hi⟩, version?_eq_some hver, p, hp, hname, latest, hlatest, hfrom ▸ hlate⟩
  · rintro ⟨-, hfound, p, hp, hname, latest, hlatest, hlate⟩
    have hdir := hentry p hp
    rw [hname, hfound, hlatest] at hdir
    simp only [ReadOne.version?, classifyLocation, Option.map_some] at hdir
    refine ⟨p, ⟨t.from, classify t.from latest⟩, ?_, hdir, rfl, ?_⟩
    · rw [← hname]
      exact (named_of_read hi).find? hp
    · simp only [hlate]

/-! ## The step -/

/-- A rescan that saved its report left it in the file. -/
def Run.Inv (J : JsonCodec) (npmRegistry : String) (s : Run) : Prop :=
  ∀ c r, s.heal = .reloading c → s.rescan = some r → r.saved = true →
    s.disk = some (saveDriftReport J (r.report J npmRegistry))

theorem current_iff {s : Run} (hs : s.Inv J npmRegistry) {c : HealCtx} (hpc : s.heal = .reloading c) :
    s.Current J npmRegistry c.targets ↔ ∀ t ∈ c.targets, Stands (loadDriftReport J s.disk) t →
      ∃ r, s.rescan = some r ∧ r.Finds J npmRegistry t.name t.from := by
  unfold Run.Current
  cases hr : s.rescan with
  | none => simp
  | some r =>
    cases hi : r.input.installed with
    | failed reason detail =>
      have hnone : ∀ t : HealTarget, ¬ r.Finds J npmRegistry t.name t.from := by
        rintro t ⟨⟨installed, hok⟩, -⟩
        rw [hi] at hok
        cases hok
      simp [hi, hnone]
    | ok installed =>
      simp only [hi, Option.some.injEq, exists_eq_left', stands_report_iff hi]
      constructor
      · rintro (hsaved | hall)
        · have hload : loadDriftReport J s.disk = some (r.report J npmRegistry).toObj := by
            rw [hs c r hpc hr hsaved]
            exact loadDriftReport_save J _ (named_of_read hi).ne_empty
          intro t _ hstands
          rw [hload, stands_report_iff hi] at hstands
          exact hstands
        · exact hall
      · exact .inr

/-- The heal has no outcomes, and is not about to have any. -/
def silent : HealPc → Bool
  | .reloading _ => false
  | .returned r => (outcomes r).isEmpty
  | _ => true

theorem silent_afterRejection (c : HealCtx) (msg : String) : silent (afterRejection c msg) = true := by
  unfold afterRejection
  split <;> rfl

/-- **The heal's outcomes are those of the report it loads after its rescan.** -/
theorem healStep_silent {pc pc' : HealPc} {a : HealAct} (h : healStep call pc a = some pc') :
    silent pc' = true ∨ (∃ c, pc = .rescanning c ∧ a = .rescanned (.ok ()) ∧ pc' = .reloading c) ∨
      ∃ c after, pc = .reloading c ∧ a = .reloaded (.ok after) ∧ pc' = .returned (afterReload c after) := by
  cases pc with
  | loading =>
    cases a with
    | loaded r =>
      simp only [healStep] at h
      split at h
      · cases h; exact .inl rfl
      · cases h; exact .inl rfl
      · split at h <;> cases h <;> exact .inl rfl
    | _ => simp [healStep] at h
  | explaining targets =>
    cases a with
    | explained r => cases r <;> cases h <;> exact .inl rfl
    | _ => simp [healStep] at h
  | executing targets explanations cmd epc =>
    cases a with
    | exec b =>
      simp only [healStep] at h
      split at h
      · cases h
      · rename_i result hexec
        simp only [Option.some.injEq] at h
        subst h
        unfold afterExec
        split
        · split <;> exact .inl rfl
        · exact .inl rfl
      · cases h
        exact .inl rfl
    | _ => simp [healStep] at h
  | rescanning c =>
    cases a with
    | rescanned r =>
      cases r with
      | error msg => cases h; exact .inl (silent_afterRejection c msg)
      | ok u => cases h; exact .inr (.inl ⟨c, rfl, rfl, rfl⟩)
    | _ => simp [healStep] at h
  | reloading c =>
    cases a with
    | reloaded r =>
      cases r with
      | error msg => cases h; exact .inl (silent_afterRejection c msg)
      | ok after => cases h; exact .inr (.inr ⟨c, after, rfl, rfl, rfl⟩)
    | _ => simp [healStep] at h
  | returned r => cases a <;> simp [healStep] at h
  | rejected msg => cases a <;> simp [healStep] at h

theorem inv_of_silent {s : Run} (h : silent s.heal = true) : s.Inv J npmRegistry ∧ s.Sound J npmRegistry := by
  constructor
  · intro c r hpc
    rw [hpc] at h
    cases h
  · intro result hret o ho
    rw [hret] at h
    rw [List.isEmpty_iff.1 h] at ho
    cases ho

/-- A call of the heal that is neither its rescan nor its load after that leaves it silent. -/
theorem heals_silent {s t : Run} {a : HealAct} (h : s.heals call a = some t) (hscan : ∀ r, a ≠ .rescanned r)
    (hload : ∀ r, a ≠ .reloaded r) : silent t.heal = true := by
  obtain ⟨pc, hpc, rfl⟩ := Option.map_eq_some_iff.1 h
  rcases healStep_silent hpc with hs | ⟨c, -, rfl, -⟩ | ⟨c, after, -, rfl, -⟩
  · exact hs
  · exact absurd rfl (hscan _)
  · exact absurd rfl (hload _)

theorem sound_returned_iff (s : Run) (c : HealCtx) (after : Option ReportObj) :
    Run.Sound J npmRegistry { s with heal := .returned (afterReload c after) } ↔
      (c.completed = true → ∀ t ∈ c.targets, Stands after t →
        ∃ r, s.rescan = some r ∧ r.Finds J npmRegistry t.name t.from) := by
  constructor
  · intro h hc t ht hstands
    have hmem : outcomeFor t after c.completed (explanationOf c.explanations t.name) ∈
        outcomes (afterReload c after) := by
      rw [outcomes_afterReload]
      exact List.mem_map_of_mem ht
    obtain ⟨hname, hfrom⟩ := outcomeFor_name t after c.completed (explanationOf c.explanations t.name)
    have hverified := (h _ rfl _ hmem).1 (outcomeFor_rangeLimited_iff.2 ⟨hc, hstands⟩)
    rw [Run.Verified, hname, hfrom] at hverified
    exact hverified.2
  · intro h result hret o ho
    cases hret
    rw [outcomes_afterReload] at ho
    obtain ⟨t, ht, rfl⟩ := List.mem_map.1 ho
    obtain ⟨hname, hfrom⟩ := outcomeFor_name t after c.completed (explanationOf c.explanations t.name)
    rw [Run.Verified, hname, hfrom]
    have hlimited : (outcomeFor t after c.completed (explanationOf c.explanations t.name)).outcome = .rangeLimited →
        exitCode (afterReload c after) = some 0 ∧ ∃ r, s.rescan = some r ∧ r.Finds J npmRegistry t.name t.from := by
      intro hout
      obtain ⟨hc, hstands⟩ := outcomeFor_rangeLimited_iff.1 hout
      exact ⟨exitCode_afterReload after hc, h hc t ht hstands⟩
    refine ⟨hlimited, fun hto hnot => ?_⟩
    cases hout : (outcomeFor t after c.completed (explanationOf c.explanations t.name)).outcome with
    | updated => exact absurd hout (outcomeFor_not_updated hto)
    | rangeLimited => exact absurd (hlimited hout) hnot
    | unchanged => rfl

/-- **The outcomes are sound exactly when the report they are told from is current where it decides.** -/
theorem sound_reload_iff {s : Run} (hs : s.Inv J npmRegistry) {c : HealCtx} (hpc : s.heal = .reloading c)
    (readable : Bool) :
    Run.Sound J npmRegistry { s with
        heal := .returned (afterReload c (if readable then loadDriftReport J s.disk else none)) } ↔
      readsBack J npmRegistry s (.load readable) := by
  rw [sound_returned_iff]
  cases readable with
  | false =>
    refine ⟨fun _ => trivial, fun _ _ t _ hstands => ?_⟩
    obtain ⟨p, l, hfind, -⟩ := hstands
    cases hfind
  | true =>
    simp only [↓reduceIte, ← current_iff hs hpc]
    constructor
    · intro h c' hpc' hc
      rw [hpc] at hpc'
      cases hpc'
      exact h hc
    · exact fun h hc => h c hpc hc

theorem healRunStep_sound {s t : Run} {a : RunAct} (hs : s.Inv J npmRegistry) (hsound : s.Sound J npmRegistry)
    (h : healRunStep J npmRegistry call s a = some t) :
    t.Inv J npmRegistry ∧ (t.Sound J npmRegistry ↔ readsBack J npmRegistry s a) := by
  cases a with
  | scan i =>
    simp only [healRunStep] at h
    split at h
    · cases h
    · rename_i hno
      cases h
      refine ⟨fun c r hpc => ?_, fun _ => trivial, fun _ => hsound⟩
      simp only at hpc
      simp [rescans, hpc] at hno
  | load readable =>
    simp only [healRunStep] at h
    split at h
    · rename_i c hpc
      rw [Run.heals, hpc] at h
      cases h
      refine ⟨fun c' r hc' => ?_, sound_reload_iff hs hpc readable⟩
      cases hc'
    · rename_i hne
      have hquiet := heals_silent h (fun _ h => by cases h) (fun _ h => by cases h)
      refine ⟨(inv_of_silent hquiet).1, fun _ => ?_, fun _ => (inv_of_silent hquiet).2⟩
      cases readable with
      | false => trivial
      | true => exact fun c hpc => absurd hpc (hne c)
  | explained r =>
    have hquiet := heals_silent h (fun _ h => by cases h) (fun _ h => by cases h)
    exact ⟨(inv_of_silent hquiet).1, fun _ => trivial, fun _ => (inv_of_silent hquiet).2⟩
  | exec b =>
    have hquiet := heals_silent h (fun _ h => by cases h) (fun _ h => by cases h)
    exact ⟨(inv_of_silent hquiet).1, fun _ => trivial, fun _ => (inv_of_silent hquiet).2⟩
  | rescan i saved =>
    obtain ⟨pc, hpc, rfl⟩ := Option.map_eq_some_iff.1 h
    rcases healStep_silent hpc with hquiet | ⟨c, -, -, rfl⟩ | ⟨c, after, -, hact, -⟩
    · exact ⟨(inv_of_silent hquiet).1, fun _ => trivial, fun _ => (inv_of_silent hquiet).2⟩
    · refine ⟨fun c' r hc' hr hsaved => ?_, fun _ => trivial, fun _ result hret => ?_⟩
      · cases hr
        simp only at hsaved
        simp only [hsaved, ↓reduceIte]
      · cases hret
    · cases hact
  | rescanThrew =>
    obtain ⟨pc, hpc, rfl⟩ := Option.map_eq_some_iff.1 h
    rcases healStep_silent hpc with hquiet | ⟨c, -, -, rfl⟩ | ⟨c, after, -, hact, -⟩
    · exact ⟨(inv_of_silent hquiet).1, fun _ => trivial, fun _ => (inv_of_silent hquiet).2⟩
    · refine ⟨fun c' r hc' hr => ?_, fun _ => trivial, fun _ result hret => ?_⟩
      · cases hr
      · cases hret
    · cases hact

/-- **`range-limited` is evidence of a read exactly when the report it is told from is.**  From any stored report, with
scans before the heal's own and any rescan: in every state of the run the outcomes are sound, exactly when each load of
the report after a rescan that follows an exit with code 0 finds it current. -/
theorem rangeLimited_verified_iff (J : JsonCodec) (npmRegistry : String) (call : ExecCall) (disk : Option Text)
    (acts : List RunAct) (s : Run) (hrun : exec (healRunStep J npmRegistry call) (.init disk) acts = some s) :
    (∀ earlier t, earlier <+: acts → exec (healRunStep J npmRegistry call) (.init disk) earlier = some t →
        t.Sound J npmRegistry) ↔
      Guarded (healRunStep J npmRegistry call) (readsBack J npmRegistry) (.init disk) acts := by
  have hinit : Run.Inv J npmRegistry (.init disk) ∧ Run.Sound J npmRegistry (.init disk) := inv_of_silent rfl
  exact (Steps.guarded_iff (I := fun s => s.Inv J npmRegistry) (P := fun s => s.Sound J npmRegistry)
    (fun _ _ _ hI hP h => healRunStep_sound hI hP h) acts _ s hinit.1 hinit.2 hrun).symm

/-- A scan of a container that restarts. -/
def restartScan : ScanInput where
  nowIso := "2026-07-17T00:05:00.000Z"
  inspect := some ⟨none, some "signalk-server:2.24.0", none⟩
  container := ⟨true,
    some ⟨.unknown, "Unexpected error. See logs for details.", "can only create exec sessions on running containers"⟩,
    fun _ => .absent, fun _ => .absent⟩
  fetch := fun _ _ => .threw "fetch failed"

def behindReport : DriftReport where
  signalkImageTag := some "signalk-server:2.24.0"
  lastScannedAt := "2026-07-17T00:00:00.000Z"
  lastSuccessfulScanAt := some "2026-07-17T00:00:00.000Z"
  online := true
  lastFetchError := none
  packages :=
    [⟨"@signalk/server-api", none, some ⟨"2.3.0", .minor⟩, some "2.4.0", none, some "2026-07-17T00:00:00.000Z"⟩]

/-- What the scan of the unreachable container leaves. -/
def carriedReport : DriftReport :=
  { behindReport with
    lastScannedAt := "2026-07-17T00:05:00.000Z"
    online := false
    lastFetchError := some ⟨.runtime,
      "unknown: cannot reach signalk-server (Unexpected error. See logs for details.) " ++
        "(can only create exec sessions on running containers)"⟩ }

def npmRun : List RunAct :=
  [.load true, .explained (.ok []), .exec (.resolved true), .exec (.created (.ok ())), .exec (.started (.ok ())),
    .exec (.finished .ended), .exec (.inspected (.ok ⟨some false, some 0⟩) false ⟨"changed 1 package", ""⟩)]

def npmCtx : HealCtx := ⟨[⟨"@signalk/server-api", "2.3.0", some "2.4.0"⟩], [], .success 0 "changed 1 package" none⟩

theorem exec_npmRun (J : JsonCodec) : exec (healRunStep J "r" ⟨600000, 60000, false⟩)
    (.init (some (saveDriftReport J behindReport))) npmRun =
      some ⟨some (saveDriftReport J behindReport), .rescanning npmCtx, none⟩ := by
  have hload : loadDriftReport J (some (saveDriftReport J behindReport)) = some behindReport.toObj :=
    loadDriftReport_save J behindReport (by decide +kernel)
  have hfirst : healRunStep J "r" ⟨600000, 60000, false⟩ (.init (some (saveDriftReport J behindReport))) (.load true) =
      some ⟨some (saveDriftReport J behindReport), .explaining npmCtx.targets, none⟩ := by
    simp only [healRunStep, Run.init, Run.heals, ↓reduceIte, hload]
    rfl
  rw [npmRun, exec, hfirst, Option.bind_some]
  rfl

def healActs : List RunAct := npmRun ++ [.rescan restartScan true, .load true]

def stalledOutcome : HealPackageOutcome :=
  ⟨"@signalk/server-api", "2.3.0", some "2.3.0", some "2.4.0", .rangeLimited, none, none, none⟩

def stalledResult : HealResult := .success npmCtx.targets (some 0) "changed 1 package" [stalledOutcome]

theorem exec_healActs (J : JsonCodec) : exec (healRunStep J "r" ⟨600000, 60000, false⟩)
    (.init (some (saveDriftReport J behindReport))) healActs =
      some ⟨some (saveDriftReport J carriedReport), .returned stalledResult,
        some ⟨some (saveDriftReport J behindReport), restartScan, true⟩⟩ := by
  have hreport : (runDriftScan J "r" (some (saveDriftReport J behindReport)) restartScan).report = carriedReport := by
    have hscan : scanReport "r" (some behindReport) restartScan = carriedReport := by decide +kernel
    rw [← hscan]
    exact @runDriftScan_report J "r" (some behindReport) (by decide +kernel) _
  have hload : loadDriftReport J (some (saveDriftReport J carriedReport)) = some carriedReport.toObj :=
    loadDriftReport_save J carriedReport (by decide +kernel)
  have hrescan : healRunStep J "r" ⟨600000, 60000, false⟩
      ⟨some (saveDriftReport J behindReport), .rescanning npmCtx, none⟩ (.rescan restartScan true) =
        some ⟨some (saveDriftReport J carriedReport), .reloading npmCtx,
          some ⟨some (saveDriftReport J behindReport), restartScan, true⟩⟩ := by
    simp only [healRunStep, Rescan.report, hreport, ↓reduceIte]
    rfl
  have hreturn : healRunStep J "r" ⟨600000, 60000, false⟩
      ⟨some (saveDriftReport J carriedReport), .reloading npmCtx,
        some ⟨some (saveDriftReport J behindReport), restartScan, true⟩⟩ (.load true) =
      some ⟨some (saveDriftReport J carriedReport), .returned stalledResult,
        some ⟨some (saveDriftReport J behindReport), restartScan, true⟩⟩ := by
    have hresult : afterReload npmCtx (some carriedReport.toObj) = stalledResult := by decide +kernel
    simp only [healRunStep, Run.heals, healStep, ↓reduceIte, hload, hresult, Option.map_some]
  rw [healActs, Steps.exec_append, exec_npmRun, Option.bind_some]
  simp only [exec, hrescan, hreturn, Option.bind_some]

/-- The container cannot be reached for the rescan: a target npm has moved is reported as range-limited. -/
theorem rangeLimited_unread :
    ¬ ∀ (J : JsonCodec) (npmRegistry : String) (call : ExecCall) (disk : Option Text) (acts : List RunAct) (s : Run),
      exec (healRunStep J npmRegistry call) (.init disk) acts = some s → s.Sound J npmRegistry := by
  intro h
  have hsound := h jsonText "r" _ _ healActs _ (exec_healActs jsonText)
  obtain ⟨-, r, hr, ⟨installed, hread⟩, -⟩ := (hsound _ rfl stalledOutcome (List.mem_singleton.2 rfl)).1 rfl
  cases hr
  obtain ⟨reason, detail, hfailed⟩ : ∃ reason detail, restartScan.installed = .failed reason detail := ⟨_, _, rfl⟩
  rw [hfailed] at hread
  cases hread

theorem rangeLimited_verified_restart :
    ∃ s, exec (healRunStep jsonText "r" ⟨600000, 60000, false⟩) (.init (some (saveDriftReport jsonText behindReport)))
        healActs = some s ∧
      ((∀ earlier t, earlier <+: healActs →
          exec (healRunStep jsonText "r" ⟨600000, 60000, false⟩) (.init (some (saveDriftReport jsonText behindReport)))
            earlier = some t → t.Sound jsonText "r") ↔
        Guarded (healRunStep jsonText "r" ⟨600000, 60000, false⟩) (readsBack jsonText "r")
          (.init (some (saveDriftReport jsonText behindReport))) healActs) :=
  ⟨_, exec_healActs jsonText, rangeLimited_verified_iff jsonText "r" _ _ healActs _ (exec_healActs jsonText)⟩

end HealEvidence
end SignalkDoctor
