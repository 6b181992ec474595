import SignalkDoctor.DriftStore
import SignalkDoctor.Exec
/-!
# Heal — the data-dir heal (`src/drift/heal.ts`)

`runDataDirHeal` loads the report, asks npm who depends on the drifting packages, runs `npm update` for them, rescans
and compares.  It is a machine from one await to the next (`healStep`); while npm runs, its state is that of the exec
call.  Of the results the clock readings are left out.

`healStep_stopped` is what the lock over the heal rests on: no exit of the machine forgets that npm may be running.
-/
namespace SignalkDoctor
namespace Heal

open Drift
open Exec

structure PackageDependent where
  name : String
  version : Option String
  spec : String
  deriving DecidableEq, Repr

structure PackageExplanation where
  name : String
  version : Option String
  dependents : List PackageDependent
  extraneous : Bool
  heldByEmbeddedServer : Bool
  deriving DecidableEq, Repr

/-- One data-dir copy the heal tries to move. -/
structure HealTarget where
  name : String
  «from» : String
  latest : Option String
  deriving DecidableEq, Repr

inductive Outcome where
  | updated | rangeLimited | unchanged
  deriving DecidableEq, Repr

structure HealPackageOutcome where
  name : String
  «from» : String
  «to» : Option String
  latest : Option String
  outcome : Outcome
  heldBy : Option (List PackageDependent)
  heldByEmbeddedServer : Option Bool
  wasExtraneous : Option Bool
  deriving DecidableEq, Repr

inductive HealFailureReason where
  | noReport | exec | npm
  deriving DecidableEq, Repr

structure HealFailure where
  reason : HealFailureReason
  detail : String
  exitCode : Option Int
  outputTail : Option String
  packages : Option (List HealPackageOutcome)
  lockRetained : Option Bool
  deriving DecidableEq, Repr

inductive HealResult where
  | success (targets : List HealTarget) (exitCode : Option Int) (outputTail : String) (packages : List HealPackageOutcome)
  | failure (f : HealFailure)
  deriving DecidableEq, Repr

def isBehind : DriftClassification → Bool
  | .patch | .minor | .major => true
  | _ => false

def selectHealTargets (packages : List DriftPackage) : List HealTarget :=
  packages.filterMap (fun p =>
    match p.dataDir with
    | some l => if isBehind l.classification then some ⟨p.name, l.installed, p.latest⟩ else none
    | none => none)

def findPackage (report : Option ReportObj) (name : String) : Option DriftPackage :=
  report.bind (fun r => r.packages.find? (fun p => p.name == name))

def outcomeFor (target : HealTarget) (after : Option ReportObj) (npmSucceeded : Bool)
    (explanation : Option PackageExplanation) : HealPackageOutcome :=
  let held := explanation.bind (fun e => if e.dependents.length > 0 then some e else none)
  let heldBy := held.map (·.dependents)
  let heldByEmbeddedServer := held.bind (fun e => if e.heldByEmbeddedServer then some true else none)
  let wasExtraneous := explanation.bind (fun e => if e.extraneous then some true else none)
  match findPackage after target.name with
  -- no post-state for the package: absence of data is not absence of the copy
  | none => ⟨target.name, target.from, some target.from, target.latest, .unchanged, heldBy, heldByEmbeddedServer, wasExtraneous⟩
  | some pkg =>
    let latest := pkg.latest.or target.latest
    match pkg.dataDir with
    | none => ⟨target.name, target.from, none, latest, .updated, none, none, wasExtraneous⟩
    | some l =>
      if l.installed ≠ target.from then
        ⟨target.name, target.from, some l.installed, latest, .updated, none, none, wasExtraneous⟩
      else
        ⟨target.name, target.from, some l.installed, latest,
          if npmSucceeded && isBehind l.classification then .rangeLimited else .unchanged, heldBy, heldByEmbeddedServer,
          wasExtraneous⟩

/-- `explanations.get(name)`: of two with one name the later. -/
def explanationOf (explanations : List PackageExplanation) (name : String) : Option PackageExplanation :=
  explanations.reverse.find? (fun e => e.name == name)

def updateCommand (targets : List HealTarget) : List String :=
  ["npm", "update", "--no-audit", "--no-fund", "--loglevel", "warn"] ++ targets.map (·.name)

/-- What the heal has in hand once npm's exec is over. -/
structure HealCtx where
  targets : List HealTarget
  explanations : List PackageExplanation
  result : ExecResult
  deriving DecidableEq, Repr

def HealCtx.outcomes (c : HealCtx) (after : Option ReportObj) (npmSucceeded : Bool) : List HealPackageOutcome :=
  c.targets.map (fun t => outcomeFor t after npmSucceeded (explanationOf c.explanations t.name))

/-- The failure of an exec that may have begun to mutate the tree. -/
def execFailed (f : ExecFailure) (packages : Option (List HealPackageOutcome)) : HealResult :=
  .failure ⟨.exec, f.reason.text ++ ": " ++ f.detail, none, none, packages, some (decide (f.stillRunning = some true))⟩

/-- Where `runDataDirHeal` stands. -/
inductive HealPc where
  | loading
  | explaining (targets : List HealTarget)
  | executing (targets : List HealTarget) (explanations : List PackageExplanation) (cmd : List String) (exec : ExecPc)
  | rescanning (c : HealCtx)
  | reloading (c : HealCtx)
  | returned (r : HealResult)
  | rejected (msg : String)
  deriving DecidableEq

/-- After npm's exec: nothing has run when the runtime was unreachable, else the tree is rescanned. -/
def afterExec (targets : List HealTarget) (explanations : List PackageExplanation) (result : ExecResult) : HealPc :=
  match result with
  | .failure f =>
    if f.reason = .unreachable then
      .returned (.failure ⟨.exec, f.reason.text ++ ": " ++ f.detail, none, none, none, none⟩)
    else .rescanning ⟨targets, explanations, result⟩
  | .success .. => .rescanning ⟨targets, explanations, result⟩

def afterReload (c : HealCtx) (after : Option ReportObj) : HealResult :=
  match c.result with
  | .failure f => execFailed f (some (c.outcomes after false))
  | .success exitCode output _ =>
    let packages := c.outcomes after (decide (exitCode = 0))
    if exitCode ≠ 0 then
      .failure ⟨.npm, "npm update exited with code " ++ toString exitCode, some exitCode, some output, some packages, none⟩
    else .success c.targets (some exitCode) output packages

/-- A rescan or reload that rejects: the failure of the exec is still returned, without outcomes; after a completed
exec the rejection escapes. -/
def afterRejection (c : HealCtx) (msg : String) : HealPc :=
  match c.result with
  | .failure f => .returned (execFailed f none)
  | .success .. => .rejected msg

/-- What the awaited call gives; an `explainPackages` that fails gives no explanations. -/
inductive HealAct where
  | loaded (r : Except String (Option ReportObj))
  | explained (r : Except String (List PackageExplanation))
  | exec (a : ExecAct)
  | rescanned (r : Except String Unit)
  | reloaded (r : Except String (Option ReportObj))

/-- **`runDataDirHeal`**, from one await to the next. -/
def healStep (call : ExecCall) : HealPc → HealAct → Option HealPc
  | .loading, .loaded r =>
    match r with
    | .error msg => some (.rejected msg)
    | .ok none =>
      some (.returned (.failure ⟨.noReport, "no drift report yet — run a scan from the Drift tab first", none, none, none, none⟩))
    | .ok (some report) =>
      let targets := selectHealTargets report.packages
      if targets = [] then some (.returned (.success targets none "" []))
      else some (.explaining targets)
  | .explaining targets, .explained r =>
    match r with
    | .error msg => some (.rejected msg)
    | .ok explanations => some (.executing targets explanations (updateCommand targets) .resolving)
  | .executing targets explanations cmd pc, .exec a =>
    match execStep call pc a with
    | none => none
    | some (.done result) => some (afterExec targets explanations result)
    | some pc' => some (.executing targets explanations cmd pc')
  | .rescanning c, .rescanned r =>
    match r with
    | .error msg => some (afterRejection c msg)
    | .ok _ => some (.reloading c)
  | .reloading c, .reloaded r =>
    match r with
    | .error msg => some (afterRejection c msg)
    | .ok after => some (.returned (afterReload c after))
  | _, _ => none

/-! ## The rescan -/

def HealCtx.completed (c : HealCtx) : Bool :=
  match c.result with
  | .success exitCode _ _ => exitCode == 0
  | .failure _ => false

/-- The heal has no outcomes of a completed update and rescans for none. -/
def HealPc.withoutOutcomes : HealPc → Bool
  | .rescanning _ | .reloading _ => false
  | .returned (.success _ _ _ packages) => packages.isEmpty
  | _ => true

theorem afterRejection_withoutOutcomes (c : HealCtx) (msg : String) : (afterRejection c msg).withoutOutcomes = true := by
  unfold afterRejection
  split <;> rfl

theorem outcomeFor_name (t : HealTarget) (after : Option ReportObj) (npmSucceeded : Bool)
    (explanation : Option PackageExplanation) :
    (outcomeFor t after npmSucceeded explanation).name = t.name ∧
      (outcomeFor t after npmSucceeded explanation).from = t.from := by
  unfold outcomeFor
  simp only
  split
  · exact ⟨rfl, rfl⟩
  · split
    · exact ⟨rfl, rfl⟩
    · split <;> exact ⟨rfl, rfl⟩

/-- **What leads to the outcomes**: the rescan is asked for when the exec is over, the report is loaded when the rescan
is, and the outcomes are those of the loaded report. -/
theorem healStep_cases {call : ExecCall} {pc pc' : HealPc} {a : HealAct} (h : healStep call pc a = some pc') :
    pc'.withoutOutcomes = true ∨
      (∃ c explanations cmd epc b, pc = .executing c.targets explanations cmd epc ∧ a = .exec b ∧
        execStep call epc b = some (.done c.result) ∧ pc' = .rescanning c) ∨
      (∃ c u, pc = .rescanning c ∧ a = .rescanned (.ok u) ∧ pc' = .reloading c) ∨
      ∃ c after, pc = .reloading c ∧ a = .reloaded (.ok after) ∧ pc' = .returned (afterReload c after) := by
  cases pc with
  | executing targets explanations cmd epc =>
    cases a with
    | exec b =>
      simp only [healStep] at h
      split at h
      · cases h
      · rename_i result hexec
        simp only [Option.some.injEq] at h
        subst h
        unfold afterExec
        split
        · split
          · exact .inl rfl
          · exact .inr (.inl ⟨⟨targets, explanations, _⟩, explanations, cmd, epc, b, rfl, rfl, hexec, rfl⟩)
        · exact .inr (.inl ⟨⟨targets, explanations, _⟩, explanations, cmd, epc, b, rfl, rfl, hexec, rfl⟩)
      · cases h
        exact .inl rfl
    | _ => simp [healStep] at h
  | rescanning c =>
    cases a with
    | rescanned r =>
      cases r with
      | error msg => cases h; exact .inl (afterRejection_withoutOutcomes c msg)
      | ok u => cases h; exact .inr (.inr (.inl ⟨c, u, rfl, rfl, rfl⟩))
    | _ => simp [healStep] at h
  | reloading c =>
    cases a with
    | reloaded r =>
      cases r with
      | error msg => cases h; exact .inl (afterRejection_withoutOutcomes c msg)
      | ok after => cases h; exact .inr (.inr (.inr ⟨c, after, rfl, rfl, rfl⟩))
    | _ => simp [healStep] at h
  | loading =>
    cases a with
    | loaded r =>
      simp only [healStep] at h
      split at h
      · cases h; exact .inl rfl
      · cases h; exact .inl rfl
      · split at h <;> cases h <;> exact .inl rfl
    | _ => simp [healStep] at h
  | explaining targets =>
    cases a with
    | explained r => cases r <;> cases h <;> exact .inl rfl
    | _ => simp [healStep] at h
  | returned r => cases a <;> simp [healStep] at h
  | rejected msg => cases a <;> simp [healStep] at h

/-! ## npm may be running -/

/-- `!result.ok && result.lockRetained === true` -/
def HealResult.lockRetained : HealResult → Bool
  | .success .. => false
  | .failure f => decide (f.lockRetained = some true)

/-- **npm may be running**: it may have been started and nothing has proven it stopped. -/
def HealPc.mayRun : HealPc → Bool
  | .loading | .explaining _ | .rejected _ => false
  | .executing _ _ _ pc => pc.mayRun
  | .rescanning c | .reloading c => c.result.stillRunning
  | .returned r => r.lockRetained

def HealPc.starting : HealPc → Bool
  | .executing _ _ _ .starting => true
  | _ => false

theorem HealPc.mayRun_of_starting {pc : HealPc} (h : pc.starting = true) : pc.mayRun = true := by
  unfold HealPc.starting at h
  split at h
  · rfl
  · cases h

@[simp] theorem execFailed_lockRetained (f : ExecFailure) (packages : Option (List HealPackageOutcome)) :
    (execFailed f packages).lockRetained = (ExecResult.failure f).stillRunning := by
  simp [execFailed, HealResult.lockRetained, ExecResult.stillRunning]

/-- The result keeps the lock exactly when the exec could not prove npm stopped. -/
theorem afterReload_lockRetained (c : HealCtx) (after : Option ReportObj) :
    (afterReload c after).lockRetained = c.result.stillRunning := by
  obtain ⟨targets, explanations, result⟩ := c
  cases result with
  | failure f => exact execFailed_lockRetained f _
  | success exitCode output stderr =>
    simp only [afterReload]
    split <;> rfl

/-- So does the result of a rescan or reload that rejects. -/
theorem afterRejection_mayRun (c : HealCtx) (msg : String) : (afterRejection c msg).mayRun = c.result.stillRunning := by
  obtain ⟨targets, explanations, result⟩ := c
  cases result with
  | failure f => exact execFailed_lockRetained f none
  | success exitCode output stderr => rfl

theorem execStep_unreachable {call : ExecCall} {pc : ExecPc} {a : ExecAct} {f : ExecFailure}
    (h : execStep call pc a = some (.done (.failure f))) (hf : f.reason = .unreachable) : pc.mayRun = false := by
  cases pc with
  | resolving => rfl
  | creating => rfl
  | waiting why =>
    cases a with
    | inspected r deadlinePassed collected =>
      simp only [execStep] at h
      split at h
      · cases h
      · rename_i w _
        simp only [Option.some.injEq, ExecPc.done.injEq] at h
        cases why <;> cases w <;> simp [settle, success] at h <;> subst h <;> cases hf
    | _ => simp [execStep] at h
  | starting => cases a <;> simp [execStep] at h; split at h <;> cases h
  | streaming => cases a <;> simp [execStep] at h; split at h <;> cases h
  | done r => cases a <;> simp [execStep] at h

theorem afterExec_mayRun {targets : List HealTarget} {explanations : List PackageExplanation} {result : ExecResult}
    (h : ∀ f, result = .failure f → f.reason = .unreachable → result.stillRunning = false) :
    (afterExec targets explanations result).mayRun = result.stillRunning := by
  cases result with
  | success exitCode output stderr => rfl
  | failure f =>
    simp only [afterExec]
    split
    · rename_i hr
      rw [h f rfl hr]
      rfl
    · rfl

/-- **The heal takes npm as stopped only when an inspection of its exec found it not running**, whatever the rescan and
the reload after a failed exec do. -/
theorem healStep_stopped {call : ExecCall} {pc pc' : HealPc} {a : HealAct} (h : healStep call pc a = some pc')
    (hbefore : pc.mayRun = true) (hafter : pc'.mayRun = false) :
    ∃ info deadlinePassed collected,
      a = .exec (.inspected (.ok info) deadlinePassed collected) ∧ info.Running ≠ some true := by
  cases pc with
  | loading => cases hbefore
  | explaining targets => cases hbefore
  | rejected msg => cases hbefore
  | returned r => cases a <;> simp [healStep] at h
  | executing targets explanations cmd pc =>
    cases a with
    | exec b =>
      have hstop : ∃ pc'', execStep call pc b = some pc'' ∧ pc''.mayRun = false := by
        simp only [healStep] at h
        split at h
        · cases h
        · rename_i result hexec
          cases h
          refine ⟨_, hexec, ?_⟩
          rw [afterExec_mayRun] at hafter
          · exact hafter
          · rintro f rfl hf
            have := execStep_unreachable hexec hf
            exact absurd (this.symm.trans hbefore) Bool.false_ne_true
        · rename_i hexec
          cases h
          exact ⟨_, hexec, hafter⟩
      obtain ⟨pc'', hexec, hstopped⟩ := hstop
      obtain ⟨info, deadlinePassed, collected, rfl, hrun⟩ := execStep_stopped hexec hbefore hstopped
      exact ⟨info, deadlinePassed, collected, rfl, hrun⟩
    | _ => simp [healStep] at h
  | rescanning c =>
    cases a with
    | rescanned r =>
      cases r with
      | error msg =>
        cases h
        rw [afterRejection_mayRun] at hafter
        exact absurd (hafter.symm.trans hbefore) Bool.false_ne_true
      | ok u => cases h; exact absurd (hafter.symm.trans hbefore) Bool.false_ne_true
    | _ => simp [healStep] at h
  | reloading c =>
    cases a with
    | reloaded r =>
      cases r with
      | error msg =>
        cases h
        rw [afterRejection_mayRun] at hafter
        exact absurd (hafter.symm.trans hbefore) Bool.false_ne_true
      | ok after =>
        cases h
        rw [HealPc.mayRun, afterReload_lockRetained] at hafter
        exact absurd (hafter.symm.trans hbefore) Bool.false_ne_true
    | _ => simp [healStep] at h

end Heal
end SignalkDoctor
