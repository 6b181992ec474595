import Mathlib.Data.List.Infix
import SignalkDoctor.HostCommands
import SignalkDoctor.JobRuns
import SignalkDoctor.Retention
import SignalkDoctor.ShellQuote
import SignalkDoctor.TextOrder
/-!
# BugReport — the tarballs of the bug reports (`src/bug-report.ts`, `src/bug-report-jobs.ts`)

A job prunes the directory of the tarballs, has the host's script put a new one there and reports the newest that was not
there before.  The script runs on the host: a run the doctor gave up on may put its tarball there any time later.
`reportsStep` is the job registry and the directory together, from one `await` to the next.  `reports_kept` is what holds
of every interleaving, `reports_left` what is in the directory when every removal succeeds.
-/
namespace SignalkDoctor
namespace BugReport

open ChildProcess (Child Event Keep Settled)
open HealJobs (BugReportReason BugReportResult Job JobRegistry Jobs RegistryAct RegistryRun bugReportRegistry registryStep
  registryStep_inv startBugReportJob)
open HostCommands (shown)
open Retention (Retains left)
open Steps (exec exec_inv' exec_inv)
open TextOrder (Before pairwise_sortTexts sortTexts sortTexts_eq)

/-! ## The directory -/

def RETENTION : Nat := 5

def isTarball (f : String) : Bool :=
  "signalk-bug-report-".toList.isPrefixOf f.toList && ".tar.gz".toList.isSuffixOf f.toList

/-- `listTarballs` of a directory it can read. -/
def tarballs (dir : List String) : List String := sortTexts (dir.filter isTarball)

def listTarballs (readable : Bool) (dir : List String) : List String := if readable then tarballs dir else []

def toRemove (listed : List String) (keep : Nat) : List String :=
  if listed.length ≤ keep then [] else listed.take (listed.length - keep)

/-- `pruneOldReports`; `unlinks` says which removals succeed. -/
def pruneOldReports (readable : Bool) (unlinks : String → Bool) (keep : Nat) (dir : List String) : List String :=
  dir.filter (fun f => !((toRemove (listTarballs readable dir) keep).contains f && unlinks f))

/-! ## One report -/

structure ReportEnv where
  hostBinDir : String
  bugReportDir : String
  /-- The text of `bugReportTimeoutMs()`. -/
  timeoutText : String

def ReportEnv.hostScript (env : ReportEnv) : String := env.hostBinDir ++ "/signalk"

inductive SpawnOutcome where
  | ok (exitCode : Int)
  | timeout
  | spawnFailed (detail : String)
  deriving DecidableEq, Repr

def spawnOutcome (s : Settled) : SpawnOutcome × String :=
  match s.ending with
  | .closed exitCode => (.ok (exitCode.getD (-1)), shown s.stderr)
  | .timeout => (.timeout, shown s.stderr)
  | .failed message => (.spawnFailed message, shown s.stderr)

/-- `runSystemdRun` of `bug-report.ts`, whose output is drained only; `none` while it waits. -/
def runSystemdRun (events : List Event) : Option (SpawnOutcome × String) :=
  (Child.spawned.handleAll .nothing (.last 100000) events).settled.map spawnOutcome

/-- Which stat of the pre-flight fails. -/
inductive Missing where
  | hostBin | hostScript
  deriving DecidableEq, Repr

def missingResult (env : ReportEnv) (durationMs : Nat) : Missing → BugReportResult
  | .hostBin =>
    .failure .hostBinMissing (env.hostBinDir ++
      " is not mounted; rerun the bash installer to add the host-bin bind mount, then retry.") none none durationMs
  | .hostScript =>
    .failure .hostScriptMissing (env.hostScript ++
      " not found. Run `signalk update` (or POST /api/installer/refresh) to install the host script, then retry.")
      none none durationMs

/-- What a run meets from its first listing on; the paths are looked up one after the other. -/
structure RunEnd where
  scriptMounts : Option Text
  dirMounts : Option Text
  events : List Event
  /-- The second listing reads the directory. -/
  readable : Bool
  size : Except String Nat
  durationMs : Nat

def unsupportedText : Text := "Unknown bug-report argument: --to".toList

/-- The last new tarball. -/
def freshOf (before after : List String) : Option String := (after.filter (fun f => !before.contains f)).getLast?

/-- What `generateBugReport` comes to after the run, with the listings before and after; `none` while the script runs. -/
def runResult (env : ReportEnv) (r : RunEnd) (before after : List String) : Option (Except String BugReportResult) :=
  match resolveHostPath env.hostScript.toList r.scriptMounts, resolveHostPath env.bugReportDir.toList r.dirMounts with
  | some _, some _ =>
    (runSystemdRun r.events).map (fun
      | (.timeout, stderr) =>
        .ok (.failure .timeout ("bug-report did not finish within " ++ env.timeoutText ++ "ms") (some stderr) none r.durationMs)
      | (.spawnFailed detail, stderr) => .ok (.failure .spawnFailed detail (some stderr) none r.durationMs)
      | (.ok exitCode, stderr) =>
        if exitCode ≠ 0 then
          if unsupportedText <:+: stderr.toList then
            .ok (.failure .unsupportedFlag "host signalk script is too old to support `bug-report --to`. Run `signalk update` (or POST /api/installer/refresh) to refresh it, then retry."
              (some stderr) (some exitCode) r.durationMs)
          else
            .ok (.failure .nonzeroExit ("signalk bug-report exited " ++ toString exitCode) (some stderr) (some exitCode)
              r.durationMs)
        else
          match freshOf before after with
          | none =>
            .ok (.failure .noOutput ("no new tarball appeared in " ++ env.bugReportDir ++ " after a successful run")
              (some stderr) none r.durationMs)
          | some fresh =>
            r.size.map (fun sizeBytes =>
              .success (String.ofList (UnixPath.join env.bugReportDir.toList fresh.toList)) fresh sizeBytes r.durationMs))
  | _, _ =>
    some (.ok (.failure .hostPathResolutionFailed ("could not resolve host paths from /proc/self/mountinfo for " ++
      env.hostScript ++ " and/or " ++ env.bugReportDir ++
      ". The doctor expects the installer's bind mounts (~/.local/bin → /host-bin and ~/.signalk-doctor → /data). Rerun the bash installer to restore them.")
      none none r.durationMs))

/-! ## The registry and the directory -/

/-- Where the report of the job in flight stands. -/
inductive Phase where
  | begun
  | pruned
  /-- With the first listing, and how many tarballs there had been; 0 where it could not read the directory. -/
  | listed (before : List String) (mark : Nat)

/-- A tarball reported, with the mark of its job's first listing and how many there had been at the second one. -/
structure Reported (κ : Type) where
  jobId : κ
  filename : String
  mark : Nat
  seen : Nat

structure Reports (κ : Type) where
  registry : RegistryRun κ BugReportResult
  inFlight : Option (κ × Phase)
  dir : List String
  /-- All tarballs there have been, from the first on. -/
  history : List String
  /-- How many there had been at the last prune. -/
  prunedAt : Option Nat
  reported : List (Reported κ)

inductive ReportAct (κ : Type) where
  | start (jobId : κ) (startedAt : String)
  | missing (jobId : κ) (finishedAt : String) (what : Missing) (durationMs : Nat)
  | prune (jobId : κ) (readable : Bool) (unlinks : String → Bool)
  | list (jobId : κ) (readable : Bool)
  | finish (jobId : κ) (finishedAt : String) (run : RunEnd)
  /-- A call of the file system that nothing guards fails. -/
  | throw (jobId : κ) (finishedAt message : String)
  /-- The host's script, of this run or an earlier one, puts its tarball. -/
  | put (name : String)

section
variable {κ : Type} [DecidableEq κ]

def Reports.init (dir : List String) : Reports κ := ⟨.init κ BugReportResult, none, dir, tarballs dir, none, []⟩

/-- `finalize(jobId, result)` -/
def Reports.settle (s : Reports κ) (jobId : κ) (finishedAt : String) (outcome : Except String BugReportResult) :
    Option (Reports κ) :=
  (registryStep (bugReportRegistry κ) s.registry (.settle jobId finishedAt outcome)).map (fun registry =>
    { s with registry, inFlight := none })

def reportOf (jobId : κ) (mark seen : Nat) : Except String BugReportResult → List (Reported κ)
  | .ok (.success _ filename _ _) => [⟨jobId, filename, mark, seen⟩]
  | _ => []

/-- **The registry and the directory**, from one `await` of the report in flight to the next. -/
def reportsStep (env : ReportEnv) (s : Reports κ) : ReportAct κ → Option (Reports κ)
  | .start jobId startedAt =>
    (registryStep (bugReportRegistry κ) s.registry (.start jobId startedAt)).map (fun registry =>
      if (startBugReportJob s.registry.jobs jobId startedAt).1.reused then { s with registry }
      else { s with registry, inFlight := some (jobId, .begun) })
  | .missing jobId finishedAt what durationMs =>
    match s.inFlight with
    | some (job, .begun) =>
      if job = jobId then s.settle jobId finishedAt (.ok (missingResult env durationMs what)) else none
    | _ => none
  | .prune jobId readable unlinks =>
    match s.inFlight with
    | some (job, .begun) =>
      if job = jobId then
        some { s with
          dir := pruneOldReports readable unlinks (RETENTION - 1) s.dir
          inFlight := some (jobId, .pruned)
          prunedAt := some s.history.length }
      else none
    | _ => none
  | .list jobId readable =>
    match s.inFlight with
    | some (job, .pruned) =>
      if job = jobId then
        let mark := if readable then s.history.length else 0
        some { s with inFlight := some (jobId, .listed (listTarballs readable s.dir) mark) }
      else none
    | _ => none
  | .finish jobId finishedAt run =>
    match s.inFlight with
    | some (job, .listed before mark) =>
      if job = jobId then
        (runResult env run before (listTarballs run.readable s.dir)).bind (fun outcome =>
          (s.settle jobId finishedAt outcome).map (fun t =>
            { t with reported := t.reported ++ reportOf jobId mark s.history.length outcome }))
      else none
    | _ => none
  | .throw jobId finishedAt message =>
    match s.inFlight with
    | some (job, _) => if job = jobId then s.settle jobId finishedAt (.error message) else none
    | none => none
  | .put name =>
    if name ∈ s.dir then none
    else some { s with dir := s.dir ++ [name], history := if isTarball name then s.history ++ [name] else s.history }

/-! ## Listings -/

theorem mem_tarballs {dir : List String} {f : String} : f ∈ tarballs dir ↔ f ∈ dir ∧ isTarball f = true := by
  rw [tarballs, TextOrder.mem_sortTexts, List.mem_filter]

theorem pairwise_tarballs {dir : List String} (h : dir.Nodup) : (tarballs dir).Pairwise Before :=
  pairwise_sortTexts (h.filter _)

/-- A tarball later than all is listed last. -/
theorem tarballs_append {dir : List String} (h : dir.Nodup) {name : String} (hname : isTarball name = true)
    (hlast : ∀ f ∈ tarballs dir, Before f name) : tarballs (dir ++ [name]) = tarballs dir ++ [name] := by
  refine sortTexts_eq ?_ ?_
  · exact List.pairwise_append.2 ⟨pairwise_tarballs h, List.pairwise_singleton _ _, fun f hf g hg =>
      List.mem_singleton.1 hg ▸ hlast f hf⟩
  · rw [List.filter_append, List.filter_singleton, hname]
    exact (TextOrder.perm_sortTexts _).append_right [name]

theorem tarballs_append_other {dir : List String} {name : String} (hname : isTarball name = false) :
    tarballs (dir ++ [name]) = tarballs dir := by
  rw [tarballs, List.filter_append, List.filter_singleton, hname]
  simp [tarballs]

theorem tarballs_filter {dir : List String} (h : dir.Nodup) (keep : String → Bool) :
    tarballs (dir.filter keep) = (tarballs dir).filter keep := by
  refine sortTexts_eq ((pairwise_tarballs h).filter _) ?_
  rw [List.filter_filter, List.filter_congr (q := fun f => keep f && isTarball f) (fun f _ => Bool.and_comm _ _),
    ← List.filter_filter]
  exact (TextOrder.perm_sortTexts _).filter keep

theorem toRemove_eq (listed : List String) (keep : Nat) : toRemove listed keep = listed.rdrop keep := by
  rw [toRemove, List.rdrop]
  split
  · rename_i h
    rw [Nat.sub_eq_zero_of_le h, List.take_zero]
  · rfl

/-- A prune spares the newest. -/
theorem not_mem_toRemove {listed : List String} (h : listed.Nodup) {keep : Nat} {f : String} (hf : f ∈ listed.rtake keep) :
    f ∉ toRemove listed keep := by
  rw [toRemove_eq]
  intro hmem
  have hsplit : listed.rdrop keep ++ listed.rtake keep = listed := List.take_append_drop _ _
  rw [← hsplit] at h
  exact (List.nodup_append.1 h).2.2 f hmem f hf rfl

/-- Without the first ones what is left is the last ones. -/
theorem filter_not_toRemove {listed : List String} (h : listed.Nodup) (keep : Nat) :
    listed.filter (fun f => !(toRemove listed keep).contains f) = listed.rtake keep := by
  have hsplit : listed.rdrop keep ++ listed.rtake keep = listed := List.take_append_drop _ _
  have hfirst : (listed.rdrop keep).filter (fun f => !(toRemove listed keep).contains f) = [] := by
    refine List.filter_eq_nil_iff.2 (fun f hf => ?_)
    simp [toRemove_eq, hf]
  have hlast : (listed.rtake keep).filter (fun f => !(toRemove listed keep).contains f) = listed.rtake keep :=
    List.filter_eq_self.2 (fun f hf => by simpa using not_mem_toRemove h hf)
  conv_lhs => rw [← hsplit, List.filter_append, hsplit, hfirst, hlast]
  rfl

/-! ## Runs -/

/-- Every tarball is named after those before it, as the host's clock names them. -/
def Chronological (s : Reports κ) : ReportAct κ → Prop
  | .put name => isTarball name = true → ∀ f ∈ s.history, Before f name
  | _ => True

instance (s : Reports κ) : ∀ a, Decidable (Chronological s a)
  | .put name => inferInstanceAs (Decidable (isTarball name = true → ∀ f ∈ s.history, Before f name))
  | .start .. | .missing .. | .prune .. | .list .. | .finish .. | .throw .. => .isTrue trivial

/-- What was there when the run listed the directory. -/
structure Listed (history dir before : List String) (mark : Nat) : Prop where
  mark_le : mark ≤ history.length
  old : ∀ f ∈ before, f ∈ history.take mark
  new : ∀ f ∈ tarballs dir, f ∉ before → f ∈ history.drop mark

structure Reports.Inv (s : Reports κ) : Prop where
  registry : s.registry.Inv (bugReportRegistry κ)
  nodup : s.dir.Nodup
  sorted : s.history.Pairwise Before
  retains : Retains (RETENTION - 1) s.history (tarballs s.dir)
  listed : ∀ jobId before mark, s.inFlight = some (jobId, .listed before mark) → Listed s.history s.dir before mark
  reported : ∀ r ∈ s.reported, r.mark < r.seen ∧ r.seen ≤ s.history.length ∧
    (s.history.take r.seen).getLast? = some r.filename
  settled : ∀ jobId finishedAt path filename size ms,
    (jobId, finishedAt, .success path filename size ms) ∈ s.registry.settled →
      ∃ r ∈ s.reported, r.jobId = jobId ∧ r.filename = filename

theorem Reports.Inv.history_nodup {s : Reports κ} (hs : s.Inv) : s.history.Nodup := hs.sorted.imp Before.ne

theorem Reports.inv_init {dir : List String} (h : dir.Nodup) : (Reports.init dir : Reports κ).Inv where
  registry := RegistryRun.inv_init
  nodup := h
  sorted := pairwise_tarballs h
  retains := .refl _ _
  listed := fun jobId before mark h => by cases h
  reported := fun r h => by cases h
  settled := fun jobId finishedAt path filename size ms h => by cases h

/-- **What a run reports is the newest tarball of all**, put there since its first listing. -/
theorem Listed.fresh {s : Reports κ} (hs : s.Inv) {before : List String} {mark : Nat}
    (hl : Listed s.history s.dir before mark) {fresh : String} (h : freshOf before (tarballs s.dir) = some fresh) :
    mark < s.history.length ∧ s.history.getLast? = some fresh := by
  have hmem := List.mem_of_getLast? h
  obtain ⟨hdir, hnew⟩ := List.mem_filter.1 hmem
  have hdrop := hl.new fresh hdir (by simpa using hnew)
  have hlt : mark < s.history.length := by
    by_contra hle
    rw [List.drop_eq_nil_of_le (Nat.le_of_not_lt hle)] at hdrop
    cases hdrop
  refine ⟨hlt, ?_⟩
  have hne : s.history ≠ [] := List.ne_nil_of_length_pos (Nat.zero_lt_of_lt hlt)
  obtain ⟨earlier, hsplit⟩ := List.getLast?_eq_some_iff.1 (List.getLast?_eq_some_getLast hne)
  generalize s.history.getLast hne = last at hsplit
  have hlength : s.history.length = earlier.length + 1 := by rw [hsplit, List.length_append, List.length_singleton]
  have hlast : last ∈ s.history.drop mark := by
    rw [hsplit, List.drop_append_of_le_length (by omega)]
    exact List.mem_append_right _ (List.mem_singleton_self last)
  have hkept : last ∈ tarballs s.dir := by
    refine hs.retains.newest last ?_
    rw [hsplit, RETENTION, List.rtake_concat_succ]
    exact List.mem_append_right _ (List.mem_singleton_self last)
  have hunseen : last ∉ before := by
    intro hold
    have hnodup := hs.history_nodup
    rw [← List.take_append_drop mark s.history] at hnodup
    exact (List.nodup_append.1 hnodup).2.2 last (hl.old last hold) last hlast rfl
  have hcandidate : last ∈ (tarballs s.dir).filter (fun f => !before.contains f) :=
    List.mem_filter.2 ⟨hkept, by simpa using hunseen⟩
  obtain ⟨others, hothers⟩ := List.getLast?_eq_some_iff.1 h
  have hordered := (pairwise_tarballs hs.nodup).filter (fun f => !before.contains f)
  rw [hothers] at hcandidate hordered
  rcases List.mem_append.1 hcandidate with hearlier | hsame
  · -- the newest of all would stand before one that is not newer
    have hbefore : Before last fresh := (List.pairwise_append.1 hordered).2.2 last hearlier fresh (List.mem_singleton_self _)
    have hfresh : fresh ∈ earlier ++ [last] := hsplit ▸ (List.drop_sublist mark s.history).subset hdrop
    have hsorted := hs.sorted
    rw [hsplit] at hsorted
    rcases List.mem_append.1 hfresh with hf | hf
    · exact absurd rfl (hbefore.trans ((List.pairwise_append.1 hsorted).2.2 fresh hf last (List.mem_singleton_self _))).ne
    · exact absurd (List.mem_singleton.1 hf).symm hbefore.ne
  · rw [hsplit, List.getLast?_concat, List.mem_singleton.1 hsame]

/-- A settlement by what it does. -/
theorem Reports.settle_spec {s t : Reports κ} (hs : s.Inv) {jobId : κ} {finishedAt : String}
    {outcome : Except String BugReportResult} (h : s.settle jobId finishedAt outcome = some t) :
    ∃ registry, t = { s with registry, inFlight := none } ∧ registry.Inv (bugReportRegistry κ) ∧
      registry.settled = s.registry.settled ++ [(jobId, finishedAt, HealJobs.settledBugReport outcome)] := by
  obtain ⟨registry, hstep, rfl⟩ := Option.map_eq_some_iff.1 h
  refine ⟨registry, rfl, registryStep_inv _ _ _ hs.registry hstep, ?_⟩
  rcases HealJobs.registryStep_cases hs.registry hstep with ⟨_, _, ha, _⟩ | ⟨_, _, ha, _⟩ | ⟨_, _, _, ha, _, rfl⟩
  · cases ha
  · cases ha
  · cases ha
    rfl

/-- A settlement that reports no tarball keeps the invariant. -/
theorem Reports.Inv.settle {s t : Reports κ} (hs : s.Inv) {jobId : κ} {finishedAt : String}
    {outcome : Except String BugReportResult} (h : s.settle jobId finishedAt outcome = some t)
    (hfailed : ∀ path filename size ms, HealJobs.settledBugReport outcome ≠ .success path filename size ms) : t.Inv := by
  obtain ⟨registry, rfl, hregistry, hsettled⟩ := Reports.settle_spec hs h
  refine ⟨hregistry, hs.nodup, hs.sorted, hs.retains, fun _ _ _ h => (by cases h), hs.reported, ?_⟩
  intro job at' path filename size ms hmem
  rw [hsettled, List.mem_append, List.mem_singleton] at hmem
  rcases hmem with hmem | hmem
  · exact hs.settled job at' path filename size ms hmem
  · exact absurd (congrArg (fun r => r.2.2) hmem).symm (hfailed path filename size ms)

/-- A run that succeeds reports the last new tarball. -/
theorem runResult_success {env : ReportEnv} {r : RunEnd} {before after : List String} {path filename : String} {size ms : Nat}
    (h : runResult env r before after = some (.ok (.success path filename size ms))) : freshOf before after = some filename := by
  unfold runResult at h
  split at h
  · obtain ⟨out, -, hout⟩ := Option.map_eq_some_iff.1 h
    split at hout
    · cases hout
    · cases hout
    · split at hout
      · split at hout <;> cases hout
      · split at hout
        · cases hout
        · rename_i fresh hfresh
          cases hsize : r.size with
          | error e => rw [hsize] at hout; cases hout
          | ok bytes => rw [hsize] at hout; cases hout; exact hfresh
  · cases h

theorem Reports.Inv.prune {s : Reports κ} (hs : s.Inv) (jobId : κ) (readable : Bool) (unlinks : String → Bool) :
    ({ s with dir := pruneOldReports readable unlinks (RETENTION - 1) s.dir, inFlight := some (jobId, .pruned),
              prunedAt := some s.history.length } : Reports κ).Inv where
  registry := hs.registry
  nodup := hs.nodup.filter _
  sorted := hs.sorted
  retains := by
    have hspared : ∀ f ∈ (tarballs s.dir).rtake (RETENTION - 1),
        (!((toRemove (listTarballs readable s.dir) (RETENTION - 1)).contains f && unlinks f)) = true := by
      intro f hf
      have hstays : f ∉ toRemove (listTarballs readable s.dir) (RETENTION - 1) := by
        cases readable
        · simp [listTarballs, toRemove]
        · exact not_mem_toRemove ((pairwise_tarballs hs.nodup).imp Before.ne) hf
      simp [hstays]
    rw [pruneOldReports, tarballs_filter hs.nodup]
    exact hs.retains.filter hs.history_nodup hspared
  listed := fun _ _ _ h => by cases h
  reported := hs.reported
  settled := hs.settled

/-- A listing that could not read the directory has seen none of its tarballs. -/
theorem Reports.Inv.list {s : Reports κ} (hs : s.Inv) (jobId : κ) (readable : Bool) :
    ({ s with inFlight := some (jobId, .listed (listTarballs readable s.dir) (if readable then s.history.length else 0)) } :
      Reports κ).Inv := by
  refine ⟨hs.registry, hs.nodup, hs.sorted, hs.retains, fun job before mark h => ?_, hs.reported, hs.settled⟩
  cases h
  cases readable with
  | true =>
    refine ⟨Nat.le_refl _, fun f hf => ?_, fun f hf hnew => absurd hf hnew⟩
    rw [if_pos rfl, List.take_length]
    exact hs.retains.sublist.subset hf
  | false => exact ⟨Nat.zero_le _, (fun f hf => by cases hf), fun f hf _ => hs.retains.sublist.subset hf⟩

theorem Reports.Inv.put {s : Reports κ} (hs : s.Inv) {name : String} (hfresh : name ∉ s.dir)
    (hlater : isTarball name = true → ∀ f ∈ s.history, Before f name) :
    ({ s with dir := s.dir ++ [name], history := if isTarball name then s.history ++ [name] else s.history } :
      Reports κ).Inv := by
  have hnodup : (s.dir ++ [name]).Nodup :=
    List.nodup_append.2 ⟨hs.nodup, List.nodup_singleton name, fun a ha b hb heq =>
      hfresh (by rw [List.mem_singleton.1 hb] at heq; exact heq ▸ ha)⟩
  cases hname : isTarball name with
  | false =>
    have hsame : tarballs (s.dir ++ [name]) = tarballs s.dir := tarballs_append_other hname
    simp only [Bool.false_eq_true, if_false]
    refine ⟨hs.registry, hnodup, hs.sorted, ?_, fun job before mark h => ?_, hs.reported, hs.settled⟩
    · rw [hsame]
      exact hs.retains
    · obtain ⟨hle, hold, hnew⟩ := hs.listed job before mark h
      exact ⟨hle, hold, fun f hf => hnew f (hsame ▸ hf)⟩
  | true =>
    have hlast := hlater hname
    have happend := tarballs_append hs.nodup hname (fun f hf => hlast f (hs.retains.sublist.subset hf))
    simp only [if_true]
    refine ⟨hs.registry, hnodup, ?_, ?_, fun job before mark h => ?_, fun r hr => ?_, hs.settled⟩
    · exact List.pairwise_append.2 ⟨hs.sorted, List.pairwise_singleton _ _, fun f hf g hg =>
        List.mem_singleton.1 hg ▸ hlast f hf⟩
    · rw [happend]
      exact hs.retains.add name
    · obtain ⟨hle, hold, hnew⟩ := hs.listed job before mark h
      refine ⟨hle.trans (by simp), fun f hf => ?_, fun f hf hunseen => ?_⟩
      · rw [List.take_append_of_le_length hle]
        exact hold f hf
      · rw [List.drop_append_of_le_length hle, List.mem_append]
        rw [happend, List.mem_append] at hf
        exact hf.imp_left (fun hf => hnew f hf hunseen)
    · obtain ⟨hmark, hseen, hfile⟩ := hs.reported r hr
      refine ⟨hmark, hseen.trans (by simp), ?_⟩
      rw [List.take_append_of_le_length hseen]
      exact hfile

theorem Reports.Inv.finish {env : ReportEnv} {s t : Reports κ} (hs : s.Inv) {jobId : κ} {finishedAt : String} {run : RunEnd}
    {before : List String} {mark : Nat} {outcome : Except String BugReportResult}
    (hphase : s.inFlight = some (jobId, .listed before mark))
    (houtcome : runResult env run before (listTarballs run.readable s.dir) = some outcome)
    (ht : s.settle jobId finishedAt outcome = some t) :
    ({ t with reported := t.reported ++ reportOf jobId mark s.history.length outcome } : Reports κ).Inv := by
  obtain ⟨registry, rfl, hregistry, hsettled⟩ := Reports.settle_spec hs ht
  refine ⟨hregistry, hs.nodup, hs.sorted, hs.retains, fun _ _ _ h => (by cases h), fun r hr => ?_, ?_⟩
  · rcases List.mem_append.1 hr with hr | hr
    · exact hs.reported r hr
    · unfold reportOf at hr
      split at hr
      · rename_i path filename size ms
        obtain rfl := List.mem_singleton.1 hr
        have hfresh := runResult_success houtcome
        cases hreadable : run.readable with
        | false =>
          rw [hreadable] at hfresh
          cases hfresh
        | true =>
          rw [hreadable] at hfresh
          obtain ⟨hlt, hlast⟩ := (hs.listed jobId before mark hphase).fresh hs hfresh
          exact ⟨hlt, Nat.le_refl _, by rw [List.take_length]; exact hlast⟩
      · cases hr
  · intro job at' path filename size ms hmem
    rw [hsettled, List.mem_append, List.mem_singleton] at hmem
    rcases hmem with hmem | hmem
    · obtain ⟨r, hr, hr'⟩ := hs.settled job at' path filename size ms hmem
      exact ⟨r, List.mem_append_left _ hr, hr'⟩
    · obtain ⟨rfl, -, hresult⟩ : job = jobId ∧ at' = finishedAt ∧
          BugReportResult.success path filename size ms = HealJobs.settledBugReport outcome := by simpa using hmem
      cases outcome with
      | error message => cases hresult
      | ok result =>
        obtain rfl : result = .success path filename size ms := hresult.symm
        exact ⟨⟨job, filename, mark, s.history.length⟩, List.mem_append_right _ (List.mem_singleton_self _), rfl, rfl⟩

theorem reportsStep_inv {env : ReportEnv} (s : Reports κ) (a : ReportAct κ) (t : Reports κ) (hs : s.Inv)
    (hg : Chronological s a) (h : reportsStep env s a = some t) : t.Inv := by
  cases a with
  | start jobId startedAt =>
    obtain ⟨registry, hstep, rfl⟩ := Option.map_eq_some_iff.1 h
    have hregistry := registryStep_inv _ _ _ hs.registry hstep
    have hsettled : ∀ r, r ∈ registry.settled → r ∈ s.registry.settled := by
      rcases HealJobs.registryStep_cases hs.registry hstep with ⟨_, _, _, _, rfl⟩ | ⟨_, _, _, _, _, rfl⟩ | ⟨_, _, _, ha, _⟩
      · exact fun _ h => h
      · exact fun _ h => h
      · cases ha
    split
    · exact ⟨hregistry, hs.nodup, hs.sorted, hs.retains, hs.listed, hs.reported,
        fun _ _ _ _ _ _ hr => hs.settled _ _ _ _ _ _ (hsettled _ hr)⟩
    · exact ⟨hregistry, hs.nodup, hs.sorted, hs.retains, fun _ _ _ h => (by cases h), hs.reported,
        fun _ _ _ _ _ _ hr => hs.settled _ _ _ _ _ _ (hsettled _ hr)⟩
  | missing jobId finishedAt what durationMs =>
    simp only [reportsStep] at h
    split at h
    · split at h
      · exact hs.settle h (fun _ _ _ _ => by cases what <;> exact fun h => by cases h)
      · cases h
    · cases h
  | prune jobId readable unlinks =>
    simp only [reportsStep] at h
    split at h
    · split at h
      · cases h
        exact hs.prune jobId readable unlinks
      · cases h
    · cases h
  | list jobId readable =>
    simp only [reportsStep] at h
    split at h
    · split at h
      · cases h
        exact hs.list jobId readable
      · cases h
    · cases h
  | finish jobId finishedAt run =>
    simp only [reportsStep] at h
    split at h
    · rename_i job before mark hphase
      split at h
      · rename_i hjob
        subst hjob
        obtain ⟨outcome, houtcome, h⟩ := Option.bind_eq_some_iff.1 h
        obtain ⟨u, hu, rfl⟩ := Option.map_eq_some_iff.1 h
        exact hs.finish hphase houtcome hu
      · cases h
    · cases h
  | throw jobId finishedAt message =>
    simp only [reportsStep] at h
    split at h
    · split at h
      · exact hs.settle h (fun _ _ _ _ h => by cases h)
      · cases h
    · cases h
  | put name =>
    simp only [reportsStep] at h
    split at h
    · cases h
    · rename_i hfresh
      cases h
      exact hs.put hfresh hg

/-! ## What the runs promise -/

/-- **The tarball of a job settled well.** -/
theorem Reports.Inv.kept {s : Reports κ} (hs : s.Inv) {jobId : κ} {finishedAt path filename : String} {size ms : Nat}
    (hsettled : (jobId, finishedAt, .success path filename size ms) ∈ s.registry.settled) :
    ∃ r ∈ s.reported, r.jobId = jobId ∧ r.filename = filename ∧ r.mark < r.seen ∧ r.seen ≤ s.history.length ∧
      (s.history.take r.seen).getLast? = some filename ∧
      (s.history.length < r.seen + (RETENTION - 1) → filename ∈ s.dir) := by
  obtain ⟨r, hr, hrjob, hrfile⟩ := hs.settled _ _ _ _ _ _ hsettled
  obtain ⟨hmark, hseen, hlast⟩ := hs.reported r hr
  rw [hrfile] at hlast
  exact ⟨r, hr, hrjob, hrfile, hmark, hseen, hlast, fun hnewest =>
    (mem_tarballs.1 (hs.retains.newest filename (Retention.getLast?_take_mem_rtake hseen hlast hnewest))).1⟩

/-- **A done job's tarball is its own, and stays.**  In every run of starts, prunes, listings and settlements, with tarballs
put at any time, by late scripts too, each named after those before it: a job of the registry that is done reports the tarball
that was the newest at its end, put after its first listing unless that could not read the directory; and that file is in the
directory until four newer ones have come, whichever removals and listings fail. -/
theorem reports_kept {env : ReportEnv} {dir : List String} {acts : List (ReportAct κ)} {s : Reports κ} (hdir : dir.Nodup)
    (hrun : exec (reportsStep env) (.init dir) acts = some s)
    (hguard : Steps.Guarded (reportsStep env) Chronological (.init dir) acts) {jobId : κ}
    {startedAt finishedAt path filename : String} {size ms : Nat}
    (hjob : (jobId, Job.finished true startedAt finishedAt (.success path filename size ms)) ∈ s.registry.jobs) :
    ∃ r ∈ s.reported, r.jobId = jobId ∧ r.filename = filename ∧ r.mark < r.seen ∧ r.seen ≤ s.history.length ∧
      (s.history.take r.seen).getLast? = some filename ∧
      (s.history.length < r.seen + (RETENTION - 1) → filename ∈ s.dir) := by
  have hs : s.Inv := exec_inv reportsStep_inv acts _ _ (Reports.inv_init hdir) hguard hrun
  obtain ⟨startedAt', hcreated, heq⟩ := hs.registry.mem_jobs hjob
  have hsettled : jobId ∈ s.registry.settled.map Prod.fst := by
    by_contra hno
    rw [HealJobs.jobOf_running hno] at heq
    cases heq
  obtain ⟨⟨id, at', result⟩, hmem, rfl⟩ := List.mem_map.1 hsettled
  rw [HealJobs.jobOf_finished hs.registry.settled hmem] at heq
  have hresult : result = .success path filename size ms := by
    have := congrArg Prod.snd heq
    simp only [Job.finished.injEq] at this
    exact this.2.2.2.symm
  subst hresult
  exact hs.kept hmem

/-- A prune reads the directory and removes what it would. -/
def Prunes : ReportAct κ → Prop
  | .prune _ readable unlinks => readable = true ∧ ∀ f, unlinks f = true
  | _ => True

/-- What the directory holds, by the last prune. -/
def Reports.Left (s : Reports κ) : Prop :=
  match s.prunedAt with
  | none => tarballs s.dir = s.history
  | some m => m ≤ s.history.length ∧ tarballs s.dir = left (RETENTION - 1) m s.history

/-- The registry has no part in what the directory holds. -/
theorem Reports.settle_dir {s t : Reports κ} {jobId : κ} {finishedAt : String} {outcome : Except String BugReportResult}
    (h : s.settle jobId finishedAt outcome = some t) :
    t.dir = s.dir ∧ t.history = s.history ∧ t.prunedAt = s.prunedAt := by
  obtain ⟨registry, -, rfl⟩ := Option.map_eq_some_iff.1 h
  exact ⟨rfl, rfl, rfl⟩

omit [DecidableEq κ] in
theorem Reports.Left.of_same {s t : Reports κ} (hs : s.Left)
    (h : t.dir = s.dir ∧ t.history = s.history ∧ t.prunedAt = s.prunedAt) : t.Left := by
  rw [Reports.Left, h.1, h.2.1, h.2.2]
  exact hs

theorem Reports.Left.prune {s : Reports κ} (hl : s.Left) (hs : s.Inv) (jobId : κ) {unlinks : String → Bool}
    (hunlinks : ∀ f, unlinks f = true) :
    ({ s with dir := pruneOldReports true unlinks (RETENTION - 1) s.dir, inFlight := some (jobId, .pruned),
              prunedAt := some s.history.length } : Reports κ).Left := by
  have hkeeps : (fun f => !((toRemove (listTarballs true s.dir) (RETENTION - 1)).contains f && unlinks f)) =
      fun f => !(toRemove (tarballs s.dir) (RETENTION - 1)).contains f := by
    funext f
    rw [hunlinks, Bool.and_true]
    rfl
  refine ⟨Nat.le_refl _, ?_⟩
  rw [Retention.left_length, pruneOldReports, hkeeps, tarballs_filter hs.nodup,
    filter_not_toRemove ((pairwise_tarballs hs.nodup).imp Before.ne)]
  unfold Reports.Left at hl
  split at hl
  · rw [hl]
  · rw [hl.2, Retention.rtake_left]

theorem Reports.Left.put {s : Reports κ} (hl : s.Left) (hs : s.Inv) {name : String}
    (hlater : isTarball name = true → ∀ f ∈ s.history, Before f name) :
    ({ s with dir := s.dir ++ [name], history := if isTarball name then s.history ++ [name] else s.history } :
      Reports κ).Left := by
  cases hname : isTarball name with
  | false =>
    have hsame : tarballs (s.dir ++ [name]) = tarballs s.dir := tarballs_append_other hname
    simpa only [Reports.Left, hsame, Bool.false_eq_true, if_false] using hl
  | true =>
    have happend := tarballs_append hs.nodup hname (fun f hf => hlater hname f (hs.retains.sublist.subset hf))
    unfold Reports.Left at hl ⊢
    dsimp only
    rw [happend, if_pos rfl]
    split at hl
    · rw [hl]
    · exact ⟨hl.1.trans (by simp), by rw [hl.2, Retention.left_add hl.1]⟩

theorem reportsStep_left {env : ReportEnv} (s : Reports κ) (a : ReportAct κ) (t : Reports κ) (hs : s.Inv ∧ s.Left)
    (hg : Chronological s a ∧ Prunes a) (h : reportsStep env s a = some t) : t.Inv ∧ t.Left := by
  refine ⟨reportsStep_inv s a t hs.1 hg.1 h, ?_⟩
  cases a with
  | start jobId startedAt =>
    obtain ⟨registry, -, rfl⟩ := Option.map_eq_some_iff.1 h
    split <;> exact hs.2.of_same ⟨rfl, rfl, rfl⟩
  | prune jobId readable unlinks =>
    obtain ⟨rfl, hunlinks⟩ := hg.2
    simp only [reportsStep] at h
    split at h
    · split at h
      · cases h
        exact hs.2.prune hs.1 jobId hunlinks
      · cases h
    · cases h
  | put name =>
    simp only [reportsStep] at h
    split at h
    · cases h
    · cases h
      exact hs.2.put hs.1 hg.1
  | list jobId readable =>
    simp only [reportsStep] at h
    split at h
    · split at h
      · cases h
        exact hs.2.of_same ⟨rfl, rfl, rfl⟩
      · cases h
    · cases h
  | finish jobId finishedAt run =>
    simp only [reportsStep] at h
    split at h
    · split at h
      · obtain ⟨outcome, -, h⟩ := Option.bind_eq_some_iff.1 h
        obtain ⟨u, hu, rfl⟩ := Option.map_eq_some_iff.1 h
        obtain ⟨hdir, hhistory, hpruned⟩ := Reports.settle_dir hu
        exact hs.2.of_same ⟨hdir, hhistory, hpruned⟩
      · cases h
    · cases h
  | missing jobId finishedAt what durationMs =>
    simp only [reportsStep] at h
    split at h
    · split at h
      · exact hs.2.of_same (Reports.settle_dir h)
      · cases h
    · cases h
  | throw jobId finishedAt message =>
    simp only [reportsStep] at h
    split at h
    · split at h
      · exact hs.2.of_same (Reports.settle_dir h)
      · cases h
    · cases h

/-- **What the directory holds**, in a run whose prunes succeed: after the first of them the four tarballs that were the
newest at the last one, and those put since, and nothing else. -/
theorem reports_left {env : ReportEnv} {dir : List String} {acts : List (ReportAct κ)} {s : Reports κ} (hdir : dir.Nodup)
    (hrun : exec (reportsStep env) (.init dir) acts = some s)
    (hguard : Steps.Guarded (reportsStep env) Chronological (.init dir) acts) (hprunes : ∀ a ∈ acts, Prunes a) {m : Nat}
    (hm : s.prunedAt = some m) :
    tarballs s.dir = (s.history.take m).rtake (RETENTION - 1) ++ s.history.drop m ∧
      (tarballs s.dir).length ≤ (RETENTION - 1) + (s.history.length - m) := by
  obtain ⟨-, hleft⟩ := exec_inv (I := fun s => s.Inv ∧ s.Left) reportsStep_left acts _ _
    ⟨Reports.inv_init hdir, rfl⟩ (hguard.and_forall hprunes) hrun
  unfold Reports.Left at hleft
  rw [hm] at hleft
  exact ⟨hleft.2, by rw [hleft.2]; exact Retention.length_left_le _ _ _⟩

end

def containerEnv : ReportEnv := ⟨"/host-bin", "/data/bug-reports", "600000"⟩

def rootMount : Text := "31 20 8:1 /home/pi / rw".toList

/-- A script that ends well. -/
def collected : RunEnd := ⟨some rootMount, some rootMount, [.close (some 0)], true, .ok 4096, 9000⟩

/-- Two jobs; the script of the first, given up, puts its tarball while the second runs. -/
def lateTarball : List (ReportAct Nat) :=
  [.start 1 "08:00", .prune 1 true (fun _ => true), .list 1 true,
    .finish 1 "08:10" { collected with events := [.timer] },
    .start 2 "08:20", .prune 2 true (fun _ => true), .list 2 true,
    .put "signalk-bug-report-0800.tar.gz", .put "signalk-bug-report-0820.tar.gz", .finish 2 "08:25" collected]

def lateJob : Nat × Job BugReportResult :=
  (2, .finished true "08:20" "08:25"
    (.success "/data/bug-reports/signalk-bug-report-0820.tar.gz" "signalk-bug-report-0820.tar.gz" 4096 9000))

theorem reports_kept_late : ∃ s : Reports Nat, exec (reportsStep containerEnv) (.init []) lateTarball = some s ∧
    ∃ r ∈ s.reported, r.jobId = 2 ∧ r.mark < r.seen := by
  have hjob : (exec (reportsStep containerEnv) (.init []) lateTarball).any (fun s => s.registry.jobs.contains lateJob) = true := by
    decide +kernel
  cases hrun : exec (reportsStep containerEnv) (.init []) lateTarball with
  | none => rw [hrun] at hjob; cases hjob
  | some s =>
    rw [hrun] at hjob
    obtain ⟨r, hr, hid, -, hlt, -⟩ := reports_kept List.nodup_nil hrun (by decide +kernel) (List.contains_iff_mem.1 hjob)
    exact ⟨s, rfl, r, hr, hid, hlt⟩

theorem reports_left_late : ∃ s : Reports Nat, exec (reportsStep containerEnv) (.init []) lateTarball = some s ∧
    (tarballs s.dir).length ≤ 6 := by
  have hpruned : (exec (reportsStep containerEnv) (.init []) lateTarball).any
      (fun s => s.prunedAt == some 0 && s.history.length == 2) = true := by decide +kernel
  cases hrun : exec (reportsStep containerEnv) (.init []) lateTarball with
  | none => rw [hrun] at hpruned; cases hpruned
  | some s =>
    rw [hrun] at hpruned
    obtain ⟨hm, hlength⟩ := Bool.and_eq_true_iff.1 hpruned
    have hprunes : ∀ a ∈ lateTarball, Prunes a := by simp [lateTarball, Prunes]
    have hbound := (reports_left List.nodup_nil hrun (by decide +kernel) hprunes (eq_of_beq hm)).2
    rw [eq_of_beq hlength] at hbound
    exact ⟨s, rfl, hbound⟩

end BugReport
end SignalkDoctor
