import Mathlib.Data.List.DropRight
import SignalkDoctor.HealJobs
import SignalkDoctor.LastItems
import SignalkDoctor.Steps
/-!
# JobRuns — the runs of a job registry (`src/drift/heal-jobs.ts`, `src/bug-report-jobs.ts`)

The heals and the bug reports are run as jobs of two registries of one make.  A run of a registry is any sequence of
starts and of settlements of the work that was started (`registryStep`).  `RegistryRun.Inv` says that the map is what the
history of starts and settlements makes it: the last eight jobs created, each running until its own settlement and
with its own result after it, and that at most the last one created has not settled.

`registries_kept` reads from it what a user of the map relies on.
-/
namespace SignalkDoctor
namespace HealJobs

open LastItems (map_rtake mem_of_mem_rtake rtake_rtake_append)
open Steps (exec exec_inv')

/-! ## The bug reports -/

inductive BugReportReason where
  | hostBinMissing | hostScriptMissing | hostPathResolutionFailed | spawnFailed | timeout | nonzeroExit | noOutput
  | unsupportedFlag
  deriving DecidableEq, Repr

inductive BugReportResult where
  | success (path filename : String) (sizeBytes durationMs : Nat)
  | failure (reason : BugReportReason) (detail : String) (stderr : Option String) (exitCode : Option Int)
      (durationMs : Nat)
  deriving DecidableEq, Repr

def bugReportOk : BugReportResult → Bool
  | .success .. => true
  | .failure .. => false

/-- What `generateBugReport` settles with: a result or the message of a rejection. -/
def settledBugReport : Except String BugReportResult → BugReportResult
  | .ok r => r
  | .error message => .failure .spawnFailed message none none 0

variable {κ ρ ω : Type} [DecidableEq κ]

def startBugReportJob (jobs : Jobs κ BugReportResult) (jobId : κ) (startedAt : String) :
    StartResult κ × Jobs κ BugReportResult :=
  startJob jobs jobId startedAt

/-- A result is set under `done` or `error`, as its `ok` says. -/
def finalizeBugReportJob (jobs : Jobs κ BugReportResult) (jobId : κ) (finishedAt : String)
    (settled : Except String BugReportResult) : Jobs κ BugReportResult :=
  finalize bugReportOk jobs jobId finishedAt (settledBugReport settled)

/-! ## Runs -/

/-- **A job registry**: how a start and a settlement rewrite its map, `ok` and `resultOf` by what a settlement enters. -/
structure JobRegistry (κ ρ ω : Type) [DecidableEq κ] where
  ok : ρ → Bool
  resultOf : ω → ρ
  start : Jobs κ ρ → κ → String → StartResult κ × Jobs κ ρ
  settle : Jobs κ ρ → κ → String → ω → Jobs κ ρ
  start_eq : start = startJob
  settle_eq : ∀ jobs jobId finishedAt settled, settle jobs jobId finishedAt settled = finalize ok jobs jobId finishedAt (resultOf settled)

/-- The heals; `run()` throwing at once settles as a rejection. -/
def healRegistry (κ : Type) [DecidableEq κ] : JobRegistry κ Heal.HealResult (Except String Heal.HealResult) :=
  ⟨resultOk, settledResult, startHealJob, finalizeHealJob, rfl, fun _ _ _ _ => rfl⟩

def bugReportRegistry (κ : Type) [DecidableEq κ] : JobRegistry κ BugReportResult (Except String BugReportResult) :=
  ⟨bugReportOk, settledBugReport, startBugReportJob, finalizeBugReportJob, rfl, fun _ _ _ _ => rfl⟩

/-- The map of a registry, the ids whose work is in flight, and the history: the jobs created, with their start times, and
the settlements, with what they entered. -/
structure RegistryRun (κ ρ : Type) where
  jobs : Jobs κ ρ
  inFlight : List κ
  created : List (κ × String)
  settled : List (κ × String × ρ)

def RegistryRun.init (κ ρ : Type) : RegistryRun κ ρ := ⟨[], [], [], []⟩

inductive RegistryAct (κ ω : Type) where
  /-- A start; `jobId` is the id it draws if it needs one. -/
  | start (jobId : κ) (startedAt : String)
  /-- The work of a job settles. -/
  | settle (jobId : κ) (finishedAt : String) (outcome : ω)

def registryStep (R : JobRegistry κ ρ ω) (s : RegistryRun κ ρ) : RegistryAct κ ω → Option (RegistryRun κ ρ)
  | .start jobId startedAt =>
    if jobId ∈ s.created.map Prod.fst then none
    else
      let (res, jobs) := R.start s.jobs jobId startedAt
      if res.reused then some { s with jobs }
      else
        some { s with jobs, inFlight := s.inFlight ++ [jobId], created := s.created ++ [(jobId, startedAt)] }
  | .settle jobId finishedAt outcome =>
    if jobId ∈ s.inFlight then
      some { s with
        jobs := R.settle s.jobs jobId finishedAt outcome
        inFlight := s.inFlight.erase jobId
        settled := s.settled ++ [(jobId, finishedAt, R.resultOf outcome)] }
    else none

/-- What the history says of a created job. -/
def jobOf (ok : ρ → Bool) (settled : List (κ × String × ρ)) (c : κ × String) : κ × Job ρ :=
  (c.1, match settled.lookup c.1 with
    | none => .running c.2
    | some (finishedAt, result) => .finished (ok result) c.2 finishedAt result)

/-- **The map is what the history makes it**, and at most the last job created is in flight. -/
structure RegistryRun.Inv (R : JobRegistry κ ρ ω) (s : RegistryRun κ ρ) : Prop where
  jobs : s.jobs = (s.created.rtake maxJobs).map (jobOf R.ok s.settled)
  created : (s.created.map Prod.fst).Nodup
  settled : (s.settled.map Prod.fst).Nodup
  settled_created : ∀ id ∈ s.settled.map Prod.fst, id ∈ s.created.map Prod.fst
  inFlight : ∀ id, id ∈ s.inFlight ↔ id ∈ s.created.map Prod.fst ∧ id ∉ s.settled.map Prod.fst
  last : s.inFlight = [] ∨ ∃ earlier id startedAt, s.created = earlier ++ [(id, startedAt)] ∧ s.inFlight = [id]

/-! ## The map -/

omit [DecidableEq κ] in
theorem pruneJobs_eq : ∀ jobs : Jobs κ ρ, pruneJobs jobs = jobs.rtake maxJobs
  | [] => by simp [pruneJobs]
  | job :: jobs => by
    rw [pruneJobs]
    split
    · rename_i hlen
      have hdrop : (job :: jobs).length - maxJobs = jobs.length - maxJobs + 1 := by
        simp only [List.length_cons, maxJobs] at hlen ⊢
        omega
      rw [pruneJobs_eq jobs, List.rtake, List.rtake, hdrop, List.drop_succ_cons]
    · rename_i hlen
      rw [List.rtake, Nat.sub_eq_zero_of_le (by omega), List.drop_zero]

theorem lookup_eq_none_of_not_mem {β : Type} {l : List (κ × β)} {k : κ} (h : k ∉ l.map Prod.fst) : l.lookup k = none := by
  rw [List.lookup_eq_none_iff]
  intro p hp
  have hne : k ≠ p.1 := fun e => h (e ▸ List.mem_map_of_mem hp)
  simpa using hne

theorem lookup_of_mem {β : Type} : ∀ {l : List (κ × β)} {k : κ} {b : β}, (l.map Prod.fst).Nodup → (k, b) ∈ l →
    l.lookup k = some b
  | (a, c) :: l, k, b, hnd, hm => by
    rw [List.map_cons, List.nodup_cons] at hnd
    rw [List.lookup_cons]
    rcases List.mem_cons.1 hm with heq | hmem
    · cases heq
      simp
    · have hne : (k == a) = false := by
        rw [beq_eq_false_iff_ne]
        rintro rfl
        exact hnd.1 (List.mem_map.2 ⟨_, hmem, rfl⟩)
      rw [hne]
      exact lookup_of_mem hnd.2 hmem

omit [DecidableEq κ] in
theorem nodup_concat_fst {β : Type} {l : List (κ × β)} {k : κ} {b : β} (h : (l.map Prod.fst).Nodup)
    (hk : k ∉ l.map Prod.fst) : ((l ++ [(k, b)]).map Prod.fst).Nodup := by
  rw [List.map_append, List.map_singleton, List.nodup_append]
  refine ⟨h, by simp, fun a ha b hb e => hk ?_⟩
  rw [List.mem_singleton] at hb
  rw [e, hb] at ha
  exact ha

theorem jobOf_running {ok : ρ → Bool} {settled : List (κ × String × ρ)} {c : κ × String}
    (h : c.1 ∉ settled.map Prod.fst) : jobOf ok settled c = (c.1, .running c.2) := by
  rw [jobOf, lookup_eq_none_of_not_mem h]

theorem jobOf_finished {ok : ρ → Bool} {settled : List (κ × String × ρ)} {c : κ × String} {finishedAt : String} {result : ρ}
    (hnd : (settled.map Prod.fst).Nodup) (h : (c.1, finishedAt, result) ∈ settled) :
    jobOf ok settled c = (c.1, .finished (ok result) c.2 finishedAt result) := by
  rw [jobOf, lookup_of_mem hnd h]

/-- A settlement of another job changes nothing for a job. -/
theorem jobOf_append {ok : ρ → Bool} {settled : List (κ × String × ρ)} {c : κ × String} {e : κ × String × ρ}
    (h : c.1 ≠ e.1) : jobOf ok (settled ++ [e]) c = jobOf ok settled c := by
  have hne : (c.1 == e.1) = false := by simpa using h
  rw [jobOf, jobOf, List.lookup_append, List.lookup_cons, hne, List.lookup_nil, Option.or_none]

omit [DecidableEq κ] in
theorem findRunningJob_append (jobs : Jobs κ ρ) (j : κ × Job ρ) (h : ∀ k ∈ jobs, ∀ t, k.2 ≠ .running t) :
    findRunningJob (jobs ++ [j]) = findRunningJob [j] := by
  have hnone : findRunningJob jobs = none := by
    rw [findRunningJob, List.findSome?_eq_none_iff]
    intro k hk
    split
    · rename_i t ht
      exact absurd ht (h k hk t)
    · rfl
  rw [findRunningJob, List.findSome?_append]
  rw [findRunningJob] at hnone
  rw [hnone, Option.none_or]
  rfl

section
variable {R : JobRegistry κ ρ ω} {s t : RegistryRun κ ρ}

/-- A job that is created and not in flight has settled. -/
theorem RegistryRun.Inv.settled_of_not_inFlight (hs : s.Inv R) {id : κ} (hc : id ∈ s.created.map Prod.fst)
    (hn : id ∉ s.inFlight) : id ∈ s.settled.map Prod.fst := by
  by_contra hno
  exact hn ((hs.inFlight id).2 ⟨hc, hno⟩)

theorem jobOf_ne_running {ok : ρ → Bool} {settled : List (κ × String × ρ)} {c : κ × String}
    (h : c.1 ∈ settled.map Prod.fst) (t : String) : (jobOf ok settled c).2 ≠ .running t := by
  have hsome : (settled.lookup c.1).isSome = true := by
    rw [Option.isSome_iff_ne_none]
    intro hnone
    obtain ⟨p, hp, hpc⟩ := List.mem_map.1 h
    have := List.lookup_eq_none_iff.1 hnone p hp
    simp [hpc] at this
  obtain ⟨e, he⟩ := Option.isSome_iff_exists.1 hsome
  rw [jobOf, he]
  simp

/-- **The running job of the map is the one in flight.** -/
theorem RegistryRun.Inv.findRunningJob_eq (hs : s.Inv R) :
    (s.inFlight = [] ∧ findRunningJob s.jobs = none) ∨
      ∃ earlier id startedAt, s.created = earlier ++ [(id, startedAt)] ∧ s.inFlight = [id] ∧
        id ∉ s.settled.map Prod.fst ∧ findRunningJob s.jobs = some (id, startedAt) := by
  rcases hs.last with hnil | ⟨earlier, id, startedAt, hc, hf⟩
  · refine .inl ⟨hnil, ?_⟩
    rw [findRunningJob, List.findSome?_eq_none_iff, hs.jobs]
    intro j hj
    obtain ⟨c, hcm, rfl⟩ := List.mem_map.1 hj
    have hset : c.1 ∈ s.settled.map Prod.fst :=
      hs.settled_of_not_inFlight (List.mem_map_of_mem (mem_of_mem_rtake hcm)) (by simp [hnil])
    split
    · rename_i t ht
      exact absurd ht (jobOf_ne_running hset t)
    · rfl
  · have hnot : id ∉ s.settled.map Prod.fst := ((hs.inFlight id).1 (by simp [hf])).2
    refine .inr ⟨earlier, id, startedAt, hc, hf, hnot, ?_⟩
    rw [hs.jobs, hc, show maxJobs = 7 + 1 from rfl, List.rtake_concat_succ, List.map_append, List.map_singleton,
      findRunningJob_append, jobOf_running hnot]
    · rfl
    · intro j hj t
      obtain ⟨c, hcm, rfl⟩ := List.mem_map.1 hj
      have hmem : c.1 ∈ earlier.map Prod.fst := List.mem_map_of_mem (mem_of_mem_rtake hcm)
      have hne : c.1 ≠ id := by
        have hnd := hs.created
        rw [hc, List.map_append, List.nodup_append] at hnd
        exact hnd.2.2 _ hmem _ (by simp)
      refine jobOf_ne_running (hs.settled_of_not_inFlight ?_ (by simp [hf, hne])) t
      rw [hc, List.map_append]
      exact List.mem_append_left _ hmem

/-- The starts and settlements, by what they do to the run. -/
theorem registryStep_cases {a : RegistryAct κ ω} (hs : s.Inv R) (h : registryStep R s a = some t) :
    (∃ jobId startedAt, a = .start jobId startedAt ∧ s.inFlight ≠ [] ∧ t = s) ∨
      (∃ jobId startedAt, a = .start jobId startedAt ∧ jobId ∉ s.created.map Prod.fst ∧ s.inFlight = [] ∧
        t = { s with jobs := (s.jobs ++ [(jobId, Job.running startedAt)]).rtake maxJobs, inFlight := [jobId],
                     created := s.created ++ [(jobId, startedAt)] }) ∨
      ∃ jobId finishedAt outcome, a = .settle jobId finishedAt outcome ∧ s.inFlight = [jobId] ∧
        t = { s with jobs := finalize R.ok s.jobs jobId finishedAt (R.resultOf outcome), inFlight := [],
                     settled := s.settled ++ [(jobId, finishedAt, R.resultOf outcome)] } := by
  cases a with
  | start jobId startedAt =>
    simp only [registryStep, R.start_eq, startJob] at h
    split at h
    · cases h
    rename_i hfresh
    rcases hs.findRunningJob_eq with ⟨hnil, hnone⟩ | ⟨earlier, id, at', hc, hf, hnot, hsome⟩
    · simp only [hnone, Bool.false_eq_true, if_false, Option.some.injEq] at h
      refine .inr (.inl ⟨jobId, startedAt, rfl, hfresh, hnil, ?_⟩)
      rw [← h, hnil, pruneJobs_eq]
      rfl
    · simp only [hsome, if_true, Option.some.injEq] at h
      exact .inl ⟨jobId, startedAt, rfl, by simp [hf], h.symm⟩
  | settle jobId finishedAt outcome =>
    simp only [registryStep, R.settle_eq] at h
    split at h
    · rename_i hin
      simp only [Option.some.injEq] at h
      rcases hs.last with hnil | ⟨earlier, id, at', hc, hf⟩
      · rw [hnil] at hin
        cases hin
      · rw [hf, List.mem_singleton] at hin
        subst hin
        exact .inr (.inr ⟨jobId, finishedAt, outcome, rfl, hf, by rw [← h, hf]; simp⟩)
    · cases h

theorem RegistryRun.inv_init : (RegistryRun.init κ ρ).Inv R where
  jobs := by simp [RegistryRun.init]
  created := List.nodup_nil
  settled := List.nodup_nil
  settled_created := fun id h => by simp [RegistryRun.init] at h
  inFlight := fun id => by simp [RegistryRun.init]
  last := .inl rfl

/-- **A created job enters the window.** -/
theorem RegistryRun.Inv.create (hs : s.Inv R) {jobId : κ} {startedAt : String} (hfresh : jobId ∉ s.created.map Prod.fst)
    (hnil : s.inFlight = []) :
    ({ s with jobs := (s.jobs ++ [(jobId, Job.running startedAt)]).rtake maxJobs, inFlight := [jobId],
              created := s.created ++ [(jobId, startedAt)] } : RegistryRun κ ρ).Inv R := by
  have hnot : jobId ∉ s.settled.map Prod.fst := fun h => hfresh (hs.settled_created _ h)
  refine ⟨?_, ?_, hs.settled, fun id h => ?_, fun id => ?_, .inr ⟨s.created, jobId, startedAt, rfl, rfl⟩⟩
  · have hwindow := rtake_rtake_append (s.created.map (jobOf R.ok s.settled)) [(jobId, Job.running startedAt)] maxJobs
    show (s.jobs ++ [(jobId, Job.running startedAt)]).rtake maxJobs =
      ((s.created ++ [(jobId, startedAt)]).rtake maxJobs).map (jobOf R.ok s.settled)
    rw [hs.jobs, ← map_rtake, ← map_rtake, List.map_append, List.map_singleton, jobOf_running hnot]
    exact hwindow
  · exact nodup_concat_fst hs.created hfresh
  · rw [List.map_append]
    exact List.mem_append_left _ (hs.settled_created id h)
  · have hold := hs.inFlight id
    simp only [hnil, List.not_mem_nil, false_iff, not_and, not_not] at hold
    simp only [List.mem_singleton, List.map_append, List.map_singleton, List.mem_append]
    constructor
    · rintro rfl
      exact ⟨.inr rfl, hnot⟩
    · rintro ⟨h | h, hn⟩
      · exact absurd (hold h) hn
      · exact h

/-- **A settlement finishes its own job and no other.** -/
theorem RegistryRun.Inv.finish (hs : s.Inv R) {jobId : κ} {finishedAt : String} {result : ρ} (hf : s.inFlight = [jobId]) :
    ({ s with jobs := finalize R.ok s.jobs jobId finishedAt result, inFlight := [],
              settled := s.settled ++ [(jobId, finishedAt, result)] } : RegistryRun κ ρ).Inv R := by
  obtain ⟨hcreated, hnot⟩ := (hs.inFlight jobId).1 (by simp [hf])
  have hnd : ((s.settled ++ [(jobId, finishedAt, result)]).map Prod.fst).Nodup := nodup_concat_fst hs.settled hnot
  refine ⟨?_, hs.created, hnd, fun id h => ?_, fun id => ?_, .inl rfl⟩
  · simp only [finalize, hs.jobs, List.map_map]
    refine List.map_congr_left (fun c _ => ?_)
    by_cases hc : c.1 = jobId
    · have hmem : (c.1, finishedAt, result) ∈ s.settled ++ [(jobId, finishedAt, result)] := by simp [hc]
      rw [jobOf_finished hnd hmem]
      simp only [Function.comp_apply, jobOf_running (hc ▸ hnot : c.1 ∉ s.settled.map Prod.fst), hc, if_true, Job.startedAt]
    · rw [jobOf_append hc, Function.comp_apply, if_neg (show (jobOf R.ok s.settled c).1 ≠ jobId from hc)]
  · rw [List.map_append, List.map_singleton, List.mem_append, List.mem_singleton] at h
    rcases h with h | rfl
    · exact hs.settled_created id h
    · exact hcreated
  · have hold := hs.inFlight id
    simp only [hf, List.mem_singleton] at hold
    simp only [List.not_mem_nil, List.map_append, List.map_singleton, List.mem_append, List.mem_singleton, false_iff,
      not_and, not_not]
    intro hc
    by_cases h : id = jobId
    · exact .inr h
    · exact .inl (by_contra fun hn => h (hold.2 ⟨hc, hn⟩))

theorem registryStep_inv (s : RegistryRun κ ρ) (a : RegistryAct κ ω) (t : RegistryRun κ ρ) (hs : s.Inv R)
    (h : registryStep R s a = some t) : t.Inv R := by
  rcases registryStep_cases hs h with ⟨_, _, _, _, rfl⟩ | ⟨_, _, _, hfresh, hnil, rfl⟩ | ⟨_, _, _, _, hf, rfl⟩
  · exact hs
  · exact hs.create hfresh hnil
  · exact hs.finish hf

/-- The history of a run only grows. -/
theorem registryStep_history (s : RegistryRun κ ρ) (a : RegistryAct κ ω) (t : RegistryRun κ ρ) (hs : s.Inv R)
    (h : registryStep R s a = some t) : s.created <+: t.created ∧ s.settled <+: t.settled := by
  rcases registryStep_cases hs h with ⟨_, _, _, _, rfl⟩ | ⟨_, _, _, _, _, rfl⟩ | ⟨_, _, _, _, _, rfl⟩
  · exact ⟨List.prefix_rfl, List.prefix_rfl⟩
  · exact ⟨List.prefix_append .., List.prefix_rfl⟩
  · exact ⟨List.prefix_rfl, List.prefix_append ..⟩

end

/-! ## What the map is good for -/

/-- **What holds in a state of a run.** -/
structure RegistrySound (R : JobRegistry κ ρ ω) (s : RegistryRun κ ρ) : Prop where
  /-- The map holds the last eight jobs created, in the order of their creation. -/
  window : s.jobs.map Prod.fst = (s.created.map Prod.fst).rtake maxJobs
  running_unique : ∀ i j t u, (i, .running t) ∈ s.jobs → (j, .running u) ∈ s.jobs → i = j
  running_newest : ∀ i t, (i, .running t) ∈ s.jobs → s.created.getLast? = some (i, t)
  /-- A job is in the map, and running, as long as its work is in flight. -/
  inFlight_iff : ∀ i, i ∈ s.inFlight ↔ ∃ t, (i, .running t) ∈ s.jobs
  unsettled : ∀ c ∈ s.created, c.1 ∉ s.settled.map Prod.fst → (c.1, .running c.2) ∈ s.jobs
  /-- A start while a job runs gives that job and starts nothing. -/
  reused : ∀ i t jobId now, (i, .running t) ∈ s.jobs → R.start s.jobs jobId now = (⟨i, .running, t, true⟩, s.jobs) ∧
    ∀ u, registryStep R s (.start jobId now) = some u → u = s
  settled_once : (s.settled.map Prod.fst).Nodup
  settled_own : ∀ id finishedAt result job, (id, finishedAt, result) ∈ s.settled → (id, job) ∈ s.jobs →
    ∃ startedAt, (id, startedAt) ∈ s.created ∧ job = .finished (R.ok result) startedAt finishedAt result

/-- A finished job of the map stays as it is, as long as it is in the map. -/
def Unchanged (s t : RegistryRun κ ρ) : Prop :=
  ∀ id job job', (id, job) ∈ s.jobs → (id, job') ∈ t.jobs → job.status ≠ .running → job' = job

def RegistryKept (R : JobRegistry κ ρ ω) : Prop :=
  ∀ acts more s t, exec (registryStep R) (.init κ ρ) acts = some s → exec (registryStep R) s more = some t →
    RegistrySound R s ∧ Unchanged s t

section
variable {R : JobRegistry κ ρ ω} {s t : RegistryRun κ ρ}

theorem RegistryRun.Inv.mem_jobs (hs : s.Inv R) {id : κ} {job : Job ρ} (h : (id, job) ∈ s.jobs) :
    ∃ startedAt, (id, startedAt) ∈ s.created ∧ (id, job) = jobOf R.ok s.settled (id, startedAt) := by
  rw [hs.jobs] at h
  obtain ⟨c, hc, heq⟩ := List.mem_map.1 h
  have hid : c.1 = id := congrArg Prod.fst heq
  refine ⟨c.2, ?_, ?_⟩
  · rw [← hid]
    exact mem_of_mem_rtake hc
  · rw [← heq, ← hid]

/-- A running job of the map is the last one created, and in flight. -/
theorem RegistryRun.Inv.running_last (hs : s.Inv R) {id : κ} {startedAt : String} (h : (id, .running startedAt) ∈ s.jobs) :
    s.created.getLast? = some (id, startedAt) ∧ s.inFlight = [id] ∧ findRunningJob s.jobs = some (id, startedAt) := by
  obtain ⟨startedAt', hc, heq⟩ := hs.mem_jobs h
  have hnot : id ∉ s.settled.map Prod.fst := fun hset => jobOf_ne_running hset startedAt (congrArg Prod.snd heq).symm
  rw [jobOf_running hnot] at heq
  obtain rfl : startedAt = startedAt' := by simpa using heq
  have hin : id ∈ s.inFlight := (hs.inFlight id).2 ⟨List.mem_map_of_mem hc, hnot⟩
  rcases hs.findRunningJob_eq with ⟨hnil, -⟩ | ⟨earlier, id', at', hce, hf, -, hfind⟩
  · rw [hnil] at hin
    cases hin
  · rw [hf, List.mem_singleton] at hin
    subst hin
    obtain rfl : at' = startedAt := by
      have h1 := lookup_of_mem hs.created hc
      have h2 := lookup_of_mem hs.created (show (id, at') ∈ s.created by rw [hce]; simp)
      rw [h1, Option.some.injEq] at h2
      exact h2.symm
    exact ⟨by rw [hce, List.getLast?_concat], hf, hfind⟩

theorem RegistryRun.Inv.running_of_inFlight (hs : s.Inv R) {id : κ} (h : id ∈ s.inFlight) :
    ∃ startedAt, (id, startedAt) ∈ s.created ∧ (id, .running startedAt) ∈ s.jobs := by
  rcases hs.findRunningJob_eq with ⟨hnil, -⟩ | ⟨earlier, id', at', hc, hf, hnot, -⟩
  · rw [hnil] at h
    cases h
  · rw [hf, List.mem_singleton] at h
    subst h
    refine ⟨at', by rw [hc]; simp, ?_⟩
    rw [hs.jobs, hc, show maxJobs = 7 + 1 from rfl, List.rtake_concat_succ, List.map_append, List.map_singleton,
      jobOf_running hnot]
    simp

theorem RegistryRun.Inv.sound (hs : s.Inv R) : RegistrySound R s where
  window := by
    rw [hs.jobs, List.map_map, map_rtake]
    rfl
  running_unique := fun i j t u hi hj => by
    have h := (hs.running_last hi).1
    rw [(hs.running_last hj).1, Option.some.injEq, Prod.mk.injEq] at h
    exact h.1.symm
  running_newest := fun i t hi => (hs.running_last hi).1
  inFlight_iff := fun i => by
    constructor
    · intro h
      obtain ⟨startedAt, -, hrun⟩ := hs.running_of_inFlight h
      exact ⟨startedAt, hrun⟩
    · rintro ⟨t, hrun⟩
      rw [(hs.running_last hrun).2.1]
      exact List.mem_singleton.2 rfl
  unsettled := fun c hc hn => by
    obtain ⟨startedAt, hc', hrun⟩ := hs.running_of_inFlight ((hs.inFlight c.1).2 ⟨List.mem_map_of_mem hc, hn⟩)
    have h1 := lookup_of_mem hs.created hc
    rw [lookup_of_mem hs.created hc', Option.some.injEq] at h1
    rw [← h1]
    exact hrun
  reused := fun i t jobId now hrun => by
    obtain ⟨-, hf, hfind⟩ := hs.running_last hrun
    refine ⟨by rw [R.start_eq, startJob, hfind], fun u hu => ?_⟩
    rcases registryStep_cases hs hu with ⟨_, _, _, _, rfl⟩ | ⟨_, _, _, _, hnil, _⟩ | ⟨_, _, _, ha, _⟩
    · rfl
    · rw [hf] at hnil
      cases hnil
    · cases ha
  settled_once := hs.settled
  settled_own := fun id finishedAt result job hset hm => by
    obtain ⟨startedAt, hc, heq⟩ := hs.mem_jobs hm
    rw [jobOf_finished hs.settled hset] at heq
    exact ⟨startedAt, hc, congrArg Prod.snd heq⟩

/-- A history that has only grown says the same of a job that had finished. -/
theorem unchanged_of_history (hs : s.Inv R) (ht : t.Inv R) (hc : s.created <+: t.created) (he : s.settled <+: t.settled) :
    Unchanged s t := by
  intro id job job' hm hm' hstatus
  obtain ⟨startedAt, hcs, heq⟩ := hs.mem_jobs hm
  obtain ⟨startedAt', hct, heq'⟩ := ht.mem_jobs hm'
  have hsame := lookup_of_mem ht.created (hc.subset hcs)
  rw [lookup_of_mem ht.created hct, Option.some.injEq] at hsame
  subst hsame
  cases hlook : s.settled.lookup id with
  | none =>
    rw [jobOf, hlook] at heq
    cases heq
    exact absurd rfl hstatus
  | some e =>
    have hlook' : t.settled.lookup id = some e := by
      obtain ⟨more, hmore⟩ := he
      rw [← hmore, List.lookup_append, hlook, Option.some_or]
    rw [jobOf, hlook] at heq
    rw [jobOf, hlook', ← heq] at heq'
    exact congrArg Prod.snd heq'

theorem exec_history : ∀ (acts : List (RegistryAct κ ω)) (s t : RegistryRun κ ρ), s.Inv R →
    exec (registryStep R) s acts = some t → s.created <+: t.created ∧ s.settled <+: t.settled
  | [], s, t, _, h => by
    cases h
    exact ⟨List.prefix_rfl, List.prefix_rfl⟩
  | a :: acts, s, t, hs, h => by
    obtain ⟨u, hu, hut⟩ := Steps.exec_cons h
    obtain ⟨hc, he⟩ := registryStep_history s a u hs hu
    obtain ⟨hc', he'⟩ := exec_history acts u t (registryStep_inv s a u hs hu) hut
    exact ⟨hc.trans hc', he.trans he'⟩

theorem registryKept (R : JobRegistry κ ρ ω) : RegistryKept R := by
  intro acts more s t hs ht
  have hinv : s.Inv R := exec_inv' registryStep_inv acts _ s RegistryRun.inv_init hs
  have hinv' : t.Inv R := exec_inv' registryStep_inv more s t hinv ht
  obtain ⟨hc, he⟩ := exec_history more s t hinv ht
  exact ⟨hinv.sound, unchanged_of_history hinv hinv' hc he⟩

end

/-- **Neither registry loses, doubles or strands a job**, over all sequences of starts and settlements. -/
theorem registries_kept (κ : Type) [DecidableEq κ] :
    RegistryKept (healRegistry κ) ∧ RegistryKept (bugReportRegistry κ) :=
  ⟨registryKept _, registryKept _⟩

/-- Ten jobs one after the other, with a start while each runs, all of whose work rejects. -/
def tenJobs (ρ : Type) : List (RegistryAct Nat (Except String ρ)) :=
  (List.range 10).flatMap (fun n => [.start n "s", .start (n + 100) "s", .settle n "f" (.error "boom")])

/-- Both maps hold the last eight of ten, and the next start drops one more. -/
theorem registries_kept_tenJobs :
    (∃ s t, exec (registryStep (healRegistry Nat)) (.init Nat Heal.HealResult) (tenJobs Heal.HealResult) = some s ∧
        exec (registryStep (healRegistry Nat)) s [.start 10 "s"] = some t ∧
        s.jobs.map Prod.fst = [2, 3, 4, 5, 6, 7, 8, 9] ∧ t.jobs.map Prod.fst = [3, 4, 5, 6, 7, 8, 9, 10] ∧
        RegistrySound (healRegistry Nat) s ∧ Unchanged s t) ∧
      ∃ s t, exec (registryStep (bugReportRegistry Nat)) (.init Nat BugReportResult) (tenJobs BugReportResult) = some s ∧
        exec (registryStep (bugReportRegistry Nat)) s [.start 10 "s"] = some t ∧
        s.jobs.map Prod.fst = [2, 3, 4, 5, 6, 7, 8, 9] ∧ t.jobs.map Prod.fst = [3, 4, 5, 6, 7, 8, 9, 10] ∧
        RegistrySound (bugReportRegistry Nat) s ∧ Unchanged s t := by
  constructor
  · exact ⟨_, _, rfl, rfl, rfl, rfl, (registries_kept Nat).1 (tenJobs _) [.start 10 "s"] _ _ rfl rfl⟩
  · exact ⟨_, _, rfl, rfl, rfl, rfl, (registries_kept Nat).2 (tenJobs _) [.start 10 "s"] _ _ rfl rfl⟩

end HealJobs
end SignalkDoctor
