import SignalkDoctor.BugReport
import SignalkDoctor.JobClients
/-!
# ReportClients — the consoles that wait for a bug report (`webapp/src/api.ts`, `src/routes/bug-report.ts`)

The server of `JobClients` with the registry and the directory of `BugReport`: a download streams the file its job reported,
which later reports remove.  `report_downloaded` is when a console gets it.
-/
namespace SignalkDoctor
namespace ReportClients

open BugReport
open HealJobs (BugReportResult Job RegistryRun bugReportRegistry registryStep)
open JobClients (Comes Ended Forgotten Net NetAct Poll Polls Site netStep pollIntervalMs pollTimeoutMs)
open Steps (exec exec_inv)

section
variable {κ : Type} [DecidableEq κ]

/-- `createReadStream(job.result.path)` finds the file. -/
def streams (s : Reports κ) (jobId : κ) : Bool :=
  match s.registry.jobs.lookup jobId with
  | some (.finished _ _ _ (.success _ filename _ _)) => s.dir.contains filename
  | _ => false

theorem settle_registry {s t : Reports κ} {jobId : κ} {finishedAt : String} {result : Except String BugReportResult}
    (h : s.settle jobId finishedAt result = some t) :
    registryStep (bugReportRegistry κ) s.registry (.settle jobId finishedAt result) = some t.registry := by
  obtain ⟨registry, hstep, rfl⟩ := Option.map_eq_some_iff.1 h
  exact hstep

theorem start_registry {env : ReportEnv} {s t : Reports κ} {jobId : κ} {startedAt : String}
    (h : reportsStep env s (.start jobId startedAt) = some t) :
    registryStep (bugReportRegistry κ) s.registry (.start jobId startedAt) = some t.registry := by
  obtain ⟨registry, hstep, rfl⟩ := Option.map_eq_some_iff.1 h
  rw [hstep]
  split <;> rfl

/-- **Of the report in flight the registry sees the start and the settlement.** -/
theorem reportsStep_registry {env : ReportEnv} {s t : Reports κ} {a : ReportAct κ} (h : reportsStep env s a = some t) :
    t.registry = s.registry ∨ ∃ b, registryStep (bugReportRegistry κ) s.registry b = some t.registry := by
  cases a with
  | start jobId startedAt => exact .inr ⟨_, start_registry h⟩
  | missing jobId finishedAt what durationMs =>
    simp only [reportsStep] at h
    split at h
    · split at h
      · exact .inr ⟨_, settle_registry h⟩
      · cases h
    · cases h
  | prune jobId readable unlinks =>
    simp only [reportsStep] at h
    split at h
    · split at h
      · cases h
        exact .inl rfl
      · cases h
    · cases h
  | list jobId readable =>
    simp only [reportsStep] at h
    split at h
    · split at h
      · cases h
        exact .inl rfl
      · cases h
    · cases h
  | finish jobId finishedAt run =>
    simp only [reportsStep] at h
    split at h
    · split at h
      · obtain ⟨result, -, h⟩ := Option.bind_eq_some_iff.1 h
        obtain ⟨u, hu, rfl⟩ := Option.map_eq_some_iff.1 h
        have hsettled := settle_registry hu
        exact .inr ⟨_, hsettled⟩
      · cases h
    · cases h
  | throw jobId finishedAt message =>
    simp only [reportsStep] at h
    split at h
    · split at h
      · exact .inr ⟨_, settle_registry h⟩
      · cases h
    · cases h
  | put name =>
    simp only [reportsStep] at h
    split at h
    · cases h
    · cases h
      exact .inl rfl

/-- The server of the bug reports. -/
def reportSite (κ : Type) [DecidableEq κ] (env : ReportEnv) :
    Site κ BugReportResult (Except String BugReportResult) (Reports κ) (ReportAct κ) where
  R := bugReportRegistry κ
  registry := fun s => s.registry
  step := reportsStep env
  start := .start
  streams := streams
  step_start := start_registry
  step_registry := reportsStep_registry

/-- The host's script names its tarballs after those before. -/
def ChronologicalNet (s : Net κ BugReportResult (Reports κ)) : NetAct κ (ReportAct κ) → Prop
  | .site a => Chronological s.site a
  | _ => True

theorem netStep_inv {env : ReportEnv} (s : Net κ BugReportResult (Reports κ)) (a : NetAct κ (ReportAct κ))
    (t : Net κ BugReportResult (Reports κ)) (hs : s.site.Inv) (hg : ChronologicalNet s a)
    (h : netStep (reportSite κ env) true s a = some t) : t.site.Inv := by
  cases a with
  | move c m =>
    obtain ⟨phase, -, rfl⟩ := Option.map_eq_some_iff.1 h
    exact hs
  | start c jobId startedAt =>
    simp only [netStep] at h
    split at h
    · obtain ⟨site, hstep, rfl⟩ := Option.map_eq_some_iff.1 h
      exact @reportsStep_inv κ _ env s.site (.start jobId startedAt) site hs trivial hstep
    · cases h
  | tick ms =>
    cases h
    exact hs
  | site a =>
    obtain ⟨site, hstep, rfl⟩ := Option.map_eq_some_iff.1 h
    exact @reportsStep_inv κ _ env s.site a site hs hg hstep

/-- A job that ended well, and is not forgotten, streams its tarball while that is there. -/
theorem streams_of_ended {s : Reports κ} (hs : s.Inv) {jobId : κ} {path filename : String} {size ms : Nat}
    (hended : Ended s.registry jobId (.success path filename size ms)) (hkept : ¬ Forgotten s.registry jobId)
    (hdir : filename ∈ s.dir) : streams s jobId = true := by
  obtain ⟨startedAt, finishedAt, hlookup⟩ := JobClients.lookup_of_ended hs.registry hended hkept
  rw [streams, hlookup]
  simpa using hdir

/-- **A console gets its tarball.**  In every interleaving of consoles, reports, prunes and tarballs, late ones too, each named
after those before it: a report that has ended well has reported the tarball that was the newest then; and while fewer than
four newer ones have come and fewer than eight jobs, a console that polls it with more than a sleep left comes to that
result by its own next steps in at most 2 s, if none of its messages is lost. -/
theorem report_downloaded {env : ReportEnv} {dir : List String} (hdir : dir.Nodup) {now : Nat}
    {acts : List (NetAct κ (ReportAct κ))} {s : Net κ BugReportResult (Reports κ)}
    (hrun : exec (netStep (reportSite κ env) true) (.init κ BugReportResult (.init dir) now) acts = some s)
    (hguard : Steps.Guarded (netStep (reportSite κ env) true) ChronologicalNet (.init κ BugReportResult (.init dir) now) acts)
    {c : Nat} {p : Poll κ} {path filename : String} {size ms : Nat}
    (hpolls : Polls (s.clients c) p) (hended : Ended s.site.registry p.jobId (.success path filename size ms))
    (hkept : ¬ Forgotten s.site.registry p.jobId) (htime : s.now + pollIntervalMs ≤ p.deadline) :
    ∃ r ∈ s.site.reported, r.jobId = p.jobId ∧ (s.site.history.take r.seen).getLast? = some filename ∧
      (s.site.history.length < r.seen + (RETENTION - 1) →
        Comes (reportSite κ env) true c s pollIntervalMs (.returned p.jobId (.success path filename size ms))) := by
  have hinit : ∀ now, (Net.init κ BugReportResult (.init dir : Reports κ) now).site.Inv := fun _ => Reports.inv_init hdir
  have hs : s.site.Inv := exec_inv (I := fun s => s.site.Inv) netStep_inv acts _ s (hinit now) hguard hrun
  obtain ⟨finishedAt, hsettled⟩ := hended
  obtain ⟨r, hr, hjob, -, -, -, hlast, hthere⟩ := hs.kept hsettled
  refine ⟨r, hr, hjob, hlast, fun hfew => ?_⟩
  have hstreams := streams_of_ended hs ⟨finishedAt, hsettled⟩ hkept (hthere hfew)
  exact (JobClients.run_ok rfl hrun).comes hpolls ⟨finishedAt, hsettled⟩ hkept (fun _ _ => hstreams) htime

end

instance (s : Net Nat BugReportResult (Reports Nat)) : ∀ a, Decidable (ChronologicalNet s a)
  | .site a => inferInstanceAs (Decidable (Chronological s.site a))
  | .move .. | .start .. | .tick _ => .isTrue trivial

/-- A console whose report has ended while it asks. -/
def askedReport : List (NetAct Nat (ReportAct Nat)) :=
  [.move 0 .post, .start 0 1 "08:00", .move 0 .receive, .site (.prune 1 true (fun _ => true)), .site (.list 1 true),
    .site (.put "signalk-bug-report-0800.tar.gz"), .tick 5000, .site (.finish 1 "08:02" collected)]

def askedResult : BugReportResult :=
  .success "/data/bug-reports/signalk-bug-report-0800.tar.gz" "signalk-bug-report-0800.tar.gz" 4096 9000

def askedNet (s : Net Nat BugReportResult (Reports Nat)) : Bool :=
  s.clients 0 == .asking ⟨1, pollTimeoutMs, 1⟩ && s.now == 5000 && s.site.history.length == 1 &&
    s.site.registry.settled == [(1, "08:02", askedResult)] && s.site.registry.created == [(1, "08:00")]

theorem report_downloaded_asked :
    ∃ s, exec (netStep (reportSite Nat containerEnv) true) (.init Nat BugReportResult (.init []) 0) askedReport = some s ∧
      Comes (reportSite Nat containerEnv) true 0 s 2000 (.returned 1 askedResult) := by
  have hnet : (exec (netStep (reportSite Nat containerEnv) true) (.init Nat BugReportResult (.init []) 0) askedReport).any
      askedNet = true := by decide +kernel
  cases hrun : exec (netStep (reportSite Nat containerEnv) true) (.init Nat BugReportResult (.init []) 0) askedReport with
  | none => rw [hrun] at hnet; cases hnet
  | some s =>
    rw [hrun] at hnet
    simp only [Option.any_some, askedNet, Bool.and_eq_true, beq_iff_eq] at hnet
    obtain ⟨⟨⟨⟨hclient, hnow⟩, hlength⟩, hsettled⟩, hcreated⟩ := hnet
    have hkept : ¬ Forgotten s.site.registry 1 := by
      rintro ⟨earlier, startedAt, later, heq, hlater⟩
      have hcount := congrArg List.length heq
      simp only [hcreated, List.length_append, List.length_cons, List.length_nil] at hcount
      have : HealJobs.maxJobs = 8 := rfl
      omega
    obtain ⟨r, -, -, hlast, hcomes⟩ := @report_downloaded Nat _ containerEnv [] List.nodup_nil 0 askedReport s hrun
      (by decide +kernel) 0 ⟨1, pollTimeoutMs, 1⟩ _ _ _ _ (.inl hclient) ⟨"08:02", by rw [hsettled]; exact List.mem_singleton.2 rfl⟩
      hkept (by rw [hnow]; decide)
    exact ⟨s, rfl, hcomes (by rw [hlength]; have : RETENTION = 5 := rfl; omega)⟩

end ReportClients
end SignalkDoctor
