import Mathlib.Logic.Function.Basic
import SignalkDoctor.JobRuns
/-!
# JobClients — the consoles that wait for a job (`webapp/src/api.ts`, the job routes)

A console posts a start, polls the job it was answered with, and for a bug report fetches the tarball in the end.  Any number
of them share a server, of which they see a registry and the tarballs (`Site`): `netStep` is any interleaving of their requests
and answers, of the server's own steps and the passing of time, with any message lost.

`job_answers` says what a console can be told, and `job_ends` that it is told when the job has ended.
-/
namespace SignalkDoctor
namespace JobClients

open Function (update)
open HealJobs (Job JobRegistry RegistryAct RegistryRun StartResult maxJobs registryStep)
open Steps (exec exec_inv')

def pollIntervalMs : Nat := 2000

def pollTimeoutMs : Nat := 11 * 60 * 1000

/-- A poll loop: its job, its deadline and the requests made. -/
structure Poll (κ : Type) where
  jobId : κ
  deadline : Nat
  polls : Nat
  deriving DecidableEq, Repr

/-- What a console throws. -/
inductive Failure (κ ρ : Type) where
  /-- A request that failed or was given up. -/
  | transport
  /-- The start was refused: no token, or a busy lock. -/
  | refused
  | unknownJob (jobId : κ)
  | jobFailed (jobId : κ) (result : ρ)
  /-- A download of a job that is not done. -/
  | notDone (jobId : κ)
  /-- A download of a done job whose tarball is no longer there. -/
  | gone (jobId : κ)
  | timedOut (jobId : κ)
  deriving DecidableEq, Repr

inductive Phase (κ ρ : Type) where
  | idle
  | posting
  | answered (started : StartResult κ)
  | asking (p : Poll κ)
  | told (answer : Option (Job ρ)) (p : Poll κ)
  | sleeping («until» : Nat) (p : Poll κ)
  | downloading (jobId : κ)
  /-- `streamed`: the tarball was there to be read. -/
  | fetched (answer : Option (Job ρ)) (streamed : Bool) (jobId : κ)
  | returned (jobId : κ) (result : ρ)
  | failed (failure : Failure κ ρ)
  deriving DecidableEq, Repr

/-- A server as the consoles meet it: its registry, what goes on in it, and the files its downloads read. -/
structure Site (κ ρ ω σ α : Type) [DecidableEq κ] where
  R : JobRegistry κ ρ ω
  registry : σ → RegistryRun κ ρ
  step : σ → α → Option σ
  /-- The start route, with the id it draws if it needs one. -/
  start : κ → String → α
  /-- The file that a download of the job streams is there. -/
  streams : σ → κ → Bool
  step_start : ∀ {s t jobId startedAt}, step s (start jobId startedAt) = some t →
    registryStep R (registry s) (.start jobId startedAt) = some (registry t)
  step_registry : ∀ {s t a}, step s a = some t →
    registry t = registry s ∨ ∃ b, registryStep R (registry s) b = some (registry t)

/-- A server that is its registry, and streams no file. -/
def Site.ofRegistry {κ ρ ω : Type} [DecidableEq κ] (R : JobRegistry κ ρ ω) :
    Site κ ρ ω (RegistryRun κ ρ) (RegistryAct κ ω) where
  R := R
  registry := id
  step := registryStep R
  start := .start
  streams := fun _ _ => true
  step_start := id
  step_registry := fun h => .inr ⟨_, h⟩

/-- The server, the clock and the consoles. -/
structure Net (κ ρ σ : Type) where
  site : σ
  now : Nat
  clients : Nat → Phase κ ρ

def Net.set {κ ρ σ : Type} (s : Net κ ρ σ) (c : Nat) (phase : Phase κ ρ) : Net κ ρ σ :=
  { s with clients := update s.clients c phase }

def Net.init (κ ρ : Type) {σ : Type} (site : σ) (now : Nat) : Net κ ρ σ := ⟨site, now, fun _ => .idle⟩

/-- A move of one console, or of a route that answers it. -/
inductive Move where
  /-- The start is sent. -/
  | post
  | refuse
  /-- The job asked for is read. -/
  | serve
  /-- The answer is read. -/
  | receive
  | lose
  /-- The sleep between two polls is over. -/
  | wake
  deriving DecidableEq, Repr

@[simp] theorem Net.set_clients {κ ρ σ : Type} {s : Net κ ρ σ} {c : Nat} {phase : Phase κ ρ} :
    (s.set c phase).clients c = phase := Function.update_self ..

@[simp] theorem Net.set_site {κ ρ σ : Type} {s : Net κ ρ σ} {c : Nat} {phase : Phase κ ρ} : (s.set c phase).site = s.site := rfl

@[simp] theorem Net.set_now {κ ρ σ : Type} {s : Net κ ρ σ} {c : Nat} {phase : Phase κ ρ} : (s.set c phase).now = s.now := rfl

inductive NetAct (κ α : Type) where
  | move (c : Nat) (m : Move)
  /-- The route starts a job for a console; `jobId` is the id it draws if it needs one. -/
  | start (c : Nat) (jobId : κ) (startedAt : String)
  | tick (ms : Nat)
  /-- A start by someone else, a settlement, or what else goes on in the server. -/
  | site (a : α)

variable {κ ρ ω σ α : Type}

/-- What the console does with what it was told; `download` for the bug report. -/
def afterPoll (download : Bool) (now : Nat) (p : Poll κ) : Option (Job ρ) → Phase κ ρ
  | none => .failed (.unknownJob p.jobId)
  | some (.running _) => .sleeping (now + pollIntervalMs) p
  | some (.finished ok _ _ result) =>
    if download then if ok then .downloading p.jobId else .failed (.jobFailed p.jobId result) else .returned p.jobId result

def afterDownload (streamed : Bool) (jobId : κ) : Option (Job ρ) → Phase κ ρ
  | none => .failed (.unknownJob jobId)
  | some (.running _) => .failed (.notDone jobId)
  | some (.finished ok _ _ result) =>
    if ok then if streamed then .returned jobId result else .failed (.gone jobId) else .failed (.notDone jobId)

/-- `while (Date.now() <= deadline)` -/
def afterSleep (now : Nat) (p : Poll κ) : Phase κ ρ :=
  if now ≤ p.deadline then .asking { p with polls := p.polls + 1 } else .failed (.timedOut p.jobId)

def Phase.isPosting : Phase κ ρ → Bool
  | .posting => true
  | _ => false

section
variable [DecidableEq κ]

def moveTo (download : Bool) (now : Nat) (jobs : List (κ × Job ρ)) (streams : κ → Bool) :
    Move → Phase κ ρ → Option (Phase κ ρ)
  | .post, .idle => some .posting
  | .refuse, .posting => some (.failed .refused)
  | .serve, .asking p => some (.told (jobs.lookup p.jobId) p)
  | .serve, .downloading jobId => some (.fetched (jobs.lookup jobId) (streams jobId) jobId)
  | .receive, .answered started => some (.asking ⟨started.jobId, now + pollTimeoutMs, 1⟩)
  | .receive, .told answer p => some (afterPoll download now p answer)
  | .receive, .fetched answer streamed jobId => some (afterDownload streamed jobId answer)
  | .wake, .sleeping «until» p => if «until» ≤ now then some (afterSleep now p) else none
  | .lose, .posting | .lose, .answered _ | .lose, .asking _ | .lose, .told .. | .lose, .downloading _ | .lose, .fetched .. =>
    some (.failed .transport)
  | _, _ => none

def netStep (S : Site κ ρ ω σ α) (download : Bool) (s : Net κ ρ σ) : NetAct κ α → Option (Net κ ρ σ)
  | .move c m =>
    (moveTo download s.now (S.registry s.site).jobs (S.streams s.site) m (s.clients c)).map (s.set c)
  | .start c jobId startedAt =>
    if (s.clients c).isPosting then
      (S.step s.site (S.start jobId startedAt)).map (fun site =>
        { s with site := site }.set c (.answered (S.R.start (S.registry s.site).jobs jobId startedAt).1))
    else none
  | .tick ms => some { s with now := s.now + ms }
  | .site a => (S.step s.site a).map (fun site => { s with site := site })

end

/-! ## What a console knows -/

/-- Eight jobs have been created since. -/
def Forgotten (reg : RegistryRun κ ρ) (jobId : κ) : Prop :=
  ∃ earlier startedAt later, reg.created = earlier ++ (jobId, startedAt) :: later ∧ maxJobs ≤ later.length

/-- The job has ended with the result. -/
def Ended (reg : RegistryRun κ ρ) (jobId : κ) (result : ρ) : Prop := ∃ finishedAt, (jobId, finishedAt, result) ∈ reg.settled

def Created (reg : RegistryRun κ ρ) (jobId : κ) : Prop := jobId ∈ reg.created.map Prod.fst

/-- **An answer is the truth of its time**, and what it says of an ended job stays true. -/
def AnswerOk [DecidableEq κ] (R : JobRegistry κ ρ ω) (reg : RegistryRun κ ρ) (jobId : κ) : Option (Job ρ) → Prop
  | none => Forgotten reg jobId
  | some (.running _) => True
  | some (.finished ok _ _ result) => Ended reg jobId result ∧ ok = R.ok result

/-- The requests made fit the time since the first one, and the limit. -/
def Poll.InTime (p : Poll κ) (now : Nat) : Prop :=
  1 ≤ p.polls ∧ p.deadline + (p.polls - 1) * pollIntervalMs ≤ now + pollTimeoutMs ∧
    p.polls ≤ pollTimeoutMs / pollIntervalMs + 1

/-- The job is done, with this result. -/
def Done [DecidableEq κ] (R : JobRegistry κ ρ ω) (reg : RegistryRun κ ρ) (jobId : κ) (result : ρ) : Prop :=
  Ended reg jobId result ∧ R.ok result = true

/-- **What a console's phase says of the registry.** -/
def PhaseOk [DecidableEq κ] (R : JobRegistry κ ρ ω) (download : Bool) (reg : RegistryRun κ ρ) (now : Nat) : Phase κ ρ → Prop
  | .idle | .posting => True
  | .answered started => Created reg started.jobId
  | .asking p => Created reg p.jobId ∧ p.InTime now
  | .told answer p => Created reg p.jobId ∧ p.InTime now ∧ AnswerOk R reg p.jobId answer
  | .sleeping «until» p => Created reg p.jobId ∧ p.InTime («until» - pollIntervalMs) ∧ pollIntervalMs ≤ «until» ∧
      «until» ≤ now + pollIntervalMs
  | .downloading jobId => ∃ result, Done R reg jobId result
  | .fetched answer _ jobId => (∃ result, Done R reg jobId result) ∧ AnswerOk R reg jobId answer ∧
      ∀ startedAt, answer ≠ some (.running startedAt)
  | .returned jobId result => Ended reg jobId result ∧ (download = true → R.ok result = true)
  | .failed (.unknownJob jobId) => Forgotten reg jobId
  | .failed (.jobFailed jobId result) => Ended reg jobId result ∧ R.ok result = false
  | .failed (.notDone _) => False
  | .failed (.gone jobId) => ∃ result, Done R reg jobId result
  | .failed .transport | .failed .refused | .failed (.timedOut _) => True

section
variable {reg reg' : RegistryRun κ ρ} {jobId : κ} {now now' : Nat}

/-- The history has grown. -/
def Grows (reg reg' : RegistryRun κ ρ) : Prop := reg.created <+: reg'.created ∧ reg.settled <+: reg'.settled

theorem Grows.refl (reg : RegistryRun κ ρ) : Grows reg reg := ⟨List.prefix_rfl, List.prefix_rfl⟩

theorem Forgotten.mono (h : Forgotten reg jobId) (hgrows : Grows reg reg') : Forgotten reg' jobId := by
  obtain ⟨earlier, startedAt, later, heq, hlength⟩ := h
  obtain ⟨more, hmore⟩ := hgrows.1
  refine ⟨earlier, startedAt, later ++ more, ?_, ?_⟩
  · rw [← hmore, heq, List.append_assoc, List.cons_append]
  · rw [List.length_append]
    omega

theorem Ended.mono {result : ρ} (h : Ended reg jobId result) (hgrows : Grows reg reg') : Ended reg' jobId result := by
  obtain ⟨finishedAt, hmem⟩ := h
  exact ⟨finishedAt, hgrows.2.subset hmem⟩

theorem Created.mono (h : Created reg jobId) (hgrows : Grows reg reg') : Created reg' jobId :=
  (hgrows.1.map Prod.fst).subset h

theorem Poll.InTime.mono {p : Poll κ} (h : p.InTime now) (hle : now ≤ now') : p.InTime now' :=
  ⟨h.1, h.2.1.trans (Nat.add_le_add_right hle _), h.2.2⟩

variable [DecidableEq κ] {R : JobRegistry κ ρ ω}

theorem AnswerOk.mono {answer : Option (Job ρ)} (h : AnswerOk R reg jobId answer) (hgrows : Grows reg reg') :
    AnswerOk R reg' jobId answer := by
  cases answer with
  | none => exact Forgotten.mono h hgrows
  | some job =>
    cases job with
    | running startedAt => exact h
    | finished ok startedAt finishedAt result => exact ⟨h.1.mono hgrows, h.2⟩

/-- What a console knows is not undone by what goes on around it. -/
theorem PhaseOk.mono {download : Bool} {phase : Phase κ ρ} (h : PhaseOk R download reg now phase) (hgrows : Grows reg reg')
    (hle : now ≤ now') : PhaseOk R download reg' now' phase := by
  cases phase with
  | idle | posting => exact h
  | answered started => exact Created.mono h hgrows
  | asking p => exact ⟨h.1.mono hgrows, h.2.mono hle⟩
  | told answer p => exact ⟨h.1.mono hgrows, h.2.1.mono hle, h.2.2.mono hgrows⟩
  | sleeping «until» p => exact ⟨h.1.mono hgrows, h.2.1, h.2.2.1, h.2.2.2.trans (Nat.add_le_add_right hle _)⟩
  | downloading jobId =>
    obtain ⟨result, hended, hok⟩ := h
    exact ⟨result, hended.mono hgrows, hok⟩
  | fetched answer streamed jobId =>
    obtain ⟨⟨result, hended, hok⟩, hanswer, hne⟩ := h
    exact ⟨⟨result, hended.mono hgrows, hok⟩, hanswer.mono hgrows, hne⟩
  | returned jobId result => exact ⟨h.1.mono hgrows, h.2⟩
  | failed failure =>
    cases failure with
    | unknownJob jobId => exact Forgotten.mono h hgrows
    | jobFailed jobId result => exact ⟨h.1.mono hgrows, h.2⟩
    | notDone jobId => exact h
    | gone jobId =>
      obtain ⟨result, hended, hok⟩ := h
      exact ⟨result, hended.mono hgrows, hok⟩
    | transport | refused | timedOut jobId => trivial

/-! ## What a route answers -/

theorem mem_of_lookup {jobs : List (κ × Job ρ)} {job : Job ρ} (h : jobs.lookup jobId = some job) : (jobId, job) ∈ jobs := by
  obtain ⟨l₁, l₂, heq, -⟩ := List.lookup_eq_some_iff.1 h
  rw [heq]
  exact List.mem_append_right _ (List.mem_cons_self ..)

/-- **A route tells the truth.** -/
theorem answer_lookup (hreg : reg.Inv R) (hcreated : Created reg jobId) : AnswerOk R reg jobId (reg.jobs.lookup jobId) := by
  cases hlookup : reg.jobs.lookup jobId with
  | none =>
    have hgone : jobId ∉ (reg.created.map Prod.fst).rtake maxJobs := by
      rw [← hreg.sound.window]
      intro hmem
      obtain ⟨⟨id, job⟩, hjob, rfl⟩ := List.mem_map.1 hmem
      simpa using List.lookup_eq_none_iff.1 hlookup _ hjob
    obtain ⟨⟨id, startedAt⟩, hmem, rfl⟩ := List.mem_map.1 hcreated
    obtain ⟨earlier, later, heq⟩ := List.append_of_mem hmem
    refine ⟨earlier, startedAt, later, heq, ?_⟩
    by_contra hshort
    refine hgone ?_
    rw [heq, List.rtake, List.map_append, List.map_cons, List.length_append, List.length_cons, List.length_map,
      List.length_map, List.drop_append_of_le_length (by rw [List.length_map]; omega)]
    exact List.mem_append_right _ (List.mem_cons_self ..)
  | some job =>
    obtain ⟨startedAt, hmem, heq⟩ := hreg.mem_jobs (mem_of_lookup hlookup)
    cases job with
    | running startedAt => trivial
    | finished ok startedAt' finishedAt result =>
      unfold HealJobs.jobOf at heq
      cases hsettled : reg.settled.lookup jobId with
      | none =>
        simp only [hsettled] at heq
        cases heq
      | some e =>
        simp only [hsettled] at heq
        cases heq
        obtain ⟨l₁, l₂, hsplit, -⟩ := List.lookup_eq_some_iff.1 hsettled
        exact ⟨⟨e.1, by rw [hsplit]; exact List.mem_append_right _ (List.mem_cons_self ..)⟩, rfl⟩

/-- A job ends with one result. -/
theorem Ended.unique (hreg : reg.Inv R) {r r' : ρ} (h : Ended reg jobId r) (h' : Ended reg jobId r') : r = r' := by
  obtain ⟨finishedAt, hmem⟩ := h
  obtain ⟨finishedAt', hmem'⟩ := h'
  have hsame := HealJobs.lookup_of_mem hreg.settled hmem
  rw [HealJobs.lookup_of_mem hreg.settled hmem', Option.some.injEq, Prod.mk.injEq] at hsame
  exact hsame.2.symm

/-- **An ended job is not told to run.** -/
theorem lookup_ended (hreg : reg.Inv R) {result : ρ} (h : Ended reg jobId result) (startedAt : String) :
    reg.jobs.lookup jobId ≠ some (.running startedAt) := by
  intro hlookup
  obtain ⟨startedAt', -, heq⟩ := hreg.mem_jobs (mem_of_lookup hlookup)
  obtain ⟨finishedAt, hmem⟩ := h
  rw [HealJobs.jobOf_finished hreg.settled hmem] at heq
  cases heq

/-- An answer to a start is a job of the registry. -/
theorem start_created (hreg : reg.Inv R) {jobId : κ} {startedAt : String}
    (hstep : registryStep R reg (.start jobId startedAt) = some reg') :
    Created reg' (R.start reg.jobs jobId startedAt).1.jobId := by
  have hres : (R.start reg.jobs jobId startedAt).1 = (HealJobs.startJob reg.jobs jobId startedAt).1 := by rw [R.start_eq]
  rw [hres, HealJobs.startJob]
  rcases HealJobs.registryStep_cases hreg hstep with ⟨_, _, ha, hne, rfl⟩ | ⟨id, at', ha, -, hnil, rfl⟩ | ⟨_, _, _, ha, -⟩
  · rcases hreg.findRunningJob_eq with ⟨hnil, -⟩ | ⟨earlier, id, at', hc, -, -, hsome⟩
    · exact absurd hnil hne
    · rw [hsome]
      show id ∈ reg'.created.map Prod.fst
      rw [hc]
      simp
  · cases ha
    rcases hreg.findRunningJob_eq with ⟨-, hnone⟩ | ⟨_, id, _, _, hf, -⟩
    · rw [hnone]
      show jobId ∈ (reg.created ++ [(jobId, startedAt)]).map Prod.fst
      simp
    · rw [hnil] at hf
      cases hf
  · cases ha

/-! ## The invariant -/

theorem afterPoll_ok {download : Bool} {p : Poll κ} {answer : Option (Job ρ)} (hcreated : Created reg p.jobId)
    (htime : p.InTime now) (h : AnswerOk R reg p.jobId answer) :
    PhaseOk R download reg now (afterPoll download now p answer) := by
  cases answer with
  | none => exact h
  | some job =>
    cases job with
    | running startedAt =>
      simp only [afterPoll, PhaseOk, Nat.add_sub_cancel]
      exact ⟨hcreated, htime, Nat.le_add_left .., Nat.le_refl _⟩
    | finished ok startedAt finishedAt result =>
      obtain ⟨hended, rfl⟩ := h
      unfold afterPoll
      cases download with
      | false => exact ⟨hended, fun hfalse => by cases hfalse⟩
      | true =>
        cases hok : R.ok result with
        | true => exact ⟨result, hended, hok⟩
        | false => exact ⟨hended, hok⟩

/-- The requests of a poll loop are 2 s apart, so the deadline bounds them. -/
theorem afterSleep_ok {download : Bool} {p : Poll κ} {«until» : Nat} (hcreated : Created reg p.jobId)
    (htime : p.InTime («until» - pollIntervalMs)) (hlong : pollIntervalMs ≤ «until») (hwake : «until» ≤ now) :
    PhaseOk R download reg now (afterSleep now p : Phase κ ρ) := by
  unfold afterSleep
  by_cases hdeadline : now ≤ p.deadline
  · rw [if_pos hdeadline]
    refine ⟨hcreated, ?_⟩
    unfold Poll.InTime at htime ⊢
    simp only [pollIntervalMs, pollTimeoutMs] at htime hlong ⊢
    omega
  · rw [if_neg hdeadline]
    trivial

theorem afterDownload_ok (hreg : reg.Inv R) {download : Bool} (streamed : Bool) {answer : Option (Job ρ)} (hdone : ∃ result, Done R reg jobId result)
    (h : AnswerOk R reg jobId answer) (hne : ∀ startedAt, answer ≠ some (.running startedAt)) :
    PhaseOk R download reg now (afterDownload streamed jobId answer) := by
  cases answer with
  | none => exact h
  | some job =>
    cases job with
    | running startedAt => exact absurd rfl (hne startedAt)
    | finished ok startedAt finishedAt result =>
      obtain ⟨hended, rfl⟩ := h
      obtain ⟨done, hdone, hok⟩ := hdone
      obtain rfl := hended.unique hreg hdone
      rw [afterDownload, if_pos hok]
      cases streamed with
      | true => exact ⟨hended, fun _ => hok⟩
      | false => exact ⟨result, hended, hok⟩

/-- **A move keeps what the console knows true.** -/
theorem moveTo_ok (hreg : reg.Inv R) {download : Bool} {streams : κ → Bool} {m : Move} {phase phase' : Phase κ ρ}
    (h : PhaseOk R download reg now phase) (hmove : moveTo download now reg.jobs streams m phase = some phase') :
    PhaseOk R download reg now phase' := by
  cases phase with
  | idle =>
    cases m with
    | post => cases hmove; trivial
    | refuse | serve | receive | lose | wake => cases hmove
  | posting =>
    cases m with
    | refuse => cases hmove; trivial
    | lose => cases hmove; trivial
    | post | serve | receive | wake => cases hmove
  | answered started =>
    cases m with
    | receive =>
      cases hmove
      exact ⟨h, Nat.le_refl _, by simp, Nat.le_add_left ..⟩
    | lose => cases hmove; trivial
    | post | refuse | serve | wake => cases hmove
  | asking p =>
    cases m with
    | serve =>
      cases hmove
      exact ⟨h.1, h.2, answer_lookup hreg h.1⟩
    | lose => cases hmove; trivial
    | post | refuse | receive | wake => cases hmove
  | told answer p =>
    cases m with
    | receive =>
      cases hmove
      exact afterPoll_ok h.1 h.2.1 h.2.2
    | lose => cases hmove; trivial
    | post | refuse | serve | wake => cases hmove
  | sleeping «until» p =>
    cases m with
    | wake =>
      simp only [moveTo] at hmove
      split at hmove
      · rename_i hwake
        cases hmove
        exact afterSleep_ok h.1 h.2.1 h.2.2.1 hwake
      · cases hmove
    | post | refuse | serve | receive | lose => cases hmove
  | downloading jobId =>
    cases m with
    | serve =>
      cases hmove
      obtain ⟨result, ⟨finishedAt, hmem⟩, hok⟩ := h
      have hcreated : Created reg jobId := hreg.settled_created _ (List.mem_map_of_mem hmem)
      exact ⟨⟨result, ⟨finishedAt, hmem⟩, hok⟩, answer_lookup hreg hcreated, lookup_ended hreg ⟨finishedAt, hmem⟩⟩
    | lose => cases hmove; trivial
    | post | refuse | receive | wake => cases hmove
  | fetched answer streamed jobId =>
    cases m with
    | receive =>
      cases hmove
      exact afterDownload_ok hreg streamed h.1 h.2.1 h.2.2
    | lose => cases hmove; trivial
    | post | refuse | serve | wake => cases hmove
  | returned jobId result => cases m <;> cases hmove
  | failed failure => cases m <;> cases hmove

variable {S : Site κ ρ ω σ α}

/-- **In every run**: the registry is what its history makes it, and every console knows the truth. -/
structure Net.Ok (S : Site κ ρ ω σ α) (download : Bool) (s : Net κ ρ σ) : Prop where
  registry : (S.registry s.site).Inv S.R
  clients : ∀ c, PhaseOk S.R download (S.registry s.site) s.now (s.clients c)

theorem Net.ok_init {site : σ} (hsite : S.registry site = .init κ ρ) (download : Bool) (now : Nat) :
    (Net.init κ ρ site now).Ok S download :=
  ⟨by rw [Net.init, hsite]; exact RegistryRun.inv_init, fun _ => trivial⟩

/-- What goes on in the server keeps the registry in order, and its history grows. -/
theorem Site.step_inv {site site' : σ} {a : α} (hreg : (S.registry site).Inv S.R) (h : S.step site a = some site') :
    (S.registry site').Inv S.R ∧ Grows (S.registry site) (S.registry site') := by
  rcases S.step_registry h with hsame | ⟨b, hstep⟩
  · rw [hsame]
    exact ⟨hreg, .refl _⟩
  · exact ⟨HealJobs.registryStep_inv _ _ _ hreg hstep, HealJobs.registryStep_history _ _ _ hreg hstep⟩

theorem phaseOk_update {download : Bool} {clients : Nat → Phase κ ρ} {phase : Phase κ ρ} (c : Nat)
    (hclients : ∀ c, PhaseOk R download reg now (clients c)) (hphase : PhaseOk R download reg now phase) (c' : Nat) :
    PhaseOk R download reg now (update clients c phase c') := by
  by_cases hc : c' = c
  · rw [hc, Function.update_self]
    exact hphase
  · rw [Function.update_of_ne hc]
    exact hclients c'

theorem netStep_ok {download : Bool} (s : Net κ ρ σ) (a : NetAct κ α) (t : Net κ ρ σ) (hs : s.Ok S download)
    (h : netStep S download s a = some t) : t.Ok S download := by
  cases a with
  | move c m =>
    obtain ⟨phase, hmove, rfl⟩ := Option.map_eq_some_iff.1 h
    exact ⟨hs.registry, phaseOk_update c hs.clients (moveTo_ok hs.registry (hs.clients c) hmove)⟩
  | start c jobId startedAt =>
    simp only [netStep] at h
    split at h
    · obtain ⟨site, hstep, rfl⟩ := Option.map_eq_some_iff.1 h
      obtain ⟨hinv, hgrows⟩ := Site.step_inv hs.registry hstep
      exact ⟨hinv, phaseOk_update c (fun c => (hs.clients c).mono hgrows (Nat.le_refl _))
        (start_created hs.registry (S.step_start hstep))⟩
    · cases h
  | tick ms =>
    cases h
    exact ⟨hs.registry, fun c => (hs.clients c).mono (.refl _) (Nat.le_add_right ..)⟩
  | site a =>
    obtain ⟨site, hstep, rfl⟩ := Option.map_eq_some_iff.1 h
    obtain ⟨hinv, hgrows⟩ := Site.step_inv hs.registry hstep
    exact ⟨hinv, fun c => (hs.clients c).mono hgrows (Nat.le_refl _)⟩

theorem run_ok {download : Bool} {site : σ} (hsite : S.registry site = .init κ ρ) {now : Nat} {acts : List (NetAct κ α)}
    {s : Net κ ρ σ} (h : exec (netStep S download) (.init κ ρ site now) acts = some s) : s.Ok S download :=
  exec_inv' netStep_ok acts _ s (Net.ok_init hsite download now) h

/-- **What a console is told**, in every interleaving: a result it returns is the one its job ended with, the same for every
console of that job, and of a bug report a good one; it is told that there is no such job only after eight newer ones have been
created; a job said to have failed has, and one whose tarball is said to be gone was done; the tarball of a done job is not
refused as not done; and its poll loop makes at most 331 requests. -/
theorem job_answers {download : Bool} {site : σ} (hsite : S.registry site = .init κ ρ) {now : Nat} {acts : List (NetAct κ α)}
    {s : Net κ ρ σ} (hrun : exec (netStep S download) (.init κ ρ site now) acts = some s) (c : Nat) :
    (∀ jobId result, s.clients c = .returned jobId result → Ended (S.registry s.site) jobId result ∧
      (download = true → S.R.ok result = true) ∧
        ∀ c' result', s.clients c' = .returned jobId result' → result' = result) ∧
    (∀ jobId, s.clients c = .failed (.unknownJob jobId) → Forgotten (S.registry s.site) jobId) ∧
    (∀ jobId result, s.clients c = .failed (.jobFailed jobId result) →
      Ended (S.registry s.site) jobId result ∧ S.R.ok result = false) ∧
    (∀ jobId, s.clients c = .failed (.gone jobId) → ∃ result, Done S.R (S.registry s.site) jobId result) ∧
    (∀ jobId, s.clients c ≠ .failed (.notDone jobId)) ∧
    ∀ p, s.clients c = .asking p → p.polls ≤ 331 := by
  have hs := run_ok hsite hrun
  have hc := hs.clients c
  refine ⟨fun jobId result h => ?_, fun jobId h => ?_, fun jobId result h => ?_, fun jobId h => ?_, fun jobId h => ?_,
    fun p h => ?_⟩
  · rw [h] at hc
    refine ⟨hc.1, hc.2, fun c' result' h' => ?_⟩
    have hc' := hs.clients c'
    rw [h'] at hc'
    exact hc'.1.unique hs.registry hc.1
  · rw [h] at hc
    exact hc
  · rw [h] at hc
    exact hc
  · rw [h] at hc
    exact hc
  · rw [h] at hc
    exact hc
  · rw [h] at hc
    exact hc.2.2.2

/-- The server of the heals. -/
def healSite (κ : Type) [DecidableEq κ] : Site κ Heal.HealResult (Except String Heal.HealResult)
    (RegistryRun κ Heal.HealResult) (RegistryAct κ (Except String Heal.HealResult)) :=
  Site.ofRegistry (HealJobs.healRegistry κ)

/-- Two consoles: the second one's start gives it the job of the first, which ends while it waits. -/
def sharedHeal : List (NetAct Nat (RegistryAct Nat (Except String Heal.HealResult))) :=
  [.move 0 .post, .start 0 7 "t0", .move 0 .receive, .move 1 .post, .start 1 8 "t1", .move 1 .receive, .move 0 .serve,
    .move 0 .receive, .site (.settle 7 "t2" (.error "boom")), .tick 2000, .move 0 .wake, .move 0 .serve, .move 0 .receive]

theorem job_answers_sharedHeal :
    ∃ s, exec (netStep (healSite Nat) false) (.init _ _ (.init _ _) 0) sharedHeal = some s ∧
      s.clients 0 = .returned 7 (HealJobs.rejectedResult "boom") ∧
      ∀ c result, s.clients c = .returned 7 result → result = HealJobs.rejectedResult "boom" :=
  ⟨_, rfl, rfl, ((@job_answers Nat _ _ _ _ _ (healSite Nat) false _ rfl 0 sharedHeal _ rfl 0).1 7 _ rfl).2.2⟩

/-! ## When the job has ended -/

/-- A move of the console's own run, nothing lost, or some time. -/
def Own (c : Nat) (a : NetAct κ α) : Prop := (∃ m, a = .move c m ∧ m ≠ .lose ∧ m ≠ .refuse) ∨ ∃ ms, a = .tick ms

/-- The console comes to a phase by itself, in so much time. -/
def Comes (S : Site κ ρ ω σ α) (download : Bool) (c : Nat) (s : Net κ ρ σ) (ms : Nat) (phase : Phase κ ρ) : Prop :=
  ∃ own t, (∀ a ∈ own, Own c a) ∧ exec (netStep S download) s own = some t ∧ t.site = s.site ∧ t.now ≤ s.now + ms ∧
    t.clients c = phase

/-- What it comes to. -/
def outcome (R : JobRegistry κ ρ ω) (download : Bool) (jobId : κ) (result : ρ) : Phase κ ρ :=
  if download = true ∧ R.ok result = false then .failed (.jobFailed jobId result) else .returned jobId result

section
variable {download : Bool} {c : Nat} {s : Net κ ρ σ} {ms : Nat} {phase : Phase κ ρ}

theorem Comes.refl (h : s.clients c = phase) (ms : Nat) : Comes S download c s ms phase :=
  ⟨[], s, by simp, rfl, rfl, Nat.le_add_right .., h⟩

theorem Comes.mono (h : Comes S download c s ms phase) {ms' : Nat} (hle : ms ≤ ms') : Comes S download c s ms' phase := by
  obtain ⟨own, t, howns, hexec, hsame, hnow, hphase⟩ := h
  exact ⟨own, t, howns, hexec, hsame, hnow.trans (Nat.add_le_add_left hle _), hphase⟩

/-- A move of the console takes no time. -/
theorem Comes.move {m : Move} {phase' : Phase κ ρ} (hm : m ≠ .lose ∧ m ≠ .refuse)
    (hmove : moveTo download s.now (S.registry s.site).jobs (S.streams s.site) m (s.clients c) = some phase')
    (h : Comes S download c (s.set c phase') ms phase) : Comes S download c s ms phase := by
  obtain ⟨own, t, howns, hexec, hsame, hnow, hphase⟩ := h
  refine ⟨.move c m :: own, t, ?_, ?_, hsame, hnow, hphase⟩
  · intro b hb
    rcases List.mem_cons.1 hb with rfl | hb
    · exact .inl ⟨m, rfl, hm⟩
    · exact howns b hb
  · rw [Steps.exec, netStep, hmove, Option.map_some, Option.bind_some, hexec]

theorem Comes.wait (wait : Nat) (h : Comes S download c { s with now := s.now + wait } ms phase) :
    Comes S download c s (wait + ms) phase := by
  obtain ⟨own, t, howns, hexec, hsame, hnow, hphase⟩ := h
  refine ⟨.tick wait :: own, t, ?_, ?_, hsame, hnow.trans_eq (Nat.add_assoc ..), hphase⟩
  · intro b hb
    rcases List.mem_cons.1 hb with rfl | hb
    · exact .inr ⟨wait, rfl⟩
    · exact howns b hb
  · rw [Steps.exec, netStep, Option.bind_some, hexec]

theorem lookup_of_ended {result : ρ} (hreg : reg.Inv R) (hended : Ended reg jobId result) (hkept : ¬ Forgotten reg jobId) :
    ∃ startedAt finishedAt, reg.jobs.lookup jobId = some (.finished (R.ok result) startedAt finishedAt result) := by
  have hcreated : Created reg jobId := by
    obtain ⟨finishedAt, hmem⟩ := hended
    exact hreg.settled_created _ (List.mem_map_of_mem hmem)
  have hanswer := answer_lookup hreg hcreated
  have hrunning := lookup_ended hreg hended
  cases hlookup : reg.jobs.lookup jobId with
  | none => rw [hlookup] at hanswer; exact absurd hanswer hkept
  | some job =>
    cases job with
    | running startedAt => exact absurd hlookup (hrunning startedAt)
    | finished ok startedAt finishedAt result' =>
      rw [hlookup] at hanswer
      obtain ⟨hended', rfl⟩ := hanswer
      obtain rfl := hended'.unique hreg hended
      exact ⟨startedAt, finishedAt, rfl⟩

section
variable {result : ρ} {p : Poll κ} (hreg : (S.registry s.site).Inv S.R) (hended : Ended (S.registry s.site) p.jobId result)
  (hkept : ¬ Forgotten (S.registry s.site) p.jobId)
  (hstreams : download = true → S.R.ok result = true → S.streams s.site p.jobId = true)
include hreg hended hkept hstreams

/-- Told that the job has ended, a console comes to its outcome. -/
theorem told_comes {startedAt finishedAt : String}
    (h : s.clients c = .told (some (.finished (S.R.ok result) startedAt finishedAt result)) p) :
    Comes S download c s 0 (outcome S.R download p.jobId result) := by
  refine Comes.move (m := .receive) (by decide) (by rw [h]; rfl) ?_
  cases hdownload : download with
  | false => exact Comes.refl (by simp [afterPoll, outcome]) 0
  | true =>
    cases hok : S.R.ok result with
    | false => exact Comes.refl (by simp [afterPoll, outcome, hok]) 0
    | true =>
      -- a bug report that is done is downloaded
      obtain ⟨startedAt', finishedAt', hlookup⟩ := lookup_of_ended hreg hended hkept
      rw [hok] at hlookup
      refine Comes.move (m := .serve) (by decide) (by rw [Net.set_clients]; rfl) ?_
      refine Comes.move (m := .receive) (by decide) (by rw [Net.set_clients]; rfl) (Comes.refl ?_ 0)
      simp [afterDownload, hlookup, hstreams hdownload hok, outcome, hok]

theorem asking_comes (h : s.clients c = .asking p) : Comes S download c s 0 (outcome S.R download p.jobId result) := by
  obtain ⟨startedAt, finishedAt, hlookup⟩ := lookup_of_ended hreg hended hkept
  refine Comes.move (m := .serve) (by decide) (by rw [h]; rfl) ?_
  rw [hlookup]
  exact told_comes hreg hended hkept hstreams Net.set_clients

theorem sleeping_comes {wake : Nat} (h : s.clients c = .sleeping wake p) (hlong : wake ≤ s.now + pollIntervalMs)
    (htime : s.now ≤ p.deadline ∧ wake ≤ p.deadline) :
    Comes S download c s pollIntervalMs (outcome S.R download p.jobId result) := by
  have hwake : wake ≤ s.now + (wake - s.now) := by omega
  have hdeadline : s.now + (wake - s.now) ≤ p.deadline := by omega
  have hmove : moveTo download (s.now + (wake - s.now)) (S.registry s.site).jobs (S.streams s.site) .wake (s.clients c) =
      some (.asking { p with polls := p.polls + 1 }) := by
    simp only [h, moveTo, if_pos hwake, afterSleep, if_pos hdeadline]
  have hwoken : Comes S download c { s with now := s.now + (wake - s.now) } 0 (outcome S.R download p.jobId result) := by
    refine Comes.move (by decide) hmove ?_
    exact asking_comes (p := { p with polls := p.polls + 1 }) hreg hended hkept hstreams Net.set_clients
  exact (hwoken.wait (wake - s.now)).mono (by omega)

end

/-- Of a console that polls, in whatever it is just doing. -/
def Polls (phase : Phase κ ρ) (p : Poll κ) : Prop :=
  phase = .asking p ∨ (∃ answer, phase = .told answer p) ∨ ∃ wake, phase = .sleeping wake p

theorem Net.Ok.comes (hs : s.Ok S download) {p : Poll κ} {result : ρ} (hpolls : Polls (s.clients c) p)
    (hended : Ended (S.registry s.site) p.jobId result) (hkept : ¬ Forgotten (S.registry s.site) p.jobId)
    (hstreams : download = true → S.R.ok result = true → S.streams s.site p.jobId = true)
    (htime : s.now + pollIntervalMs ≤ p.deadline) :
    Comes S download c s pollIntervalMs (outcome S.R download p.jobId result) := by
  have hc := hs.clients c
  rcases hpolls with h | ⟨answer, h⟩ | ⟨wake, h⟩
  · exact (asking_comes hs.registry hended hkept hstreams h).mono (Nat.zero_le _)
  · rw [h] at hc
    cases answer with
    | none => exact absurd hc.2.2 hkept
    | some job =>
      cases job with
      | running startedAt =>
        -- a stale answer, read after the job has ended, costs one sleep
        refine Comes.move (m := .receive) (by decide) (by rw [h]; rfl) ?_
        have hwake : (s.set c (.sleeping (s.now + pollIntervalMs) p)).clients c = .sleeping (s.now + pollIntervalMs) p :=
          Net.set_clients
        exact sleeping_comes hs.registry hended hkept hstreams hwake (Nat.le_refl _)
          ⟨by simp only [Net.set_now]; omega, htime⟩
      | finished ok startedAt finishedAt result' =>
        obtain ⟨hended', rfl⟩ := hc.2.2
        obtain rfl := hended'.unique hs.registry hended
        exact (told_comes hs.registry hended hkept hstreams h).mono (Nat.zero_le _)
  · rw [h] at hc
    exact sleeping_comes hs.registry hended hkept hstreams h hc.2.2.2 ⟨by omega, by have := hc.2.2.2; omega⟩

/-- **A console is told, within a sleep.**  In every interleaving: a console that polls a job that has ended, with fewer than
eight created since, its tarball (if it has one to download) still there and its deadline more than a sleep away, comes to the
outcome by its own next steps in at most 2 s, if none of its messages is lost. -/
theorem job_ends {site : σ} (hsite : S.registry site = .init κ ρ) {now : Nat} {acts : List (NetAct κ α)}
    (hrun : exec (netStep S download) (.init κ ρ site now) acts = some s) {p : Poll κ} {result : ρ}
    (hpolls : Polls (s.clients c) p) (hended : Ended (S.registry s.site) p.jobId result)
    (hkept : ¬ Forgotten (S.registry s.site) p.jobId)
    (hstreams : download = true → S.R.ok result = true → S.streams s.site p.jobId = true)
    (htime : s.now + pollIntervalMs ≤ p.deadline) :
    Comes S download c s pollIntervalMs (outcome S.R download p.jobId result) :=
  (run_ok hsite hrun).comes hpolls hended hkept hstreams htime

/-- The second console, once the heal of the first one has ended. -/
theorem job_ends_sharedHeal :
    ∃ s, exec (netStep (healSite Nat) false) (.init _ _ (.init _ _) 0) (sharedHeal.take 9) = some s ∧
      Comes (healSite Nat) false 1 s 2000 (.returned 7 (HealJobs.rejectedResult "boom")) := by
  refine ⟨_, rfl, ?_⟩
  refine @job_ends Nat _ _ _ _ _ (healSite Nat) false 1 _ _ rfl 0 (sharedHeal.take 9) rfl
    ⟨7, pollTimeoutMs, 1⟩ (HealJobs.rejectedResult "boom") (.inl rfl) ⟨"t2", by exact List.mem_singleton.2 rfl⟩ ?_
    (fun h => by cases h) (by decide)
  -- one job has been created
  rintro ⟨earlier, startedAt, later, hcreated, hlater⟩
  have hlength : [(7, "t0")].length = (earlier ++ (7, startedAt) :: later).length := congrArg List.length hcreated
  rw [List.length_append] at hlength
  have : maxJobs = 8 := rfl
  simp only [List.length_cons, List.length_nil] at hlength
  omega

end

end

end JobClients
end SignalkDoctor
