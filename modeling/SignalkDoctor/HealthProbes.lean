import Mathlib.Data.List.Infix
import SignalkDoctor.Probes
/-!
# HealthProbes — the HTTP health probes (`src/probes/fetch-error.ts`, `signalk-health.ts`, `updater-health.ts`)

Each probe is a ladder of hops: HTTP and then HTTPS for signalk-server, up to three attempts with a backoff for the
updater.  A hop lasts until the endpoint answers or refuses, or its abort timer fires; what an endpoint does, and when,
is the probe's input (`Arrival`, none for one that stalls).  A run of a probe is its verdict, the time it settles and the
budget that was left at the start of each hop.

`probes_in_time` is what the budget is for: whatever the endpoints do, both probes settle before the runner's timer, and
no hop but the first starts with less than `minHopMs` left.
-/
namespace SignalkDoctor
namespace Probes

/-! ## Failed fetches -/

/-- `err.cause`: whether it is an `Error`, its message, its string `code`, and those of its inner errors. -/
structure FetchCause where
  isError : Bool
  message : String
  code : Option String
  errors : List (Option String)
  deriving DecidableEq, Repr

structure FetchError where
  name : String
  message : String
  cause : Option FetchCause
  deriving DecidableEq, Repr

def isAbort (err : FetchError) : Bool :=
  err.name == "AbortError" || decide ("operation was aborted".toList <:+: err.message.toList.map Char.toLower)

def codeOf (code : Option String) : Option String := code.filter (fun c => c != "")

/-- The errno of the cause, else the first of the errors Happy Eyeballs raced. -/
def causeCode (err : FetchError) : Option String :=
  err.cause.bind (fun c => (codeOf c.code).or (c.errors.findSome? codeOf))

def causeMessage (err : FetchError) : Option String :=
  err.cause.bind (fun c => if c.isError ∧ c.message ≠ "" then some c.message else none)

def describeFetchError (err : FetchError) (waitedMs : Int) : String :=
  if isAbort err then "no response after " ++ toString waitedMs ++ "ms (timed out)"
  else
    match (causeCode err).or (causeMessage err) with
    | some reason => if reason ≠ "" ∧ reason ≠ err.message then err.message ++ " (" ++ reason ++ ")" else err.message
    | none => err.message

/-! ## A hop -/

/-- What an endpoint does so long after it is asked: an answer or a refusal. -/
structure Arrival (α : Type) where
  after : ℚ
  after_nonneg : 0 ≤ after
  result : Except FetchError α

def abortError : FetchError := ⟨"AbortError", "This operation was aborted", none⟩

/-- What is awaited from `t` on under an abort timer that fires at `abortAt`: its outcome, and when. -/
def awaitUntil {α : Type} (abortAt t : ℚ) : Option (Arrival α) → Except FetchError α × ℚ
  | some a => if t + a.after ≤ abortAt then (a.result, t + a.after) else (.error abortError, abortAt)
  | none => (.error abortError, abortAt)

structure Response where
  status : Nat
  /-- `type === 'opaqueredirect'` -/
  opaqueRedirect : Bool
  deriving DecidableEq, Repr

def Response.ok (res : Response) : Bool := 200 ≤ res.status && res.status ≤ 299

/-- A probe that has settled, and the budget left at the start of each hop it made. -/
structure ProbeRun where
  result : ProbeResult Json
  settledAt : ℚ
  hops : List ℚ

def ProbeRun.settled (run : ProbeRun) : Settled Json := ⟨.ok run.result, run.settledAt⟩

/-! ## signalk-server -/

/-- The environment and the endpoints of `probeSignalkHealth`. -/
structure SignalkEnv extends ProbeEnv where
  SIGNALK_URL : Option String
  SIGNALK_HTTPS_URL : Option String
  http : Option (Arrival Response)
  https : Option (Arrival Response)

def signalkHttpUrl (env : SignalkEnv) : String := env.SIGNALK_URL.getD "http://host.containers.internal:80/signalk"

def signalkHttpsUrl (env : SignalkEnv) : Option String := env.SIGNALK_HTTPS_URL

def hopTimeoutMs : ℚ := 5000

def slowMs : Int := 4000

def signalkSpec : ProbeSpec := ⟨"signalk-health", "SignalK server HTTP health"⟩

def okResult (message : String) (t0 now : ℚ) : ProbeResult Json :=
  let durationMs := dateNow now - dateNow t0
  if durationMs > slowMs then
    ⟨signalkSpec.id, signalkSpec.label, .warn, message ++ " — slow (" ++ toString durationMs ++
      "ms); likely host I/O contention, see the Host root storage probe", none, durationMs⟩
  else ⟨signalkSpec.id, signalkSpec.label, .ok, message, none, durationMs⟩

def failResult (message : String) (t0 now : ℚ) : ProbeResult Json :=
  ⟨signalkSpec.id, signalkSpec.label, .fail, message, none, dateNow now - dateNow t0⟩

def hop (endpoint : Option (Arrival Response)) (timeoutMs now : ℚ) : Except String Response × ℚ :=
  let (r, t) := awaitUntil (now + timerDelay timeoutMs) now endpoint
  (r.mapError (fun err => describeFetchError err (dateNow t - dateNow now)), t)

def isRedirect (res : Response) : Bool := res.opaqueRedirect || (300 ≤ res.status && res.status < 400)

inductive HttpsReason where
  | redirect | fallback
  deriving DecidableEq, Repr

/-- `probeHttps`: the result, whether HTTPS answered at all, and when. -/
def probeHttps (env : SignalkEnv) (httpsUrl : String) (t0 : ℚ) (reason : HttpsReason) (deadline : ProbeDeadline)
    (now : ℚ) : ProbeResult Json × Bool × ℚ :=
  match hop env.https (deadline.hop now hopTimeoutMs) now with
  | (.ok res, t) =>
    if res.ok then
      let note := match reason with
        | .redirect => " (SSL enabled, redirected from HTTP)"
        | .fallback => " (SSL enabled)"
      (okResult ("HTTP " ++ toString res.status ++ " from " ++ httpsUrl ++ note) t0 t, true, t)
    else (failResult ("HTTP " ++ toString res.status ++ " from " ++ httpsUrl) t0 t, true, t)
  | (.error msg, t) => (failResult ("cannot reach " ++ httpsUrl ++ ": " ++ msg) t0 t, false, t)

/-- The verdict when nothing answered. -/
def unreachableResult (env : SignalkEnv) (httpsAttempted : Bool) (httpErr : String) (t0 now : ℚ) : ProbeResult Json :=
  let httpUrl := signalkHttpUrl env
  let httpsUrl := (signalkHttpsUrl env).getD ""
  let tried := if httpsAttempted then httpUrl ++ " or " ++ httpsUrl else httpUrl
  let skipped :=
    if httpsUrl ≠ "" ∧ ¬ httpsAttempted then " (HTTPS fallback to " ++ httpsUrl ++ " skipped, no budget left)" else ""
  failResult ("cannot reach signalk-server on " ++ tried ++ ": " ++ httpErr ++ skipped) t0 now

def probeSignalkHealth (env : SignalkEnv) (t0 : ℚ) : ProbeRun :=
  let deadline := startProbeDeadline env.toProbeEnv t0
  let httpUrl := signalkHttpUrl env
  -- an empty URL is none
  let httpsUrl := (signalkHttpsUrl env).filter (fun url => url != "")
  match hop env.http (deadline.hop t0 hopTimeoutMs) t0 with
  | (.ok res, t) =>
    if res.ok then
      ⟨okResult ("HTTP " ++ toString res.status ++ " from " ++ httpUrl) t0 t, t, [deadline.remaining t0]⟩
    else if isRedirect res then
      match httpsUrl with
      | none =>
        ⟨failResult (httpUrl ++ " redirects to HTTPS (SSL enabled) but no SIGNALK_HTTPS_URL is configured") t0 t, t,
          [deadline.remaining t0]⟩
      | some httpsUrl =>
        if deadline.allows t minHopMs then
          let (result, _, t') := probeHttps env httpsUrl t0 .redirect deadline t
          ⟨result, t', [deadline.remaining t0, deadline.remaining t]⟩
        else
          ⟨failResult (httpUrl ++ " redirects to " ++ httpsUrl ++
              " (SSL enabled) but no probe budget remained to check it") t0 t, t, [deadline.remaining t0]⟩
    else ⟨failResult ("HTTP " ++ toString res.status ++ " from " ++ httpUrl) t0 t, t, [deadline.remaining t0]⟩
  | (.error httpErr, t) =>
    let httpsAttempted := (signalkHttpsUrl env).isSome && deadline.allows t minHopMs
    match httpsUrl, httpsAttempted with
    | some httpsUrl, true =>
      let (result, reachable, t') := probeHttps env httpsUrl t0 .fallback deadline t
      ⟨if reachable then result else unreachableResult env true httpErr t0 t', t',
        [deadline.remaining t0, deadline.remaining t]⟩
    | _, _ => ⟨unreachableResult env httpsAttempted httpErr t0 t, t, [deadline.remaining t0]⟩

/-! ## The updater -/

/-- What the updater does when asked: its headers, and its body once the headers are there. -/
structure UpdaterReply where
  headers : Option (Arrival Response)
  body : Option (Arrival Json)

/-- The environment and the endpoint of `probeUpdaterHealth`, a reply for each attempt. -/
structure UpdaterEnv extends ProbeEnv where
  UPDATER_URL : Option String
  reply : Nat → UpdaterReply

def updaterUrl (env : UpdaterEnv) : String := env.UPDATER_URL.getD "http://host.containers.internal:3003/api/health"

def timeoutMs : ℚ := 5000

def retries : Nat := 2

def retryDelayMs : ℚ := 1500

def updaterSpec : ProbeSpec := ⟨"updater-health", "Updater HTTP health"⟩

def isHealthBody : Json → Bool
  | v@(.obj _) =>
    (match v.get? "ok" with | none | some (.bool _) => true | _ => false) &&
      match v.get? "runtime" with | none | some (.str _) => true | _ => false
  | _ => false

structure HealthAnswer where
  ok : Bool
  status : Nat
  body : Option Json

/-- One attempt, headers and body under one abort timer. -/
def fetchHealthOnce (reply : UpdaterReply) (timeoutMs now : ℚ) : Except String HealthAnswer × ℚ :=
  let abortAt := now + timerDelay timeoutMs
  match awaitUntil abortAt now reply.headers with
  | (.error err, t) => (.error (describeFetchError err (dateNow t - dateNow now)), t)
  | (.ok res, t) =>
    -- the body of a non-2xx is cancelled unread
    if ¬ res.ok then (.ok ⟨false, res.status, none⟩, t)
    else
      match awaitUntil abortAt t reply.body with
      | (.error err, t') =>
        if isAbort err then (.error (describeFetchError err (dateNow t' - dateNow now)), t')
        else (.ok ⟨true, res.status, none⟩, t')
      | (.ok parsed, t') => (.ok ⟨true, res.status, if isHealthBody parsed then some parsed else none⟩, t')

def updaterResult (status : ProbeStatus) (message : String) (details : Option Json) (t0 now : ℚ) : ProbeResult Json :=
  ⟨updaterSpec.id, updaterSpec.label, status, message, details, dateNow now - dateNow t0⟩

/-- The verdict on an answer of an attempt started at `attemptStart`. -/
def judgeAnswer (url : String) (res : HealthAnswer) (t0 attemptStart now : ℚ) : ProbeResult Json :=
  if ¬ res.ok then updaterResult .fail ("HTTP " ++ toString res.status ++ " from " ++ url) none t0 now
  else
    match res.body with
    | none =>
      updaterResult .warn ("Updater reachable but returned an unreadable health payload from " ++ url) none t0 now
    | some body =>
      let attemptMs := dateNow now - dateNow attemptStart
      let runtimeNote := match body.get? "runtime" with
        | some (.str runtime) => if runtime ≠ "" then " (runtime=" ++ runtime ++ ")" else ""
        | _ => ""
      if body.get? "ok" ≠ some (.bool true) then
        let okState := if body.get? "ok" = some (.bool false) then "ok=false" else "no ok field"
        updaterResult .warn ("Updater reachable but reports " ++ okState ++ runtimeNote) (some body) t0 now
      else if attemptMs > slowMs then
        updaterResult .warn ("Updater reachable but slow (" ++ toString attemptMs ++
          "ms) — likely host I/O contention; see the Host root storage probe") (some body) t0 now
      else updaterResult .ok ("Updater reports OK" ++ runtimeNote) (some body) t0 now

/-- The verdict once the ladder is given up. -/
def giveUp (url : String) (attempts : Nat) (lastErr : Option String) (t0 now : ℚ) : ProbeResult Json :=
  let tries := if attempts > 1 then " (" ++ toString attempts ++ " attempts)" else ""
  updaterResult .fail ("cannot reach " ++ url ++ ": " ++ lastErr.getD "undefined" ++ tries) none t0 now

/-- The loop of `probeUpdaterHealth` over the attempts still to come; `hops` are those made, `lastErr` the last one's
error. -/
def attemptLoop (env : UpdaterEnv) (deadline : ProbeDeadline) (t0 : ℚ) :
    List Nat → List ℚ → Option String → ℚ → ProbeRun
  | [], hops, lastErr, now => ⟨giveUp (updaterUrl env) hops.length lastErr t0 now, now, hops⟩
  | attempt :: rest, hops, lastErr, now =>
    let start := if attempt > 0 then now + timerDelay retryDelayMs else now
    -- the timer may have resumed late: the budget is read again after the sleep
    if attempt > 0 ∧ ¬ deadline.allows start minHopMs then
      ⟨giveUp (updaterUrl env) hops.length lastErr t0 start, start, hops⟩
    else
      match fetchHealthOnce (env.reply attempt) (deadline.hop start timeoutMs) start with
      | (.ok res, t) => ⟨judgeAnswer (updaterUrl env) res t0 start t, t, hops ++ [deadline.remaining start]⟩
      | (.error msg, t) =>
        let hops := hops ++ [deadline.remaining start]
        if ¬ deadline.allows t (retryDelayMs + minHopMs) then
          ⟨giveUp (updaterUrl env) hops.length (some msg) t0 t, t, hops⟩
        else attemptLoop env deadline t0 rest hops (some msg) t

def probeUpdaterHealth (env : UpdaterEnv) (t0 : ℚ) : ProbeRun :=
  attemptLoop env (startProbeDeadline env.toProbeEnv t0) t0 (List.range (retries + 1)) [] none t0

/-! ## In time -/

theorem awaitUntil_mem {α : Type} {abortAt t : ℚ} (h : t ≤ abortAt) (r : Option (Arrival α)) :
    t ≤ (awaitUntil abortAt t r).2 ∧ (awaitUntil abortAt t r).2 ≤ abortAt := by
  unfold awaitUntil
  split
  · rename_i a
    split
    · rename_i hle
      exact ⟨le_add_of_nonneg_right a.after_nonneg, hle⟩
    · exact ⟨h, le_rfl⟩
  · exact ⟨h, le_rfl⟩

theorem le_add_timerDelay (t ms : ℚ) : t ≤ t + timerDelay ms :=
  le_add_of_nonneg_right (zero_le_one.trans (one_le_timerDelay ms))

theorem hop_mem (endpoint : Option (Arrival Response)) (ms now : ℚ) :
    now ≤ (hop endpoint ms now).2 ∧ (hop endpoint ms now).2 ≤ now + timerDelay ms :=
  awaitUntil_mem (le_add_timerDelay now ms) endpoint

/-- An attempt ends by its abort timer, in its headers or in its body. -/
theorem fetchHealthOnce_mem (reply : UpdaterReply) (ms now : ℚ) :
    now ≤ (fetchHealthOnce reply ms now).2 ∧ (fetchHealthOnce reply ms now).2 ≤ now + timerDelay ms := by
  have hheaders := awaitUntil_mem (le_add_timerDelay now ms) reply.headers
  unfold fetchHealthOnce
  simp only
  split
  · rename_i err t heq
    rw [heq] at hheaders
    exact hheaders
  · rename_i res t heq
    rw [heq] at hheaders
    split
    · exact hheaders
    · have hbody := awaitUntil_mem hheaders.2 reply.body
      split
      · rename_i err t' heq'
        rw [heq'] at hbody
        split <;> exact ⟨hheaders.1.trans hbody.1, hbody.2⟩
      · rename_i parsed t' heq'
        rw [heq'] at hbody
        exact ⟨hheaders.1.trans hbody.1, hbody.2⟩

section
variable {t0 : ℚ}

/-- What a ladder of hops keeps: it settles within the budget, each hop but the first started with `minHopMs` left. -/
def ProbeRun.Kept (env : ProbeEnv) (t0 : ℚ) (run : ProbeRun) : Prop :=
  Within env t0 run.settledAt ∧ ∀ left ∈ run.hops.tail, minHopMs ≤ left

theorem probeHttps_within {env : SignalkEnv} (hlim : probeTimeoutMs env.toProbeEnv ≤ 2 ^ 31 - 1) (ht : OnCalendar t0)
    {now : ℚ} (hw : Within env.toProbeEnv t0 now)
    (h : minHopMs ≤ (startProbeDeadline env.toProbeEnv t0).remaining now) (httpsUrl : String) (reason : HttpsReason) :
    Within env.toProbeEnv t0 (probeHttps env httpsUrl t0 reason (startProbeDeadline env.toProbeEnv t0) now).2.2 := by
  have hmem := hop_mem env.https ((startProbeDeadline env.toProbeEnv t0).hop now hopTimeoutMs) now
  have hend := within_hop hlim ht hw (show 1 ≤ hopTimeoutMs by norm_num [hopTimeoutMs]) h hmem.1 hmem.2
  unfold probeHttps
  split
  · rename_i res t heq
    rw [heq] at hend
    split <;> exact hend
  · rename_i msg t heq
    rw [heq] at hend
    exact hend

theorem probeSignalkHealth_kept {env : SignalkEnv} (hlim : probeTimeoutMs env.toProbeEnv ≤ 2 ^ 31 - 1)
    (ht : OnCalendar t0) : (probeSignalkHealth env t0).Kept env.toProbeEnv t0 := by
  have hmem := hop_mem env.http ((startProbeDeadline env.toProbeEnv t0).hop t0 hopTimeoutMs) t0
  have hfirst := within_firstHop hlim ht hmem.1 hmem.2
  have hone : ∀ left ∈ ([(startProbeDeadline env.toProbeEnv t0).remaining t0] : List ℚ).tail, minHopMs ≤ left := by simp
  unfold probeSignalkHealth
  simp only
  split
  · rename_i res t heq
    rw [heq] at hfirst
    split
    · exact ⟨hfirst, hone⟩
    · split
      · split
        · exact ⟨hfirst, hone⟩
        · rename_i httpsUrl _
          split
          · rename_i hallow
            have hleft : minHopMs ≤ _ := of_decide_eq_true hallow
            exact ⟨probeHttps_within hlim ht hfirst hleft httpsUrl .redirect, by simpa using hleft⟩
          · exact ⟨hfirst, hone⟩
      · exact ⟨hfirst, hone⟩
  · rename_i httpErr t heq
    rw [heq] at hfirst
    split
    · rename_i httpsUrl _ hattempt
      have hleft : minHopMs ≤ _ := of_decide_eq_true (Bool.and_eq_true_iff.1 hattempt).2
      exact ⟨probeHttps_within hlim ht hfirst hleft httpsUrl .fallback, by simpa using hleft⟩
    · exact ⟨hfirst, hone⟩

/-- **A later attempt and what follows it keep the budget**, started with what a backoff and a hop need. -/
theorem attemptLoop_kept {env : UpdaterEnv} (hlim : probeTimeoutMs env.toProbeEnv ≤ 2 ^ 31 - 1) (ht : OnCalendar t0) :
    ∀ (attempts : List Nat) (hops : List ℚ) (lastErr : Option String) (now : ℚ), hops ≠ [] → 0 ∉ attempts →
      Within env.toProbeEnv t0 now → (∀ left ∈ hops.tail, minHopMs ≤ left) →
        retryDelayMs + minHopMs ≤ (startProbeDeadline env.toProbeEnv t0).remaining now →
          (attemptLoop env (startProbeDeadline env.toProbeEnv t0) t0 attempts hops lastErr now).Kept env.toProbeEnv t0
  | [], hops, lastErr, now, _, _, hw, hhops, _ => ⟨hw, hhops⟩
  | attempt :: rest, hops, lastErr, now, hne, h0, hw, hhops, hleft => by
    obtain ⟨hattempt, hrest⟩ := not_or.1 (List.mem_cons.not.1 h0)
    have hpos : attempt > 0 := Nat.pos_of_ne_zero (fun h => hattempt h.symm)
    have hdelay : timerDelay retryDelayMs = retryDelayMs := by norm_num [timerDelay, retryDelayMs]
    -- the sleep ends within the budget, which funded it and a hop
    have hstart : Within env.toProbeEnv t0 (now + timerDelay retryDelayMs) := by
      have hsum := within_add_of_le_remaining hlim ht hw (by norm_num [retryDelayMs, minHopMs]) hleft
      have hmin : (0 : ℚ) ≤ minHopMs := by norm_num [minHopMs]
      have hle := le_add_timerDelay now retryDelayMs
      rw [hdelay] at hle ⊢
      exact ⟨hw.1.trans hle, by linarith [hsum.2]⟩
    unfold attemptLoop
    simp only [hpos, if_true, true_and]
    split
    · exact ⟨hstart, hhops⟩
    · rename_i hallow
      have hhop : minHopMs ≤ _ := of_decide_eq_true (not_not.1 hallow)
      have hmem := fetchHealthOnce_mem (env.reply attempt)
        ((startProbeDeadline env.toProbeEnv t0).hop (now + timerDelay retryDelayMs) timeoutMs)
        (now + timerDelay retryDelayMs)
      have hend := within_hop hlim ht hstart (show 1 ≤ timeoutMs by norm_num [timeoutMs]) hhop hmem.1 hmem.2
      have hhops' : ∀ left ∈ (hops ++ [(startProbeDeadline env.toProbeEnv t0).remaining
          (now + timerDelay retryDelayMs)]).tail, minHopMs ≤ left := by
        rw [List.tail_append_of_ne_nil hne]
        intro left hm
        rcases List.mem_append.1 hm with hm | hm
        · exact hhops left hm
        · rw [List.mem_singleton.1 hm]
          exact hhop
      split
      · rename_i res t heq
        rw [heq] at hend
        exact ⟨hend, hhops'⟩
      · rename_i msg t heq
        rw [heq] at hend
        split
        · exact ⟨hend, hhops'⟩
        · rename_i hallow'
          exact attemptLoop_kept hlim ht rest _ (some msg) t (by simp) hrest hend hhops'
            (of_decide_eq_true (not_not.1 hallow'))

theorem probeUpdaterHealth_kept {env : UpdaterEnv} (hlim : probeTimeoutMs env.toProbeEnv ≤ 2 ^ 31 - 1)
    (ht : OnCalendar t0) : (probeUpdaterHealth env t0).Kept env.toProbeEnv t0 := by
  have hmem := fetchHealthOnce_mem (env.reply 0) ((startProbeDeadline env.toProbeEnv t0).hop t0 timeoutMs) t0
  have hfirst := within_firstHop hlim ht hmem.1 hmem.2
  have hone : ∀ left ∈ ([(startProbeDeadline env.toProbeEnv t0).remaining t0] : List ℚ).tail, minHopMs ≤ left := by simp
  rw [probeUpdaterHealth, show List.range (retries + 1) = [0, 1, 2] from rfl, attemptLoop]
  simp only [gt_iff_lt, lt_irrefl, if_false, false_and, List.nil_append]
  split
  · rename_i res t heq
    rw [heq] at hfirst
    exact ⟨hfirst, hone⟩
  · rename_i msg t heq
    rw [heq] at hfirst
    split
    · exact ⟨hfirst, hone⟩
    · rename_i hallow
      exact attemptLoop_kept hlim ht [1, 2] _ (some msg) t (by simp) (by simp) hfirst hone
        (of_decide_eq_true (not_not.1 hallow))

/-- **The probe speaks for itself**: it settles before the runner's timer, the runner reports its verdict, and no hop but
the first was started with less than `minHopMs` left. -/
def InTime (env : ProbeEnv) (spec : ProbeSpec) (t0 : ℚ) (run : ProbeRun) : Prop :=
  run.settledAt < t0 + timerDelay (probeTimeoutMs env) ∧
    (∀ text, runWithTimeout spec (probeTimeoutMs env) t0 text run.settled = run.result) ∧
    ∀ left ∈ run.hops.tail, minHopMs ≤ left

theorem ProbeRun.Kept.inTime {env : ProbeEnv} (hlim : probeTimeoutMs env ≤ 2 ^ 31 - 1) (ht : OnCalendar t0) {run : ProbeRun}
    (h : run.Kept env t0) (spec : ProbeSpec) : InTime env spec t0 run := by
  have hbefore := within_lt_ceiling hlim ht h.1
  refine ⟨hbefore, fun text => ?_, h.2⟩
  rw [runWithTimeout, if_pos (show run.settled.settledAt < _ from hbefore)]
  rfl

end

/-- **The health probes settle in time**, whatever the ceiling and whatever the endpoints do. -/
theorem probes_in_time (signalk : SignalkEnv) (updater : UpdaterEnv) (t0 : ℚ) (ht : OnCalendar t0)
    (hsignalk : probeTimeoutMs signalk.toProbeEnv ≤ 2 ^ 31 - 1) (hupdater : probeTimeoutMs updater.toProbeEnv ≤ 2 ^ 31 - 1) :
    InTime signalk.toProbeEnv signalkSpec t0 (probeSignalkHealth signalk t0) ∧
      InTime updater.toProbeEnv updaterSpec t0 (probeUpdaterHealth updater t0) :=
  ⟨(probeSignalkHealth_kept hsignalk ht).inTime hsignalk ht signalkSpec,
    (probeUpdaterHealth_kept hupdater ht).inTime hupdater ht updaterSpec⟩

/-- The ceiling unset, and an HTTPS URL configured. -/
def stalledSignalk : SignalkEnv where
  PROBE_TIMEOUT_MS := none
  number := fun _ => .nan
  fl := .exact
  SIGNALK_URL := none
  SIGNALK_HTTPS_URL := some "https://host.containers.internal:443/signalk"
  http := none
  https := none

/-- An updater that sends its headers and then stalls. -/
def stalledUpdater : UpdaterEnv where
  PROBE_TIMEOUT_MS := none
  number := fun _ => .nan
  fl := .exact
  UPDATER_URL := none
  reply := fun _ => ⟨some ⟨12, by norm_num, .ok ⟨200, false⟩⟩, none⟩

theorem probes_in_time_stalled :
    InTime stalledSignalk.toProbeEnv signalkSpec 1790000000000 (probeSignalkHealth stalledSignalk 1790000000000) ∧
      InTime stalledUpdater.toProbeEnv updaterSpec 1790000000000 (probeUpdaterHealth stalledUpdater 1790000000000) :=
  probes_in_time stalledSignalk stalledUpdater 1790000000000 (by norm_num [OnCalendar])
    (by norm_num [probeTimeoutMs, stalledSignalk]) (by norm_num [probeTimeoutMs, stalledUpdater])

example : (probeUpdaterHealth stalledUpdater 0).hops = [7500, 1000] ∧ (probeUpdaterHealth stalledUpdater 0).settledAt = 7500 := by
  decide +kernel

end Probes
end SignalkDoctor
