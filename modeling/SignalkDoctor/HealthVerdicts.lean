import Mathlib.Algebra.Order.Floor.Ring
import SignalkDoctor.HealthProbes
/-!
# HealthVerdicts — what the health probes do not miss (`src/probes/signalk-health.ts`, `updater-health.ts`)

A probe may run out of budget before its last hop.  `remaining_ge` is what a large enough ceiling leaves it after the hops
and the sleeps before: so signalk-server is found on HTTPS even if HTTP stalls (`signalk_found`), and one answer of the
updater makes up for the attempts before it (`updater_found`).
-/
namespace SignalkDoctor
namespace HealthVerdicts

open Probes

/-! ## What is left after some time -/

section
variable {env : ProbeEnv} {t0 : ℚ}

/-- The milliseconds of the clock that have passed. -/
def Elapsed (t0 t : ℚ) (ms : Int) : Prop := dateNow t - dateNow t0 ≤ ms

theorem Elapsed.start (t0 : ℚ) : Elapsed t0 t0 0 := by
  unfold Elapsed
  omega

/-- A wait of whole milliseconds adds them. -/
theorem Elapsed.wait {t t' : ℚ} {ms : Int} (h : Elapsed t0 t ms) (n : Int) (hle : t' ≤ t + n) : Elapsed t0 t' (ms + n) := by
  have hfloor : dateNow t' ≤ dateNow t + n := by
    unfold dateNow
    rw [← Int.floor_add_intCast]
    exact Int.floor_le_floor hle
  unfold Elapsed at h ⊢
  omega

variable (env) in
/-- **A ceiling leaves what the hops before have not used**, but for the margin. -/
theorem remaining_ge (ht : OnCalendar t0) (budget : Int) {ms : Int} (hbudget : 0 ≤ budget) (hlim : budget ≤ 2 ^ 31)
    (hceiling : budget + 500 ≤ probeTimeoutMs env) {t : ℚ} (h : Elapsed t0 t ms) (hms : ms ≤ budget) (hfrom : t0 ≤ t) :
    (budget - ms : ℚ) ≤ (startProbeDeadline env t0).remaining t := by
  obtain ⟨hlo, hhi⟩ := abs_le.1 ht
  have hnow := dateNow_le t0
  have hnow' := lt_dateNow_add_one t0
  have hmono : dateNow t0 ≤ dateNow t := Int.floor_le_floor hfrom
  have hcast : (budget : ℚ) ≤ 2 ^ 31 := by exact_mod_cast hlim
  have hcast' : (0 : ℚ) ≤ budget := by exact_mod_cast hbudget
  -- the end of the budget
  have hfunds : (budget : ℚ) ≤ max 1 (env.fl.round (probeTimeoutMs env - min marginMs ⌈env.fl.round (probeTimeoutMs env / 10)⌉)) := by
    have hmargin : min marginMs ⌈env.fl.round (probeTimeoutMs env / 10)⌉ ≤ 500 := min_le_left ..
    refine le_max_of_le_right (env.fl.int_le_round (abs_le.2 ⟨by omega, by omega⟩) ?_)
    linarith
  have hends : ((dateNow t0 + budget : ℤ) : ℚ) ≤ (startProbeDeadline env t0).endsAt := by
    refine env.fl.int_le_round (abs_le.2 ⟨?_, ?_⟩) ?_
    · have : ((-2 ^ 53 : ℤ) : ℚ) ≤ (dateNow t0 + budget : ℤ) := by
        push_cast
        linarith
      exact_mod_cast this
    · have : ((dateNow t0 + budget : ℤ) : ℚ) ≤ (2 ^ 53 : ℤ) := by
        push_cast
        linarith
      exact_mod_cast this
    · push_cast
      linarith
  -- what of it is left
  have hleft : ((dateNow t0 + budget - dateNow t : ℤ) : ℚ) ≤ env.fl.round ((startProbeDeadline env t0).endsAt - dateNow t) := by
    refine env.fl.int_le_round ?_ ?_
    · unfold Elapsed at h
      exact abs_le.2 ⟨by omega, by omega⟩
    · push_cast at hends ⊢
      linarith
  refine le_max_of_le_right (le_trans ?_ hleft)
  have : budget - ms ≤ dateNow t0 + budget - dateNow t := by
    unfold Elapsed at h
    omega
  exact_mod_cast this

/-- The hop of a probe with a second left or more: one second or more. -/
theorem timerDelay_hop {d : ProbeDeadline} {t : ℚ} (want : ℚ) (hwant : 1000 ≤ want) (hlim : want ≤ 2 ^ 31 - 1) (hleft : 1000 ≤ d.remaining t) :
    1000 ≤ timerDelay (d.hop t want) ∧ timerDelay (d.hop t want) ≤ want := by
  have hge : 1000 ≤ d.hop t want := le_min hwant hleft
  have hle : d.hop t want ≤ want := min_le_left ..
  refine ⟨?_, (timerDelay_le (by linarith)).trans hle⟩
  rw [timerDelay, if_pos ⟨by linarith, by linarith⟩]
  have : (1000 : ℤ) ≤ ⌊d.hop t want⌋ := Int.le_floor.2 (by exact_mod_cast hge)
  exact_mod_cast this

end

/-! ## signalk-server -/

theorem awaitUntil_mem_result {α : Type} {abortAt t t' : ℚ} {r : Option (Arrival α)} {v : α}
    (h : awaitUntil abortAt t r = (.ok v, t')) : ∃ a, r = some a ∧ a.result = .ok v := by
  unfold awaitUntil at h
  split at h
  · rename_i a
    split at h
    · exact ⟨a, rfl, (Prod.mk.inj h).1⟩
    · cases (Prod.mk.inj h).1
  · cases (Prod.mk.inj h).1

theorem awaitUntil_soon {α : Type} (abortAt t : ℚ) (a : Arrival α) (h : t + a.after ≤ abortAt) :
    awaitUntil abortAt t (some a) = (a.result, t + a.after) := if_pos h

/-- HTTPS answers within its hop. -/
theorem probeHttps_found {env : SignalkEnv} (t0 now : ℚ) {d : ProbeDeadline} (hleft : 1000 ≤ d.remaining now) {a : Arrival Response}
    {res : Response} (hhttps : env.https = some a) (hsoon : a.after ≤ 1000) (hres : a.result = .ok res) (hok : res.ok = true)
    (httpsUrl : String) (reason : HttpsReason) :
    ∃ message t, probeHttps env httpsUrl t0 reason d now = (okResult message t0 t, true, t) := by
  obtain ⟨hhop, -⟩ := timerDelay_hop hopTimeoutMs (by norm_num [hopTimeoutMs]) (by norm_num [hopTimeoutMs]) hleft
  have hawait := awaitUntil_soon (now + timerDelay (d.hop now hopTimeoutMs)) now a (by linarith)
  have hanswer : Probes.hop env.https (d.hop now hopTimeoutMs) now = (.ok res, now + a.after) := by
    rw [Probes.hop, hhttps, hawait, hres]
    rfl
  unfold probeHttps
  rw [hanswer]
  dsimp only
  rw [if_pos hok]
  exact ⟨_, _, rfl⟩

theorem hop_answer {endpoint : Option (Arrival Response)} {timeoutMs now t : ℚ} {r : Response}
    (h : Probes.hop endpoint timeoutMs now = (.ok r, t)) : ∃ b, endpoint = some b ∧ b.result = .ok r := by
  unfold Probes.hop at h
  cases hawait : awaitUntil (now + timerDelay timeoutMs) now endpoint with
  | mk result t' =>
    rw [hawait] at h
    cases result with
    | error err => cases (Prod.mk.inj h).1
    | ok r' =>
      cases (Prod.mk.inj h).1
      exact awaitUntil_mem_result hawait

theorem okResult_ne_fail (message : String) (t0 now : ℚ) : (okResult message t0 now).status ≠ .fail := by
  unfold okResult
  dsimp only
  split <;> exact fun h => by cases h

/-- **A server that answers on HTTPS within a second is found**, unless HTTP answers with an error of its own: whatever
HTTP does, stalling its whole hop included, the verdict is no failure. -/
theorem signalk_found (env : SignalkEnv) (t0 : ℚ) (ht : OnCalendar t0) (hceiling : 6500 ≤ probeTimeoutMs env.toProbeEnv)
    (httpsUrl : String) (hurl : env.SIGNALK_HTTPS_URL = some httpsUrl) (hne : httpsUrl ≠ "") (a : Arrival Response)
    (res : Response) (hhttps : env.https = some a) (hsoon : a.after ≤ 1000) (hres : a.result = .ok res) (hok : res.ok = true)
    (hhttp : ∀ b r, env.http = some b → b.result = .ok r → r.ok = true ∨ isRedirect r = true) :
    (probeSignalkHealth env t0).result.status ≠ .fail := by
  have hmem := hop_mem env.http ((startProbeDeadline env.toProbeEnv t0).hop t0 hopTimeoutMs) t0
  -- whatever HTTP does, it leaves a second
  have hstart : 1000 ≤ (startProbeDeadline env.toProbeEnv t0).remaining t0 := by
    have := remaining_ge env.toProbeEnv ht 6000 (by norm_num) (by norm_num) (by norm_num; exact hceiling)
      (Elapsed.start t0) (by norm_num) le_rfl
    norm_num at this
    linarith
  obtain ⟨-, hcap⟩ := timerDelay_hop hopTimeoutMs (by norm_num [hopTimeoutMs]) (by norm_num [hopTimeoutMs]) hstart
  have hleft : 1000 ≤ (startProbeDeadline env.toProbeEnv t0).remaining
      (Probes.hop env.http ((startProbeDeadline env.toProbeEnv t0).hop t0 hopTimeoutMs) t0).2 := by
    have hcap : timerDelay ((startProbeDeadline env.toProbeEnv t0).hop t0 hopTimeoutMs) ≤ 5000 := hcap
    have hend : Elapsed t0 (Probes.hop env.http ((startProbeDeadline env.toProbeEnv t0).hop t0 hopTimeoutMs) t0).2 (0 + 5000) :=
      (Elapsed.start t0).wait 5000 (by push_cast; linarith [hmem.2])
    have := remaining_ge env.toProbeEnv ht 6000 (by norm_num) (by norm_num) (by norm_num; exact hceiling) hend
      (by norm_num) hmem.1
    norm_num at this
    exact this
  have hfilter : (signalkHttpsUrl env).filter (fun url => url != "") = some httpsUrl := by
    rw [signalkHttpsUrl, hurl]
    simp [hne]
  unfold probeSignalkHealth
  simp only [hfilter]
  split
  · rename_i r t hhop
    rw [hhop] at hleft
    have hallows : (startProbeDeadline env.toProbeEnv t0).allows t minHopMs = true := decide_eq_true hleft
    split
    · exact okResult_ne_fail _ _ _
    · rename_i hnot
      obtain ⟨b, hb, hr⟩ := hop_answer hhop
      have hredirect := (hhttp b r hb hr).resolve_left hnot
      obtain ⟨message, t', hfound⟩ := probeHttps_found t0 t hleft hhttps hsoon hres hok httpsUrl .redirect
      rw [if_pos hredirect]
      simp only [hfound]
      exact okResult_ne_fail message t0 t'
  · rename_i httpErr t hhop
    rw [hhop] at hleft
    have hallows : (startProbeDeadline env.toProbeEnv t0).allows t minHopMs = true := decide_eq_true hleft
    obtain ⟨message, t', hfound⟩ := probeHttps_found t0 t hleft hhttps hsoon hres hok httpsUrl .fallback
    simp only [signalkHttpsUrl, hurl, Option.isSome_some, hallows, Bool.and_self, hfound, if_true]
    exact okResult_ne_fail message t0 t'

/-- HTTP stalls, and HTTPS answers. -/
def stalledHttp : SignalkEnv where
  PROBE_TIMEOUT_MS := none
  number := fun _ => .nan
  fl := .exact
  SIGNALK_URL := none
  SIGNALK_HTTPS_URL := some "https://host.containers.internal:443/signalk"
  http := none
  https := some ⟨40, by norm_num, .ok ⟨200, false⟩⟩

theorem signalk_found_stalledHttp : (probeSignalkHealth stalledHttp 1790000000000).result.status ≠ .fail :=
  signalk_found stalledHttp 1790000000000 (by norm_num [OnCalendar]) (by norm_num [probeTimeoutMs, stalledHttp])
    "https://host.containers.internal:443/signalk" rfl (by decide) ⟨40, by norm_num, .ok ⟨200, false⟩⟩ ⟨200, false⟩ rfl
    (by norm_num) rfl rfl (fun b r h => by cases h)

/-! ## The updater -/

/-- An attempt that answers and sends its body, all within a second. -/
def AnswersSoon (reply : UpdaterReply) (res : Response) (parsed : Json) : Prop :=
  ∃ a b, reply.headers = some a ∧ a.result = .ok res ∧ res.ok = true ∧ reply.body = some b ∧ b.result = .ok parsed ∧
    a.after + b.after ≤ 1000

/-- An attempt that is not answered with an error of HTTP. -/
def NoHttpError (reply : UpdaterReply) : Prop := ∀ a res, reply.headers = some a → a.result = .ok res → res.ok = true

/-- An attempt that is not answered. -/
def Misses (reply : UpdaterReply) : Prop := ∀ a, reply.headers = some a → ∃ err, a.result = .error err

section
variable {reply : UpdaterReply} {now ms : ℚ}

theorem fetchHealthOnce_soon {res : Response} {parsed : Json} (h : AnswersSoon reply res parsed) (hms : 1000 ≤ timerDelay ms) :
    ∃ t, fetchHealthOnce reply ms now = (.ok ⟨true, res.status, if isHealthBody parsed then some parsed else none⟩, t) ∧
      t ≤ now + 1000 := by
  obtain ⟨a, b, hheaders, hres, hok, hbody, hparsed, hsum⟩ := h
  have ha := a.after_nonneg
  have hb := b.after_nonneg
  refine ⟨now + a.after + b.after, ?_, by linarith⟩
  have hfirst := awaitUntil_soon (now + timerDelay ms) now a (by linarith)
  have hsecond := awaitUntil_soon (now + timerDelay ms) (now + a.after) b (by linarith)
  rw [hres] at hfirst
  rw [hparsed] at hsecond
  simp only [fetchHealthOnce, hheaders, hfirst, hok, not_true, if_false, hbody, hsecond]

theorem ok_of_noHttpError {res : HealthAnswer} {t : ℚ} (hno : NoHttpError reply)
    (h : fetchHealthOnce reply ms now = (.ok res, t)) : res.ok = true := by
  unfold fetchHealthOnce at h
  dsimp only at h
  split at h
  · cases (Prod.mk.inj h).1
  · rename_i r t' heq
    obtain ⟨a, ha, hr⟩ := awaitUntil_mem_result heq
    rw [if_neg (not_not.2 (hno a r ha hr))] at h
    split at h
    · split at h
      · cases (Prod.mk.inj h).1
      · cases (Prod.mk.inj h).1
        rfl
    · cases (Prod.mk.inj h).1
      rfl

theorem fetchHealthOnce_miss (h : Misses reply) (res : HealthAnswer) (t : ℚ) : fetchHealthOnce reply ms now ≠ (.ok res, t) := by
  intro heq
  unfold fetchHealthOnce at heq
  dsimp only at heq
  split at heq
  · cases (Prod.mk.inj heq).1
  · rename_i r t' hawait
    obtain ⟨a, ha, hr⟩ := awaitUntil_mem_result hawait
    obtain ⟨err, herr⟩ := h a ha
    rw [herr] at hr
    cases hr

end

section
variable {url : String} {res : HealthAnswer} {t0 attemptStart now : ℚ}

theorem judgeAnswer_ne_fail (hok : res.ok = true) : (judgeAnswer url res t0 attemptStart now).status ≠ .fail := by
  unfold judgeAnswer
  rw [if_neg (not_not.2 hok)]
  cases res.body with
  | none => exact fun h => by cases h
  | some body =>
    dsimp only
    split
    · exact fun h => by cases h
    · split <;> exact fun h => by cases h

theorem judgeAnswer_ok {body : Json} (hok : res.ok = true) (hbody : res.body = some body)
    (hreports : body.get? "ok" = some (.bool true)) (hfast : now ≤ attemptStart + 1000) :
    (judgeAnswer url res t0 attemptStart now).status = .ok := by
  have hslow : ¬ dateNow now - dateNow attemptStart > slowMs := by
    have : dateNow now ≤ dateNow attemptStart + 1000 := by
      unfold dateNow
      rw [← Int.floor_add_intCast]
      exact Int.floor_le_floor (by exact_mod_cast hfast)
    unfold slowMs
    omega
  unfold judgeAnswer
  rw [if_neg (not_not.2 hok), hbody]
  dsimp only
  rw [if_neg (not_not.2 hreports), if_neg hslow]
  rfl

end

/-- What is promised of a run: no failure, and a clean bill if the attempts before the one that answers are not answered and
it says so. -/
def Found (env : UpdaterEnv) (k misses : Nat) (parsed : Json) (run : ProbeRun) : Prop :=
  run.result.status ≠ .fail ∧
    ((∀ i, k ≤ i → i < misses → Misses (env.reply i)) → isHealthBody parsed = true → parsed.get? "ok" = some (.bool true) →
      run.result.status = .ok)

section
variable {env : UpdaterEnv} {t0 : ℚ} {misses : Nat}

/-- What a ceiling for so many misses and an answer leaves after some time. -/
theorem left_of_elapsed (ht : OnCalendar t0) (hfew : misses ≤ retries)
    (hceiling : misses * 6500 + 1500 ≤ probeTimeoutMs env.toProbeEnv) {t : ℚ} {ms : Nat} (h : Elapsed t0 t ms) (hfrom : t0 ≤ t)
    (hms : ms ≤ misses * 6500 + 1000) :
    (misses * 6500 + 1000 - ms : ℚ) ≤ (startProbeDeadline env.toProbeEnv t0).remaining t := by
  have hfew : misses ≤ 2 := hfew
  have := remaining_ge env.toProbeEnv ht (misses * 6500 + 1000) (by omega) (by omega) (by push_cast; linarith) h
    (by omega) hfrom
  push_cast at this
  exact this

/-- An attempt starts after its sleep. -/
theorem attempt_start {k : Nat} {now : ℚ} (hfrom : t0 ≤ now) (h : Elapsed t0 now (if k = 0 then 0 else k * 6500 - 1500)) :
    let start := if k > 0 then now + timerDelay retryDelayMs else now
    t0 ≤ start ∧ Elapsed t0 start (k * 6500 : Nat) := by
  have hdelay : timerDelay retryDelayMs = 1500 := by norm_num [timerDelay, retryDelayMs]
  intro start
  by_cases hk : k = 0
  · subst hk
    exact ⟨hfrom, h⟩
  · have hstart : start = now + 1500 := by rw [← hdelay]; exact if_pos (Nat.pos_of_ne_zero hk)
    have hle : start ≤ now + (1500 : Int) := by
      rw [hstart]
      norm_num
    have hslept := h.wait 1500 hle
    rw [if_neg hk] at hslept
    refine ⟨by linarith, ?_⟩
    unfold Elapsed at hslept ⊢
    push_cast
    omega

/-- The budget has a second for each attempt up to the one that answers. -/
theorem second_left (ht : OnCalendar t0) (hfew : misses ≤ retries)
    (hceiling : misses * 6500 + 1500 ≤ probeTimeoutMs env.toProbeEnv) {k : Nat} {start : ℚ} (hk : k ≤ misses) (hfrom : t0 ≤ start)
    (h : Elapsed t0 start (k * 6500 : Nat)) : 1000 ≤ (startProbeDeadline env.toProbeEnv t0).remaining start := by
  have hleft := left_of_elapsed ht hfew hceiling h hfrom (by omega)
  have hkmisses : (k : ℚ) ≤ misses := by exact_mod_cast hk
  push_cast at hleft
  linarith

/-- After a miss it has a backoff and a second for the next one. -/
theorem next_allowed (ht : OnCalendar t0) (hfew : misses ≤ retries)
    (hceiling : misses * 6500 + 1500 ≤ probeTimeoutMs env.toProbeEnv) {k : Nat} {start t : ℚ} (hk : k < misses)
    (h : Elapsed t0 start (k * 6500 : Nat)) (hfrom : t0 ≤ t) (hwait : t ≤ start + 5000) :
    Elapsed t0 t (k * 6500 + 5000 : Nat) ∧
      (startProbeDeadline env.toProbeEnv t0).allows t (retryDelayMs + minHopMs) = true := by
  have hwaited : Elapsed t0 t ((k * 6500 : Nat) + 5000) := h.wait 5000 (by push_cast; linarith)
  have hend : Elapsed t0 t (k * 6500 + 5000 : Nat) := by exact_mod_cast hwaited
  have hleft := left_of_elapsed ht hfew hceiling hend hfrom (by omega)
  have hkmisses : (k : ℚ) + 1 ≤ misses := by exact_mod_cast hk
  push_cast at hleft
  refine ⟨hend, decide_eq_true ?_⟩
  have : (retryDelayMs + minHopMs : ℚ) = 2500 := by norm_num [retryDelayMs, minHopMs]
  linarith

/-- **The attempts from one on**, each started with the budget the ones before leave. -/
theorem attemptLoop_found (ht : OnCalendar t0) (hfew : misses ≤ retries)
    (hceiling : misses * 6500 + 1500 ≤ probeTimeoutMs env.toProbeEnv)
    (hno : ∀ i ≤ misses, NoHttpError (env.reply i)) {res : Response} {parsed : Json}
    (hsoon : AnswersSoon (env.reply misses) res parsed) :
    ∀ (n k : Nat) (hops : List ℚ) (lastErr : Option String) (now : ℚ), k ≤ misses → misses < k + n → t0 ≤ now →
      Elapsed t0 now (if k = 0 then 0 else k * 6500 - 1500) →
        Found env k misses parsed
          (attemptLoop env (startProbeDeadline env.toProbeEnv t0) t0 (List.range' k n) hops lastErr now) := by
  intro n
  induction n with
  | zero => intro k _ _ _ hk hlt; omega
  | succ n ih =>
    intro k hops lastErr now hk hlt hfrom helapsed
    obtain ⟨hfrom', helapsed'⟩ := attempt_start hfrom helapsed
    rw [List.range'_succ, attemptLoop]
    dsimp only at hfrom' helapsed' ⊢
    generalize (if k > 0 then now + timerDelay retryDelayMs else now) = start at hfrom' helapsed' ⊢
    have hsecond := second_left ht hfew hceiling hk hfrom' helapsed'
    have hallows : (startProbeDeadline env.toProbeEnv t0).allows start minHopMs = true := decide_eq_true hsecond
    rw [if_neg (fun h => h.2 hallows)]
    obtain ⟨hhop, hhop'⟩ := timerDelay_hop timeoutMs (by norm_num [timeoutMs]) (by norm_num [timeoutMs]) hsecond
    have hmem := fetchHealthOnce_mem (env.reply k) ((startProbeDeadline env.toProbeEnv t0).hop start timeoutMs) start
    have hanswers : k = misses → ∃ t, fetchHealthOnce (env.reply k)
        ((startProbeDeadline env.toProbeEnv t0).hop start timeoutMs) start =
          (.ok ⟨true, res.status, if isHealthBody parsed then some parsed else none⟩, t) ∧ t ≤ start + 1000 :=
      fun hlast => fetchHealthOnce_soon (hlast ▸ hsoon) hhop
    split
    · -- the first answer is the one that counts
      rename_i answer t hfetch
      have hok := ok_of_noHttpError (hno k hk) hfetch
      refine ⟨judgeAnswer_ne_fail hok, fun hmisses hbody hreports => ?_⟩
      rcases Nat.lt_or_ge k misses with hlt' | hge
      · exact absurd hfetch (fetchHealthOnce_miss (hmisses k le_rfl hlt') answer t)
      · obtain ⟨t', hsame, hfast⟩ := hanswers (le_antisymm hk hge)
        rw [hfetch, if_pos hbody] at hsame
        obtain ⟨hanswer, rfl⟩ := Prod.mk.inj hsame
        cases hanswer
        exact judgeAnswer_ok rfl rfl hreports hfast
    · -- a miss, and so not the attempt that answers
      rename_i msg t hfetch
      rw [hfetch] at hmem
      have hlt' : k < misses := by
        refine lt_of_le_of_ne hk (fun hlast => ?_)
        obtain ⟨t', hsame, -⟩ := hanswers hlast
        rw [hfetch] at hsame
        cases (Prod.mk.inj hsame).1
      have hcap : timerDelay ((startProbeDeadline env.toProbeEnv t0).hop start timeoutMs) ≤ 5000 := hhop'
      have hfrom'' : t0 ≤ t := hfrom'.trans hmem.1
      obtain ⟨hend, hnext⟩ := next_allowed ht hfew hceiling hlt' helapsed' hfrom'' (by linarith [hmem.2])
      rw [if_neg (not_not.2 hnext)]
      have hrest := ih (k + 1) (hops ++ [(startProbeDeadline env.toProbeEnv t0).remaining start]) (some msg) t hlt' (by omega)
        hfrom'' (by
          rw [if_neg (Nat.succ_ne_zero k)]
          unfold Elapsed at hend ⊢
          push_cast at hend ⊢
          omega)
      exact ⟨hrest.1, fun hmisses => hrest.2 (fun i hi => hmisses i (by omega))⟩

end

/-- **An answer makes up for the misses before it.**  With a ceiling of 6.5 s for each of up to two misses and 1.5 s more,
so with the default one for a single miss: if no attempt up to that one is answered with an error of HTTP, and it is answered
within a second, then the updater is not reported down, whatever the attempts before did; and if those got no answer, a
health body that says so gives a clean bill. -/
theorem updater_found (env : UpdaterEnv) (t0 : ℚ) (ht : OnCalendar t0) (misses : Nat) (hfew : misses ≤ retries)
    (hceiling : misses * 6500 + 1500 ≤ probeTimeoutMs env.toProbeEnv) (hno : ∀ i ≤ misses, NoHttpError (env.reply i))
    (res : Response) (parsed : Json) (hsoon : AnswersSoon (env.reply misses) res parsed) :
    (probeUpdaterHealth env t0).result.status ≠ .fail ∧
      ((∀ i < misses, Misses (env.reply i)) → isHealthBody parsed = true → parsed.get? "ok" = some (.bool true) →
        (probeUpdaterHealth env t0).result.status = .ok) := by
  have hfew' : misses ≤ 2 := hfew
  have hrun := attemptLoop_found ht hfew hceiling hno hsoon (retries + 1) 0 [] none t0 (Nat.zero_le _)
    (by rw [Nat.zero_add]; exact Nat.lt_succ_of_le hfew) le_rfl (Elapsed.start t0)
  rw [← List.range_eq_range'] at hrun
  exact ⟨hrun.1, fun hmisses => hrun.2 (fun i _ hi => hmisses i hi)⟩

/-- An updater that misses the first attempt. -/
def busyUpdater : UpdaterEnv where
  PROBE_TIMEOUT_MS := none
  number := fun _ => .nan
  fl := .exact
  UPDATER_URL := none
  reply
    | 0 => ⟨none, none⟩
    | _ + 1 => ⟨some ⟨17, by norm_num, .ok ⟨200, false⟩⟩, some ⟨9, by norm_num, .ok (.obj [("ok", .bool true)])⟩⟩

theorem updater_found_busy : (probeUpdaterHealth busyUpdater 1790000000000).result.status = .ok :=
  (updater_found busyUpdater 1790000000000 (by norm_num [OnCalendar]) 1 (by decide) (by norm_num [probeTimeoutMs, busyUpdater])
    (fun i _ a res hreply hres => by
      cases i with
      | zero => cases hreply
      | succ i =>
        cases hreply
        cases hres
        rfl)
    ⟨200, false⟩ (.obj [("ok", .bool true)])
    ⟨⟨17, by norm_num, .ok ⟨200, false⟩⟩, ⟨9, by norm_num, .ok (.obj [("ok", .bool true)])⟩, rfl, rfl, rfl, rfl, rfl, by norm_num⟩).2
    (fun i hi a hreply => by
      obtain rfl : i = 0 := by omega
      cases hreply) rfl rfl

end HealthVerdicts
end SignalkDoctor
