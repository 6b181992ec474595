import Mathlib.Tactic.Linarith
import SignalkDoctor.ChildProcess
import SignalkDoctor.JsonText
import SignalkDoctor.LogRoute
import SignalkDoctor.Probes
/-!
# HostCommands — what the doctor has the host run (`src/dbus/systemd-user.ts`, `src/host-timezone.ts`)

The calls of systemd's manager go through `busctl`, the host's time zone comes from a transient unit of `systemd-run`; both
are children with a timer (`ChildProcess`).  `call_outcome` is when a call of the manager succeeds and what it says
otherwise, `readHostTimezone_output` that a zone is read whole however its output is cut, and `unit_before_client` when
the host's own limit of the unit comes before the doctor's timer.
-/
namespace SignalkDoctor
namespace HostCommands

open ChildProcess (Child End Event Keep Settled firstEnd length_units_ascii ofAscii received received_of_ascii run_kills
  run_settled written)
open JsString (trim)
open LogRoute (parseInt)
open Utf16 (IsHigh IsLow Units pair single text)

/-- A text as the language prints it; a surrogate alone is U+FFFD. -/
def shown (s : Units) : String := String.ofList (text s)

/-! ## systemd's manager -/

structure BusctlResult where
  ok : Bool
  stdout : String
  stderr : String
  exitCode : Option Int
  deriving DecidableEq, Repr

/-- `runBusctl`'s promise, of the settled child. -/
def busctlResult (s : Settled) : BusctlResult :=
  match s.ending with
  | .timeout => ⟨false, shown s.stdout, shown s.stderr ++ "\n[busctl: timed out]", none⟩
  | .closed code => ⟨decide (code = some 0), shown s.stdout, shown s.stderr, code⟩
  | .failed message => ⟨false, shown s.stdout, shown s.stderr ++ message, none⟩

/-- The child after the events it had, everything of both pipes kept. -/
def busctl (events : List Event) : Child := Child.spawned.handleAll .all .all events

/-- `runBusctl`, over `DBUS_SESSION_BUS_ADDRESS`; `none` while it waits. -/
def runBusctl (busAddress : Option String) (events : List Event) : Option (Except String BusctlResult) :=
  match busAddress with
  | none | some "" => some (.error "DBUS_SESSION_BUS_ADDRESS not set")
  | some _ => (busctl events).settled.map (fun s => .ok (busctlResult s))

def busctlArgs (busAddress method signature : String) (args : List String) : List String :=
  ["--user", "--address=" ++ busAddress, "call", "org.freedesktop.systemd1", "/org/freedesktop/systemd1",
    "org.freedesktop.systemd1.Manager", method, signature] ++ args

def exitText : Option Int → String
  | some code => toString code
  | none => "null"

def failureText (method : String) (r : BusctlResult) : String :=
  "busctl " ++ method ++ " failed (exit " ++ exitText r.exitCode ++ "): " ++ trim r.stderr

def answer (method : String) (r : BusctlResult) : Except String Unit :=
  if r.ok then .ok () else .error (failureText method r)

/-- `call` -/
def call (method : String) (busAddress : Option String) (events : List Event) : Option (Except String Unit) :=
  (runBusctl busAddress events).map (fun r => r.bind (answer method))

/-- A method of the manager the doctor calls, with its signature and arguments. -/
structure Method where
  name : String
  signature : String
  args : List String

def daemonReload : Method := ⟨"Reload", "", []⟩

def restartUnit (unit : String) : Method := ⟨"RestartUnit", "ss", [unit, "replace"]⟩

def startUnit (unit : String) : Method := ⟨"StartUnit", "ss", [unit, "replace"]⟩

def stopUnit (unit : String) : Method := ⟨"StopUnit", "ss", [unit, "replace"]⟩

theorem busctlResult_ok_iff (s : Settled) : (busctlResult s).ok = true ↔ s.ending = .closed (some 0) := by
  unfold busctlResult
  split
  · rename_i h; simp [h]
  · rename_i h; simp [h]
  · rename_i h; simp [h]

theorem answer_ok_iff (method : String) (r : BusctlResult) : answer method r = .ok () ↔ r.ok = true := by
  unfold answer
  split <;> simp [*]

theorem answer_error_iff (method : String) (r : BusctlResult) (message : String) :
    answer method r = .error message ↔ ¬ r.ok = true ∧ failureText method r = message := by
  unfold answer
  split <;> simp [*]

/-- **What a call of the manager comes to**, whatever the child does and in whatever order: nothing before the first of
exit, failure and timer; success exactly when that is an exit with code 0; else an error that quotes all of the error output
so far.  The child is killed exactly when that is the timer. -/
theorem call_outcome (m : Method) (busAddress : String) (haddress : busAddress ≠ "") (events : List Event) :
    (call m.name (some busAddress) events = none ↔ firstEnd events = none) ∧
      (call m.name (some busAddress) events = some (.ok ()) ↔ ∃ before, firstEnd events = some (before, .closed (some 0))) ∧
      (∀ message, call m.name (some busAddress) events = some (.error message) ↔ ∃ before ending,
        firstEnd events = some (before, ending) ∧ ending ≠ .closed (some 0) ∧
          failureText m.name (busctlResult ⟨ending, received .stdout before, received .stderr before⟩) = message) ∧
      ((busctl events).kills = 1 ↔ ∃ before, firstEnd events = some (before, .timeout)) := by
  have hrun : runBusctl (some busAddress) events = (busctl events).settled.map (fun s => .ok (busctlResult s)) := by
    unfold runBusctl
    split
    · rename_i h; cases h
    · rename_i h; cases h; exact absurd rfl haddress
    · rfl
  have hsettled : (busctl events).settled = (firstEnd events).map (fun r =>
      ⟨r.2, received .stdout r.1, received .stderr r.1⟩) := run_settled events
  have hkills : (busctl events).kills = if (firstEnd events).map Prod.snd = some .timeout then 1 else 0 := run_kills events
  unfold call
  rw [hrun, hsettled, hkills]
  cases hfirst : firstEnd events with
  | none => simp
  | some r =>
    obtain ⟨before, ending⟩ := r
    have hok := busctlResult_ok_iff ⟨ending, received .stdout before, received .stderr before⟩
    refine ⟨by simp, ?_, fun message => ?_, by cases ending <;> simp⟩
    · simp only [Option.map_some, Option.some.injEq, Prod.mk.injEq, exists_eq_left']
      exact (answer_ok_iff ..).trans hok
    · simp only [Option.map_some, Option.some.injEq, Prod.mk.injEq]
      refine (answer_error_iff ..).trans ((and_congr_left' (not_congr hok)).trans ⟨fun h => ?_, ?_⟩)
      · exact ⟨before, ending, ⟨rfl, rfl⟩, h⟩
      · rintro ⟨_, _, ⟨rfl, rfl⟩, h⟩
        exact h

/-- A restart whose job fails, on a child that writes a cut text and closes. -/
def refused : List Event :=
  [.data .stderr [0x75, 0x6E, 0x69, 0x74, 0x20], .data .stderr [0x67, 0x6F, 0x6E, 0x65, 0x0A], .close (some 1), .timer]

theorem call_outcome_refused :
    call "RestartUnit" (some "unix:path=/host/dbus") refused =
      some (.error "busctl RestartUnit failed (exit 1): unit gone") := by
  refine ((call_outcome (restartUnit "signalk.service") "unix:path=/host/dbus" (by decide) refused).2.2.1 _).2 ?_
  exact ⟨refused.take 2, .closed (some 1), rfl, by decide, by decide +kernel⟩

/-! ## The host's time zone -/

/-- What the reader of the zone meets: the setting, the host's table of zones, the rounding of the arithmetic and the
text of a number. -/
structure TzEnv where
  HOST_TZ_TIMEOUT_MS : Option String
  /-- `new Intl.DateTimeFormat('en-US', { timeZone })`: the zone it resolves to, `none` when it throws. -/
  intl : String → Option String
  fl : Rounding
  numberText : ℚ → String

/-- `timeoutMs`; `parseInt` gives a double, and a number past the doubles is not finite. -/
def timeoutMs (env : TzEnv) : Nat :=
  match env.HOST_TZ_TIMEOUT_MS with
  | none => 5000
  | some raw =>
    match parseInt raw with
    | some n => if 0 < n ∧ n < 2 ^ 1024 then n.toNat else 5000
    | none => 5000

/-- `TimeoutStartSec` of the transient unit. -/
def unitTimeoutSec (env : TzEnv) : Int := max 1 ⌈env.fl.round (timeoutMs env / 1000)⌉

/-- The delay asked of the doctor's own timer. -/
def clientTimeoutMs (env : TzEnv) : ℚ := env.fl.round (timeoutMs env + 1000)

def timedatectlArgs (env : TzEnv) : List String :=
  ["--user", "--pipe", "--wait", "--collect", "--service-type=oneshot", "--quiet",
    "--property=TimeoutStartSec=" ++ toString (unitTimeoutSec env), "--", "/bin/sh", "-c",
    "timedatectl show -p Timezone --value"]

inductive SpawnCode where
  | ok (exitCode : Int)
  | timeout
  | spawnFailed (detail : String)
  deriving DecidableEq, Repr

structure SpawnOut where
  code : SpawnCode
  stdout : Units
  stderr : Units
  deriving DecidableEq, Repr

/-- `resolve(...)`, of the settled child. -/
def spawnOut (s : Settled) : SpawnOut :=
  match s.ending with
  | .closed exitCode => ⟨.ok (exitCode.getD (-1)), s.stdout, s.stderr⟩
  | .timeout => ⟨.timeout, s.stdout, s.stderr⟩
  | .failed message => ⟨.spawnFailed message, s.stdout, s.stderr⟩

/-- `runSystemdRun` of `host-timezone.ts`; `none` while it waits. -/
def runSystemdRun (events : List Event) : Option SpawnOut :=
  (Child.spawned.handleAll (.last 10000) (.last 10000) events).settled.map spawnOut

inductive HostTzReason where
  | timeout | spawnFailed | nonzeroExit | empty
  deriving DecidableEq, Repr

def HostTzReason.text : HostTzReason → String
  | .timeout => "timeout"
  | .spawnFailed => "spawn-failed"
  | .nonzeroExit => "nonzero-exit"
  | .empty => "empty"

inductive HostTimezoneResult where
  | ok (zone : String)
  | failed (reason : HostTzReason) (detail : String)
  deriving DecidableEq, Repr

/-- The characters the lexical guard lets through. -/
def isZoneChar (c : Char) : Bool := c.isAlphanum || c == '_' || c == '+' || c == '/' || c == '-'

def isValidZone (intl : String → Option String) (z : String) : Bool :=
  z.toList.all isZoneChar && decide (1 ≤ z.length ∧ z.length ≤ 64) && (intl z).isSome

/-- `trim`, of a string as the language holds it. -/
def trimUnits (s : Units) : Units :=
  let rest := s.dropWhile (fun u => JsString.isSpace (single u))
  (rest.reverse.dropWhile (fun u => JsString.isSpace (single u))).reverse

/-- What `JSON.stringify` writes for a unit that is no part of a pair; a surrogate is escaped. -/
def escapeUnit (u : UInt16) : Text :=
  if IsHigh u ∨ IsLow u then
    '\\' :: 'u' :: [u.toNat / 4096, u.toNat / 256 % 16, u.toNat / 16 % 16, u.toNat % 16].map JsonText.hexDigit
  else JsonText.escape (single u)

def escapeUnits : Units → Text
  | [] => []
  | [u] => escapeUnit u
  | u :: v :: us =>
    if IsHigh u ∧ IsLow v then JsonText.escape (pair u v) ++ escapeUnits us else escapeUnit u ++ escapeUnits (v :: us)

/-- `JSON.stringify(zone)`. -/
def zoneText (stdout : Units) : String := String.ofList ('"' :: (escapeUnits (trimUnits stdout) ++ ['"']))

/-- What `readHostTimezone` makes of the child's result. -/
def zoneOf (env : TzEnv) (r : SpawnOut) : HostTimezoneResult :=
  match r.code with
  | .timeout => .failed .timeout ("timedatectl did not finish within " ++ env.numberText (clientTimeoutMs env) ++ "ms")
  | .spawnFailed detail => .failed .spawnFailed detail
  | .ok exitCode =>
    if exitCode ≠ 0 then
      let stderr := trim (shown r.stderr)
      .failed .nonzeroExit ("timedatectl exited " ++ toString exitCode ++ ": " ++ if stderr = "" then "(no stderr)" else stderr)
    else
      let zone := trim (shown r.stdout)
      if zone = "" ∨ isValidZone env.intl zone = false then
        .failed .empty ("timedatectl returned no usable zone (" ++ zoneText r.stdout ++ ")")
      else .ok zone

def readHostTimezone (env : TzEnv) (events : List Event) : Option HostTimezoneResult :=
  (runSystemdRun events).map (zoneOf env)

/-- What the doctor has of the output of `timedatectl` when the wait ends. -/
def printed (before : List Event) : String := shown ((Keep.last 10000).of (received .stdout before))

theorem printed_ascii {before : List Event} (hascii : ∀ b ∈ written .stdout before, b.toNat < 0x80)
    (hlength : (written .stdout before).length ≤ 10000) : printed before = ofAscii (written .stdout before) := by
  have hreceived := received_of_ascii .stdout hascii
  rw [printed, hreceived, Keep.last_of_le (by rw [length_units_ascii hascii]; exact hlength), shown, Utf16.text_units,
    ofAscii]

theorem zoneOf_ok_iff (env : TzEnv) (r : SpawnOut) (zone : String) : zoneOf env r = .ok zone ↔
    r.code = .ok 0 ∧ trim (shown r.stdout) = zone ∧ isValidZone env.intl zone = true := by
  unfold zoneOf
  split
  · rename_i h; simp [h]
  · rename_i h; simp [h]
  · rename_i exitCode h
    by_cases hcode : exitCode = 0
    · rw [if_neg (not_not.2 hcode)]
      by_cases hzone : isValidZone env.intl (trim (shown r.stdout)) = true
      · have hne : trim (shown r.stdout) ≠ "" := by
          intro hempty
          rw [hempty] at hzone
          simp [isValidZone] at hzone
        rw [if_neg (by simp [hne, hzone])]
        simp only [HostTimezoneResult.ok.injEq, h, hcode, true_and]
        exact ⟨fun heq => ⟨heq, heq ▸ hzone⟩, fun h => h.1⟩
      · rw [if_pos (.inr (Bool.not_eq_true _ ▸ hzone))]
        refine iff_of_false (fun heq => by cases heq) ?_
        rintro ⟨-, rfl, hvalid⟩
        exact hzone hvalid
    · rw [if_pos hcode]
      simp [h, hcode]

theorem spawnOut_ok_iff (s : Settled) : (spawnOut s).code = .ok 0 ↔ s.ending = .closed (some 0) := by
  obtain ⟨ending, stdout, stderr⟩ := s
  cases ending with
  | closed exitCode => cases exitCode <;> simp [spawnOut]
  | timeout => simp [spawnOut]
  | failed message => simp [spawnOut]

theorem spawnOut_stdout (s : Settled) : (spawnOut s).stdout = s.stdout := by
  unfold spawnOut
  split <;> rfl

/-- **A zone is reported exactly when** `timedatectl` exits with code 0 before the timer and a failure, having printed a
zone the platform knows.  An ASCII output of at most 10 000 bytes is read whole, whatever the cuts of the pipe, what the
child writes to its error output and what comes later. -/
theorem readHostTimezone_iff (env : TzEnv) (events : List Event) (zone : String) :
    (readHostTimezone env events = some (.ok zone) ↔ ∃ before, firstEnd events = some (before, .closed (some 0)) ∧
      trim (printed before) = zone ∧ isValidZone env.intl zone = true) ∧
    ∀ before, (∀ b ∈ written .stdout before, b.toNat < 0x80) → (written .stdout before).length ≤ 10000 →
      printed before = ofAscii (written .stdout before) := by
  refine ⟨?_, fun before => printed_ascii⟩
  have hsettled := @run_settled (Keep.last 10000) (Keep.last 10000) events
  rw [readHostTimezone, runSystemdRun, hsettled]
  cases hfirst : firstEnd events with
  | none => simp
  | some r =>
    obtain ⟨before, ending⟩ := r
    simp only [Option.map_some, Option.some.injEq, Prod.mk.injEq, zoneOf_ok_iff, spawnOut_ok_iff, spawnOut_stdout]
    constructor
    · rintro ⟨hending, hzone⟩
      exact ⟨before, ⟨rfl, hending⟩, hzone⟩
    · rintro ⟨_, ⟨rfl, hending⟩, hzone⟩
      exact ⟨hending, hzone⟩

theorem timeoutMs_pos (env : TzEnv) : 0 < timeoutMs env := by
  unfold timeoutMs
  split
  · decide
  · split
    · split
      · omega
      · decide
    · decide

/-- **The host's limit of the unit comes first**: before the doctor's timer, exactly for the settings that timer can hold;
for a longer one it fires after a millisecond. -/
theorem unit_before_client (env : TzEnv) :
    (unitTimeoutSec env * 1000 : ℚ) < Probes.timerDelay (clientTimeoutMs env) ↔ timeoutMs env + 1000 < 2 ^ 31 := by
  have hone : (1 : ℚ) ≤ unitTimeoutSec env := by exact_mod_cast le_max_left 1 _
  constructor
  · intro h
    by_contra hlong
    have hclient : ((2 ^ 31 : ℤ) : ℚ) ≤ clientTimeoutMs env := by
      refine env.fl.int_le_round (by norm_num) ?_
      have : 2 ^ 31 ≤ timeoutMs env + 1000 := Nat.not_lt.1 hlong
      exact_mod_cast this
    push_cast at hclient
    rw [Probes.timerDelay, if_neg (fun h => by linarith [h.2])] at h
    linarith
  · intro h
    have hclient : clientTimeoutMs env = ((timeoutMs env + 1000 : ℤ) : ℚ) := by
      have hint := env.fl.int (timeoutMs env + 1000 : ℤ) (by rw [abs_le]; omega)
      rw [clientTimeoutMs, ← hint]
      push_cast
      rfl
    have hunit : unitTimeoutSec env * 1000 < (timeoutMs env + 1000 : ℤ) := by
      have hpos := timeoutMs_pos env
      have hround : env.fl.round (timeoutMs env / 1000) ≤ (⌈(timeoutMs env / 1000 : ℚ)⌉ : ℤ) := by
        refine env.fl.round_le_int ?_ (Int.le_ceil _)
        have hceil := Int.ceil_lt_add_one (timeoutMs env / 1000 : ℚ)
        have hnonneg : (0 : ℤ) ≤ ⌈(timeoutMs env / 1000 : ℚ)⌉ := Int.ceil_nonneg (by positivity)
        have hsmall : (timeoutMs env : ℚ) ≤ 2 ^ 31 := by exact_mod_cast (by omega : timeoutMs env ≤ 2 ^ 31)
        rw [abs_of_nonneg hnonneg]
        have : (⌈(timeoutMs env / 1000 : ℚ)⌉ : ℚ) < ((2 ^ 53 : ℤ) : ℚ) := by push_cast; linarith
        exact_mod_cast this.le
      have hceil : (⌈env.fl.round (timeoutMs env / 1000)⌉ : ℚ) < timeoutMs env / 1000 + 1 :=
        lt_of_le_of_lt (by exact_mod_cast Int.ceil_le.2 hround) (Int.ceil_lt_add_one _)
      have hsec : ⌈env.fl.round (timeoutMs env / 1000)⌉ * 1000 < (timeoutMs env + 1000 : ℤ) := by
        have : (⌈env.fl.round (timeoutMs env / 1000)⌉ : ℚ) * 1000 < timeoutMs env + 1000 := by linarith
        exact_mod_cast this
      rcases max_cases 1 ⌈env.fl.round (timeoutMs env / 1000)⌉ with ⟨hmax, -⟩ | ⟨hmax, -⟩ <;>
        rw [unitTimeoutSec, hmax] <;> omega
    have hdelay : Probes.timerDelay (clientTimeoutMs env) = ((timeoutMs env + 1000 : ℤ) : ℚ) := by
      have hrange : ((timeoutMs env + 1000 : ℤ) : ℚ) ≤ ((2147483647 : ℤ) : ℚ) :=
        Int.cast_le.2 (by omega : (timeoutMs env + 1000 : ℤ) ≤ 2147483647)
      rw [Probes.timerDelay, hclient, if_pos ⟨by exact_mod_cast (by omega : (1 : ℤ) ≤ timeoutMs env + 1000),
        hrange.trans_eq (by norm_num)⟩, Int.floor_intCast]
    rw [hdelay]
    exact_mod_cast hunit

end HostCommands
end SignalkDoctor
