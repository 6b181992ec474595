import Mathlib.Data.List.Infix
import SignalkDoctor.SingleFlight
/-!
# PodmanClient — the container runtime the doctor talks to (`src/podman/client.ts`)

`resolveRuntime` looks for the runtime once: the promise of the detection under way is shared, its result cached.  The
probes call it together, so its callers are modelled from one `await` to the next (`SingleFlight`);
`resolveRuntime_once` is what they can rely on.
-/
namespace SignalkDoctor
namespace PodmanClient

open Steps (exec)

inductive RuntimeKind where
  | podman
  | docker
  | unknown
  deriving DecidableEq, Repr

structure ResolvedRuntime where
  socketPath : String
  kind : RuntimeKind
  deriving DecidableEq, Repr

/-- `DEFAULT_SOCKETS` of a process with this uid. -/
def defaultSockets (uid : Nat) : List String :=
  ["/var/run/docker.sock", "/run/user/" ++ toString uid ++ "/podman/podman.sock", "/run/podman/podman.sock"]

/-- An entry of the `Components` a runtime reports; a null one makes the access to its name throw. -/
inductive Component where
  | named (name : Option String)
  | null
  deriving DecidableEq, Repr

inductive VersionAnswer where
  | threw
  | answered (components : List Component) (platformName : Option String)
  deriving DecidableEq, Repr

/-- What a detection meets: which paths are sockets, and what `version()` says over one. -/
structure RuntimeEnv where
  isSocket : String → Bool
  version : String → VersionAnswer

def pickSocket (uid : Nat) (env : RuntimeEnv) : Option String := (defaultSockets uid).find? env.isSocket

/-- `/podman/i.test(s)` -/
def testPodman (s : String) : Bool := decide ("podman".toList <:+: s.toList.map Char.toLower)

/-- `components.some(...)`, `none` when it throws. -/
def somePodman : List Component → Option Bool
  | [] => some false
  | .null :: _ => none
  | .named name :: rest => if testPodman (name.getD "") then some true else somePodman rest

/-- The guess by the socket's path, `version()` having failed. -/
def kindOfPath (socketPath : String) : RuntimeKind :=
  if "/podman/podman.sock".toList <:+ socketPath.toList then .podman else .unknown

def detectKind (answer : VersionAnswer) (socketPath : String) : RuntimeKind :=
  match answer with
  | .threw => kindOfPath socketPath
  | .answered components platformName =>
    match somePodman components with
    | none => kindOfPath socketPath
    | some true => .podman
    | some false => if platformName.any testPodman then .podman else .docker

def detectRuntimeOnce (uid : Nat) (env : RuntimeEnv) : Option ResolvedRuntime :=
  (pickSocket uid env).map (fun socketPath => ⟨socketPath, detectKind (env.version socketPath) socketPath⟩)

/-! ## The callers of `resolveRuntime` -/

inductive ClientAct where
  | resolveRuntime (caller : Nat)
  /-- A detection ends, with what it met. -/
  | detected (detection : Nat) (env : RuntimeEnv)
  | resume (caller : Nat)

def ClientAct.act (uid : Nat) : ClientAct → SingleFlight.Act ResolvedRuntime
  | .resolveRuntime caller => .call caller
  | .detected detection env => .found detection (detectRuntimeOnce uid env)
  | .resume caller => .resume caller

/-- A run of the callers, from a process that has detected nothing. -/
def runClient (uid : Nat) (acts : List ClientAct) : Option (SingleFlight.State ResolvedRuntime) :=
  exec SingleFlight.step .init (acts.map (ClientAct.act uid))

theorem found_detected {uid : Nat} {acts : List ClientAct} {detection : Nat} {result : Option ResolvedRuntime}
    (h : .found detection result ∈ acts.map (ClientAct.act uid)) :
    ∃ env, .detected detection env ∈ acts ∧ result = detectRuntimeOnce uid env := by
  obtain ⟨a, ha, heq⟩ := List.mem_map.1 h
  cases a with
  | resolveRuntime | resume => cases heq
  | detected d env =>
    cases heq
    exact ⟨env, ha, rfl⟩

/-- **Callers share a detection.**  However the callers and the detections interleave: every detection beyond the first is
preceded by a caller that was told there is no runtime; every answer is what some detection found; a caller is answered
at most once, and waits no longer once the detection it waits for has ended; and after one caller was given a runtime no
detection is started any more. -/
theorem resolveRuntime_once (uid : Nat) (acts : List ClientAct) (s : SingleFlight.State ResolvedRuntime)
    (hrun : runClient uid acts = some s) :
    s.started ≤ s.refused + 1 ∧
    (∀ caller result, (caller, result) ∈ s.answers →
      ∃ detection env, .detected detection env ∈ acts ∧ result = detectRuntimeOnce uid env) ∧
    (∀ caller, .resolveRuntime caller ∈ acts → (∃! result, (caller, result) ∈ s.answers) ∨
      ∃ detection, (caller, detection) ∈ s.waiting ∧ (s.outcome detection ≠ none →
        ∃ t, SingleFlight.step s (.resume caller) = some t)) ∧
    ∀ caller runtime, (caller, some runtime) ∈ s.answers → ∀ more t,
      exec SingleFlight.step s more = some t → t.started = s.started := by
  have hinv := SingleFlight.run_inv hrun
  refine ⟨hinv.paid, fun caller result ha => ?_, fun caller hcall => ?_, fun caller runtime ha more t ht => ?_⟩
  · obtain ⟨detection, -, ho⟩ := hinv.answered _ ha
    rcases SingleFlight.outcome_found _ _ s hrun detection result ho with h | h
    · cases h
    · obtain ⟨env, henv, hresult⟩ := found_detected h
      exact ⟨detection, env, henv, hresult⟩
  · have hmem : caller ∈ s.callers :=
      SingleFlight.run_callers _ _ s hrun caller (.inr (List.mem_map_of_mem (f := ClientAct.act uid) hcall))
    rcases List.mem_append.1 hmem with hm | hm
    · obtain ⟨⟨c, result⟩, ha, rfl⟩ := List.mem_map.1 hm
      refine .inl ⟨result, ha, fun other hother => ?_⟩
      have hnodup : (s.answers.map Prod.fst).Nodup := (List.nodup_append.1 hinv.once).1
      exact congrArg Prod.snd (List.inj_on_of_nodup_map hnodup hother ha rfl)
    · obtain ⟨⟨c, detection⟩, hw, rfl⟩ := List.mem_map.1 hm
      exact .inr ⟨detection, hw, SingleFlight.resume_enabled hinv hw⟩
  · have hcached : s.cached ≠ none := fun hnone => by cases hinv.kept hnone _ ha
    exact (SingleFlight.started_of_cached hcached ht).1

/-- Podman behind the second socket, its version naming it. -/
def podmanEnv : RuntimeEnv :=
  ⟨fun path => path == "/run/user/1000/podman/podman.sock", fun _ => .answered [.named (some "Podman Engine")] none⟩

/-- Two callers told that there is no runtime, the second after a new detection was begun: two at once. -/
def burst : List ClientAct :=
  [.resolveRuntime 0, .resolveRuntime 1, .detected 0 ⟨fun _ => false, fun _ => .threw⟩, .resume 0, .resolveRuntime 2,
    .resume 1, .resolveRuntime 3, .detected 1 podmanEnv, .detected 2 podmanEnv, .resume 2, .resume 3]

theorem resolveRuntime_once_burst :
    ∃ s, runClient 1000 burst = some s ∧ s.started = 3 ∧ s.started ≤ s.refused + 1 :=
  ⟨_, rfl, rfl, (resolveRuntime_once 1000 burst _ rfl).1⟩

end PodmanClient
end SignalkDoctor
