import SignalkDoctor.Exec
import SignalkDoctor.HostCommands
import SignalkDoctor.PodmanClient
import SignalkDoctor.TextOrder
/-!
# TimezoneDrift — the zones of host, server and peers (`src/probes/timezone-drift.ts`)

The probe compares the host's zone with that of the server and of every container the server manages.  The peers are those
of the runtime's list; what one of them gives is read by itself.  `probeTimezoneDrift_ok_iff` is when the three layers agree,
over what the runtime answers, and `drifting_peer_reported` that no other peer hides one that drifts.
-/
namespace SignalkDoctor
namespace TimezoneDrift

open Drift (CategorizedError)
open Exec (ExecResult)
open HostCommands (HostTimezoneResult)
open JsString (trim)
open PodmanClient (ResolvedRuntime)
open Probes (ProbeResult ProbeStatus)
open TextOrder (sortTexts)

/-! ## The zones -/

def utcZones : List String := ["UTC", "Etc/UTC", "GMT", "Etc/GMT", "Zulu", "Universal", "Etc/Universal"]

section
variable (intl : String → Option String)

/-- `canonical`: the zone as it is where the platform does not know it. -/
def canonical (zone : String) : String := (intl zone).getD zone

def zonesMatch (a b : String) : Bool :=
  a == b || (utcZones.contains a && utcZones.contains b) || canonical intl a == canonical intl b

end

/-! ## The readers -/

/-- `readServerZone`: the zone and the error. -/
def readServerZone : ExecResult → Option String × Option String
  | .failure f => (none, some (f.reason.text ++ ": " ++ f.detail))
  | .success _ output _ =>
    let zone := trim output
    if 0 < zone.length then (some zone, none) else (none, some "empty zone from Intl")

def managedPrefix : String := "sk-"

def jobPrefix : String := "sk-job-"

/-- `s.startsWith(p)` -/
def startsWith (s p : String) : Bool := p.toList.isPrefixOf s.toList

/-- A name without the slash the runtime puts before it. -/
def bareName (n : String) : String := if startsWith n "/" then String.ofList (n.toList.drop 1) else n

def isManagedPeer (name : String) : Bool := startsWith name managedPrefix && !startsWith name jobPrefix

/-- The names of an entry of the list; what is no string is passed over. -/
def entryNames (entry : Json) : List String :=
  match entry.get? "Names" with
  | some (.arr raw) => raw.filterMap (fun
    | .str n => some (bareName n)
    | _ => none)
  | _ => []

def addName (names : List String) (name : String) : List String :=
  if isManagedPeer name && !names.contains name then names ++ [name] else names

def managedPeerNames (listed : List Json) : List String :=
  sortTexts ((listed.flatMap entryNames).foldl addName [])

/-- The environment of an inspected container, if all of it is strings. -/
def envOf (inspected : Json) : Option (List String) :=
  match (inspected.get? "Config").bind (·.get? "Env") with
  | some (.arr raw) => raw.mapM (fun
    | .str e => some e
    | _ => none)
  | _ => none

/-- `TZ` of an environment, `none` where it is not set. -/
def tzOf (env : List String) : Option String :=
  (env.find? (startsWith · "TZ=")).map (fun e => String.ofList (e.toList.drop 3))

/-- What one peer gives. -/
inductive PeerRead where
  /-- Removed since the list. -/
  | gone
  | error (text : String)
  | zone (tz : Option String)
  deriving DecidableEq, Repr

def readPeer (name : String) : Except CategorizedError Json → PeerRead
  | .error e =>
    if e.kind = .notFound then .gone else .error (name ++ ": " ++ e.kind.text ++ ": " ++ e.userMessage)
  | .ok inspected =>
    match envOf inspected with
    | none => .error (name ++ ": malformed inspect response (no Config.Env array)")
    | some env => .zone (tzOf env)

/-- What the runtime answers. -/
structure PeerEnv where
  runtime : Option ResolvedRuntime
  list : Except CategorizedError Json
  inspect : String → Except CategorizedError Json

abbrev Peers := List (String × Option String)

/-- One turn of the loop over the peers. -/
def keepPeer (env : PeerEnv) (acc : Peers × List String) (name : String) : Peers × List String :=
  match readPeer name (env.inspect name) with
  | .gone => acc
  | .error text => (acc.1, acc.2 ++ [text])
  | .zone tz => (acc.1 ++ [(name, tz)], acc.2)

def readPeerZones (env : PeerEnv) : Peers × Option String :=
  if env.runtime = none then ([], none)
  else
    match env.list with
    | .error e => ([], some ("listing containers: " ++ e.kind.text ++ ": " ++ e.userMessage))
    | .ok (.arr listed) =>
      let (peers, errors) := (managedPeerNames listed).foldl (keepPeer env) ([], [])
      (peers, if errors ≠ [] then some ("; ".intercalate errors) else none)
    | .ok _ => ([], some "malformed container list response (not an array)")

/-! ## The probe -/

structure TimezoneSources where
  host : HostTimezoneResult
  server : Option String
  serverError : Option String
  peers : Peers
  peerError : Option String

/-- `gatherSourcesReal`, of what its three readers meet. -/
def gatherSources (host : HostTimezoneResult) (server : ExecResult) (env : PeerEnv) : TimezoneSources where
  host := host
  server := (readServerZone server).1
  serverError := (readServerZone server).2
  peers := (readPeerZones env).1
  peerError := (readPeerZones env).2

structure TimezoneDetails where
  hostZone : Option String
  serverZone : Option String
  peers : Peers
  deriving DecidableEq, Repr

def tzResult (durationMs : Int) (status : ProbeStatus) (message : String) (details : TimezoneDetails) :
    ProbeResult TimezoneDetails :=
  ⟨"timezone-drift", "Timezone drift", status, message, some details, durationMs⟩

section
variable (intl : String → Option String)

/-- What the warnings say of a peer. -/
def peerWarning (hostZone : String) : String × Option String → Option String
  | (name, none) => some ("peer " ++ name ++ " has no TZ set while the host is " ++ hostZone)
  | (name, some tz) =>
    if zonesMatch intl tz hostZone then none else some ("peer " ++ name ++ " is on " ++ tz ++ " but the host is " ++ hostZone)

def warningsOf (hostZone server : String) (peers : Peers) (peerError : Option String) : List String :=
  (if zonesMatch intl server hostZone then [] else
    ["signalk-server is on " ++ server ++ " but the host is " ++ hostZone ++
      " — restart signalk-server to apply the new zone"]) ++
  (if zonesMatch intl server hostZone then peers.filterMap (peerWarning intl hostZone) else []) ++
  (match peerError with
    | some error => if error ≠ "" then ["could not read every peer's zone (" ++ error ++ ")"] else []
    | none => [])

def probeTimezoneDrift (durationMs : Int) (src : TimezoneSources) : ProbeResult TimezoneDetails :=
  let details : TimezoneDetails :=
    ⟨match src.host with
      | .ok zone => some zone
      | .failed .. => none, src.server, src.peers⟩
  match src.host with
  | .failed reason detail =>
    tzResult durationMs .unknown ("cannot read host timezone (" ++ reason.text ++ ": " ++ detail ++ ")") details
  | .ok hostZone =>
    match src.server with
    | none =>
      tzResult durationMs .unknown ("host is " ++ hostZone ++ " but signalk-server's zone is unreadable (" ++
        src.serverError.getD "unknown" ++ ")") details
    | some server =>
      let warnings := warningsOf intl hostZone server src.peers src.peerError
      if warnings ≠ [] then tzResult durationMs .warn ("; ".intercalate warnings) details
      else
        let peerNote := if src.peers ≠ [] then " (peers: " ++ ", ".intercalate (src.peers.map Prod.fst) ++ ")" else ""
        tzResult durationMs .ok ("host, signalk-server" ++ peerNote ++ " all on " ++ hostZone) details

end

/-! ## What the readers gather -/

/-- **A managed peer**: one the runtime lists, under the server's prefix and no job. -/
def Managed (listed : List Json) (name : String) : Prop :=
  isManagedPeer name = true ∧ name ∈ listed.flatMap entryNames

theorem mem_foldl_addName {name : String} : ∀ {found names : List String}, name ∈ found.foldl addName names ↔
    name ∈ names ∨ (isManagedPeer name = true ∧ name ∈ found)
  | [], names => by simp
  | n :: found, names => by
    have hadd : name ∈ addName names n ↔ name ∈ names ∨ (isManagedPeer n = true ∧ name = n) := by
      unfold addName
      by_cases hn : (isManagedPeer n && !names.contains n) = true
      · rw [if_pos hn]
        simp_all
      · rw [if_neg hn]
        simp only [Bool.and_eq_true, Bool.not_eq_true', List.contains_eq_mem, decide_eq_false_iff_not, not_and,
          Classical.not_not] at hn
        exact ⟨.inl, fun h => h.elim id (fun h => h.2 ▸ hn h.1)⟩
    rw [List.foldl_cons, mem_foldl_addName, hadd, List.mem_cons]
    constructor
    · rintro ((h | ⟨hn, rfl⟩) | ⟨hn, h⟩)
      · exact .inl h
      · exact .inr ⟨hn, .inl rfl⟩
      · exact .inr ⟨hn, .inr h⟩
    · rintro (h | ⟨hn, rfl | h⟩)
      · exact .inl (.inl h)
      · exact .inl (.inr ⟨hn, rfl⟩)
      · exact .inr ⟨hn, h⟩

theorem mem_managedPeerNames {listed : List Json} {name : String} :
    name ∈ managedPeerNames listed ↔ Managed listed name := by
  rw [managedPeerNames, TextOrder.mem_sortTexts, mem_foldl_addName]
  simp [Managed]

def PeerRead.zone? (name : String) : PeerRead → Option (String × Option String)
  | .zone tz => some (name, tz)
  | _ => none

def PeerRead.error? : PeerRead → Option String
  | .error text => some text
  | _ => none

/-- **The loop keeps what each peer gives**, whatever the others give. -/
theorem foldl_keepPeer (env : PeerEnv) : ∀ (names : List String) (peers : Peers) (errors : List String),
    names.foldl (keepPeer env) (peers, errors) =
      (peers ++ names.filterMap (fun name => (readPeer name (env.inspect name)).zone? name),
        errors ++ names.filterMap (fun name => (readPeer name (env.inspect name)).error?))
  | [], peers, errors => by simp
  | name :: names, peers, errors => by
    rw [List.foldl_cons, List.filterMap_cons, List.filterMap_cons, keepPeer]
    cases readPeer name (env.inspect name) with
    | gone => exact foldl_keepPeer env names peers errors
    | error text => simpa [PeerRead.zone?, PeerRead.error?] using foldl_keepPeer env names peers (errors ++ [text])
    | zone tz => simpa [PeerRead.zone?, PeerRead.error?] using foldl_keepPeer env names (peers ++ [(name, tz)]) errors

theorem readPeerZones_listed {env : PeerEnv} {rt : ResolvedRuntime} {listed : List Json} (hrt : env.runtime = some rt)
    (hlist : env.list = .ok (.arr listed)) : readPeerZones env =
      ((managedPeerNames listed).filterMap (fun name => (readPeer name (env.inspect name)).zone? name),
        let errors := (managedPeerNames listed).filterMap (fun name => (readPeer name (env.inspect name)).error?)
        if errors ≠ [] then some ("; ".intercalate errors) else none) := by
  unfold readPeerZones
  rw [hrt, hlist, if_neg (Option.some_ne_none rt)]
  dsimp only
  rw [foldl_keepPeer, List.nil_append, List.nil_append]

theorem readPeer_error_ne {name text : String} {r : Except CategorizedError Json} (h : readPeer name r = .error text) :
    text ≠ "" := by
  have hcolon : ": " ≠ "" := by decide
  unfold readPeer at h
  split at h
  · split at h
    · cases h
    · cases h
      simp [hcolon]
  · split at h
    · cases h
      simp
    · cases h

/-- What the probe has to say of a peer. -/
def complaint (intl : String → Option String) (env : PeerEnv) (hostZone name : String) : Option String :=
  match readPeer name (env.inspect name) with
  | .gone => none
  | .error text => some text
  | .zone tz => peerWarning intl hostZone (name, tz)

/-- **The peers agree with the host**, as far as the runtime tells: each that is there has a zone of the host's. -/
def PeersAgree (intl : String → Option String) (env : PeerEnv) (hostZone : String) : Prop :=
  env.runtime = none ∨ ∃ listed, env.list = .ok (.arr listed) ∧ ∀ name, Managed listed name →
    readPeer name (env.inspect name) = .gone ∨
      ∃ tz, readPeer name (env.inspect name) = .zone (some tz) ∧ zonesMatch intl tz hostZone = true

theorem complaint_eq_none_iff (intl : String → Option String) (env : PeerEnv) (hostZone name : String) :
    complaint intl env hostZone name = none ↔ readPeer name (env.inspect name) = .gone ∨
      ∃ tz, readPeer name (env.inspect name) = .zone (some tz) ∧ zonesMatch intl tz hostZone = true := by
  unfold complaint
  cases readPeer name (env.inspect name) with
  | gone => simp
  | error text => simp
  | zone tz =>
    cases tz with
    | none => simp [peerWarning]
    | some tz => simp [peerWarning]

/-- What the warnings hold of the peers: nothing exactly when no peer is complained of. -/
theorem warningsOf_peers {intl : String → Option String} {env : PeerEnv} {rt : ResolvedRuntime} {listed : List Json}
    {hostZone server : String} (hrt : env.runtime = some rt) (hlist : env.list = .ok (.arr listed))
    (hserver : zonesMatch intl server hostZone = true) {name sentence : String} (hname : Managed listed name)
    (hcomplaint : complaint intl env hostZone name = some sentence) :
    ∃ w ∈ warningsOf intl hostZone server (readPeerZones env).1 (readPeerZones env).2, sentence.toList <:+: w.toList := by
  have hmem := mem_managedPeerNames.2 hname
  rw [readPeerZones_listed hrt hlist]
  unfold complaint at hcomplaint
  cases hread : readPeer name (env.inspect name) with
  | gone => simp [hread] at hcomplaint
  | zone tz =>
    rw [hread] at hcomplaint
    refine ⟨sentence, ?_, List.infix_rfl⟩
    unfold warningsOf
    rw [if_pos hserver, if_pos hserver, List.nil_append]
    refine List.mem_append_left _ (List.mem_filterMap.2 ⟨(name, tz), ?_, hcomplaint⟩)
    exact List.mem_filterMap.2 ⟨name, hmem, by rw [hread]; rfl⟩
  | error text =>
    rw [hread] at hcomplaint
    simp only [Option.some.injEq] at hcomplaint
    subst hcomplaint
    have herror : text ∈ (managedPeerNames listed).filterMap (fun name => (readPeer name (env.inspect name)).error?) :=
      List.mem_filterMap.2 ⟨name, hmem, by rw [hread]; rfl⟩
    have hinside := @JsString.intercalate_contains "; " _ _ herror
    generalize (managedPeerNames listed).filterMap (fun name => (readPeer name (env.inspect name)).error?) = errors
      at herror hinside
    have hne : "; ".intercalate errors ≠ "" := by
      intro hempty
      rw [hempty] at hinside
      exact readPeer_error_ne hread (String.toList_eq_nil_iff.1 (List.infix_nil.1 hinside))
    refine ⟨"could not read every peer's zone (" ++ "; ".intercalate errors ++ ")", ?_, ?_⟩
    · unfold warningsOf
      refine List.mem_append_right _ ?_
      simp [List.ne_nil_of_mem herror, hne]
    · rw [String.toList_append, String.toList_append]
      exact hinside.trans ⟨_, _, rfl⟩

/-- **Nothing to warn of** is agreement of all three layers. -/
theorem warningsOf_eq_nil_iff {intl : String → Option String} {env : PeerEnv} {hostZone server : String} :
    warningsOf intl hostZone server (readPeerZones env).1 (readPeerZones env).2 = [] ↔
      zonesMatch intl server hostZone = true ∧ PeersAgree intl env hostZone := by
  by_cases hserver : zonesMatch intl server hostZone = true
  swap
  · simp [warningsOf, hserver]
  rw [and_iff_right hserver]
  cases hrt : env.runtime with
  | none => simp [warningsOf, hserver, readPeerZones, hrt, PeersAgree]
  | some rt =>
    have hunlisted : (∀ listed, env.list ≠ .ok (.arr listed)) → ¬ PeersAgree intl env hostZone := by
      rintro hne (h | ⟨listed, h, -⟩)
      · rw [hrt] at h
        cases h
      · exact hne listed h
    have hcolon : ": " ≠ "" := by decide
    match hlist : env.list with
    | .error e =>
      refine iff_of_false ?_ (hunlisted (fun listed h => by rw [hlist] at h; cases h))
      simp [warningsOf, readPeerZones, hrt, hlist]
    | .ok (.arr listed) =>
      constructor
      · intro hnil
        refine .inr ⟨listed, hlist, fun name hname => ?_⟩
        refine (complaint_eq_none_iff intl env hostZone name).1 (Option.eq_none_iff_forall_ne_some.2 (fun sentence hcomplaint => ?_))
        obtain ⟨w, hw, -⟩ := warningsOf_peers hrt hlist hserver hname hcomplaint
        rw [hnil] at hw
        cases hw
      · rintro (h | ⟨listed', hlist', hagree⟩)
        · rw [hrt] at h
          cases h
        · rw [hlist] at hlist'
          cases hlist'
          have hpeers : ((managedPeerNames listed).filterMap
              (fun name => (readPeer name (env.inspect name)).zone? name)).filterMap (peerWarning intl hostZone) = [] := by
            simp only [List.filterMap_eq_nil_iff, List.mem_filterMap]
            rintro ⟨name, tz⟩ ⟨name', hname, hread⟩
            rcases hagree name' (mem_managedPeerNames.1 hname) with h | ⟨tz', h, hmatch⟩
            · rw [h] at hread
              cases hread
            · rw [h] at hread
              cases hread
              simp [peerWarning, hmatch]
          have herrors : (managedPeerNames listed).filterMap
              (fun name => (readPeer name (env.inspect name)).error?) = [] := by
            refine List.filterMap_eq_nil_iff.2 (fun name hname => ?_)
            rcases hagree name (mem_managedPeerNames.1 hname) with h | ⟨tz, h, -⟩ <;> rw [h] <;> rfl
          rw [readPeerZones_listed hrt hlist, herrors]
          simp [warningsOf, hserver, hpeers]
    | .ok .null | .ok (.bool _) | .ok (.num _) | .ok (.str _) | .ok (.obj _) =>
      refine iff_of_false ?_ (hunlisted (fun listed h => by rw [hlist] at h; cases h))
      simp [warningsOf, readPeerZones, hrt, hlist]

/-! ## The verdict -/

/-- **All is well exactly when** the host's zone and the server's are read and match, and every managed container the
runtime lists is gone since or has a zone of the host's; the probe never fails, and knows nothing exactly when one of the two
zones is unreadable. -/
theorem probeTimezoneDrift_ok_iff (intl : String → Option String) (durationMs : Int) (host : HostTimezoneResult)
    (server : ExecResult) (env : PeerEnv) :
    let status := (probeTimezoneDrift intl durationMs (gatherSources host server env)).status
    (status = .ok ↔ ∃ hostZone serverZone, host = .ok hostZone ∧ (readServerZone server).1 = some serverZone ∧
      zonesMatch intl serverZone hostZone = true ∧ PeersAgree intl env hostZone) ∧
    (status = .unknown ↔ (∃ reason detail, host = .failed reason detail) ∨ (readServerZone server).1 = none) ∧
    status ≠ .fail := by
  unfold probeTimezoneDrift gatherSources
  cases host with
  | failed reason detail => simp [tzResult]
  | ok hostZone =>
    cases hserver : (readServerZone server).1 with
    | none => simp [tzResult]
    | some serverZone =>
      have hwarnings := @warningsOf_eq_nil_iff intl env hostZone serverZone
      dsimp only
      by_cases hnil : warningsOf intl hostZone serverZone (readPeerZones env).1 (readPeerZones env).2 = []
      · rw [if_neg (not_not.2 hnil)]
        have := hwarnings.1 hnil
        simp [tzResult, this]
      · rw [if_pos hnil]
        have := mt hwarnings.2 hnil
        simpa [tzResult] using this

/-- **No peer hides another**: with the server on the host's zone, what there is to say of a managed container — a zone that
is not the host's, none at all, or an answer that cannot be read — is in the warning, whatever the other containers give. -/
theorem drifting_peer_reported (intl : String → Option String) (durationMs : Int) {env : PeerEnv} {server : ExecResult}
    {hostZone serverZone name sentence : String} {rt : ResolvedRuntime} {listed : List Json} (hrt : env.runtime = some rt)
    (hlist : env.list = .ok (.arr listed)) (hserver : (readServerZone server).1 = some serverZone)
    (hmatch : zonesMatch intl serverZone hostZone = true) (hname : Managed listed name)
    (hcomplaint : complaint intl env hostZone name = some sentence) :
    let r := probeTimezoneDrift intl durationMs (gatherSources (.ok hostZone) server env)
    r.status = .warn ∧ sentence.toList <:+: r.message.toList := by
  obtain ⟨w, hw, hinside⟩ := warningsOf_peers hrt hlist hmatch hname hcomplaint
  unfold probeTimezoneDrift gatherSources
  dsimp only
  rw [hserver]
  dsimp only
  rw [if_pos (List.ne_nil_of_mem hw)]
  exact ⟨rfl, hinside.trans (JsString.intercalate_contains hw)⟩

/-- Two managed containers, the first of which cannot be read. -/
def harbour : PeerEnv where
  runtime := some ⟨"/run/user/1000/podman/podman.sock", .podman⟩
  list := .ok (.arr [.obj [("Names", .arr [.str "/sk-charts"])], .obj [("Names", .arr [.str "/sk-grafana"])],
    .obj [("Names", .arr [.str "/sk-job-7"])]])
  inspect := fun name =>
    if name = "sk-grafana" then .ok (.obj [("Config", .obj [("Env", .arr [.str "PATH=/bin", .str "TZ=Europe/Paris"])])])
    else .error ⟨.network, "connection refused", "ECONNREFUSED"⟩

theorem drifting_peer_reported_harbour :
    let r := probeTimezoneDrift some 12 (gatherSources (.ok "Europe/Lisbon") (.success 0 "Europe/Lisbon" none) harbour)
    r.status = .warn ∧ "peer sk-grafana is on Europe/Paris but the host is Europe/Lisbon".toList <:+: r.message.toList :=
  @drifting_peer_reported some 12 harbour _ _ "Europe/Lisbon" "sk-grafana" _ _ _ rfl rfl (by decide +kernel)
    (by decide +kernel) ⟨by decide +kernel, by decide +kernel⟩ (by decide +kernel)

end TimezoneDrift
end SignalkDoctor
