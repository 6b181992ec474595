import SignalkDoctor.JsonText
import SignalkDoctor.JsString
import SignalkDoctor.LastItems
/-!
# HostBoots — the record of the host's boots (`src/host-boots.ts`)

One record on disk summarises all boots: each start of the doctor compares it with the boot ID it runs under and stores
the next one, a stop through the signal handler marks it.  A process starts without the in-memory copy (`current`).

`recordBoot_history` says what the record holds after each start, over any history of boots and runs: the newest 20 of
the earlier boots that ended without a clean stop.  The induction is on the history, with `Past` what the record says of
complete boots and `Recorded` what it says within one.
-/
namespace SignalkDoctor
namespace HostBoots

open Json (get? strOrNull ofStr?)
open JsString (trim isLineEnd)
open LastItems (map_rtake rtake_rtake_append)

structure UncleanRestart where
  bootId : String
  doctorStartedAt : String
  hostBootedAt : Option String
  detectedAt : String
  underVoltageAt : Option String
  deriving DecidableEq, Repr

/-- `HostBootState`, its `version` being 1. -/
structure HostBootState where
  bootId : String
  startedAt : String
  cleanStop : Bool
  trackingSince : String
  unclean : List UncleanRestart
  underVoltageAt : Option String
  deriving DecidableEq, Repr

def maxUnclean : Nat := 20

/-! ## What the host tells -/

structure HostProc where
  bootId : Option String
  stat : Option String
  osrelease : Option String
  deriving DecidableEq, Repr

/-- `[0-9a-f-]` -/
def isBootIdChar (c : Char) : Bool := c.isDigit || (decide ('a' ≤ c) && decide (c ≤ 'f')) || c == '-'

def readBootId (proc : HostProc) : Option String :=
  match proc.bootId with
  | none => none
  | some raw => if (trim raw).length = 36 ∧ (trim raw).toList.all isBootIdChar = true then some (trim raw) else none

/-- `/microsoft/i.test(osrelease)` -/
def isWsl (proc : HostProc) : Bool :=
  match proc.osrelease with
  | none => false
  | some raw =>
    let cs := raw.toList.map Char.toLower
    (List.range (cs.length + 1)).any (fun k => "microsoft".toList.isPrefixOf (cs.drop k))

def twoDigits (n : Nat) : String := (if n < 10 then "0" else "") ++ toString n

def padDigits (width n : Nat) : String :=
  String.ofList (List.replicate (width - (toString n).length) '0') ++ toString n

/-- The day of the proleptic Gregorian calendar, counted from 1970-01-01. -/
def civilDate (days : Nat) : Nat × Nat × Nat :=
  let z := days + 719468
  let era := z / 146097
  let doe := z % 146097
  let yoe := (doe - doe / 1460 + doe / 36524 - doe / 146096) / 365
  let doy := doe - (365 * yoe + yoe / 4 - yoe / 100)
  let mp := (5 * doy + 2) / 153
  let month := if mp < 10 then mp + 3 else mp - 9
  (yoe + era * 400 + (if month ≤ 2 then 1 else 0), month, doy - (153 * mp + 2) / 5 + 1)

/-- `new Date(secs * 1000).toISOString()`, `none` when it throws. -/
def isoOfSeconds (secs : Nat) : Option String :=
  if secs * 1000 ≤ 8640000000000000 then
    let (year, month, day) := civilDate (secs / 86400)
    let rest := secs % 86400
    some ((if year ≤ 9999 then padDigits 4 year else "+" ++ padDigits 6 year) ++ "-" ++ twoDigits month ++ "-" ++
      twoDigits day ++ "T" ++ twoDigits (rest / 3600) ++ ":" ++ twoDigits (rest / 60 % 60) ++ ":" ++
      twoDigits (rest % 60) ++ ".000Z")
  else none

/-- A line that matches `btime (\d+)`, its digits. -/
def btimeOf (line : List Char) : Option (List Char) :=
  if "btime ".toList.isPrefixOf line ∧ line.drop 6 ≠ [] ∧ (line.drop 6).all Char.isDigit = true then some (line.drop 6)
  else none

/-- The lines of a text, a `\r\n` giving an empty one. -/
def linesOf : List Char → List (List Char)
  | [] => [[]]
  | c :: cs =>
    if isLineEnd c then [] :: linesOf cs
    else
      match linesOf cs with
      | line :: lines => (c :: line) :: lines
      | [] => [[c]]

def readHostBootedAt (proc : HostProc) : Option String :=
  match proc.stat with
  | none => none
  | some stat =>
    ((linesOf stat.toList).findSome? btimeOf).bind
      (fun digits => isoOfSeconds (digits.foldl (fun n c => 10 * n + (c.toNat - 48)) 0))

/-! ## The stored record -/

/-- `isOptionalTime`: absent, null or a string. -/
def isOptionalTime : Option Json → Bool
  | none | some .null | some (.str _) => true
  | _ => false

/-- An entry of `unclean`, `none` when `isUncleanRestart` refuses it. -/
def loadUnclean (v : Json) : Option UncleanRestart :=
  match v.get? "bootId", v.get? "doctorStartedAt", v.get? "hostBootedAt", v.get? "detectedAt" with
  | some (.str bootId), some (.str doctorStartedAt), some hostBootedAt, some (.str detectedAt) =>
    if (strOrNull (some hostBootedAt)).isSome ∨ hostBootedAt = .null then
      if isOptionalTime (v.get? "underVoltageAt") then
        some ⟨bootId, doctorStartedAt, strOrNull (some hostBootedAt), detectedAt, strOrNull (v.get? "underVoltageAt")⟩
      else none
    else none
  | _, _, _, _ => none

/-- The entries of `unclean`, `none` when some entry is refused. -/
def loadUncleanAll : List Json → Option (List UncleanRestart)
  | [] => some []
  | v :: vs =>
    match loadUnclean v, loadUncleanAll vs with
    | some e, some es => some (e :: es)
    | _, _ => none

/-- The checks of `loadHostBoots` on the parsed document, and the record. -/
def stateOfJson (v : Json) : Option HostBootState :=
  match v.get? "version", v.get? "bootId", v.get? "startedAt", v.get? "cleanStop", v.get? "trackingSince",
    v.get? "unclean" with
  | some (.num 1), some (.str bootId), some (.str startedAt), some (.bool cleanStop), some (.str trackingSince),
    some (.arr unclean) =>
    match loadUncleanAll unclean with
    | some unclean =>
      if isOptionalTime (v.get? "underVoltageAt") then
        some ⟨bootId, startedAt, cleanStop, trackingSince, unclean, strOrNull (v.get? "underVoltageAt")⟩
      else none
    | none => none
  | _, _, _, _, _, _ => none

/-- `loadHostBoots`: the stored record, `none` when the file is missing, no JSON or not in the expected shape. -/
def loadHostBoots (J : JsonCodec) (disk : Option Text) : Option HostBootState :=
  (disk.bind J.parse).bind stateOfJson

def UncleanRestart.toJson (e : UncleanRestart) : Json :=
  .obj [("bootId", .str e.bootId), ("doctorStartedAt", .str e.doctorStartedAt), ("hostBootedAt", ofStr? e.hostBootedAt),
    ("detectedAt", .str e.detectedAt), ("underVoltageAt", ofStr? e.underVoltageAt)]

def HostBootState.toJson (s : HostBootState) : Json :=
  .obj [("version", .num 1), ("bootId", .str s.bootId), ("startedAt", .str s.startedAt), ("cleanStop", .bool s.cleanStop),
    ("trackingSince", .str s.trackingSince), ("unclean", .arr (s.unclean.map UncleanRestart.toJson)),
    ("underVoltageAt", ofStr? s.underVoltageAt)]

def saveHostBoots (J : JsonCodec) (s : HostBootState) : Text := J.stringify 2 s.toJson ++ ['\n']

/-! ## The three operations -/

structure Store where
  disk : Option Text
  current : Option HostBootState

/-- The record `recordBoot` stores. -/
def nextState (proc : HostProc) (bootId now : String) (prev : Option HostBootState) : HostBootState :=
  let unclean : List UncleanRestart :=
    match prev with
    | none => []
    | some p =>
      if p.bootId ≠ bootId ∧ p.cleanStop = false then
        p.unclean ++ [⟨p.bootId, p.startedAt, readHostBootedAt proc, now, p.underVoltageAt⟩]
      else p.unclean
  { bootId := bootId
    startedAt := now
    cleanStop := false
    trackingSince := (prev.map (·.trackingSince)).getD now
    unclean := unclean.rtake maxUnclean
    underVoltageAt := prev.bind (fun p => if p.bootId = bootId then p.underVoltageAt else none) }

/-- `recordBoot`: nothing on WSL or under an unreadable boot ID. -/
def recordBoot (J : JsonCodec) (proc : HostProc) (now : String) (s : Store) : Store :=
  if isWsl proc then s
  else
    match readBootId proc with
    | none => s
    | some bootId =>
      let next := nextState proc bootId now (loadHostBoots J s.disk)
      ⟨some (saveHostBoots J next), some next⟩

/-- `noteUnderVoltage`: the first observation is stored. -/
def noteUnderVoltage (J : JsonCodec) (s : Store) (now : String) : Store :=
  match s.current with
  | none => s
  | some current =>
    if current.underVoltageAt ≠ none then s
    else
      let next := { current with underVoltageAt := some now }
      ⟨some (saveHostBoots J next), some next⟩

/-- `markCleanStopSync`; the copy stays as it is, the process being about to exit. -/
def markCleanStopSync (J : JsonCodec) (s : Store) : Store :=
  match s.current with
  | none => s
  | some current => { s with disk := some (saveHostBoots J { current with cleanStop := true }) }

/-! ## Histories -/

/-- One run of the doctor: what the host tells at its start, when it starts, when it notes under-voltage, and whether it
ends through the signal handler. -/
structure Run where
  proc : HostProc
  startedAt : String
  notes : List String
  clean : Bool
  deriving DecidableEq, Repr

/-- A boot of the host and the doctor's runs in it, possibly none. -/
structure Boot where
  id : String
  runs : List Run
  deriving DecidableEq, Repr

/-- The file after a complete run, which a process without a copy began. -/
def runDisk (J : JsonCodec) (disk : Option Text) (r : Run) : Option Text :=
  let s := r.notes.foldl (noteUnderVoltage J) (recordBoot J r.proc r.startedAt ⟨disk, none⟩)
  (if r.clean then markCleanStopSync J s else s).disk

def bootDisk (J : JsonCodec) (disk : Option Text) (b : Boot) : Option Text := b.runs.foldl (runDisk J) disk

def Run.Readable (r : Run) (bootId : String) : Prop := isWsl r.proc = false ∧ readBootId r.proc = some bootId

def firstNote (runs : List Run) : Option String := (runs.flatMap Run.notes).head?

def firstStart (boots : List Boot) : Option String := (boots.flatMap Boot.runs).head?.map Run.startedAt

/-- What a record keeps of a boot that ended without a clean stop: its ID, the start of its last run, the first
under-voltage noted in it. -/
def UncleanRestart.ended (e : UncleanRestart) : String × String × Option String :=
  (e.bootId, e.doctorStartedAt, e.underVoltageAt)

/-- **The boot ended without a clean stop**: the doctor ran in it and its last run did not end through the handler. -/
def Boot.endedUnclean (b : Boot) : Option (String × String × Option String) :=
  match b.runs.getLast? with
  | some last => if last.clean then none else some (b.id, last.startedAt, firstNote b.runs)
  | none => none

/-! ## The record round-trips -/

theorem isOptionalTime_ofStr? (s : Option String) : isOptionalTime (some (ofStr? s)) = true := by
  cases s <;> rfl

theorem loadUnclean_toJson (e : UncleanRestart) : loadUnclean e.toJson = some e := by
  obtain ⟨bootId, started, booted, detected, under⟩ := e
  cases booted <;> cases under <;> rfl

theorem loadUncleanAll_toJson : ∀ es : List UncleanRestart, loadUncleanAll (es.map UncleanRestart.toJson) = some es
  | [] => rfl
  | e :: es => by rw [List.map_cons, loadUncleanAll, loadUnclean_toJson, loadUncleanAll_toJson es]

theorem stateOfJson_toJson (s : HostBootState) : stateOfJson s.toJson = some s := by
  simp [stateOfJson, HostBootState.toJson, Json.get?, loadUncleanAll_toJson, isOptionalTime_ofStr?]

theorem HostBootState.wf_toJson (s : HostBootState) : s.toJson.wf = true := by
  have he : ∀ e : UncleanRestart, e.toJson.wf = true := fun e => by
    simp only [UncleanRestart.toJson, Json.wf, Json.wfFields, Json.wf_ofStr?, Bool.and_true, List.map_cons, List.map_nil]
    decide
  have hl : Json.wfList (s.unclean.map UncleanRestart.toJson) = true := by
    rw [Json.wfList_eq, List.all_eq_true]
    intro v hv
    obtain ⟨e, -, rfl⟩ := List.mem_map.1 hv
    exact he e
  simp only [HostBootState.toJson, Json.wf, Json.wfFields, hl, Json.wf_ofStr?, Bool.and_true, List.map_cons, List.map_nil]
  decide

/-- **What is saved loads as it was.** -/
theorem loadHostBoots_save (J : JsonCodec) (s : HostBootState) : loadHostBoots J (some (saveHostBoots J s)) = some s := by
  have hparse : J.parse (saveHostBoots J s) = some s.toJson := J.parse_stringify 2 s.toJson ['\n'] s.wf_toJson rfl
  rw [loadHostBoots, Option.bind_some, hparse, Option.bind_some, stateOfJson_toJson]

/-! ## What the record says -/

/-- The notes of a run find the record of its start, and keep the first time. -/
theorem foldl_noteUnderVoltage (J : JsonCodec) : ∀ (notes : List String) (s : HostBootState),
    notes.foldl (noteUnderVoltage J) ⟨some (saveHostBoots J s), some s⟩ =
      ⟨some (saveHostBoots J { s with underVoltageAt := s.underVoltageAt.or notes.head? }),
        some { s with underVoltageAt := s.underVoltageAt.or notes.head? }⟩
  | [], s => by simp
  | now :: notes, s => by
    rw [List.foldl_cons]
    cases h : s.underVoltageAt with
    | some t =>
      have hstep : noteUnderVoltage J ⟨some (saveHostBoots J s), some s⟩ now = ⟨some (saveHostBoots J s), some s⟩ := by
        simp [noteUnderVoltage, h]
      rw [hstep, foldl_noteUnderVoltage J notes s, h]
      rfl
    | none =>
      have hstep : noteUnderVoltage J ⟨some (saveHostBoots J s), some s⟩ now =
          ⟨some (saveHostBoots J { s with underVoltageAt := some now }), some { s with underVoltageAt := some now }⟩ := by
        simp [noteUnderVoltage, h]
      rw [hstep, foldl_noteUnderVoltage J notes]
      rfl

theorem recordBoot_eq {J : JsonCodec} {r : Run} {id : String} (h : r.Readable id) (disk : Option Text) :
    recordBoot J r.proc r.startedAt ⟨disk, none⟩ =
      ⟨some (saveHostBoots J (nextState r.proc id r.startedAt (loadHostBoots J disk))),
        some (nextState r.proc id r.startedAt (loadHostBoots J disk))⟩ := by
  simp [recordBoot, h.1, h.2]

theorem runDisk_eq {J : JsonCodec} {r : Run} {id : String} (h : r.Readable id) (disk : Option Text) :
    runDisk J disk r =
      some (saveHostBoots J
        { nextState r.proc id r.startedAt (loadHostBoots J disk) with
          cleanStop := r.clean
          underVoltageAt :=
            (nextState r.proc id r.startedAt (loadHostBoots J disk)).underVoltageAt.or r.notes.head? }) := by
  rw [runDisk, recordBoot_eq h, foldl_noteUnderVoltage]
  cases hc : r.clean <;> simp [markCleanStopSync, nextState]

/-- **What the record says of complete boots**: nothing before the first start; else, with the entry of its own boot
added if that has not ended cleanly, the boots that ended without a clean stop. -/
def Past (J : JsonCodec) (earlier : List Boot) (disk : Option Text) : Prop :=
  (loadHostBoots J disk = none ∧ firstStart earlier = none ∧ earlier.filterMap Boot.endedUnclean = []) ∨
    ∃ s, loadHostBoots J disk = some s ∧ s.bootId ∈ earlier.map Boot.id ∧ firstStart earlier = some s.trackingSince ∧
      (s.unclean.map UncleanRestart.ended ++
          if s.cleanStop then [] else [(s.bootId, s.startedAt, s.underVoltageAt)]).rtake maxUnclean =
        (earlier.filterMap Boot.endedUnclean).rtake maxUnclean

/-- **What the record says within a boot**, after some of its runs. -/
structure Recorded (earlier : List Boot) (id : String) (runs : List Run) (s : HostBootState) : Prop where
  bootId : s.bootId = id
  last : ∃ r, runs.getLast? = some r ∧ s.startedAt = r.startedAt ∧ s.cleanStop = r.clean
  trackingSince : firstStart (earlier ++ [⟨id, runs⟩]) = some s.trackingSince
  unclean : s.unclean.map UncleanRestart.ended = (earlier.filterMap Boot.endedUnclean).rtake maxUnclean
  underVoltageAt : s.underVoltageAt = firstNote runs

/-- The file between two runs: before the first of the boot, or after some. -/
def Between (J : JsonCodec) (earlier : List Boot) (id : String) (runs : List Run) (disk : Option Text) : Prop :=
  (runs = [] ∧ Past J earlier disk) ∨ ∃ s, loadHostBoots J disk = some s ∧ Recorded earlier id runs s

theorem firstStart_append (boots : List Boot) (id : String) (runs : List Run) :
    firstStart (boots ++ [⟨id, runs⟩]) = (firstStart boots).or (runs.head?.map Run.startedAt) := by
  unfold firstStart
  rw [List.flatMap_append, List.flatMap_singleton, List.head?_append]
  cases (boots.flatMap Boot.runs).head? <;> rfl

theorem firstNote_append (runs : List Run) (r : Run) : firstNote (runs ++ [r]) = (firstNote runs).or r.notes.head? := by
  unfold firstNote
  rw [List.flatMap_append, List.flatMap_singleton, List.head?_append]

/-- **The first start of a boot** closes the boots before it. -/
theorem past_nextState {J : JsonCodec} {earlier : List Boot} {disk : Option Text} (h : Past J earlier disk) {id : String}
    (hid : id ∉ earlier.map Boot.id) (proc : HostProc) (now : String) :
    (nextState proc id now (loadHostBoots J disk)).bootId = id ∧
      (nextState proc id now (loadHostBoots J disk)).trackingSince = (firstStart earlier).getD now ∧
      (nextState proc id now (loadHostBoots J disk)).unclean.map UncleanRestart.ended =
        (earlier.filterMap Boot.endedUnclean).rtake maxUnclean ∧
      (nextState proc id now (loadHostBoots J disk)).underVoltageAt = none := by
  rcases h with ⟨hload, hfirst, hnone⟩ | ⟨s, hload, hmem, hfirst, hunclean⟩
  · simp [nextState, hload, hfirst, hnone]
  · have hne : s.bootId ≠ id := fun he => hid (he ▸ hmem)
    rw [hload, hfirst]
    refine ⟨rfl, rfl, ?_, by simp [nextState, hne]⟩
    rw [← hunclean]
    simp only [nextState, ← map_rtake]
    cases hc : s.cleanStop <;> simp [hne, UncleanRestart.ended]

/-- **A restart within the boot** adds no entry and keeps the boot's under-voltage time. -/
theorem recorded_nextState {earlier : List Boot} {id : String} {runs : List Run} {s : HostBootState}
    (h : Recorded earlier id runs s) (proc : HostProc) (now : String) :
    (nextState proc id now (some s)).trackingSince = s.trackingSince ∧
      (nextState proc id now (some s)).unclean.map UncleanRestart.ended =
        (earlier.filterMap Boot.endedUnclean).rtake maxUnclean ∧
      (nextState proc id now (some s)).underVoltageAt = firstNote runs := by
  refine ⟨rfl, ?_, by simp [nextState, h.bootId, h.underVoltageAt]⟩
  have htwice := rtake_rtake_append (earlier.filterMap Boot.endedUnclean) [] maxUnclean
  rw [List.append_nil, List.append_nil] at htwice
  simp [nextState, h.bootId, ← map_rtake, h.unclean, htwice]

/-- **Every start stores a record of the boots before it and of its own.** -/
theorem nextState_spec {J : JsonCodec} {earlier : List Boot} {id : String} {runs : List Run} {disk : Option Text}
    (hid : id ∉ earlier.map Boot.id) (h : Between J earlier id runs disk) (r : Run) :
    (nextState r.proc id r.startedAt (loadHostBoots J disk)).unclean.map UncleanRestart.ended =
        (earlier.filterMap Boot.endedUnclean).rtake maxUnclean ∧
      firstStart (earlier ++ [⟨id, runs ++ [r]⟩]) =
        some (nextState r.proc id r.startedAt (loadHostBoots J disk)).trackingSince ∧
      (nextState r.proc id r.startedAt (loadHostBoots J disk)).underVoltageAt = firstNote runs := by
  rcases h with ⟨rfl, hpast⟩ | ⟨s, hload, hrec⟩
  · obtain ⟨-, htrack, hunclean, hunder⟩ := past_nextState hpast hid r.proc r.startedAt
    refine ⟨hunclean, ?_, hunder⟩
    rw [htrack, firstStart_append]
    cases firstStart earlier <;> rfl
  · obtain ⟨htrack, hunclean, hunder⟩ := recorded_nextState hrec r.proc r.startedAt
    rw [hload]
    refine ⟨hunclean, ?_, hunder⟩
    rw [htrack, ← hrec.trackingSince, firstStart_append, firstStart_append]
    obtain ⟨last, hlast, -⟩ := hrec.last
    cases runs with
    | nil => cases hlast
    | cons x xs => rfl

theorem runDisk_between {J : JsonCodec} {earlier : List Boot} {id : String} {runs : List Run} {disk : Option Text}
    (hid : id ∉ earlier.map Boot.id) (h : Between J earlier id runs disk) {r : Run} (hr : r.Readable id) :
    Between J earlier id (runs ++ [r]) (runDisk J disk r) := by
  obtain ⟨hunclean, htrack, hunder⟩ := nextState_spec hid h r
  rw [runDisk_eq hr]
  refine .inr ⟨_, loadHostBoots_save J _, ?_⟩
  constructor
  · rfl
  · exact ⟨r, List.getLast?_concat, rfl, rfl⟩
  · exact htrack
  · exact hunclean
  · simp only [hunder, firstNote_append]

theorem foldl_runDisk_between {J : JsonCodec} {earlier : List Boot} {id : String} (hid : id ∉ earlier.map Boot.id) :
    ∀ (rest runs : List Run) (disk : Option Text), Between J earlier id runs disk → (∀ r ∈ rest, r.Readable id) →
      Between J earlier id (runs ++ rest) (rest.foldl (runDisk J) disk)
  | [], runs, disk, h, _ => by simpa using h
  | r :: rest, runs, disk, h, hr => by
    have hstep := runDisk_between hid h (hr r (List.mem_cons_self ..))
    have := foldl_runDisk_between hid rest _ _ hstep (fun x hx => hr x (List.mem_cons_of_mem _ hx))
    rwa [List.append_assoc, List.singleton_append] at this

theorem between_past {J : JsonCodec} {earlier : List Boot} {b : Boot} {disk : Option Text}
    (h : Between J earlier b.id b.runs disk) : Past J (earlier ++ [b]) disk := by
  rcases h with ⟨hruns, hpast⟩ | ⟨s, hload, hrec⟩
  · have hfirst : firstStart (earlier ++ [b]) = firstStart earlier := by
      rw [show b = ⟨b.id, b.runs⟩ from rfl, firstStart_append, hruns]
      cases firstStart earlier <;> rfl
    have hended : (earlier ++ [b]).filterMap Boot.endedUnclean = earlier.filterMap Boot.endedUnclean := by
      simp [List.filterMap_append, Boot.endedUnclean, hruns]
    rcases hpast with ⟨hload, hf, hn⟩ | ⟨s, hload, hmem, hf, hu⟩
    · exact .inl ⟨hload, hfirst.trans hf, hended.trans hn⟩
    · exact .inr ⟨s, hload, by simp [hmem], hfirst.trans hf, by rw [hu, hended]⟩
  · refine .inr ⟨s, hload, by simp [hrec.bootId], hrec.trackingSince, ?_⟩
    obtain ⟨last, hlast, hstart, hclean⟩ := hrec.last
    have hended : [b].filterMap Boot.endedUnclean =
        if s.cleanStop then [] else [(s.bootId, s.startedAt, s.underVoltageAt)] := by
      rw [hclean, hstart, hrec.bootId, hrec.underVoltageAt]
      cases hc : last.clean <;> simp [Boot.endedUnclean, hlast, hc]
    rw [List.filterMap_append, hended, hrec.unclean, rtake_rtake_append]

theorem foldl_bootDisk_past {J : JsonCodec} : ∀ (rest earlier : List Boot) (disk : Option Text), Past J earlier disk →
    ((earlier ++ rest).map Boot.id).Nodup → (∀ b ∈ rest, ∀ r ∈ b.runs, r.Readable b.id) →
      Past J (earlier ++ rest) (rest.foldl (bootDisk J) disk)
  | [], earlier, disk, h, _, _ => by simpa using h
  | b :: rest, earlier, disk, h, hnd, hr => by
    have hid : b.id ∉ earlier.map Boot.id := by
      rw [List.map_append, List.nodup_append] at hnd
      exact fun hm => hnd.2.2 _ hm _ (by simp) rfl
    have hboot : Past J (earlier ++ [b]) (bootDisk J disk b) :=
      between_past (foldl_runDisk_between hid b.runs [] disk (.inl ⟨rfl, h⟩) (hr b (List.mem_cons_self ..)))
    have := foldl_bootDisk_past rest (earlier ++ [b]) _ hboot (by rwa [List.append_assoc, List.singleton_append])
      (fun x hx => hr x (List.mem_cons_of_mem _ hx))
    rwa [List.append_assoc, List.singleton_append] at this

theorem endedUnclean_ids : ∀ boots : List Boot,
    List.Sublist ((boots.filterMap Boot.endedUnclean).map Prod.fst) (boots.map Boot.id)
  | [] => List.Sublist.slnil
  | b :: boots => by
    rw [List.map_cons]
    cases h : b.endedUnclean with
    | none =>
      rw [List.filterMap_cons_none h]
      exact (endedUnclean_ids boots).cons _
    | some e =>
      rw [List.filterMap_cons_some h, List.map_cons]
      have he : e.1 = b.id := by
        unfold Boot.endedUnclean at h
        split at h
        · split at h
          · cases h
          · cases h; rfl
        · cases h
      rw [he]
      exact (endedUnclean_ids boots).cons_cons _

theorem nodup_bootId {earlier : List Boot} {entries : List UncleanRestart}
    (h : entries.map UncleanRestart.ended = (earlier.filterMap Boot.endedUnclean).rtake maxUnclean)
    (hnd : (earlier.map Boot.id).Nodup) : (entries.map UncleanRestart.bootId).Nodup := by
  have hids : entries.map UncleanRestart.bootId = ((earlier.filterMap Boot.endedUnclean).rtake maxUnclean).map Prod.fst := by
    rw [← h, List.map_map]
    rfl
  rw [hids]
  exact (((List.drop_sublist ..).map _).trans (endedUnclean_ids earlier)).nodup hnd

/-- **The stored record summarises the history.**  After any complete boots, and any runs in the boot `id`, the start `r`
stores a record that loads with: the newest 20 of the earlier boots that ended without a clean stop, oldest first and
each once; the first start ever; its own boot and start, not clean; the first under-voltage its boot's runs noted. -/
theorem recordBoot_history (J : JsonCodec) (earlier : List Boot) (id : String) (runs : List Run) (r : Run)
    (hdistinct : (earlier.map Boot.id ++ [id]).Nodup) (hearlier : ∀ b ∈ earlier, ∀ r ∈ b.runs, r.Readable b.id)
    (hruns : ∀ r ∈ runs, r.Readable id) (hr : r.Readable id) :
    ∃ s, loadHostBoots J
        (recordBoot J r.proc r.startedAt ⟨runs.foldl (runDisk J) (earlier.foldl (bootDisk J) none), none⟩).disk = some s ∧
      s.unclean.map UncleanRestart.ended = (earlier.filterMap Boot.endedUnclean).rtake maxUnclean ∧
      (s.unclean.map UncleanRestart.bootId).Nodup ∧
      some s.trackingSince = firstStart (earlier ++ [⟨id, runs ++ [r]⟩]) ∧
      s.bootId = id ∧ s.startedAt = r.startedAt ∧ s.cleanStop = false ∧ s.underVoltageAt = firstNote runs := by
  obtain ⟨hnd, -, hnew⟩ := List.nodup_append.1 hdistinct
  have hid : id ∉ earlier.map Boot.id := fun hm => hnew _ hm _ (List.mem_singleton.2 rfl) rfl
  have hpast : Past J earlier (earlier.foldl (bootDisk J) none) :=
    foldl_bootDisk_past earlier [] none (.inl ⟨rfl, rfl, rfl⟩) hnd hearlier
  have hbetween := foldl_runDisk_between hid runs [] _ (.inl ⟨rfl, hpast⟩) hruns
  obtain ⟨hunclean, htrack, hunder⟩ := nextState_spec hid hbetween r
  rw [recordBoot_eq hr]
  refine ⟨_, loadHostBoots_save J _, hunclean, nodup_bootId hunclean hnd, htrack.symm, rfl, rfl, rfl, hunder⟩

/-- A boot the doctor was restarted in and that then lost power, one it did not run in. -/
def powerCut : List Boot :=
  [⟨"11111111-1111-4111-8111-111111111111",
      [⟨⟨some "11111111-1111-4111-8111-111111111111\n", none, none⟩, "2026-10-20T08:00:00.000Z", [], true⟩,
        ⟨⟨some "11111111-1111-4111-8111-111111111111\n", none, none⟩, "2026-10-20T09:00:00.000Z",
          ["2026-10-20T09:30:00.000Z", "2026-10-20T09:30:01.000Z"], false⟩]⟩,
    ⟨"22222222-2222-4222-8222-222222222222", []⟩]

def afterPowerCut : Run :=
  ⟨⟨some "33333333-3333-4333-8333-333333333333\n", none, none⟩, "2026-10-21T08:00:00.000Z", [], false⟩

instance (r : Run) (id : String) : Decidable (r.Readable id) := inferInstanceAs (Decidable (_ ∧ _))

theorem recordBoot_history_powerCut :
    ∃ s, loadHostBoots jsonText
        (recordBoot jsonText afterPowerCut.proc afterPowerCut.startedAt
          ⟨[afterPowerCut].foldl (runDisk jsonText) (powerCut.foldl (bootDisk jsonText) none), none⟩).disk = some s ∧
      s.unclean.map UncleanRestart.ended = [("11111111-1111-4111-8111-111111111111", "2026-10-20T09:00:00.000Z",
        some "2026-10-20T09:30:00.000Z")] ∧ some s.trackingSince = some "2026-10-20T08:00:00.000Z" := by
  obtain ⟨s, hload, hunclean, -, htrack, -⟩ := recordBoot_history jsonText powerCut
    "33333333-3333-4333-8333-333333333333" [afterPowerCut] afterPowerCut (by decide +kernel) (by decide +kernel)
    (by decide +kernel) (by decide +kernel)
  exact ⟨s, hload, hunclean.trans (by decide +kernel), htrack.trans (by decide +kernel)⟩

end HostBoots
end SignalkDoctor
