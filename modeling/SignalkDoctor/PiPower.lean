import Mathlib.Data.List.Infix
import SignalkDoctor.HostBoots
import SignalkDoctor.NumberText
import SignalkDoctor.Probes
import SignalkDoctor.Steps
import SignalkDoctor.TextOrder
import SignalkDoctor.UnixPath
/-!
# PiPower — under-voltage of a Raspberry Pi (`src/pi-power.ts`, `src/probes/pi-power.ts`)

The driver's alarm says whether the supply dropped in its last 2 s window.  The doctor reads it every second, each sample
a read of its own that may end after the next one began, and stores the time of the first alarm it sees in the boot's
record; the probe reports that record, and the temperature of the CPU's thermal zone.  `sampler_run` is what holds of
every interleaving of the samples, and `dip_reported` that no window with an alarm escapes the probe.
-/
namespace SignalkDoctor
namespace PiPower

open HostBoots (HostBootState HostProc Store loadHostBoots saveHostBoots readBootId)
open JsString (trim)
open NumberText (finite number)
open Probes (ProbeResult ProbeStatus)
open Steps (exec)
open TextOrder (sortTexts)

/-! ## What sysfs tells -/

inductive ReadFile where
  | text (content : String)
  | enoent
  | failed
  deriving DecidableEq, Repr

/-- The files of a thermal zone, `none` where they cannot be read. -/
structure ThermalZone where
  type : Option String
  temp : Option String

structure SysFs where
  sysRoot : String
  /-- `class` is a directory. -/
  classDir : Bool
  model : ReadFile
  /-- The entries of `class/hwmon` and the content of their `name`, `none` where unreadable. -/
  hwmon : Option (List (String × Option String))
  /-- The entries of `class/thermal`, and the zone under a name. -/
  thermal : Option (List String)
  zone : String → ThermalZone

/-- `/raspberry pi/i.test(model)` -/
def testRaspberryPi (model : String) : Bool := decide ("raspberry pi".toList <:+: model.toList.map Char.toLower)

def isRaspberryPi (sys : SysFs) : Option Bool :=
  match sys.model with
  | .text model => some (testRaspberryPi model)
  | .enoent => some false
  | .failed => none

/-- `join(sysRoot(), path)` -/
def SysFs.path (sys : SysFs) (path : String) : String := String.ofList (UnixPath.join sys.sysRoot.toList path.toList)

def findRpiVolt (sys : SysFs) : Option String :=
  match sys.hwmon with
  | none => none
  | some entries =>
    (entries.find? (fun e => e.2.any (fun name => trim name == "rpi_volt"))).map (fun e => sys.path ("class/hwmon/" ++ e.1))

/-- `readUnderVoltageAlarm` of the content of `in0_lcrit_alarm`. -/
def readUnderVoltageAlarm (content : Option String) : Option Bool :=
  match content.map trim with
  | some "1" => some true
  | some "0" => some false
  | _ => none

/-- What the loop takes of a zone, `none` where it goes on; a temperature that is no finite number is none. -/
def zoneTempC (fl : Rounding) (zone : ThermalZone) : Option (Option ℚ) :=
  if zone.type.map trim = some "cpu-thermal" then
    zone.temp.map (fun temp => (finite (number fl (trim temp))).map (fun milli => fl.round (milli / 1000)))
  else none

/-- `zones`, in their order. -/
def thermalZones (entries : List String) : List String :=
  sortTexts (entries.filter (fun z => "thermal_zone".toList.isPrefixOf z.toList))

def readCpuTempC (fl : Rounding) (sys : SysFs) : Option ℚ :=
  match sys.thermal with
  | none => none
  | some entries => ((thermalZones entries).findSome? (fun z => zoneTempC fl (sys.zone z))).join

/-- **The order in which the zones are listed does not matter.** -/
theorem readCpuTempC_perm (fl : Rounding) {sys : SysFs} {entries entries' : List String} (h : entries.Perm entries')
    (hnodup : entries.Nodup) :
    readCpuTempC fl { sys with thermal := some entries } = readCpuTempC fl { sys with thermal := some entries' } := by
  have hzones : thermalZones entries' = thermalZones entries :=
    TextOrder.sortTexts_eq (TextOrder.pairwise_sortTexts (hnodup.filter _))
      ((TextOrder.perm_sortTexts _).trans (h.filter _))
  simp only [readCpuTempC, hzones]

/-! ## The sampler -/

/-- How the write of the record ends: one that fails may have renamed it, the sync of the directory failing. -/
inductive Write where
  | stored
  | failed (renamed : Bool)
  deriving DecidableEq, Repr

inductive SamplerAct where
  /-- `sample()`, at the start and from the interval. -/
  | sample (id : Nat) (now : String)
  /-- The read of the sample gives what the alarm says at `readAt`. -/
  | answer (id readAt : Nat) (write : Write)
  | stop

structure Sampler where
  store : Store
  reading : List (Nat × String)
  stopped : Bool
  warned : Bool
  warnings : Nat
  /-- The times of the samples that saw the alarm, and how often the record was stored. -/
  seen : List String
  stores : Nat

def Sampler.start (store : Store) : Sampler := ⟨store, [], false, false, 0, [], 0⟩

/-- `sampleUnderVoltage(dir, now).catch(...)`, the alarm having been seen: `noteUnderVoltage`, and the warning once. -/
def Sampler.note (J : JsonCodec) (s : Sampler) (now : String) (write : Write) : Sampler :=
  match s.store.current with
  | none => s
  | some current =>
    if current.underVoltageAt ≠ none then s
    else
      match write with
      | .stored => { s with store := HostBoots.noteUnderVoltage J s.store now, stores := s.stores + 1 }
      | .failed renamed =>
        { s with
          store := if renamed then { s.store with disk := (HostBoots.noteUnderVoltage J s.store now).disk } else s.store
          warned := true
          warnings := s.warnings + if s.warned then 0 else 1 }

/-- The sampler over the alarm's file, which holds `alarm t` at the time `t` in milliseconds. -/
def samplerStep (J : JsonCodec) (alarm : Nat → Option String) (s : Sampler) : SamplerAct → Option Sampler
  | .sample id now =>
    if s.stopped ∨ id ∈ s.reading.map Prod.fst then none else some { s with reading := (id, now) :: s.reading }
  | .answer id readAt write =>
    match s.reading.lookup id with
    | none => none
    | some now =>
      let s := { s with reading := s.reading.filter (fun r => r.1 != id) }
      if readUnderVoltageAlarm (alarm readAt) = some true then
        some (Sampler.note J { s with seen := s.seen ++ [now] } now write)
      else some s
  | .stop => some { s with stopped := true }

/-! ## The probe -/

structure PiDetails where
  underVoltageNow : Option Bool
  underVoltageFirstSeenAt : Option String
  watchingSince : Option String
  cpuTempC : Option ℚ
  deriving DecidableEq

structure PiEnv where
  sys : SysFs
  /-- The content of `in0_lcrit_alarm`. -/
  alarmFile : Option String
  fl : Rounding
  toFixed1 : ℚ → String
  hostBoots : Option Text
  proc : HostProc
  durationMs : Int

/-- What the probe reads of the temperature. -/
def PiEnv.cpuTempC (env : PiEnv) : Option ℚ := readCpuTempC env.fl env.sys

def THROTTLE_C : ℚ := 80

def HARD_LIMIT_C : ℚ := 85

def piResult (env : PiEnv) (status : ProbeStatus) (message : String) (details : Option PiDetails) : ProbeResult PiDetails :=
  ⟨"pi-power", "Pi power and temperature", status, message, details, env.durationMs⟩

/-- The record of this boot; one of an earlier boot says nothing about it. -/
def bootRecord (J : JsonCodec) (env : PiEnv) : Option HostBootState :=
  (loadHostBoots J env.hostBoots).filter (fun state => readBootId env.proc == some state.bootId)

def tempText (env : PiEnv) (tempC : ℚ) : String := env.toFixed1 tempC ++ " °C"

def underVoltageProblem (alarm : Option Bool) (firstSeenAt : Option String) : Option String :=
  let rest := ": the supply dropped below what the Pi needs, which can crash it and corrupt the SD card; check the 5 V " ++
    "supply and its wiring"
  if alarm = some true then
    some ("Under-voltage right now" ++
      (match firstSeenAt with
        | none | some "" => ""
        | some at' => ", first seen this boot at " ++ at') ++ rest)
  else firstSeenAt.map (fun at' => "Under-voltage earlier this boot, first seen " ++ at' ++ rest)

def tempProblem (env : PiEnv) : Option String :=
  match env.cpuTempC with
  | none => none
  | some tempC =>
    if HARD_LIMIT_C ≤ tempC then
      some ("CPU at " ++ tempText env tempC ++ ": from 85 °C the firmware throttles the Arm cores and the GPU")
    else if THROTTLE_C ≤ tempC then
      some ("CPU at " ++ tempText env tempC ++ ": between 80 and 85 °C the firmware throttles the Arm cores")
    else none

/-- The verdict on a Pi, or on what may be one. -/
def judgePower (J : JsonCodec) (env : PiEnv) (voltDir : Option String) : ProbeResult PiDetails :=
  let alarm := voltDir.bind (fun _ => readUnderVoltageAlarm env.alarmFile)
  let record := bootRecord J env
  let firstSeenAt := record.bind (·.underVoltageAt)
  let details := some ⟨alarm, firstSeenAt, record.map (·.startedAt), env.cpuTempC⟩
  let problems := (underVoltageProblem alarm firstSeenAt).toList ++ (tempProblem env).toList
  let cpu := match env.cpuTempC with | none => "" | some tempC => "; CPU at " ++ tempText env tempC
  if problems ≠ [] then piResult env .warn ("; ".intercalate problems) details
  else if alarm = none then
    piResult env .unknown
      (match voltDir with
        | some dir => "Cannot read " ++ dir ++ "/in0_lcrit_alarm" ++ cpu
        | none => "Cannot read the under-voltage alarm (no rpi_volt hwmon device)" ++ cpu) details
  else
    piResult env .ok
      (match record with
        | some record => "No under-voltage since the doctor started at " ++ record.startedAt ++ cpu
        | none => "No under-voltage right now; no boot record, so earlier dips this boot are unknown" ++ cpu) details

def probePiPower (J : JsonCodec) (env : PiEnv) : ProbeResult PiDetails :=
  if env.sys.classDir then
    let voltDir := findRpiVolt env.sys
    if voltDir = none ∧ isRaspberryPi env.sys = some false then piResult env .ok "Not a Raspberry Pi" none
    else judgePower J env voltDir
  else
    piResult env .unknown
      (env.sys.sysRoot ++ "/class is missing — doctor container may be missing the host /sys mount; refresh the doctor " ++
        "quadlet via signalk-universal-installer to enable this probe") none

/-! ## What holds of every interleaving -/

section
variable {J : JsonCodec} {alarm : Nat → Option String} {c : HostBootState}

/-- **An answered sample** that saw the alarm notes the time it began at; any other step leaves the record. -/
theorem samplerStep_cases {s t : Sampler} {a : SamplerAct} (h : samplerStep J alarm s a = some t) :
    (t.store = s.store ∧ t.seen = s.seen ∧ t.stores = s.stores ∧ t.warned = s.warned ∧ t.warnings = s.warnings ∧
      ∀ id readAt write, a = .answer id readAt write → readUnderVoltageAlarm (alarm readAt) ≠ some true) ∨
      ∃ id readAt write now reading, a = .answer id readAt write ∧ (id, now) ∈ s.reading ∧
        readUnderVoltageAlarm (alarm readAt) = some true ∧
        t = Sampler.note J { s with reading := reading, seen := s.seen ++ [now] } now write := by
  cases a with
  | sample id now =>
    simp only [samplerStep] at h
    split at h
    · cases h
    · cases h
      exact .inl ⟨rfl, rfl, rfl, rfl, rfl, by simp⟩
  | stop =>
    cases h
    exact .inl ⟨rfl, rfl, rfl, rfl, rfl, by simp⟩
  | answer id readAt write =>
    simp only [samplerStep] at h
    split at h
    · cases h
    · rename_i now hnow
      split at h
      · rename_i halarm
        cases h
        obtain ⟨l₁, l₂, hreading, -⟩ := List.lookup_eq_some_iff.1 hnow
        exact .inr ⟨id, readAt, write, now, _, rfl, by simp [hreading], halarm, rfl⟩
      · rename_i halarm
        cases h
        refine .inl ⟨rfl, rfl, rfl, rfl, rfl, fun id' readAt' write' heq => ?_⟩
        cases heq
        exact halarm

/-- The record of the boot with an under-voltage time. -/
def withTime (c : HostBootState) (u : Option String) : HostBootState := { c with underVoltageAt := u }

/-- What the copy and the file hold: the record of the start with a time a sample saw, or without one; the copy's time is
the file's, and was stored once. -/
structure Sampler.Inv (J : JsonCodec) (c : HostBootState) (s : Sampler) : Prop where
  record : ∃ u v, s.store.current = some (withTime c u) ∧ s.store.disk = some (saveHostBoots J (withTime c v)) ∧
    (∀ t, v = some t → t ∈ s.seen) ∧ (u ≠ none → v = u) ∧ s.stores = if u.isSome then 1 else 0
  warned : s.warnings = if s.warned then 1 else 0

theorem inv_start (J : JsonCodec) (hc : c.underVoltageAt = none) :
    (Sampler.start ⟨some (saveHostBoots J c), some c⟩).Inv J c := by
  have hsame : withTime c none = c := by
    rw [withTime, ← hc]
  exact ⟨⟨none, none, by rw [hsame]; rfl, by rw [hsame]; rfl, by simp, by simp, rfl⟩, rfl⟩

theorem inv_note {s : Sampler} (h : s.Inv J c) {reading : List (Nat × String)} (now : String) (write : Write) :
    (Sampler.note J { s with reading := reading, seen := s.seen ++ [now] } now write).Inv J c := by
  obtain ⟨⟨u, v, hcurrent, hdisk, hseen, hsame, hstores⟩, hwarned⟩ := h
  have hseen' : ∀ t, v = some t → t ∈ s.seen ++ [now] := fun t ht => List.mem_append_left _ (hseen t ht)
  cases u with
  | some t =>
    have hnote : Sampler.note J { s with reading := reading, seen := s.seen ++ [now] } now write =
        { s with reading := reading, seen := s.seen ++ [now] } := by
      simp [Sampler.note, hcurrent, withTime]
    rw [hnote]
    exact ⟨⟨some t, v, hcurrent, hdisk, hseen', hsame, hstores⟩, hwarned⟩
  | none =>
    have hstored : HostBoots.noteUnderVoltage J s.store now =
        ⟨some (saveHostBoots J (withTime c (some now))), some (withTime c (some now))⟩ := by
      simp [HostBoots.noteUnderVoltage, hcurrent, withTime]
    have hlast : ∀ t, some now = some t → t ∈ s.seen ++ [now] := fun t ht => by
      cases ht
      simp
    cases write with
    | stored =>
      have hnote : Sampler.note J { s with reading := reading, seen := s.seen ++ [now] } now .stored =
          { s with
            store := HostBoots.noteUnderVoltage J s.store now, reading := reading, seen := s.seen ++ [now],
            stores := s.stores + 1 } := by
        simp [Sampler.note, hcurrent, withTime]
      rw [hnote]
      refine ⟨⟨some now, some now, by rw [hstored], by rw [hstored], hlast, fun _ => rfl, ?_⟩, hwarned⟩
      simp [hstores]
    | failed renamed =>
      have hwarned' : (s.warnings + if s.warned then 0 else 1) = 1 := by
        rw [hwarned]
        cases s.warned <;> rfl
      cases renamed with
      | false =>
        refine ⟨⟨none, v, ?_, ?_, ?_, by simp, ?_⟩, ?_⟩ <;>
          simp [Sampler.note, hcurrent, withTime, hdisk, hstores, hwarned']
        exact fun t ht => .inl (hseen t ht)
      | true =>
        refine ⟨⟨none, some now, ?_, ?_, ?_, by simp, ?_⟩, ?_⟩ <;>
          simp [Sampler.note, hcurrent, withTime, hstored, hstores, hwarned']

theorem inv_step (s : Sampler) (a : SamplerAct) (t : Sampler) (h : s.Inv J c) (hstep : samplerStep J alarm s a = some t) :
    t.Inv J c := by
  rcases samplerStep_cases hstep with ⟨hstore, hseen, hstores, hwarned, hwarnings, -⟩ |
    ⟨id, readAt, write, now, reading, -, -, -, rfl⟩
  · obtain ⟨hrecord, hw⟩ := h
    exact ⟨by rw [hstore, hseen, hstores]; exact hrecord, by rw [hwarned, hwarnings]; exact hw⟩
  · exact inv_note h now write

theorem run_inv (hc : c.underVoltageAt = none) {acts : List SamplerAct} {s : Sampler}
    (h : exec (samplerStep J alarm) (Sampler.start ⟨some (saveHostBoots J c), some c⟩) acts = some s) : s.Inv J c :=
  Steps.exec_inv' inv_step acts _ s (inv_start J hc) h

theorem note_of_noted {s : Sampler} {current : HostBootState} (hcurrent : s.store.current = some current)
    (hnoted : current.underVoltageAt ≠ none) (now : String) (write : Write) : Sampler.note J s now write = s := by
  simp [Sampler.note, hcurrent, hnoted]

/-- A record that holds a time is written no more. -/
theorem frozen {s t : Sampler} {acts : List SamplerAct} {current : HostBootState} (hcurrent : s.store.current = some current)
    (hnoted : current.underVoltageAt ≠ none) (h : exec (samplerStep J alarm) s acts = some t) : t.store = s.store := by
  refine Steps.exec_inv' (I := fun t => t.store = s.store) ?_ acts s t rfl h
  intro u a v hu hstep
  rcases samplerStep_cases hstep with ⟨hstore, -⟩ | ⟨id, readAt, write, now, reading, -, -, -, rfl⟩
  · exact hstore.trans hu
  · rw [note_of_noted (by exact hu ▸ hcurrent) hnoted]
    exact hu

/-- **Every interleaving of the samples**, with any writes failing: at most one warning and one stored record; the file
always loads, as the record of the start with the time of a sample that saw the alarm, or without one; once stored, it
is written no more. -/
theorem sampler_run (J : JsonCodec) (alarm : Nat → Option String) (c : HostBootState) (hc : c.underVoltageAt = none)
    (acts : List SamplerAct) (s : Sampler)
    (hrun : exec (samplerStep J alarm) (Sampler.start ⟨some (saveHostBoots J c), some c⟩) acts = some s) :
    s.warnings ≤ 1 ∧ s.stores ≤ 1 ∧
      ∃ v, loadHostBoots J s.store.disk = some (withTime c v) ∧ (∀ t, v = some t → t ∈ s.seen) ∧
        (s.stores = 1 → v ≠ none ∧
          ∀ more t, exec (samplerStep J alarm) s more = some t → t.store = s.store) := by
  obtain ⟨⟨u, v, hcurrent, hdisk, hseen, hsame, hstores⟩, hwarned⟩ := run_inv hc hrun
  refine ⟨?_, ?_, v, by rw [hdisk, HostBoots.loadHostBoots_save], hseen, fun hone => ?_⟩
  · rw [hwarned]
    split <;> omega
  · rw [hstores]
    split <;> omega
  · have hu : u ≠ none := fun hu => by
      rw [hstores, hu] at hone
      cases hone
    refine ⟨fun hv => hu ((hsame hu).symm.trans hv), fun more t ht => ?_⟩
    exact frozen hcurrent hu ht

/-- A boot's record, and an alarm from the first second to the third. -/
def firstRecord : HostBootState :=
  ⟨"11111111-1111-4111-8111-111111111111", "2026-10-20T08:00:00.000Z", false, "2026-10-20T08:00:00.000Z", [], none⟩

def briefAlarm (t : Nat) : Option String := if 1000 ≤ t ∧ t < 3000 then some "1\n" else some "0\n"

theorem sampler_run_overtaken :
    ∃ s, exec (samplerStep jsonText briefAlarm) (Sampler.start ⟨some (saveHostBoots jsonText firstRecord), some firstRecord⟩)
        [.sample 0 "t0", .sample 1 "t1", .answer 1 1500 (.failed true), .answer 0 1600 .stored] = some s ∧
      s.seen = ["t1", "t0"] ∧ s.warnings ≤ 1 ∧ s.stores ≤ 1 := by
  obtain ⟨s, hs, hseen⟩ : ∃ s, exec (samplerStep jsonText briefAlarm)
      (Sampler.start ⟨some (saveHostBoots jsonText firstRecord), some firstRecord⟩)
        [.sample 0 "t0", .sample 1 "t1", .answer 1 1500 (.failed true), .answer 0 1600 .stored] = some s ∧
          s.seen = ["t1", "t0"] := ⟨_, rfl, rfl⟩
  have h := sampler_run jsonText briefAlarm firstRecord rfl _ s hs
  exact ⟨s, hs, hseen, h.1, h.2.1⟩

/-! ## No dip escapes -/

/-- Reads less than `w` apart leave no stretch of `w` unread. -/
theorem exists_read {w x : Nat} (hw : 0 < w) : ∀ {r : List Nat}, r.IsChain (fun a b => b < a + w) →
    (∃ a ∈ r.head?, a ≤ x) → (∃ b ∈ r.getLast?, x ≤ b) → ∃ t ∈ r, x ≤ t ∧ t < x + w
  | [], _, h, _ => by simp at h
  | [a], _, hfirst, hlast => by
    obtain rfl : a = x := by
      simp at hfirst hlast
      omega
    exact ⟨a, List.mem_singleton.2 rfl, Nat.le_refl a, by omega⟩
  | a :: b :: r, hchain, hfirst, hlast => by
    obtain ⟨hab, hrest⟩ := List.isChain_cons_cons.1 hchain
    have ha : a ≤ x := by simpa using hfirst
    by_cases hb : b ≤ x
    · obtain ⟨t, ht, hwindow⟩ := exists_read hw hrest ⟨b, rfl, hb⟩ (by simpa using hlast)
      exact ⟨t, List.mem_cons_of_mem _ ht, hwindow⟩
    · exact ⟨b, by simp, by omega, by omega⟩

theorem seen_note (s : Sampler) (now : String) (write : Write) : (Sampler.note J s now write).seen = s.seen := by
  unfold Sampler.note
  cases s.store.current with
  | none => rfl
  | some current =>
    simp only
    split
    · rfl
    · cases write <;> rfl

/-- An answer that says alarm is seen. -/
theorem seen_of_answer : ∀ (acts : List SamplerAct) (s t : Sampler), exec (samplerStep J alarm) s acts = some t →
    s.seen ≠ [] ∨ (∃ id readAt write, .answer id readAt write ∈ acts ∧
      readUnderVoltageAlarm (alarm readAt) = some true) → t.seen ≠ []
  | [], s, t, h, hsome => by
    cases h
    simpa using hsome
  | a :: acts, s, t, h, hsome => by
    obtain ⟨u, hu, hut⟩ := Steps.exec_cons h
    refine seen_of_answer acts u t hut ?_
    rcases samplerStep_cases hu with ⟨-, hseen, -, -, -, hquiet⟩ | ⟨id, readAt, write, now, reading, -, -, -, rfl⟩
    · rcases hsome with hs | ⟨id, readAt, write, hmem, halarm⟩
      · exact .inl (by rwa [hseen])
      · rcases List.mem_cons.1 hmem with rfl | hmem
        · exact absurd halarm (hquiet id readAt write rfl)
        · exact .inr ⟨id, readAt, write, hmem, halarm⟩
    · left
      rw [seen_note]
      simp

/-- While every write succeeds, the first sample that saw the alarm gives the time. -/
theorem first_stored (hc : c.underVoltageAt = none) {acts : List SamplerAct} {s : Sampler}
    (hstored : ∀ id readAt write, .answer id readAt write ∈ acts → write = .stored)
    (h : exec (samplerStep J alarm) (Sampler.start ⟨some (saveHostBoots J c), some c⟩) acts = some s) :
    s.store.current = some (withTime c s.seen.head?) ∧
      s.store.disk = some (saveHostBoots J (withTime c s.seen.head?)) := by
  have hsame : withTime c none = c := by
    rw [withTime, ← hc]
  refine Steps.exec_inv (G := fun _ a => ∀ id readAt write, a = .answer id readAt write → write = .stored)
    (I := fun s => s.store.current = some (withTime c s.seen.head?) ∧
      s.store.disk = some (saveHostBoots J (withTime c s.seen.head?))) ?_ acts _ s ?_
    (Steps.guarded_of_forall (G := fun a => ∀ id readAt write, a = .answer id readAt write → write = .stored) acts _
      (fun a ha id readAt write heq => hstored id readAt write (heq ▸ ha))) h
  · rintro s a t ⟨hcurrent, hdisk⟩ hwrite hstep
    rcases samplerStep_cases hstep with ⟨hstore, hseen, -⟩ | ⟨id, readAt, write, now, reading, rfl, -, -, rfl⟩
    · rw [hstore, hseen]
      exact ⟨hcurrent, hdisk⟩
    · obtain rfl := hwrite id readAt write rfl
      cases hs : s.seen with
      | nil =>
        rw [hs] at hcurrent
        simp [Sampler.note, HostBoots.noteUnderVoltage, hcurrent, withTime]
      | cons first rest =>
        rw [hs] at hcurrent hdisk
        have hnoted : (withTime c (some first)).underVoltageAt ≠ none := by simp [withTime]
        rw [note_of_noted (by exact hcurrent) hnoted]
        exact ⟨by simpa using hcurrent, by simpa using hdisk⟩
  · exact ⟨by simp [Sampler.start, hsame], by simp [Sampler.start, hsame]⟩

def PiEnv.Dipped (J : JsonCodec) (env : PiEnv) : Prop :=
  readUnderVoltageAlarm env.alarmFile = some true ∨ ∃ record t, bootRecord J env = some record ∧ record.underVoltageAt = some t

def PiEnv.Hot (env : PiEnv) : Prop := ∃ tempC, env.cpuTempC = some tempC ∧ THROTTLE_C ≤ tempC

theorem underVoltageProblem_ne_none (alarm : Option Bool) (firstSeenAt : Option String) :
    underVoltageProblem alarm firstSeenAt ≠ none ↔ alarm = some true ∨ firstSeenAt ≠ none := by
  unfold underVoltageProblem
  by_cases h : alarm = some true
  · simp [h]
  · cases firstSeenAt <;> simp [h]

theorem tempProblem_ne_none (env : PiEnv) : tempProblem env ≠ none ↔ env.Hot := by
  unfold tempProblem PiEnv.Hot
  cases env.cpuTempC with
  | none => simp
  | some tempC =>
    simp only [Option.some.injEq, exists_eq_left']
    by_cases hhard : HARD_LIMIT_C ≤ tempC
    · have hthrottle : THROTTLE_C ≤ tempC := le_trans (by norm_num [THROTTLE_C, HARD_LIMIT_C]) hhard
      simp [hhard, hthrottle]
    · by_cases hthrottle : THROTTLE_C ≤ tempC <;> simp [hhard, hthrottle]

/-- **The verdict where there is an alarm to read**: a warning exactly for a dip, now or on this boot's record, or a hot
CPU; `ok` exactly when the alarm says no and there is neither. -/
theorem probePiPower_verdict (J : JsonCodec) (env : PiEnv) (dir : String) (hclass : env.sys.classDir = true)
    (hdir : findRpiVolt env.sys = some dir) :
    ((probePiPower J env).status = .warn ↔ env.Dipped J ∨ env.Hot) ∧
      ((probePiPower J env).status = .ok ↔
        readUnderVoltageAlarm env.alarmFile = some false ∧ ¬ env.Dipped J ∧ ¬ env.Hot) := by
  have hjudge : probePiPower J env = judgePower J env (some dir) := by
    simp [probePiPower, hclass, hdir]
  have hdip : underVoltageProblem (readUnderVoltageAlarm env.alarmFile) ((bootRecord J env).bind (·.underVoltageAt)) ≠ none ↔
      env.Dipped J := by
    rw [underVoltageProblem_ne_none, PiEnv.Dipped]
    cases bootRecord J env with
    | none => simp
    | some record => cases h : record.underVoltageAt <;> simp [h]
  have hproblems : (underVoltageProblem (readUnderVoltageAlarm env.alarmFile)
        ((bootRecord J env).bind (·.underVoltageAt))).toList ++ (tempProblem env).toList ≠ [] ↔ env.Dipped J ∨ env.Hot := by
    rw [← hdip, ← tempProblem_ne_none]
    cases underVoltageProblem (readUnderVoltageAlarm env.alarmFile) ((bootRecord J env).bind (·.underVoltageAt)) <;>
      cases tempProblem env <;> simp
  rw [hjudge]
  simp only [judgePower, Option.bind_some]
  by_cases hp : env.Dipped J ∨ env.Hot
  · rw [if_pos (hproblems.2 hp)]
    refine ⟨iff_of_true rfl hp, iff_of_false (by simp [piResult]) ?_⟩
    rintro ⟨-, hnot, hcool⟩
    rcases hp with hp | hp
    · exact hnot hp
    · exact hcool hp
  · rw [if_neg (fun h => hp (hproblems.1 h))]
    obtain ⟨hnot, hcool⟩ := not_or.1 hp
    cases halarm : readUnderVoltageAlarm env.alarmFile with
    | none => simp [piResult, hnot, hcool]
    | some b =>
      cases b with
      | false => simp [piResult, hnot, hcool]
      | true => exact absurd (.inl halarm) hnot

/-- **No dip escapes.**  The doctor has stored a record of the boot; its samples read the alarm less than 2 s apart, in any
interleaving, and their writes succeed.  Then a 2 s window of alarms that began between two of the reads leaves a
warning for the rest of the boot, whatever the alarm says by then, with the time of a sample that saw one. -/
theorem dip_reported (J : JsonCodec) (alarm : Nat → Option String) (c : HostBootState) (hc : c.underVoltageAt = none)
    (acts : List SamplerAct) (s : Sampler)
    (hrun : exec (samplerStep J alarm) (Sampler.start ⟨some (saveHostBoots J c), some c⟩) acts = some s)
    (hstored : ∀ id readAt write, .answer id readAt write ∈ acts → write = .stored)
    (reads : List Nat) (hreads : ∀ t ∈ reads, ∃ id, .answer id t .stored ∈ acts)
    (hchain : reads.IsChain (fun a b => b < a + 2000)) (dip : Nat) (hfirst : ∃ a ∈ reads.head?, a ≤ dip)
    (hlast : ∃ b ∈ reads.getLast?, dip ≤ b)
    (hdip : ∀ t, dip ≤ t → t < dip + 2000 → readUnderVoltageAlarm (alarm t) = some true)
    (env : PiEnv) (dir : String) (hclass : env.sys.classDir = true) (hdir : findRpiVolt env.sys = some dir)
    (hdisk : env.hostBoots = s.store.disk) (hboot : readBootId env.proc = some c.bootId) :
    (probePiPower J env).status = .warn ∧
      ∃ record t, bootRecord J env = some record ∧ record.underVoltageAt = some t ∧ t ∈ s.seen := by
  obtain ⟨t, ht, hfrom, huntil⟩ := exists_read (by decide) hchain hfirst hlast
  obtain ⟨id, hanswer⟩ := hreads t ht
  have hseen : s.seen ≠ [] := seen_of_answer acts _ s hrun (.inr ⟨id, t, .stored, hanswer, hdip t hfrom huntil⟩)
  obtain ⟨first, rest, hfirst⟩ := List.exists_cons_of_ne_nil hseen
  have hload : bootRecord J env = some (withTime c (some first)) := by
    rw [bootRecord, hdisk, (first_stored hc hstored hrun).2, HostBoots.loadHostBoots_save, hfirst, hboot]
    simp [withTime]
  have hrecord : ∃ record t, bootRecord J env = some record ∧ record.underVoltageAt = some t ∧ t ∈ s.seen :=
    ⟨_, first, hload, rfl, by rw [hfirst]; exact List.mem_cons_self ..⟩
  refine ⟨(probePiPower_verdict J env dir hclass hdir).1.2 (.inl (.inr ?_)), hrecord⟩
  obtain ⟨record, t, hrec, ht, -⟩ := hrecord
  exact ⟨record, t, hrec, ht⟩

def piSys : SysFs :=
  ⟨"/host/sys", true, .text "Raspberry Pi 5 Model B Rev 1.0", some [("hwmon0", some "cpu_thermal\n"), ("hwmon1", some "rpi_volt\n")],
    some ["cooling_device0", "thermal_zone0"], fun _ => ⟨some "cpu-thermal\n", some "48312\n"⟩⟩

def briefSamples : List SamplerAct :=
  [.sample 0 "t0", .answer 0 10 .stored, .sample 1 "t1", .answer 1 1010 .stored, .sample 2 "t2", .answer 2 2010 .stored]

theorem dip_reported_brief :
    ∃ s, exec (samplerStep jsonText briefAlarm)
        (Sampler.start ⟨some (saveHostBoots jsonText firstRecord), some firstRecord⟩) briefSamples = some s ∧
      (probePiPower jsonText ⟨piSys, some "0\n", .exact, fun _ => "", s.store.disk,
        ⟨some "11111111-1111-4111-8111-111111111111\n", none, none⟩, 0⟩).status = .warn := by
  obtain ⟨s, hs⟩ : ∃ s, exec (samplerStep jsonText briefAlarm)
      (Sampler.start ⟨some (saveHostBoots jsonText firstRecord), some firstRecord⟩) briefSamples = some s := ⟨_, rfl⟩
  have hdip : ∀ t, 1000 ≤ t → t < 1000 + 2000 → readUnderVoltageAlarm (briefAlarm t) = some true := fun t hfrom huntil => by
    rw [briefAlarm, if_pos ⟨hfrom, huntil⟩]
    decide +kernel
  have hdir : findRpiVolt piSys = some "/host/sys/class/hwmon/hwmon1" := by decide +kernel
  have hboot : readBootId ⟨some "11111111-1111-4111-8111-111111111111\n", none, none⟩ = some firstRecord.bootId := by
    decide +kernel
  refine ⟨s, hs, (dip_reported jsonText briefAlarm firstRecord rfl briefSamples s hs ?_ [10, 1010, 2010] ?_ (by decide) 1000
    ⟨10, rfl, by decide⟩ ⟨2010, rfl, by decide⟩ hdip _ "/host/sys/class/hwmon/hwmon1" rfl hdir rfl hboot).1⟩
  · simp only [briefSamples, List.mem_cons, SamplerAct.answer.injEq, reduceCtorEq, false_or, List.not_mem_nil, or_false]
    rintro id readAt write (⟨-, -, h⟩ | ⟨-, -, h⟩ | ⟨-, -, h⟩) <;> exact h
  · simp [briefSamples]

end

end PiPower
end SignalkDoctor
