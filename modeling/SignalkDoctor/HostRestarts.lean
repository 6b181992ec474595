import SignalkDoctor.HostBoots
import SignalkDoctor.Probes
/-!
# HostRestarts — the probe for unclean restarts (`src/probes/host-restarts.ts`)

The probe reads the record of the host's boots and warns of those that ended without a clean stop and were detected in the
last seven days.  What it reads is the work of all runs of the doctor so far: `restarts` is the list of such boots in a
history, with the start that detected each, and `restarts_shown` says that the probe shows its newest entries and no
others.
-/
namespace SignalkDoctor
namespace HostRestarts

open HostBoots (Boot HostBootState HostProc Run UncleanRestart bootDisk firstNote firstStart isWsl loadHostBoots
  maxUnclean nextState readHostBootedAt runDisk)
open Probes (ProbeResult ProbeStatus)

def WINDOW_DAYS : Nat := 7

structure RestartDetails where
  trackingSince : String
  recent : List UncleanRestart
  earlier : Nat
  deriving DecidableEq, Repr

def restartsResult (durationMs : Int) (status : ProbeStatus) (message : String) (details : Option RestartDetails) :
    ProbeResult RestartDetails :=
  ⟨"host-restarts", "Unclean host restarts", status, message, details, durationMs⟩

/-- `Date.parse(e.detectedAt) >= cutoff`; `parse` gives nothing for a text that is no date. -/
def isRecent (parse : String → Option Int) (now : Int) (e : UncleanRestart) : Bool :=
  match parse e.detectedAt with
  | some t => decide (now - WINDOW_DAYS * 24 * 60 * 60 * 1000 ≤ t)
  | none => false

def timesText (n : Nat) : String := if n = 1 then "once" else toString n ++ " times"

/-- A template prints a null as such. -/
def timeText (t : Option String) : String := t.getD "null"

def underVoltageText (recent : List UncleanRestart) (last : UncleanRestart) : String :=
  let withUnderVoltage := recent.countP (fun e => e.underVoltageAt ≠ none)
  if withUnderVoltage = 0 then ""
  else if recent.length = 1 then
    "The Pi reported under-voltage during that boot, first at " ++ timeText last.underVoltageAt ++ ". "
  else "The Pi reported under-voltage during " ++ toString withUnderVoltage ++ " of those boots. "

def warnText (recent : List UncleanRestart) (last : UncleanRestart) : String :=
  "The host restarted without a clean shutdown " ++ timesText recent.length ++ " in the last " ++ toString WINDOW_DAYS ++
    " days, most recently back up at " ++ last.hostBootedAt.getD last.detectedAt ++ ". " ++ underVoltageText recent last ++
    "A hardware-watchdog reset, a power cut or a kernel panic ends a boot this way; " ++
    "'signalk bug-report' collects the power-supply state and the end of the previous boot's journal"

def okText (state : HostBootState) (earlier : Nat) : String :=
  "No restart without a clean shutdown in the last " ++ toString WINDOW_DAYS ++ " days" ++
    (if 0 < earlier then " (" ++ toString earlier ++ " earlier)" else "") ++ "; tracking since " ++ state.trackingSince

def judgeBoots (parse : String → Option Int) (now durationMs : Int) (state : HostBootState) : ProbeResult RestartDetails :=
  let recent := state.unclean.filter (isRecent parse now)
  let earlier := state.unclean.length - recent.length
  let details := some ⟨state.trackingSince, recent, earlier⟩
  match recent.getLast? with
  | some last => restartsResult durationMs .warn (warnText recent last) details
  | none => restartsResult durationMs .ok (okText state earlier) details

/-- `probeHostRestarts`, with the file at `path`. -/
def probeHostRestarts (J : JsonCodec) (parse : String → Option Int) (path : String) (now durationMs : Int) (proc : HostProc)
    (disk : Option Text) : ProbeResult RestartDetails :=
  if isWsl proc then
    restartsResult durationMs .ok "Not tracked under WSL: Windows stops the Podman machine without shutting it down, so every Windows restart would count"
      none
  else
    match loadHostBoots J disk with
    | none =>
      restartsResult durationMs .unknown ("No boot record in " ++ path ++ "; the doctor writes it at startup") none
    | some state => judgeBoots parse now durationMs state

/-! ## The restarts of a history -/

/-- The boots the doctor ran in. -/
def live (boots : List Boot) : List Boot := boots.filter (fun b => b.runs ≠ [])

/-- **A restart**: the boot `b` ended without a clean stop, and the first start in the next one detected it. -/
def restartOf (b next : Boot) : Option UncleanRestart :=
  match b.endedUnclean, next.runs.head? with
  | some (bootId, startedAt, underVoltageAt), some first =>
    some ⟨bootId, startedAt, readHostBootedAt first.proc, first.startedAt, underVoltageAt⟩
  | _, _ => none

def restartsOf : List Boot → List UncleanRestart
  | b :: next :: boots => (restartOf b next).toList ++ restartsOf (next :: boots)
  | _ => []

def restarts (boots : List Boot) : List UncleanRestart := restartsOf (live boots)

theorem restartsOf_concat (next : Boot) : ∀ boots : List Boot,
    restartsOf (boots ++ [next]) = restartsOf boots ++ (boots.getLast?.bind (restartOf · next)).toList
  | [] => rfl
  | [b] => by simp [restartsOf]
  | b :: c :: boots => by
    have ih := restartsOf_concat next (c :: boots)
    rw [List.cons_append, List.cons_append, restartsOf, ← List.cons_append, ih, restartsOf, List.append_assoc,
      List.getLast?_cons_cons]

theorem live_concat (boots : List Boot) (b : Boot) : live (boots ++ [b]) = live boots ++ if b.runs = [] then [] else [b] := by
  by_cases h : b.runs = [] <;> simp [live, List.filter_append, h]

/-- Another run of the same boot detects nothing. -/
theorem restarts_more_runs (earlier : List Boot) (id : String) {runs : List Run} (hruns : runs ≠ []) (r : Run) :
    restarts (earlier ++ [⟨id, runs ++ [r]⟩]) = restarts (earlier ++ [⟨id, runs⟩]) := by
  have hhead : (runs ++ [r]).head? = runs.head? := by
    cases runs with
    | nil => exact absurd rfl hruns
    | cons x xs => rfl
  have hone : ∀ b, restartOf b ⟨id, runs ++ [r]⟩ = restartOf b ⟨id, runs⟩ := fun b => by
    unfold restartOf
    dsimp only
    rw [hhead]
  unfold restarts
  rw [live_concat, live_concat, if_neg (by simp), if_neg hruns, restartsOf_concat, restartsOf_concat]
  simp only [hone]

/-! ## What the record tells -/

/-- **The record tells of the history**: its own boot is the last the doctor ran in, and its entries are the newest
restarts. -/
structure Tells (boots : List Boot) (s : HostBootState) : Prop where
  last : ∃ b, (live boots).getLast? = some b ∧ s.bootId = b.id ∧ s.underVoltageAt = firstNote b.runs ∧
    ∃ r, b.runs.getLast? = some r ∧ s.startedAt = r.startedAt ∧ s.cleanStop = r.clean
  unclean : s.unclean = (restarts boots).rtake maxUnclean

/-- The file after complete boots and runs. -/
def Told (J : JsonCodec) (boots : List Boot) (disk : Option Text) : Prop :=
  (loadHostBoots J disk = none ∧ live boots = []) ∨ ∃ s, loadHostBoots J disk = some s ∧ Tells boots s

theorem endedUnclean_eq {b : Boot} {r : Run} (h : b.runs.getLast? = some r) :
    b.endedUnclean = if r.clean then none else some (b.id, r.startedAt, firstNote b.runs) := by
  rw [Boot.endedUnclean, h]

theorem getLast?_live_concat (boots : List Boot) {b : Boot} (h : b.runs ≠ []) : (live (boots ++ [b])).getLast? = some b := by
  rw [live_concat, if_neg h, List.getLast?_concat]

/-- **A start enters the restart it detects**, and no other. -/
theorem nextState_tells {earlier : List Boot} {id : String} {runs : List Run} {prev : Option HostBootState}
    (hid : id ∉ earlier.map Boot.id)
    (h : (prev = none ∧ live (earlier ++ [⟨id, runs⟩]) = []) ∨ ∃ s, prev = some s ∧ Tells (earlier ++ [⟨id, runs⟩]) s) (r : Run) :
    (nextState r.proc id r.startedAt prev).unclean = (restarts (earlier ++ [⟨id, runs ++ [r]⟩])).rtake maxUnclean ∧
      (nextState r.proc id r.startedAt prev).underVoltageAt = firstNote runs := by
  by_cases hruns : runs = []
  · subst hruns
    have hlive : live (earlier ++ [⟨id, []⟩]) = live earlier := by rw [live_concat, if_pos rfl, List.append_nil]
    have hrestarts : restarts (earlier ++ [⟨id, [] ++ [r]⟩]) =
        restarts earlier ++ ((live earlier).getLast?.bind (restartOf · ⟨id, [r]⟩)).toList := by
      rw [restarts, live_concat, if_neg (by simp), restartsOf_concat]
      rfl
    rw [hrestarts]
    rcases h with ⟨rfl, hnone⟩ | ⟨s, rfl, htells⟩
    · rw [hlive] at hnone
      simp [nextState, hnone, restarts, restartsOf, firstNote]
    · obtain ⟨⟨b, hb, hboot, hunder, last, hlast, hstart, hclean⟩, hunclean⟩ := htells
      rw [hlive] at hb
      rw [restarts, hlive, ← restarts] at hunclean
      have hne : s.bootId ≠ id := by
        intro heq
        refine hid (heq ▸ hboot ▸ List.mem_map_of_mem ?_)
        exact List.mem_of_mem_filter (List.mem_of_getLast? hb)
      refine ⟨?_, by simp [nextState, hne, firstNote]⟩
      rw [hb, Option.bind_some, restartOf, endedUnclean_eq hlast, ← hclean, ← hstart, ← hboot, ← hunder,
        ← LastItems.rtake_rtake_append, ← hunclean]
      cases hstop : s.cleanStop <;> simp [nextState, hne, hstop]
  · have hrestarts : restarts (earlier ++ [⟨id, runs ++ [r]⟩]) = restarts (earlier ++ [⟨id, runs⟩]) :=
      restarts_more_runs earlier id hruns r
    have hb := getLast?_live_concat earlier (b := ⟨id, runs⟩) hruns
    rcases h with ⟨-, hnone⟩ | ⟨s, rfl, htells⟩
    · rw [hnone] at hb
      cases hb
    · obtain ⟨⟨b, hb', hboot, hunder, -⟩, hunclean⟩ := htells
      rw [hb, Option.some.injEq] at hb'
      subst hb'
      have htwice := LastItems.rtake_rtake_append (restarts (earlier ++ [⟨id, runs⟩])) [] maxUnclean
      rw [List.append_nil, List.append_nil] at htwice
      refine ⟨?_, by simp [nextState, hboot, hunder]⟩
      simp [nextState, hboot, hrestarts, hunclean, htwice]

/-- A run leaves a record that tells of it, too. -/
theorem runDisk_told {J : JsonCodec} {earlier : List Boot} {id : String} {runs : List Run} {disk : Option Text}
    (hid : id ∉ earlier.map Boot.id) (h : Told J (earlier ++ [⟨id, runs⟩]) disk) {r : Run} (hr : r.Readable id) :
    Told J (earlier ++ [⟨id, runs ++ [r]⟩]) (runDisk J disk r) := by
  obtain ⟨hunclean, hunder⟩ := nextState_tells hid h r
  rw [HostBoots.runDisk_eq hr]
  refine .inr ⟨_, HostBoots.loadHostBoots_save J _, ?_, hunclean⟩
  refine ⟨⟨id, runs ++ [r]⟩, getLast?_live_concat earlier (by simp), rfl, ?_, r, List.getLast?_concat, rfl, rfl⟩
  simp only [hunder, HostBoots.firstNote_append]

theorem foldl_runDisk_told {J : JsonCodec} {earlier : List Boot} {id : String} (hid : id ∉ earlier.map Boot.id) :
    ∀ (rest runs : List Run) (disk : Option Text), Told J (earlier ++ [⟨id, runs⟩]) disk → (∀ r ∈ rest, r.Readable id) →
      Told J (earlier ++ [⟨id, runs ++ rest⟩]) (rest.foldl (runDisk J) disk)
  | [], runs, disk, h, _ => by simpa using h
  | r :: rest, runs, disk, h, hr => by
    have hstep := runDisk_told hid h (hr r (List.mem_cons_self ..))
    have := foldl_runDisk_told hid rest _ _ hstep (fun x hx => hr x (List.mem_cons_of_mem _ hx))
    rwa [List.append_assoc, List.singleton_append] at this

theorem told_boot {J : JsonCodec} {boots : List Boot} (id : String) {disk : Option Text} (h : Told J boots disk) :
    Told J (boots ++ [⟨id, []⟩]) disk := by
  have hlive : live (boots ++ [⟨id, []⟩]) = live boots := by rw [live_concat, if_pos rfl, List.append_nil]
  rcases h with ⟨hload, hnone⟩ | ⟨s, hload, hlast, hunclean⟩
  · exact .inl ⟨hload, hlive.trans hnone⟩
  · exact .inr ⟨s, hload, by rw [hlive]; exact hlast, by rw [restarts, hlive]; exact hunclean⟩

theorem foldl_bootDisk_told {J : JsonCodec} : ∀ (rest earlier : List Boot) (disk : Option Text), Told J earlier disk →
    ((earlier ++ rest).map Boot.id).Nodup → (∀ b ∈ rest, ∀ r ∈ b.runs, r.Readable b.id) →
      Told J (earlier ++ rest) (rest.foldl (bootDisk J) disk)
  | [], earlier, disk, h, _, _ => by simpa using h
  | b :: rest, earlier, disk, h, hnd, hr => by
    have hid : b.id ∉ earlier.map Boot.id := by
      rw [List.map_append, List.nodup_append] at hnd
      exact fun hm => hnd.2.2 _ hm _ (by simp) rfl
    have hboot : Told J (earlier ++ [b]) (bootDisk J disk b) :=
      foldl_runDisk_told hid b.runs [] disk (told_boot b.id h) (hr b (List.mem_cons_self ..))
    have := foldl_bootDisk_told rest (earlier ++ [b]) _ hboot (by rwa [List.append_assoc, List.singleton_append])
      (fun x hx => hr x (List.mem_cons_of_mem _ hx))
    rwa [List.append_assoc, List.singleton_append] at this

/-! ## What the probe shows -/

/-- **Stops through the handler leave no restart.** -/
theorem restartsOf_clean : ∀ boots : List Boot, (∀ b ∈ boots.dropLast, b.endedUnclean = none) → restartsOf boots = []
  | [], _ => rfl
  | [_], _ => rfl
  | b :: next :: boots, h => by
    have hone : restartOf b next = none := by
      rw [restartOf, h b (by simp)]
    have hrest : restartsOf (next :: boots) = [] :=
      restartsOf_clean (next :: boots) (fun c hc => h c (by rw [List.dropLast_cons_cons]; exact List.mem_cons_of_mem _ hc))
    rw [restartsOf, hone, hrest]
    rfl

theorem judgeBoots_verdict (parse : String → Option Int) (now durationMs : Int) (state : HostBootState) :
    ((judgeBoots parse now durationMs state).status = .warn ↔ ∃ e ∈ state.unclean, isRecent parse now e = true) ∧
      ((judgeBoots parse now durationMs state).status = .ok ↔ ∀ e ∈ state.unclean, isRecent parse now e = false) ∧
      (judgeBoots parse now durationMs state).details.map (·.recent) = some (state.unclean.filter (isRecent parse now)) := by
  unfold judgeBoots
  dsimp only
  cases hlast : (state.unclean.filter (isRecent parse now)).getLast? with
  | none =>
    have hnone : ∀ e ∈ state.unclean, isRecent parse now e = false := fun e he =>
      Bool.eq_false_iff.2 (List.filter_eq_nil_iff.1 (List.getLast?_eq_none_iff.1 hlast) e he)
    refine ⟨iff_of_false (by simp [restartsResult]) ?_, iff_of_true rfl hnone, rfl⟩
    rintro ⟨e, he, hrecent⟩
    rw [hnone e he] at hrecent
    cases hrecent
  | some last =>
    obtain ⟨hmem, hrecent⟩ := List.mem_filter.1 (List.mem_of_getLast? hlast)
    refine ⟨iff_of_true rfl ⟨last, hmem, hrecent⟩, iff_of_false (by simp [restartsResult]) ?_, rfl⟩
    intro hnone
    rw [hnone last hmem] at hrecent
    cases hrecent

/-- **The probe shows the restarts of the history.**  After any complete boots and any runs in the boot `id`: it warns exactly
when one of the newest 20 restarts was detected in the last seven days, and else is content; it lists those restarts, each
with the start that detected it; and where every earlier boot ended through the handler, it is content. -/
theorem restarts_shown (J : JsonCodec) (parse : String → Option Int) (path : String) (now durationMs : Int) (proc : HostProc)
    (hwsl : isWsl proc = false) (earlier : List Boot) (id : String) (runs : List Run) (hne : runs ≠ [])
    (hdistinct : (earlier.map Boot.id ++ [id]).Nodup) (hearlier : ∀ b ∈ earlier, ∀ r ∈ b.runs, r.Readable b.id)
    (hruns : ∀ r ∈ runs, r.Readable id) :
    let r := probeHostRestarts J parse path now durationMs proc (runs.foldl (runDisk J) (earlier.foldl (bootDisk J) none))
    let newest := (restarts (earlier ++ [⟨id, runs⟩])).rtake maxUnclean
    (r.status = .warn ↔ ∃ e ∈ newest, isRecent parse now e = true) ∧
      (r.status = .ok ↔ ∀ e ∈ newest, isRecent parse now e = false) ∧
      r.details.map (·.recent) = some (newest.filter (isRecent parse now)) ∧
      ((∀ b ∈ earlier, b.endedUnclean = none) → r.status = .ok) := by
  have hlast : ∃ d, runs.foldl (runDisk J) (earlier.foldl (bootDisk J) none) = d ∧ Told J (earlier ++ [⟨id, runs⟩]) d := by
    obtain ⟨hnd, -, hnew⟩ := List.nodup_append.1 hdistinct
    have hid : id ∉ earlier.map Boot.id := fun hm => hnew _ hm _ (List.mem_singleton.2 rfl) rfl
    have hboots : Told J earlier (earlier.foldl (bootDisk J) none) :=
      foldl_bootDisk_told earlier [] none (.inl ⟨rfl, rfl⟩) hnd hearlier
    exact ⟨_, rfl, foldl_runDisk_told hid runs [] _ (told_boot id hboots) hruns⟩
  obtain ⟨d, hd, htold⟩ := hlast
  rw [hd]
  rcases htold with ⟨-, hnone⟩ | ⟨s, hload, -, hunclean⟩
  · rw [live_concat, if_neg hne] at hnone
    simp at hnone
  · have hprobe : probeHostRestarts J parse path now durationMs proc d = judgeBoots parse now durationMs s := by
      rw [probeHostRestarts, hwsl, hload]
      rfl
    obtain ⟨hwarn, hok, hrecent⟩ := judgeBoots_verdict parse now durationMs s
    rw [hunclean] at hwarn hok hrecent
    dsimp only
    rw [hprobe]
    refine ⟨hwarn, hok, hrecent, fun hclean => hok.2 (fun e he => ?_)⟩
    have hnone : restarts (earlier ++ [⟨id, runs⟩]) = [] := by
      refine restartsOf_clean _ (fun b hb => hclean b ?_)
      rw [live_concat, if_neg hne, List.dropLast_concat] at hb
      exact List.mem_of_mem_filter hb
    rw [hnone] at he
    cases he

/-- The dates of a clock that starts with the runs of the example. -/
def exampleDates (t : String) : Option Int := if t = "2026-10-21T08:00:00.000Z" then some 1792569600000 else none

theorem restarts_shown_powerCut :
    (probeHostRestarts jsonText exampleDates "/data/host-boots.json" 1792569660000 3 HostBoots.afterPowerCut.proc
      ([HostBoots.afterPowerCut].foldl (runDisk jsonText) (HostBoots.powerCut.foldl (bootDisk jsonText) none))).status =
        .warn :=
  (restarts_shown jsonText exampleDates "/data/host-boots.json" 1792569660000 3 HostBoots.afterPowerCut.proc (by decide +kernel)
    HostBoots.powerCut "33333333-3333-4333-8333-333333333333" [HostBoots.afterPowerCut] (by simp) (by decide +kernel)
    (by decide +kernel) (by decide +kernel)).1.2 (by decide +kernel)

end HostRestarts
end SignalkDoctor
