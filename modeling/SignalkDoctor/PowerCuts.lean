import SignalkDoctor.CrashUpdates
import SignalkDoctor.HostBoots
import SignalkDoctor.RestoreDisk
import SignalkDoctor.Scanner
/-!
# PowerCuts — what the doctor keeps over power cuts (`src/drift/store.ts`, `src/host-boots.ts`, `src/recovery/restore.ts`)

`writeAtomic` and `writeAtomicSync` write a temporary file, sync it, rename it and sync the directory: the replacement of
`CrashDisk`.  Over any power cuts and failed steps `drift.json` is what a plain run of scans leaves (`scans_survive`), and
an under-voltage once noted reaches the next boot's list of unclean restarts (`noted_survives`).  `restoreOne` renames
a copy it has not synced, so a Quadlet it has restored may be torn (`restored_torn`).
-/
namespace SignalkDoctor
namespace PowerCuts

open CrashDisk
open Steps (exec)

/-- The temporary file of `writeAtomic(filePath, body)`. -/
def tmpPath (pid filePath : List Char) : List Char := filePath ++ '.' :: (pid ++ ".tmp".toList)

theorem tmpPath_ne (pid filePath : List Char) : tmpPath pid filePath ≠ filePath := by
  intro h
  have hlength := congrArg List.length h
  simp [tmpPath] at hlength

/-! ## The drift report -/

section
open Drift

/-- `runDriftScan` to the text that `saveDriftReport` hands to `writeAtomic`. -/
def scanText (J : JsonCodec) (npmRegistry : String) (raw : Option Text) (i : ScanInput) : Text :=
  saveDriftReport J (runDriftScan J npmRegistry raw i).report

/-- Scans one after the other, the save of each a file step at a time; a restarted doctor has another process id. -/
def scanFileStep (J : JsonCodec) (npmRegistry : String) (driftPath : List Char) :
    Updates (List Char) Char (List Char) ScanInput → UpdateAct (List Char) ScanInput Char →
      Option (Updates (List Char) Char (List Char) ScanInput) :=
  updateStep (scanText J npmRegistry) driftPath (fun pid => tmpPath pid driftPath)

theorem exec_scanStep_leave (J : JsonCodec) (npmRegistry : String) : ∀ (scans : List ScanInput) (s : ScanState),
    ∃ t, exec (scanStep J npmRegistry) s scans = some t ∧ t.disk = leave (scanText J npmRegistry) s.disk scans
  | [], s => ⟨s, rfl, rfl⟩
  | i :: scans, s => by
    obtain ⟨u, hu⟩ : ∃ u, scanStep J npmRegistry s i = some u := ⟨_, rfl⟩
    obtain ⟨t, ht, hdisk⟩ := exec_scanStep_leave J npmRegistry scans u
    refine ⟨t, by rw [exec, hu, Option.bind_some, ht], ?_⟩
    rw [hdisk, leave, leave, List.foldl_cons]
    cases hu
    rfl

/-- **Power cuts only drop scans.**  From no report on, whatever file steps fail and whenever the power is cut, while no write
stops short: `drift.json` holds what a plain run of some of the scans leaves, in their order, with every scan whose save
completed among them. -/
theorem scans_survive (J : JsonCodec) (npmRegistry : String) (driftPath pid : List Char)
    (acts : List (UpdateAct (List Char) ScanInput Char)) (s : Updates (List Char) Char (List Char) ScanInput)
    (hwhole : ∀ a ∈ acts, ∀ n, a = .file (.write n) → n = 0)
    (hrun : exec (scanFileStep J npmRegistry driftPath) (Updates.start driftPath none pid) acts = some s) :
    ∃ done : List ScanInput, s.completed.Sublist done ∧ done.Sublist s.begun ∧
      ∃ t, exec (scanStep J npmRegistry) .init done = some t ∧ s.saver.disk.read driftPath = t.disk := by
  obtain ⟨done, hcompleted, hbegun, hread⟩ :=
    exec_updates (scanText J npmRegistry) (fun pid => tmpPath_ne pid driftPath) none pid acts s hwhole hrun
  obtain ⟨t, ht, hdisk⟩ := exec_scanStep_leave J npmRegistry done .init
  exact ⟨done, hcompleted, hbegun, t, ht, hread.trans hdisk.symm⟩

/-- A scan saved, a second one cut off between its rename and the sync of the directory, which goes back to the first. -/
def cutScans : List (UpdateAct (List Char) ScanInput Char) :=
  [.begin ['7'] (updateScan (some "signalk-server:2.24.0") true), .file (.write 0), .file .sync, .file .rename, .file .syncDir,
    .begin ['8'] (updateScan (some "signalk-server:2.25.0") true), .file (.write 0), .file .sync, .file .rename,
    .file (.cut 1 (fun _ => []))]

theorem scans_survive_cut :
    ∃ s, exec (scanFileStep jsonText "r" "/data/drift.json".toList) (Updates.start "/data/drift.json".toList none ['7'])
        cutScans = some s ∧
      ∃ done : List ScanInput, s.completed.Sublist done ∧ done.Sublist s.begun ∧
        ∃ t, exec (scanStep jsonText "r") .init done = some t ∧ s.saver.disk.read "/data/drift.json".toList = t.disk :=
  ⟨_, rfl, scans_survive jsonText "r" "/data/drift.json".toList ['7'] cutScans _ (by simp [cutScans]) rfl⟩

end

/-! ## The record of the host's boots -/

section
open HostBoots

/-- The file of the record, the id of the process that writes it, its copy, and the copy it takes once the write under way
has ended. -/
structure BootFile where
  saver : Saver (List Char) Char
  pid : List Char
  current : Option HostBootState
  pending : Option HostBootState

inductive BootAct where
  /-- A start of the doctor, up to the open of `recordBoot`'s write. -/
  | start (pid : List Char) (proc : HostProc) (now : String)
  | note (now : String)
  | markClean
  | file (a : Act Char)

variable (J : JsonCodec) (path : List Char)

/-- `writeAtomicSync` up to its open. -/
def BootFile.save (s : BootFile) (record : HostBootState) (pending : HostBootState) : Option BootFile :=
  (replaceStep true path (tmpPath s.pid path) s.saver (.openTmp (saveHostBoots J record))).map
    (fun saver => { s with saver := saver, pending := some pending })

def bootFileStep (s : BootFile) : BootAct → Option BootFile
  | .start pid proc now =>
    match isWsl proc, readBootId proc with
    | false, some bootId =>
      let next := nextState proc bootId now (loadHostBoots J (s.saver.disk.read path))
      BootFile.save J path { s with pid := pid, current := none } next next
    | _, _ => some { s with current := none }
  | .note now =>
    match s.current with
    | some current =>
      if current.underVoltageAt ≠ none then some s
      else BootFile.save J path s { current with underVoltageAt := some now } { current with underVoltageAt := some now }
    | none => some s
  | .markClean =>
    match s.current with
    | some current => BootFile.save J path s { current with cleanStop := true } current
    | none => some s
  | .file (.openTmp _) => none
  | .file (.write missing) =>
    -- `writeFileSync` writes on until it has written everything, or throws
    if missing = 0 then
      (replaceStep true path (tmpPath s.pid path) s.saver (.write 0)).map (fun saver => { s with saver := saver })
    else none
  | .file .syncDir =>
    (replaceStep true path (tmpPath s.pid path) s.saver .syncDir).map
      (fun saver => { s with saver := saver, current := s.pending })
  | .file (.cut back torn) =>
    (replaceStep true path (tmpPath s.pid path) s.saver (.cut back torn)).map
      (fun saver => { s with saver := saver, current := none })
  | .file a => (replaceStep true path (tmpPath s.pid path) s.saver a).map (fun saver => { s with saver := saver })

def BootFile.init : BootFile := ⟨Saver.start path none, [], none, none⟩

/-- `noteUnderVoltage`, which nothing interleaves, with every file step of it. -/
def noteWhole (now : String) : List BootAct :=
  [.note now, .file (.write 0), .file .sync, .file .rename, .file .syncDir]

variable {J path} {s t : BootFile} {id now : String}

theorem save_cases {record pending : HostBootState} (h : BootFile.save J path s record pending = some t) :
    ∃ saver, replaceStep true path (tmpPath s.pid path) s.saver (.openTmp (saveHostBoots J record)) = some saver ∧
      t = { s with saver := saver, pending := some pending } := by
  obtain ⟨saver, hsaver, rfl⟩ := Option.map_eq_some_iff.1 h
  exact ⟨saver, hsaver, rfl⟩

/-- **A file step** is one of the replacement, of a whole write; the copy stays, takes what was pending, or is lost. -/
theorem file_cases {a : Act Char} (h : bootFileStep J path s (.file a) = some t) :
    replaceStep true path (tmpPath s.pid path) s.saver a = some t.saver ∧ (∀ body, a ≠ .openTmp body) ∧
      (∀ n, a = .write n → n = 0) ∧ t.pid = s.pid ∧ t.pending = s.pending ∧
        (t.current = s.current ∨ t.current = s.pending ∨ t.current = none) := by
  cases a with
  | openTmp body => cases h
  | write missing =>
    simp only [bootFileStep] at h
    split at h
    · rename_i hmissing
      subst hmissing
      obtain ⟨saver, hsaver, rfl⟩ := Option.map_eq_some_iff.1 h
      exact ⟨hsaver, by simp, by simp, rfl, rfl, .inl rfl⟩
    · cases h
  | syncDir =>
    obtain ⟨saver, hsaver, rfl⟩ := Option.map_eq_some_iff.1 h
    exact ⟨hsaver, by simp, by simp, rfl, rfl, .inr (.inl rfl)⟩
  | cut back torn =>
    cases h
    exact ⟨rfl, by simp, by simp, rfl, rfl, .inr (.inr rfl)⟩
  | sync | rename | fail =>
    obtain ⟨saver, hsaver, rfl⟩ := Option.map_eq_some_iff.1 h
    exact ⟨hsaver, by simp, by simp, rfl, rfl, .inl rfl⟩

/-- **What a start, a note or a mark writes**: nothing, or a record made of the record found or of the copy. -/
theorem call_cases {a : BootAct} (hfile : ∀ b, a ≠ .file b) (h : bootFileStep J path s a = some t) :
    (t.saver = s.saver ∧ t.pid = s.pid ∧ t.pending = s.pending ∧ (t.current = s.current ∨ t.current = none)) ∨
      ∃ u record pending, (u = s ∨ ∃ pid, u = { s with pid := pid, current := none }) ∧ BootFile.save J path u record pending = some t ∧
        ((∃ pid proc now bootId, a = .start pid proc now ∧ readBootId proc = some bootId ∧ pending = record ∧
            record = nextState proc bootId now (loadHostBoots J (s.saver.disk.read path))) ∨
          (∃ now c, a = .note now ∧ s.current = some c ∧ c.underVoltageAt = none ∧ pending = record ∧
            record = { c with underVoltageAt := some now }) ∨
          (∃ c, a = .markClean ∧ s.current = some c ∧ pending = c ∧ record = { c with cleanStop := true })) := by
  cases a with
  | start pid proc now =>
    simp only [bootFileStep] at h
    split at h
    · rename_i bootId _ hid
      exact .inr ⟨_, _, _, .inr ⟨pid, rfl⟩, h, .inl ⟨pid, proc, now, bootId, rfl, hid, rfl, rfl⟩⟩
    · cases h
      exact .inl ⟨rfl, rfl, rfl, .inr rfl⟩
  | note now =>
    simp only [bootFileStep] at h
    split at h
    · rename_i c hc
      split at h
      · cases h
        exact .inl ⟨rfl, rfl, rfl, .inl rfl⟩
      · rename_i hnone
        exact .inr ⟨_, _, _, .inl rfl, h, .inr (.inl ⟨now, c, rfl, hc, by simpa using hnone, rfl, rfl⟩)⟩
    · cases h
      exact .inl ⟨rfl, rfl, rfl, .inl rfl⟩
  | markClean =>
    simp only [bootFileStep] at h
    split at h
    · rename_i c hc
      exact .inr ⟨_, _, _, .inl rfl, h, .inr (.inr ⟨c, rfl, hc, rfl, rfl⟩)⟩
    · cases h
      exact .inl ⟨rfl, rfl, rfl, .inl rfl⟩
  | file b => exact absurd rfl (hfile b)

/-- What holds in every run: the file as the replacement keeps it, and no copy that is marked. -/
structure BootFile.Inv (path : List Char) (s : BootFile) : Prop where
  kept : Kept path (tmpPath s.pid path) s.saver
  unmarked : ∀ r, s.current = some r ∨ s.pending = some r → r.cleanStop = false

/-- A write begins between two replacements, so the process that writes may be another one. -/
theorem kept_of_save {u : BootFile} {record pending : HostBootState} (h : Kept path (tmpPath s.pid path) s.saver)
    (hu : u = s ∨ ∃ pid, u = { s with pid := pid, current := none }) (hsave : BootFile.save J path u record pending = some t) :
    Kept path (tmpPath t.pid path) t.saver := by
  obtain ⟨saver, hsaver, rfl⟩ := save_cases hsave
  have hidle : u.saver.phase = .idle := by
    cases step_cases hsaver with
    | openTmp body hp => exact hp
  have hkept : Kept path (tmpPath u.pid path) u.saver := by
    rcases hu with rfl | ⟨pid, rfl⟩
    · exact h
    · exact h.renamed hidle (tmpPath pid path)
  exact kept_step (tmpPath_ne u.pid path) _ _ _ hkept hsaver

theorem bootFile_inv (s : BootFile) (a : BootAct) (t : BootFile) (hs : s.Inv path)
    (h : bootFileStep J path s a = some t) : t.Inv path := by
  by_cases hfile : ∃ b, a = .file b
  · obtain ⟨b, rfl⟩ := hfile
    obtain ⟨hsaver, -, -, hpid, hpending, hcurrent⟩ := file_cases h
    refine ⟨hpid ▸ kept_step (tmpPath_ne s.pid path) _ _ _ hs.kept hsaver, fun r hr => hs.unmarked r ?_⟩
    rw [hpending] at hr
    rcases hcurrent with hc | hc | hc <;> rw [hc] at hr <;> grind
  · rcases call_cases (fun b hb => hfile ⟨b, hb⟩) h with
      ⟨hsaver, hpid, hpending, hcurrent⟩ | ⟨u, record, pending, hu, hsave, hwhat⟩
    · refine ⟨hsaver ▸ hpid ▸ hs.kept, fun r hr => hs.unmarked r ?_⟩
      rw [hpending] at hr
      rcases hcurrent with hc | hc <;> rw [hc] at hr <;> grind
    · have hclean : pending.cleanStop = false := by
        rcases hwhat with ⟨pid, proc, now, bootId, -, -, rfl, rfl⟩ | ⟨now, c, -, hc, -, rfl, rfl⟩ | ⟨c, -, hc, rfl, -⟩
        · rfl
        · exact hs.unmarked c (.inl hc)
        · exact hs.unmarked pending (.inl hc)
      refine ⟨kept_of_save hs.kept hu hsave, fun r hr => ?_⟩
      obtain ⟨saver, -, rfl⟩ := save_cases hsave
      rcases hu with rfl | ⟨pid, rfl⟩ <;> grind [hs.unmarked r]

/-- **The record holds the under-voltage** of the boot `id`, first seen at `now`, and no clean stop. -/
def Dip (id now : String) (r : HostBootState) : Prop :=
  r.bootId = id ∧ r.cleanStop = false ∧ r.underVoltageAt = some now

/-- Whatever a power cut leaves, what is being written and the copies all hold the under-voltage. -/
structure Noted (J : JsonCodec) (path : List Char) (id now : String) (s : BootFile) : Prop where
  kept : Kept path (tmpPath s.pid path) s.saver
  known : ∀ found, s.saver.Known found → ∃ r, Dip id now r ∧ found = some (saveHostBoots J r)
  writing : ∀ c, s.saver.phase.content = some c → ∃ r, Dip id now r ∧ c = saveHostBoots J r
  copies : ∀ r, s.current = some r ∨ s.pending = some r → Dip id now r

/-- The same boot, and no stop through the handler. -/
def StaysIn (id : String) : BootAct → Prop
  | .start _ proc _ => ∀ bootId, readBootId proc = some bootId → bootId = id
  | .markClean => False
  | _ => True

theorem Noted.read (h : Noted J path id now s) :
    ∃ r, Dip id now r ∧ loadHostBoots J (s.saver.disk.read path) = some r := by
  obtain ⟨r, hr, hread⟩ := h.known _ h.kept.known_read
  exact ⟨r, hr, by rw [hread, loadHostBoots_save]⟩

theorem noted_file (h : Noted J path id now s) {a : Act Char} (hstep : bootFileStep J path s (.file a) = some t) :
    Noted J path id now t := by
  obtain ⟨hsaver, hopen, hwhole, hpid, hpending, hcurrent⟩ := file_cases hstep
  refine ⟨hpid ▸ kept_step (tmpPath_ne s.pid path) _ _ _ h.kept hsaver, fun found hfound => ?_, fun c hc => ?_, fun r hr => ?_⟩
  · rcases step_known hsaver hfound with hfound | ⟨c, hc, rfl⟩
    · exact h.known found hfound
    · obtain ⟨r, hr, rfl⟩ := h.writing c hc
      exact ⟨r, hr, rfl⟩
  · rcases step_content hsaver hwhole hc with hc | rfl
    · exact h.writing c hc
    · exact absurd rfl (hopen c)
  · apply h.copies
    rw [hpending] at hr
    rcases hcurrent with hc | hc | hc <;> rw [hc] at hr <;> grind

/-- **A start in the same boot** carries the under-voltage over; a second note writes nothing. -/
theorem noted_call (h : Noted J path id now s) {a : BootAct} (hfile : ∀ b, a ≠ .file b) (hstays : StaysIn id a)
    (hstep : bootFileStep J path s a = some t) : Noted J path id now t := by
  rcases call_cases hfile hstep with ⟨hsaver, hpid, hpending, hcurrent⟩ | ⟨u, record, pending, hu, hsave, hwhat⟩
  · refine ⟨hsaver ▸ hpid ▸ h.kept, hsaver ▸ h.known, hsaver ▸ h.writing, fun r hr => h.copies r ?_⟩
    rw [hpending] at hr
    rcases hcurrent with hc | hc <;> rw [hc] at hr <;> grind
  · have hdip : pending = record ∧ Dip id now record := by
      rcases hwhat with ⟨pid, proc, at', bootId, rfl, hid, rfl, rfl⟩ | ⟨at', c, rfl, hc, hnone, -, -⟩ | ⟨c, rfl, -⟩
      · obtain ⟨r, ⟨hboot, hclean, hunder⟩, hload⟩ := h.read
        have hsame : bootId = id := hstays bootId hid
        rw [hload]
        exact ⟨rfl, hsame, rfl, by simp [nextState, hboot, hsame, hunder]⟩
      · have hunder := (h.copies c (.inl hc)).2.2
        rw [hnone] at hunder
        cases hunder
      · exact hstays.elim
    obtain ⟨rfl, hdip⟩ := hdip
    have hkept := kept_of_save h.kept hu hsave
    obtain ⟨saver, hsaver, rfl⟩ := save_cases hsave
    have hsaverOf : u.saver = s.saver := by rcases hu with rfl | ⟨pid, rfl⟩ <;> rfl
    rw [hsaverOf] at hsaver
    refine ⟨hkept, fun found hfound => ?_, fun c hc => ?_, fun r hr => ?_⟩
    · rcases step_known hsaver hfound with hfound | ⟨c, hc, rfl⟩
      · exact h.known found hfound
      · obtain ⟨r, hr, rfl⟩ := h.writing c hc
        exact ⟨r, hr, rfl⟩
    · rcases step_content hsaver (by simp) hc with hc | hc
      · exact h.writing c hc
      · cases hc
        exact ⟨pending, hdip, rfl⟩
    · rcases hr with hr | hr
      · apply h.copies
        rcases hu with rfl | ⟨pid, rfl⟩
        · exact .inl hr
        · cases hr
      · cases hr
        exact hdip

theorem noted_step (s : BootFile) (a : BootAct) (t : BootFile) (h : Noted J path id now s) (hstays : StaysIn id a)
    (hstep : bootFileStep J path s a = some t) : Noted J path id now t := by
  by_cases hfile : ∃ b, a = .file b
  · obtain ⟨b, rfl⟩ := hfile
    exact noted_file h hstep
  · exact noted_call h (fun b hb => hfile ⟨b, hb⟩) hstays hstep

/-- **A note that has returned** is in the copy, and in whatever a power cut leaves. -/
theorem noted_noteWhole (hs : s.Inv path) {c : HostBootState} (hc : s.current = some c) (hnone : c.underVoltageAt = none)
    (h : exec (bootFileStep J path) s (noteWhole now) = some t) : Noted J path c.bootId now t := by
  have hdip : Dip c.bootId now { c with underVoltageAt := some now } := ⟨rfl, hs.unmarked c (.inl hc), rfl⟩
  obtain ⟨s₁, h₁, h⟩ := Steps.exec_cons h
  obtain ⟨s₂, h₂, h⟩ := Steps.exec_cons h
  obtain ⟨s₃, h₃, h⟩ := Steps.exec_cons h
  obtain ⟨s₄, h₄, h⟩ := Steps.exec_cons h
  obtain ⟨s₅, h₅, h⟩ := Steps.exec_cons h
  cases h
  have hsave : BootFile.save J path s { c with underVoltageAt := some now } { c with underVoltageAt := some now } =
      some s₁ := by
    simpa [bootFileStep, hc, hnone] using h₁
  obtain ⟨saver, hsaver, rfl⟩ := save_cases hsave
  obtain ⟨f₂, -, w₂, -, p₂, -⟩ := file_cases h₂
  obtain ⟨f₃, -, w₃, -, p₃, -⟩ := file_cases h₃
  obtain ⟨f₄, -, w₄, -, p₄, -⟩ := file_cases h₄
  obtain ⟨f₅, -, w₅, -, p₅, -⟩ := file_cases h₅
  have hcurrent : t.current = s₄.pending := by
    obtain ⟨saver', -, rfl⟩ := Option.map_eq_some_iff.1 h₅
    rfl
  have hfirst : ∀ b, saver.phase.content = some b → b = saveHostBoots J { c with underVoltageAt := some now } := by
    intro b hb
    cases step_cases hsaver with
    | openTmp body hp => exact (Option.some.inj hb).symm
  have hfourth : ∀ b, s₄.saver.phase.content = some b → b = saveHostBoots J { c with underVoltageAt := some now } := by
    intro b hb
    rcases step_content f₄ w₄ hb with hb | hb
    · rcases step_content f₃ w₃ hb with hb | hb
      · rcases step_content f₂ w₂ hb with hb | hb
        · exact hfirst b hb
        · cases hb
      · cases hb
    · cases hb
  have hkept : t.Inv path := by
    refine Steps.exec_inv' (bootFile_inv (J := J)) (noteWhole now) s t hs ?_
    simp only [noteWhole, exec, h₁, h₂, h₃, h₄, h₅, Option.bind_some]
  refine ⟨hkept.kept, fun found hfound => ?_, fun b hb => ?_, fun r hr => ?_⟩
  · obtain ⟨b, hb, rfl⟩ := syncDir_known f₅ hfound
    exact ⟨_, hdip, by rw [hfourth b hb]⟩
  · rcases step_content f₅ w₅ hb with hb | hb
    · exact ⟨_, hdip, hfourth b hb⟩
    · cases hb
  · have hpending : s₄.pending = some { c with underVoltageAt := some now } := by rw [p₄, p₃, p₂]
    rw [hcurrent, p₅, hpending] at hr
    rcases hr with hr | hr <;> cases hr <;> exact hdip

theorem exec_noted : ∀ (acts : List BootAct) (s t : BootFile), Noted J path id now s →
    (∀ a ∈ acts, StaysIn id a) → exec (bootFileStep J path) s acts = some t → Noted J path id now t := by
  intro acts s t hs hstays h
  exact Steps.exec_inv (G := fun _ => StaysIn id) noted_step acts s t hs (Steps.guarded_of_forall acts s hstays) h

/-- **An under-voltage noted survives the power cut it may announce.**  After any run of the doctor's boots, a note that
has returned, and any further steps in that boot with failing writes, restarts and power cuts but no stop through the
handler: the record found holds the time noted, and the first start of another boot lists the boot as ended without a
clean stop, with that time. -/
theorem noted_survives (J : JsonCodec) (path : List Char) (before after : List BootAct) (now : String)
    (s₀ s : BootFile) (c : HostBootState) (proc : HostProc) (bootId restarted : String)
    (hbefore : exec (bootFileStep J path) (BootFile.init path) before = some s₀) (hc : s₀.current = some c)
    (hnone : c.underVoltageAt = none)
    (hrun : exec (bootFileStep J path) s₀ (noteWhole now ++ after) = some s) (hstays : ∀ a ∈ after, StaysIn c.bootId a)
    (hwsl : isWsl proc = false) (hid : readBootId proc = some bootId) (hnew : bootId ≠ c.bootId) :
    ∃ r next, loadHostBoots J (s.saver.disk.read path) = some r ∧ r.underVoltageAt = some now ∧
      loadHostBoots J (recordBoot J proc restarted ⟨s.saver.disk.read path, none⟩).disk = some next ∧
        next.unclean.getLast? =
          some ⟨c.bootId, r.startedAt, readHostBootedAt proc, restarted, some now⟩ := by
  have hinv : s₀.Inv path :=
    Steps.exec_inv' bootFile_inv before _ s₀ ⟨kept_start path _ none, by simp [BootFile.init]⟩ hbefore
  rw [Steps.exec_append] at hrun
  obtain ⟨s₁, h₁, hrun⟩ := Option.bind_eq_some_iff.1 hrun
  have hnoted : Noted J path c.bootId now s := exec_noted after s₁ s (noted_noteWhole hinv hc hnone h₁) hstays hrun
  obtain ⟨r, ⟨hboot, hclean, hunder⟩, hload⟩ := hnoted.read
  have hrecord : recordBoot J proc restarted ⟨s.saver.disk.read path, none⟩ =
      ⟨some (saveHostBoots J (nextState proc bootId restarted (some r))),
        some (nextState proc bootId restarted (some r))⟩ := by
    simp [recordBoot, hwsl, hid, hload]
  refine ⟨r, _, hload, hunder, by rw [hrecord]; exact loadHostBoots_save J _, ?_⟩
  have hne : r.bootId ≠ bootId := fun h => hnew (h.symm.trans hboot)
  simp only [nextState]
  rw [if_pos ⟨hne, hclean⟩, LastItems.getLast?_rtake_concat _ _ (by decide), hboot, hunder]

/-- The first start of the doctor, every step of its write done. -/
def firstBoot : List BootAct :=
  [.start ['7'] ⟨some "11111111-1111-4111-8111-111111111111\n", none, none⟩ "2026-10-20T08:00:00.000Z", .file (.write 0),
    .file .sync, .file .rename, .file .syncDir]

theorem noted_survives_cut :
    ∃ s₀ s c, exec (bootFileStep jsonText ['p']) (BootFile.init ['p']) firstBoot = some s₀ ∧ s₀.current = some c ∧
      exec (bootFileStep jsonText ['p']) s₀
        (noteWhole "2026-10-20T09:30:00.000Z" ++ [.file (.cut 1 (fun _ => []))]) = some s ∧
      ∃ r next, loadHostBoots jsonText (s.saver.disk.read ['p']) = some r ∧
        r.underVoltageAt = some "2026-10-20T09:30:00.000Z" ∧
        loadHostBoots jsonText (recordBoot jsonText afterPowerCut.proc "2026-10-21T08:00:00.000Z"
          ⟨s.saver.disk.read ['p'], none⟩).disk = some next ∧
        next.unclean.getLast? = some ⟨c.bootId, r.startedAt, readHostBootedAt afterPowerCut.proc,
          "2026-10-21T08:00:00.000Z", some "2026-10-20T09:30:00.000Z"⟩ :=
  ⟨_, _, _, rfl, rfl, rfl,
    noted_survives jsonText ['p'] firstBoot [.file (.cut 1 (fun _ => []))] "2026-10-20T09:30:00.000Z" _ _ _
      afterPowerCut.proc "33333333-3333-4333-8333-333333333333" "2026-10-21T08:00:00.000Z" rfl rfl rfl rfl
      (by simp [StaysIn]) (by decide +kernel) (by decide +kernel) (by decide +kernel)⟩

end

/-! ## A restored Quadlet -/

section
open RestoreDisk

/-- `restoreOne`: the copy, which nothing syncs, the rename and the sync of the directory. -/
def restoreFiles (bytes : Bytes) : List (Act UInt8) := replacement false bytes

def restoreFileStep (env : Env) (quadlet : String) :
    Saver (List Char) UInt8 → Act UInt8 → Option (Saver (List Char) UInt8) :=
  replaceStep false (env.target quadlet) (env.tmp quadlet)

/-- **A restored Quadlet may be torn.**  A restore whose steps all succeed leaves the snapshot's bytes; but nothing synced
the copy, so a power cut after it may leave the Quadlet with any content at all.  A cut before the rename leaves the old
one. -/
theorem restored_torn (env : Env) (quadlet snapshotPath : String) (bytes : Bytes) (old : Option Bytes)
    (disk : RestoreDisk.Disk) (hcopied : (env.steps quadlet).copied = .ok bytes)
    (hrename : (env.steps quadlet).renameError = none) (hsync : (env.steps quadlet).fsyncDir = none) :
    (∃ s, exec (restoreFileStep env quadlet) (Saver.start (env.target quadlet) old) (restoreFiles bytes) = some s ∧
      (restoreOne env quadlet (some (.str snapshotPath)) disk).1 = .ok () ∧
      (restoreOne env quadlet (some (.str snapshotPath)) disk).2 (env.target quadlet) = s.disk.read (env.target quadlet)) ∧
    (∀ content : Bytes, ∃ s, exec (restoreFileStep env quadlet) (Saver.start (env.target quadlet) old)
        (restoreFiles bytes ++ [.cut 0 (fun _ => content)]) = some s ∧ s.disk.read (env.target quadlet) = some content) ∧
    ∀ steps back torn s, .rename ∉ steps →
      exec (restoreFileStep env quadlet) (Saver.start (env.target quadlet) old) (steps ++ [.cut back torn]) = some s →
        s.disk.read (env.target quadlet) = old := by
  have hne := tmp_ne_target env quadlet
  refine ⟨?_, fun content => ?_, fun steps back torn s hnot hrun => ?_⟩
  · obtain ⟨s, hrun, -, hdir, hdata, -⟩ := exec_replacement hne old bytes false
    have hcopy : copyFile (env.steps quadlet) (some (.str snapshotPath)) (env.tmp quadlet) disk =
        (.ok (), Function.update disk (env.tmp quadlet) (some bytes)) := by
      simp [copyFile, isPath, hcopied]
    have hread : s.disk.read (env.target quadlet) = some bytes := by
      rw [Disk.read, Disk.readIn, hdir, Option.map_some, hdata]
    refine ⟨s, hrun, ?_, ?_⟩
    · simp [restoreOne, hcopy, hrename, hsync]
    · rw [hread]
      simp [restoreOne, hcopy, hrename, hsync, Function.update_of_ne hne.symm]
  · obtain ⟨s, hrun, hread⟩ := exec_replacement_cut hne old bytes false 0 (fun _ => content)
    exact ⟨s, hrun, hread⟩
  · exact read_of_not_renamed hne old (by simp [hnot]) hrun

theorem restored_torn_server :
    ∃ s, exec (restoreFileStep healthyEnv "signalk-server.container")
        (Saver.start (healthyEnv.target "signalk-server.container") (some [1])) (restoreFiles [] ++ [.cut 0 (fun _ => [7])]) =
          some s ∧ s.disk.read (healthyEnv.target "signalk-server.container") = some [7] :=
  (restored_torn healthyEnv "signalk-server.container" "/data/snapshots/a" [] (some [1]) (fun _ => none) rfl rfl rfl).2.1 [7]

end

end PowerCuts
end SignalkDoctor
