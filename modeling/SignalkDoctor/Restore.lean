import SignalkDoctor.JsRecord
import SignalkDoctor.Mutex
/-!
# Restore — last-known-good recovery (`src/recovery/restore.ts`, `POST /api/recover`)

`recoverAll` restores the Quadlets of the record in its order, reloads systemd once and restarts their units, all under
the operation lock.  One of the units is the doctor's own: from its restart request on the process can be gone at any
step, so a run of the route ends with all its steps or at such a cut (`EndOfRun`).

`recover_complete_iff` says that every end of the run has requested all restarts and given the lock back exactly when
the record holds no entry for the doctor's own Quadlet.
-/
namespace SignalkDoctor
namespace Restore

open JsRecord (Found)
open Mutex (Acquisitions LockFs LockAct Owner lockStep)
open Steps (exec)

structure LastGoodEntry where
  tag : String
  image : String
  snapshotPath : String
  deriving DecidableEq, Repr

/-- `LastGood`: the entries by Quadlet name, in the order of the record. -/
structure LastGood where
  updatedAt : String
  quadlets : List (String × LastGoodEntry)
  keys_nodup : (quadlets.map Prod.fst).Nodup

def QUADLET_TO_UNIT : List (String × String) :=
  [("signalk-server.container", "signalk-server.service"),
    ("signalk-updater-server.container", "signalk-updater-server.service"),
    ("signalk-doctor-server.container", "signalk-doctor-server.service")]

def ownQuadlet : String := "signalk-doctor-server.container"

def ownUnit : Found String := .own "signalk-doctor-server.service"

def unitText : Found String → String
  | .own unit => unit
  | .inherited name =>
    if name = "__proto__" then "[object Object]"
    else "function " ++ (if name = "constructor" then "Object" else name) ++ "() \x7b [native code] \x7d"

structure Restored where
  quadlet : String
  «from» : String
  toTag : String
  deriving DecidableEq, Repr

structure RecoverResult where
  ok : Bool
  restored : List Restored
  errors : List String
  deriving DecidableEq, Repr

/-- What the calls of a recovery give: `restoreOne`, `daemonReload`, `restartUnit`, each the message of an error. -/
structure RecoverEnv where
  restoreOne : String → String → Except String Unit
  daemonReload : Except String Unit
  restartUnit : Found String → Except String Unit

inductive Effect where
  | restoreOne (quadlet snapshotPath : String)
  | daemonReload
  | restartUnit (unit : Found String)
  deriving DecidableEq, Repr

structure RestoreState where
  effects : List Effect
  result : RecoverResult
  restartUnits : List (Found String)

/-- `restartUnits.add(unit)` -/
def addUnit (units : List (Found String)) (unit : Found String) : List (Found String) :=
  if unit ∈ units then units else units ++ [unit]

def restoreEntry (env : RecoverEnv) (s : RestoreState) (e : String × LastGoodEntry) : RestoreState :=
  let effects := s.effects ++ [.restoreOne e.1 e.2.snapshotPath]
  match env.restoreOne e.1 e.2.snapshotPath with
  | .ok _ =>
    { effects := effects
      result := { s.result with restored := s.result.restored ++ [⟨e.1, e.2.snapshotPath, e.2.tag⟩] }
      restartUnits :=
        match JsRecord.get? QUADLET_TO_UNIT e.1 with
        | some unit => addUnit s.restartUnits unit
        | none => s.restartUnits }
  | .error msg =>
    { s with effects := effects, result := { s.result with ok := false, errors := s.result.errors ++ [e.1 ++ ": " ++ msg] } }

def restartOne (env : RecoverEnv) (result : RecoverResult) (unit : Found String) : RecoverResult :=
  match env.restartUnit unit with
  | .ok _ => result
  | .error msg =>
    { result with ok := false, errors := result.errors ++ ["restart " ++ unitText unit ++ ": " ++ msg] }

/-- `recoverAll`: what it does and what it returns. -/
def recoverAll (env : RecoverEnv) (lg : Option LastGood) : List Effect × RecoverResult :=
  match lg with
  | none => ([], ⟨false, [], ["no last-known-good entries on disk; nothing to restore"]⟩)
  | some lg =>
    if lg.quadlets = [] then ([], ⟨false, [], ["no last-known-good entries on disk; nothing to restore"]⟩)
    else
      let s := lg.quadlets.foldl (restoreEntry env) ⟨[], ⟨true, [], []⟩, []⟩
      if s.result.restored = [] then (s.effects, { s.result with ok := false })
      else
        match env.daemonReload with
        | .error msg =>
          (s.effects ++ [.daemonReload],
            { s.result with ok := false, errors := s.result.errors ++ ["daemon-reload: " ++ msg] })
        | .ok _ =>
          (s.effects ++ [.daemonReload] ++ s.restartUnits.map .restartUnit, s.restartUnits.foldl (restartOne env) s.result)

/-! ## The route -/

/-- A step of the process: on the lock, or of the recovery. -/
inductive ProcStep (ι : Type) where
  | lock (a : LockAct ι)
  | effect (e : Effect)

section
variable {ι : Type} (J : JsonCodec) (A : Acquisitions ι) (i : ι)

/-- `withMutex('recover', () => recoverAll())`, once the lock is free to take. -/
def postRecover (env : RecoverEnv) (lg : Option LastGood) : List (ProcStep ι) :=
  [.lock (.create i), .lock (.write i (J.stringify 0 (A.info i).toJson)), .lock (.acquired i)] ++
    (recoverAll env lg).1.map .effect ++ [.lock (.release i), .lock (.readLock i), .lock (.unlink i)]

def lockActs (steps : List (ProcStep ι)) : List (LockAct ι) :=
  steps.filterMap (fun | .lock a => some a | .effect _ => none)

/-- **Where a run can end**: after its last step, or, once the restart of the own unit has been requested, at any. -/
def EndOfRun (steps done : List (ProcStep ι)) : Prop :=
  done = steps ∨ (done <+: steps ∧ .effect (.restartUnit ownUnit) ∈ done)

/-- **The recovery is complete**: a restart has been requested for every restored Quadlet that maps to a unit, and no
lock is on disk. -/
def RecoverComplete [DecidableEq ι] (s : LockFs ι) (done : List (ProcStep ι)) : Prop :=
  (∀ quadlet path unit, .effect (.restoreOne quadlet path) ∈ done → QUADLET_TO_UNIT.lookup quadlet = some unit →
      .effect (.restartUnit (.own unit)) ∈ done) ∧
    ∃ t, exec (lockStep J A) s (lockActs done) = some t ∧ t.path = none

end

/-! ## What a recovery asks for -/

/-- Every restore of the loop succeeds and so does the reload. -/
structure RecoverEnv.Succeeds (env : RecoverEnv) : Prop where
  restoreOne : ∀ quadlet path, env.restoreOne quadlet path = .ok ()
  daemonReload : env.daemonReload = .ok ()

theorem mem_addUnit {units : List (Found String)} {unit u : Found String} :
    u ∈ addUnit units unit ↔ u ∈ units ∨ u = unit := by
  unfold addUnit
  split
  · rename_i hmem
    refine ⟨.inl, ?_⟩
    rintro (h | rfl)
    · exact h
    · exact hmem
  · rw [List.mem_append, List.mem_singleton]

/-- The restore of the entry succeeds. -/
def RecoverEnv.restores (env : RecoverEnv) (e : String × LastGoodEntry) : Bool := (env.restoreOne e.1 e.2.snapshotPath).isOk

def LastGoodEntry.restored (e : String × LastGoodEntry) : Restored := ⟨e.1, e.2.snapshotPath, e.2.tag⟩

def RecoverResult.Honest (result : RecoverResult) : Prop := result.ok = false ↔ result.errors ≠ []

/-- **What one entry adds**: its attempt, and where it succeeds its line and its unit. -/
theorem restoreEntry_spec (env : RecoverEnv) (s : RestoreState) (e : String × LastGoodEntry) :
    (restoreEntry env s e).effects = s.effects ++ [.restoreOne e.1 e.2.snapshotPath] ∧
      (restoreEntry env s e).result.restored =
        s.result.restored ++ ([e].filter env.restores).map LastGoodEntry.restored ∧
      ∀ u, u ∈ (restoreEntry env s e).restartUnits ↔
        u ∈ s.restartUnits ∨ env.restores e = true ∧ JsRecord.get? QUADLET_TO_UNIT e.1 = some u := by
  unfold restoreEntry RecoverEnv.restores
  cases hone : env.restoreOne e.1 e.2.snapshotPath with
  | error msg =>
    have hfails : (Except.error msg : Except String Unit).isOk = false := rfl
    simp [hone, hfails]
  | ok _ =>
    have hok : (Except.ok () : Except String Unit).isOk = true := rfl
    refine ⟨rfl, by simp [hone, hok, LastGoodEntry.restored], fun u => ?_⟩
    simp only [hok, true_and]
    cases hu : JsRecord.get? QUADLET_TO_UNIT e.1 with
    | none => simp
    | some unit =>
      rw [mem_addUnit, Option.some.injEq]
      exact or_congr_right eq_comm

/-- **What the loop adds**, whichever restores fail. -/
theorem foldl_restoreEntry (env : RecoverEnv) : ∀ (entries : List (String × LastGoodEntry)) (s : RestoreState),
    (entries.foldl (restoreEntry env) s).effects = s.effects ++ entries.map (fun e => .restoreOne e.1 e.2.snapshotPath) ∧
      (entries.foldl (restoreEntry env) s).result.restored =
        s.result.restored ++ (entries.filter env.restores).map LastGoodEntry.restored ∧
      ∀ u, u ∈ (entries.foldl (restoreEntry env) s).restartUnits ↔
        u ∈ s.restartUnits ∨ ∃ e ∈ entries, env.restores e = true ∧ JsRecord.get? QUADLET_TO_UNIT e.1 = some u
  | [], s => by simp
  | e :: entries, s => by
    obtain ⟨heff, hrest, hunits⟩ := restoreEntry_spec env s e
    obtain ⟨heff', hrest', hunits'⟩ := foldl_restoreEntry env entries (restoreEntry env s e)
    refine ⟨?_, ?_, fun u => ?_⟩
    · rw [List.foldl_cons, heff', heff, List.append_assoc]
      rfl
    · rw [List.foldl_cons, hrest', hrest, List.append_assoc, ← List.map_append, ← List.filter_append]
      rfl
    · rw [List.foldl_cons, hunits', hunits]
      simp only [List.mem_cons, exists_eq_or_imp, or_assoc]

theorem nodup_addUnit {units : List (Found String)} {unit : Found String} (h : units.Nodup) : (addUnit units unit).Nodup := by
  unfold addUnit
  split
  · exact h
  · rename_i hnot
    exact List.nodup_append.2 ⟨h, by simp, fun a ha b hb => by
      rw [List.mem_singleton.1 hb]
      exact fun heq => hnot (heq ▸ ha)⟩

/-- The units asked for stay distinct and the result honest. -/
theorem restoreEntry_keeps (env : RecoverEnv) : ∀ (entries : List (String × LastGoodEntry)) (s : RestoreState),
    s.restartUnits.Nodup → s.result.Honest →
      (entries.foldl (restoreEntry env) s).restartUnits.Nodup ∧ (entries.foldl (restoreEntry env) s).result.Honest
  | [], _, hunits, hhonest => ⟨hunits, hhonest⟩
  | e :: entries, s, hunits, hhonest => by
    rw [List.foldl_cons]
    refine restoreEntry_keeps env entries _ ?_ ?_
    · unfold restoreEntry
      split
      · split
        · exact nodup_addUnit hunits
        · exact hunits
      · exact hunits
    · unfold restoreEntry
      split
      · exact hhonest
      · simp [RecoverResult.Honest]

theorem honest_restartOne (env : RecoverEnv) : ∀ (units : List (Found String)) (result : RecoverResult), result.Honest →
    (units.foldl (restartOne env) result).Honest ∧ (units.foldl (restartOne env) result).restored = result.restored
  | [], _, h => ⟨h, rfl⟩
  | unit :: units, result, h => by
    rw [List.foldl_cons]
    have hone : (restartOne env result unit).Honest ∧ (restartOne env result unit).restored = result.restored := by
      unfold restartOne
      split
      · exact ⟨h, rfl⟩
      · exact ⟨by simp [RecoverResult.Honest], rfl⟩
    obtain ⟨hhonest, hrest⟩ := honest_restartOne env units _ hone.1
    exact ⟨hhonest, hrest.trans hone.2⟩

theorem recoverAll_effects {env : RecoverEnv} (henv : env.Succeeds) {lg : LastGood} (hne : lg.quadlets ≠ []) :
    ∃ units : List (Found String), (recoverAll env (some lg)).1 = lg.quadlets.map (fun e => .restoreOne e.1 e.2.snapshotPath) ++
        [.daemonReload] ++ units.map .restartUnit ∧
      ∀ u, u ∈ units ↔ ∃ e ∈ lg.quadlets, JsRecord.get? QUADLET_TO_UNIT e.1 = some u := by
  obtain ⟨heff, hrest, hunits⟩ := foldl_restoreEntry env lg.quadlets ⟨[], ⟨true, [], []⟩, []⟩
  have hall : ∀ e, env.restores e = true := fun e => by
    rw [RecoverEnv.restores, henv.restoreOne]
    rfl
  refine ⟨(lg.quadlets.foldl (restoreEntry env) ⟨[], ⟨true, [], []⟩, []⟩).restartUnits, ?_, fun u => ?_⟩
  · have hsome : (lg.quadlets.foldl (restoreEntry env) ⟨[], ⟨true, [], []⟩, []⟩).result.restored ≠ [] := by
      rw [hrest]
      simp [List.filter_eq_self.2 (fun e _ => hall e), hne]
    simp only [recoverAll, hne, if_false, hsome, henv.daemonReload, heff, List.nil_append]
  · rw [hunits]
    simp [hall]

/-- The own unit is that of the own Quadlet only. -/
theorem unit_own_iff (quadlet : String) : JsRecord.get? QUADLET_TO_UNIT quadlet = some ownUnit ↔ quadlet = ownQuadlet := by
  rw [ownUnit, JsRecord.get?_own]
  unfold QUADLET_TO_UNIT ownQuadlet
  simp only [List.lookup_cons, List.lookup_nil]
  by_cases h1 : quadlet = "signalk-server.container"
  · subst h1; decide
  · by_cases h2 : quadlet = "signalk-updater-server.container"
    · subst h2; decide
    · by_cases h3 : quadlet = "signalk-doctor-server.container"
      · subst h3; decide
      · have b1 : (quadlet == "signalk-server.container") = false := by simpa using h1
        have b2 : (quadlet == "signalk-updater-server.container") = false := by simpa using h2
        have b3 : (quadlet == "signalk-doctor-server.container") = false := by simpa using h3
        simp [b1, b2, b3, h3]

theorem recoverAll_mem {env : RecoverEnv} (henv : env.Succeeds) (lg : LastGood) :
    (∀ quadlet path, .restoreOne quadlet path ∈ (recoverAll env (some lg)).1 → quadlet ∈ lg.quadlets.map Prod.fst) ∧
      ∀ u, .restartUnit u ∈ (recoverAll env (some lg)).1 ↔
        ∃ quadlet ∈ lg.quadlets.map Prod.fst, JsRecord.get? QUADLET_TO_UNIT quadlet = some u := by
  by_cases hne : lg.quadlets = []
  · simp [recoverAll, hne]
  · obtain ⟨units, heff, hunits⟩ := recoverAll_effects henv hne
    rw [heff]
    constructor
    · intro quadlet path hm
      simp only [List.mem_append, List.mem_map, List.mem_singleton] at hm
      rcases hm with (⟨e, he, heq⟩ | heq) | ⟨u, -, heq⟩
      · cases heq
        exact List.mem_map_of_mem he
      · cases heq
      · cases heq
    · intro u
      simp [hunits u]

/-! ## Every end of a run -/

section
variable {ι : Type} {J : JsonCodec} {A : Acquisitions ι} {i : ι} {env : RecoverEnv} {lg : LastGood}

theorem lockActs_effects (effects : List Effect) : lockActs (effects.map (ProcStep.effect (ι := ι))) = [] := by
  simp [lockActs, List.filterMap_map]

theorem lockActs_postRecover (env : RecoverEnv) (lg : Option LastGood) : lockActs (postRecover J A i env lg) =
    [.create i, .write i (J.stringify 0 (A.info i).toJson), .acquired i] ++ [.release i, .readLock i, .unlink i] := by
  have h := lockActs_effects (ι := ι) (recoverAll env lg).1
  simp only [lockActs] at h
  simp [postRecover, lockActs, List.filterMap_append, h]

theorem effect_mem_postRecover {e : Effect} : .effect e ∈ postRecover J A i env (some lg) ↔ e ∈ (recoverAll env (some lg)).1 := by
  simp [postRecover]

variable [DecidableEq ι] {s : LockFs ι}

theorem recoverComplete_full (henv : env.Succeeds) (hdoc : (A.info i).owner = .doctor) (hp : s.path = none)
    (hi : s.phase i = .idle) : RecoverComplete J A s (postRecover J A i env (some lg)) := by
  constructor
  · intro quadlet path unit hm hunit
    rw [effect_mem_postRecover] at hm ⊢
    exact ((recoverAll_mem henv lg).2 _).2 ⟨quadlet, (recoverAll_mem henv lg).1 _ _ hm, JsRecord.get?_own.2 hunit⟩
  · obtain ⟨t, ht, htp, hti, htt⟩ := Mutex.exec_acquire (J := J) hdoc hp hi
    obtain ⟨u, hu, hup⟩ := Mutex.exec_release hdoc htp hti htt
    refine ⟨u, ?_, hup⟩
    rw [lockActs_postRecover, Steps.exec_append, ht]
    exact hu

/-- A run cut right after the restart request of the own unit leaves the lock. -/
theorem endOfRun_locked (hdoc : (A.info i).owner = .doctor) (hp : s.path = none) (hi : s.phase i = .idle)
    (hown : .restartUnit ownUnit ∈ (recoverAll env (some lg)).1) :
    ∃ done, EndOfRun (postRecover J A i env (some lg)) done ∧ ¬ RecoverComplete J A s done := by
  obtain ⟨before, after, hsplit⟩ := List.append_of_mem hown
  refine ⟨[.lock (.create i), .lock (.write i (J.stringify 0 (A.info i).toJson)), .lock (.acquired i)] ++
    (before ++ [Effect.restartUnit ownUnit]).map .effect, .inr ⟨?_, by simp⟩, ?_⟩
  · refine ⟨after.map .effect ++ [.lock (.release i), .lock (.readLock i), .lock (.unlink i)], ?_⟩
    simp [postRecover, hsplit]
  · rintro ⟨-, t, ht, htp⟩
    obtain ⟨u, hu, hup, -⟩ := Mutex.exec_acquire (J := J) hdoc hp hi
    have hnil := lockActs_effects (ι := ι) (before ++ [Effect.restartUnit ownUnit])
    simp only [lockActs] at ht hnil
    rw [List.filterMap_append, hnil, List.append_nil] at ht
    simp only [List.filterMap_cons, List.filterMap_nil] at ht
    rw [hu, Option.some.injEq] at ht
    rw [← ht, hup] at htp
    cases htp

end

/-- **A recovery is complete wherever its run can end exactly when the record has no entry for the doctor's own
Quadlet**, the restores and the reload succeeding. -/
theorem recover_complete_iff {ι : Type} [DecidableEq ι] (J : JsonCodec) (A : Acquisitions ι) (i : ι) (s : LockFs ι)
    (env : RecoverEnv) (lg : LastGood) (henv : env.Succeeds) (hdoc : (A.info i).owner = .doctor) (hp : s.path = none)
    (hi : s.phase i = .idle) :
    (∀ done, EndOfRun (postRecover J A i env (some lg)) done → RecoverComplete J A s done) ↔
      ownQuadlet ∉ lg.quadlets.map Prod.fst := by
  have hown : .restartUnit ownUnit ∈ (recoverAll env (some lg)).1 ↔ ownQuadlet ∈ lg.quadlets.map Prod.fst := by
    rw [(recoverAll_mem henv lg).2]
    constructor
    · rintro ⟨quadlet, hq, hunit⟩
      exact (unit_own_iff quadlet).1 hunit ▸ hq
    · intro h
      exact ⟨ownQuadlet, h, (unit_own_iff ownQuadlet).2 rfl⟩
  rw [← hown]
  constructor
  · intro hall hmem
    obtain ⟨done, hend, hnot⟩ := endOfRun_locked (J := J) hdoc hp hi hmem
    exact hnot (hall done hend)
  · rintro hno done (rfl | ⟨hpre, hmem⟩)
    · exact recoverComplete_full henv hdoc hp hi
    · exact absurd (effect_mem_postRecover.1 (hpre.subset hmem)) hno

def healthyEnv : RecoverEnv := ⟨fun _ _ => .ok (), .ok (), fun _ => .ok ()⟩

theorem healthyEnv_succeeds : healthyEnv.Succeeds := ⟨fun _ _ => rfl, rfl⟩

/-- A record whose first entry is the doctor's own Quadlet. -/
def ownFirst : LastGood where
  updatedAt := "2026-07-17T00:00:00.000Z"
  quadlets :=
    [("signalk-doctor-server.container", ⟨"0.9.0", "ghcr.io/dirkwa/signalk-doctor-server:0.9.0", "/data/snapshots/a"⟩),
      ("signalk-server.container", ⟨"2.24.0", "ghcr.io/dirkwa/signalk-server:2.24.0", "/data/snapshots/b"⟩)]
  keys_nodup := by decide

def serverOnly : LastGood where
  updatedAt := "2026-07-17T00:00:00.000Z"
  quadlets := [("signalk-server.container", ⟨"2.24.0", "ghcr.io/dirkwa/signalk-server:2.24.0", "/data/snapshots/b"⟩)]
  keys_nodup := by decide

/-- A run over `ownFirst` that ends with the restart request of the own unit: the server's is never made. -/
theorem recover_ownFirst :
    ¬ ∀ (J : JsonCodec) (A : Acquisitions (Fin 3)) (i : Fin 3) (s : LockFs (Fin 3)) (env : RecoverEnv) (lg : LastGood),
      env.Succeeds → (A.info i).owner = .doctor → s.path = none → s.phase i = .idle →
        ∀ done, EndOfRun (postRecover J A i env (some lg)) done → RecoverComplete J A s done := by
  intro h
  have hend : EndOfRun (postRecover jsonText Mutex.threeOps 1 healthyEnv (some ownFirst))
      [.lock (.create 1), .lock (.write 1 (jsonText.stringify 0 (Mutex.threeOps.info 1).toJson)), .lock (.acquired 1),
        .effect (.restoreOne "signalk-doctor-server.container" "/data/snapshots/a"),
        .effect (.restoreOne "signalk-server.container" "/data/snapshots/b"), .effect .daemonReload,
        .effect (.restartUnit ownUnit)] :=
    .inr ⟨⟨[.effect (.restartUnit (.own "signalk-server.service")), .lock (.release 1), .lock (.readLock 1),
      .lock (.unlink 1)], rfl⟩, by simp⟩
  have hdone := (h jsonText Mutex.threeOps 1 (LockFs.init _) healthyEnv ownFirst healthyEnv_succeeds rfl rfl rfl _ hend).1
    "signalk-server.container" "/data/snapshots/b" "signalk-server.service" (by simp) (by decide)
  simp [ownUnit] at hdone

theorem recover_complete_serverOnly :
    (∀ done, EndOfRun (postRecover jsonText Mutex.threeOps 1 healthyEnv (some serverOnly)) done →
        RecoverComplete jsonText Mutex.threeOps (LockFs.init _) done) ↔
      ownQuadlet ∉ serverOnly.quadlets.map Prod.fst :=
  recover_complete_iff jsonText Mutex.threeOps 1 (LockFs.init _) healthyEnv serverOnly healthyEnv_succeeds rfl rfl rfl

end Restore
end SignalkDoctor
