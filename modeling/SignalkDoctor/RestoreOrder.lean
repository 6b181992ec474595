import Mathlib.Data.List.Nodup
import SignalkDoctor.Restore
/-!
# RestoreOrder — what a recovery does in which order (`recoverAll` in `src/recovery/restore.ts`)

A recovery is its restores, then one reload, then the restarts of the units of what was restored; each of the three may
fail anywhere.  `recoverAll_order` holds the calls made and the result returned to that, whatever fails.
-/
namespace SignalkDoctor
namespace Restore

open JsRecord (Found)

/-- **Ordered and honest**: the reload once and after the restores, a restart only after it and only of the unit of a
restored Quadlet, each once and none left out, and `ok` false exactly where an error is told. -/
structure Order (env : RecoverEnv) (lg : LastGood) (effects : List Effect) (result : RecoverResult) : Prop where
  restored : result.restored = (lg.quadlets.filter env.restores).map LastGoodEntry.restored
  reloadOnce : effects.count .daemonReload ≤ 1
  reloadLast : ∀ before after, effects = before ++ .daemonReload :: after → ∀ quadlet path,
    .restoreOne quadlet path ∉ after
  restartLate : ∀ before after unit, effects = before ++ .restartUnit unit :: after →
    .daemonReload ∈ before ∧ env.daemonReload = .ok ()
  restartOnce : ∀ unit, effects.count (.restartUnit unit) ≤ 1
  restartRestored : ∀ unit, .restartUnit unit ∈ effects →
    ∃ r ∈ result.restored, JsRecord.get? QUADLET_TO_UNIT r.quadlet = some unit
  restartAll : env.daemonReload = .ok () → ∀ r ∈ result.restored, ∀ unit,
    JsRecord.get? QUADLET_TO_UNIT r.quadlet = some unit → .restartUnit unit ∈ effects
  honest : result.ok = false ↔ result.errors ≠ []

variable {env : RecoverEnv} {lg : LastGood}

def attempts (lg : LastGood) : List Effect := lg.quadlets.map (fun e => .restoreOne e.1 e.2.snapshotPath)

/-- Each entry is restored or told in an error. -/
theorem foldl_restoreEntry_length (env : RecoverEnv) : ∀ (entries : List (String × LastGoodEntry)) (s : RestoreState),
    (entries.foldl (restoreEntry env) s).result.restored.length + (entries.foldl (restoreEntry env) s).result.errors.length =
      s.result.restored.length + s.result.errors.length + entries.length
  | [], _ => rfl
  | e :: entries, s => by
    have hone : (restoreEntry env s e).result.restored.length + (restoreEntry env s e).result.errors.length =
        s.result.restored.length + s.result.errors.length + 1 := by
      unfold restoreEntry
      split <;> simp only [List.length_append, List.length_singleton] <;> omega
    rw [List.foldl_cons, foldl_restoreEntry_length env entries, hone, List.length_cons]
    omega

def UnitsOf (restored : List Restored) (units : List (Found String)) : Prop :=
  units.Nodup ∧ ∀ u, u ∈ units ↔ ∃ r ∈ restored, JsRecord.get? QUADLET_TO_UNIT r.quadlet = some u

/-- **How far a recovery gets**: the restores only, where none succeeded; the reload, where it failed; or all of it. -/
theorem recoverAll_cases (env : RecoverEnv) (lg : LastGood) :
    (recoverAll env (some lg)).2.restored = (lg.quadlets.filter env.restores).map LastGoodEntry.restored ∧
      (recoverAll env (some lg)).2.Honest ∧
      ((recoverAll env (some lg)).1 = attempts lg ∧ (recoverAll env (some lg)).2.restored = [] ∨
        (recoverAll env (some lg)).1 = attempts lg ++ [.daemonReload] ∧ env.daemonReload ≠ .ok () ∨
        ∃ units, (recoverAll env (some lg)).1 = attempts lg ++ [.daemonReload] ++ units.map .restartUnit ∧
          env.daemonReload = .ok () ∧ UnitsOf (recoverAll env (some lg)).2.restored units) := by
  by_cases hne : lg.quadlets = []
  · simp [recoverAll, hne, attempts, RecoverResult.Honest]
  obtain ⟨heff, hrest, hunits⟩ := foldl_restoreEntry env lg.quadlets ⟨[], ⟨true, [], []⟩, []⟩
  have hlength := foldl_restoreEntry_length env lg.quadlets ⟨[], ⟨true, [], []⟩, []⟩
  obtain ⟨hnodup, hhonest⟩ := restoreEntry_keeps env lg.quadlets ⟨[], ⟨true, [], []⟩, []⟩ List.nodup_nil
    (by simp [RecoverResult.Honest])
  simp only [List.nil_append, List.length_nil, Nat.zero_add, List.not_mem_nil, false_or] at heff hrest hunits hlength
  simp only [recoverAll, if_neg hne]
  generalize lg.quadlets.foldl (restoreEntry env) ⟨[], ⟨true, [], []⟩, []⟩ = s at *
  by_cases hnone : s.result.restored = []
  · rw [if_pos hnone]
    refine ⟨hrest, ?_, .inl ⟨heff, hnone⟩⟩
    have herrors : s.result.errors ≠ [] := by
      intro h
      rw [hnone, h] at hlength
      exact hne (List.length_eq_zero_iff.1 hlength.symm)
    simp [RecoverResult.Honest, herrors]
  · rw [if_neg hnone]
    cases hreload : env.daemonReload with
    | error msg => exact ⟨hrest, by simp [RecoverResult.Honest], .inr (.inl ⟨by rw [heff]; rfl, by simp⟩)⟩
    | ok _ =>
      obtain ⟨hhonest', hrest'⟩ := honest_restartOne env s.restartUnits s.result hhonest
      refine ⟨hrest'.trans hrest, hhonest', .inr (.inr ⟨s.restartUnits, by rw [heff]; rfl, rfl, hnodup, fun u => ?_⟩)⟩
      rw [hunits, hrest', hrest]
      constructor
      · rintro ⟨e, he, hok, hunit⟩
        exact ⟨_, List.mem_map_of_mem (List.mem_filter.2 ⟨he, hok⟩), hunit⟩
      · rintro ⟨r, hr, hunit⟩
        obtain ⟨e, he, rfl⟩ := List.mem_map.1 hr
        obtain ⟨he, hok⟩ := List.mem_filter.1 he
        exact ⟨e, he, hok, hunit⟩

/-! ## The order of the calls -/

theorem not_mem_attempts (lg : LastGood) : .daemonReload ∉ attempts lg ∧ ∀ unit, .restartUnit unit ∉ attempts lg := by
  simp [attempts]

theorem split_of_not_mem {α : Type} {xs ys before after : List α} {a : α} (h : xs ++ ys = before ++ a :: after)
    (hx : a ∉ xs) : ∃ mid, before = xs ++ mid ∧ ys = mid ++ a :: after := by
  rcases List.append_eq_append_iff.1 h with ⟨mid, hbefore, hys⟩ | ⟨mid, hxs, hrest⟩
  · exact ⟨mid, hbefore, hys⟩
  · cases mid with
    | nil => exact ⟨[], by simpa using hxs.symm, by simpa using hrest.symm⟩
    | cons b mid =>
      obtain ⟨rfl, -⟩ := List.cons.inj hrest
      exact absurd (hxs ▸ List.mem_append_right before (List.mem_cons_self ..)) hx

/-- **The restores, the reload, the restarts**: in this order whatever the units are. -/
theorem order_of_phases (units : List (Found String)) {effects : List Effect} (hnodup : units.Nodup)
    (heff : effects = attempts lg ++ [.daemonReload] ++ units.map .restartUnit) :
    effects.count .daemonReload ≤ 1 ∧
      (∀ before after, effects = before ++ .daemonReload :: after → ∀ quadlet path, .restoreOne quadlet path ∉ after) ∧
      (∀ before after unit, effects = before ++ .restartUnit unit :: after → .daemonReload ∈ before) ∧
      ∀ unit, effects.count (.restartUnit unit) ≤ 1 := by
  subst heff
  obtain ⟨hreload, hrestart⟩ := not_mem_attempts lg
  have hlate : .daemonReload ∉ units.map Effect.restartUnit := by simp
  refine ⟨?_, fun before after h quadlet path hm => ?_, fun before after unit h => ?_, fun unit => ?_⟩
  · rw [List.count_append, List.count_append, List.count_eq_zero_of_not_mem hreload,
      List.count_eq_zero_of_not_mem hlate]
    simp
  · rw [List.append_assoc] at h
    obtain ⟨mid, -, hrest⟩ := split_of_not_mem h hreload
    cases mid with
    | nil =>
      obtain ⟨-, hafter⟩ := List.cons.inj hrest
      rw [← show units.map Effect.restartUnit = after from hafter] at hm
      simp at hm
    | cons b mid =>
      obtain ⟨-, hrest⟩ := List.cons.inj hrest
      have hmem : .daemonReload ∈ units.map Effect.restartUnit := by
        rw [show units.map Effect.restartUnit = mid ++ .daemonReload :: after from hrest]
        exact List.mem_append_right mid (List.mem_cons_self ..)
      exact absurd hmem hlate
  · obtain ⟨mid, hbefore, -⟩ := split_of_not_mem h (by simp [hrestart unit])
    rw [hbefore]
    simp
  · have hmap : (units.map Effect.restartUnit).Nodup := hnodup.map (fun a b hab => by injection hab)
    rw [List.count_append, List.count_append, List.count_eq_zero_of_not_mem (hrestart unit)]
    have hone : List.count (.restartUnit unit) [Effect.daemonReload] = 0 := by simp
    rw [hone]
    have := List.nodup_iff_count_le_one.1 hmap (.restartUnit unit)
    omega

/-- **Whatever fails, a recovery is ordered and honest.** -/
theorem recoverAll_order (env : RecoverEnv) (lg : LastGood) :
    Order env lg (recoverAll env (some lg)).1 (recoverAll env (some lg)).2 := by
  obtain ⟨hrestored, hhonest, hcases⟩ := recoverAll_cases env lg
  obtain ⟨hreload, hrestart⟩ := not_mem_attempts lg
  rcases hcases with ⟨heff, hnone⟩ | ⟨heff, hfails⟩ | ⟨units, heff, hok, hnodup, hunits⟩
  · refine ⟨hrestored, ?_, fun before after h => ?_, fun before after unit h => ?_, fun unit => ?_, fun unit hm => ?_,
      fun _ r hr => ?_, hhonest⟩
    · rw [heff, List.count_eq_zero_of_not_mem hreload]
      exact Nat.zero_le 1
    · rw [heff] at h
      exact absurd (h ▸ List.mem_append_right before (List.mem_cons_self ..)) hreload
    · rw [heff] at h
      exact absurd (h ▸ List.mem_append_right before (List.mem_cons_self ..)) (hrestart unit)
    · rw [heff, List.count_eq_zero_of_not_mem (hrestart unit)]
      exact Nat.zero_le 1
    · rw [heff] at hm
      exact absurd hm (hrestart unit)
    · rw [hnone] at hr
      cases hr
  · obtain ⟨honce, hlast, -, hcount⟩ := order_of_phases [] List.nodup_nil
      (heff.trans (by rw [List.map_nil, List.append_nil]))
    have hnot : ∀ unit, .restartUnit unit ∉ (recoverAll env (some lg)).1 := fun unit => by
      rw [heff]
      simp [hrestart unit]
    refine ⟨hrestored, honce, hlast, fun before after unit h => ?_, hcount, fun unit hm => absurd hm (hnot unit),
      fun hok => absurd hok hfails, hhonest⟩
    exact absurd (h ▸ List.mem_append_right before (List.mem_cons_self ..)) (hnot unit)
  · obtain ⟨honce, hlast, hlate, hcount⟩ := order_of_phases units hnodup heff
    have hmem : ∀ unit, .restartUnit unit ∈ (recoverAll env (some lg)).1 ↔ unit ∈ units := fun unit => by
      rw [heff]
      simp [hrestart unit]
    refine ⟨hrestored, honce, hlast, fun before after unit h => ⟨hlate before after unit h, hok⟩, hcount,
      fun unit hm => ?_, fun _ r hr unit hunit => ?_, hhonest⟩
    · exact (hunits unit).1 ((hmem unit).1 hm)
    · exact (hmem unit).2 ((hunits unit).2 ⟨r, hr, hunit⟩)

end Restore
end SignalkDoctor
