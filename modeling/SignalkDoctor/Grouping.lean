import Mathlib.Data.List.Induction
import Mathlib.Data.List.Nodup
/-!
# Grouping — lists by key, in the order of first appearance

Two loops that go over a list once: one keeps the first element of each key (`addNew`), the other collects the elements of
each key (`addTo`).  Both bring the keys in the order in which they appear first, which is `List.eraseDups`.
-/
namespace SignalkDoctor
namespace Grouping

variable {α κ : Type} [BEq κ] [LawfulBEq κ]

theorem eraseDups_concat (ks : List κ) (k : κ) :
    (ks ++ [k]).eraseDups = if ks.contains k then ks.eraseDups else ks.eraseDups ++ [k] := by
  rw [List.eraseDups_append, List.removeAll, List.filter_cons, List.filter_nil, List.elem_eq_contains]
  cases ks.contains k with
  | true => simp
  | false => simp [List.eraseDups_cons]

theorem nodup_eraseDups (ks : List κ) : ks.eraseDups.Nodup := by
  induction ks using List.reverseRecOn with
  | nil => exact List.nodup_nil
  | append_singleton ks k ih =>
    rw [eraseDups_concat]
    by_cases hk : ks.contains k = true
    · rw [if_pos hk]
      exact ih
    · rw [if_neg hk, List.nodup_append]
      refine ⟨ih, List.nodup_singleton k, fun a ha b hb hab => hk ?_⟩
      rw [List.contains_iff_mem, ← List.mem_singleton.1 hb, ← hab]
      exact List.mem_eraseDups.1 ha

/-! ## The first of each key -/

/-- The element joins the list unless one of its key is there. -/
def addNew (key : α → κ) (kept : List α) (a : α) : List α :=
  if kept.any (fun e => key e == key a) then kept else kept ++ [a]

/-- **The keys kept are those of the list, each once, in the order of first appearance.** -/
theorem map_foldl_addNew (key : α → κ) (l : List α) :
    (l.foldl (addNew key) []).map key = (l.map key).eraseDups := by
  induction l using List.reverseRecOn with
  | nil => rfl
  | append_singleton l a ih =>
    have hseen : (l.foldl (addNew key) []).any (fun e => key e == key a) = (l.map key).contains (key a) := by
      have hkeys : key a ∈ (l.foldl (addNew key) []).map key ↔ key a ∈ l.map key := by
        rw [ih, List.mem_eraseDups]
      rw [Bool.eq_iff_iff, List.any_eq_true, List.contains_iff_mem, ← hkeys, List.mem_map]
      simp only [beq_iff_eq]
    rw [List.foldl_append, List.foldl_cons, List.foldl_nil, List.map_append, List.map_singleton, eraseDups_concat, addNew,
      hseen]
    split
    · exact ih
    · rw [List.map_append, ih, List.map_singleton]

/-! ## The elements of each key -/

/-- The element joins the group of its key, or begins one; without a key it is passed over. -/
def addTo (key : α → Option κ) (groups : List (κ × List α)) (a : α) : List (κ × List α) :=
  match key a with
  | none => groups
  | some k =>
    if groups.any (fun g => g.1 == k) then groups.map (fun g => if g.1 == k then (g.1, g.2 ++ [a]) else g)
    else groups ++ [(k, [a])]

def ofKey (key : α → Option κ) (l : List α) (k : κ) : List α := l.filter (fun a => key a == some k)

omit [LawfulBEq κ] in
theorem ofKey_concat (key : α → Option κ) (l : List α) (a : α) (k : κ) :
    ofKey key (l ++ [a]) k = if key a == some k then ofKey key l k ++ [a] else ofKey key l k := by
  rw [ofKey, List.filter_append, List.filter_cons, List.filter_nil]
  split
  · rfl
  · exact List.append_nil _

theorem ofKey_eq_nil {key : α → Option κ} {l : List α} {k : κ} (h : k ∉ l.filterMap key) : ofKey key l k = [] := by
  rw [ofKey, List.filter_eq_nil_iff]
  intro a ha hk
  exact h (List.mem_filterMap.2 ⟨a, ha, eq_of_beq hk⟩)

/-- **The groups are the keys in the order of first appearance, each with its elements.** -/
theorem foldl_addTo (key : α → Option κ) (l : List α) :
    l.foldl (addTo key) [] = (l.filterMap key).eraseDups.map (fun k => (k, ofKey key l k)) := by
  induction l using List.reverseRecOn with
  | nil => rfl
  | append_singleton l a ih =>
    rw [List.foldl_append, List.foldl_cons, List.foldl_nil, ih, List.filterMap_append, addTo]
    cases hk : key a with
    | none =>
      have hnone : [a].filterMap key = [] := by rw [List.filterMap_cons, hk, List.filterMap_nil]
      simp only [hnone, List.append_nil, ofKey_concat, hk]
      rfl
    | some k =>
      have hsome : [a].filterMap key = [k] := by rw [List.filterMap_cons, hk, List.filterMap_nil]
      have hseen : ((l.filterMap key).eraseDups.map (fun k => (k, ofKey key l k))).any (fun g => g.1 == k) =
          (l.filterMap key).contains k := by
        rw [List.any_map, Bool.eq_iff_iff, List.any_eq_true, List.contains_iff_mem]
        constructor
        · rintro ⟨k', hk', heq⟩
          exact eq_of_beq heq ▸ List.mem_eraseDups.1 hk'
        · exact fun hmem => ⟨k, List.mem_eraseDups.2 hmem, BEq.rfl⟩
      simp only [hseen, hsome, eraseDups_concat, ofKey_concat, hk]
      by_cases hmem : (l.filterMap key).contains k = true
      · rw [if_pos hmem, if_pos hmem, List.map_map]
        refine List.map_congr_left (fun k' _ => ?_)
        by_cases hkk : k' = k
        · simp [hkk]
        · simp [hkk, Ne.symm hkk]
      · have hnew : k ∉ l.filterMap key := fun h => hmem (List.contains_iff_mem.2 h)
        rw [if_neg hmem, if_neg hmem, List.map_append, List.map_singleton, ofKey_eq_nil hnew]
        congr 1
        · refine List.map_congr_left (fun k' hk' => ?_)
          have hkk : k ≠ k' := fun h => hnew (h ▸ List.mem_eraseDups.1 hk')
          simp [hkk]
        · simp

end Grouping
end SignalkDoctor
