/-!
# Comparator — comparison functions with a numeric result

A comparator answers below, at or above zero.  `Lawful` says that on a set of values it is one of a total preorder;
comparing one after the other (`thenBy`) keeps it so, and sorting by it puts no value behind a later one.
-/
namespace SignalkDoctor
namespace Comparator

variable {α β : Type}

/-- **A total preorder on the values of `S`.** -/
structure Lawful (S : α → Prop) (c : α → α → Int) : Prop where
  anti : ∀ {x y}, S x → S y → (0 ≤ c x y ↔ c y x ≤ 0)
  trans : ∀ {x y z}, S x → S y → S z → c x y ≤ 0 → c y z ≤ 0 → c x z ≤ 0

namespace Lawful

variable {S : α → Prop} {c : α → α → Int}

theorem self (h : Lawful S c) {x : α} (hx : S x) : c x x = 0 := by
  have hself := h.anti hx hx
  by_cases hle : c x x ≤ 0
  · exact Int.le_antisymm hle (hself.2 hle)
  · exact absurd (hself.1 (by omega)) hle

theorem total (h : Lawful S c) {x y : α} (hx : S x) (hy : S y) : c x y ≤ 0 ∨ c y x ≤ 0 := by
  by_cases hle : c x y ≤ 0
  · exact .inl hle
  · exact .inr ((h.anti hx hy).1 (by omega))

/-- Values equal to each other compare alike. -/
theorem eq_zero_iff (h : Lawful S c) {x y : α} (hx : S x) (hy : S y) : c x y = 0 ↔ c y x = 0 := by
  have h1 := h.anti hx hy
  have h2 := h.anti hy hx
  omega

/-- Swapping the two values turns the sign. -/
theorem sign_swap (h : Lawful S c) {x y : α} (hx : S x) (hy : S y) : (c y x).sign = -(c x y).sign := by
  have hxy := h.anti hx hy
  have hyx := h.anti hy hx
  rcases Int.lt_trichotomy (c x y) 0 with hlt | heq | hgt
  · rw [Int.sign_eq_neg_one_of_neg hlt, Int.sign_eq_one_of_pos (by omega)]
    rfl
  · rw [heq, show c y x = 0 by omega]
    rfl
  · rw [Int.sign_eq_one_of_pos hgt, Int.sign_eq_neg_one_of_neg (by omega)]

theorem mono {S' : α → Prop} (h : Lawful S c) (hS : ∀ x, S' x → S x) : Lawful S' c where
  anti hx hy := h.anti (hS _ hx) (hS _ hy)
  trans hx hy hz := h.trans (hS _ hx) (hS _ hy) (hS _ hz)

theorem swap (h : Lawful S c) : Lawful S (fun x y => c y x) where
  anti hx hy := h.anti hy hx
  trans hx hy hz hxy hyz := h.trans hz hy hx hyz hxy

theorem comap (h : Lawful S c) (f : β → α) : Lawful (fun x => S (f x)) (fun x y => c (f x) (f y)) where
  anti hx hy := h.anti hx hy
  trans hx hy hz := h.trans hx hy hz

end Lawful

/-- The difference of two numbers. -/
def byNat (x y : Nat) : Int := x - y

theorem lawful_byNat : Lawful (fun _ => True) byNat where
  anti _ _ := by
    unfold byNat
    omega
  trans _ _ _ := by
    unfold byNat
    omega

/-- `m || n` -/
def orElse (m n : Int) : Int := if m ≠ 0 then m else n

/-- The first comparison, and where it sees no difference the second. -/
def thenBy (c d : α → α → Int) (x y : α) : Int := orElse (c x y) (d x y)

/-- One element after the other; a list is before those it begins. -/
def byLex (c : α → α → Int) : List α → List α → Int
  | [], [] => 0
  | [], _ :: _ => -1
  | _ :: _, [] => 1
  | x :: xs, y :: ys => orElse (c x y) (byLex c xs ys)

namespace Lawful

variable {S : α → Prop} {c d : α → α → Int}

theorem orElse_anti (h : Lawful S c) {x y : α} (hx : S x) (hy : S y) {m n : Int} (hmn : 0 ≤ m ↔ n ≤ 0) :
    0 ≤ orElse (c x y) m ↔ orElse (c y x) n ≤ 0 := by
  have hzero := h.eq_zero_iff hx hy
  unfold orElse
  by_cases h0 : c x y = 0
  · rw [if_neg (fun hne => hne h0), if_neg (fun hne => hne (hzero.1 h0))]
    exact hmn
  · rw [if_pos h0, if_pos (fun hne => h0 (hzero.2 hne))]
    exact h.anti hx hy

theorem orElse_trans (h : Lawful S c) {x y z : α} (hx : S x) (hy : S y) (hz : S z) {m n k : Int}
    (hmn : m ≤ 0 → n ≤ 0 → k ≤ 0) (hxy : orElse (c x y) m ≤ 0) (hyz : orElse (c y z) n ≤ 0) : orElse (c x z) k ≤ 0 := by
  have hanti := h.anti hx hy
  have hanti' := h.anti hy hz
  have hanti'' := h.anti hx hz
  have hzero := h.eq_zero_iff hx hy
  have hzero' := h.eq_zero_iff hy hz
  have hzero'' := h.eq_zero_iff hx hz
  have htrans := h.trans hx hy hz
  -- a difference on the way is one between the ends
  have hzyx := h.trans hz hy hx
  have hzxy := h.trans hz hx hy
  have hyzx := h.trans hy hz hx
  unfold orElse at hxy hyz ⊢
  by_cases h1 : c x y = 0
  · rw [if_neg (fun hne => hne h1)] at hxy
    by_cases h2 : c y z = 0
    · have h3 : c x z = 0 := by omega
      rw [if_neg (fun hne => hne h2)] at hyz
      rw [if_neg (fun hne => hne h3)]
      exact hmn hxy hyz
    · rw [if_pos h2] at hyz
      have h3 : c x z ≠ 0 := by omega
      rw [if_pos h3]
      exact htrans (by omega) hyz
  · rw [if_pos h1] at hxy
    have hle : c y z ≤ 0 := by
      by_cases h2 : c y z = 0
      · omega
      · rwa [if_pos h2] at hyz
    have h3 : c x z ≠ 0 := by omega
    rw [if_pos h3]
    exact htrans hxy hle

/-- **Comparing one after the other is lawful.** -/
theorem thenBy (hc : Lawful S c) (hd : Lawful S d) : Lawful S (thenBy c d) where
  anti hx hy := hc.orElse_anti hx hy (hd.anti hx hy)
  trans hx hy hz := hc.orElse_trans hx hy hz (hd.trans hx hy hz)

theorem byLex_anti (h : Lawful S c) : ∀ {xs ys : List α}, (∀ x ∈ xs, S x) → (∀ y ∈ ys, S y) →
    (0 ≤ byLex c xs ys ↔ byLex c ys xs ≤ 0)
  | [], [], _, _ => by simp [byLex]
  | [], _ :: _, _, _ => by simp [byLex]
  | _ :: _, [], _, _ => by simp [byLex]
  | x :: xs, y :: ys, hxs, hys => by
    have ih := h.byLex_anti (fun z hz => hxs z (List.mem_cons_of_mem _ hz)) (fun z hz => hys z (List.mem_cons_of_mem _ hz))
    exact h.orElse_anti (hxs x (List.mem_cons_self ..)) (hys y (List.mem_cons_self ..)) ih

theorem byLex_trans (h : Lawful S c) : ∀ {xs ys zs : List α}, (∀ x ∈ xs, S x) → (∀ y ∈ ys, S y) → (∀ z ∈ zs, S z) →
    byLex c xs ys ≤ 0 → byLex c ys zs ≤ 0 → byLex c xs zs ≤ 0
  | [], _, [], _, _, _, _, _ => by simp [byLex]
  | [], _, _ :: _, _, _, _, _, _ => by simp [byLex]
  | _ :: _, [], _, _, _, _, hxy, _ => by simp [byLex] at hxy
  | _ :: _, _ :: _, [], _, _, _, _, hyz => by simp [byLex] at hyz
  | x :: xs, y :: ys, z :: zs, hxs, hys, hzs, hxy, hyz => by
    have ih := h.byLex_trans (fun w hw => hxs w (List.mem_cons_of_mem _ hw)) (fun w hw => hys w (List.mem_cons_of_mem _ hw))
      (fun w hw => hzs w (List.mem_cons_of_mem _ hw))
    exact h.orElse_trans (hxs x (List.mem_cons_self ..)) (hys y (List.mem_cons_self ..)) (hzs z (List.mem_cons_self ..))
      ih hxy hyz

/-- **Lists are ordered as words are.** -/
theorem byLex (h : Lawful S c) : Lawful (fun xs => ∀ x ∈ xs, S x) (byLex c) where
  anti hx hy := h.byLex_anti hx hy
  trans hx hy hz := h.byLex_trans hx hy hz

end Lawful

/-- What begins alike is compared by the rest. -/
theorem byLex_append_left {S : α → Prop} {c : α → α → Int} (h : Lawful S c) : ∀ {zs : List α} (xs ys : List α),
    (∀ z ∈ zs, S z) → byLex c (zs ++ xs) (zs ++ ys) = byLex c xs ys
  | [], _, _, _ => rfl
  | z :: zs, xs, ys, hz => by
    rw [List.cons_append, List.cons_append, byLex, h.self (hz z (List.mem_cons_self ..)),
      byLex_append_left h xs ys (fun w hw => hz w (List.mem_cons_of_mem _ hw))]
    rfl

theorem byLex_byNat_eq_zero : ∀ {xs ys : List Nat}, byLex byNat xs ys = 0 → xs = ys
  | [], [], _ => rfl
  | [], _ :: _, h => by cases h
  | _ :: _, [], h => by cases h
  | x :: xs, y :: ys, h => by
    rw [byLex, orElse] at h
    by_cases hxy : byNat x y = 0
    · rw [if_neg (fun hne => hne hxy)] at h
      have hhead : x = y := by
        unfold byNat at hxy
        omega
      rw [hhead, byLex_byNat_eq_zero h]
    · rw [if_pos hxy] at h
      exact absurd h hxy

/-- Two comparisons that begin alike have one sign exactly when they go on with one. -/
theorem sign_orElse_iff {m n n' : Int} : (orElse m n).sign = (orElse m n').sign ↔ (m = 0 → n.sign = n'.sign) := by
  unfold orElse
  by_cases h : m = 0
  · simp [h]
  · simp [h]

/-- `xs.sort(c)`: sorted, the order of equals kept. -/
def sort (c : α → α → Int) (xs : List α) : List α := xs.mergeSort (fun x y => decide (c x y ≤ 0))

theorem mem_sort {c : α → α → Int} {xs : List α} {x : α} : x ∈ sort c xs ↔ x ∈ xs := List.mem_mergeSort

/-- **Sorting by a lawful comparator puts no value behind a later one.** -/
theorem pairwise_sort {S : α → Prop} {c : α → α → Int} (h : Lawful S c) {xs : List α} (hS : ∀ x ∈ xs, S x) :
    (sort c xs).Pairwise (fun x y => c x y ≤ 0) := by
  have hmap : sort c xs =
      ((xs.attachWith S hS).mergeSort (fun x y => decide (c x.1 y.1 ≤ 0))).map Subtype.val := by
    rw [List.map_mergeSort (s := fun x y => decide (c x y ≤ 0)) (fun _ _ _ _ => rfl), List.attachWith_map_subtype_val]
    rfl
  rw [hmap, List.pairwise_map]
  refine (List.pairwise_mergeSort (fun x y z hxy hyz => ?_) (fun x y => ?_) _).imp (fun hle => of_decide_eq_true hle)
  · rw [decide_eq_true_eq] at hxy hyz ⊢
    exact h.trans x.2 y.2 z.2 hxy hyz
  · rw [Bool.or_eq_true, decide_eq_true_eq, decide_eq_true_eq]
    exact h.total x.2 y.2

/-- Of two elements of a list one stands before the other. -/
theorem rel_or_rel_of_pairwise {R : α → α → Prop} {a b : α} (hne : a ≠ b) : ∀ {l : List α}, l.Pairwise R → a ∈ l → b ∈ l →
    R a b ∨ R b a
  | x :: l, h, ha, hb => by
    rw [List.pairwise_cons] at h
    rcases List.mem_cons.1 ha with hax | hal
    · rcases List.mem_cons.1 hb with hbx | hbl
      · exact absurd (hax.trans hbx.symm) hne
      · exact .inl (hax ▸ h.1 b hbl)
    · rcases List.mem_cons.1 hb with hbx | hbl
      · exact .inr (hbx ▸ h.1 a hal)
      · exact rel_or_rel_of_pairwise hne h.2 hal hbl

end Comparator
end SignalkDoctor
