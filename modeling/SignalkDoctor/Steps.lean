/-!
# Steps — runs of a labelled step function

A system is a step function `σ → α → Option σ`: the next state, or `none` when the label is not enabled.  A run is the
state after a list of labels (`exec`).  `exec_inv` is the induction every invariant of the development goes through:
what one step keeps, under a condition on the step, every run keeps whose steps meet the condition (`Guarded`).
-/
namespace SignalkDoctor
namespace Steps

variable {σ α : Type}

/-- **A run**: the state after the labels, or `none` when one of them is not enabled where it stands. -/
def exec (step : σ → α → Option σ) : σ → List α → Option σ
  | s, [] => some s
  | s, a :: as => (step s a).bind (fun t => exec step t as)

/-- **Every step of the run meets `G`**, read at the state before it. -/
def Guarded (step : σ → α → Option σ) (G : σ → α → Prop) : σ → List α → Prop
  | _, [] => True
  | s, a :: as => G s a ∧ ∀ t, step s a = some t → Guarded step G t as

instance decidableGuarded (step : σ → α → Option σ) (G : σ → α → Prop) [∀ s a, Decidable (G s a)] :
    ∀ (as : List α) (s : σ), Decidable (Guarded step G s as)
  | [], _ => .isTrue trivial
  | a :: as, s =>
    match ht : step s a with
    | none => decidable_of_iff (G s a) ⟨fun hg => ⟨hg, fun t h => by rw [ht] at h; cases h⟩, fun h => h.1⟩
    | some t =>
      have := decidableGuarded step G as t
      decidable_of_iff (G s a ∧ Guarded step G t as)
        ⟨fun h => ⟨h.1, fun u hu => by rw [ht, Option.some.injEq] at hu; exact hu ▸ h.2⟩, fun h => ⟨h.1, h.2 t ht⟩⟩

theorem exec_cons {step : σ → α → Option σ} {s u : σ} {a : α} {as : List α} (h : exec step s (a :: as) = some u) :
    ∃ t, step s a = some t ∧ exec step t as = some u :=
  Option.bind_eq_some_iff.1 h

theorem exec_append (step : σ → α → Option σ) : ∀ (as bs : List α) (s : σ),
    exec step s (as ++ bs) = (exec step s as).bind (fun t => exec step t bs)
  | [], _, _ => rfl
  | a :: as, bs, s => by
    simp only [List.cons_append, exec, Option.bind_assoc]
    congr 1; funext t
    exact exec_append step as bs t

/-- **The run rule**: an invariant each step keeps under `G` holds at the end of every run whose steps meet `G`. -/
theorem exec_inv {step : σ → α → Option σ} {G : σ → α → Prop} {I : σ → Prop}
    (hstep : ∀ s a t, I s → G s a → step s a = some t → I t) :
    ∀ (as : List α) (s t : σ), I s → Guarded step G s as → exec step s as = some t → I t
  | [], s, t, hI, _, h => by
    simp only [exec, Option.some.injEq] at h
    exact h ▸ hI
  | a :: as, s, t, hI, hg, h => by
    obtain ⟨u, hu, hut⟩ := exec_cons h
    exact exec_inv hstep as u t (hstep s a u hI hg.1 hu) (hg.2 u hu) hut

/-- Labels that each meet a condition of their own make a run whose steps meet it. -/
theorem guarded_of_forall {step : σ → α → Option σ} {G : α → Prop} : ∀ (as : List α) (s : σ), (∀ a ∈ as, G a) →
    Guarded step (fun _ a => G a) s as
  | [], _, _ => trivial
  | a :: as, _, h => ⟨h a (List.mem_cons_self ..), fun t _ => guarded_of_forall as t (fun b hb => h b (List.mem_cons_of_mem a hb))⟩

theorem guarded_append {step : σ → α → Option σ} {G : σ → α → Prop} : ∀ {as bs : List α} {s : σ},
    Guarded step G s (as ++ bs) → Guarded step G s as ∧ ∀ t, exec step s as = some t → Guarded step G t bs
  | [], bs, s, h => ⟨trivial, fun t ht => by cases ht; exact h⟩
  | a :: as, bs, s, h => by
    refine ⟨⟨h.1, fun t ht => (guarded_append (h.2 t ht)).1⟩, fun t ht => ?_⟩
    obtain ⟨u, hu, hut⟩ := exec_cons ht
    exact (guarded_append (h.2 u hu)).2 t hut

/-- A condition on the state and one on the label alone. -/
theorem Guarded.and_forall {step : σ → α → Option σ} {G : σ → α → Prop} {P : α → Prop} : ∀ {as : List α} {s : σ},
    Guarded step G s as → (∀ a ∈ as, P a) → Guarded step (fun s a => G s a ∧ P a) s as
  | [], _, _, _ => trivial
  | a :: _, _, hg, hP => ⟨⟨hg.1, hP a (List.mem_cons_self ..)⟩,
      fun t ht => (hg.2 t ht).and_forall (fun b hb => hP b (List.mem_cons_of_mem a hb))⟩

/-- The run rule for an invariant every step keeps. -/
theorem exec_inv' {step : σ → α → Option σ} {I : σ → Prop} (hstep : ∀ s a t, I s → step s a = some t → I t)
    (as : List α) (s t : σ) (hI : I s) (h : exec step s as = some t) : I t :=
  exec_inv (fun s a t hI _ => hstep s a t hI) as s t hI (guarded_of_forall (G := fun _ => True) as s (fun _ _ => trivial)) h

/-- **The exactness rule**: where a property of the state survives a step exactly when the step meets `G`, it holds at
every point of a run exactly when all steps of the run meet `G`. -/
theorem guarded_iff {step : σ → α → Option σ} {G : σ → α → Prop} {I P : σ → Prop}
    (hstep : ∀ s a t, I s → P s → step s a = some t → I t ∧ (P t ↔ G s a)) :
    ∀ (as : List α) (s u : σ), I s → P s → exec step s as = some u →
      (Guarded step G s as ↔ ∀ bs t, bs <+: as → exec step s bs = some t → P t)
  | [], s, u, _, hP, _ => by
    refine ⟨fun _ bs t hbs ht => ?_, fun _ => trivial⟩
    rw [List.prefix_nil.1 hbs] at ht
    cases ht
    exact hP
  | a :: as, s, u, hI, hP, h => by
    obtain ⟨v, hv, hvu⟩ := exec_cons h
    obtain ⟨hIv, hPv⟩ := hstep s a v hI hP hv
    have hcons : ∀ bs t, exec step s (a :: bs) = some t ↔ exec step v bs = some t := fun bs t => by
      simp [exec, hv]
    constructor
    · rintro ⟨hg, hrest⟩ bs t hbs ht
      cases bs with
      | nil => cases ht; exact hP
      | cons b bs =>
        obtain ⟨rfl, hbs'⟩ := List.cons_prefix_cons.1 hbs
        exact (guarded_iff hstep as v u hIv (hPv.2 hg) hvu).1 (hrest v hv) bs t hbs' ((hcons bs t).1 ht)
    · intro hall
      have hPv' : P v := hall [a] v (List.cons_prefix_cons.2 ⟨rfl, List.nil_prefix⟩) ((hcons [] v).2 rfl)
      refine ⟨hPv.1 hPv', fun t ht => ?_⟩
      rw [hv, Option.some.injEq] at ht
      subst ht
      refine (guarded_iff hstep as v u hIv hPv' hvu).2 (fun bs t hbs ht => ?_)
      exact hall (a :: bs) t (List.cons_prefix_cons.2 ⟨rfl, hbs⟩) ((hcons bs t).2 ht)

end Steps
end SignalkDoctor
