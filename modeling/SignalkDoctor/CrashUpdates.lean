import SignalkDoctor.CrashDisk
/-!
# CrashUpdates — a document updated on a disk that may lose power

A document is read, the next one made of it and of an input, and the file replaced by that; each process has a temporary
file of its own.  Over any run of such updates, failures and power cuts, by one process after the other, the file holds what
a run without any leaves (`exec_updates`): of the updates begun, in their order, it has made all that completed, some of
the others, and none twice.
-/
namespace SignalkDoctor
namespace CrashDisk

open Steps (exec)

variable {κ β π ι : Type} [DecidableEq κ]

inductive UpdateAct (π ι β : Type) where
  /-- A process reads the document, makes the next one and opens its temporary file. -/
  | begin (process : π) (input : ι)
  /-- A later step of the replacement. -/
  | file (a : Act β)

structure Updates (κ β π ι : Type) where
  saver : Saver κ β
  process : π
  running : Option ι
  begun : List ι
  completed : List ι

def Updates.start (target : κ) (content : Option (List β)) (process : π) : Updates κ β π ι :=
  ⟨Saver.start target content, process, none, [], []⟩

section
variable (make : Option (List β) → ι → List β) (target : κ) (tmp : π → κ)

def updateStep (s : Updates κ β π ι) : UpdateAct π ι β → Option (Updates κ β π ι)
  | .begin process input =>
    (replaceStep true target (tmp process) s.saver (.openTmp (make (s.saver.disk.read target) input))).map
      (fun saver => { s with saver, process, running := some input, begun := s.begun ++ [input] })
  | .file (.openTmp _) => none
  | .file .syncDir =>
    (replaceStep true target (tmp s.process) s.saver .syncDir).map
      (fun saver => { s with saver := saver, completed := s.completed ++ s.running.toList })
  | .file a => (replaceStep true target (tmp s.process) s.saver a).map (fun saver => { s with saver := saver })

/-- What the updates leave when each completes. -/
def leave (content : Option (List β)) (inputs : List ι) : Option (List β) :=
  inputs.foldl (fun content input => some (make content input)) content

/-- **The content some of the updates leave**: all that completed, in order, and no other than were begun. -/
def Updates.Made (content : Option (List β)) (s : Updates κ β π ι) (found : Option (List β)) : Prop :=
  ∃ done : List ι, s.completed.Sublist done ∧ done.Sublist s.begun ∧ found = leave make content done

/-- The update under way makes the content `c`. -/
def Updates.Making (content : Option (List β)) (s : Updates κ β π ι) (c : List β) : Prop :=
  ∃ input done, s.running = some input ∧ s.completed.Sublist done ∧ (done ++ [input]).Sublist s.begun ∧
    c = make (leave make content done) input

structure Updates.Inv (content : Option (List β)) (s : Updates κ β π ι) : Prop where
  kept : Kept target (tmp s.process) s.saver
  known : ∀ found, s.saver.Known found → s.Made make content found
  /-- What is being written is the update under way. -/
  under : ∀ c, s.saver.phase.content = some c → s.Making make content c

end

section
variable {make : Option (List β) → ι → List β} {target : κ} {tmp : π → κ} {content : Option (List β)}
  {s t : Updates κ β π ι}

theorem leave_concat (content : Option (List β)) (done : List ι) (input : ι) :
    leave make content (done ++ [input]) = some (make (leave make content done) input) := by
  simp only [leave, List.foldl_append, List.foldl_cons, List.foldl_nil]

omit [DecidableEq κ] in
theorem Updates.Making.made {c : List β} (h : s.Making make content c) : s.Made make content (some c) := by
  obtain ⟨input, done, -, hdone, hbegun, rfl⟩ := h
  exact ⟨done ++ [input], hdone.trans (List.sublist_append_left ..), hbegun, (leave_concat ..).symm⟩

/-- **An update begun** makes its content of one that the earlier ones left. -/
theorem inv_begin (h : s.Inv make target tmp content) (hne : ∀ p, tmp p ≠ target) {process : π} {input : ι}
    (hstep : updateStep make target tmp s (.begin process input) = some t) : t.Inv make target tmp content := by
  obtain ⟨saver, hsaver, rfl⟩ := Option.map_eq_some_iff.1 hstep
  have hidle : s.saver.phase = .idle := by
    cases step_cases hsaver with
    | openTmp body hp => exact hp
  have hkept := h.kept.renamed hidle (tmp process)
  have hgrow : s.begun.Sublist (s.begun ++ [input]) := List.sublist_append_left ..
  obtain ⟨done, hdone, hbegun, hread⟩ := h.known _ h.kept.known_read
  refine ⟨kept_step (hne process) _ _ _ hkept hsaver, fun found hfound => ?_, fun c hc => ?_⟩
  · have hold : s.Made make content found := by
      rcases step_known hsaver hfound with hfound | ⟨c, hc, rfl⟩
      · exact h.known found hfound
      · exact (h.under c hc).made
    obtain ⟨done', hdone', hbegun', hfound'⟩ := hold
    exact ⟨done', hdone', hbegun'.trans hgrow, hfound'⟩
  · cases step_cases hsaver with
    | openTmp body hp =>
      cases hc
      exact ⟨input, done, rfl, hdone, hbegun.append (List.Sublist.refl _), by rw [hread]⟩

/-- **The directory synced**, the update under way is complete. -/
theorem inv_syncDir (h : s.Inv make target tmp content) (hne : ∀ p, tmp p ≠ target)
    (hstep : updateStep make target tmp s (.file .syncDir) = some t) : t.Inv make target tmp content := by
  obtain ⟨saver, hsaver, rfl⟩ := Option.map_eq_some_iff.1 hstep
  refine ⟨kept_step (hne s.process) _ _ _ h.kept hsaver, fun found hfound => ?_, fun c hc => ?_⟩
  · obtain ⟨c, hc, rfl⟩ := syncDir_known hsaver hfound
    obtain ⟨input, done, hrun, hdone, hbegun, rfl⟩ := h.under c hc
    refine ⟨done ++ [input], ?_, hbegun, (leave_concat ..).symm⟩
    rw [hrun]
    exact hdone.append (List.Sublist.refl _)
  · cases step_cases hsaver with
    | syncDir c hp => cases hc

/-- **A step of the file** that opens nothing and completes nothing. -/
theorem inv_saver (h : s.Inv make target tmp content) (hne : ∀ p, tmp p ≠ target) {a : Act β}
    (hopen : ∀ body, a ≠ .openTmp body) (hwhole : ∀ n, a = .write n → n = 0) {saver : Saver κ β}
    (hsaver : replaceStep true target (tmp s.process) s.saver a = some saver) :
    Updates.Inv make target tmp content { s with saver := saver } := by
  refine ⟨kept_step (hne s.process) _ _ _ h.kept hsaver, fun found hfound => ?_, fun c hc => ?_⟩
  · rcases step_known hsaver hfound with hfound | ⟨c, hc, rfl⟩
    · exact h.known found hfound
    · exact (h.under c hc).made
  · rcases step_content hsaver hwhole hc with hc | rfl
    · exact h.under c hc
    · exact absurd rfl (hopen c)

theorem inv_file (h : s.Inv make target tmp content) (hne : ∀ p, tmp p ≠ target) {a : Act β}
    (hwhole : ∀ n, a = .write n → n = 0)
    (hstep : updateStep make target tmp s (.file a) = some t) : t.Inv make target tmp content := by
  have hsome : (∀ body, a ≠ .openTmp body) →
      (replaceStep true target (tmp s.process) s.saver a).map (fun saver => { s with saver := saver }) = some t →
        t.Inv make target tmp content := by
    intro hopen hstep
    obtain ⟨saver, hsaver, rfl⟩ := Option.map_eq_some_iff.1 hstep
    exact inv_saver h hne hopen hwhole hsaver
  cases a with
  | openTmp body => cases hstep
  | syncDir => exact inv_syncDir h hne hstep
  | write | sync | rename | fail | cut => exact hsome (by simp) hstep

end

/-- **No completed update is lost, none is made twice or out of order**, whatever fails and whenever the power is cut. -/
theorem exec_updates (make : Option (List β) → ι → List β) {target : κ} {tmp : π → κ} (hne : ∀ p, tmp p ≠ target)
    (content : Option (List β)) (process : π) (acts : List (UpdateAct π ι β)) (s : Updates κ β π ι)
    (hwhole : ∀ a ∈ acts, ∀ n, a = .file (.write n) → n = 0)
    (hrun : exec (updateStep make target tmp) (Updates.start target content process) acts = some s) :
    s.Made make content (s.saver.disk.read target) := by
  have hstart : Updates.Inv make target tmp content (Updates.start target content process) := by
    refine ⟨kept_start target (tmp process) content, fun found hfound => ?_, fun c hc => by cases hc⟩
    rcases hfound with rfl | ⟨c, hc, -⟩
    · exact ⟨[], List.Sublist.refl _, List.Sublist.refl _, rfl⟩
    · cases hc
  have hinv : s.Inv make target tmp content := by
    refine Steps.exec_inv (G := fun _ a => ∀ n, a = .file (.write n) → n = 0) (I := fun s => s.Inv make target tmp content)
      ?_ acts _ s hstart (Steps.guarded_of_forall acts _ hwhole) hrun
    intro s a t hs hg hstep
    cases a with
    | begin process input => exact inv_begin hs hne hstep
    | file a => exact inv_file hs hne (fun n hn => hg n (by rw [hn])) hstep
  exact hinv.known _ hinv.kept.known_read

end CrashDisk
end SignalkDoctor
