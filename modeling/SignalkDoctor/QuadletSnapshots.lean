import Mathlib.Data.List.Sort
import Mathlib.Logic.Function.Basic
import SignalkDoctor.Comparator
import SignalkDoctor.Quadlet
import SignalkDoctor.Restore
import SignalkDoctor.Retention
import SignalkDoctor.UnixPath
/-!
# QuadletSnapshots — snapshots of the unit files, and the way back (`src/quadlet/rewriter.ts`, `src/recovery/restore.ts`)

A rewrite copies the unit file first and then drops all but the ten newest copies of it; the record of the last known good
image names the copy a recovery puts back.  `storeStep` is any order of rewrites, records, recoveries and edits.
`snapshot_kept` says how long a copy is there, `recoverOne_rolls_back` that a recovery from it undoes the rewrite.
-/
namespace SignalkDoctor
namespace Quadlet

open Function (update)
open Restore (LastGood LastGoodEntry QUADLET_TO_UNIT RecoverResult)
open Retention (Retains)
open Steps (exec exec_inv)

structure Snapshot where
  name : String
  mtime : Nat
  content : Text
  deriving DecidableEq, Repr

/-- The unit files by name, the directory of the snapshots, the record, and all snapshots there have been. -/
structure Store where
  quadlets : String → Option Text
  snapshots : List Snapshot
  lastGood : Option LastGood
  history : List Snapshot

/-! ## Rewrites -/

/-- The copy's name; `ts` is the time with its colons and stops replaced. -/
def snapshotName (ts quadletName : String) : String := ts ++ "-" ++ quadletName

/-- The name ends with a dash and the unit file's. -/
def isSnapshotOf (quadletName : String) (s : Snapshot) : Bool := ('-' :: quadletName.toList).isSuffixOf s.name.toList

def snapshotPath (snapshotDir name : String) : String := String.ofList (UnixPath.join snapshotDir.toList name.toList)

/-- `b.m - a.m` -/
def newestFirst (a b : Snapshot) : Int := b.mtime - a.mtime

def keepSnapshots : Nat := 10

def toPrune (quadletName : String) (keep : Nat) (snapshots : List Snapshot) : List Snapshot :=
  let all := snapshots.filter (isSnapshotOf quadletName)
  if all.length ≤ keep then [] else (Comparator.sort newestFirst all).drop keep

/-- `pruneSnapshots`; `unlinks` says which removals succeed. -/
def pruneSnapshots (unlinks : String → Bool) (quadletName : String) (keep : Nat) (snapshots : List Snapshot) :
    List Snapshot :=
  snapshots.filter (fun s => !((toPrune quadletName keep snapshots).contains s && unlinks s.name))

/-- What a rewrite meets: the time of the copy, and the message of each call that fails. -/
structure RewriteSteps where
  ts : String
  mtime : Nat
  readError : String
  copyError : Option String
  /-- What the new file reads as where `fh.write` stops short, which nothing notices. -/
  shortTo : Option Text
  writeError : Option String
  fsyncError : Option String
  pruneError : Option String
  unlinks : String → Bool

/-- A copy over one of the same name replaces it. -/
def Store.copy (s : Store) (snapshot : Snapshot) : Store :=
  { s with
    snapshots := s.snapshots.filter (fun x => x.name ≠ snapshot.name) ++ [snapshot]
    history := s.history ++ [snapshot] }

/-- `rewriteQuadletImage`: the path of the copy and the previous image. -/
def rewriteQuadletImage (snapshotDir quadletName : String) (newImage : Text) (steps : RewriteSteps) (s : Store) :
    Except String (String × Text) × Store :=
  match s.quadlets quadletName with
  | none => (.error steps.readError, s)
  | some original =>
    match steps.copyError with
    | some e => (.error e, s)
    | none =>
      let name := snapshotName steps.ts quadletName
      let copied := s.copy ⟨name, steps.mtime, original⟩
      match rewriteImageLine original newImage with
      | .error e => (.error e, copied)
      | .ok (body, previous) =>
        match steps.writeError with
        | some e => (.error e, copied)
        | none =>
          let written := { copied with quadlets := update copied.quadlets quadletName (some (steps.shortTo.getD body)) }
          match steps.fsyncError <|> steps.pruneError with
          | some e => (.error e, written)
          | none =>
            (.ok (snapshotPath snapshotDir name, previous),
              { written with snapshots := pruneSnapshots steps.unlinks quadletName keepSnapshots written.snapshots })

/-! ## The record -/

/-- `quadlets[quadletName] = entry` -/
def setEntry (quadletName : String) (entry : LastGoodEntry) :
    List (String × LastGoodEntry) → List (String × LastGoodEntry)
  | [] => [(quadletName, entry)]
  | e :: es => if e.1 = quadletName then (quadletName, entry) :: es else e :: setEntry quadletName entry es

theorem mem_keys_setEntry {quadletName : String} {entry : LastGoodEntry} {k : String} :
    ∀ {es : List (String × LastGoodEntry)}, k ∈ (setEntry quadletName entry es).map Prod.fst ↔
      k = quadletName ∨ k ∈ es.map Prod.fst
  | [] => by simp [setEntry]
  | e :: es => by
    unfold setEntry
    by_cases he : e.1 = quadletName
    · rw [if_pos he, List.map_cons, List.map_cons, List.mem_cons, List.mem_cons, he]
      tauto
    · rw [if_neg he, List.map_cons, List.map_cons, List.mem_cons, List.mem_cons, mem_keys_setEntry]
      tauto

theorem nodup_keys_setEntry {quadletName : String} {entry : LastGoodEntry} : ∀ {es : List (String × LastGoodEntry)},
    (es.map Prod.fst).Nodup → ((setEntry quadletName entry es).map Prod.fst).Nodup
  | [], _ => by simp [setEntry]
  | e :: es, h => by
    rw [List.map_cons, List.nodup_cons] at h
    unfold setEntry
    by_cases he : e.1 = quadletName
    · rw [if_pos he, List.map_cons, List.nodup_cons]
      exact he ▸ h
    · rw [if_neg he, List.map_cons, List.nodup_cons, mem_keys_setEntry]
      exact ⟨fun hmem => hmem.elim he h.1, nodup_keys_setEntry h.2⟩

theorem lookup_setEntry {quadletName : String} {entry : LastGoodEntry} (k : String) :
    ∀ es : List (String × LastGoodEntry),
      (setEntry quadletName entry es).lookup k = if k = quadletName then some entry else es.lookup k
  | [] => by
    by_cases hk : k = quadletName
    · simp [setEntry, hk]
    · simp [setEntry, List.lookup_cons, hk, beq_eq_false_iff_ne.2 hk]
  | (n, e) :: es => by
    unfold setEntry
    by_cases hn : n = quadletName
    · rw [if_pos hn]
      by_cases hk : k = quadletName
      · simp [hk]
      · simp [List.lookup_cons, hk, hn, beq_eq_false_iff_ne.2 hk]
    · rw [if_neg hn, List.lookup_cons, List.lookup_cons, lookup_setEntry k es]
      by_cases hk : k = quadletName
      · simp [hk, beq_eq_false_iff_ne.2 (Ne.symm hn)]
      · simp [hk]

def writeLastGood (quadletName : String) (entry : LastGoodEntry) (updatedAt : String) (s : Store) : Store :=
  let existing : LastGood := s.lastGood.getD ⟨"", [], List.nodup_nil⟩
  { s with lastGood := some ⟨updatedAt, setEntry quadletName entry existing.quadlets,
      nodup_keys_setEntry existing.keys_nodup⟩ }

/-- `lg?.quadlets[quadletName]` -/
def Store.entry (s : Store) (quadletName : String) : Option LastGoodEntry :=
  s.lastGood.bind (·.quadlets.lookup quadletName)

theorem entry_writeLastGood (quadletName : String) (entry : LastGoodEntry) (updatedAt : String) (s : Store) (k : String) :
    (writeLastGood quadletName entry updatedAt s).entry k = if k = quadletName then some entry else s.entry k := by
  unfold Store.entry writeLastGood
  rw [Option.bind_some, lookup_setEntry]
  cases s.lastGood <;> rfl

/-! ## The way back -/

/-- What a recovery meets: the message of a copy from no file, and of each call that fails. -/
structure RecoverSteps where
  missingError : String
  copyError : Option String
  renameError : Option String
  fsyncError : Option String
  daemonReload : Except String Unit
  restartUnit : String → Except String Unit

/-- The file at a path under the snapshots. -/
def Store.snapshotAt (snapshotDir : String) (s : Store) (path : String) : Option Text :=
  (s.snapshots.find? (fun x => snapshotPath snapshotDir x.name = path)).map (·.content)

/-- `restoreOne` -/
def restoreOne (snapshotDir quadletName path : String) (steps : RecoverSteps) (s : Store) : Except String Unit × Store :=
  match s.snapshotAt snapshotDir path with
  | none => (.error steps.missingError, s)
  | some content =>
    match steps.copyError <|> steps.renameError with
    | some e => (.error e, s)
    | none =>
      let restored := { s with quadlets := update s.quadlets quadletName (some content) }
      match steps.fsyncError with
      | some e => (.error e, restored)
      | none => (.ok (), restored)

/-- `daemonReload()`, and the restart of the unit if there is one. -/
def reloadAndRestart (quadletName : String) (steps : RecoverSteps) : Except String Unit :=
  match steps.daemonReload with
  | .error e => .error e
  | .ok _ =>
    match QUADLET_TO_UNIT.lookup quadletName with
    | some unit => steps.restartUnit unit
    | none => .ok ()

/-- `recoverOne` -/
def recoverOne (snapshotDir quadletName : String) (steps : RecoverSteps) (s : Store) : RecoverResult × Store :=
  match s.entry quadletName with
  | none => (⟨false, [], ["no last-known-good entry for " ++ quadletName]⟩, s)
  | some entry =>
    match restoreOne snapshotDir quadletName entry.snapshotPath steps s with
    | (.error e, after) => (⟨false, [], [e]⟩, after)
    | (.ok _, after) =>
      let restored : List Restore.Restored := [⟨quadletName, entry.snapshotPath, entry.tag⟩]
      match reloadAndRestart quadletName steps with
      | .error e => (⟨false, restored, [e]⟩, after)
      | .ok _ => (⟨true, restored, []⟩, after)

/-! ## Runs -/

inductive StoreAct where
  | rewrite (quadletName : String) (newImage : Text) (steps : RewriteSteps)
  | record (quadletName : String) (entry : LastGoodEntry) (updatedAt : String)
  /-- A record whose write stops short: the file is no JSON any more. -/
  | recordShort
  | recover (quadletName : String) (steps : RecoverSteps)
  /-- Someone else writes or removes a unit file. -/
  | edit (quadletName : String) (content : Option Text)

def storeStep (snapshotDir : String) (s : Store) : StoreAct → Option Store
  | .rewrite quadletName newImage steps => some (rewriteQuadletImage snapshotDir quadletName newImage steps s).2
  | .record quadletName entry updatedAt => some (writeLastGood quadletName entry updatedAt s)
  | .recordShort => some { s with lastGood := none }
  | .recover quadletName steps => some (recoverOne snapshotDir quadletName steps s).2
  | .edit quadletName content => some { s with quadlets := update s.quadlets quadletName content }

/-- No name of a copy ends like one of the other's. -/
def Apart (q q' : String) : Prop := ¬ '-' :: q.toList <:+ '-' :: q'.toList ∧ ¬ '-' :: q'.toList <:+ '-' :: q.toList

/-- A copy is later than all before it and named otherwise; its unit file is `q`, or none whose copies are named like
`q`'s. -/
def Later (q : String) (s : Store) : StoreAct → Prop
  | .rewrite quadletName _ steps =>
    (quadletName = q ∨ Apart q quadletName) ∧ (∀ x ∈ s.history, x.mtime < steps.mtime) ∧
      (∀ x ∈ s.history, x.name ≠ snapshotName steps.ts quadletName) ∧
      ∃ n : UnixPath.Name, n.text = (snapshotName steps.ts quadletName).toList
  | _ => True

/-! ## What a prune spares -/

theorem sort_newestFirst {xs : List Snapshot} (h : xs.Pairwise (fun a b => a.mtime < b.mtime)) :
    Comparator.sort newestFirst xs = xs.reverse := by
  have hlawful : Comparator.Lawful (fun _ => True) newestFirst :=
    Comparator.Lawful.swap (Comparator.Lawful.comap Comparator.lawful_byNat (fun s : Snapshot => s.mtime))
  have hrev : xs.reverse.Pairwise (fun a b => newestFirst a b ≤ 0) :=
    List.pairwise_reverse.2 (h.imp (fun {a b} hlt => by unfold newestFirst; omega))
  refine List.Perm.eq_of_pairwise (fun a b ha hb (hab : newestFirst a b ≤ 0) (hba : newestFirst b a ≤ 0) => ?_)
    (Comparator.pairwise_sort hlawful (fun _ _ => trivial)) hrev
    ((List.mergeSort_perm ..).trans (List.reverse_perm _).symm)
  by_contra hne
  unfold newestFirst at hab hba
  have := Comparator.rel_or_rel_of_pairwise hne h (Comparator.mem_sort.1 ha) (List.mem_reverse.1 hb)
  omega

section
variable {quadletName : String} {snapshots : List Snapshot}

theorem mem_toPrune_iff (keep : Nat) (h : (snapshots.filter (isSnapshotOf quadletName)).Pairwise (fun a b => a.mtime < b.mtime))
    {x : Snapshot} : x ∈ toPrune quadletName keep snapshots ↔
      x ∈ (snapshots.filter (isSnapshotOf quadletName)).rdrop keep := by
  unfold toPrune
  generalize snapshots.filter (isSnapshotOf quadletName) = all at h
  dsimp only
  split
  · rename_i hlength
    rw [List.rdrop, Nat.sub_eq_zero_of_le hlength, List.take_zero]
  · rw [sort_newestFirst h, List.drop_reverse, List.mem_reverse, List.rdrop]

/-- **A prune spares the newest copies of its unit file**, on a directory in the order of time. -/
theorem toPrune_spares (keep : Nat) (h : (snapshots.filter (isSnapshotOf quadletName)).Pairwise (fun a b => a.mtime < b.mtime))
    {x : Snapshot} (hx : x ∈ (snapshots.filter (isSnapshotOf quadletName)).rtake keep) :
    x ∉ toPrune quadletName keep snapshots := by
  rw [mem_toPrune_iff keep h]
  generalize snapshots.filter (isSnapshotOf quadletName) = all at h hx
  have hnodup : (all.rdrop keep ++ all.rtake keep).Nodup := by
    have hsplit : all.rdrop keep ++ all.rtake keep = all := List.take_append_drop _ _
    rw [hsplit]
    exact h.imp (fun {a b} hlt heq => by rw [heq] at hlt; exact lt_irrefl _ hlt)
  exact fun hmem => (List.nodup_append.1 hnodup).2.2 x hmem x hx rfl

/-- **It spares no others** if all its removals succeed. -/
theorem filter_pruneSnapshots {unlinks : String → Bool} (keep : Nat)
    (h : (snapshots.filter (isSnapshotOf quadletName)).Pairwise (fun a b => a.mtime < b.mtime))
    (hunlinks : ∀ n, unlinks n = true) :
    (pruneSnapshots unlinks quadletName keep snapshots).filter (isSnapshotOf quadletName) =
      (snapshots.filter (isSnapshotOf quadletName)).rtake keep := by
  have hmem := fun x => mem_toPrune_iff (x := x) keep h
  have hspares := fun x => toPrune_spares (x := x) keep h
  rw [pruneSnapshots, List.filter_comm]
  generalize snapshots.filter (isSnapshotOf quadletName) = all at hmem hspares ⊢
  have hsplit : all.rdrop keep ++ all.rtake keep = all := List.take_append_drop _ _
  conv_lhs => rw [← hsplit]
  rw [List.filter_append, List.filter_eq_nil_iff.2, List.nil_append, List.filter_eq_self.2]
  · intro x hx
    simp [hspares x hx]
  · intro x hx
    simp [(hmem x).2 hx, hunlinks]

end

theorem of_mem_toPrune {quadletName : String} {keep : Nat} {snapshots : List Snapshot} {x : Snapshot}
    (hx : x ∈ toPrune quadletName keep snapshots) : isSnapshotOf quadletName x = true := by
  unfold toPrune at hx
  dsimp only at hx
  split at hx
  · cases hx
  · exact (List.mem_filter.1 (Comparator.mem_sort.1 (List.mem_of_mem_drop hx))).2

theorem isSnapshotOf_iff {q : String} {x : Snapshot} : isSnapshotOf q x = true ↔ '-' :: q.toList <:+ x.name.toList :=
  List.isSuffixOf_iff_suffix

theorem isSnapshotOf_snapshotName {q ts : String} {mtime : Nat} {content : Text} :
    isSnapshotOf q ⟨snapshotName ts q, mtime, content⟩ = true := by
  rw [isSnapshotOf_iff]
  exact ⟨ts.toList, by simp [snapshotName]⟩

/-- No copy is named like those of both. -/
theorem Apart.not_both {q q' : String} (h : Apart q q') {x : Snapshot} (hq : isSnapshotOf q x = true) :
    isSnapshotOf q' x = false := by
  rw [Bool.eq_false_iff]
  intro hq'
  rcases List.suffix_or_suffix_of_suffix (isSnapshotOf_iff.1 hq) (isSnapshotOf_iff.1 hq') with hle | hle
  · exact h.1 hle
  · exact h.2 hle

/-! ## The invariant -/

/-- **What holds of the copies of `q` in every run**: they come in the order of time under names of their own, and the ten
newest are there. -/
structure Sound (q : String) (s : Store) : Prop where
  sorted : s.history.Pairwise (fun a b => a.mtime < b.mtime)
  distinct : s.history.Pairwise (fun a b => a.name ≠ b.name)
  named : ∀ x ∈ s.history, ∃ n : UnixPath.Name, n.text = x.name.toList
  sublist : s.snapshots.Sublist s.history
  retains : Retains keepSnapshots (s.history.filter (isSnapshotOf q)) (s.snapshots.filter (isSnapshotOf q))

theorem Sound.sorted_snapshots {q : String} {s : Store} (h : Sound q s) :
    (s.snapshots.filter (isSnapshotOf q)).Pairwise (fun a b => a.mtime < b.mtime) :=
  (h.sorted.sublist h.sublist).sublist List.filter_sublist

theorem Sound.nodup {q : String} {s : Store} (h : Sound q s) : (s.history.filter (isSnapshotOf q)).Nodup :=
  (h.sorted.sublist List.filter_sublist).imp (fun {a b} hlt heq => by rw [heq] at hlt; exact lt_irrefl _ hlt)

theorem Sound.init (q : String) {s : Store} (hsnapshots : s.snapshots = []) (hhistory : s.history = []) : Sound q s where
  sorted := by rw [hhistory]; exact .nil
  distinct := by rw [hhistory]; exact .nil
  named := by rw [hhistory]; simp
  sublist := by rw [hsnapshots, hhistory]
  retains := by rw [hsnapshots, hhistory]; exact .refl _ _

theorem Sound.of_eq {q : String} {s t : Store} (h : Sound q s) (hsnapshots : t.snapshots = s.snapshots)
    (hhistory : t.history = s.history) : Sound q t where
  sorted := hhistory ▸ h.sorted
  distinct := hhistory ▸ h.distinct
  named := hhistory ▸ h.named
  sublist := by rw [hsnapshots, hhistory]; exact h.sublist
  retains := by rw [hsnapshots, hhistory]; exact h.retains

section
variable {q : String} {s : Store}

theorem Store.copy_snapshots (h : s.snapshots.Sublist s.history) {x : Snapshot} (hfresh : ∀ y ∈ s.history, y.name ≠ x.name) :
    (s.copy x).snapshots = s.snapshots ++ [x] := by
  rw [Store.copy, List.filter_eq_self.2 (fun y hy => decide_eq_true (hfresh y (h.subset hy)))]

/-- A copy keeps the invariant. -/
theorem Sound.copy (h : Sound q s) {x : Snapshot} (htime : ∀ y ∈ s.history, y.mtime < x.mtime)
    (hfresh : ∀ y ∈ s.history, y.name ≠ x.name) (hname : ∃ n : UnixPath.Name, n.text = x.name.toList) :
    Sound q (s.copy x) where
  sorted := List.pairwise_append.2 ⟨h.sorted, List.pairwise_singleton .., fun a ha b hb => List.mem_singleton.1 hb ▸ htime a ha⟩
  distinct :=
    List.pairwise_append.2 ⟨h.distinct, List.pairwise_singleton .., fun a ha b hb => List.mem_singleton.1 hb ▸ hfresh a ha⟩
  named y hy := by
    rcases List.mem_append.1 hy with hy | hy
    · exact h.named y hy
    · exact List.mem_singleton.1 hy ▸ hname
  sublist := by
    rw [Store.copy_snapshots h.sublist hfresh]
    exact h.sublist.append (.refl _)
  retains := by
    rw [Store.copy_snapshots h.sublist hfresh]
    show Retains _ ((s.history ++ [x]).filter _) _
    rw [List.filter_append, List.filter_append]
    by_cases hq : isSnapshotOf q x = true
    · rw [List.filter_cons_of_pos hq]
      exact h.retains.add x
    · rw [List.filter_cons_of_neg hq, List.filter_nil, List.append_nil, List.append_nil]
      exact h.retains

/-- **A prune keeps the invariant**, whichever of its removals succeed. -/
theorem Sound.prune (h : Sound q s) {quadletName : String} (hname : quadletName = q ∨ Apart q quadletName)
    (unlinks : String → Bool) :
    Sound q { s with snapshots := pruneSnapshots unlinks quadletName keepSnapshots s.snapshots } where
  sorted := h.sorted
  distinct := h.distinct
  named := h.named
  sublist := List.filter_sublist.trans h.sublist
  retains := by
    show Retains _ _ ((pruneSnapshots unlinks quadletName keepSnapshots s.snapshots).filter _)
    rw [pruneSnapshots, List.filter_comm]
    refine h.retains.filter h.nodup (fun x hx => ?_)
    have hspared : x ∉ toPrune quadletName keepSnapshots s.snapshots := by
      rcases hname with rfl | hapart
      · exact toPrune_spares keepSnapshots h.sorted_snapshots hx
      · intro hmem
        have hq := (List.mem_filter.1 ((List.drop_sublist _ _).subset hx)).2
        exact absurd (of_mem_toPrune hmem) (by rw [hapart.not_both hq]; exact Bool.false_ne_true)
    simp [hspared]

/-- **What a rewrite does**: nothing, or a copy; then a new text of the unit file or not; then a prune or not. -/
theorem rewriteQuadletImage_cases (snapshotDir quadletName : String) (newImage : Text) (steps : RewriteSteps) (s : Store) :
    (rewriteQuadletImage snapshotDir quadletName newImage steps s).2 = s ∨
      ∃ original quadlets, s.quadlets quadletName = some original ∧
        let copied := { s.copy ⟨snapshotName steps.ts quadletName, steps.mtime, original⟩ with quadlets := quadlets }
        ((rewriteQuadletImage snapshotDir quadletName newImage steps s).2 = copied ∨
          (rewriteQuadletImage snapshotDir quadletName newImage steps s).2 =
            { copied with snapshots := pruneSnapshots steps.unlinks quadletName keepSnapshots copied.snapshots }) := by
  unfold rewriteQuadletImage
  cases hfile : s.quadlets quadletName with
  | none => exact .inl rfl
  | some original =>
    cases steps.copyError with
    | some e => exact .inl rfl
    | none =>
      right
      dsimp only
      cases rewriteImageLine original newImage with
      | error e => exact ⟨original, _, rfl, .inl rfl⟩
      | ok r =>
        cases steps.writeError with
        | some e => exact ⟨original, _, rfl, .inl rfl⟩
        | none =>
          dsimp only
          cases steps.fsyncError <|> steps.pruneError with
          | some e => exact ⟨original, _, rfl, .inl rfl⟩
          | none => exact ⟨original, _, rfl, .inr rfl⟩

/-- **What a rewrite that succeeds leaves.** -/
theorem rewriteQuadletImage_ok {snapshotDir quadletName path : String} {newImage previous : Text} {steps : RewriteSteps}
    {s : Store} (h : (rewriteQuadletImage snapshotDir quadletName newImage steps s).1 = .ok (path, previous)) :
    ∃ original body, s.quadlets quadletName = some original ∧ rewriteImageLine original newImage = .ok (body, previous) ∧
      path = snapshotPath snapshotDir (snapshotName steps.ts quadletName) ∧
      let copied := s.copy ⟨snapshotName steps.ts quadletName, steps.mtime, original⟩
      (rewriteQuadletImage snapshotDir quadletName newImage steps s).2 =
        { copied with
          quadlets := update s.quadlets quadletName (some (steps.shortTo.getD body))
          snapshots := pruneSnapshots steps.unlinks quadletName keepSnapshots copied.snapshots } := by
  unfold rewriteQuadletImage at h ⊢
  cases hfile : s.quadlets quadletName with
  | none => simp only [hfile] at h; cases h
  | some original =>
    simp only [hfile] at h ⊢
    cases hcopy : steps.copyError with
    | some e => simp only [hcopy] at h; cases h
    | none =>
      simp only [hcopy] at h ⊢
      cases hline : rewriteImageLine original newImage with
      | error e => simp only [hline] at h; cases h
      | ok r =>
        simp only [hline] at h ⊢
        cases hwrite : steps.writeError with
        | some e => simp only [hwrite] at h; cases h
        | none =>
          simp only [hwrite] at h ⊢
          cases hend : steps.fsyncError <|> steps.pruneError with
          | some e => simp only [hend] at h; cases h
          | none =>
            simp only [hend, Except.ok.injEq, Prod.mk.injEq] at h ⊢
            exact ⟨original, r.1, rfl, by rw [hline, ← h.2], h.1.symm, rfl⟩

/-- A recovery leaves the directory of the copies as it is. -/
theorem recoverOne_store (snapshotDir quadletName : String) (steps : RecoverSteps) (s : Store) :
    ∃ quadlets, (recoverOne snapshotDir quadletName steps s).2 = { s with quadlets := quadlets } := by
  have hone : ∀ path, ∃ quadlets, (restoreOne snapshotDir quadletName path steps s).2 = { s with quadlets := quadlets } := by
    intro path
    unfold restoreOne
    split
    · exact ⟨_, rfl⟩
    · split
      · exact ⟨_, rfl⟩
      · dsimp only
        split <;> exact ⟨_, rfl⟩
  unfold recoverOne
  split
  · exact ⟨_, rfl⟩
  · rename_i entry _
    have h := hone entry.snapshotPath
    split
    · rename_i hres
      rw [hres] at h
      exact h
    · rename_i hres
      rw [hres] at h
      dsimp only
      split <;> exact h

/-- **A step keeps the invariant, and the history grows.** -/
theorem Sound.step (snapshotDir : String) {t : Store} {a : StoreAct} (h : Sound q s) (hlater : Later q s a)
    (ht : storeStep snapshotDir s a = some t) : Sound q t ∧ s.history <+: t.history := by
  cases a with
  | rewrite quadletName newImage steps =>
    cases ht
    obtain ⟨hname, htime, hfresh, hnamed⟩ := hlater
    rcases rewriteQuadletImage_cases snapshotDir quadletName newImage steps s with heq | ⟨original, quadlets, -, hcases⟩
    · rw [heq]
      exact ⟨h, List.prefix_refl _⟩
    · have hcopy := h.copy (x := ⟨snapshotName steps.ts quadletName, steps.mtime, original⟩) htime hfresh hnamed
      have hgrows : s.history <+: (s.copy ⟨snapshotName steps.ts quadletName, steps.mtime, original⟩).history :=
        List.prefix_append ..
      rcases hcases with heq | heq
      · rw [heq]
        exact ⟨hcopy.of_eq rfl rfl, hgrows⟩
      · rw [heq]
        exact ⟨(hcopy.prune hname steps.unlinks).of_eq rfl rfl, hgrows⟩
  | record quadletName entry updatedAt =>
    cases ht
    exact ⟨h.of_eq rfl rfl, List.prefix_refl _⟩
  | recordShort =>
    cases ht
    exact ⟨h.of_eq rfl rfl, List.prefix_refl _⟩
  | recover quadletName steps =>
    cases ht
    obtain ⟨quadlets, heq⟩ := recoverOne_store snapshotDir quadletName steps s
    rw [heq]
    exact ⟨h.of_eq rfl rfl, List.prefix_refl _⟩
  | edit quadletName content =>
    cases ht
    exact ⟨h.of_eq rfl rfl, List.prefix_refl _⟩

theorem Sound.run (snapshotDir : String) {acts : List StoreAct} {t : Store} (h : Sound q s)
    (hguard : Steps.Guarded (storeStep snapshotDir) (Later q) s acts) (ht : exec (storeStep snapshotDir) s acts = some t) :
    Sound q t ∧ s.history <+: t.history :=
  exec_inv (I := fun u => Sound q u ∧ s.history <+: u.history)
    (fun _ _ _ hI hlater hu => ⟨(hI.1.step snapshotDir hlater hu).1, hI.2.trans (hI.1.step snapshotDir hlater hu).2⟩) acts s t
    ⟨h, List.prefix_refl _⟩ hguard ht

end

/-- The copies of `q` there have been. -/
def Store.copiesOf (q : String) (s : Store) : List Snapshot := s.history.filter (isSnapshotOf q)

theorem sound_of_run {snapshotDir q : String} {s t : Store} {acts : List StoreAct} (hsnapshots : s.snapshots = [])
    (hhistory : s.history = []) (hguard : Steps.Guarded (storeStep snapshotDir) (Later q) s acts)
    (ht : exec (storeStep snapshotDir) s acts = some t) : Sound q t :=
  ((Sound.init q hsnapshots hhistory).run snapshotDir hguard ht).1

/-- **What is left of the copies of `q`**, in every run: the ten newest at least, and after a rewrite of `q` that succeeds
with all its removals, these alone. -/
theorem snapshots_left {snapshotDir q : String} {s t : Store} {acts : List StoreAct} (hsnapshots : s.snapshots = [])
    (hhistory : s.history = []) (hguard : Steps.Guarded (storeStep snapshotDir) (Later q) s acts)
    (ht : exec (storeStep snapshotDir) s acts = some t) :
    (∀ x ∈ (t.copiesOf q).rtake keepSnapshots, x ∈ t.snapshots) ∧
      ∀ newImage steps path previous u, Later q t (.rewrite q newImage steps) →
        rewriteQuadletImage snapshotDir q newImage steps t = (.ok (path, previous), u) →
          (∀ n, steps.unlinks n = true) →
            u.snapshots.filter (isSnapshotOf q) = (u.copiesOf q).rtake keepSnapshots := by
  have hsound := sound_of_run hsnapshots hhistory hguard ht
  refine ⟨fun x hx => (List.mem_filter.1 (hsound.retains.newest x hx)).1, ?_⟩
  intro newImage steps path previous u hlater hrw hunlinks
  obtain ⟨original, body, -, -, -, hleft⟩ := rewriteQuadletImage_ok (congrArg Prod.fst hrw)
  rw [hrw] at hleft
  have hcopied := hsound.copy (x := ⟨snapshotName steps.ts q, steps.mtime, original⟩) hlater.2.1 hlater.2.2.1 hlater.2.2.2
  have hcopies := congrArg Store.history hleft
  have hpruned := congrArg Store.snapshots hleft
  dsimp only at hcopies hpruned
  rw [hpruned, Store.copiesOf, hcopies, ← hcopied.retains.rtake hcopied.nodup]
  exact filter_pruneSnapshots keepSnapshots hcopied.sorted_snapshots hunlinks

def serverStore : Store where
  quadlets := update (fun _ => none) "signalk-server.container" (some serverQuadlet)
  snapshots := []
  lastGood := none
  history := []

/-- A rewrite in which no call fails. -/
def rewriteSteps (ts : String) (mtime : Nat) : RewriteSteps := ⟨ts, mtime, "", none, none, none, none, none, fun _ => true⟩

theorem later_serverStore : Later "signalk-server.container" serverStore
    (.rewrite "signalk-server.container" "ghcr.io/signalk/signalk-server:v2.14.0".toList (rewriteSteps "2026-07-17T00-00-00-000Z" 1)) :=
  ⟨.inl rfl, by simp [serverStore], by simp [serverStore],
    ⟨"2026-07-17T00-00-00-000Z-signalk-server.container".toList, by decide +kernel, by decide +kernel, by decide +kernel⟩,
      by decide +kernel⟩

theorem snapshots_left_server :
    (rewriteQuadletImage "/data/snapshots" "signalk-server.container" "ghcr.io/signalk/signalk-server:v2.14.0".toList
        (rewriteSteps "2026-07-17T00-00-00-000Z" 1) serverStore).2.snapshots.filter
          (isSnapshotOf "signalk-server.container") =
      ((rewriteQuadletImage "/data/snapshots" "signalk-server.container" "ghcr.io/signalk/signalk-server:v2.14.0".toList
        (rewriteSteps "2026-07-17T00-00-00-000Z" 1) serverStore).2.copiesOf "signalk-server.container").rtake keepSnapshots :=
  (@snapshots_left "/data/snapshots" "signalk-server.container" serverStore serverStore [] rfl rfl trivial rfl).2 _ _
    "/data/snapshots/2026-07-17T00-00-00-000Z-signalk-server.container" "ghcr.io/signalk/signalk-server:v2.13.0".toList _
    later_serverStore (Prod.ext (by decide +kernel) rfl) (fun _ => rfl)

/-! ## Rolling back -/

def StoreAct.rewrites (q : String) : StoreAct → Bool
  | .rewrite quadletName _ _ => quadletName == q
  | _ => false

/-- A record of `q`, or one that loses them all. -/
def StoreAct.records (q : String) : StoreAct → Bool
  | .record quadletName _ _ => quadletName == q
  | .recordShort => true
  | _ => false

/-- **Only a rewrite of `q` makes a copy of `q`.** -/
theorem length_copiesOf_step {snapshotDir q : String} {s t : Store} {a : StoreAct} (hlater : Later q s a)
    (ht : storeStep snapshotDir s a = some t) :
    (t.copiesOf q).length ≤ (s.copiesOf q).length + if a.rewrites q then 1 else 0 := by
  cases a with
  | rewrite quadletName newImage steps =>
    cases ht
    have hcopies : ∀ original, ((s.copy ⟨snapshotName steps.ts quadletName, steps.mtime, original⟩).copiesOf q).length ≤
        (s.copiesOf q).length + if StoreAct.rewrites q (.rewrite quadletName newImage steps) then 1 else 0 := by
      intro original
      show ((s.history ++ [_]).filter _).length ≤ _
      rw [List.filter_append, List.length_append]
      refine Nat.add_le_add_left ?_ _
      rcases hlater.1 with rfl | hapart
      · rw [StoreAct.rewrites, beq_self_eq_true, if_pos rfl]
        exact List.length_filter_le _ [_]
      · have hother : isSnapshotOf q ⟨snapshotName steps.ts quadletName, steps.mtime, original⟩ = false :=
          Bool.eq_false_iff.2 (fun hq => absurd (hapart.not_both hq) (by simp [isSnapshotOf_snapshotName]))
        rw [List.filter_cons_of_neg (by rw [hother]; exact Bool.false_ne_true)]
        exact Nat.zero_le _
    rcases rewriteQuadletImage_cases snapshotDir quadletName newImage steps s with heq | ⟨original, quadlets, -, heq | heq⟩
    · rw [heq]
      exact Nat.le_add_right ..
    · rw [heq]
      exact hcopies original
    · rw [heq]
      exact hcopies original
  | record quadletName entry updatedAt =>
    cases ht
    exact Nat.le_refl _
  | recordShort =>
    cases ht
    exact Nat.le_refl _
  | recover quadletName steps =>
    cases ht
    obtain ⟨quadlets, heq⟩ := recoverOne_store snapshotDir quadletName steps s
    rw [heq]
    exact Nat.le_refl _
  | edit quadletName content =>
    cases ht
    exact Nat.le_refl _

theorem length_copiesOf_run {snapshotDir q : String} : ∀ {acts : List StoreAct} {s t : Store},
    Steps.Guarded (storeStep snapshotDir) (Later q) s acts → exec (storeStep snapshotDir) s acts = some t →
      (t.copiesOf q).length ≤ (s.copiesOf q).length + acts.countP (StoreAct.rewrites q)
  | [], s, t, _, ht => by
    cases ht
    exact Nat.le_refl _
  | a :: acts, s, t, hguard, ht => by
    obtain ⟨u, hu, hut⟩ := Steps.exec_cons ht
    have hone := length_copiesOf_step hguard.1 hu
    have hrest := length_copiesOf_run (hguard.2 u hu) hut
    rw [List.countP_cons]
    omega

/-- An entry stays until the next record of its unit file. -/
theorem entry_run {snapshotDir q : String} {entry : LastGoodEntry} {acts : List StoreAct} {s t : Store}
    (hentry : s.entry q = some entry) (hrecords : ∀ a ∈ acts, a.records q = false)
    (ht : exec (storeStep snapshotDir) s acts = some t) : t.entry q = some entry := by
  refine exec_inv (G := fun _ a => a.records q = false) (I := fun s => s.entry q = some entry) (fun s a t hI hrec hst => ?_)
    acts s t hentry (Steps.guarded_of_forall acts s hrecords) ht
  cases a with
  | rewrite quadletName newImage steps =>
    cases hst
    rcases rewriteQuadletImage_cases snapshotDir quadletName newImage steps s with heq | ⟨original, quadlets, -, heq | heq⟩ <;>
      rw [heq] <;> exact hI
  | record quadletName e updatedAt =>
    cases hst
    have hne : q ≠ quadletName := fun h => by rw [h] at hrec; simp [StoreAct.records] at hrec
    rw [entry_writeLastGood, if_neg hne]
    exact hI
  | recordShort => cases hrec
  | recover quadletName steps =>
    cases hst
    obtain ⟨quadlets, heq⟩ := recoverOne_store snapshotDir quadletName steps s
    rw [heq]
    exact hI
  | edit quadletName content =>
    cases hst
    exact hI

theorem snapshotPath_inj {dir a b : String} (ha : ∃ n : UnixPath.Name, n.text = a.toList)
    (hb : ∃ n : UnixPath.Name, n.text = b.toList) (h : snapshotPath dir a = snapshotPath dir b) : a = b := by
  obtain ⟨n, hn⟩ := ha
  obtain ⟨m, hm⟩ := hb
  have hpath := congrArg (fun p => UnixPath.basename p.toList) h
  simp only [snapshotPath, ← hn, ← hm, String.toList_ofList, UnixPath.basename_join] at hpath
  exact String.toList_inj.1 (hn.symm.trans (hpath.trans hm))

/-- A path names one copy. -/
theorem Sound.snapshotAt {q : String} {s : Store} (h : Sound q s) (snapshotDir : String) {x : Snapshot}
    (hx : x ∈ s.snapshots) : s.snapshotAt snapshotDir (snapshotPath snapshotDir x.name) = some x.content := by
  have hfound : s.snapshots.find? (fun y => snapshotPath snapshotDir y.name = snapshotPath snapshotDir x.name) = some x := by
    cases hfind : s.snapshots.find? (fun y => snapshotPath snapshotDir y.name = snapshotPath snapshotDir x.name) with
    | none => exact absurd (decide_eq_true rfl) (List.find?_eq_none.1 hfind x hx)
    | some y =>
      have hy := List.mem_of_find?_eq_some hfind
      have hname : y.name = x.name :=
        snapshotPath_inj (h.named y (h.sublist.subset hy)) (h.named x (h.sublist.subset hx))
          (by simpa using List.find?_some hfind)
      by_contra hne
      have hdistinct := Comparator.rel_or_rel_of_pairwise (fun heq => hne (congrArg some heq)) h.distinct
        (h.sublist.subset hy) (h.sublist.subset hx)
      exact hdistinct.elim (fun hlt => hlt hname) (fun hlt => hlt hname.symm)
  rw [Store.snapshotAt, hfound]
  rfl

/-- What a recovery does with an entry whose copy is there. -/
theorem recoverOne_of_snapshot {snapshotDir q : String} {t : Store} {entry : LastGoodEntry} {content : Text}
    {steps : RecoverSteps} (hentry : t.entry q = some entry)
    (hcontent : t.snapshotAt snapshotDir entry.snapshotPath = some content) :
    (recoverOne snapshotDir q steps t).2 =
        (if steps.copyError = none ∧ steps.renameError = none then { t with quadlets := update t.quadlets q (some content) }
          else t) ∧
      ((recoverOne snapshotDir q steps t).1.ok = true ↔
        steps.copyError = none ∧ steps.renameError = none ∧ steps.fsyncError = none ∧ reloadAndRestart q steps = .ok ()) := by
  unfold recoverOne restoreOne
  simp only [hentry, hcontent]
  cases hcopy : steps.copyError with
  | some e => simp
  | none =>
    cases hrename : steps.renameError with
    | some e => simp
    | none =>
      cases hfsync : steps.fsyncError with
      | some e => simp
      | none =>
        cases hunits : reloadAndRestart q steps with
        | error e => simp
        | ok u => simp

/-- **A recovery undoes the rewrite.**  A rewrite of `q` is followed by any run, and the copy it answered with is recorded in
it as the last good one of `q`, with no other record of `q` after and none that stops short.  As long as the run has fewer
than ten rewrites of `q`, a recovery of `q` whose copy and rename succeed puts the text back that the rewrite found; nothing
else changes, nor does anything where one of these fails. -/
theorem recoverOne_rolls_back {snapshotDir q path updatedAt : String} {s₀ s t : Store} {before mid rest : List StoreAct}
    {newImage previous : Text} {steps : RewriteSteps} {entry : LastGoodEntry} {recovery : RecoverSteps}
    (hsnapshots : s₀.snapshots = []) (hhistory : s₀.history = [])
    (hguard : Steps.Guarded (storeStep snapshotDir) (Later q) s₀
      (before ++ .rewrite q newImage steps :: (mid ++ .record q entry updatedAt :: rest)))
    (hs : exec (storeStep snapshotDir) s₀ before = some s)
    (hok : (rewriteQuadletImage snapshotDir q newImage steps s).1 = .ok (path, previous))
    (ht : exec (storeStep snapshotDir) (rewriteQuadletImage snapshotDir q newImage steps s).2
      (mid ++ .record q entry updatedAt :: rest) = some t)
    (hpath : entry.snapshotPath = path) (hrecords : ∀ a ∈ rest, a.records q = false)
    (hfew : (mid ++ StoreAct.record q entry updatedAt :: rest).countP (StoreAct.rewrites q) < keepSnapshots) :
    (recoverOne snapshotDir q recovery t).2 =
        (if recovery.copyError = none ∧ recovery.renameError = none then
          { t with quadlets := update t.quadlets q (s.quadlets q) }
        else t) ∧
      ((recoverOne snapshotDir q recovery t).1.ok = true ↔
        recovery.copyError = none ∧ recovery.renameError = none ∧ recovery.fsyncError = none ∧
          reloadAndRestart q recovery = .ok ()) := by
  obtain ⟨hbefore, hafter⟩ := Steps.guarded_append hguard
  obtain ⟨hlater, hrest⟩ := hafter s hs
  have hsound := sound_of_run hsnapshots hhistory hbefore hs
  have hsound' := (hsound.step snapshotDir hlater rfl).1
  obtain ⟨hsoundt, hgrows⟩ := hsound'.run snapshotDir (hrest _ rfl) ht
  obtain ⟨original, body, hfile, -, hpathEq, hleft⟩ := rewriteQuadletImage_ok hok
  -- the copy is among the ten newest of `q`
  have hcopies : (rewriteQuadletImage snapshotDir q newImage steps s).2.copiesOf q =
      s.copiesOf q ++ [⟨snapshotName steps.ts q, steps.mtime, original⟩] := by
    have hhist := congrArg Store.history hleft
    rw [Store.copiesOf, hhist]
    show (s.history ++ [_]).filter _ = _
    rw [List.filter_append, List.filter_cons_of_pos isSnapshotOf_snapshotName]
    rfl
  have hlength := length_copiesOf_run (hrest _ rfl) ht
  have hprefix : (rewriteQuadletImage snapshotDir q newImage steps s).2.copiesOf q <+: t.copiesOf q := hgrows.filter _
  have hnewest : ⟨snapshotName steps.ts q, steps.mtime, original⟩ ∈ (t.copiesOf q).rtake keepSnapshots := by
    refine Retention.getLast?_take_mem_rtake hprefix.length_le ?_ (by omega)
    rw [← List.prefix_iff_eq_take.1 hprefix, hcopies, List.getLast?_append, List.getLast?_singleton]
    rfl
  have hthere := (List.mem_filter.1 (hsoundt.retains.newest _ hnewest)).1
  -- the entry is the one recorded
  rw [Steps.exec_append] at ht
  obtain ⟨m, -, hm⟩ := Option.bind_eq_some_iff.1 ht
  obtain ⟨r, hr, hrt⟩ := Steps.exec_cons hm
  cases hr
  have hentry : t.entry q = some entry := by
    refine entry_run ?_ hrecords hrt
    rw [entry_writeLastGood, if_pos rfl]
  have hcontent : t.snapshotAt snapshotDir entry.snapshotPath = some original := by
    have hat := hsoundt.snapshotAt snapshotDir hthere
    rw [hpath, hpathEq]
    exact hat
  rw [hfile]
  exact recoverOne_of_snapshot hentry hcontent

def serverEntry : LastGoodEntry where
  tag := "v2.13.0"
  image := "ghcr.io/signalk/signalk-server:v2.13.0"
  snapshotPath := "/data/snapshots/2026-07-17T00-00-00-000Z-signalk-server.container"

def recoverSteps : RecoverSteps := ⟨"", none, none, none, .ok (), fun _ => .ok ()⟩

/-- The store after an update of the server and its record. -/
def serverUpdated : Store :=
  writeLastGood "signalk-server.container" serverEntry "2026-07-17T00:00:01.000Z"
    (rewriteQuadletImage "/data/snapshots" "signalk-server.container" "ghcr.io/signalk/signalk-server:v2.14.0".toList
      (rewriteSteps "2026-07-17T00-00-00-000Z" 1) serverStore).2

theorem recoverOne_rolls_back_server :
    (recoverOne "/data/snapshots" "signalk-server.container" recoverSteps serverUpdated).2 =
        { serverUpdated with
          quadlets := update serverUpdated.quadlets "signalk-server.container"
            (serverStore.quadlets "signalk-server.container") } :=
  (@recoverOne_rolls_back "/data/snapshots" "signalk-server.container"
    "/data/snapshots/2026-07-17T00-00-00-000Z-signalk-server.container" "2026-07-17T00:00:01.000Z" serverStore serverStore
    serverUpdated [] [] [] "ghcr.io/signalk/signalk-server:v2.14.0".toList "ghcr.io/signalk/signalk-server:v2.13.0".toList
    (rewriteSteps "2026-07-17T00-00-00-000Z" 1) serverEntry recoverSteps rfl rfl
    ⟨later_serverStore, fun _ _ => ⟨trivial, fun _ _ => trivial⟩⟩ rfl (by decide +kernel) rfl rfl (by simp) (by decide)).1.trans
    (if_pos ⟨rfl, rfl⟩)

end Quadlet
end SignalkDoctor
