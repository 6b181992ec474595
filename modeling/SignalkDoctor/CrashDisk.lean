import Mathlib.Logic.Function.Basic
import SignalkDoctor.Steps
/-!
# CrashDisk — a file replaced on a disk that may lose power

A disk of inodes and one directory.  What a program writes is read at once, and is on the medium only after the file is
synced; the directory as it is now is on the medium only after the directory is synced.  A power cut leaves the directory
as it is or as it was at some moment since its last sync (the order of a journal), each synced file as it is, and in the
others anything.

`replaceStep` is the common way to replace a file: write a temporary file, sync it, rename it over the target, sync the
directory.  A step may fail, which ends the replacement where it stands, and the power may be cut at any moment.
`kept_step` says what the target then holds, `exec_replacement_cut` what becomes of it where the file is not synced.
-/
namespace SignalkDoctor
namespace CrashDisk

open Steps (exec)

variable {κ β : Type}

structure Disk (κ β : Type) where
  dir : κ → Option Nat
  /-- What the directory was since its last sync. -/
  past : List (κ → Option Nat)
  data : Nat → List β
  synced : Nat → Bool
  next : Nat

namespace Disk

/-- A disk that holds the one file, all of it on the medium. -/
def settled [DecidableEq κ] (name : κ) (content : Option (List β)) : Disk κ β where
  dir := fun n => if n = name then content.map (fun _ => 0) else none
  past := []
  data := fun _ => content.getD []
  synced := fun _ => true
  next := 1

def readIn (d : Disk κ β) (dir : κ → Option Nat) (name : κ) : Option (List β) := (dir name).map d.data

def read (d : Disk κ β) (name : κ) : Option (List β) := d.readIn d.dir name

def history (d : Disk κ β) : List (κ → Option Nat) := d.dir :: d.past

def write (d : Disk κ β) (i : Nat) (content : List β) : Disk κ β :=
  { d with data := Function.update d.data i content, synced := Function.update d.synced i false }

def create [DecidableEq κ] (d : Disk κ β) (name : κ) : Disk κ β where
  dir := Function.update d.dir name (some d.next)
  past := d.history
  data := Function.update d.data d.next []
  synced := Function.update d.synced d.next false
  next := d.next + 1

/-- The file opened for writing: emptied, or made. -/
def openTrunc [DecidableEq κ] (d : Disk κ β) (name : κ) : Disk κ β × Nat :=
  match d.dir name with
  | some i => (d.write i [], i)
  | none => (d.create name, d.next)

def sync (d : Disk κ β) (i : Nat) : Disk κ β := { d with synced := Function.update d.synced i true }

def rename [DecidableEq κ] (d : Disk κ β) (tmp target : κ) : Disk κ β :=
  { d with dir := Function.update (Function.update d.dir target (d.dir tmp)) tmp none, past := d.history }

def syncDir (d : Disk κ β) : Disk κ β := { d with past := [] }

/-- A power cut and a new start: the directory of the moment `back` (0 the last), `torn` in the files not synced. -/
def cut (d : Disk κ β) (back : Nat) (torn : Nat → List β) : Disk κ β where
  dir := (d.history[back]?).getD d.dir
  past := []
  data := fun i => if d.synced i then d.data i else torn i
  synced := fun _ => true
  next := d.next

end Disk

/-! ## The replacement -/

inductive Phase (β : Type) where
  | idle
  | opened (i : Nat) (body : List β)
  /-- What the write has accepted. -/
  | written (i : Nat) (content : List β)
  | synced (i : Nat) (content : List β)
  | renamed (content : List β)

/-- What is being written. -/
def Phase.content : Phase β → Option (List β)
  | .idle => none
  | .opened _ c | .written _ c | .synced _ c | .renamed c => some c

inductive Act (β : Type) where
  | openTmp (body : List β)
  /-- The write stops short by `missing`, 0 when it accepts everything. -/
  | write (missing : Nat)
  | sync
  | rename
  | syncDir
  /-- The step at hand fails. -/
  | fail
  | cut (back : Nat) (torn : Nat → List β)

structure Saver (κ β : Type) where
  disk : Disk κ β
  phase : Phase β
  /-- What the last complete replacement stored, at first what the disk held. -/
  stored : Option (List β)
  /-- What was renamed over the target since. -/
  begun : List (List β)

def Saver.start [DecidableEq κ] (target : κ) (content : Option (List β)) : Saver κ β := ⟨Disk.settled target content, .idle, content, []⟩

/-- One step; with `syncs` false the file is not synced before the rename. -/
def replaceStep [DecidableEq κ] (syncs : Bool) (target tmp : κ) (s : Saver κ β) : Act β → Option (Saver κ β)
  | .openTmp body =>
    match s.phase with
    | .idle => some { s with disk := (s.disk.openTrunc tmp).1, phase := .opened (s.disk.openTrunc tmp).2 body }
    | _ => none
  | .write missing =>
    match s.phase with
    | .opened i body =>
      let content := body.take (body.length - missing)
      some { s with disk := s.disk.write i content, phase := .written i content }
    | _ => none
  | .sync =>
    match s.phase with
    | .written i content => if syncs then some { s with disk := s.disk.sync i, phase := .synced i content } else none
    | _ => none
  | .rename =>
    match s.phase with
    | .synced _ content =>
      some { s with disk := s.disk.rename tmp target, phase := .renamed content, begun := content :: s.begun }
    | .written _ content =>
      if syncs then none
      else some { s with disk := s.disk.rename tmp target, phase := .renamed content, begun := content :: s.begun }
    | _ => none
  | .syncDir =>
    match s.phase with
    | .renamed content => some { s with disk := s.disk.syncDir, phase := .idle, stored := some content, begun := [] }
    | _ => none
  | .fail =>
    match s.phase with
    | .idle => none
    | _ => some { s with phase := .idle }
  | .cut back torn => some { s with disk := s.disk.cut back torn, phase := .idle }

/-- What a step finds and does. -/
inductive Move [DecidableEq κ] (syncs : Bool) (target tmp : κ) (s : Saver κ β) : Act β → Saver κ β → Prop
  | openTmp (body : List β) (hp : s.phase = .idle) : Move syncs target tmp s (.openTmp body)
      { s with disk := (s.disk.openTrunc tmp).1, phase := .opened (s.disk.openTrunc tmp).2 body }
  | write (missing i : Nat) (body : List β) (hp : s.phase = .opened i body) : Move syncs target tmp s (.write missing)
      { s with
        disk := s.disk.write i (body.take (body.length - missing))
        phase := .written i (body.take (body.length - missing)) }
  | sync (i : Nat) (c : List β) (hp : s.phase = .written i c) : Move syncs target tmp s .sync
      { s with disk := s.disk.sync i, phase := .synced i c }
  | rename (i : Nat) (c : List β) (hp : s.phase = .synced i c) : Move syncs target tmp s .rename
      { s with disk := s.disk.rename tmp target, phase := .renamed c, begun := c :: s.begun }
  | renameUnsynced (i : Nat) (c : List β) (hp : s.phase = .written i c) (hs : syncs = false) : Move syncs target tmp s .rename
      { s with disk := s.disk.rename tmp target, phase := .renamed c, begun := c :: s.begun }
  | syncDir (c : List β) (hp : s.phase = .renamed c) : Move syncs target tmp s .syncDir
      { s with disk := s.disk.syncDir, phase := .idle, stored := some c, begun := [] }
  | fail : Move syncs target tmp s .fail { s with phase := .idle }
  | cut (back : Nat) (torn : Nat → List β) : Move syncs target tmp s (.cut back torn)
      { s with disk := s.disk.cut back torn, phase := .idle }

theorem step_cases [DecidableEq κ] {syncs : Bool} {target tmp : κ} {s t : Saver κ β} {a : Act β}
    (h : replaceStep syncs target tmp s a = some t) : Move syncs target tmp s a t := by
  cases a with
  | openTmp body =>
    simp only [replaceStep] at h
    split at h
    · rename_i hp; cases h; exact .openTmp body hp
    · cases h
  | write missing =>
    simp only [replaceStep] at h
    split at h
    · rename_i i body hp; cases h; exact .write missing i body hp
    · cases h
  | sync =>
    simp only [replaceStep] at h
    split at h
    · rename_i i c hp
      split at h
      · cases h; exact .sync i c hp
      · cases h
    · cases h
  | rename =>
    simp only [replaceStep] at h
    split at h
    · rename_i i c hp; cases h; exact .rename i c hp
    · rename_i i c hp
      split at h
      · cases h
      · rename_i hs; cases h; exact .renameUnsynced i c hp (Bool.not_eq_true _ ▸ hs)
    · cases h
  | syncDir =>
    simp only [replaceStep] at h
    split at h
    · rename_i c hp; cases h; exact .syncDir c hp
    · cases h
  | fail =>
    simp only [replaceStep] at h
    split at h
    · cases h
    · cases h; exact .fail
  | cut back torn => cases h; exact .cut back torn

/-! ## What is kept -/

/-- **The content is one the replacements account for.** -/
def Saver.Known (s : Saver κ β) (content : Option (List β)) : Prop :=
  content = s.stored ∨ ∃ c ∈ s.begun, content = some c

/-- Where the replacement stands, on the disk. -/
def Stands (target tmp : κ) (s : Saver κ β) : Phase β → Prop
  | .idle => True
  | .opened i _ => s.disk.dir tmp = some i
  | .written i content => s.disk.dir tmp = some i ∧ s.disk.data i = content
  | .synced i content => s.disk.dir tmp = some i ∧ s.disk.data i = content ∧ s.disk.synced i = true
  | .renamed content => s.disk.read target = some content

structure Kept (target tmp : κ) (s : Saver κ β) : Prop where
  /-- Every directory a power cut may leave has the target on the medium. -/
  onMedium : ∀ e ∈ s.disk.history, ∀ i, e target = some i → i < s.disk.next ∧ s.disk.synced i = true
  known : ∀ e ∈ s.disk.history, s.Known (s.disk.readIn e target)
  /-- In none of them a file has two names. -/
  single : ∀ e ∈ s.disk.history, ∀ name i, e name = some i → i < s.disk.next ∧ ∀ other, e other = some i → other = name
  /-- A file that has another name now was not the target since. -/
  fresh : ∀ name i, name ≠ target → s.disk.dir name = some i → ∀ e ∈ s.disk.past, e target ≠ some i
  stands : Stands target tmp s s.phase

/-- Between two replacements the temporary file may change its name. -/
theorem Kept.renamed {target tmp : κ} {s : Saver κ β} (h : Kept target tmp s) (hidle : s.phase = .idle) (tmp' : κ) :
    Kept target tmp' s :=
  ⟨h.onMedium, h.known, h.single, h.fresh, by rw [hidle]; trivial⟩

section
variable {target tmp : κ} {s : Saver κ β}

theorem readIn_write {d : Disk κ β} {e : κ → Option Nat} {i : Nat} (h : e target ≠ some i) (content : List β) :
    (d.write i content).readIn e target = d.readIn e target := by
  unfold Disk.readIn
  cases he : e target with
  | none => rfl
  | some j =>
    have hj : j ≠ i := fun hji => h (by rw [he, hji])
    simp [Disk.write, Function.update_of_ne hj]

theorem not_target_of_tmp (hne : tmp ≠ target) (h : Kept target tmp s) {i : Nat} (hi : s.disk.dir tmp = some i) :
    ∀ e ∈ s.disk.history, e target ≠ some i := by
  intro e he
  rcases List.mem_cons.1 he with rfl | he
  · exact fun htarget => hne ((h.single _ (List.mem_cons_self ..) _ _ htarget).2 tmp hi)
  · exact h.fresh tmp i hne hi e he

/-- **The temporary file written**: no directory a power cut may leave has it as its target. -/
theorem kept_write (hne : tmp ≠ target) (h : Kept target tmp s) {i : Nat} (hi : s.disk.dir tmp = some i)
    (content : List β) {p : Phase β} (hp : Stands target tmp { s with disk := s.disk.write i content, phase := p } p) :
    Kept target tmp { s with disk := s.disk.write i content, phase := p } := by
  have hnot := not_target_of_tmp hne h hi
  constructor
  · intro e he j hj
    obtain ⟨hlt, hsynced⟩ := h.onMedium e he j hj
    have hji : j ≠ i := fun hji => hnot e he (by rw [hj, hji])
    exact ⟨hlt, (Function.update_of_ne hji ..).trans hsynced⟩
  · intro e he
    show s.Known ((s.disk.write i content).readIn e target)
    rw [readIn_write (hnot e he)]
    exact h.known e he
  · exact h.single
  · exact h.fresh
  · exact hp

theorem kept_sync (h : Kept target tmp s) {i : Nat} {content : List β} (hs : Stands target tmp s (.written i content)) :
    Kept target tmp { s with disk := s.disk.sync i, phase := .synced i content } := by
  have hsynced : ∀ j, s.disk.synced j = true → (s.disk.sync i).synced j = true := by
    intro j hj
    by_cases hji : j = i
    · rw [hji]
      exact Function.update_self ..
    · exact (Function.update_of_ne hji ..).trans hj
  refine ⟨fun e he j hj => ?_, h.known, h.single, h.fresh, hs.1, hs.2, Function.update_self ..⟩
  obtain ⟨hlt, hj'⟩ := h.onMedium e he j hj
  exact ⟨hlt, hsynced j hj'⟩

theorem known_cons {c : List β} {x : Option (List β)} {disk : Disk κ β} {p : Phase β} (h : s.Known x) :
    @Saver.Known κ β ⟨disk, p, s.stored, c :: s.begun⟩ x := by
  rcases h with h | ⟨b, hb, h⟩
  · exact .inl h
  · exact .inr ⟨b, List.mem_cons_of_mem _ hb, h⟩

theorem kept_syncDir (h : Kept target tmp s) {content : List β} (hs : Stands target tmp s (.renamed content)) :
    Kept target tmp { s with disk := s.disk.syncDir, phase := .idle, stored := some content, begun := [] } := by
  have hnow : ∀ e ∈ s.disk.syncDir.history, e = s.disk.dir := fun e he => by
    simpa [Disk.history, Disk.syncDir] using he
  have hmem : s.disk.dir ∈ s.disk.history := List.mem_cons_self ..
  refine ⟨fun e he => ?_, fun e he => ?_, fun e he => ?_, fun _ _ _ _ e he => ?_, trivial⟩
  · rw [hnow e he]
    exact h.onMedium _ hmem
  · rw [hnow e he]
    exact .inl hs
  · rw [hnow e he]
    exact h.single _ hmem
  · cases he

theorem kept_fail (h : Kept target tmp s) : Kept target tmp { s with phase := .idle } :=
  ⟨h.onMedium, h.known, h.single, h.fresh, trivial⟩

theorem getD_mem_history (d : Disk κ β) (back : Nat) : (d.history[back]?).getD d.dir ∈ d.history := by
  cases h : d.history[back]? with
  | none => exact List.mem_cons_self ..
  | some e => exact List.mem_of_getElem? h

/-- **A power cut** leaves one of the directories, and the target on the medium. -/
theorem kept_cut (h : Kept target tmp s) (back : Nat) (torn : Nat → List β) :
    Kept target tmp { s with disk := s.disk.cut back torn, phase := .idle } := by
  have hmem := getD_mem_history s.disk back
  have hnow : ∀ e ∈ (s.disk.cut back torn).history, e = (s.disk.history[back]?).getD s.disk.dir := fun e he => by
    simpa [Disk.history, Disk.cut] using he
  have hread : (s.disk.cut back torn).readIn ((s.disk.history[back]?).getD s.disk.dir) target =
      s.disk.readIn ((s.disk.history[back]?).getD s.disk.dir) target := by
    unfold Disk.readIn
    cases ht : (s.disk.history[back]?).getD s.disk.dir target with
    | none => rfl
    | some i => simp [Disk.cut, (h.onMedium _ hmem i ht).2]
  refine ⟨fun e he i hi => ?_, fun e he => ?_, fun e he => ?_, fun _ _ _ _ e he => ?_, trivial⟩
  · rw [hnow e he] at hi
    exact ⟨(h.onMedium _ hmem i hi).1, rfl⟩
  · rw [hnow e he, hread]
    exact h.known _ hmem
  · rw [hnow e he]
    exact h.single _ hmem
  · cases he

theorem Kept.known_read (h : Kept target tmp s) : s.Known (s.disk.read target) := h.known _ (List.mem_cons_self ..)

variable [DecidableEq κ]

theorem dir_rename (d : Disk κ β) (tmp target name : κ) : (d.rename tmp target).dir name =
    if name = tmp then none else if name = target then d.dir tmp else d.dir name := by
  simp only [Disk.rename, Function.update_apply]

theorem readIn_create {d : Disk κ β} {e : κ → Option Nat} (h : e target ≠ some d.next) (name : κ) :
    (d.create name).readIn e target = d.readIn e target := readIn_write h []

/-- A new file has the one name it is created under. -/
theorem single_create {d : Disk κ β}
    (h : ∀ name i, d.dir name = some i → i < d.next ∧ ∀ other, d.dir other = some i → other = name) (tmp name : κ) (j : Nat)
    (hj : (d.create tmp).dir name = some j) :
    j < (d.create tmp).next ∧ ∀ other, (d.create tmp).dir other = some j → other = name := by
  have hothers : ∀ n, n ≠ tmp → (d.create tmp).dir n = d.dir n := fun n hn => Function.update_of_ne hn ..
  have htmp : (d.create tmp).dir tmp = some d.next := Function.update_self ..
  by_cases hname : name = tmp
  · subst hname
    rw [htmp, Option.some.injEq] at hj
    subst hj
    refine ⟨Nat.lt_succ_self _, fun other hother => ?_⟩
    by_contra hdiff
    rw [hothers other hdiff] at hother
    exact Nat.lt_irrefl _ (h _ _ hother).1
  · rw [hothers name hname] at hj
    obtain ⟨hlt, hsingle⟩ := h name j hj
    refine ⟨Nat.lt_succ_of_lt hlt, fun other hother => ?_⟩
    by_cases hdiff : other = tmp
    · rw [hdiff, htmp, Option.some.injEq] at hother
      exact absurd hlt (hother ▸ Nat.lt_irrefl _)
    · exact hsingle other (hothers other hdiff ▸ hother)

/-- **A new temporary file.** -/
theorem kept_create (hne : tmp ≠ target) (h : Kept target tmp s) (body : List β) :
    Kept target tmp { s with disk := s.disk.create tmp, phase := .opened s.disk.next body } := by
  have hfresh : ∀ e ∈ s.disk.history, e target ≠ some s.disk.next := fun e he ht =>
    Nat.lt_irrefl _ (h.onMedium e he _ ht).1
  have hold : ∀ e ∈ s.disk.history, ∀ j, e target = some j →
      j < (s.disk.create tmp).next ∧ (s.disk.create tmp).synced j = true := by
    intro e he j hj
    obtain ⟨hlt, hsynced⟩ := h.onMedium e he j hj
    exact ⟨Nat.lt_succ_of_lt hlt, (Function.update_of_ne (Nat.ne_of_lt hlt) ..).trans hsynced⟩
  have hmem : s.disk.dir ∈ s.disk.history := List.mem_cons_self ..
  have hothers : ∀ name, name ≠ tmp → (s.disk.create tmp).dir name = s.disk.dir name :=
    fun name hname => Function.update_of_ne hname ..
  have hnow := hothers target hne.symm
  have htmp : (s.disk.create tmp).dir tmp = some s.disk.next := Function.update_self ..
  constructor
  · intro e he j hj
    rcases List.mem_cons.1 he with rfl | he
    · exact hold _ hmem j (hnow ▸ hj)
    · exact hold e he j hj
  · intro e he
    show s.Known ((s.disk.create tmp).readIn e target)
    rcases List.mem_cons.1 he with rfl | he
    · have hsame : (s.disk.create tmp).readIn (s.disk.create tmp).dir target =
          (s.disk.create tmp).readIn s.disk.dir target := by rw [Disk.readIn, hnow, Disk.readIn]
      rw [hsame, readIn_create (hfresh _ hmem)]
      exact h.known _ hmem
    · rw [readIn_create (hfresh e he)]
      exact h.known e he
  · intro e he name j hj
    rcases List.mem_cons.1 he with rfl | he
    · exact single_create (h.single _ hmem) tmp name j hj
    · obtain ⟨hlt, hsingle⟩ := h.single e he name j hj
      exact ⟨Nat.lt_succ_of_lt hlt, hsingle⟩
  · intro name j hname hj e he
    by_cases htmp' : name = tmp
    · rw [htmp', htmp, Option.some.injEq] at hj
      subst hj
      exact hfresh e he
    · rw [hothers name htmp'] at hj
      rcases List.mem_cons.1 he with rfl | he
      · exact fun htarget => hname ((h.single _ hmem _ _ htarget).2 name hj)
      · exact h.fresh name j hname hj e he
  · exact htmp

theorem kept_openTmp (hne : tmp ≠ target) (h : Kept target tmp s) (body : List β) :
    Kept target tmp { s with disk := (s.disk.openTrunc tmp).1, phase := .opened (s.disk.openTrunc tmp).2 body } := by
  unfold Disk.openTrunc
  cases hi : s.disk.dir tmp with
  | none => exact kept_create hne h body
  | some i => exact kept_write hne h hi [] hi

/-- What has a name after the rename had that name, and the target the temporary file's. -/
theorem dir_of_rename {d : Disk κ β} {tmp target name : κ} {j : Nat} (hj : (d.rename tmp target).dir name = some j) :
    d.dir (if name = target then tmp else name) = some j ∧ name ≠ tmp := by
  rw [dir_rename] at hj
  by_cases hname : name = tmp
  · rw [if_pos hname] at hj
    cases hj
  · rw [if_neg hname] at hj
    refine ⟨?_, hname⟩
    by_cases htarget : name = target
    · rw [if_pos htarget] at hj ⊢
      exact hj
    · rw [if_neg htarget] at hj ⊢
      exact hj

theorem single_rename {d : Disk κ β}
    (h : ∀ name i, d.dir name = some i → i < d.next ∧ ∀ other, d.dir other = some i → other = name) (tmp target name : κ)
    (j : Nat) (hj : (d.rename tmp target).dir name = some j) :
    j < (d.rename tmp target).next ∧ ∀ other, (d.rename tmp target).dir other = some j → other = name := by
  obtain ⟨hold, hname⟩ := dir_of_rename hj
  obtain ⟨hlt, hsingle⟩ := h _ _ hold
  refine ⟨hlt, fun other hother => ?_⟩
  obtain ⟨hold', hother⟩ := dir_of_rename hother
  have hsame := hsingle _ hold'
  by_cases htarget : name = target
  · by_cases hdiff : other = target
    · rw [htarget, hdiff]
    · rw [if_pos htarget, if_neg hdiff] at hsame
      exact absurd hsame hother
  · by_cases hdiff : other = target
    · rw [if_neg htarget, if_pos hdiff] at hsame
      exact absurd hsame.symm hname
    · rwa [if_neg htarget, if_neg hdiff] at hsame

/-- **The rename**: the target is the file that was synced. -/
theorem kept_rename (hne : tmp ≠ target) (h : Kept target tmp s) {i : Nat} {content : List β}
    (hs : Stands target tmp s (.synced i content)) :
    Kept target tmp
      { s with disk := s.disk.rename tmp target, phase := .renamed content, begun := content :: s.begun } := by
  obtain ⟨hi, hdata, hsynced⟩ := hs
  have htarget : (s.disk.rename tmp target).dir target = some i := by
    simp [Disk.rename, hne.symm, hi]
  have hread : (s.disk.rename tmp target).readIn (s.disk.rename tmp target).dir target = some content := by
    rw [Disk.readIn, htarget]
    exact congrArg some hdata
  constructor
  · intro e he j hj
    rcases List.mem_cons.1 he with rfl | he
    · rw [htarget, Option.some.injEq] at hj
      subst hj
      exact ⟨(h.single _ (List.mem_cons_self ..) _ _ hi).1, hsynced⟩
    · exact h.onMedium e he j hj
  · intro e he
    rcases List.mem_cons.1 he with rfl | he
    · exact .inr ⟨content, List.mem_cons_self .., hread⟩
    · exact known_cons (h.known e he)
  · intro e he name j hj
    rcases List.mem_cons.1 he with rfl | he
    · exact single_rename (h.single _ (List.mem_cons_self ..)) tmp target name j hj
    · exact h.single e he name j hj
  · intro name j hname hj e he
    have hold := dir_of_rename hj
    rw [if_neg hname] at hold
    rcases List.mem_cons.1 he with rfl | he
    · exact fun htarget => hname ((h.single _ (List.mem_cons_self ..) _ _ htarget).2 name hold.1)
    · exact h.fresh name j hname hold.1 e he
  · exact hread

/-- The only step that may harm the target is the rename of a file not synced. -/
theorem kept_step_of {syncs : Bool} {a : Act β} {t : Saver κ β} (hne : tmp ≠ target) (hsyncs : syncs = true ∨ a ≠ .rename)
    (h : Kept target tmp s) (hstep : replaceStep syncs target tmp s a = some t) : Kept target tmp t := by
  have hs := h.stands
  cases step_cases hstep with
  | openTmp body hp => exact kept_openTmp hne h body
  | write missing i body hp =>
    rw [hp] at hs
    exact kept_write hne h hs _ ⟨hs, Function.update_self ..⟩
  | sync i c hp =>
    rw [hp] at hs
    exact kept_sync h hs
  | rename i c hp =>
    rw [hp] at hs
    exact kept_rename hne h hs
  | renameUnsynced i c hp hsync =>
    rcases hsyncs with hs | hs
    · rw [hs] at hsync
      cases hsync
    · exact absurd rfl hs
  | syncDir c hp =>
    rw [hp] at hs
    exact kept_syncDir h hs
  | fail => exact kept_fail h
  | cut back torn => exact kept_cut h back torn

theorem kept_step (hne : tmp ≠ target) (s : Saver κ β) (a : Act β) (t : Saver κ β) (h : Kept target tmp s)
    (hstep : replaceStep true target tmp s a = some t) : Kept target tmp t :=
  kept_step_of hne (.inl rfl) h hstep

end

theorem kept_start [DecidableEq κ] (target tmp : κ) (content : Option (List β)) :
    Kept target tmp (Saver.start target content) := by
  have honly : ∀ e ∈ (Saver.start target content).disk.history, e = (Disk.settled target content).dir := by
    intro e he
    simpa [Saver.start, Disk.history, Disk.settled] using he
  have hname : ∀ name i, (Disk.settled target content).dir name = some i → name = target ∧ i = 0 := by
    intro name i hi
    by_cases hname : name = target
    · refine ⟨hname, ?_⟩
      cases content with
      | none => simp [Disk.settled] at hi
      | some c => simpa [Disk.settled, hname, eq_comm] using hi
    · simp [Disk.settled, hname] at hi
  constructor
  · intro e he i hi
    rw [honly e he] at hi
    obtain ⟨-, rfl⟩ := hname _ _ hi
    exact ⟨Nat.one_pos, rfl⟩
  · intro e he
    rw [honly e he]
    left
    cases content <;> simp [Disk.readIn, Disk.settled, Saver.start]
  · intro e he name i hi
    rw [honly e he] at hi ⊢
    obtain ⟨rfl, rfl⟩ := hname _ _ hi
    exact ⟨Nat.one_pos, fun other hother => (hname _ _ hother).1⟩
  · intro name i hother hi
    exact absurd (hname name i hi).1 hother
  · trivial

/-! ## Where the contents come from -/

section
variable [DecidableEq κ] {syncs : Bool} {target tmp : κ} {s t : Saver κ β} {a : Act β}

omit [DecidableEq κ] in
theorem known_renamed {c : List β} {disk : Disk κ β} {p : Phase β} {found : Option (List β)}
    (h : @Saver.Known κ β ⟨disk, p, s.stored, c :: s.begun⟩ found) : s.Known found ∨ found = some c := by
  rcases h with h | ⟨b, hb, rfl⟩
  · exact .inl (.inl h)
  · rcases List.mem_cons.1 hb with rfl | hb
    · exact .inr rfl
    · exact .inl (.inr ⟨b, hb, rfl⟩)

/-- **A step accounts for no content but what was being written.** -/
theorem step_known (hstep : replaceStep syncs target tmp s a = some t) {found : Option (List β)} (h : t.Known found) :
    s.Known found ∨ ∃ c, s.phase.content = some c ∧ found = some c := by
  cases step_cases hstep with
  | openTmp | write | sync | fail | cut => exact .inl h
  | rename i c hp | renameUnsynced i c hp =>
    rcases known_renamed h with h | h
    · exact .inl h
    · exact .inr ⟨c, by rw [hp]; rfl, h⟩
  | syncDir c hp =>
    rcases h with h | ⟨b, hb, -⟩
    · exact .inr ⟨c, by rw [hp]; rfl, h⟩
    · cases hb

/-- A complete replacement accounts for its content only. -/
theorem syncDir_known (hstep : replaceStep syncs target tmp s .syncDir = some t) {found : Option (List β)}
    (h : t.Known found) : ∃ c, s.phase.content = some c ∧ found = some c := by
  cases step_cases hstep with
  | syncDir c hp =>
    rcases h with h | ⟨b, hb, -⟩
    · exact ⟨c, by rw [hp]; rfl, h⟩
    · cases hb

/-- Where no write stops short, what is being written was handed to the open. -/
theorem step_content (hstep : replaceStep syncs target tmp s a = some t) (hwhole : ∀ n, a = .write n → n = 0) {c : List β}
    (h : t.phase.content = some c) : s.phase.content = some c ∨ a = .openTmp c := by
  cases step_cases hstep with
  | openTmp body hp =>
    cases h
    exact .inr rfl
  | write missing i body hp =>
    obtain rfl := hwhole missing rfl
    left
    rw [hp]
    simpa [Phase.content] using h
  | sync i c hp | rename i c hp | renameUnsynced i c hp =>
    left
    rw [hp]
    exact h
  | syncDir | fail | cut => cases h

end

/-! ## The sync of the file -/

/-- A replacement that succeeds. -/
def replacement (syncs : Bool) (body : List β) : List (Act β) :=
  .openTmp body :: .write 0 :: ((if syncs then [.sync] else []) ++ [.rename, .syncDir])

/-- The directory synced, there is no other moment to go back to. -/
theorem cut_dir {d : Disk κ β} (h : d.past = []) (back : Nat) (torn : Nat → List β) : (d.cut back torn).dir = d.dir := by
  have hmem := getD_mem_history d back
  rw [Disk.history, h, List.mem_singleton] at hmem
  rw [← hmem, Disk.cut, Disk.history, h]

/-- **The disk after a replacement**: the target is the new file, on the medium where it was synced. -/
theorem exec_replacement [DecidableEq κ] {target tmp : κ} (hne : tmp ≠ target) (content : Option (List β)) (body : List β)
    (syncs : Bool) :
    ∃ s, exec (replaceStep syncs target tmp) (Saver.start target content) (replacement syncs body) = some s ∧
      s.disk.past = [] ∧ s.disk.dir target = some 1 ∧ s.disk.data 1 = body ∧ s.disk.synced 1 = syncs := by
  have hnone : (Disk.settled (β := β) target content).dir tmp = none := if_neg hne
  have hopen : (Disk.settled (β := β) target content).openTrunc tmp =
      ((Disk.settled target content).create tmp, 1) := by
    rw [Disk.openTrunc, hnone]
    rfl
  cases syncs with
  | false =>
    refine ⟨_, by simp only [replacement, exec, replaceStep, Saver.start, hopen, Bool.false_eq_true, if_false,
      List.nil_append, Option.bind_some]; rfl, rfl, ?_, ?_, ?_⟩ <;>
      simp [Disk.syncDir, Disk.rename, Disk.write, Disk.create, hne.symm, Disk.settled]
  | true =>
    refine ⟨_, by simp only [replacement, exec, replaceStep, Saver.start, hopen, if_true,
      List.cons_append, List.nil_append, Option.bind_some]; rfl, rfl, ?_, ?_, ?_⟩ <;>
      simp [Disk.syncDir, Disk.rename, Disk.write, Disk.create, Disk.sync, hne.symm, Disk.settled]

/-- A power cut after the replacement leaves the file where it was synced, else anything. -/
theorem exec_replacement_cut [DecidableEq κ] {target tmp : κ} (hne : tmp ≠ target) (content : Option (List β))
    (body : List β) (syncs : Bool) (back : Nat) (torn : Nat → List β) :
    ∃ s, exec (replaceStep syncs target tmp) (Saver.start target content) (replacement syncs body ++ [.cut back torn]) =
        some s ∧ s.disk.read target = some (if syncs then body else torn 1) := by
  obtain ⟨s, hrun, hpast, hdir, hdata, hsynced⟩ := exec_replacement hne content body syncs
  refine ⟨_, by rw [Steps.exec_append, hrun]; rfl, ?_⟩
  rw [Disk.read, cut_dir hpast, Disk.readIn, hdir]
  simp only [Option.map_some, Disk.cut, hsynced, hdata]

/-- **Nothing renamed**, the target is what it was, wherever the power was cut. -/
theorem read_of_not_renamed [DecidableEq κ] {syncs : Bool} {target tmp : κ} (hne : tmp ≠ target) (content : Option (List β))
    {as : List (Act β)} {s : Saver κ β} (hnot : .rename ∉ as)
    (h : exec (replaceStep syncs target tmp) (Saver.start target content) as = some s) : s.disk.read target = content := by
  have hinv : Kept target tmp s ∧ s.stored = content ∧ s.begun = [] ∧ ∀ c, s.phase ≠ .renamed c := by
    refine Steps.exec_inv (G := fun _ a => a ≠ .rename)
      (I := fun s => Kept target tmp s ∧ s.stored = content ∧ s.begun = [] ∧ ∀ c, s.phase ≠ .renamed c)
      ?_ as _ s ⟨kept_start target tmp content, rfl, rfl, by simp [Saver.start]⟩
      (Steps.guarded_of_forall (G := fun a => a ≠ .rename) as _ (fun a ha hr => hnot (hr ▸ ha))) h
    intro s a t ⟨hkept, hstored, hbegun, hphase⟩ hne' hstep
    refine ⟨kept_step_of hne (.inr hne') hkept hstep, ?_⟩
    cases step_cases hstep with
    | openTmp | write | sync | fail | cut => exact ⟨hstored, hbegun, by simp⟩
    | rename | renameUnsynced => exact absurd rfl hne'
    | syncDir c hp => exact absurd hp (hphase c)
  rcases hinv.1.known_read with h | ⟨c, hc, -⟩
  · rw [h, hinv.2.1]
  · rw [hinv.2.2.1] at hc
    cases hc

end CrashDisk
end SignalkDoctor
