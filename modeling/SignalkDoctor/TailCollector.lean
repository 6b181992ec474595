import SignalkDoctor.Exec
import SignalkDoctor.LastItems
import SignalkDoctor.Steps
import SignalkDoctor.Utf8
/-!
# TailCollector — the output of a command (`src/podman/exec.ts`)

A collector keeps the end of what is written to it: past `MAX_OUTPUT_BYTES` each write drops bytes from the front and the
text gets a mark.  `writeAll_spec` says what it holds after any writes.
-/
namespace SignalkDoctor
namespace Exec

open Utf8 (Bytes encode decode)

def MAX_OUTPUT_BYTES : Nat := 64 * 1024

structure TailCollector where
  chunks : List Bytes
  total : Nat
  truncated : Bool
  deriving DecidableEq, Repr

def TailCollector.empty : TailCollector := ⟨[], 0, false⟩

/-- The loop of `_write`: whole chunks go from the front, then a part of one. -/
def TailCollector.trim (chunks : List Bytes) (total : Nat) (truncated : Bool) (overflow : Nat) : TailCollector :=
  if overflow > 0 then
    match chunks with
    | [] => ⟨[], total, truncated⟩
    | first :: rest =>
      if first.length ≤ overflow then trim rest (total - first.length) true (overflow - first.length)
      else ⟨first.drop overflow :: rest, total - overflow, true⟩
  else ⟨chunks, total, truncated⟩

def TailCollector.write (c : TailCollector) (chunk : Bytes) : TailCollector :=
  trim (c.chunks ++ [chunk]) (c.total + chunk.length) c.truncated (c.total + chunk.length - MAX_OUTPUT_BYTES)

def TailCollector.writeAll (c : TailCollector) (chunks : List Bytes) : TailCollector := chunks.foldl TailCollector.write c

def truncationMark : List Char := "…(truncated)…\n".toList

def TailCollector.text (c : TailCollector) : String :=
  let joined := decode c.chunks.flatten
  String.ofList (if c.truncated then truncationMark ++ joined else joined)

/-! ## What is kept -/

/-- **The last bytes of what was written**, and whether any are gone. -/
structure TailCollector.Keeps (c : TailCollector) (written : Bytes) : Prop where
  bytes : c.chunks.flatten = written.rtake MAX_OUTPUT_BYTES
  total : c.total = c.chunks.flatten.length
  truncated : c.truncated = true ↔ MAX_OUTPUT_BYTES < written.length

/-- **The loop drops the overflow** from the front. -/
theorem TailCollector.trim_spec : ∀ (chunks : List Bytes) (total : Nat) (truncated : Bool) (overflow : Nat),
    total = chunks.flatten.length → overflow ≤ total →
      (trim chunks total truncated overflow).chunks.flatten = chunks.flatten.drop overflow ∧
        (trim chunks total truncated overflow).total = (chunks.flatten.drop overflow).length ∧
        ((trim chunks total truncated overflow).truncated = true ↔ truncated = true ∨ 0 < overflow)
  | [], total, truncated, overflow, htotal, hle => by
    obtain rfl : total = 0 := htotal
    obtain rfl : overflow = 0 := Nat.le_zero.1 hle
    simp [trim]
  | first :: rest, total, truncated, overflow, htotal, hle => by
    rw [List.flatten_cons, List.length_append] at htotal
    unfold trim
    by_cases hover : overflow > 0
    · rw [if_pos hover]
      by_cases hfirst : first.length ≤ overflow
      · obtain ⟨hbytes, htotal', htruncated⟩ := trim_spec rest (total - first.length) true (overflow - first.length)
          (by omega) (by omega)
        have hdrop : (first :: rest).flatten.drop overflow = rest.flatten.drop (overflow - first.length) := by
          rw [List.flatten_cons, List.drop_append, List.drop_eq_nil_of_le hfirst, List.nil_append]
        simp only [hfirst, if_true]
        rw [hdrop]
        exact ⟨hbytes, htotal', by simp [htruncated, hover]⟩
      · have hdrop : (first :: rest).flatten.drop overflow = first.drop overflow ++ rest.flatten := by
          rw [List.flatten_cons, List.drop_append, Nat.sub_eq_zero_of_le (by omega), List.drop_zero]
        simp only [hfirst, if_false]
        rw [hdrop, List.flatten_cons, List.length_append, List.length_drop]
        exact ⟨rfl, by omega, by simp [hover]⟩
    · obtain rfl : overflow = 0 := by omega
      rw [if_neg hover, List.drop_zero, List.flatten_cons, List.length_append]
      exact ⟨rfl, htotal, by simp⟩

theorem TailCollector.keeps_empty : TailCollector.empty.Keeps [] where
  bytes := rfl
  total := rfl
  truncated := by simp [TailCollector.empty]

/-- **A write keeps the last bytes.** -/
theorem TailCollector.keeps_write {c : TailCollector} {written : Bytes} (h : c.Keeps written) (chunk : Bytes) :
    (c.write chunk).Keeps (written ++ chunk) := by
  obtain ⟨hbytes, htotal, htruncated⟩ := h
  have hlength : c.chunks.flatten.length = min MAX_OUTPUT_BYTES written.length := by
    rw [hbytes, LastItems.length_rtake]
  have hflat : (c.chunks ++ [chunk]).flatten = c.chunks.flatten ++ chunk := by
    rw [List.flatten_append, List.flatten_singleton]
  obtain ⟨hbytes', htotal', htruncated'⟩ := trim_spec (c.chunks ++ [chunk]) (c.total + chunk.length) c.truncated
    (c.total + chunk.length - MAX_OUTPUT_BYTES) (by rw [hflat, List.length_append, htotal]) (Nat.sub_le _ _)
  have hkept : (c.write chunk).chunks.flatten = (c.chunks.flatten ++ chunk).rtake MAX_OUTPUT_BYTES := by
    rw [write, hbytes', hflat, List.rtake, List.length_append, htotal]
  refine ⟨?_, ?_, ?_⟩
  · rw [hkept, hbytes, LastItems.rtake_rtake_append]
  · rw [write, htotal', hbytes']
  · rw [write, htruncated', htruncated, List.length_append, htotal, hlength]
    omega

theorem TailCollector.keeps_writeAll : ∀ (chunks : List Bytes) {c : TailCollector} {written : Bytes}, c.Keeps written →
    (c.writeAll chunks).Keeps (written ++ chunks.flatten)
  | [], c, written, h => by
    rw [List.flatten_nil, List.append_nil]
    exact h
  | chunk :: chunks, c, written, h => by
    have := keeps_writeAll chunks (keeps_write h chunk)
    rwa [List.append_assoc, ← List.flatten_cons] at this

/-- **After any writes** a collector holds the last bytes of them all. -/
theorem TailCollector.writeAll_spec (chunks : List Bytes) : (TailCollector.empty.writeAll chunks).Keeps chunks.flatten :=
  keeps_writeAll chunks keeps_empty

/-- **A text that fits comes out whole**; one that does not gets the mark. -/
theorem TailCollector.text_of_keeps {c : TailCollector} {t : List Char} (h : c.Keeps (encode t)) :
    (encode t).length ≤ MAX_OUTPUT_BYTES ∧ c.text = String.ofList t ∨
      MAX_OUTPUT_BYTES < (encode t).length ∧ ∃ rest, c.text = String.ofList ('…' :: rest) := by
  obtain ⟨hbytes, -, htruncated⟩ := h
  by_cases hfits : (encode t).length ≤ MAX_OUTPUT_BYTES
  · have hno : ¬ c.truncated = true := fun h => absurd (htruncated.1 h) (Nat.not_lt.2 hfits)
    rw [LastItems.rtake_of_length_le hfits] at hbytes
    refine .inl ⟨hfits, ?_⟩
    simp only [text, hbytes, Utf8.decode_encode, if_neg hno]
  · have hyes : c.truncated = true := htruncated.2 (Nat.lt_of_not_le hfits)
    refine .inr ⟨Nat.lt_of_not_le hfits, "(truncated)…\n".toList ++ decode c.chunks.flatten, ?_⟩
    simp only [text, if_pos hyes]
    rfl

/-! ## The loop -/

/-- What the loop of `_write` works on. -/
structure TrimLoop where
  collector : TailCollector
  overflow : Nat
  deriving DecidableEq, Repr

/-- One turn; none where the loop is left, by its condition or by the `break`. -/
def TrimLoop.turn (l : TrimLoop) : Option TrimLoop :=
  if l.overflow > 0 then
    match l.collector.chunks with
    | [] => none
    | first :: rest =>
      if first.length ≤ l.overflow then
        some ⟨⟨rest, l.collector.total - first.length, true⟩, l.overflow - first.length⟩
      else some ⟨⟨first.drop l.overflow :: rest, l.collector.total - l.overflow, true⟩, 0⟩
  else none

/-- **The loop is left, with this, after so many turns.** -/
inductive TrimLoop.Ends : TrimLoop → Nat → TailCollector → Prop where
  | left {l : TrimLoop} : l.turn = none → TrimLoop.Ends l 0 l.collector
  | turned {l m : TrimLoop} {turns : Nat} {c : TailCollector} : l.turn = some m → TrimLoop.Ends m turns c →
      TrimLoop.Ends l (turns + 1) c

/-- The loop as a write enters it. -/
def TailCollector.entered (c : TailCollector) (chunk : Bytes) : TrimLoop :=
  ⟨⟨c.chunks ++ [chunk], c.total + chunk.length, c.truncated⟩, c.total + chunk.length - MAX_OUTPUT_BYTES⟩

/-- **The loop ends**: every turn but the last takes a chunk away. -/
theorem TrimLoop.ends : ∀ (chunks : List Bytes) (total : Nat) (truncated : Bool) (overflow : Nat),
    ∃ turns ≤ chunks.length,
      TrimLoop.Ends ⟨⟨chunks, total, truncated⟩, overflow⟩ turns (TailCollector.trim chunks total truncated overflow)
  | [], total, truncated, overflow => by
    have hleft : (TrimLoop.mk ⟨[], total, truncated⟩ overflow).turn = none := by
      unfold TrimLoop.turn
      split <;> rfl
    have htrim : TailCollector.trim [] total truncated overflow = ⟨[], total, truncated⟩ := by
      unfold TailCollector.trim
      split <;> rfl
    rw [htrim]
    exact ⟨0, Nat.le_refl 0, .left hleft⟩
  | first :: rest, total, truncated, overflow => by
    unfold TailCollector.trim
    by_cases hover : overflow > 0
    · rw [if_pos hover]
      by_cases hfirst : first.length ≤ overflow
      · obtain ⟨turns, hturns, hends⟩ := TrimLoop.ends rest (total - first.length) true (overflow - first.length)
        simp only [hfirst, if_true]
        refine ⟨turns + 1, Nat.succ_le_succ hturns, .turned ?_ hends⟩
        simp only [TrimLoop.turn, hover, hfirst, if_true]
      · simp only [hfirst, if_false]
        refine ⟨0 + 1, Nat.succ_le_succ (Nat.zero_le _), .turned (m := ⟨⟨first.drop overflow :: rest, total - overflow, true⟩, 0⟩)
          ?_ (.left rfl)⟩
        simp only [TrimLoop.turn, hover, hfirst, if_true, if_false]
    · rw [if_neg hover]
      refine ⟨0, Nat.zero_le _, .left ?_⟩
      simp only [TrimLoop.turn, hover, if_false]

/-- **What a collector holds after any writes**; the loop of the next one ends. -/
theorem TailCollector.collects (writes : List Bytes) :
    (∀ chunk, ∃ turns, ((TailCollector.empty.writeAll writes).entered chunk).Ends turns
      (TailCollector.empty.writeAll (writes ++ [chunk]))) ∧
    (TailCollector.empty.writeAll writes).chunks.flatten =
        writes.flatten.rtake (min MAX_OUTPUT_BYTES writes.flatten.length) ∧
      (TailCollector.empty.writeAll writes).total =
        ((TailCollector.empty.writeAll writes).chunks.map List.length).sum ∧
      ((TailCollector.empty.writeAll writes).truncated = true ↔ MAX_OUTPUT_BYTES < writes.flatten.length) := by
  obtain ⟨hbytes, htotal, htruncated⟩ := TailCollector.writeAll_spec writes
  refine ⟨fun chunk => ?_, ?_, ?_, htruncated⟩
  · obtain ⟨turns, -, hends⟩ := TrimLoop.ends ((TailCollector.empty.writeAll writes).chunks ++ [chunk])
      ((TailCollector.empty.writeAll writes).total + chunk.length) (TailCollector.empty.writeAll writes).truncated
      ((TailCollector.empty.writeAll writes).total + chunk.length - MAX_OUTPUT_BYTES)
    have hwrite : TailCollector.empty.writeAll (writes ++ [chunk]) = (TailCollector.empty.writeAll writes).write chunk := by
      simp only [writeAll, List.foldl_append, List.foldl_cons, List.foldl_nil]
    rw [hwrite]
    exact ⟨turns, hends⟩
  · rw [hbytes, LastItems.rtake_min]
  · rw [htotal, List.length_flatten]

/-! ## The collectors of a command -/

inductive Stream where
  | stdout | stderr
  deriving DecidableEq, Repr

def chunksOf (stream : Stream) (writes : List (Stream × Bytes)) : List Bytes :=
  (writes.filter (fun w => w.1 = stream)).map Prod.snd

/-- What the demultiplexer writes, collected: stderr apart, or in the same collector. -/
def collect (call : ExecCall) (writes : List (Stream × Bytes)) : Collected :=
  if call.separateStderr then
    ⟨(TailCollector.empty.writeAll (chunksOf .stdout writes)).text, (TailCollector.empty.writeAll (chunksOf .stderr writes)).text⟩
  else
    let collector := TailCollector.empty.writeAll (writes.map Prod.snd)
    ⟨collector.text, collector.text⟩

/-- **The runtime answers every call of a command that exits with this code**, its stream ending. -/
def ExecAct.Exits (code : Int) (collected : Collected) : ExecAct → Prop
  | .resolved found => found = true
  | .created r => r = .ok ()
  | .started r => r = .ok ()
  | .finished e => e = .ended
  | .inspected r deadlinePassed c => c = collected ∧ ∃ info, r = .ok info ∧
    (info.Running = some true ∧ deadlinePassed = false ∨ info.Running ≠ some true ∧ info.ExitCode = some code)

def ExecPc.OnCourse (call : ExecCall) (collected : Collected) (code : Int) : ExecPc → Prop
  | .done r => r = success call collected code
  | .waiting why => why = .ended
  | _ => True

theorem onCourse_step {call : ExecCall} {collected : Collected} {code : Int} {pc pc' : ExecPc} {a : ExecAct}
    (hpc : pc.OnCourse call collected code) (ha : a.Exits code collected) (h : execStep call pc a = some pc') :
    pc'.OnCourse call collected code := by
  cases pc with
  | resolving =>
    cases a with
    | resolved found =>
      obtain rfl : found = true := ha
      cases h
      trivial
    | _ => cases h
  | creating =>
    cases a with
    | created r =>
      obtain rfl : r = .ok () := ha
      cases h
      trivial
    | _ => cases h
  | starting =>
    cases a with
    | started r =>
      obtain rfl : r = .ok () := ha
      cases h
      trivial
    | _ => cases h
  | streaming =>
    cases a with
    | finished e =>
      obtain rfl : e = .ended := ha
      cases h
      rfl
    | _ => cases h
  | waiting why =>
    cases a with
    | inspected r deadlinePassed c =>
      obtain rfl : why = .ended := hpc
      obtain ⟨rfl, info, rfl, ⟨hrunning, rfl⟩ | ⟨hexited, hcode⟩⟩ := ha
      · simp only [execStep, waitForExit, hrunning, ne_eq, not_true_eq_false, if_false, Bool.false_eq_true] at h
        cases h
        rfl
      · simp only [execStep, waitForExit, hexited, ne_eq, not_false_eq_true, if_true, hcode, Option.getD_some] at h
        cases h
        rfl
    | _ => cases h
  | done r => cases a <;> cases h

/-- **Such a command succeeds**, with what was collected. -/
theorem exec_of_exits {call : ExecCall} {collected : Collected} {code : Int} {acts : List ExecAct} {r : ExecResult}
    (hacts : ∀ a ∈ acts, a.Exits code collected) (hrun : Steps.exec (execStep call) .resolving acts = some (.done r)) :
    r = success call collected code := by
  have hstep : ∀ pc a pc', pc.OnCourse call collected code → a.Exits code collected → execStep call pc a = some pc' →
      pc'.OnCourse call collected code := fun _ _ _ hpc ha h => onCourse_step hpc ha h
  exact Steps.exec_inv hstep acts .resolving (.done r) trivial (Steps.guarded_of_forall acts _ hacts) hrun

end Exec
end SignalkDoctor
