import SignalkDoctor.LastItems
import SignalkDoctor.Utf16
/-!
# ChildProcess — a child process with captured output and a timer

A caller collects what the child writes, chunk by chunk, and waits for the first of three events: the child closed, it
failed, or the timer fired, which also kills it.  The chunks are decoded one by one.  `run_settled` is what the caller gets
for any sequence of events, `run_kills` when the child is killed, and `received_of_ascii` that a text of one byte a
character is captured whole however it is cut.
-/
namespace SignalkDoctor
namespace ChildProcess

open LastItems (rtake_rtake_append rtake_of_length_le)
open Utf16 (Units units)
open Utf8 (Bytes decode encode)

inductive Pipe where
  | stdout | stderr
  deriving DecidableEq, Repr

inductive Event where
  | data (pipe : Pipe) (chunk : Bytes)
  | timer
  /-- `none` for a child that a signal ended. -/
  | close (exitCode : Option Int)
  | error (message : String)

/-- How the wait ended. -/
inductive End where
  | timeout
  | closed (exitCode : Option Int)
  | failed (message : String)
  deriving DecidableEq, Repr

/-- How much of a pipe is kept. -/
inductive Keep where
  | nothing
  | all
  | last (n : Nat)

/-- What is kept of a text that has grown. -/
def Keep.of : Keep → Units → Units
  | .nothing, _ => []
  | .all, s => s
  | .last n, s => if n < s.length then s.drop (s.length - n) else s

structure Settled where
  ending : End
  stdout : Units
  stderr : Units
  deriving DecidableEq, Repr

structure Child where
  stdout : Units
  stderr : Units
  settled : Option Settled
  kills : Nat

def Child.spawned : Child := ⟨[], [], none, 0⟩

def Child.settle (c : Child) (ending : End) : Child := { c with settled := some ⟨ending, c.stdout, c.stderr⟩ }

section
variable (stdout stderr : Keep)

/-- The handlers of the events; those of the last three do nothing once the wait is over. -/
def Child.handle (c : Child) : Event → Child
  | .data .stdout chunk => { c with stdout := stdout.of (c.stdout ++ units (decode chunk)) }
  | .data .stderr chunk => { c with stderr := stderr.of (c.stderr ++ units (decode chunk)) }
  | .timer => if c.settled.isSome then c else { c.settle .timeout with kills := c.kills + 1 }
  | .close exitCode => if c.settled.isSome then c else c.settle (.closed exitCode)
  | .error message => if c.settled.isSome then c else c.settle (.failed message)

def Child.handleAll (c : Child) (events : List Event) : Child := events.foldl (Child.handle stdout stderr) c

end

/-! ## What a sequence of events comes to -/

def Event.ending : Event → Option End
  | .data .. => none
  | .timer => some .timeout
  | .close exitCode => some (.closed exitCode)
  | .error message => some (.failed message)

/-- **The event that ends the wait, and those before it.** -/
def firstEnd : List Event → Option (List Event × End)
  | [] => none
  | e :: es =>
    match e.ending with
    | some ending => some ([], ending)
    | none => (firstEnd es).map (fun r => (e :: r.1, r.2))

def Event.text (pipe : Pipe) : Event → Units
  | .data p chunk => if p = pipe then units (decode chunk) else []
  | _ => []

/-- All a pipe gave, each chunk decoded by itself. -/
def received (pipe : Pipe) (events : List Event) : Units := events.flatMap (Event.text pipe)

/-- The bytes a pipe gave. -/
def written (pipe : Pipe) (events : List Event) : Bytes :=
  events.flatMap (fun
    | .data p chunk => if p = pipe then chunk else []
    | _ => [])

theorem Keep.of_of_append (k : Keep) (s t : Units) : k.of (k.of s ++ t) = k.of (s ++ t) := by
  have hlast : ∀ (n : Nat) (u : Units), (Keep.last n).of u = u.rtake n := by
    intro n u
    by_cases h : n < u.length
    · rw [Keep.of, if_pos h, List.rtake]
    · rw [Keep.of, if_neg h, rtake_of_length_le (Nat.le_of_not_lt h)]
  cases k with
  | nothing => rfl
  | all => rfl
  | last n => rw [hlast, hlast, hlast, rtake_rtake_append]

theorem Keep.last_of_le {n : Nat} {s : Units} (h : s.length ≤ n) : (Keep.last n).of s = s :=
  if_neg (Nat.not_lt.2 h)

theorem Keep.of_nil (k : Keep) : k.of [] = [] := by
  cases k <;> simp [Keep.of]

/-- A pipe keeps what it may of all it gave. -/
structure Child.Collected (stdout stderr : Keep) (events : List Event) (c : Child) : Prop where
  out : c.stdout = stdout.of (received .stdout events)
  err : c.stderr = stderr.of (received .stderr events)

section
variable {stdout stderr : Keep}

theorem Child.Collected.spawned : Child.spawned.Collected stdout stderr [] :=
  ⟨(Keep.of_nil stdout).symm, (Keep.of_nil stderr).symm⟩

/-- An event that does not end the wait is a chunk, and adds to its pipe. -/
theorem Child.Collected.data {events : List Event} {c : Child} (h : c.Collected stdout stderr events) {e : Event}
    (he : e.ending = none) : (c.handle stdout stderr e).Collected stdout stderr (events ++ [e]) ∧
      (c.handle stdout stderr e).settled = c.settled ∧ (c.handle stdout stderr e).kills = c.kills := by
  cases e with
  | data pipe chunk =>
    refine ⟨?_, by cases pipe <;> rfl, by cases pipe <;> rfl⟩
    constructor
    · cases pipe <;> simp [Child.handle, received, Event.text, h.out, Keep.of_of_append]
    · cases pipe <;> simp [Child.handle, received, Event.text, h.err, Keep.of_of_append]
  | timer => cases he
  | close exitCode => cases he
  | error message => cases he

/-- Once the wait is over, nothing changes how it ended and the child is not killed any more. -/
theorem Child.handle_settled {c : Child} {r : Settled} (h : c.settled = some r) (e : Event) :
    (c.handle stdout stderr e).settled = some r ∧ (c.handle stdout stderr e).kills = c.kills := by
  cases e with
  | data pipe chunk => cases pipe <;> exact ⟨h, rfl⟩
  | timer => simp [Child.handle, h]
  | close exitCode => simp [Child.handle, h]
  | error message => simp [Child.handle, h]

theorem Child.handleAll_settled : ∀ (events : List Event) {c : Child} {r : Settled}, c.settled = some r →
    (c.handleAll stdout stderr events).settled = some r ∧ (c.handleAll stdout stderr events).kills = c.kills
  | [], _, _, h => ⟨h, rfl⟩
  | e :: events, c, r, h => by
    obtain ⟨hsettled, hkills⟩ := @Child.handle_settled stdout stderr c r h e
    obtain ⟨hlater, hkillsLater⟩ := Child.handleAll_settled events hsettled
    exact ⟨hlater, hkillsLater.trans hkills⟩

/-- An event that ends a wait ends it with what the pipes have given. -/
theorem Child.handle_ending {c : Child} (h : c.settled = none) {e : Event} {ending : End} (he : e.ending = some ending) :
    (c.handle stdout stderr e).settled = some ⟨ending, c.stdout, c.stderr⟩ ∧
      (c.handle stdout stderr e).kills = c.kills + (if ending = .timeout then 1 else 0) := by
  cases e with
  | data pipe chunk => cases he
  | timer => cases he; simp [Child.handle, Child.settle, h]
  | close exitCode => cases he; simp [Child.handle, Child.settle, h]
  | error message => cases he; simp [Child.handle, Child.settle, h]

/-- A wait that has not ended ends as the first ending event among those to come says. -/
theorem Child.handleAll_waiting : ∀ (events before : List Event) {c : Child}, c.Collected stdout stderr before →
    c.settled = none →
    (c.handleAll stdout stderr events).settled = (firstEnd events).map (fun r =>
      ⟨r.2, stdout.of (received .stdout (before ++ r.1)), stderr.of (received .stderr (before ++ r.1))⟩) ∧
    (c.handleAll stdout stderr events).kills =
      c.kills + (if (firstEnd events).map Prod.snd = some .timeout then 1 else 0)
  | [], before, c, _, hwait => by simp [Child.handleAll, firstEnd, hwait]
  | e :: events, before, c, hc, hwait => by
    cases he : e.ending with
    | some ending =>
      obtain ⟨hsettled, hkills⟩ := @Child.handle_ending stdout stderr c hwait e ending he
      obtain ⟨hlater, hkillsLater⟩ := @Child.handleAll_settled stdout stderr events _ _ hsettled
      have hfirst : firstEnd (e :: events) = some ([], ending) := by rw [firstEnd, he]
      rw [hfirst]
      refine ⟨hlater.trans ?_, (hkillsLater.trans hkills).trans ?_⟩
      · simp [hc.out, hc.err]
      · simp
    | none =>
      obtain ⟨hc', hsettled, hkills⟩ := hc.data he
      obtain ⟨hlater, hkillsLater⟩ := Child.handleAll_waiting events (before ++ [e]) hc' (hsettled.trans hwait)
      have hfirst : firstEnd (e :: events) = (firstEnd events).map (fun r => (e :: r.1, r.2)) := by rw [firstEnd, he]
      refine ⟨?_, ?_⟩
      · refine hlater.trans ?_
        rw [hfirst, Option.map_map]
        congr 1
        funext r
        simp
      · refine hkillsLater.trans ?_
        rw [hkills, hfirst, Option.map_map]
        rfl

/-- **What the wait gives**, whatever the events: the first ending event, with the kept end of all each pipe gave before
it. -/
theorem run_settled (events : List Event) :
    (Child.spawned.handleAll stdout stderr events).settled = (firstEnd events).map (fun r =>
      ⟨r.2, stdout.of (received .stdout r.1), stderr.of (received .stderr r.1)⟩) := by
  have h := (@Child.handleAll_waiting stdout stderr events [] _ .spawned rfl).1
  simpa using h

/-- **The child is killed exactly when the timer ends the wait**, and once. -/
theorem run_kills (events : List Event) : (Child.spawned.handleAll stdout stderr events).kills =
    if (firstEnd events).map Prod.snd = some .timeout then 1 else 0 := by
  have h := (@Child.handleAll_waiting stdout stderr events [] _ .spawned rfl).2
  simpa [Child.spawned] using h

end

/-! ## A text cut into chunks -/

/-- The characters of ASCII bytes. -/
def ofAscii (bs : Bytes) : String := String.ofList (bs.map (fun b => Char.ofNat b.toNat))

/-- A byte below 0x80 is a character by itself. -/
theorem decode_ascii : ∀ {bs : Bytes}, (∀ b ∈ bs, b.toNat < 0x80) → decode bs = bs.map (fun b => Char.ofNat b.toNat)
  | [], _ => rfl
  | b :: bs, h => by
    have hb : b.toNat ≤ 0x7F := Nat.le_of_lt_succ (h b (List.mem_cons_self ..))
    have hrest := decode_ascii (fun c hc => h c (List.mem_cons_of_mem b hc))
    unfold decode at hrest ⊢
    rw [List.map_cons, ← hrest, Utf8.decodeFrom, Utf8.next, Utf8.first, if_pos hb]
    rfl

/-- An ASCII text has a unit a byte. -/
theorem length_units_ascii : ∀ {bs : Bytes}, (∀ b ∈ bs, b.toNat < 0x80) →
    (units (bs.map (fun b => Char.ofNat b.toNat))).length = bs.length
  | [], _ => rfl
  | b :: bs, h => by
    have hb := h b (List.mem_cons_self ..)
    have hrest := length_units_ascii (fun c hc => h c (List.mem_cons_of_mem b hc))
    have hone : (Utf16.unitsOf (Char.ofNat b.toNat)).length = 1 := by
      have hsmall : (Char.ofNat b.toNat).toNat < 0x10000 := by
        have hvalid : b.toNat.isValidChar := .inl (by omega)
        have htoNat : (Char.ofNat b.toNat).toNat = b.toNat := by
          unfold Char.ofNat
          rw [dif_pos hvalid]
          rfl
        rw [htoNat]
        exact Nat.lt_trans hb (by decide)
      rw [Utf16.unitsOf, if_pos hsmall, List.length_singleton]
    rw [units] at hrest ⊢
    rw [List.map_cons, List.flatMap_cons, List.length_append, hone, hrest, List.length_cons, Nat.add_comm]

/-- **A text of one byte a character is captured whole**, however the pipe cut it. -/
theorem received_of_ascii (pipe : Pipe) : ∀ {events : List Event}, (∀ b ∈ written pipe events, b.toNat < 0x80) →
    received pipe events = units ((written pipe events).map (fun b => Char.ofNat b.toNat))
  | [], _ => rfl
  | e :: events, h => by
    have hrest : ∀ b ∈ written pipe events, b.toNat < 0x80 := by
      intro b hb
      exact h b (by simp only [written, List.flatMap_cons, List.mem_append]; exact .inr hb)
    have htail := received_of_ascii pipe hrest
    have hcons : received pipe (e :: events) = Event.text pipe e ++ received pipe events := List.flatMap_cons
    rw [hcons, htail]
    cases e with
    | data p chunk =>
      by_cases hp : p = pipe
      · have hchunk : ∀ b ∈ chunk, b.toNat < 0x80 := by
          intro b hb
          exact h b (by simp only [written, List.flatMap_cons, List.mem_append, if_pos hp]; exact .inl hb)
        have hwritten : written pipe (.data p chunk :: events) = chunk ++ written pipe events := by
          simp only [written, List.flatMap_cons, if_pos hp]
        rw [hwritten, List.map_append, Utf16.units_append, ← decode_ascii hchunk, Event.text, if_pos hp]
      · have hwritten : written pipe (.data p chunk :: events) = written pipe events := by
          simp only [written, List.flatMap_cons, if_neg hp, List.nil_append]
        rw [hwritten, Event.text, if_neg hp, List.nil_append]
    | timer => rfl
    | close exitCode => rfl
    | error message => rfl

end ChildProcess
end SignalkDoctor
