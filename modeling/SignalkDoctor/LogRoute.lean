import Mathlib.Logic.Function.Basic
import SignalkDoctor.DriftTypes
import SignalkDoctor.JsString
import SignalkDoctor.LastItems
import SignalkDoctor.LogBroker
import SignalkDoctor.Precedence
/-!
# LogRoute — the log streams of one container (`src/routes/logs-stream.ts`)

The route keeps the last lines of the container in a ring, fed by a permanent subscriber of its broker; a client is
sent what it asks for of the ring, then every line its own subscriber is handed.  Events are handled one at a time, and
a spawn emits nothing before the handler that caused it is done (`routeStep`), so nothing is buffered at the handoff.

A line is an item of any type with a text: the same text may come again.  `sent_backfill_then_live` says what a client
is sent in any run.
-/
namespace SignalkDoctor
namespace LogRoute

open Drift (toDouble le_toDouble)
open Function (update)
open LogBroker
open Precedence (value)
open Steps (exec)
open LastItems

/-! ## One line through the broker -/

section
variable {σ : Type} [DecidableEq σ] (respawnDelayMs : Nat)

/-- A turn of the loop: the next subscriber is handed the line and returns. -/
theorem callbackEnds_advance {b : Broker σ} {sub : σ} {line : String} {next next' i : Nat}
    (h : b.subscribers.nextFrom next = some (sub, next')) :
    brokerStep respawnDelayMs (advance b (.fanOut line next i)) (.callbackEnds false) =
      some (advance { b with trace := b.trace ++ [.onLine sub line] } (.fanOut line next' (i + 1))) := by
  have hcall : advance b (.fanOut line next i) =
      { b with stack := .fanOut line next' i :: b.stack, trace := b.trace ++ [.onLine sub line] } := by
    simp only [advance, h]
  simp only [hcall, brokerStep, Bool.false_eq_true, ↓reduceIte, List.append_nil, Frame.resume]

/-- The loop over the subscribers, none of which calls the broker or throws, hands the line to each that is left. -/
theorem exec_advance (line : String) : ∀ (subs : List σ) (b : Broker σ) (next i : Nat), b.subscribers.rest next = subs →
    exec (brokerStep respawnDelayMs) (advance b (.fanOut line next i))
        (List.replicate subs.length (.callbackEnds false)) =
      some { b with trace := b.trace ++ subs.map (fun sub => .onLine sub line) }
  | [], b, next, i, hrest => by
    rcases JsSet.rest_of_nextFrom (s := b.subscribers) (k := next) with ⟨hnone, -⟩ | ⟨sub, next', -, hcons⟩
    · simp [advance, hnone, exec]
    · rw [hrest] at hcons
      cases hcons
  | sub :: subs, b, next, i, hrest => by
    rcases JsSet.rest_of_nextFrom (s := b.subscribers) (k := next) with ⟨-, hnil⟩ | ⟨sub', next', hsome, hcons⟩
    · rw [hrest] at hnil
      cases hnil
    · rw [hrest, List.cons.injEq] at hcons
      obtain ⟨rfl, hsubs⟩ := hcons
      have ih := exec_advance line subs { b with trace := b.trace ++ [.onLine sub line] } next' (i + 1) hsubs.symm
      rw [List.length_cons, List.replicate_succ, exec, callbackEnds_advance respawnDelayMs hsome, Option.bind_some, ih]
      simp only [List.map_cons, List.append_assoc, List.singleton_append]

/-- **`fanOut`**, run to completion. -/
def fanOut (b : Broker σ) (tail : Nat) (line : String) : Option (Broker σ) :=
  exec (brokerStep respawnDelayMs) b (.line tail line :: List.replicate b.subscribers.size (.callbackEnds false))

/-- Each subscriber is handed the line once, in the order of subscription. -/
theorem fanOut_eq {b b' : Broker σ} {tail : Nat} {line : String} (h : fanOut respawnDelayMs b tail line = some b') :
    tail < b.nextTail ∧ b' =
      { b with
        consecutiveRespawns := 0
        trace := b.trace ++ b.subscribers.toList.map (fun sub => .onLine sub line) } := by
  by_cases hlt : tail < b.nextTail
  · refine ⟨hlt, ?_⟩
    have hloop := exec_advance respawnDelayMs line b.subscribers.toList { b with consecutiveRespawns := 0 } 0 0 rfl
    simp only [fanOut, exec, brokerStep, if_pos hlt, Option.bind_some, JsSet.size, hloop, Option.some.injEq] at h
    exact h.symm
  · simp [fanOut, exec, brokerStep, hlt] at h

end

/-! ## The route -/

def backfillLimit : Nat := 500

/-- The sign and the digits that `Number.parseInt` reads. -/
def signedDigits : List Char → Int × List Char
  | '-' :: cs => (-1, cs.takeWhile Char.isDigit)
  | '+' :: cs => (1, cs.takeWhile Char.isDigit)
  | cs => (1, cs.takeWhile Char.isDigit)

/-- `Number.parseInt(s, 10)`, rounded to a double; none for `NaN`. -/
def parseInt (s : String) : Option Int :=
  let number := signedDigits (s.toList.dropWhile JsString.isSpace)
  if number.2 = [] then none else some (number.1 * Drift.parseInt number.2)

/-- `Number.parseInt(req.query.tail ?? '200', 10) || 200` -/
def askedTail (query : Option String) : Int :=
  match parseInt (query.getD "200") with
  | some n => if n = 0 then 200 else n
  | none => 200

/-- `Math.max(1, Math.min(5000, …))` of it -/
def tailOf (query : Option String) : Nat := (max 1 (min 5000 (askedTail query))).toNat

/-! ## The tail of a query -/

/-- A text starts with a number: white space, a sign, digits, and no digit next. -/
def StartsWith (n : Int) (cs : List Char) : Prop :=
  ∃ space sign digits rest, cs = space ++ (sign ++ (digits ++ rest)) ∧
    (∀ c ∈ space, JsString.isSpace c = true) ∧ digits ≠ [] ∧ (∀ c ∈ digits, c.isDigit = true) ∧
    (∀ c ∈ rest.head?, c.isDigit = false) ∧
    ((sign = [] ∨ sign = ['+']) ∧ n = value digits ∨ sign = ['-'] ∧ n = -(value digits : Int))

/-- **The tail a query asks for**: its number, clamped to 1 to 5000; 200 where there is no number, or the number is 0. -/
structure TailIs (query : Option String) (t : Nat) : Prop where
  number : ∀ s n, query = some s → StartsWith n s.toList → n ≠ 0 → (t : Int) = max 1 (min 5000 n)
  default : (∀ s n, query = some s → StartsWith n s.toList → n = 0) → t = 200

theorem takeWhile_digits {digits rest : List Char} (hdigits : ∀ c ∈ digits, c.isDigit = true)
    (hrest : ∀ c ∈ rest.head?, c.isDigit = false) : (digits ++ rest).takeWhile Char.isDigit = digits := by
  rw [List.takeWhile_append_of_pos hdigits]
  cases rest with
  | nil => simp
  | cons c rest => simp [hrest c rfl]

theorem signedDigits_of_digit {d : Char} {cs : List Char} (h : d.isDigit = true) :
    signedDigits (d :: cs) = (1, (d :: cs).takeWhile Char.isDigit) := by
  unfold signedDigits
  split
  · rename_i heq
    cases heq
    cases h
  · rename_i heq
    cases heq
    cases h
  · rfl

/-- **`parseInt` reads the number a text starts with**, rounded. -/
theorem parseInt_of_startsWith {s : String} {n : Int} (h : StartsWith n s.toList) :
    ∃ v : Nat, (n = v ∧ parseInt s = some (toDouble v : Int)) ∨ (n = -v ∧ parseInt s = some (-(toDouble v : Int))) := by
  obtain ⟨space, sign, digits, rest, htext, hspace, hne, hdigits, hrest, hsign⟩ := h
  have htake := takeWhile_digits hdigits hrest
  obtain ⟨d, ds, rfl⟩ := List.exists_cons_of_ne_nil hne
  have hd := hdigits d (List.mem_cons_self ..)
  have hdrop : s.toList.dropWhile JsString.isSpace = sign ++ (d :: ds ++ rest) := by
    rw [htext, List.dropWhile_append_of_pos hspace]
    rcases hsign with ⟨rfl | rfl, -⟩ | ⟨rfl, -⟩
    · simp [JsString.isSpace_of_isDigit hd]
    · simp [show JsString.isSpace '+' = false from rfl]
    · simp [show JsString.isSpace '-' = false from rfl]
  refine ⟨value (d :: ds), ?_⟩
  unfold parseInt
  dsimp only
  rw [hdrop]
  rcases hsign with ⟨rfl | rfl, rfl⟩ | ⟨rfl, rfl⟩
  · rw [List.nil_append, List.cons_append, signedDigits_of_digit hd, ← List.cons_append, htake, if_neg hne]
    exact .inl ⟨rfl, congrArg some (Int.one_mul (Drift.parseInt (d :: ds)))⟩
  · rw [List.singleton_append, signedDigits, htake, if_neg hne]
    exact .inl ⟨rfl, congrArg some (Int.one_mul (Drift.parseInt (d :: ds)))⟩
  · rw [List.singleton_append, signedDigits, htake, if_neg hne]
    exact .inr ⟨rfl, congrArg some (Int.neg_one_mul (Drift.parseInt (d :: ds)))⟩

/-- What `signedDigits` reads stands in the text. -/
theorem signedDigits_spec (cs : List Char) : ∃ sign rest,
    cs = sign ++ ((signedDigits cs).2 ++ rest) ∧ (∀ c ∈ (signedDigits cs).2, c.isDigit = true) ∧
      (∀ c ∈ rest.head?, c.isDigit = false) ∧ ((sign = [] ∨ sign = ['+']) ∨ sign = ['-']) := by
  have hread : ∀ cs : List Char, cs = cs.takeWhile Char.isDigit ++ cs.dropWhile Char.isDigit ∧
      (∀ c ∈ cs.takeWhile Char.isDigit, c.isDigit = true) ∧ ∀ c ∈ (cs.dropWhile Char.isDigit).head?, c.isDigit = false := by
    intro cs
    refine ⟨List.takeWhile_append_dropWhile.symm, fun c hc => List.mem_takeWhile_imp hc, fun c hc => ?_⟩
    have hnot := List.head?_dropWhile_not Char.isDigit cs
    rw [hc] at hnot
    simpa using hnot
  unfold signedDigits
  split
  · rename_i cs
    exact ⟨['-'], _, congrArg _ (hread cs).1, (hread cs).2.1, (hread cs).2.2, .inr rfl⟩
  · rename_i cs
    exact ⟨['+'], _, congrArg _ (hread cs).1, (hread cs).2.1, (hread cs).2.2, .inl (.inr rfl)⟩
  · exact ⟨[], _, (hread cs).1, (hread cs).2.1, (hread cs).2.2, .inl (.inl rfl)⟩

/-- A text from which `parseInt` reads anything starts with a number. -/
theorem exists_startsWith {s : String} {m : Int} (h : parseInt s = some m) : ∃ n, StartsWith n s.toList := by
  obtain ⟨sign, rest, htext, hdigits, hrest, hsign⟩ := signedDigits_spec (s.toList.dropWhile JsString.isSpace)
  unfold parseInt at h
  dsimp only at h
  split at h
  · cases h
  · rename_i hne
    have hall : s.toList = s.toList.takeWhile JsString.isSpace ++
        (sign ++ ((signedDigits (s.toList.dropWhile JsString.isSpace)).2 ++ rest)) := by
      rw [← htext, List.takeWhile_append_dropWhile]
    rcases hsign with hsign | hsign
    · exact ⟨_, _, sign, _, rest, hall, fun c hc => List.mem_takeWhile_imp hc, hne, hdigits, hrest, .inl ⟨hsign, rfl⟩⟩
    · exact ⟨_, _, sign, _, rest, hall, fun c hc => List.mem_takeWhile_imp hc, hne, hdigits, hrest, .inr ⟨hsign, rfl⟩⟩

/-- **The route takes the tail its query asks for.** -/
theorem tailIs_tailOf (query : Option String) : TailIs query (tailOf query) := by
  constructor
  · rintro s n rfl hstarts hn
    obtain ⟨v, hread⟩ := parseInt_of_startsWith hstarts
    -- up to 5000 the rounding is exact, and from there on it stays there
    have hexact : v < 5000 → toDouble v = v := fun h => if_pos (h.trans (by decide))
    have hlarge : 5000 ≤ v → 5000 ≤ toDouble v := le_toDouble (by decide)
    unfold tailOf askedTail
    rcases hread with ⟨rfl, hparse⟩ | ⟨rfl, hparse⟩
    · simp only [Option.getD_some, hparse]
      split <;> omega
    · simp only [Option.getD_some, hparse]
      split <;> omega
  · intro hzero
    have hasked : askedTail query = 200 := by
      unfold askedTail
      cases query with
      | none => decide
      | some s =>
        cases hparse : parseInt s with
        | none => rw [Option.getD_some, hparse]
        | some m =>
          obtain ⟨n, hstarts⟩ := exists_startsWith hparse
          obtain ⟨v, hread⟩ := parseInt_of_startsWith hstarts
          obtain rfl : v = 0 := by
            have := hzero s n rfl hstarts
            omega
          obtain rfl : m = 0 := by
            rw [hparse, show toDouble 0 = 0 from rfl] at hread
            rcases hread with ⟨-, hm⟩ | ⟨-, hm⟩ <;> simpa using hm
          rw [Option.getD_some, hparse]
          rfl
    rw [tailOf, hasked]
    rfl

/-- A subscriber of the broker: the permanent one that keeps the history, or a client's. -/
inductive Sub where
  | history
  | client (id : Nat)
  deriving DecidableEq, Repr

/-- The variables of one request for the stream, and the lines written to its socket. -/
structure Client (α : Type) where
  alive : Bool
  liveMode : Bool
  buffered : List α
  sent : List α
  deriving DecidableEq, Repr

/-- The container's broker, whether it is in `warmedContainers`, its `containerHistory` and the requests so far. -/
structure Route (α : Type) where
  broker : Broker Sub
  warmed : Bool
  history : Option (List α)
  clients : Nat → Option (Client α)

def Route.init (α : Type) : Route α := ⟨.init Sub, false, none, fun _ => none⟩

section
variable {α : Type}

def pushHistory (history : Option (List α)) (line : α) : Option (List α) :=
  let buf := history.getD [] ++ [line]
  some (if buf.length > backfillLimit then buf.drop (buf.length - backfillLimit) else buf)

/-- `buf.slice(-tail)`, for a positive `tail` -/
def getHistory (history : Option (List α)) (tail : Nat) : List α :=
  match history with
  | none => []
  | some buf => buf.drop (buf.length - tail)

def Client.onLine (c : Client α) (line : α) : Client α :=
  if c.alive = false then c
  else if c.liveMode then { c with sent := c.sent ++ [line] }
  else { c with buffered := c.buffered ++ [line] }

/-- `buffered.lastIndexOf(text)` -/
def lastIndexOf (lines : List String) (text : String) : Option Nat :=
  (lines.reverse.idxOf? text).map (fun i => lines.length - 1 - i)

/-- From the snapshot of the history on: it is written, what is buffered and not in it follows, the client is live. -/
def Client.handoff (text : α → String) (history : List α) (c : Client α) : Client α :=
  let drainStart :=
    match history.getLast? with
    | none => 0
    | some lastHistory =>
      match lastIndexOf (c.buffered.map text) (text lastHistory) with
      | none => 0
      | some idx => idx + 1
  { c with
    sent := c.sent ++ history ++ c.buffered.drop drainStart
    buffered := []
    liveMode := true }

def Route.onLine (r : Route α) (line : α) : Sub → Route α
  | .history => { r with history := pushHistory r.history line }
  | .client id => { r with clients := update r.clients id ((r.clients id).map (·.onLine line)) }

def callee? : Event Sub → Option Sub
  | .onLine sub _ => some sub
  | _ => none

inductive RouteAct (α : Type) where
  | line (tail : Nat) (l : α)
  | exit (tail : Nat)
  | timer
  /-- `GET /api/containers/:name/logs/stream` -/
  | connect (id : Nat) (tail : Option String)
  /-- `req.raw` is closed. -/
  | disconnect (id : Nat)
  /-- `GET /api/containers/:name/logs` -/
  | logs

variable (respawnDelayMs : Nat) (text : α → String)

def Route.call (r : Route α) (a : Act Sub) : Option (Route α) :=
  (brokerStep respawnDelayMs r.broker a).map (fun b => { r with broker := b })

def Route.warmBroker (r : Route α) : Option (Route α) :=
  if r.warmed then some r
  else (r.call respawnDelayMs (.subscribe .history true)).map (fun r => { r with warmed := true })

/-- **One event, run to completion.**  The broker stays open. -/
def routeStep (r : Route α) : RouteAct α → Option (Route α)
  | .line tail l =>
    (fanOut respawnDelayMs r.broker tail (text l)).map (fun b =>
      let called := (b.trace.drop r.broker.trace.length).filterMap callee?
      called.foldl (fun r sub => r.onLine l sub) { r with broker := b })
  | .exit tail => r.call respawnDelayMs (.exit tail)
  | .timer => r.call respawnDelayMs (.timer true)
  | .connect id tail =>
    (r.warmBroker respawnDelayMs).bind (fun r =>
      (r.call respawnDelayMs (.subscribe (.client id) true)).map (fun r =>
        let c : Client α := ⟨true, false, [], []⟩
        { r with clients := update r.clients id (some (c.handoff text (getHistory r.history (tailOf tail)))) }))
  | .disconnect id =>
    (r.call respawnDelayMs (.unsubscribe (.client id))).map (fun r =>
      { r with clients := update r.clients id ((r.clients id).map (fun c => { c with alive := false })) })
  | .logs => r.warmBroker respawnDelayMs

def lines (acts : List (RouteAct α)) : List α :=
  acts.filterMap (fun | .line _ l => some l | _ => none)

/-- The events up to the end of the client's connection. -/
def untilClose (id : Nat) (acts : List (RouteAct α)) : List (RouteAct α) :=
  acts.takeWhile (fun | .disconnect i => decide (i ≠ id) | _ => true)

/-! ## The history -/

theorem pushHistory_rtake {history : Option (List α)} {delivered : List α}
    (h : history.getD [] = delivered.rtake backfillLimit) (line : α) :
    (pushHistory history line).getD [] = (delivered ++ [line]).rtake backfillLimit := by
  have hkeep : (pushHistory history line).getD [] = (history.getD [] ++ [line]).rtake backfillLimit := by
    simp only [pushHistory, Option.getD_some]
    split
    · rfl
    · rename_i hle
      exact (rtake_of_length_le (Nat.le_of_not_lt hle)).symm
  rw [hkeep, h, rtake_rtake_append]

theorem getHistory_rtake {history : Option (List α)} {delivered : List α}
    (h : history.getD [] = delivered.rtake backfillLimit) (tail : Nat) :
    getHistory history tail = delivered.rtake (min (min tail backfillLimit) delivered.length) := by
  have hlast : getHistory history tail = (history.getD []).rtake tail := by
    cases history with
    | none => simp [getHistory]
    | some buf => rfl
  rw [hlast, h, rtake_rtake]
  rcases Nat.le_total (min tail backfillLimit) delivered.length with hle | hle
  · rw [Nat.min_eq_left hle]
  · rw [Nat.min_eq_right hle, rtake_of_length_le hle, rtake_of_length_le (Nat.le_refl _)]

/-! ## The callbacks of a line -/

theorem called_fanOut (trace : List (Event Sub)) (subs : List Sub) (line : String) :
    ((trace ++ subs.map (fun sub => Event.onLine sub line)).drop trace.length).filterMap callee? = subs := by
  rw [List.drop_left, List.filterMap_map]
  exact List.filterMap_some

/-- What the callbacks of a line leave: each subscriber has handled it once. -/
theorem foldl_onLine (line : α) : ∀ (subs : List Sub) (r : Route α), subs.Nodup →
    (subs.foldl (fun r sub => r.onLine line sub) r).broker = r.broker ∧
      (subs.foldl (fun r sub => r.onLine line sub) r).warmed = r.warmed ∧
      (subs.foldl (fun r sub => r.onLine line sub) r).history =
        (if .history ∈ subs then pushHistory r.history line else r.history) ∧
      ∀ id, (subs.foldl (fun r sub => r.onLine line sub) r).clients id =
        if .client id ∈ subs then (r.clients id).map (·.onLine line) else r.clients id
  | [], r, _ => by simp
  | sub :: subs, r, hnodup => by
    obtain ⟨hnew, hrest⟩ := List.nodup_cons.1 hnodup
    obtain ⟨hbroker, hwarmed, hhistory, hclients⟩ := foldl_onLine line subs (r.onLine line sub) hrest
    rw [List.foldl_cons]
    cases sub with
    | history =>
      refine ⟨hbroker, hwarmed, ?_, fun id => ?_⟩
      · rw [hhistory, if_neg hnew, if_pos (List.mem_cons_self ..)]
        rfl
      · rw [hclients id]
        simp [Route.onLine]
    | client i =>
      refine ⟨hbroker, hwarmed, ?_, fun id => ?_⟩
      · rw [hhistory]
        simp [Route.onLine]
      · rw [hclients id]
        by_cases hid : id = i
        · subst hid
          rw [if_neg hnew, if_pos (List.mem_cons_self ..)]
          simp [Route.onLine]
        · simp [Route.onLine, hid]

/-! ## The invariant -/

/-- After these lines: the history is the last of them, and each client is live and handed lines while it is alive. -/
structure Route.Inv (delivered : List α) (r : Route α) : Prop where
  broker : r.broker.Inv
  stays : r.broker.closed = false
  cold : r.warmed = false → r.broker = .init Sub
  feed : r.warmed = true → .history ∈ r.broker.subscribers.toList
  history : r.history.getD [] = delivered.rtake backfillLimit
  known : ∀ id, r.clients id ≠ none → .client id ∈ r.broker.known
  absent : ∀ id, r.clients id = none → .client id ∉ r.broker.subscribers.toList
  clients : ∀ id c, r.clients id = some c →
    c.liveMode = true ∧ (c.alive = true ↔ .client id ∈ r.broker.subscribers.toList)

theorem inv_init : (Route.init α).Inv [] where
  broker := Broker.inv_init
  stays := rfl
  cold := fun _ => rfl
  feed := fun h => by cases h
  history := (List.rtake_nil _).symm
  known := fun _ h => absurd rfl h
  absent := fun _ _ h => by cases h
  clients := fun _ _ h => by cases h

/-! ## What a call of the broker does to its subscribers -/

section
variable {σ : Type} [DecidableEq σ] {respawnDelayMs : Nat} {b b' : Broker σ} {sub : σ}

omit [DecidableEq σ] in
theorem spawnIfNeeded_subscribers (respawnDelayMs : Nat) (b : Broker σ) (ok : Bool) :
    (spawnIfNeeded respawnDelayMs b ok).subscribers = b.subscribers ∧
      (spawnIfNeeded respawnDelayMs b ok).known = b.known ∧
      (spawnIfNeeded respawnDelayMs b ok).closed = b.closed := by
  unfold spawnIfNeeded scheduleRespawn
  split
  · exact ⟨rfl, rfl, rfl⟩
  · simp only
    split
    · split
      · exact ⟨rfl, rfl, rfl⟩
      · split <;> exact ⟨rfl, rfl, rfl⟩
    · exact ⟨rfl, rfl, rfl⟩

theorem subscribe_spec (hs : b.Inv) (hopen : b.closed = false)
    (h : brokerStep respawnDelayMs b (.subscribe sub true) = some b') :
    sub ∉ b.known ∧ b'.subscribers.toList = b.subscribers.toList ++ [sub] ∧ b'.known = sub :: b.known ∧
      b'.closed = false := by
  simp only [brokerStep, hopen, Bool.false_eq_true, ↓reduceIte] at h
  split at h
  · cases h
  · rename_i hnew
    cases h
    obtain ⟨hsubs, hknown, hclosed⟩ := spawnIfNeeded_subscribers respawnDelayMs
      { b with subscribers := b.subscribers.add sub, known := sub :: b.known, closed := false } true
    rw [hsubs, hknown, hclosed]
    exact ⟨hnew, JsSet.toList_add (fun hm => hnew (hs.known sub hm)), rfl, rfl⟩

theorem unsubscribe_spec (h : brokerStep respawnDelayMs b (.unsubscribe sub) = some b') :
    sub ∈ b.known ∧ (∀ k, k ∈ b'.subscribers.toList ↔ k ∈ b.subscribers.toList ∧ k ≠ sub) ∧ b'.known = b.known ∧
      b'.closed = b.closed := by
  simp only [brokerStep] at h
  split at h
  · rename_i hknown
    split at h
    · rename_i hhas
      cases h
      refine ⟨hknown, fun k => ⟨fun hk => ⟨hk, ?_⟩, fun hk => hk.1⟩, rfl, rfl⟩
      rintro rfl
      rw [(JsSet.has_iff _ _).2 hk] at hhas
      cases hhas
    · have hdelete : ∀ k, k ∈ (b.subscribers.delete sub).toList ↔ k ∈ b.subscribers.toList ∧ k ≠ sub := fun k => by
        rw [JsSet.toList_delete, List.mem_filter, decide_eq_true_eq]
      simp only [Option.some.injEq] at h
      split at h <;> subst h <;> exact ⟨hknown, hdelete, rfl, rfl⟩
  · cases h

theorem exit_spec {tail : Nat} (h : brokerStep respawnDelayMs b (.exit tail) = some b') :
    tail < b.nextTail ∧ b'.subscribers = b.subscribers ∧ b'.known = b.known ∧ b'.closed = b.closed := by
  simp only [brokerStep] at h
  split at h
  · rename_i hlt
    simp only [Option.some.injEq] at h
    subst h
    unfold scheduleRespawn
    refine ⟨hlt, ?_⟩
    split
    · split
      · exact ⟨rfl, rfl, rfl⟩
      · split <;> exact ⟨rfl, rfl, rfl⟩
    · exact ⟨rfl, rfl, rfl⟩
  · cases h

theorem timer_spec (h : brokerStep respawnDelayMs b (.timer true) = some b') :
    b.respawnTimer ≠ none ∧ b'.subscribers = b.subscribers ∧ b'.known = b.known ∧ b'.closed = b.closed := by
  simp only [brokerStep] at h
  split at h
  · cases h
  · rename_i delay htimer
    simp only [Option.some.injEq] at h
    subst h
    refine ⟨by simp [htimer], ?_⟩
    split
    · exact ⟨rfl, rfl, rfl⟩
    · exact spawnIfNeeded_subscribers _ _ _

end

/-! ## What an event keeps -/

/-- What an event does to a client that has connected. -/
def Client.after (id : Nat) (c : Client α) : RouteAct α → Client α
  | .line _ l => c.onLine l
  | .disconnect i => if i = id then { c with alive := false } else c
  | _ => c

section
variable {respawnDelayMs : Nat} {text : α → String} {r r' : Route α} {delivered : List α}

theorem Route.Inv.setBroker (hs : r.Inv delivered) {b : Broker Sub} (hb : b.Inv) (hwarm : r.warmed = true)
    (hsubs : b.subscribers = r.broker.subscribers) (hknown : b.known = r.broker.known)
    (hclosed : b.closed = r.broker.closed) : Route.Inv delivered { r with broker := b } where
  broker := hb
  stays := hclosed.trans hs.stays
  cold := fun h => by rw [hwarm] at h; cases h
  feed := fun h => by simp only [hsubs]; exact hs.feed h
  history := hs.history
  known := fun id h => by simp only [hknown]; exact hs.known id h
  absent := fun id h => by simp only [hsubs]; exact hs.absent id h
  clients := fun id c h => by simp only [hsubs]; exact hs.clients id c h

theorem Route.Inv.warm_of_line (hs : r.Inv delivered) {tail : Nat} (h : tail < r.broker.nextTail) :
    r.warmed = true := by
  cases hw : r.warmed with
  | true => rfl
  | false =>
    rw [hs.cold hw] at h
    exact absurd h (Nat.not_lt_zero _)

/-- The callbacks of a line put it in the history and hand it to each client. -/
theorem Route.Inv.onLine (hs : r.Inv delivered) (hwarm : r.warmed = true) (l : α) :
    Route.Inv (delivered ++ [l]) (r.broker.subscribers.toList.foldl (fun r sub => r.onLine l sub) r) ∧
      ∀ id, (r.broker.subscribers.toList.foldl (fun r sub => r.onLine l sub) r).clients id =
        (r.clients id).map (·.onLine l) := by
  obtain ⟨hbroker, hwarmed, hhistory, hclients⟩ := foldl_onLine l r.broker.subscribers.toList r hs.broker.nodup
  rw [if_pos (hs.feed hwarm)] at hhistory
  -- a client that is not among the subscribers is not alive, and would ignore the line
  have hmap : ∀ id, (r.broker.subscribers.toList.foldl (fun r sub => r.onLine l sub) r).clients id =
      (r.clients id).map (·.onLine l) := fun id => by
    rw [hclients id]
    split
    · rfl
    · rename_i hout
      cases hc : r.clients id with
      | none => rfl
      | some c =>
        have hdead : c.alive = false := by
          cases ha : c.alive with
          | false => rfl
          | true => exact absurd ((hs.clients id c hc).2.1 ha) hout
        simp [Client.onLine, hdead]
  refine ⟨⟨?_, ?_, ?_, ?_, ?_, ?_, ?_, ?_⟩, hmap⟩
  · rw [hbroker]; exact hs.broker
  · rw [hbroker]; exact hs.stays
  · rw [hwarmed, hwarm]; exact fun h => by cases h
  · rw [hbroker]; exact fun _ => hs.feed hwarm
  · rw [hhistory]; exact pushHistory_rtake hs.history l
  · intro id
    rw [hmap id, hbroker, ne_eq, Option.map_eq_none_iff]
    exact hs.known id
  · intro id
    rw [hmap id, hbroker, Option.map_eq_none_iff]
    exact hs.absent id
  · intro id c
    rw [hmap id, hbroker, Option.map_eq_some_iff]
    rintro ⟨c', hc', rfl⟩
    obtain ⟨hlive, halive⟩ := hs.clients id c' hc'
    cases ha : c'.alive <;> simp [Client.onLine, ha, hlive, ← halive]

theorem inv_line (hs : r.Inv delivered) {tail : Nat} {l : α}
    (h : routeStep respawnDelayMs text r (.line tail l) = some r') :
    r'.Inv (delivered ++ [l]) ∧ ∀ id, r'.clients id = (r.clients id).map (·.onLine l) := by
  obtain ⟨b, hb, rfl⟩ := Option.map_eq_some_iff.1 h
  obtain ⟨hlt, rfl⟩ := fanOut_eq respawnDelayMs hb
  have hwarm := hs.warm_of_line hlt
  have hset := hs.setBroker (Steps.exec_inv' brokerStep_inv _ r.broker _ hs.broker hb) hwarm rfl rfl rfl
  simp only [called_fanOut]
  exact hset.onLine hwarm l

theorem inv_warmBroker (hs : r.Inv delivered) (h : r.warmBroker respawnDelayMs = some r') :
    r'.Inv delivered ∧ r'.warmed = true ∧ r'.history = r.history ∧ r'.clients = r.clients := by
  unfold Route.warmBroker at h
  split at h
  · rename_i hwarm
    cases h
    exact ⟨hs, hwarm, rfl, rfl⟩
  · obtain ⟨r₁, h₁, rfl⟩ := Option.map_eq_some_iff.1 h
    obtain ⟨b, hb, rfl⟩ := Option.map_eq_some_iff.1 h₁
    obtain ⟨-, hsubs, hknown, hclosed⟩ := subscribe_spec hs.broker hs.stays hb
    refine ⟨⟨brokerStep_inv _ _ _ hs.broker hb, hclosed, fun h => ?_, fun _ => ?_, hs.history, fun id hid => ?_,
      fun id hid => ?_, fun id c hc => ?_⟩, rfl, rfl, rfl⟩
    · cases h
    · simp [hsubs]
    · simp only [hknown]
      exact List.mem_cons_of_mem _ (hs.known id hid)
    · simpa [hsubs] using hs.absent id hid
    · simpa [hsubs] using hs.clients id c hc

/-- Nothing is buffered at the handoff: the client is sent the snapshot and is live. -/
theorem handoff_eq (history : List α) :
    Client.handoff text history ⟨true, false, [], []⟩ = ⟨true, true, [], history⟩ := by
  simp [Client.handoff]

theorem inv_connect (hs : r.Inv delivered) {id : Nat} {tail : Option String}
    (h : routeStep respawnDelayMs text r (.connect id tail) = some r') :
    r'.Inv delivered ∧ r.clients id = none ∧ r'.clients = update r.clients id
      (some ⟨true, true, [], delivered.rtake (min (min (tailOf tail) backfillLimit) delivered.length)⟩) := by
  obtain ⟨r₁, h₁, h⟩ := Option.bind_eq_some_iff.1 h
  obtain ⟨hs₁, hwarm, -, hclients⟩ := inv_warmBroker hs h₁
  obtain ⟨r₂, h₂, rfl⟩ := Option.map_eq_some_iff.1 h
  obtain ⟨b, hb, rfl⟩ := Option.map_eq_some_iff.1 h₂
  obtain ⟨hnew, hsubs, hknown, hclosed⟩ := subscribe_spec hs₁.broker hs₁.stays hb
  have hnone : r₁.clients id = none := by
    cases hc : r₁.clients id with
    | none => rfl
    | some c => exact absurd (hs₁.known id (by simp [hc])) hnew
  simp only [handoff_eq, getHistory_rtake hs₁.history]
  refine ⟨⟨brokerStep_inv _ _ _ hs₁.broker hb, hclosed, fun hcold => ?_, fun _ => ?_, hs₁.history, fun i hi => ?_,
    fun i hi => ?_, fun i c hc => ?_⟩, hclients ▸ hnone, by rw [hclients]⟩
  · rw [hwarm] at hcold
    cases hcold
  · simp [hsubs, hs₁.feed hwarm]
  · by_cases hid : i = id
    · simp [hknown, hid]
    · simp only [ne_eq, hid, not_false_eq_true, Function.update_of_ne] at hi
      simp only [hknown]
      exact List.mem_cons_of_mem _ (hs₁.known i hi)
  · by_cases hid : i = id
    · simp [hid] at hi
    · simp only [ne_eq, hid, not_false_eq_true, Function.update_of_ne] at hi
      simpa [hsubs, hid] using hs₁.absent i hi
  · by_cases hid : i = id
    · subst hid
      simp only [Function.update_self, Option.some.injEq] at hc
      subst hc
      simp [hsubs]
    · simp only [ne_eq, hid, not_false_eq_true, Function.update_of_ne] at hc
      simpa [hsubs, hid] using hs₁.clients i c hc

theorem inv_disconnect (hs : r.Inv delivered) {id : Nat}
    (h : routeStep respawnDelayMs text r (.disconnect id) = some r') :
    r'.Inv delivered ∧ r'.clients = update r.clients id ((r.clients id).map (fun c => { c with alive := false })) := by
  obtain ⟨r₁, h₁, rfl⟩ := Option.map_eq_some_iff.1 h
  obtain ⟨b, hb, rfl⟩ := Option.map_eq_some_iff.1 h₁
  obtain ⟨hin, hsubs, hknown, hclosed⟩ := unsubscribe_spec hb
  refine ⟨⟨brokerStep_inv _ _ _ hs.broker hb, hclosed.trans hs.stays, fun hcold => ?_, fun hwarm => ?_, hs.history,
    fun i hi => ?_, fun i hi => ?_, fun i c hc => ?_⟩, rfl⟩
  · rw [hs.cold hcold] at hin
    cases hin
  · exact (hsubs _).2 ⟨hs.feed hwarm, by simp⟩
  · simp only [hknown]
    by_cases hid : i = id
    · exact hid ▸ hin
    · simp only [ne_eq, hid, not_false_eq_true, Function.update_of_ne] at hi
      exact hs.known i hi
  · simp only [hsubs]
    by_cases hid : i = id
    · simp [hid]
    · simp only [ne_eq, hid, not_false_eq_true, Function.update_of_ne] at hi
      exact fun h => hs.absent i hi h.1
  · simp only [hsubs]
    by_cases hid : i = id
    · subst hid
      simp only [Function.update_self, Option.map_eq_some_iff] at hc
      obtain ⟨c', hc', rfl⟩ := hc
      simp [(hs.clients i c' hc').1]
    · simp only [ne_eq, hid, not_false_eq_true, Function.update_of_ne] at hc
      simpa [hid] using hs.clients i c hc

/-- **What an event keeps**, and what it does to a client that has connected. -/
theorem routeStep_inv (hs : r.Inv delivered) {a : RouteAct α} (h : routeStep respawnDelayMs text r a = some r') :
    r'.Inv (delivered ++ lines [a]) ∧ ∀ id c, r.clients id = some c → r'.clients id = some (c.after id a) := by
  cases a with
  | line tail l =>
    obtain ⟨hinv, hclients⟩ := inv_line hs h
    refine ⟨hinv, fun id c hc => ?_⟩
    rw [hclients id, hc]
    rfl
  | exit tail =>
    obtain ⟨b, hb, rfl⟩ := Option.map_eq_some_iff.1 h
    obtain ⟨hlt, hsubs, hknown, hclosed⟩ := exit_spec hb
    rw [show lines [RouteAct.exit (α := α) tail] = [] from rfl, List.append_nil]
    exact ⟨hs.setBroker (brokerStep_inv _ _ _ hs.broker hb) (hs.warm_of_line hlt) hsubs hknown hclosed,
      fun id c hc => hc⟩
  | timer =>
    obtain ⟨b, hb, rfl⟩ := Option.map_eq_some_iff.1 h
    obtain ⟨htimer, hsubs, hknown, hclosed⟩ := timer_spec hb
    have hwarm : r.warmed = true := by
      cases hw : r.warmed with
      | true => rfl
      | false =>
        rw [hs.cold hw] at htimer
        exact absurd rfl htimer
    rw [show lines [RouteAct.timer (α := α)] = [] from rfl, List.append_nil]
    exact ⟨hs.setBroker (brokerStep_inv _ _ _ hs.broker hb) hwarm hsubs hknown hclosed, fun id c hc => hc⟩
  | connect id tail =>
    obtain ⟨hinv, hnone, hclients⟩ := inv_connect hs h
    rw [show lines [RouteAct.connect (α := α) id tail] = [] from rfl, List.append_nil]
    refine ⟨hinv, fun i c hc => ?_⟩
    have hne : i ≠ id := by
      rintro rfl
      rw [hnone] at hc
      cases hc
    rw [hclients, Function.update_of_ne hne]
    exact hc
  | disconnect id =>
    obtain ⟨hinv, hclients⟩ := inv_disconnect hs h
    rw [show lines [RouteAct.disconnect (α := α) id] = [] from rfl, List.append_nil]
    refine ⟨hinv, fun i c hc => ?_⟩
    rw [hclients]
    by_cases hid : i = id
    · subst hid
      simp [hc, Client.after]
    · rw [Function.update_of_ne hid, hc, Client.after, if_neg (Ne.symm hid)]
  | logs =>
    obtain ⟨hinv, -, -, hclients⟩ := inv_warmBroker hs h
    rw [show lines [RouteAct.logs (α := α)] = [] from rfl, List.append_nil]
    exact ⟨hinv, fun id c hc => by rw [hclients]; exact hc⟩

/-! ## Runs -/

theorem lines_append (as bs : List (RouteAct α)) : lines (as ++ bs) = lines as ++ lines bs := List.filterMap_append

theorem exec_routeStep_inv : ∀ (acts : List (RouteAct α)) (r r' : Route α) (delivered : List α), r.Inv delivered →
    exec (routeStep respawnDelayMs text) r acts = some r' → r'.Inv (delivered ++ lines acts)
  | [], r, r', delivered, hs, h => by
    cases h
    rw [show lines ([] : List (RouteAct α)) = [] from rfl, List.append_nil]
    exact hs
  | a :: acts, r, r', delivered, hs, h => by
    obtain ⟨r₁, h₁, h⟩ := Steps.exec_cons h
    have ih := exec_routeStep_inv acts r₁ r' _ (routeStep_inv hs h₁).1 h
    rwa [List.append_assoc, ← lines_append, List.singleton_append] at ih

theorem exec_client {id : Nat} : ∀ (acts : List (RouteAct α)) (r r' : Route α) (delivered : List α) (c : Client α),
    r.Inv delivered → r.clients id = some c → exec (routeStep respawnDelayMs text) r acts = some r' →
      ∃ c', r'.clients id = some c' ∧ c'.sent = c.sent ++ (if c.alive then lines (untilClose id acts) else [])
  | [], r, r', _, c, _, hc, h => by
    cases h
    exact ⟨c, hc, by simp [untilClose, lines]⟩
  | a :: acts, r, r', delivered, c, hs, hc, h => by
    obtain ⟨r₁, h₁, h⟩ := Steps.exec_cons h
    obtain ⟨hs₁, hafter⟩ := routeStep_inv hs h₁
    obtain ⟨c', hc', hsent⟩ := exec_client acts r₁ r' _ _ hs₁ (hafter id c hc) h
    refine ⟨c', hc', ?_⟩
    rw [hsent]
    have hlive := (hs.clients id c hc).1
    cases a with
    | line tail l => cases ha : c.alive <;> simp [Client.after, Client.onLine, untilClose, lines, ha, hlive]
    | disconnect i =>
      by_cases hid : i = id
      · simp [Client.after, untilClose, lines, hid]
      · simp [Client.after, untilClose, lines, hid]
    | _ => simp [Client.after, untilClose, lines]

end

/-- **A client is sent the recent past, then every line, each once.**  In every run of the route: of the `n` lines
delivered before its connect the last `min (min t 500) n`, `t` the tail its query asks for (`TailIs`), then each line
delivered until its connection is closed, in this order. -/
theorem sent_backfill_then_live (respawnDelayMs : Nat) (text : α → String) (before after : List (RouteAct α)) (id : Nat)
    (tail : Option String) (r : Route α)
    (hrun : exec (routeStep respawnDelayMs text) (.init α) (before ++ .connect id tail :: after) = some r) :
    ∃ t, TailIs tail t ∧ ∃ c, r.clients id = some c ∧
      c.sent = (lines before).rtake (min (min t 500) (lines before).length) ++ lines (untilClose id after) := by
  rw [Steps.exec_append, Option.bind_eq_some_iff] at hrun
  obtain ⟨r₀, hbefore, hrun⟩ := hrun
  obtain ⟨r₁, hconnect, hafter⟩ := Steps.exec_cons hrun
  have hs₀ := exec_routeStep_inv before _ r₀ [] inv_init hbefore
  obtain ⟨hs₁, -, hclients⟩ := inv_connect hs₀ hconnect
  obtain ⟨c, hc, hsent⟩ := exec_client after r₁ r _ _ hs₁ (by rw [hclients, Function.update_self]) hafter
  exact ⟨tailOf tail, tailIs_tailOf tail, c, hc, hsent⟩

/-- Two equal lines, a client that asks for one of them, a line, a failure of the stream and a line of the next. -/
def equalLines : List (RouteAct String) :=
  [.logs, .line 0 "up", .line 0 "up", .connect 7 (some "1"), .line 0 "up", .exit 0, .timer, .line 1 "down",
    .disconnect 7, .line 1 "up"]

theorem sent_backfill_then_live_equalLines :
    ∃ r, exec (routeStep 1000 id) (.init String) equalLines = some r ∧
      ∃ t, TailIs (some "1") t ∧ ∃ c, r.clients 7 = some c ∧
        c.sent = ["up", "up"].rtake (min (min t 500) 2) ++ ["up", "down"] :=
  ⟨_, rfl, sent_backfill_then_live 1000 id [.logs, .line 0 "up", .line 0 "up"]
    [.line 0 "up", .exit 0, .timer, .line 1 "down", .disconnect 7, .line 1 "up"] 7 (some "1") _ rfl⟩

end

/-- A client that asks for 0 lines is sent 200, where its tail clamped to 1 to 5000 is 1. -/
theorem sent_tailZero :
    ¬ ∀ (before after : List (RouteAct String)) (id : Nat) (s : String) (n : Int) (r : Route String),
      StartsWith n s.toList →
      exec (routeStep 1000 (fun l => l)) (.init String) (before ++ .connect id (some s) :: after) = some r →
        ∃ c, r.clients id = some c ∧
          c.sent = (lines before).rtake (min (min (max 1 (min 5000 n)).toNat 500) (lines before).length) ++
            lines (untilClose id after) := by
  intro h
  have hzero : StartsWith 0 "0".toList :=
    ⟨[], [], ['0'], [], rfl, List.forall_mem_nil _, List.cons_ne_nil _ _, List.forall_mem_singleton.2 rfl, by simp,
      .inl ⟨.inl rfl, rfl⟩⟩
  obtain ⟨c, hc, hsent⟩ := h [.logs, .line 0 "up", .line 0 "down"] [] 7 "0" 0 _ hzero rfl
  cases hc
  exact absurd hsent (by decide)

end LogRoute
end SignalkDoctor
