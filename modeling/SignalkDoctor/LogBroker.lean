import Mathlib.Algebra.Ring.Nat
import SignalkDoctor.JsSet
import SignalkDoctor.Steps
/-!
# LogBroker — one log stream for many subscribers (`src/log-stream-broker.ts`)

A broker keeps one tail of a container's log while it has subscribers, and starts another after a delay when the tail
ends.  A label of `brokerStep` is what reaches the broker from outside: a call of a method, a line or the exit of a
tail, the respawn timer, the return of a callback.  The callbacks in progress are a stack (`Frame`), so that
subscribers can call the broker from inside `onLine` and `onClose`.

`Broker.Inv` says when there is a tail or a timer and what has happened since `close`; `broker_safe` is what follows
for every run.
-/
namespace SignalkDoctor
namespace LogBroker

open Steps (exec exec_inv')

inductive Reason where
  | containerRemoved | engineStopped
  deriving DecidableEq, Repr

def respawnDelayDefault : Nat := 1000

def maxRespawnDelay : Nat := 30000

/-- A loop over subscribers that waits for a callback: `fanOut`, with the line, the index of the iteration and the
number of the subscriber, or the loop of `close`, with the subscribers still to come. -/
inductive Frame (σ : Type) where
  | fanOut (line : String) (next : Nat) (i : Nat)
  | closing (reason : Reason) (rest : List σ)

inductive Event (σ : Type) where
  /-- `spawnTail` returned a handle with this `ok`. -/
  | spawn (tail : Nat) (ok : Bool)
  | stop (tail : Nat)
  | exit (tail : Nat)
  | onLine (sub : σ) (line : String)
  | onClose (sub : σ)
  | onSubscriberError (index : Int)
  deriving DecidableEq

/-- **A broker**: its variables, the callbacks in progress, and for the statements the events so far, the subscribers
it ever had, and, once it is closed, how many events there were then and which subscribers. -/
structure Broker (σ : Type) where
  subscribers : JsSet σ
  tail : Option Nat
  closed : Bool
  respawnTimer : Option Nat
  consecutiveRespawns : Nat
  stack : List (Frame σ)
  nextTail : Nat
  trace : List (Event σ)
  known : List σ
  closedAt : Option (Nat × List σ)

def Broker.init (σ : Type) : Broker σ := ⟨.empty, none, false, none, 0, [], 0, [], [], none⟩

section
variable {σ : Type} [DecidableEq σ] (respawnDelayMs : Nat)

def respawnDelay (consecutiveRespawns : Nat) : Nat :=
  let cap := if respawnDelayMs ≥ respawnDelayDefault then maxRespawnDelay else respawnDelayMs * 30
  min (respawnDelayMs * 2 ^ consecutiveRespawns) cap

def scheduleRespawn (s : Broker σ) : Broker σ :=
  if s.respawnTimer ≠ none ∨ s.closed = true then s
  else if s.subscribers.size = 0 then s
  else
    { s with
      consecutiveRespawns := s.consecutiveRespawns + 1
      respawnTimer := some (respawnDelay respawnDelayMs s.consecutiveRespawns) }

/-- `spawnIfNeeded`; `ok` is what a spawn, if there is one, reports. -/
def spawnIfNeeded (s : Broker σ) (ok : Bool) : Broker σ :=
  if s.tail ≠ none ∨ s.closed = true then s
  else
    let t := { s with nextTail := s.nextTail + 1, trace := s.trace ++ [.spawn s.nextTail ok] }
    if ok = false then scheduleRespawn respawnDelayMs t else { t with tail := some s.nextTail }

def stopTail (s : Broker σ) : Broker σ :=
  { s with respawnTimer := none, tail := none, trace := s.trace ++ (s.tail.map Event.stop).toList }

/-- A loop goes on: it calls the next subscriber back and waits, or is done. -/
def advance (s : Broker σ) : Frame σ → Broker σ
  | .fanOut line next i =>
    match s.subscribers.nextFrom next with
    | some (sub, next') =>
      { s with stack := .fanOut line next' i :: s.stack, trace := s.trace ++ [.onLine sub line] }
    | none => s
  | .closing reason rest =>
    match rest with
    | sub :: rest => { s with stack := .closing reason rest :: s.stack, trace := s.trace ++ [.onClose sub] }
    | [] => s

/-- The loop after a callback, the error of which it hands on. -/
def Frame.resume : Frame σ → Frame σ
  | .fanOut line next i => .fanOut line next (i + 1)
  | .closing reason rest => .closing reason rest

/-- The index `onSubscriberError` is given. -/
def Frame.errorIndex : Frame σ → Int
  | .fanOut _ _ i => i
  | .closing .. => -1

inductive Act (σ : Type) where
  /-- `subscribe(sub)`, a spawn then reporting `ok` -/
  | subscribe (sub : σ) (ok : Bool)
  /-- a call of the function `subscribe` returned -/
  | unsubscribe (sub : σ)
  | close (reason : Reason)
  | line (tail : Nat) (line : String)
  | exit (tail : Nat)
  /-- the timer fires, a spawn then reporting `ok` -/
  | timer (ok : Bool)
  /-- the callback in progress returns or throws -/
  | callbackEnds (threw : Bool)

/-- **One step of a broker.**  A subscriber object is subscribed once; a tail that was spawned, whatever came of it, can
emit and exit at any time and again. -/
def brokerStep (s : Broker σ) : Act σ → Option (Broker σ)
  | .subscribe sub ok =>
    if sub ∈ s.known then none
    else if s.closed then some { s with known := sub :: s.known }
    else some (spawnIfNeeded respawnDelayMs { s with subscribers := s.subscribers.add sub, known := sub :: s.known } ok)
  | .unsubscribe sub =>
    if sub ∈ s.known then
      if s.subscribers.has sub = false then some s
      else
        let t := { s with subscribers := s.subscribers.delete sub }
        some (if t.subscribers.size = 0 then stopTail t else t)
    else none
  | .close reason =>
    if s.closed then some s
    else
      let snapshot := s.subscribers.toList
      let t := stopTail { s with closed := true, subscribers := s.subscribers.clear }
      some (advance { t with closedAt := some (t.trace.length, snapshot) } (.closing reason snapshot))
  | .line tail line =>
    if tail < s.nextTail then some (advance { s with consecutiveRespawns := 0 } (.fanOut line 0 0)) else none
  | .exit tail =>
    if tail < s.nextTail then
      let t := { s with trace := s.trace ++ [.exit tail] }
      some (if s.tail = some tail then scheduleRespawn respawnDelayMs { t with tail := none } else t)
    else none
  | .timer ok =>
    match s.respawnTimer with
    | none => none
    | some _ =>
      let t := { s with respawnTimer := none }
      some (if t.subscribers.size = 0 then t else spawnIfNeeded respawnDelayMs t ok)
  | .callbackEnds threw =>
    match s.stack with
    | [] => none
    | f :: stack =>
      let t := { s with stack := stack, trace := s.trace ++ (if threw then [.onSubscriberError f.errorIndex] else []) }
      some (advance t f.resume)

end

/-! ## The invariant -/

def Event.quiet {σ : Type} : Event σ → Bool
  | .spawn .. | .onLine .. => false
  | _ => true

section
variable {σ : Type} [DecidableEq σ]

def Broker.present (s : Broker σ) : List σ := (s.closedAt.map Prod.snd).getD []

/-- How often the loops in progress are still to call `onClose` of the subscriber. -/
def pendingClose (stack : List (Frame σ)) (sub : σ) : Nat :=
  (stack.map (fun | .closing _ rest => rest.count sub | .fanOut .. => 0)).sum

/-- **What holds at any point of an operation**: no started tail is lost; without subscribers there is no tail and no
timer; since `close` the broker is quiet, and each subscriber present then has had its `onClose` or will. -/
structure Broker.Steady (s : Broker σ) : Prop where
  tails : ∀ t, .spawn t true ∈ s.trace → s.tail = some t ∨ .exit t ∈ s.trace ∨ .stop t ∈ s.trace
  idle : s.subscribers.toList = [] → s.tail = none ∧ s.respawnTimer = none
  cleared : s.closed = true → s.subscribers.toList = []
  known : ∀ sub ∈ s.subscribers.toList, sub ∈ s.known
  nodup : s.subscribers.toList.Nodup
  closedAt : s.closedAt = none ↔ s.closed = false
  late : ∀ n present, s.closedAt = some (n, present) →
    n ≤ s.trace.length ∧ present.Nodup ∧ ∀ e ∈ s.trace.drop n, e.quiet = true
  calls : ∀ sub, s.trace.count (.onClose sub) + pendingClose s.stack sub = s.present.count sub

/-- **The invariant between operations**: besides, an open broker with a subscriber has a tail or a timer. -/
structure Broker.Inv (s : Broker σ) : Prop extends s.Steady where
  served : s.closed = false → s.subscribers.toList ≠ [] → s.tail ≠ none ∨ s.respawnTimer ≠ none

theorem Broker.inv_init : (Broker.init σ).Inv where
  tails := fun t h => by cases h
  idle := fun _ => ⟨rfl, rfl⟩
  cleared := fun _ => rfl
  known := fun sub h => by cases h
  nodup := List.nodup_nil
  closedAt := ⟨fun _ => rfl, fun _ => rfl⟩
  late := fun n present h => by cases h
  calls := fun sub => rfl
  served := fun _ h => absurd rfl h

variable {s t : Broker σ} {respawnDelayMs : Nat}

/-- Events that are no start of a tail and no `onClose`, and quiet once the broker is closed, change nothing. -/
theorem Broker.Steady.log (hs : s.Steady) (events : List (Event σ)) (hspawn : ∀ t, .spawn t true ∉ events)
    (hclose : ∀ sub, .onClose sub ∉ events) (hquiet : s.closed = true → ∀ e ∈ events, e.quiet = true) :
    Broker.Steady { s with trace := s.trace ++ events } where
  tails := fun t h => by
    have hmem := (List.mem_append.1 h).resolve_right (hspawn t)
    rcases hs.tails t hmem with htail | hexit | hstop
    · exact .inl htail
    · exact .inr (.inl (List.mem_append_left _ hexit))
    · exact .inr (.inr (List.mem_append_left _ hstop))
  idle := hs.idle
  cleared := hs.cleared
  known := hs.known
  nodup := hs.nodup
  closedAt := hs.closedAt
  late := fun n present h => by
    obtain ⟨hn, hnd, hq⟩ := hs.late n present h
    refine ⟨by simp only [List.length_append]; omega, hnd, fun e he => ?_⟩
    simp only [List.drop_append_of_le_length hn] at he
    rcases List.mem_append.1 he with he | he
    · exact hq e he
    · have hclosed : s.closed = true := by
        by_cases hc : s.closed = true
        · exact hc
        · rw [hs.closedAt.2 (by simpa using hc)] at h; cases h
      exact hquiet hclosed e he
  calls := fun sub => by
    have hcount : events.count (.onClose sub) = 0 := List.count_eq_zero_of_not_mem (hclose sub)
    have := hs.calls sub
    simp only [Broker.present, List.count_append, hcount] at this ⊢
    omega

/-- The timer may be set while there are subscribers. -/
theorem Broker.Steady.setTimer (hs : s.Steady) (timer : Option Nat) (n : Nat)
    (h : s.subscribers.toList = [] → timer = none) :
    Broker.Steady { s with respawnTimer := timer, consecutiveRespawns := n } :=
  ⟨hs.tails, fun he => ⟨(hs.idle he).1, h he⟩, hs.cleared, hs.known, hs.nodup, hs.closedAt, hs.late, hs.calls⟩

/-- The tail may be given up once its exit or stop is among the events. -/
theorem Broker.Steady.dropTail (hs : s.Steady) {n : Nat} (hn : s.tail = some n)
    (h : .exit n ∈ s.trace ∨ .stop n ∈ s.trace) : Broker.Steady { s with tail := none } :=
  ⟨fun k hk => by
    rcases hs.tails k hk with htail | hgone
    · rw [hn, Option.some.injEq] at htail
      exact .inr (htail ▸ h)
    · exact .inr hgone,
   fun he => ⟨rfl, (hs.idle he).2⟩, hs.cleared, hs.known, hs.nodup, hs.closedAt, hs.late, hs.calls⟩

theorem scheduleRespawn_inv (hs : s.Steady) (hopen : s.closed = false) (hne : s.subscribers.toList ≠ []) :
    (scheduleRespawn respawnDelayMs s).Inv := by
  have hsize : s.subscribers.size ≠ 0 := fun h => hne ((s.subscribers.size_eq_zero_iff).1 h)
  unfold scheduleRespawn
  split
  · rename_i h
    have htimer : s.respawnTimer ≠ none := h.resolve_right (by simp [hopen])
    exact ⟨hs, fun _ _ => .inr htimer⟩
  · exact ⟨hs.setTimer _ _ (fun h => absurd h hne), fun _ _ => .inr (by simp)⟩

theorem spawnIfNeeded_inv (hs : s.Steady) (hopen : s.closed = false) (hne : s.subscribers.toList ≠ []) (ok : Bool) :
    (spawnIfNeeded respawnDelayMs s ok).Inv := by
  unfold spawnIfNeeded
  split
  · rename_i h
    have htail : s.tail ≠ none := h.resolve_right (by simp [hopen])
    exact ⟨hs, fun _ _ => .inl htail⟩
  · rename_i h
    have hnone : s.tail = none := by
      by_cases ht : s.tail = none
      · exact ht
      · exact absurd (.inl ht) h
    cases ok with
    | false =>
      have hlog := hs.log [.spawn s.nextTail false] (by simp) (by simp) (by simp [hopen])
      exact scheduleRespawn_inv ⟨hlog.tails, hlog.idle, hlog.cleared, hlog.known, hlog.nodup, hlog.closedAt, hlog.late,
        hlog.calls⟩ hopen hne
    | true =>
      have hlate : s.closedAt = none := hs.closedAt.2 hopen
      refine ⟨⟨fun k hk => ?_, fun he => absurd he hne, hs.cleared, hs.known, hs.nodup, hs.closedAt, ?_, ?_⟩,
        fun _ _ => .inl (by simp)⟩
      · simp only [Bool.true_eq_false, if_false, List.mem_append, List.mem_singleton] at hk ⊢
        rcases hk with hk | hk
        · rcases hs.tails k hk with htail | hexit | hstop
          · rw [hnone] at htail; cases htail
          · exact .inr (.inl (.inl hexit))
          · exact .inr (.inr (.inl hstop))
        · cases hk
          exact .inl rfl
      · intro n present hp
        simp only [Bool.true_eq_false, if_false, hlate] at hp
        cases hp
      · intro sub
        have := hs.calls sub
        simpa [Broker.present, List.count_append, hlate] using this

/-- The subscribers may change as long as the last does not go while there is a tail or a timer. -/
theorem Broker.Steady.setSubscribers (hs : s.Steady) (subs : JsSet σ) (known : List σ)
    (hidle : subs.toList = [] → s.tail = none ∧ s.respawnTimer = none) (hcleared : s.closed = true → subs.toList = [])
    (hknown : ∀ sub ∈ subs.toList, sub ∈ known) (hnodup : subs.toList.Nodup) :
    Broker.Steady { s with subscribers := subs, known := known } :=
  ⟨hs.tails, hidle, hcleared, hknown, hnodup, hs.closedAt, hs.late, hs.calls⟩

/-- The stack may change as long as the same calls of `onClose` are still to come. -/
theorem Broker.Steady.setStack (hs : s.Steady) (stack : List (Frame σ))
    (h : ∀ sub, pendingClose stack sub = pendingClose s.stack sub) : Broker.Steady { s with stack := stack } :=
  ⟨hs.tails, hs.idle, hs.cleared, hs.known, hs.nodup, hs.closedAt, hs.late, fun sub => by
    have := hs.calls sub
    rw [← h sub] at this
    exact this⟩

theorem stopTail_steady (hs : s.Steady) : (stopTail s).Steady := by
  cases ht : s.tail with
  | none =>
    have := hs.setTimer none s.consecutiveRespawns (fun _ => rfl)
    simpa [stopTail, ht] using this
  | some n =>
    have hlog := hs.log [.stop n] (by simp) (by simp) (by simp [Event.quiet])
    have hdrop := hlog.dropTail ht (.inr (by simp))
    have := hdrop.setTimer none s.consecutiveRespawns (fun _ => rfl)
    simpa [stopTail, ht] using this

/-- **A loop goes on**: what is still to be called is on the stack. -/
theorem advance_steady {f : Frame σ} (hs : Broker.Steady { s with stack := f :: s.stack }) : (advance s f).Steady := by
  cases f with
  | fanOut line next i =>
    have hs' : s.Steady := hs.setStack s.stack (fun sub => by simp [pendingClose])
    simp only [advance]
    split
    · rename_i sub next' hnext
      have hmem : sub ∈ s.subscribers.toList := JsSet.nextFrom_mem hnext
      have hopen : s.closed = false := by
        by_cases hc : s.closed = true
        · rw [hs.cleared hc] at hmem; cases hmem
        · simpa using hc
      have hlog := hs'.log [.onLine sub line] (by simp) (by simp) (by simp [hopen])
      exact hlog.setStack _ (fun sub => by simp [pendingClose])
    · exact hs'
  | closing reason rest =>
    cases rest with
    | nil => exact hs.setStack s.stack (fun sub => by simp [pendingClose])
    | cons sub rest =>
      refine ⟨fun k hk => ?_, hs.idle, hs.cleared, hs.known, hs.nodup, hs.closedAt, fun n present hp => ?_, fun k => ?_⟩
      · simp only [advance, List.mem_append, List.mem_singleton, reduceCtorEq, or_false] at hk ⊢
        exact hs.tails k hk
      · obtain ⟨hn, hnd, hq⟩ := hs.late n present hp
        simp only at hn
        refine ⟨by simp only [advance, List.length_append]; omega, hnd, fun e he => ?_⟩
        simp only [advance, List.drop_append_of_le_length hn] at he
        rcases List.mem_append.1 he with he | he
        · exact hq e he
        · rw [List.mem_singleton.1 he]
          rfl
      · have := hs.calls k
        simp only [pendingClose, List.map_cons, List.sum_cons, List.count_cons, Broker.present] at this
        simp only [advance, List.count_append, pendingClose, List.map_cons, List.sum_cons, List.count_cons, List.count_nil,
          Broker.present]
        by_cases hk : sub = k
        · subst hk; simp at this ⊢; omega
        · simp [hk] at this ⊢; omega

omit [DecidableEq σ] in
theorem advance_frame (s : Broker σ) (f : Frame σ) :
    (advance s f).closed = s.closed ∧ (advance s f).subscribers = s.subscribers ∧ (advance s f).tail = s.tail ∧
      (advance s f).respawnTimer = s.respawnTimer := by
  unfold advance
  split
  · split <;> exact ⟨rfl, rfl, rfl, rfl⟩
  · split <;> exact ⟨rfl, rfl, rfl, rfl⟩

theorem advance_inv {f : Frame σ} (hs : Broker.Steady { s with stack := f :: s.stack })
    (hserved : s.closed = false → s.subscribers.toList ≠ [] → s.tail ≠ none ∨ s.respawnTimer ≠ none) :
    (advance s f).Inv := by
  obtain ⟨hclosed, hsubs, htail, htimer⟩ := advance_frame s f
  exact ⟨advance_steady hs, by rw [hclosed, hsubs, htail, htimer]; exact hserved⟩

/-! ## One step -/

theorem subscribe_inv (hs : s.Inv) {sub : σ} {ok : Bool} (h : brokerStep respawnDelayMs s (.subscribe sub ok) = some t) :
    t.Inv := by
  simp only [brokerStep] at h
  split at h
  · cases h
  · rename_i hnew
    split at h
    · rename_i hclosed
      cases h
      exact ⟨hs.toSteady.setSubscribers s.subscribers _ hs.idle hs.cleared
        (fun k hk => List.mem_cons_of_mem _ (hs.known k hk)) hs.nodup, hs.served⟩
    · rename_i hopen
      cases h
      have hfresh : sub ∉ s.subscribers.toList := fun hm => hnew (hs.known sub hm)
      have hlist := JsSet.toList_add hfresh
      have hadd := hs.toSteady.setSubscribers (s.subscribers.add sub) (sub :: s.known)
        (fun he => by rw [hlist] at he; simp at he) (fun hc => absurd hc hopen)
        (fun k hk => by
          rw [hlist, List.mem_append, List.mem_singleton] at hk
          rcases hk with hk | rfl
          · exact List.mem_cons_of_mem _ (hs.known k hk)
          · exact List.mem_cons_self ..)
        (by rw [hlist]; exact List.nodup_append.2 ⟨hs.nodup, by simp, fun a ha b hb => by
          rw [List.mem_singleton.1 hb]; exact fun hab => hfresh (hab ▸ ha)⟩)
      exact spawnIfNeeded_inv hadd (by simpa using hopen) (by simp [hlist]) ok

theorem unsubscribe_inv (hs : s.Inv) {sub : σ} (h : brokerStep respawnDelayMs s (.unsubscribe sub) = some t) : t.Inv := by
  simp only [brokerStep] at h
  split at h
  · split at h
    · cases h; exact hs
    · rename_i hhas
      have hmem : sub ∈ s.subscribers.toList := (JsSet.has_iff _ _).1 (by simpa using hhas)
      have hlist := JsSet.toList_delete s.subscribers sub
      have hknown : ∀ k ∈ (s.subscribers.delete sub).toList, k ∈ s.known := fun k hk => by
        rw [hlist] at hk
        exact hs.known k (List.mem_filter.1 hk).1
      have hnodup : (s.subscribers.delete sub).toList.Nodup := by rw [hlist]; exact hs.nodup.filter _
      have hcleared : s.closed = true → (s.subscribers.delete sub).toList = [] := fun hc => by
        rw [hlist, hs.cleared hc]; rfl
      simp only [Option.some.injEq] at h
      split at h
      · -- the last one: the tail is stopped
        rename_i hsize
        subst h
        have hempty := (JsSet.size_eq_zero_iff _).1 hsize
        have hstop := stopTail_steady hs.toSteady
        exact ⟨hstop.setSubscribers _ s.known (fun _ => ⟨rfl, rfl⟩) hcleared hknown hnodup,
          fun _ hne => absurd hempty hne⟩
      · rename_i hsize
        subst h
        have hne : (s.subscribers.delete sub).toList ≠ [] := fun he => hsize ((JsSet.size_eq_zero_iff _).2 he)
        exact ⟨hs.toSteady.setSubscribers _ s.known (fun he => absurd he hne) hcleared hknown hnodup,
          fun hopen _ => hs.served hopen (List.ne_nil_of_mem hmem)⟩
  · cases h

theorem close_inv (hs : s.Inv) {reason : Reason} (h : brokerStep respawnDelayMs s (.close reason) = some t) : t.Inv := by
  simp only [brokerStep] at h
  split at h
  · cases h; exact hs
  · rename_i hopen
    cases h
    have hopen : s.closed = false := by simpa using hopen
    have hstop := stopTail_steady hs.toSteady
    have hnone : s.closedAt = none := hs.closedAt.2 hopen
    refine advance_inv ?_ (fun hc => by cases hc)
    refine ⟨hstop.tails, fun _ => ⟨rfl, rfl⟩, fun _ => JsSet.toList_clear _, fun k hk => ?_, ?_, ?_, fun n present hp => ?_,
      fun k => ?_⟩
    · rw [show (stopTail { s with closed := true, subscribers := s.subscribers.clear }).subscribers.toList = [] from
        JsSet.toList_clear _] at hk
      cases hk
    · rw [show (stopTail { s with closed := true, subscribers := s.subscribers.clear }).subscribers.toList = [] from
        JsSet.toList_clear _]
      exact List.nodup_nil
    · simp [stopTail]
    · cases hp
      exact ⟨Nat.le_refl _, hs.nodup, fun e he => by rw [List.drop_length] at he; cases he⟩
    · -- nothing was called and nothing pending before
      have hcalls := hstop.calls k
      simp only [Broker.present, stopTail, hnone, Option.map_none, Option.getD_none, List.count_nil] at hcalls
      simp only [Broker.present, stopTail, pendingClose, List.map_cons, List.sum_cons, Option.map_some, Option.getD_some] at hcalls ⊢
      omega

theorem line_inv (hs : s.Inv) {n : Nat} {line : String} (h : brokerStep respawnDelayMs s (.line n line) = some t) :
    t.Inv := by
  simp only [brokerStep] at h
  split at h
  · cases h
    have hreset := hs.toSteady.setTimer s.respawnTimer 0 (fun he => (hs.idle he).2)
    exact advance_inv (hreset.setStack _ (fun sub => by simp [pendingClose])) hs.served
  · cases h

theorem exit_inv (hs : s.Inv) {n : Nat} (h : brokerStep respawnDelayMs s (.exit n) = some t) : t.Inv := by
  simp only [brokerStep] at h
  split at h
  · have hlog := hs.toSteady.log [.exit n] (by simp) (by simp) (by simp [Event.quiet])
    simp only [Option.some.injEq] at h
    split at h
    · rename_i htail
      subst h
      have hdrop := hlog.dropTail htail (.inl (by simp))
      have hne : s.subscribers.toList ≠ [] := fun he => by
        rw [(hs.idle he).1] at htail; cases htail
      have hopen : s.closed = false := by
        by_cases hc : s.closed = true
        · exact absurd (hs.cleared hc) hne
        · simpa using hc
      exact scheduleRespawn_inv hdrop hopen hne
    · subst h
      exact ⟨hlog, hs.served⟩
  · cases h

theorem timer_inv (hs : s.Inv) {ok : Bool} (h : brokerStep respawnDelayMs s (.timer ok) = some t) : t.Inv := by
  simp only [brokerStep] at h
  split at h
  · cases h
  · have hclear := hs.toSteady.setTimer none s.consecutiveRespawns (fun _ => rfl)
    simp only [Option.some.injEq] at h
    split at h
    · rename_i hsize
      subst h
      exact ⟨hclear, fun _ hne => absurd ((JsSet.size_eq_zero_iff _).1 hsize) hne⟩
    · rename_i hsize
      subst h
      have hne : s.subscribers.toList ≠ [] := fun he => hsize ((JsSet.size_eq_zero_iff _).2 he)
      have hopen : s.closed = false := by
        by_cases hc : s.closed = true
        · exact absurd (hs.cleared hc) hne
        · simpa using hc
      exact spawnIfNeeded_inv hclear hopen hne ok

theorem callbackEnds_inv (hs : s.Inv) {threw : Bool} (h : brokerStep respawnDelayMs s (.callbackEnds threw) = some t) :
    t.Inv := by
  simp only [brokerStep] at h
  split at h
  · cases h
  · rename_i f stack hstack
    cases h
    have hresume : ∀ sub, pendingClose (f.resume :: stack) sub = pendingClose s.stack sub := fun sub => by
      rw [hstack]
      cases f <;> rfl
    have hlog := hs.toSteady.log (if threw then [.onSubscriberError f.errorIndex] else []) (by split <;> simp)
      (by split <;> simp) (by split <;> simp [Event.quiet])
    exact advance_inv (hlog.setStack _ hresume) hs.served

/-- **Every step keeps the invariant.** -/
theorem brokerStep_inv (s : Broker σ) (a : Act σ) (t : Broker σ) (hs : s.Inv)
    (h : brokerStep respawnDelayMs s a = some t) : t.Inv := by
  cases a with
  | subscribe sub ok => exact subscribe_inv hs h
  | unsubscribe sub => exact unsubscribe_inv hs h
  | close reason => exact close_inv hs h
  | line n line => exact line_inv hs h
  | exit n => exact exit_inv hs h
  | timer ok => exact timer_inv hs h
  | callbackEnds threw => exact callbackEnds_inv hs h

theorem pendingClose_eq_zero (sub : σ) : ∀ stack : List (Frame σ), (∀ reason rest, .closing reason rest ∉ stack) →
    pendingClose stack sub = 0
  | [], _ => rfl
  | .fanOut line next i :: stack, h => by
    have := pendingClose_eq_zero sub stack (fun reason rest hm => h reason rest (List.mem_cons_of_mem _ hm))
    simpa [pendingClose] using this
  | .closing reason rest :: stack, h => absurd (List.mem_cons_self ..) (h reason rest)

def Broker.Live (s : Broker σ) (t : Nat) : Prop := .spawn t true ∈ s.trace ∧ .exit t ∉ s.trace ∧ .stop t ∉ s.trace

/-- **A broker neither loses a tail nor leaves a subscriber without one.**  In every state a broker can reach: (a) a
started tail is the current one, has exited or has been stopped, so at most one is live; (b) open and with a subscriber, it has a tail or a
timer; (c) closed or without a subscriber, it has neither; (d) since `close` no tail was spawned and no subscriber was
handed a line, and each subscriber present then has its `onClose` called once, all of them when the loop is done. -/
theorem broker_safe (respawnDelayMs : Nat) (acts : List (Act σ)) (s : Broker σ)
    (hrun : exec (brokerStep respawnDelayMs) (Broker.init σ) acts = some s) :
    (∀ t, .spawn t true ∈ s.trace → s.tail = some t ∨ .exit t ∈ s.trace ∨ .stop t ∈ s.trace) ∧
      (∀ t u, s.Live t → s.Live u → t = u) ∧
      (s.closed = false → s.subscribers.toList ≠ [] → s.tail ≠ none ∨ s.respawnTimer ≠ none) ∧
      (s.closed = true ∨ s.subscribers.toList = [] → s.tail = none ∧ s.respawnTimer = none) ∧
      ∀ n present, s.closedAt = some (n, present) →
        (∀ e ∈ s.trace.drop n, (∀ t ok, e ≠ .spawn t ok) ∧ ∀ sub line, e ≠ .onLine sub line) ∧
        (∀ sub ∈ present, s.trace.count (.onClose sub) ≤ 1) ∧
        ((∀ reason rest, .closing reason rest ∉ s.stack) → ∀ sub ∈ present, s.trace.count (.onClose sub) = 1) := by
  have hs : s.Inv := exec_inv' brokerStep_inv acts _ s Broker.inv_init hrun
  have hlive : ∀ t, s.Live t → s.tail = some t := fun t ht =>
    (hs.tails t ht.1).resolve_right (fun h => h.elim ht.2.1 ht.2.2)
  refine ⟨hs.tails, fun t u ht hu => ?_, hs.served, fun h => hs.idle (h.elim hs.cleared id), fun n present hp => ?_⟩
  · have := hlive t ht
    rw [hlive u hu, Option.some.injEq] at this
    exact this.symm
  obtain ⟨-, hnd, hq⟩ := hs.late n present hp
  have hcalls : ∀ sub ∈ present, s.trace.count (.onClose sub) + pendingClose s.stack sub = 1 := fun sub hsub => by
    rw [hs.calls sub, Broker.present, hp]
    exact hnd.count.trans (if_pos hsub)
  refine ⟨fun e he => ⟨?_, ?_⟩, fun sub hsub => ?_, fun hdone sub hsub => ?_⟩
  · rintro t ok rfl
    cases hq _ he
  · rintro sub line rfl
    cases hq _ he
  · have := hcalls sub hsub
    omega
  · have := hcalls sub hsub
    rw [pendingClose_eq_zero sub s.stack hdone] at this
    omega

end

/-- Two subscribers; the tail exits while the first handles a line and is replaced; the second closes the broker from
inside `onLine`; the old tail exits again. -/
def closedFromCallback : List (Act Nat) :=
  [.subscribe 0 true, .subscribe 1 true, .line 0 "up", .exit 0, .timer true, .callbackEnds false, .close .engineStopped,
    .callbackEnds true, .callbackEnds false, .exit 0, .callbackEnds false, .unsubscribe 1]

theorem broker_safe_closedFromCallback :
    ∃ s, exec (brokerStep 1000) (Broker.init Nat) closedFromCallback = some s ∧
      (∀ t, .spawn t true ∈ s.trace → s.tail = some t ∨ .exit t ∈ s.trace ∨ .stop t ∈ s.trace) ∧
      (∀ t u, s.Live t → s.Live u → t = u) ∧
      (s.closed = false → s.subscribers.toList ≠ [] → s.tail ≠ none ∨ s.respawnTimer ≠ none) ∧
      (s.closed = true ∨ s.subscribers.toList = [] → s.tail = none ∧ s.respawnTimer = none) ∧
      ∀ n present, s.closedAt = some (n, present) →
        (∀ e ∈ s.trace.drop n, (∀ t ok, e ≠ .spawn t ok) ∧ ∀ sub line, e ≠ .onLine sub line) ∧
        (∀ sub ∈ present, s.trace.count (.onClose sub) ≤ 1) ∧
        ((∀ reason rest, .closing reason rest ∉ s.stack) → ∀ sub ∈ present, s.trace.count (.onClose sub) = 1) := by
  obtain ⟨s, hs⟩ := Option.isSome_iff_exists.1
    (show (exec (brokerStep 1000) (Broker.init Nat) closedFromCallback).isSome = true by decide +kernel)
  exact ⟨s, hs, broker_safe 1000 closedFromCallback s hs⟩

end LogBroker
end SignalkDoctor
