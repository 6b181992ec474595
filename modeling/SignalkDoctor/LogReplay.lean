import SignalkDoctor.LogRoute
/-!
# LogReplay — the log of a container behind its streams (`src/routes/logs-stream.ts`, `src/log-stream-broker.ts`)

The broker of `warmBroker` asks the runtime for the last 500 lines of the log with each follow stream it starts, the
first and every one that replaces a failed one; the stream delivers these, then each line as it is written.  The lines
of the log are its positions, which the route passes on as it does any lines (`followStep`).

`sent_once` is about every run of a growing log and of streams that open, deliver and fail: where a stream replays
nothing that was delivered before, no client is sent a line twice.
-/
namespace SignalkDoctor
namespace LogReplay

open Function (update)
open Steps (exec Guarded)
open LogBroker LogRoute

/-- `getOrCreateBroker(name, BACKFILL_LIMIT)` -/
def startTail : Nat := backfillLimit

/-- The route, how many lines the log has, the next line of each open follow stream, and for the statements what the
streams have delivered. -/
structure Follow where
  route : Route Nat
  written : Nat
  streams : Nat → Option Nat
  delivered : List Nat

def Follow.init : Follow := ⟨.init Nat, 0, fun _ => none, []⟩

inductive FollowAct where
  | write
  /-- `logs({ follow, tail })` resolves. -/
  | opened (tail : Nat)
  | deliver (tail : Nat)
  /-- The stream ends or fails, or `logs` rejects. -/
  | fails (tail : Nat)
  /-- A client, `/logs` or the respawn timer. -/
  | route (a : RouteAct Nat)

/-- Neither a line nor an exit of a tail: these are the streams'. -/
def outside : RouteAct Nat → Bool
  | .line .. | .exit _ => false
  | _ => true

section
variable (respawnDelayMs : Nat) (text : Nat → String)

def followStep (s : Follow) : FollowAct → Option Follow
  | .write => some { s with written := s.written + 1 }
  | .opened tail =>
    if s.route.broker.tail = some tail ∧ s.streams tail = none then
      some { s with streams := update s.streams tail (some (s.written - startTail)) }
    else none
  | .deliver tail =>
    match s.streams tail with
    | none => none
    | some next =>
      if next < s.written then
        (routeStep respawnDelayMs text s.route (.line tail next)).map (fun r =>
          { s with
            route := r
            streams := update s.streams tail (some (next + 1))
            delivered := s.delivered ++ [next] })
      else none
  | .fails tail =>
    if s.route.broker.tail = some tail then
      (routeStep respawnDelayMs text s.route (.exit tail)).map (fun r =>
        { s with route := r, streams := update s.streams tail none })
    else none
  | .route a =>
    if outside a then (routeStep respawnDelayMs text s.route a).map (fun r => { s with route := r }) else none

end

/-- **A stream that opens replays nothing**: none of the last lines it begins with was delivered before. -/
def replaysNothing (s : Follow) : FollowAct → Prop
  | .opened _ => ∀ l ∈ s.delivered, l + startTail < s.written
  | _ => True

instance (s : Follow) (a : FollowAct) : Decidable (replaysNothing s a) := by
  unfold replaysNothing
  split <;> infer_instance

/-! ## The tail of the broker -/

section
variable {respawnDelayMs : Nat} {text : Nat → String}

theorem spawnIfNeeded_tail {b : Broker Sub} {k : Nat} (h : b.tail = some k) (ok : Bool) :
    (spawnIfNeeded respawnDelayMs b ok).tail = some k := by
  rw [spawnIfNeeded, if_pos (.inl (by simp [h]))]
  exact h

theorem subscribe_tail {b b' : Broker Sub} {sub : Sub} {k : Nat} (h : b.tail = some k)
    (hb : brokerStep respawnDelayMs b (.subscribe sub true) = some b') : b'.tail = some k := by
  simp only [brokerStep] at hb
  split at hb
  · cases hb
  · split at hb
    · cases hb
      exact h
    · cases hb
      exact spawnIfNeeded_tail (by exact h) true

theorem warmBroker_tail {r r' : Route Nat} {k : Nat} (h : r.broker.tail = some k)
    (hr : r.warmBroker respawnDelayMs = some r') : r'.broker.tail = some k := by
  unfold Route.warmBroker at hr
  split at hr
  · cases hr
    exact h
  · obtain ⟨r₁, h₁, rfl⟩ := Option.map_eq_some_iff.1 hr
    obtain ⟨b, hb, rfl⟩ := Option.map_eq_some_iff.1 h₁
    exact subscribe_tail h hb

/-- Only its own exit ends the current tail: the permanent subscriber keeps the broker from stopping it. -/
theorem routeStep_tail {r r' : Route Nat} {delivered : List Nat} {a : RouteAct Nat} {k : Nat} (hs : r.Inv delivered)
    (ht : r.broker.tail = some k) (ha : ∀ tail, a ≠ .exit tail) (h : routeStep respawnDelayMs text r a = some r') :
    r'.broker.tail = some k := by
  cases a with
  | line tail l =>
    obtain ⟨b, hb, rfl⟩ := Option.map_eq_some_iff.1 h
    obtain ⟨-, rfl⟩ := fanOut_eq respawnDelayMs hb
    simp only [called_fanOut, (foldl_onLine l _ _ hs.broker.nodup).1, ht]
  | exit tail => exact absurd rfl (ha tail)
  | timer =>
    obtain ⟨b, hb, rfl⟩ := Option.map_eq_some_iff.1 h
    simp only [brokerStep] at hb
    split at hb
    · cases hb
    · simp only [Option.some.injEq] at hb
      subst hb
      split
      · exact ht
      · exact spawnIfNeeded_tail (by exact ht) true
  | connect id tail =>
    obtain ⟨r₁, h₁, h⟩ := Option.bind_eq_some_iff.1 h
    obtain ⟨r₂, h₂, rfl⟩ := Option.map_eq_some_iff.1 h
    obtain ⟨b, hb, rfl⟩ := Option.map_eq_some_iff.1 h₂
    exact subscribe_tail (warmBroker_tail ht h₁) hb
  | disconnect id =>
    obtain ⟨r₁, h₁, rfl⟩ := Option.map_eq_some_iff.1 h
    obtain ⟨b, hb, rfl⟩ := Option.map_eq_some_iff.1 h₁
    have hwarm : r.warmed = true := by
      cases hw : r.warmed with
      | true => rfl
      | false =>
        rw [hs.cold hw] at ht
        cases ht
    have hkept : .history ∈ (r.broker.subscribers.delete (.client id)).toList := by
      rw [JsSet.toList_delete]
      simp [hs.feed hwarm]
    simp only [brokerStep] at hb
    split at hb
    · split at hb
      · cases hb
        exact ht
      · simp only [Option.some.injEq] at hb
        subst hb
        split
        · rename_i hsize
          rw [(JsSet.size_eq_zero_iff _).1 hsize] at hkept
          cases hkept
        · exact ht
    · cases hb
  | logs => exact warmBroker_tail ht h

/-! ## What a step keeps -/

/-- The lines delivered go up; an open stream is the current tail's and is past them; each client was sent some. -/
structure Follow.Inv (s : Follow) : Prop where
  route : s.route.Inv s.delivered
  increasing : s.delivered.Pairwise (· < ·)
  streams : ∀ tail next, s.streams tail = some next →
    s.route.broker.tail = some tail ∧ ∀ l ∈ s.delivered, l < next
  sent : ∀ id c, s.route.clients id = some c → c.sent.Sublist s.delivered

theorem inv_followInit : Follow.init.Inv where
  route := inv_init
  increasing := List.Pairwise.nil
  streams := fun _ _ h => by cases h
  sent := fun _ _ h => by cases h

theorem Follow.Inv.single {s : Follow} (hs : s.Inv) {tail k next : Nat} (htail : s.route.broker.tail = some tail)
    (h : s.streams k = some next) : k = tail := by
  have := (hs.streams k next h).1
  rw [htail, Option.some.injEq] at this
  exact this.symm

theorem sublist_onLine {c : Client Nat} {delivered : List Nat} (hlive : c.liveMode = true)
    (h : c.sent.Sublist delivered) (l : Nat) : (c.onLine l).sent.Sublist (delivered ++ [l]) := by
  unfold Client.onLine
  split
  · exact h.trans (List.sublist_append_left ..)
  · exact h.append (List.Sublist.refl [l])

theorem inv_deliver {s t : Follow} (hs : s.Inv) {tail : Nat}
    (h : followStep respawnDelayMs text s (.deliver tail) = some t) : t.Inv := by
  simp only [followStep] at h
  split at h
  · cases h
  · rename_i next hnext
    split at h
    · obtain ⟨r, hr, rfl⟩ := Option.map_eq_some_iff.1 h
      obtain ⟨hopen, hpast⟩ := hs.streams tail next hnext
      obtain ⟨hinv, hclients⟩ := inv_line hs.route hr
      refine ⟨hinv, ?_, fun k n hk => ?_, fun id c hc => ?_⟩
      · rw [List.pairwise_append]
        refine ⟨hs.increasing, List.pairwise_singleton .., fun l hl l' hl' => ?_⟩
        rw [List.mem_singleton.1 hl']
        exact hpast l hl
      · by_cases hkt : k = tail
        · subst hkt
          simp only [Function.update_self, Option.some.injEq] at hk
          subst hk
          refine ⟨routeStep_tail hs.route hopen (fun _ h => by cases h) hr, fun l hl => ?_⟩
          rcases List.mem_append.1 hl with hl | hl
          · exact Nat.lt_succ_of_lt (hpast l hl)
          · rw [List.mem_singleton.1 hl]
            exact Nat.lt_succ_self next
        · simp only [ne_eq, hkt, not_false_eq_true, Function.update_of_ne] at hk
          exact absurd (hs.single hopen hk) hkt
      · rw [hclients id, Option.map_eq_some_iff] at hc
        obtain ⟨c', hc', rfl⟩ := hc
        exact sublist_onLine (hs.route.clients id c' hc').1 (hs.sent id c' hc') next
    · cases h

/-- What comes from outside the streams sends a client that connects some of what was delivered, and the others
nothing. -/
theorem sent_outside {r r' : Route Nat} {delivered : List Nat} {a : RouteAct Nat} (hs : r.Inv delivered)
    (hout : outside a = true) (h : routeStep respawnDelayMs text r a = some r') {id : Nat} {c : Client Nat}
    (hc : r'.clients id = some c) :
    c.sent.Sublist delivered ∨ ∃ c₀, r.clients id = some c₀ ∧ c.sent = c₀.sent := by
  cases a with
  | line tail l => cases hout
  | exit tail => cases hout
  | timer =>
    obtain ⟨b, -, rfl⟩ := Option.map_eq_some_iff.1 h
    exact .inr ⟨c, hc, rfl⟩
  | connect i tail =>
    rw [(inv_connect hs h).2.2] at hc
    by_cases hid : id = i
    · subst hid
      rw [Function.update_self, Option.some.injEq] at hc
      subst hc
      exact .inl (List.drop_sublist ..)
    · rw [Function.update_of_ne hid] at hc
      exact .inr ⟨c, hc, rfl⟩
  | disconnect i =>
    rw [(inv_disconnect hs h).2] at hc
    by_cases hid : id = i
    · subst hid
      rw [Function.update_self, Option.map_eq_some_iff] at hc
      obtain ⟨c₀, hc₀, rfl⟩ := hc
      exact .inr ⟨c₀, hc₀, rfl⟩
    · rw [Function.update_of_ne hid] at hc
      exact .inr ⟨c, hc, rfl⟩
  | logs =>
    rw [(inv_warmBroker hs h).2.2.2] at hc
    exact .inr ⟨c, hc, rfl⟩

theorem inv_outside {s t : Follow} (hs : s.Inv) {a : RouteAct Nat}
    (h : followStep respawnDelayMs text s (.route a) = some t) : t.Inv := by
  simp only [followStep] at h
  split at h
  · rename_i hout
    obtain ⟨r, hr, rfl⟩ := Option.map_eq_some_iff.1 h
    obtain ⟨hinv, -⟩ := routeStep_inv hs.route hr
    have hnone : lines [a] = [] := by cases a <;> first | rfl | cases hout
    rw [hnone, List.append_nil] at hinv
    refine ⟨hinv, hs.increasing, fun tail next hn => ?_, fun id c hc => ?_⟩
    · obtain ⟨hopen, hpast⟩ := hs.streams tail next hn
      exact ⟨routeStep_tail hs.route hopen (fun _ h => by subst h; cases hout) hr, hpast⟩
    · rcases sent_outside hs.route hout hr hc with hsub | ⟨c₀, hc₀, hsame⟩
      · exact hsub
      · rw [hsame]
        exact hs.sent id c₀ hc₀
  · cases h

theorem inv_fails {s t : Follow} (hs : s.Inv) {tail : Nat}
    (h : followStep respawnDelayMs text s (.fails tail) = some t) : t.Inv := by
  simp only [followStep] at h
  split at h
  · rename_i hopen
    obtain ⟨r, hr, rfl⟩ := Option.map_eq_some_iff.1 h
    obtain ⟨hinv, -⟩ := routeStep_inv hs.route hr
    rw [show lines [RouteAct.exit (α := Nat) tail] = [] from rfl, List.append_nil] at hinv
    obtain ⟨b, hb, rfl⟩ := Option.map_eq_some_iff.1 hr
    refine ⟨hinv, hs.increasing, fun k next hk => ?_, hs.sent⟩
    by_cases hkt : k = tail
    · simp [hkt] at hk
    · simp only [ne_eq, hkt, not_false_eq_true, Function.update_of_ne] at hk
      exact absurd (hs.single hopen hk) hkt
  · cases h

/-- **The step keeps the invariant** where a stream that opens replays nothing. -/
theorem followStep_inv (s : Follow) (a : FollowAct) (t : Follow) (hs : s.Inv) (hg : replaysNothing s a)
    (h : followStep respawnDelayMs text s a = some t) : t.Inv := by
  cases a with
  | write =>
    cases h
    exact ⟨hs.route, hs.increasing, hs.streams, hs.sent⟩
  | opened tail =>
    simp only [followStep] at h
    split at h
    · rename_i hopen
      cases h
      refine ⟨hs.route, hs.increasing, fun k next hk => ?_, hs.sent⟩
      by_cases hkt : k = tail
      · subst hkt
        simp only [Function.update_self, Option.some.injEq] at hk
        subst hk
        refine ⟨hopen.1, fun l hl => ?_⟩
        have := hg l hl
        omega
      · simp only [ne_eq, hkt, not_false_eq_true, Function.update_of_ne] at hk
        exact absurd (hs.single hopen.1 hk) hkt
    · cases h
  | deliver tail => exact inv_deliver hs h
  | fails tail => exact inv_fails hs h
  | route a => exact inv_outside hs h

/-- **No client is sent a line twice.**  Over every growing log, and streams that open, deliver and fail in any order:
in every run in which each stream that opens replays nothing that was delivered before. -/
theorem sent_once (respawnDelayMs : Nat) (text : Nat → String) (acts : List FollowAct) (s : Follow)
    (hrun : exec (followStep respawnDelayMs text) .init acts = some s)
    (hreplays : Guarded (followStep respawnDelayMs text) replaysNothing .init acts) :
    ∀ id c, s.route.clients id = some c → c.sent.Nodup := by
  have hs : s.Inv := Steps.exec_inv followStep_inv acts _ s inv_followInit hreplays hrun
  intro id c hc
  have hincreasing : c.sent.Pairwise (· < ·) := hs.increasing.sublist (hs.sent id c hc)
  exact hincreasing.imp (fun h => Nat.ne_of_lt h)

end

/-- One line; a client; its stream delivers the line and fails; the next one opens. -/
def respawn : List FollowAct :=
  [.write, .route (.connect 7 none), .opened 0, .deliver 0, .fails 0, .route .timer, .opened 1, .deliver 1]

/-- The next stream delivers the line again. -/
theorem sent_twice :
    ¬ ∀ (respawnDelayMs : Nat) (text : Nat → String) (acts : List FollowAct) (s : Follow),
      exec (followStep respawnDelayMs text) .init acts = some s →
        ∀ id c, s.route.clients id = some c → c.sent.Nodup := by
  intro h
  have hsent : (exec (followStep 1000 (fun _ => "up")) .init respawn).map (fun s => s.route.clients 7) =
      some (some ⟨true, true, [], [0, 0]⟩) := by decide +kernel
  obtain ⟨s, hs, hc⟩ := Option.map_eq_some_iff.1 hsent
  exact absurd (h 1000 _ respawn s hs 7 _ hc) (by decide)

def respawnBefore : List FollowAct :=
  [.write, .route (.connect 7 none), .opened 0, .fails 0, .route .timer, .opened 1, .deliver 1, .write, .deliver 1]

theorem sent_once_respawnBefore :
    ∃ s, exec (followStep 1000 (fun _ => "up")) .init respawnBefore = some s ∧
      ∀ id c, s.route.clients id = some c → c.sent.Nodup := by
  obtain ⟨s, hs⟩ := Option.isSome_iff_exists.1
    (show (exec (followStep 1000 (fun _ => "up")) .init respawnBefore).isSome = true by decide +kernel)
  exact ⟨s, hs, sent_once 1000 _ respawnBefore s hs (by decide +kernel)⟩

end LogReplay
end SignalkDoctor
