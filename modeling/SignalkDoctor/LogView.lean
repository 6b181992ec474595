import Mathlib.Data.List.Forall2
import SignalkDoctor.EventStream
import SignalkDoctor.LogLines
import SignalkDoctor.LogRoute
/-!
# LogView — the log view of the console (`webapp/src/useLogStream.ts`)

The route writes a frame for each line it sends a client, a comment every fifteen seconds, and a last frame when its
broker closes (`Frame`).  The browser reads them as a stream of events and connects again when the stream breaks off; the
hook numbers the lines and keeps the last two thousand.  `view_shows` follows a line from the container's stream to the
view; `keys_unique` is what the view's list keeps in every run.
-/
namespace SignalkDoctor
namespace LogView

open EventStream (Text Event Reader Open messageType)
open LogRoute (Route routeStep)
open LastItems
open Steps (exec)

/-! ## What the route writes -/

def reasonText : LogBroker.Reason → Text
  | .containerRemoved => "container-removed".toList
  | .engineStopped => "engine-stopped".toList

/-- What a write to a client's socket holds. -/
inductive Frame where
  | line (l : String)
  | heartbeat
  | ended (reason : LogBroker.Reason)
  deriving DecidableEq, Repr

def Frame.text : Frame → Text
  | .line l => "data: ".toList ++ l.toList ++ "\n\n".toList
  | .heartbeat => ": heartbeat\n\n".toList
  | .ended reason => "event: end\ndata: ".toList ++ reasonText reason ++ "\n\n".toList

def Frame.line? : Frame → Option String
  | .line l => some l
  | _ => none

def Frame.isEnded : Frame → Bool
  | .ended _ => true
  | _ => false

def endType : Text := "end".toList

def Frame.event? : Frame → Option Event
  | .line l => some ⟨messageType, l.toList⟩
  | .heartbeat => none
  | .ended reason => some ⟨endType, reasonText reason⟩

/-! ## The hook -/

inductive LogStatus where
  | connecting
  | connected
  | paused
  | error
  | disconnected
  deriving DecidableEq, Repr

/-- A line of the view; `ended` is the message of the line of an ended stream. -/
structure ParsedLogLine where
  id : Nat
  raw : Text
  ended : Option Text
  deriving DecidableEq, Repr

def maxBuffer : Nat := 2000

/-- The hook's state, whether its `EventSource` is open and where that stands in the body it reads, and all lines put
since the list was last emptied. -/
structure View where
  lines : List ParsedLogLine
  status : LogStatus
  paused : Bool
  idCounter : Nat
  isOpen : Bool
  reader : Reader
  all : List ParsedLogLine
  deriving DecidableEq, Repr

def View.init : View := ⟨[], .disconnected, false, 0, false, .connect [], []⟩

def View.onMessage (v : View) (data : Text) : View :=
  if v.paused then v
  else
    let line : ParsedLogLine := ⟨v.idCounter + 1, data, none⟩
    let next := if v.lines.length ≥ maxBuffer then v.lines.drop (v.lines.length - maxBuffer + 1) else v.lines
    { v with lines := next ++ [line], idCounter := v.idCounter + 1, all := v.all ++ [line] }

/-- `[stream ended: ${ev.data || 'closed'}]` -/
def endedMessage (data : Text) : Text :=
  "[stream ended: ".toList ++ (if data = [] then "closed".toList else data) ++ "]".toList

def View.onEnd (v : View) (data : Text) : View :=
  let line : ParsedLogLine := ⟨v.idCounter + 1, [], some (endedMessage data)⟩
  { v with
    lines := v.lines ++ [line]
    idCounter := v.idCounter + 1
    isOpen := false
    status := .disconnected
    all := v.all ++ [line] }

/-- A closed source dispatches nothing. -/
def View.dispatch (v : View) (e : Event) : View :=
  if v.isOpen = false then v
  else if e.type = messageType then v.onMessage e.data
  else if e.type = endType then v.onEnd e.data
  else v

def View.receive (v : View) (c : Char) : View :=
  (v.reader.feed c).2.foldl View.dispatch { v with reader := (v.reader.feed c).1 }

inductive ViewAct where
  /-- The effect runs: mounted, or another container, tail or tab. -/
  | start
  /-- The hook is disabled, hidden or unmounted. -/
  | stop
  | opened
  | text (t : Text)
  /-- The stream breaks off, and the source connects again. -/
  | failed
  | togglePause
  | clear
  deriving DecidableEq, Repr

def viewStep (v : View) : ViewAct → Option View
  | .start => some { v with lines := [], status := .connecting, isOpen := true, reader := .connect [], all := [] }
  | .stop => some { v with status := .disconnected, isOpen := false }
  | .opened => if v.isOpen then some { v with status := if v.paused then .paused else .connected } else none
  | .text t => if v.isOpen then some (t.foldl View.receive v) else none
  | .failed => if v.isOpen then some { v with status := .error, reader := .connect v.reader.lastEventId } else none
  | .togglePause => some { v with paused := !v.paused, status := if v.paused then v.status else .paused }
  | .clear => some { v with lines := [], all := [] }

/-! ## Reading the frames -/

/-- Its text ends no line of its own. -/
def Frame.Sound : Frame → Prop
  | .line l => Open l.toList
  | _ => True

def dataName : Text := "data".toList

theorem isName_data : EventStream.IsName dataName where
  isOpen := EventStream.open_of_all rfl
  plain := rfl
  head := ⟨'d', "ata".toList, rfl, by decide⟩

theorem isName_event : EventStream.IsName "event".toList where
  isOpen := EventStream.open_of_all rfl
  plain := rfl
  head := ⟨'e', "vent".toList, rfl, by decide⟩

theorem open_reasonText (reason : LogBroker.Reason) : Open (reasonText reason) := by
  cases reason <;> exact EventStream.open_of_all rfl

theorem data_written : "data: ".toList = dataName ++ ": ".toList := by decide

theorem end_written : "event: end\ndata: ".toList =
    "event".toList ++ ": ".toList ++ endType ++ ['\n'] ++ dataName ++ ": ".toList := by decide

theorem blank_written : "\n\n".toList = ['\n', '\n'] := by decide

/-- **A frame**: it is an empty line after a text that dispatches nothing. -/
theorem read_frame {f : Frame} (hf : f.Sound) (start : Bool) (lastEventId : Text) :
    ∃ head, f.text = head ++ ['\n'] ∧ ((Reader.fresh start lastEventId).read head).2 = [] ∧
      (Reader.fresh start lastEventId).read f.text = (.fresh false lastEventId, f.event?.toList) := by
  cases f with
  | line l =>
    have hread : (Reader.fresh start lastEventId).read (EventStream.fieldText dataName l.toList) = _ :=
      EventStream.read_field isName_data hf rfl rfl
    have htext : (Frame.line l).text = EventStream.fieldText dataName l.toList ++ ['\n'] := by
      have hframe : (Frame.line l).text = "data: ".toList ++ l.toList ++ "\n\n".toList := rfl
      rw [hframe, EventStream.fieldText, data_written, blank_written]
      simp only [List.append_assoc, List.cons_append, List.nil_append]
    refine ⟨_, htext, by rw [hread], ?_⟩
    rw [htext, EventStream.read_append, hread, EventStream.read_blank rfl rfl]
    simp [Reader.dispatch, Reader.field, Reader.fresh, dataName, Frame.event?]
  | heartbeat =>
    have hread : (Reader.fresh start lastEventId).read (':' :: " heartbeat".toList ++ ['\n']) = _ :=
      EventStream.read_comment (EventStream.open_of_all rfl) rfl rfl
    have htext : Frame.heartbeat.text = ':' :: " heartbeat".toList ++ ['\n'] ++ ['\n'] := by decide
    refine ⟨_, htext, by rw [hread], ?_⟩
    rw [htext, EventStream.read_append, hread, EventStream.read_blank rfl rfl]
    simp [Reader.dispatch, Reader.fresh, Frame.event?]
  | ended reason =>
    have hevent : (Reader.fresh start lastEventId).read (EventStream.fieldText "event".toList endType) = _ :=
      EventStream.read_field isName_event (EventStream.open_of_all rfl) rfl rfl
    have hdata := EventStream.read_field (r := { Reader.fresh false lastEventId with type := endType }) isName_data
      (open_reasonText reason) rfl rfl
    have htext : (Frame.ended reason).text =
        EventStream.fieldText "event".toList endType ++ EventStream.fieldText dataName (reasonText reason) ++ ['\n'] := by
      have hframe : (Frame.ended reason).text = "event: end\ndata: ".toList ++ reasonText reason ++ "\n\n".toList := rfl
      rw [hframe, EventStream.fieldText, EventStream.fieldText, end_written, blank_written]
      simp only [List.append_assoc, List.cons_append, List.nil_append]
    have hread : (Reader.fresh start lastEventId).read
        (EventStream.fieldText "event".toList endType ++ EventStream.fieldText dataName (reasonText reason)) =
        ({ Reader.fresh false lastEventId with type := endType, data := reasonText reason ++ ['\n'] }, []) := by
      rw [EventStream.read_append, hevent]
      have hafter : ({ Reader.fresh start lastEventId with start := false } : Reader).field "event".toList endType =
          { Reader.fresh false lastEventId with type := endType } := by
        simp [Reader.field, Reader.fresh]
      rw [hafter, hdata]
      simp [Reader.field, Reader.fresh, dataName]
    refine ⟨_, htext, by rw [hread], ?_⟩
    rw [htext, EventStream.read_append, hread, EventStream.read_blank rfl rfl]
    simp [Reader.dispatch, Reader.fresh, Frame.event?, endType]

/-- The frames that have arrived whole. -/
def arrived : List Frame → Text → List Frame
  | [], _ => []
  | f :: frames, body => if f.text <+: body then f :: arrived frames (body.drop f.text.length) else []

theorem text_ne_nil (f : Frame) : f.text ≠ [] := by
  cases f with
  | line l => exact List.append_ne_nil_of_right_ne_nil _ (by decide)
  | heartbeat => decide
  | ended reason => exact List.append_ne_nil_of_right_ne_nil _ (by decide)

theorem arrived_nil (frames : List Frame) : arrived frames [] = [] := by
  cases frames with
  | nil => rfl
  | cons f frames => rw [arrived, if_neg (fun h => text_ne_nil f (List.prefix_nil.1 h))]

/-- **What a beginning of the frames dispatches**: the events of those that have arrived whole. -/
theorem read_frames : ∀ {frames : List Frame} {body : Text} {start : Bool} {lastEventId : Text}, (∀ f ∈ frames, f.Sound) →
    body <+: frames.flatMap Frame.text →
    ((Reader.fresh start lastEventId).read body).2 = (arrived frames body).filterMap Frame.event?
  | [], body, start, lastEventId, _, h => by
    rw [List.prefix_nil.1 h]
    rfl
  | f :: frames, body, start, lastEventId, hsound, h => by
    obtain ⟨head, htext, hsilent, hread⟩ := read_frame (hsound f (List.mem_cons_self ..)) start lastEventId
    rw [List.flatMap_cons] at h
    by_cases harrived : f.text <+: body
    · obtain ⟨rest, rfl⟩ := harrived
      rw [arrived, if_pos (List.prefix_append ..), List.drop_left, EventStream.read_append, hread,
        read_frames (fun g hg => hsound g (List.mem_cons_of_mem f hg)) ((List.prefix_append_right_inj _).1 h)]
      cases hevent : f.event? <;> simp [hevent]
    · rw [arrived, if_neg harrived]
      -- the part of the frame that has arrived is short of its last character
      have hpart : body <+: f.text :=
        (List.prefix_or_prefix_of_prefix h (List.prefix_append f.text _)).resolve_right harrived
      have hhead : body <+: head := by
        rw [htext] at hpart
        rcases List.prefix_concat_iff.1 hpart with rfl | hhead
        · exact absurd (htext ▸ List.prefix_rfl) harrived
        · exact hhead
      exact EventStream.read_silent hhead hsilent

/-! ## The buffer -/

def ParsedLogLine.isEnded (line : ParsedLogLine) : Bool := line.ended.isSome

/-- What the view keeps of a list that one line more is put to. -/
theorem put_window {lines : List ParsedLogLine} (line : ParsedLogLine) :
    (if lines.length ≥ maxBuffer then lines.drop (lines.length - maxBuffer + 1) else lines) ++ [line] =
      (lines ++ [line]).rtake maxBuffer := by
  have hmax : maxBuffer = 2000 := rfl
  split
  · rename_i hfull
    have hdrop : lines.length + 1 - maxBuffer = lines.length - maxBuffer + 1 := by omega
    rw [List.rtake, List.length_append, List.length_singleton, hdrop,
      List.drop_append_of_le_length (show lines.length - maxBuffer + 1 ≤ lines.length by omega)]
  · rename_i hroom
    rw [rtake_of_length_le (by rw [List.length_append, List.length_singleton]; omega)]

/-- **What is kept of the list**: the view is the last lines put, only the last of which may be that of an end; they are
numbered one after the other. -/
structure View.Inv (v : View) : Prop where
  window : v.lines = v.all.rtake (maxBuffer + v.all.countP ParsedLogLine.isEnded)
  oneEnd : v.all.countP ParsedLogLine.isEnded ≤ 1
  live : v.isOpen = true → v.all.countP ParsedLogLine.isEnded = 0
  counted : v.all.length ≤ v.idCounter
  ids : v.all.map (·.id) = List.range' (v.idCounter + 1 - v.all.length) v.all.length

theorem View.inv_empty {v : View} (hlines : v.lines = []) (hall : v.all = []) : v.Inv where
  window := by rw [hlines, hall]; rfl
  oneEnd := by rw [hall]; exact Nat.zero_le 1
  live := fun _ => by rw [hall]; rfl
  counted := by rw [hall]; exact Nat.zero_le _
  ids := by rw [hall]; rfl

/-- One number more. -/
theorem range_put {counter n : Nat} (h : n ≤ counter) :
    List.range' (counter + 1 - n) n ++ [counter + 1] = List.range' (counter + 1 + 1 - (n + 1)) (n + 1) := by
  have hstart : counter + 1 + 1 - (n + 1) = counter + 1 - n := by omega
  have hlast : counter + 1 - n + n = counter + 1 := by omega
  rw [hstart, List.range'_1_concat, hlast]

theorem View.Inv.onMessage {v : View} (hs : v.Inv) (hopen : v.isOpen = true) (data : Text) : (v.onMessage data).Inv := by
  unfold View.onMessage
  split
  · exact hs
  · have hnone := hs.live hopen
    have hcount : (v.all ++ [(⟨v.idCounter + 1, data, none⟩ : ParsedLogLine)]).countP ParsedLogLine.isEnded = 0 := by
      rw [List.countP_append, hnone]
      rfl
    refine ⟨?_, by rw [hcount]; exact Nat.zero_le 1, fun _ => hcount, ?_, ?_⟩
    · simp only [hcount, put_window]
      rw [hs.window, hnone, Nat.add_zero, rtake_rtake_append]
    · have := hs.counted
      simpa using this
    · simp only [List.map_append, List.map_cons, List.map_nil, List.length_append, List.length_singleton, hs.ids]
      exact range_put hs.counted

theorem View.Inv.onEnd {v : View} (hs : v.Inv) (hopen : v.isOpen = true) (data : Text) : (v.onEnd data).Inv := by
  have hnone := hs.live hopen
  have hcount : (v.onEnd data).all.countP ParsedLogLine.isEnded = 1 := by
    simp only [View.onEnd, List.countP_append, hnone]
    rfl
  refine ⟨?_, (by rw [hcount]), (fun h => by cases h), ?_, ?_⟩
  · rw [hcount]
    simp only [View.onEnd]
    rw [List.rtake_concat_succ, hs.window, hnone, Nat.add_zero]
  · have := hs.counted
    simpa [View.onEnd] using this
  · simp only [View.onEnd, List.map_append, List.map_cons, List.map_nil, List.length_append, List.length_singleton, hs.ids]
    exact range_put hs.counted

theorem View.Inv.dispatch {v : View} (hs : v.Inv) (e : Event) : (v.dispatch e).Inv := by
  unfold View.dispatch
  cases hopen : v.isOpen with
  | false => exact hs
  | true =>
    simp only [Bool.true_eq_false, ↓reduceIte]
    split
    · exact hs.onMessage hopen e.data
    · split
      · exact hs.onEnd hopen e.data
      · exact hs

theorem View.Inv.foldl_dispatch : ∀ {es : List Event} {v : View}, v.Inv → (es.foldl View.dispatch v).Inv
  | [], _, hs => hs
  | e :: es, v, hs => by
    rw [List.foldl_cons]
    exact foldl_dispatch (hs.dispatch e)

/-- The list is all the invariant reads, and whether the source is open. -/
theorem View.Inv.of_same {v w : View} (hs : v.Inv) (hlines : w.lines = v.lines) (hall : w.all = v.all)
    (hcounter : w.idCounter = v.idCounter) (hopen : w.isOpen = true → v.isOpen = true) : w.Inv where
  window := by rw [hlines, hall]; exact hs.window
  oneEnd := by rw [hall]; exact hs.oneEnd
  live := fun h => by rw [hall]; exact hs.live (hopen h)
  counted := by rw [hall, hcounter]; exact hs.counted
  ids := by rw [hall, hcounter]; exact hs.ids

theorem View.Inv.receive {v : View} (hs : v.Inv) (c : Char) : (v.receive c).Inv :=
  View.Inv.foldl_dispatch (hs.of_same rfl rfl rfl id)

theorem View.Inv.foldl_receive : ∀ {t : Text} {v : View}, v.Inv → (t.foldl View.receive v).Inv
  | [], _, hs => hs
  | c :: t, v, hs => by
    rw [List.foldl_cons]
    exact foldl_receive (hs.receive c)

theorem viewStep_inv (v : View) (a : ViewAct) (w : View) (hs : v.Inv) (h : viewStep v a = some w) : w.Inv := by
  cases a with
  | start =>
    cases h
    exact View.inv_empty rfl rfl
  | stop =>
    cases h
    exact hs.of_same rfl rfl rfl (fun h => by cases h)
  | opened =>
    obtain ⟨-, h⟩ := Option.ite_none_right_eq_some.1 h
    cases h
    exact hs.of_same rfl rfl rfl id
  | text t =>
    obtain ⟨-, h⟩ := Option.ite_none_right_eq_some.1 h
    cases h
    exact hs.foldl_receive
  | failed =>
    obtain ⟨-, h⟩ := Option.ite_none_right_eq_some.1 h
    cases h
    exact hs.of_same rfl rfl rfl id
  | togglePause =>
    cases h
    exact hs.of_same rfl rfl rfl id
  | clear =>
    cases h
    exact View.inv_empty rfl rfl

theorem run_inv {acts : List ViewAct} {v : View} (hrun : exec viewStep .init acts = some v) : v.Inv :=
  Steps.exec_inv' viewStep_inv acts .init v (View.inv_empty rfl rfl) hrun

/-- **The keys of the list.**  In every run of the hook, whatever is paused, cleared, ended, connected again or switched:
the lines shown are numbered one after the other up to at most the counter, so that no two have the same key, and there
are at most two thousand, and one more once the stream has ended. -/
theorem keys_unique {acts : List ViewAct} {v : View} (hrun : exec viewStep .init acts = some v) :
    (∃ first, v.lines.map (·.id) = List.range' first v.lines.length ∧ first + v.lines.length ≤ v.idCounter + 1) ∧
      (v.lines.map (·.id)).Nodup ∧ v.lines.length ≤ maxBuffer + 1 ∧ (v.isOpen = true → v.lines.length ≤ maxBuffer) := by
  have hs := run_inv hrun
  have hlength : v.lines.length = min (maxBuffer + v.all.countP ParsedLogLine.isEnded) v.all.length := by
    rw [hs.window, length_rtake]
  have hids : v.lines.map (·.id) = List.range' (v.idCounter + 1 - v.lines.length) v.lines.length := by
    have hdrop : v.lines.map (·.id) = (v.all.map (·.id)).drop (v.all.length - v.lines.length) := by
      rw [← List.map_drop, hlength]
      conv_lhs => rw [hs.window, ← rtake_min]
      rfl
    have hcounted := hs.counted
    rw [hdrop, hs.ids, List.drop_range']
    congr 1
    · omega
    · omega
  have hcounted := hs.counted
  refine ⟨⟨_, hids, by omega⟩, ?_, ?_, fun hopen => ?_⟩
  · rw [hids]
    exact List.nodup_range'
  · have := hs.oneEnd
    omega
  · have := hs.live hopen
    omega

/-- Paused for a line, cleared, ended, and switched to another container. -/
def switched : List ViewAct :=
  [.start, .opened, .text (Frame.line "one").text, .togglePause, .text (Frame.line "two").text, .togglePause, .clear,
    .text (Frame.line "three").text, .text (Frame.ended .containerRemoved).text, .start, .text (Frame.line "four").text]

theorem keys_unique_switched : ∃ v, exec viewStep .init switched = some v ∧ (v.lines.map (·.id)).Nodup :=
  ⟨_, rfl, (@keys_unique switched _ rfl).2.1⟩

/-! ## What the hook is told -/

/-- What a line of the view says. -/
def ParsedLogLine.shown (line : ParsedLogLine) : Text × Option Text := (line.raw, line.ended)

def shownOf (e : Event) : Text × Option Text :=
  if e.type = messageType then (e.data, none) else ([], some (endedMessage e.data))

/-- What a frame puts in the view. -/
def Frame.shown? (f : Frame) : Option (Text × Option Text) := f.event?.map shownOf

theorem dispatch_reader (v : View) (r : Reader) (e : Event) :
    View.dispatch { v with reader := r } e = { View.dispatch v e with reader := r } := by
  obtain ⟨lines, status, paused, idCounter, isOpen, reader, all⟩ := v
  cases isOpen with
  | false => rfl
  | true =>
    unfold View.dispatch
    simp only [Bool.true_eq_false, ↓reduceIte]
    by_cases hmessage : e.type = messageType
    · simp only [if_pos hmessage]
      cases paused <;> rfl
    · simp only [if_neg hmessage]
      by_cases hend : e.type = endType
      · simp only [if_pos hend]
        rfl
      · simp only [if_neg hend]

theorem foldl_dispatch_reader : ∀ (es : List Event) (v : View) (r : Reader),
    es.foldl View.dispatch { v with reader := r } = { es.foldl View.dispatch v with reader := r }
  | [], _, _ => rfl
  | e :: es, v, r => by
    rw [List.foldl_cons, List.foldl_cons, dispatch_reader, foldl_dispatch_reader es (v.dispatch e) r]

/-- **A text**: its events are dispatched one after the other. -/
theorem foldl_receive : ∀ (t : Text) (v : View), t.foldl View.receive v =
    { (v.reader.read t).2.foldl View.dispatch v with reader := (v.reader.read t).1 }
  | [], _ => rfl
  | c :: t, v => by
    have hreceive : v.receive c = { (v.reader.feed c).2.foldl View.dispatch v with reader := (v.reader.feed c).1 } := by
      rw [View.receive, foldl_dispatch_reader]
    rw [List.foldl_cons, foldl_receive t, hreceive]
    simp only [Reader.read, List.foldl_append, foldl_dispatch_reader]

/-- **Events that are not paused are shown**, up to the one that ends the stream. -/
theorem foldl_dispatch_shown : ∀ {es : List Event} {v : View}, v.isOpen = true → v.paused = false →
    (∀ e ∈ es, e.type = messageType ∨ e.type = endType) → es.Pairwise (fun e _ => e.type = messageType) →
    (es.foldl View.dispatch v).all.map ParsedLogLine.shown = v.all.map ParsedLogLine.shown ++ es.map shownOf ∧
      (es.foldl View.dispatch v).paused = false
  | [], v, _, hpaused, _, _ => ⟨by rw [List.map_nil, List.append_nil]; rfl, hpaused⟩
  | e :: es, v, hopen, hpaused, htypes, hends => by
    obtain ⟨hrest, hends⟩ := List.pairwise_cons.1 hends
    rw [List.foldl_cons, List.map_cons]
    rcases htypes e (List.mem_cons_self ..) with hmessage | hend
    · have hstep : v.dispatch e = v.onMessage e.data := by
        simp only [View.dispatch, hopen, Bool.true_eq_false, ↓reduceIte, hmessage]
      rw [hstep]
      obtain ⟨hshown, hstill⟩ := @foldl_dispatch_shown es (v.onMessage e.data) (by simp [View.onMessage, hpaused, hopen])
        (by simp [View.onMessage, hpaused]) (fun e' he' => htypes e' (List.mem_cons_of_mem e he')) hends
      refine ⟨?_, hstill⟩
      rw [hshown]
      simp [View.onMessage, hpaused, shownOf, hmessage, ParsedLogLine.shown]
    · -- nothing comes after the end
      have hnil : es = [] := by
        refine List.eq_nil_iff_forall_not_mem.2 (fun e' he' => ?_)
        exact absurd ((hrest e' he').symm.trans hend) (by decide)
      have hne : ¬ endType = messageType := by decide
      have hstep : v.dispatch e = v.onEnd e.data := by
        simp only [View.dispatch, hopen, Bool.true_eq_false, ↓reduceIte, hend, if_neg hne]
      subst hnil
      rw [hstep]
      refine ⟨?_, hpaused⟩
      simp [View.onEnd, shownOf, hend, hne, ParsedLogLine.shown]

/-! ## The connections -/

/-- Nothing is written after the end, and no line breaks in two. -/
structure Wire (frames : List Frame) : Prop where
  sound : ∀ f ∈ frames, f.Sound
  ends : frames.Pairwise (fun f _ => f.isEnded = false)

theorem event_type {f : Frame} {e : Event} (h : f.event? = some e) :
    (e.type = messageType ∨ e.type = endType) ∧ (f.isEnded = false → e.type = messageType) := by
  cases f <;> cases h
  · exact ⟨.inl rfl, fun _ => rfl⟩
  · exact ⟨.inr rfl, fun h => by cases h⟩

theorem arrived_isPrefix : ∀ (frames : List Frame) (body : Text), arrived frames body <+: frames
  | [], _ => List.prefix_rfl
  | f :: frames, body => by
    rw [arrived]
    split
    · exact List.cons_prefix_cons.2 ⟨rfl, arrived_isPrefix frames _⟩
    · exact List.nil_prefix

/-- What the frames of a connection dispatch. -/
theorem Wire.events {frames : List Frame} (h : Wire frames) (body : Text) :
    (∀ e ∈ (arrived frames body).filterMap Frame.event?, e.type = messageType ∨ e.type = endType) ∧
      ((arrived frames body).filterMap Frame.event?).Pairwise (fun e _ => e.type = messageType) := by
  constructor
  · intro e he
    obtain ⟨f, -, hf⟩ := List.mem_filterMap.1 he
    exact (event_type hf).1
  · refine List.Pairwise.filterMap _ ?_ (h.ends.sublist (arrived_isPrefix frames body).sublist)
    intro f g hf e he e' _
    exact (event_type he).2 hf

theorem arrived_whole : ∀ frames : List Frame, arrived frames (frames.flatMap Frame.text) = frames
  | [] => rfl
  | f :: frames => by
    rw [List.flatMap_cons, arrived, if_pos (List.prefix_append ..), List.drop_left, arrived_whole frames]

/-- What a connection puts in the view when this much of its body has come. -/
def shownFrames (body : Text) (frames : List Frame) : List (Text × Option Text) :=
  (arrived frames body).filterMap Frame.shown?

theorem shownFrames_eq (body : Text) (frames : List Frame) :
    shownFrames body frames = ((arrived frames body).filterMap Frame.event?).map shownOf := by
  rw [shownFrames, List.map_filterMap]
  rfl

theorem shownFrames_nil (frames : List Frame) : shownFrames [] frames = [] := by
  rw [shownFrames, arrived_nil, List.filterMap_nil]

/-- The source's own steps: nothing is paused, cleared or switched. -/
def ViewAct.Plain : ViewAct → Prop
  | .opened | .text _ | .failed => True
  | _ => False

/-- What has come of each connection's body. -/
def bodies (cur : Text) : List ViewAct → List Text
  | [] => [cur]
  | .text t :: acts => bodies (cur ++ t) acts
  | .failed :: acts => cur :: bodies [] acts
  | _ :: acts => bodies cur acts

theorem acts_of_closed {v w : View} {acts : List ViewAct} (hplain : ∀ a ∈ acts, a.Plain) (hclosed : v.isOpen = false)
    (hrun : exec viewStep v acts = some w) : acts = [] ∧ w = v := by
  cases acts with
  | nil => exact ⟨rfl, (Option.some.inj hrun).symm⟩
  | cons a acts =>
    obtain ⟨u, hu, -⟩ := Steps.exec_cons hrun
    have ha := hplain a (List.mem_cons_self ..)
    cases a <;> first | exact ha.elim | simp [viewStep, hclosed] at hu

/-- The head of `bodies` goes on with what has come. -/
theorem bodies_head : ∀ (acts : List ViewAct) (cur : Text), ∃ t rest, bodies cur acts = (cur ++ t) :: rest
  | [], cur => ⟨[], [], by rw [List.append_nil]; rfl⟩
  | a :: acts, cur => by
    cases a with
    | text t =>
      obtain ⟨t', rest, h⟩ := bodies_head acts (cur ++ t)
      exact ⟨t ++ t', rest, by rw [← List.append_assoc]; exact h⟩
    | failed => exact ⟨[], bodies [] acts, by rw [List.append_nil]; rfl⟩
    | start => exact bodies_head acts cur
    | stop => exact bodies_head acts cur
    | opened => exact bodies_head acts cur
    | togglePause => exact bodies_head acts cur
    | clear => exact bodies_head acts cur

/-- **A text of a connection**: the view goes on with the frames it completes. -/
theorem text_shown {v : View} {cur t lastEventId : Text} {frames : List Frame} {done : List (Text × Option Text)}
    (hwire : Wire frames) (hopen : v.isOpen = true) (hpaused : v.paused = false)
    (hreader : v.reader = ((Reader.connect lastEventId).read cur).1) (hcome : cur ++ t <+: frames.flatMap Frame.text)
    (hall : v.all.map ParsedLogLine.shown = done ++ shownFrames cur frames) :
    (t.foldl View.receive v).all.map ParsedLogLine.shown = done ++ shownFrames (cur ++ t) frames ∧
      (t.foldl View.receive v).paused = false ∧
      (t.foldl View.receive v).reader = ((Reader.connect lastEventId).read (cur ++ t)).1 := by
  have hbefore := @read_frames frames cur true lastEventId hwire.sound ((List.prefix_append cur t).trans hcome)
  have hafter := @read_frames frames (cur ++ t) true lastEventId hwire.sound hcome
  have hread := EventStream.read_append cur t (Reader.connect lastEventId)
  have hevents : (arrived frames (cur ++ t)).filterMap Frame.event? =
      (arrived frames cur).filterMap Frame.event? ++ (v.reader.read t).2 := by
    rw [← hafter, ← hbefore, hreader]
    exact congrArg Prod.snd hread
  obtain ⟨htypes, hends⟩ := hwire.events (cur ++ t)
  rw [hevents] at htypes hends
  obtain ⟨hshown, hstill⟩ := @foldl_dispatch_shown (v.reader.read t).2 v hopen hpaused
    (fun e he => htypes e (List.mem_append_right _ he)) (List.pairwise_append.1 hends).2.1
  rw [foldl_receive]
  refine ⟨?_, hstill, ?_⟩
  · rw [hshown, hall, shownFrames_eq, shownFrames_eq, hevents, List.map_append, List.append_assoc]
  · rw [hread, hreader]

/-- **The source's own steps**, from where a connection stands. -/
theorem follow : ∀ {acts : List ViewAct} {v w : View} {cur lastEventId : Text} {conns : List (List Frame)}
    {done : List (Text × Option Text)}, (∀ a ∈ acts, a.Plain) → (∀ frames ∈ conns, Wire frames) →
    List.Forall₂ (fun body frames => body <+: frames.flatMap Frame.text) (bodies cur acts) conns →
    v.paused = false → v.isOpen = true → v.reader = ((Reader.connect lastEventId).read cur).1 →
    (∀ frames ∈ conns.head?, v.all.map ParsedLogLine.shown = done ++ shownFrames cur frames) →
    exec viewStep v acts = some w →
    w.all.map ParsedLogLine.shown = done ++ (List.zipWith shownFrames (bodies cur acts) conns).flatten
  | [], v, w, cur, lastEventId, conns, done, _, _, hcome, _, _, _, hall, hrun => by
    obtain ⟨frames, rest, -, hrest, rfl⟩ := List.forall₂_cons_left_iff.1 hcome
    obtain rfl := List.forall₂_nil_left_iff.1 hrest
    cases hrun
    rw [hall frames rfl]
    simp [bodies]
  | a :: acts, v, w, cur, lastEventId, conns, done, hplain, hwire, hcome, hpaused, hopen, hreader, hall, hrun => by
    have hrest : ∀ b ∈ acts, b.Plain := fun b hb => hplain b (List.mem_cons_of_mem a hb)
    obtain ⟨u, hu, hw⟩ := Steps.exec_cons hrun
    cases a with
    | opened =>
      obtain ⟨-, hu⟩ := Option.ite_none_right_eq_some.1 hu
      cases hu
      exact @follow acts { v with status := if v.paused then .paused else .connected } w cur lastEventId conns done hrest hwire
        hcome hpaused hopen hreader hall hw
    | text t =>
      obtain ⟨-, hu⟩ := Option.ite_none_right_eq_some.1 hu
      cases hu
      have hcome' : List.Forall₂ (fun body frames => body <+: frames.flatMap Frame.text) (bodies (cur ++ t) acts) conns := hcome
      obtain ⟨more, later, hbodies⟩ := bodies_head acts (cur ++ t)
      rw [hbodies] at hcome'
      obtain ⟨frames, conns', hbody, hlater, rfl⟩ := List.forall₂_cons_left_iff.1 hcome'
      obtain ⟨hshown, hstill, hat⟩ := text_shown (hwire frames (List.mem_cons_self ..)) hopen hpaused hreader
        ((List.prefix_append _ more).trans hbody) (hall frames rfl)
      cases hclosed : (t.foldl View.receive v).isOpen with
      | true =>
        refine @follow acts _ w (cur ++ t) lastEventId (frames :: conns') done hrest hwire hcome hstill hclosed hat ?_ hw
        rintro _ ⟨⟩
        exact hshown
      | false =>
        -- the stream has ended, and nothing follows
        obtain ⟨rfl, rfl⟩ := acts_of_closed hrest hclosed hw
        obtain ⟨hmore, rfl⟩ := List.cons.inj hbodies
        obtain rfl := List.forall₂_nil_left_iff.1 hlater
        rw [hshown]
        simp [bodies]
    | failed =>
      obtain ⟨-, hu⟩ := Option.ite_none_right_eq_some.1 hu
      cases hu
      obtain ⟨frames, conns', hbody, hlater, rfl⟩ := List.forall₂_cons_left_iff.1 hcome
      have hnext := @follow acts { v with status := .error, reader := .connect v.reader.lastEventId } w [] v.reader.lastEventId
        conns' (done ++ shownFrames cur frames) hrest (fun fs hfs => hwire fs (List.mem_cons_of_mem _ hfs)) hlater hpaused
        hopen rfl (fun fs _ => by rw [shownFrames_nil, List.append_nil]; exact hall frames rfl) hw
      rw [hnext]
      simp [bodies]
    | start => exact (hplain .start (List.mem_cons_self ..)).elim
    | stop => exact (hplain .stop (List.mem_cons_self ..)).elim
    | togglePause => exact (hplain .togglePause (List.mem_cons_self ..)).elim
    | clear => exact (hplain .clear (List.mem_cons_self ..)).elim

/-! ## The route's lines -/

section
variable {α : Type} {given : List α} {r r' : Route α}

/-- The route holds and has sent no other lines. -/
structure Holds (given : List α) (r : Route α) : Prop where
  history : ∀ l ∈ r.history.getD [], l ∈ given
  clients : ∀ id c, r.clients id = some c → ∀ l, l ∈ c.sent ∨ l ∈ c.buffered → l ∈ given

theorem Holds.of_same (hs : Holds given r) (hhistory : r'.history = r.history) (hclients : r'.clients = r.clients) :
    Holds given r' where
  history := by rw [hhistory]; exact hs.history
  clients := by rw [hclients]; exact hs.clients

theorem Holds.setClient {id : Nat} {client : Option (LogRoute.Client α)} (hs : Holds given r)
    (hclient : ∀ c, client = some c → ∀ l, l ∈ c.sent ∨ l ∈ c.buffered → l ∈ given) :
    Holds given { r with clients := Function.update r.clients id client } where
  history := hs.history
  clients i c hc := by
    by_cases hid : i = id
    · subst hid
      simp only [Function.update_self] at hc
      exact hclient c hc
    · simp only [Function.update_of_ne hid] at hc
      exact hs.clients i c hc

theorem Holds.onLine (hs : Holds given r) {l : α} (hl : l ∈ given) (sub : LogRoute.Sub) : Holds given (r.onLine l sub) := by
  cases sub with
  | history =>
    refine ⟨fun m hm => ?_, hs.clients⟩
    have hbuf : m ∈ r.history.getD [] ++ [l] := by
      simp only [Route.onLine, LogRoute.pushHistory, Option.getD_some] at hm
      split at hm
      · exact List.mem_of_mem_drop hm
      · exact hm
    rcases List.mem_append.1 hbuf with hm | hm
    · exact hs.history m hm
    · rw [List.mem_singleton.1 hm]
      exact hl
  | client id =>
    refine hs.setClient (fun c hc m hm => ?_)
    obtain ⟨c', hc', rfl⟩ := Option.map_eq_some_iff.1 hc
    have hold := hs.clients id c' hc' m
    unfold LogRoute.Client.onLine at hm
    split at hm
    · exact hold hm
    · split at hm <;> simp only [List.mem_append, List.mem_singleton] at hm
      · rcases hm with (hm | rfl) | hm
        · exact hold (.inl hm)
        · exact hl
        · exact hold (.inr hm)
      · rcases hm with hm | hm | rfl
        · exact hold (.inl hm)
        · exact hold (.inr hm)
        · exact hl

theorem Holds.foldl_onLine {l : α} (hl : l ∈ given) : ∀ {subs : List LogRoute.Sub} {r : Route α}, Holds given r →
    Holds given (subs.foldl (fun r sub => r.onLine l sub) r)
  | [], _, hs => hs
  | sub :: subs, r, hs => by
    rw [List.foldl_cons]
    exact foldl_onLine hl (hs.onLine hl sub)

variable {respawnDelayMs : Nat} {text : α → String}

theorem Holds.call (hs : Holds given r) {a : LogBroker.Act LogRoute.Sub} (h : r.call respawnDelayMs a = some r') :
    Holds given r' := by
  obtain ⟨b, -, rfl⟩ := Option.map_eq_some_iff.1 h
  exact hs.of_same rfl rfl

theorem Holds.warmBroker (hs : Holds given r) (h : r.warmBroker respawnDelayMs = some r') : Holds given r' := by
  unfold Route.warmBroker at h
  split at h
  · cases h
    exact hs
  · obtain ⟨u, hu, rfl⟩ := Option.map_eq_some_iff.1 h
    exact (hs.call hu).of_same rfl rfl

theorem routeStep_holds {a : LogRoute.RouteAct α} (hs : Holds given r) (hline : ∀ tail l, a = .line tail l → l ∈ given)
    (h : routeStep respawnDelayMs text r a = some r') : Holds given r' := by
  cases a with
  | line tail l =>
    obtain ⟨b, -, rfl⟩ := Option.map_eq_some_iff.1 h
    exact Holds.foldl_onLine (hline tail l rfl) (hs.of_same rfl rfl)
  | exit tail => exact hs.call h
  | timer => exact hs.call h
  | connect id tail =>
    obtain ⟨u, hu, h⟩ := Option.bind_eq_some_iff.1 h
    obtain ⟨w, hw, rfl⟩ := Option.map_eq_some_iff.1 h
    have hwarm := (hs.warmBroker hu).call hw
    refine hwarm.setClient ?_
    rintro c ⟨⟩ l hl
    -- the request writes what it asks for of the history, and nothing is buffered
    have hsent : l ∈ LogRoute.getHistory w.history (LogRoute.tailOf tail) := by
      simpa [LogRoute.Client.handoff] using hl
    unfold LogRoute.getHistory at hsent
    split at hsent
    · cases hsent
    · rename_i buf hbuf
      exact hwarm.history l (by rw [hbuf]; exact List.mem_of_mem_drop hsent)
  | disconnect id =>
    obtain ⟨u, hu, rfl⟩ := Option.map_eq_some_iff.1 h
    refine (hs.call hu).setClient (fun c hc => ?_)
    obtain ⟨c', hc', rfl⟩ := Option.map_eq_some_iff.1 hc
    exact (hs.call hu).clients id c' hc'
  | logs => exact hs.warmBroker h

/-- **A client is sent the broker's lines only.** -/
theorem sent_of_run {acts : List (LogRoute.RouteAct α)} (hrun : exec (routeStep respawnDelayMs text) (.init α) acts = some r)
    {id : Nat} {c : LogRoute.Client α} (hc : r.clients id = some c) : ∀ l ∈ c.sent, l ∈ LogRoute.lines acts := by
  have hstart : Holds (LogRoute.lines acts) (Route.init α) := ⟨(fun _ h => by cases h), (fun _ _ h => by cases h)⟩
  have hguard := @Steps.guarded_of_forall _ _ (routeStep respawnDelayMs text)
    (fun a => ∀ tail l, a = LogRoute.RouteAct.line tail l → l ∈ LogRoute.lines acts) acts (Route.init α) (by
      rintro a ha tail l rfl
      exact List.mem_filterMap.2 ⟨_, ha, rfl⟩)
  have hend := Steps.exec_inv (I := Holds (LogRoute.lines acts)) (fun r a r' hs hline h => routeStep_holds hs hline h)
    acts _ r hstart hguard hrun
  exact fun l hl => hend.clients id c hc l (.inl hl)

end

/-! ## From the container to the view -/

/-- **What a connection is written**: the lines a client is sent in a run of the route, with heartbeats anywhere, and
perhaps the end; each line comes from some stream's chunks. -/
structure Served (frames : List Frame) : Prop where
  sent : ∃ respawnDelayMs acts r id c, exec (routeStep respawnDelayMs (fun l : String => l)) (.init String) acts = some r ∧
    r.clients id = some c ∧ frames.filterMap Frame.line? = c.sent ∧
    ∀ l ∈ LogRoute.lines acts, ∃ chunks, l.toList ∈ LogLines.emitted chunks
  ends : frames.Pairwise (fun f _ => f.isEnded = false)

theorem Served.wire {frames : List Frame} (h : Served frames) : Wire frames where
  sound f hf := by
    cases f with
    | line l =>
      obtain ⟨respawnDelayMs, acts, r, id, c, hrun, hc, hlines, hemitted⟩ := h.sent
      have hl : l ∈ c.sent := hlines ▸ List.mem_filterMap.2 ⟨_, hf, rfl⟩
      obtain ⟨chunks, hl⟩ := hemitted l (sent_of_run hrun hc l hl)
      intro d hd
      have hd := LogLines.isEol_of_mem_emitted hl hd
      constructor <;> rintro rfl <;> cases hd
    | heartbeat => trivial
    | ended reason => trivial
  ends := h.ends

/-- **What the log view shows.**  In every run of the hook that is not paused, cleared or switched since it started: of
what the route has written to each of its connections, cut anywhere, broken off anywhere and made again, the view shows
the lines that have arrived whole, as they left the container's stream and in that order, the last two thousand of
them, and at last that the stream has ended; of a body that has come whole, every line. -/
theorem view_shows {before acts : List ViewAct} {u v : View} (hbefore : exec viewStep .init before = some u)
    (hpaused : u.paused = false) (hplain : ∀ a ∈ acts, a.Plain) (hrun : exec viewStep u (.start :: acts) = some v)
    {conns : List (List Frame)} (hserved : ∀ frames ∈ conns, Served frames)
    (hcome : List.Forall₂ (fun body frames => body <+: frames.flatMap Frame.text) (bodies [] acts) conns) :
    v.lines.map ParsedLogLine.shown = (List.zipWith shownFrames (bodies [] acts) conns).flatten.rtake
        (maxBuffer + (List.zipWith shownFrames (bodies [] acts) conns).flatten.countP (·.2.isSome)) ∧
      ∀ frames ∈ conns, shownFrames (frames.flatMap Frame.text) frames = frames.filterMap Frame.shown? := by
  obtain ⟨w, hw, hv⟩ := Steps.exec_cons hrun
  cases hw
  have hshown := @follow acts { u with lines := [], status := .connecting, isOpen := true, reader := .connect [], all := [] } v
    [] [] conns [] hplain (fun frames hframes => (hserved frames hframes).wire) hcome hpaused rfl rfl
    (fun frames _ => by rw [shownFrames_nil]; rfl) hv
  rw [List.nil_append] at hshown
  have hs : v.Inv := @run_inv (before ++ .start :: acts) v (by rw [Steps.exec_append, hbefore]; exact hrun)
  refine ⟨?_, fun frames _ => by rw [shownFrames, arrived_whole]⟩
  have hcount : (v.all.map ParsedLogLine.shown).countP (·.2.isSome) = v.all.countP ParsedLogLine.isEnded := by
    rw [List.countP_map]
    rfl
  rw [← hshown, hcount, hs.window, List.rtake, List.rtake, List.map_drop, List.length_map]

/-- Two lines and a second request, which the history repeats to. -/
def twoLines : List (LogRoute.RouteAct String) := [.connect 0 none, .line 0 "one", .line 0 "two", .connect 1 none]

def firstFrames : List Frame := [.line "one", .heartbeat, .line "two"]

def secondFrames : List Frame := [.line "one", .line "two", .ended .engineStopped]

/-- The first connection breaks off inside a heartbeat; the second ends with the engine. -/
def reconnected : List ViewAct :=
  [.opened, .text "data: o".toList, .text "ne\n\n: heart".toList, .failed, .opened, .text (secondFrames.flatMap Frame.text)]

theorem served_twoLines {frames : List Frame} {id : Nat}
    (hlines : (exec (routeStep 1000 (fun l : String => l)) (.init String) twoLines).bind (fun r => (r.clients id).map (·.sent)) =
      some (frames.filterMap Frame.line?)) (hends : frames.Pairwise (fun f _ => f.isEnded = false)) : Served frames := by
  obtain ⟨r, hr, hsent⟩ := Option.bind_eq_some_iff.1 hlines
  obtain ⟨c, hc, hsent⟩ := Option.map_eq_some_iff.1 hsent
  refine ⟨⟨1000, twoLines, r, id, c, hr, hc, hsent.symm, ?_⟩, hends⟩
  intro l hl
  have hl : l = "one" ∨ l = "two" := by simpa [LogRoute.lines, twoLines] using hl
  rcases hl with rfl | rfl
  · exact ⟨[Utf8.encode "one\n".toList], by decide⟩
  · exact ⟨[Utf8.encode "two\n".toList], by decide⟩

theorem view_shows_reconnected : ∃ v, exec viewStep .init (.start :: reconnected) = some v ∧
    v.lines.map ParsedLogLine.shown = [("one".toList, none), ("one".toList, none), ("two".toList, none),
      ([], some "[stream ended: engine-stopped]".toList)] := by
  refine ⟨_, rfl, ?_⟩
  have hserved : ∀ frames ∈ [firstFrames, secondFrames], Served frames := by
    rintro frames hframes
    rcases List.mem_pair.1 hframes with rfl | rfl
    · exact @served_twoLines firstFrames 0 (by decide +kernel) (by decide)
    · exact @served_twoLines secondFrames 1 (by decide +kernel) (by decide)
  have h := @view_shows [] reconnected .init _ rfl rfl (by simp [reconnected, ViewAct.Plain]) rfl [firstFrames, secondFrames]
    hserved (.cons (by decide) (.cons (by decide) .nil))
  rw [h.1]
  decide +kernel

end LogView
end SignalkDoctor
