import Mathlib.Data.List.Nodup
import Prox.Relay.ResponsesChat

/-! # The two conversions of a Responses result

A result that comes as a whole and the same result that comes as a stream should give the client the
same message. Over the stream the decision between text and tool calls is made with the text that has
come so far. The main result says when this makes no difference: a result with text announces no
function call before its first text, and a result without text has only calls with a name. -/

namespace Prox

open ChatStreamState List Option ResponsesOutput

-- Texts are compared by the lemmas on `trimSpace`, not computed.
attribute [local irreducible] trimSpace

/-! ## The protocol of the upstream -/

/-- The items of the results in question: messages of the assistant with output texts, and function
calls. -/
def ResponsesOutput.Plain (out : ResponsesOutput) : Prop :=
  (out.type = .message ∧ (out.role = "" ∨ out.role = "assistant") ∧
    ∀ c ∈ out.content, c.type = .outputText) ∨
  (out.type = .functionCall ∧ out.content = [])
  deriving Decidable

/-- The function calls of a result. -/
def functionCalls (output : List ResponsesOutput) : List ResponsesOutput :=
  output.filter fun out => out.type = .functionCall

/-- A function call of which `arguments` have come. -/
structure CallProgress where
  call : ResponsesOutput
  arguments : String
  finished : Bool

/-- The calls that have not been announced and those that have. -/
structure ResponsesProgress where
  todo : List ResponsesOutput
  started : List CallProgress

namespace ResponsesProgress

/-- What may come next: the next call is announced with some first part of its arguments, a call that
is running gets more of them, or it is finished with all of them. -/
def next (p : ResponsesProgress) : ResponsesEvent → Option ResponsesProgress
  | .outputItemAdded item =>
    if item.type ≠ .functionCall then some p
    else match p.todo with
      | [] => none
      | call :: todo =>
        if item = { call with arguments := item.arguments } ∧
            hasPrefix call.arguments item.arguments then
          some { todo, started := p.started ++ [⟨call, item.arguments, false⟩] }
        else none
  | .functionCallArgumentsDelta itemID delta =>
    if ∃ c ∈ p.started, c.finished = false ∧ c.call.id = itemID ∧
        hasPrefix c.call.arguments (c.arguments ++ delta) then
      some { p with started := p.started.map fun c =>
        if c.call.id = itemID then { c with arguments := c.arguments ++ delta } else c }
    else none
  | .outputItemDone item =>
    if item.type ≠ .functionCall then some p
    else if ∃ c ∈ p.started, c.finished = false ∧ c.call = item then
      some { p with started := p.started.map fun c =>
        if c.call = item then ⟨c.call, c.call.arguments, true⟩ else c }
    else none
  | .completed _ | .failed => none
  | _ => some p

end ResponsesProgress

/-- The text of a delta. -/
def ResponsesEvent.text? : ResponsesEvent → Option String
  | .outputTextDelta delta => some delta
  | _ => none

/-- The events are a stream of the result. -/
structure ResponsesProtocol (output : List ResponsesOutput) (body : List ResponsesEvent) : Prop where
  plain : ∀ out ∈ output, out.Plain
  /-- Every call has an item id, and no two share one. -/
  items : (∀ call ∈ functionCalls output, trimSpace call.id ≠ "") ∧
    ((functionCalls output).map fun call => trimSpace call.id).Nodup
  /-- No two calls share a call id. -/
  calls : ((functionCalls output).map ResponsesOutput.callID).Nodup
  /-- The calls are announced in order, and all of them are finished. -/
  progress : ∃ p, body.foldlM ResponsesProgress.next ⟨functionCalls output, []⟩ = some p ∧
    p.todo = [] ∧ ∀ c ∈ p.started, c.finished = true
  text : concat (body.filterMap ResponsesEvent.text?)
    = concat (output.flatMap ResponsesOutput.outputTexts)

/-! ## When they agree -/

/-- No function call is announced before the first text. -/
def TextFirst : List ResponsesEvent → Prop
  | [] => True
  | .outputTextDelta delta :: es => delta ≠ "" ∨ TextFirst es
  | .outputItemAdded item :: es => item.type ≠ .functionCall ∧ TextFirst es
  | _ :: es => TextFirst es

/-- The streams that say what the whole result says. -/
def Agrees (output : List ResponsesOutput) (body : List ResponsesEvent) : Prop :=
  if concat (output.flatMap ResponsesOutput.outputTexts) = "" then
    ∀ call ∈ functionCalls output, trimSpace call.name ≠ ""
  else TextFirst body

instance decidableTextFirst : (es : List ResponsesEvent) → Decidable (TextFirst es)
  | [] => inferInstanceAs (Decidable True)
  | .outputTextDelta _ :: es =>
    have := decidableTextFirst es
    inferInstanceAs (Decidable (_ ∨ TextFirst es))
  | .outputItemAdded _ :: es =>
    have := decidableTextFirst es
    inferInstanceAs (Decidable (_ ∧ TextFirst es))
  | .created _ :: es | .reasoningSummaryTextDelta _ :: es | .reasoningSummaryTextDone :: es
  | .outputItemDone _ :: es | .functionCallArgumentsDelta _ _ :: es | .completed _ :: es
  | .failed :: es | .other :: es => decidableTextFirst es

instance (output : List ResponsesOutput) (body : List ResponsesEvent) :
    Decidable (Agrees output body) :=
  inferInstanceAs (Decidable (if concat (output.flatMap ResponsesOutput.outputTexts) = "" then
    ∀ call ∈ functionCalls output, trimSpace call.name ≠ "" else TextFirst body))

/-! ## What chunks say -/

/-- The text, the tool deltas and the finish reasons of chunks. -/
def chunkView (chunks : List ChatChunk) : String × List ToolCallResponse × List String :=
  (concat (chunks.map ChatChunk.content), chunks.flatMap ChatChunk.toolDeltas,
    (chunks.flatMap ChatChunk.choices).filterMap StreamChoice.finish?)

theorem chunkView_append (cs cs' : List ChatChunk) :
    chunkView (cs ++ cs')
      = ((chunkView cs).1 ++ (chunkView cs').1, (chunkView cs).2.1 ++ (chunkView cs').2.1,
        (chunkView cs).2.2 ++ (chunkView cs').2.2) := by
  simp [chunkView, concat_append]

namespace ChatStreamState

variable {s : ChatStreamState}

/-- What tells the text, the errors and the end. -/
def frame (s : ChatStreamState) : String × Bool × Bool := (s.outputText, s.streamErr, s.sentStop)

theorem chunkView_chunk (s : ChatStreamState) (delta : ChoiceDelta) :
    chunkView [s.chunk delta] = (delta.getContentString, delta.toolCalls, []) := by
  simp [chunkView, chunk, ChatChunk.content, ChatChunk.toolDeltas, StreamChoice.finish?, concat]

/-- The start says nothing. -/
theorem sendStartIfNeeded_view (s : ChatStreamState) :
    chunkView s.sendStartIfNeeded.1 = ("", [], []) ∧
      s.sendStartIfNeeded.2 = { s with sentStart := true } := by
  unfold sendStartIfNeeded
  split
  · next h =>
    refine ⟨rfl, ?_⟩
    rw [← h]
  · exact ⟨s.chunkView_chunk _, rfl⟩

theorem sendReasoningSummaryDelta_view (delta : String) (s : ChatStreamState) :
    chunkView (s.sendReasoningSummaryDelta delta).1 = ("", [], []) ∧
      (s.sendReasoningSummaryDelta delta).2.frame = s.frame := by
  unfold sendReasoningSummaryDelta
  split
  · exact ⟨rfl, rfl⟩
  · obtain ⟨hview, hstate⟩ :=
      sendStartIfNeeded_view { s with needsReasoningSummarySeparator := false }
    refine ⟨?_, ?_⟩
    · rw [chunkView_append, hview]
      rfl
    · simp only [hstate]
      rfl

theorem sendOutputTextDelta_view (delta : String) (s : ChatStreamState) :
    chunkView (s.sendOutputTextDelta delta).1 = (delta, [], []) ∧
      (s.sendOutputTextDelta delta).2
        = { s with sentStart := true, outputText := s.outputText ++ delta } := by
  obtain ⟨hview, hstate⟩ := s.sendStartIfNeeded_view
  unfold sendOutputTextDelta
  dsimp only
  rw [hstate]
  split
  · next hempty =>
    refine ⟨?_, ?_⟩
    · rw [hview, hempty]
    · rw [hempty, String.append_empty]
  · refine ⟨?_, rfl⟩
    rw [chunkView_append, hview, chunkView_chunk]
    exact Prod.ext String.empty_append rfl

/-- After some text no tool call is sent. -/
theorem sendToolCallDelta_late (callID name argsDelta : String) (h : s.outputText ≠ "") :
    s.sendToolCallDelta callID name argsDelta = ([], s) := if_pos (.inr h)

/-- Tool calls say nothing about the text. -/
theorem sendToolCallDelta_view (callID name argsDelta : String) (s : ChatStreamState) :
    (chunkView (s.sendToolCallDelta callID name argsDelta).1).1 = "" ∧
      (chunkView (s.sendToolCallDelta callID name argsDelta).1).2.2 = [] ∧
      (s.sendToolCallDelta callID name argsDelta).2.frame = s.frame := by
  obtain ⟨hview, hstate⟩ := s.sendStartIfNeeded_view
  unfold sendToolCallDelta
  split
  · exact ⟨rfl, rfl, rfl⟩
  · simp only [hstate, chunkView_append, hview, chunkView_chunk]
    refine ⟨rfl, rfl, ?_⟩
    split <;> split <;> rfl

/-- A function call item says nothing about the text. -/
theorem handleItem_view (item : ResponsesOutput) (s : ChatStreamState) :
    (chunkView (s.handleItem item).1).1 = "" ∧ (chunkView (s.handleItem item).1).2.2 = [] ∧
      (s.handleItem item).2.frame = s.frame ∧
      (s.outputText ≠ "" → (chunkView (s.handleItem item).1).2.1 = []) := by
  unfold handleItem
  split
  · exact ⟨rfl, rfl, rfl, fun _ => rfl⟩
  · obtain ⟨htext, hfinish, hframe⟩ := sendToolCallDelta_view item.callID (trimSpace item.name)
      (argsDelta item.arguments (s.toolCallArgsByID item.callID)) (s.recordItem item)
    refine ⟨htext, hfinish, hframe, fun hlate => ?_⟩
    have hlate' : (s.recordItem item).outputText ≠ "" := hlate
    rw [sendToolCallDelta_late _ _ _ hlate']
    rfl

/-- A piece of arguments says nothing about the text. -/
theorem handleArgumentsDelta_view (itemID delta : String) (s : ChatStreamState) :
    (chunkView (s.handleArgumentsDelta itemID delta).1).1 = "" ∧
      (chunkView (s.handleArgumentsDelta itemID delta).1).2.2 = [] ∧
      (s.handleArgumentsDelta itemID delta).2.frame = s.frame ∧
      (s.outputText ≠ "" → (chunkView (s.handleArgumentsDelta itemID delta).1).2.1 = []) := by
  unfold handleArgumentsDelta
  dsimp only
  split
  · exact ⟨rfl, rfl, rfl, fun _ => rfl⟩
  · obtain ⟨htext, hfinish, hframe⟩ := sendToolCallDelta_view (s.callIDOfItem itemID) "" delta
      (s.recordArguments (s.callIDOfItem itemID) delta)
    refine ⟨htext, hfinish, hframe, fun hlate => ?_⟩
    have hlate' : (s.recordArguments (s.callIDOfItem itemID) delta).outputText ≠ "" := hlate
    rw [sendToolCallDelta_late _ _ _ hlate']
    rfl

end ChatStreamState

/-- Neither the end nor an error. -/
def ResponsesEvent.Body (e : ResponsesEvent) : Prop := (∀ model, e ≠ .completed model) ∧ e ≠ .failed

variable {p p' : ResponsesProgress} {e : ResponsesEvent}

/-- What follows the protocol goes on. -/
theorem ResponsesProgress.next_body (h : p.next e = some p') : e.Body := by
  cases e with
  | completed model => cases h
  | failed => cases h
  | _ => exact ⟨nofun, nofun⟩

variable {es : List ResponsesEvent}

/-- The first event and the rest. -/
theorem ResponsesProgress.foldlM_cons (h : (e :: es).foldlM ResponsesProgress.next p = some p') :
    ∃ p₁, p.next e = some p₁ ∧ es.foldlM ResponsesProgress.next p₁ = some p' := by
  exact bind_eq_some_iff.mp h

theorem ResponsesProgress.body_of_foldlM (h : es.foldlM ResponsesProgress.next p = some p') :
    ∀ e ∈ es, e.Body := by
  induction es generalizing p with
  | nil => nofun
  | cons e es ih =>
    obtain ⟨p₁, hfirst, hrest⟩ := foldlM_cons h
    exact forall_mem_cons.mpr ⟨next_body hfirst, ih hrest⟩

variable {s : ChatStreamState}

namespace ChatStreamState

/-- **One event beside the text.** -/
theorem step_view (he : e.Body) (herr : s.streamErr = false) :
    (chunkView (s.step e).1).1 = (e.text?).getD "" ∧ (chunkView (s.step e).1).2.2 = [] ∧
      (s.step e).2.frame = (s.outputText ++ (e.text?).getD "", false, s.sentStop) ∧
      (s.outputText ≠ "" → (chunkView (s.step e).1).2.1 = []) := by
  have hframe : s.frame = (s.outputText, false, s.sentStop) := by rw [frame, herr]
  have hquiet : s.frame = (s.outputText ++ "", false, s.sentStop) := by
    rw [hframe, String.append_empty]
  unfold step
  rw [if_neg (by simp [herr])]
  cases e with
  | completed model => exact absurd rfl (he.1 model)
  | failed => exact absurd rfl he.2
  | created model => exact ⟨rfl, rfl, hquiet, fun _ => rfl⟩
  | reasoningSummaryTextDone =>
    refine ⟨rfl, rfl, ?_, fun _ => rfl⟩
    dsimp only
    split <;> exact hquiet
  | other => exact ⟨rfl, rfl, hquiet, fun _ => rfl⟩
  | reasoningSummaryTextDelta delta =>
    obtain ⟨hview, hstate⟩ := sendReasoningSummaryDelta_view delta s
    rw [hview, hstate]
    exact ⟨rfl, rfl, hquiet, fun _ => rfl⟩
  | outputTextDelta delta =>
    obtain ⟨hview, hstate⟩ := sendOutputTextDelta_view delta s
    rw [hview, hstate]
    refine ⟨rfl, rfl, ?_, fun _ => rfl⟩
    rw [herr]
    rfl
  | outputItemAdded item =>
    obtain ⟨htext, hfinish, hstate, hlate⟩ := handleItem_view item s
    exact ⟨htext, hfinish, hstate.trans hquiet, hlate⟩
  | outputItemDone item =>
    obtain ⟨htext, hfinish, hstate, hlate⟩ := handleItem_view item s
    exact ⟨htext, hfinish, hstate.trans hquiet, hlate⟩
  | functionCallArgumentsDelta itemID delta =>
    obtain ⟨htext, hfinish, hstate, hlate⟩ := handleArgumentsDelta_view itemID delta s
    exact ⟨htext, hfinish, hstate.trans hquiet, hlate⟩

/-- **The text of a stream**, and once there is some, no more tool calls. -/
theorem steps_view (hes : ∀ e ∈ es, e.Body) (herr : s.streamErr = false) :
    (chunkView (s.steps es).1).1 = concat (es.filterMap ResponsesEvent.text?) ∧
      (chunkView (s.steps es).1).2.2 = [] ∧
      (s.steps es).2.frame
        = (s.outputText ++ concat (es.filterMap ResponsesEvent.text?), false, s.sentStop) ∧
      (s.outputText ≠ "" → (chunkView (s.steps es).1).2.1 = []) := by
  induction es generalizing s with
  | nil =>
    refine ⟨rfl, rfl, ?_, fun _ => rfl⟩
    rw [steps, frame, herr]
    exact Prod.ext String.append_empty.symm rfl
  | cons e es ih =>
    obtain ⟨he, hes⟩ := forall_mem_cons.mp hes
    obtain ⟨htext, hfinish, hstate, hlate⟩ := step_view he herr
    obtain ⟨houtput, herr', hstop⟩ : (s.step e).2.outputText = s.outputText ++ (e.text?).getD "" ∧
        (s.step e).2.streamErr = false ∧ (s.step e).2.sentStop = s.sentStop := by
      simpa [frame] using hstate
    obtain ⟨htext', hfinish', hstate', hlate'⟩ := ih hes herr'
    have hconcat : concat ((e :: es).filterMap ResponsesEvent.text?)
        = (e.text?).getD "" ++ concat (es.filterMap ResponsesEvent.text?) := by
      rw [filterMap_cons]
      cases e.text? with
      | none => exact String.empty_append.symm
      | some x => rfl
    rw [steps, chunkView_append, hconcat]
    refine ⟨?_, ?_, ?_, fun hne => ?_⟩
    · rw [htext, htext']
    · rw [hfinish, hfinish']
      rfl
    · rw [hstate', houtput, hstop, String.append_assoc]
    · have hne' : (s.step e).2.outputText ≠ "" := by
        rw [houtput]
        exact fun h => hne (String.append_eq_empty_iff.mp h).1
      rw [hlate hne, hlate' hne']
      rfl

end ChatStreamState

/-! ## Tool calls before any text -/

/-- What an item brings completes what came before. -/
theorem ChatStreamState.append_argsDelta {newArgs prevArgs : String}
    (h : hasPrefix newArgs prevArgs = true) : prevArgs ++ argsDelta newArgs prevArgs = newArgs := by
  have hrest := hasPrefix_iff.mp h
  unfold argsDelta
  by_cases hne : newArgs = ""
  · rw [if_neg (fun hc => hc.1 hne), hne]
    rw [hne] at hrest
    rw [(String.append_eq_empty_iff.mp hrest).1, String.append_empty]
  · rw [if_pos ⟨hne, h⟩, hrest]

/-- A call has an id when its item has one. -/
theorem ResponsesOutput.callID_ne_empty {out : ResponsesOutput} (h : trimSpace out.id ≠ "") :
    out.callID ≠ "" := by
  unfold callID
  split
  · exact h
  · assumption

namespace ChatStreamState

/-- Arguments are kept in a field of their own. -/
theorem recordArguments_fields (callID delta : String) (s : ChatStreamState) :
    (s.recordArguments callID delta).outputText = s.outputText ∧
      (s.recordArguments callID delta).toolCallIndexByID = s.toolCallIndexByID ∧
      (s.recordArguments callID delta).toolCallNameByID = s.toolCallNameByID ∧
      (s.recordArguments callID delta).toolCallNameSent = s.toolCallNameSent ∧
      (s.recordArguments callID delta).toolCallCanonicalIDByItemID
        = s.toolCallCanonicalIDByItemID ∧
      (s.recordArguments callID delta).toolCallArgsByID
        = Function.update s.toolCallArgsByID callID (s.toolCallArgsByID callID ++ delta) := by
  exact ⟨rfl, rfl, rfl, rfl, rfl, rfl⟩

/-- What is kept of an item, entry by entry. -/
theorem recordItem_fields {item : ResponsesOutput} (hitem : trimSpace item.id ≠ "")
    (hid : item.callID ≠ "") (s : ChatStreamState) :
    (s.recordItem item).outputText = s.outputText ∧
      (s.recordItem item).toolCallIndexByID = s.toolCallIndexByID ∧
      (s.recordItem item).toolCallNameSent = s.toolCallNameSent ∧
      (s.recordItem item).toolCallNameByID = (if trimSpace item.name ≠ "" then
        Function.update s.toolCallNameByID item.callID (trimSpace item.name)
        else s.toolCallNameByID) ∧
      (s.recordItem item).toolCallCanonicalIDByItemID
        = Function.update s.toolCallCanonicalIDByItemID (trimSpace item.id) item.callID ∧
      (s.recordItem item).toolCallArgsByID = (if item.arguments ≠ "" then
        Function.update s.toolCallArgsByID item.callID item.arguments else s.toolCallArgsByID) := by
  unfold recordItem
  exact ⟨rfl, rfl, rfl, rfl, if_pos ⟨hitem, hid⟩, rfl⟩

/-- The ids after a tool call. -/
def idsAfter (s : ChatStreamState) (callID : String) : List String :=
  if callID ∈ s.toolCallIndexByID then s.toolCallIndexByID else s.toolCallIndexByID ++ [callID]

/-- The names after a tool call. -/
def namesAfter (s : ChatStreamState) (callID name : String) : String → String :=
  if name = "" then s.toolCallNameByID else Function.update s.toolCallNameByID callID name

/-- The name is sent with the first piece that knows it. -/
def SendsName (s : ChatStreamState) (callID name : String) : Prop :=
  s.namesAfter callID name callID ≠ "" ∧ s.toolCallNameSent callID = false
  deriving Decidable

/-- **A tool call before any text.** -/
theorem sendToolCallDelta_early {callID : String} (hid : callID ≠ "") (hquiet : s.outputText = "")
    (name argsDelta : String) :
    (chunkView (s.sendToolCallDelta callID name argsDelta).1).2.1
        = [{ index := some (((s.idsAfter callID).idxOf callID : Nat) : Int), id := callID
             name := if s.SendsName callID name then s.namesAfter callID name callID else ""
             arguments := argsDelta }] ∧
      (s.sendToolCallDelta callID name argsDelta).2 = { s with
        sentStart := true
        sawToolCall := true
        toolCallIndexByID := s.idsAfter callID
        toolCallNameByID := s.namesAfter callID name
        toolCallNameSent := if s.SendsName callID name then
          Function.update s.toolCallNameSent callID true else s.toolCallNameSent } := by
  obtain ⟨hview, hstate⟩ := s.sendStartIfNeeded_view
  have hearly : ¬ (callID = "" ∨ s.outputText ≠ "") := by
    rintro (h | h)
    · exact hid h
    · exact h hquiet
  unfold sendToolCallDelta
  rw [if_neg hearly]
  simp only [hstate, chunkView_append, hview, chunkView_chunk]
  by_cases hmem : callID ∈ s.toolCallIndexByID
  · by_cases hname : name = ""
    · simp only [idsAfter, namesAfter, SendsName, hmem, hname, if_true]
      exact ⟨rfl, trivial⟩
    · simp only [idsAfter, namesAfter, SendsName, hmem, hname, if_true, if_false]
      exact ⟨rfl, trivial⟩
  · by_cases hname : name = ""
    · simp only [idsAfter, namesAfter, SendsName, hmem, hname, if_true, if_false]
      exact ⟨rfl, trivial⟩
    · simp only [idsAfter, namesAfter, SendsName, hmem, hname, if_false]
      exact ⟨rfl, trivial⟩

end ChatStreamState

/-- The id of a call. -/
def CallProgress.callID (c : CallProgress) : String := c.call.callID

/-- What a client holds of the calls that were announced. -/
def heldCalls (started : List CallProgress) : List (Option Int × ChatToolCall) :=
  started.map fun c => (some (((started.map CallProgress.callID).idxOf c.callID : Nat) : Int),
    { id := c.callID, name := trimSpace c.call.name, arguments := c.arguments })

/-- The state of the handler before any text. -/
structure ToolInv (s : ChatStreamState) (started : List CallProgress) : Prop where
  quiet : s.outputText = ""
  index : s.toolCallIndexByID = started.map CallProgress.callID
  names : ∀ c ∈ started, s.toolCallNameByID c.callID = trimSpace c.call.name
  sent : ∀ c ∈ started, s.toolCallNameSent c.callID = decide (trimSpace c.call.name ≠ "")
  args : ∀ c ∈ started, s.toolCallArgsByID c.callID = c.arguments
  canonical : ∀ c ∈ started, s.toolCallCanonicalIDByItemID (trimSpace c.call.id) = c.callID
  fresh : ∀ id ∉ started.map CallProgress.callID, s.toolCallNameByID id = "" ∧
    s.toolCallNameSent id = false ∧ s.toolCallArgsByID id = ""
  saw : s.sawToolCall = true ↔ started ≠ []

/-- How far the calls have come. -/
structure ProgressInv (calls : List ResponsesOutput) (p : ResponsesProgress) : Prop where
  calls : p.started.map CallProgress.call ++ p.todo = calls
  args : ∀ c ∈ p.started, hasPrefix c.call.arguments c.arguments = true
  finished : ∀ c ∈ p.started, c.finished = true → c.arguments = c.call.arguments

/-- The calls have ids. -/
structure CallIDs (calls : List ResponsesOutput) : Prop where
  items : ∀ call ∈ calls, trimSpace call.id ≠ ""
  itemsNodup : (calls.map fun call => trimSpace call.id).Nodup
  callsNodup : (calls.map ResponsesOutput.callID).Nodup

variable {c : CallProgress} {started : List CallProgress} {finished : CallProgress → Bool}

section Progress

variable {calls : List ResponsesOutput}

/-- The calls that were announced are known by their call id. -/
theorem ProgressInv.callIDs_nodup (h : ProgressInv calls p) (hids : CallIDs calls) :
    (p.started.map CallProgress.callID).Nodup := by
  have hall := hids.callsNodup
  rw [← h.calls, map_append, List.map_map] at hall
  exact hall.of_append_left

/-- And by their item id. -/
theorem ProgressInv.items_nodup (h : ProgressInv calls p) (hids : CallIDs calls) :
    (p.started.map fun c => trimSpace c.call.id).Nodup := by
  have hall := hids.itemsNodup
  rw [← h.calls, map_append, List.map_map] at hall
  exact hall.of_append_left

theorem ProgressInv.callID_ne_empty (h : ProgressInv calls p) (hids : CallIDs calls)
    (hc : c ∈ p.started) : c.callID ≠ "" := by
  refine ResponsesOutput.callID_ne_empty (hids.items c.call ?_)
  rw [← h.calls]
  exact mem_append_left _ (List.mem_map_of_mem hc)

/-! ### One call goes on -/

/-- The calls after one of them got more arguments. -/
def growCall (id delta : String) (finished : CallProgress → Bool) (started : List CallProgress) :
    List CallProgress :=
  started.map fun c => if c.callID = id then
    { c with arguments := c.arguments ++ delta, finished := finished c } else c

theorem callIDs_growCall (id delta : String) (finished : CallProgress → Bool)
    (started : List CallProgress) :
    (growCall id delta finished started).map CallProgress.callID
      = started.map CallProgress.callID := by
  rw [growCall, List.map_map]
  refine map_congr_left fun c _ => ?_
  simp only [Function.comp]
  split <;> rfl

/-- A client adds the arguments to the call of that index. -/
theorem heldCalls_growCall (hc : c ∈ started) (delta : String) (finished : CallProgress → Bool) :
    addToolDelta (heldCalls started)
        { index := some (((started.map CallProgress.callID).idxOf c.callID : Nat) : Int)
          id := c.callID, name := "", arguments := delta }
      = heldCalls (growCall c.callID delta finished started) := by
  have hmem : ∀ {c' : CallProgress}, c' ∈ started → c'.callID ∈ started.map CallProgress.callID :=
    fun h => List.mem_map_of_mem h
  have hindex : (some (((started.map CallProgress.callID).idxOf c.callID : Nat) : Int))
      ∈ (heldCalls started).map Prod.fst := by
    rw [heldCalls, List.map_map]
    exact List.mem_map_of_mem hc
  have hkeys := callIDs_growCall c.callID delta finished started
  unfold addToolDelta
  rw [if_pos hindex]
  unfold heldCalls
  rw [hkeys, growCall, List.map_map, List.map_map]
  refine map_congr_left fun c' hc' => ?_
  simp only [Function.comp]
  by_cases hsame : c'.callID = c.callID
  · have hpos : (some (((started.map CallProgress.callID).idxOf c'.callID : Nat) : Int))
        = some (((started.map CallProgress.callID).idxOf c.callID : Nat) : Int) := by rw [hsame]
    rw [if_pos hpos, if_pos hsame]
    simp only [String.append_empty]
    rfl
  · have hpos : (some (((started.map CallProgress.callID).idxOf c'.callID : Nat) : Int))
        ≠ some (((started.map CallProgress.callID).idxOf c.callID : Nat) : Int) := by
      rw [ne_eq, Option.some.injEq, Int.natCast_inj, idxOf_inj (hmem hc')]
      exact hsame
    rw [if_neg hpos, if_neg hsame]

/-- An entry is written as it was. -/
theorem update_same {β : Type} {f : String → β} {id : String} {v : β} (h : f id = v) :
    Function.update f id v = f := by
  subst h
  exact Function.update_eq_self id f

/-- A call that goes on is one that was there. -/
theorem mem_growCall {id delta : String} {c' : CallProgress}
    (h : c' ∈ growCall id delta finished started) :
    ∃ c ∈ started, c'.call = c.call ∧ c'.callID = c.callID ∧
      ((c.callID = id ∧ c'.arguments = c.arguments ++ delta ∧ c'.finished = finished c) ∨
        (c.callID ≠ id ∧ c' = c)) := by
  obtain ⟨c, hc, rfl⟩ := List.mem_map.mp h
  refine ⟨c, hc, ?_⟩
  by_cases hid : c.callID = id
  · rw [if_pos hid]
    exact ⟨rfl, rfl, .inl ⟨hid, rfl, rfl⟩⟩
  · rw [if_neg hid]
    exact ⟨rfl, rfl, .inr ⟨hid, rfl⟩⟩

/-- **More arguments for a call that was announced.** -/
theorem ToolInv.grow (h : ToolInv s started) (hc : c ∈ started) (hid : c.callID ≠ "")
    {name : String} (hname : name = "" ∨ name = trimSpace c.call.name) (delta : String)
    (finished : CallProgress → Bool) :
    (chunkView ((s.recordArguments c.callID delta).sendToolCallDelta c.callID name delta).1).2.1.foldl
        addToolDelta (heldCalls started) = heldCalls (growCall c.callID delta finished started) ∧
      ToolInv ((s.recordArguments c.callID delta).sendToolCallDelta c.callID name delta).2
        (growCall c.callID delta finished started) := by
  obtain ⟨hquiet, hindex, hnamed, hsent, hcanonical, hargs⟩ :=
    recordArguments_fields c.callID delta s
  generalize s.recordArguments c.callID delta = s₁ at *
  obtain ⟨hview, hstate⟩ :=
    sendToolCallDelta_early hid (hquiet.trans h.quiet) name delta
  have hids : s₁.idsAfter c.callID = started.map CallProgress.callID := by
    rw [idsAfter, hindex, h.index, if_pos (List.mem_map_of_mem hc)]
  have hnames : s₁.namesAfter c.callID name = s.toolCallNameByID := by
    unfold namesAfter
    rw [hnamed]
    split
    · rfl
    · next hne => exact update_same ((h.names c hc).trans (hname.resolve_left hne).symm)
  -- the name was sent when the call was announced
  have hnot : ¬ s₁.SendsName c.callID name := by
    rintro ⟨hne, hunsent⟩
    rw [hsent, h.sent c hc] at hunsent
    rw [hnames, h.names c hc] at hne
    exact of_decide_eq_false hunsent hne
  rw [hids, if_neg hnot] at hview
  rw [hids, hnames, if_neg hnot] at hstate
  refine ⟨?_, ?_⟩
  · rw [hview, foldl_cons]
    exact heldCalls_growCall hc delta finished
  · rw [hstate]
    refine ⟨hquiet.trans h.quiet, (callIDs_growCall ..).symm, ?_, ?_, ?_, ?_, ?_, ?_⟩
    · intro c' hc'
      obtain ⟨c₀, hc₀, hcall, hkey, -⟩ := mem_growCall hc'
      rw [hcall, hkey]
      exact h.names c₀ hc₀
    · intro c' hc'
      obtain ⟨c₀, hc₀, hcall, hkey, -⟩ := mem_growCall hc'
      rw [hcall, hkey, hsent]
      exact h.sent c₀ hc₀
    · intro c' hc'
      rw [hargs]
      obtain ⟨c₀, hc₀, -, hkey, ⟨hsame, harguments, -⟩ | ⟨hother, rfl⟩⟩ := mem_growCall hc'
      · rw [hkey, harguments, ← h.args c₀ hc₀, hsame, Function.update_self]
      · rw [Function.update_of_ne hother, h.args c' hc₀]
    · intro c' hc'
      obtain ⟨c₀, hc₀, hcall, hkey, -⟩ := mem_growCall hc'
      rw [hcall, hkey, hcanonical]
      exact h.canonical c₀ hc₀
    · intro id hnew
      rw [callIDs_growCall] at hnew
      obtain ⟨hn, hs, ha⟩ := h.fresh id hnew
      have hne : id ≠ c.callID := fun heq => hnew (heq ▸ List.mem_map_of_mem hc)
      rw [hsent, hargs, Function.update_of_ne hne]
      exact ⟨hn, hs, ha⟩
    · have hsome : growCall c.callID delta finished started ≠ [] := by
        rw [growCall, ne_eq, map_eq_nil_iff]
        exact ne_nil_of_mem hc
      exact iff_of_true rfl hsome

/-- A client opens a new call. -/
theorem heldCalls_announce (hnew : c.callID ∉ started.map CallProgress.callID) :
    addToolDelta (heldCalls started)
        { index := some (((started.map CallProgress.callID ++ [c.callID]).idxOf c.callID : Nat) : Int)
          id := c.callID, name := trimSpace c.call.name, arguments := c.arguments }
      = heldCalls (started ++ [c]) := by
  have hlast : (started.map CallProgress.callID ++ [c.callID]).idxOf c.callID
      = (started.map CallProgress.callID).length := by
    rw [idxOf_append_of_notMem hnew, idxOf_cons_self, Nat.add_zero]
  have hindex : (some (((started.map CallProgress.callID ++ [c.callID]).idxOf c.callID : Nat) : Int))
      ∉ (heldCalls started).map Prod.fst := by
    rw [heldCalls, List.map_map]
    intro hmem
    obtain ⟨c', hc', heq⟩ := List.mem_map.mp hmem
    have hlt : (started.map CallProgress.callID).idxOf c'.callID
        < (started.map CallProgress.callID).length :=
      idxOf_lt_length_of_mem (List.mem_map_of_mem hc')
    simp only [Function.comp, Option.some.injEq, Int.natCast_inj] at heq
    omega
  unfold addToolDelta
  rw [if_neg hindex]
  unfold heldCalls
  rw [map_append, map_append]
  refine congrArg₂ _ (map_congr_left fun c' hc' => ?_) rfl
  rw [map_cons, idxOf_append_of_mem (List.mem_map_of_mem hc')]

/-- **A call is announced**, by an item with some first part of its arguments. -/
theorem ToolInv.announce (h : ToolInv s started) {call item : ResponsesOutput}
    (heq : item = { call with arguments := item.arguments })
    (hnew : call.callID ∉ started.map CallProgress.callID) (hitem : trimSpace call.id ≠ "")
    (hother : ∀ c ∈ started, trimSpace c.call.id ≠ trimSpace call.id)
    (htype : item.type = .functionCall) :
    (chunkView (s.handleItem item).1).2.1.foldl addToolDelta (heldCalls started)
        = heldCalls (started ++ [⟨call, item.arguments, false⟩]) ∧
      ToolInv (s.handleItem item).2 (started ++ [⟨call, item.arguments, false⟩]) := by
  have hkey : item.callID = call.callID := by rw [heq]; rfl
  have hitemID : item.id = call.id := by rw [heq]
  have hitemName : item.name = call.name := by rw [heq]
  obtain ⟨hn, hunsent, ha⟩ := h.fresh call.callID hnew
  have hid : call.callID ≠ "" := callID_ne_empty hitem
  have hdelta : argsDelta item.arguments "" = item.arguments := by
    have happend := append_argsDelta (hasPrefix_empty item.arguments)
    rwa [String.empty_append] at happend
  have hhandle : s.handleItem item = (s.recordItem item).sendToolCallDelta call.callID
      (trimSpace call.name) item.arguments := by
    rw [handleItem, if_neg (not_not.mpr htype)]
    dsimp only
    rw [hkey, hitemName, ha, hdelta]
  obtain ⟨hquiet, hindex, hsent, hnamed, hcanonical, hargs⟩ :=
    recordItem_fields (hitemID ▸ hitem) (hkey ▸ hid) s
  rw [hkey, hitemName] at hnamed
  rw [hkey, hitemID] at hcanonical
  rw [hkey] at hargs
  rw [hhandle]
  generalize s.recordItem item = s₁ at *
  obtain ⟨hview, hstate⟩ := sendToolCallDelta_early hid (hquiet.trans h.quiet)
    (trimSpace call.name) item.arguments
  have hids : s₁.idsAfter call.callID = started.map CallProgress.callID ++ [call.callID] := by
    rw [idsAfter, hindex, h.index, if_neg hnew]
  -- the entries of the new call
  have hname : s₁.namesAfter call.callID (trimSpace call.name)
      = Function.update s.toolCallNameByID call.callID (trimSpace call.name) := by
    unfold namesAfter
    rw [hnamed]
    by_cases hempty : trimSpace call.name = ""
    · rw [if_pos hempty, if_neg (not_not.mpr hempty), hempty, update_same hn]
    · rw [if_neg hempty, if_pos hempty, Function.update_idem]
  have harguments : s₁.toolCallArgsByID
      = Function.update s.toolCallArgsByID call.callID item.arguments := by
    rw [hargs]
    by_cases hempty : item.arguments = ""
    · rw [if_neg (not_not.mpr hempty), hempty, update_same ha]
    · rw [if_pos hempty]
  have hsends : s₁.SendsName call.callID (trimSpace call.name) ↔ trimSpace call.name ≠ "" := by
    rw [SendsName, hname, Function.update_self, hsent]
    exact and_iff_left hunsent
  have hsent' : (if s₁.SendsName call.callID (trimSpace call.name) then
        Function.update s₁.toolCallNameSent call.callID true else s₁.toolCallNameSent)
      = Function.update s.toolCallNameSent call.callID (decide (trimSpace call.name ≠ "")) := by
    rw [hsent]
    by_cases hempty : trimSpace call.name = ""
    · rw [if_neg (fun hc => hsends.mp hc hempty), hempty]
      exact (update_same hunsent).symm
    · rw [if_pos (hsends.mpr hempty), decide_eq_true hempty]
  have hsentName : (if s₁.SendsName call.callID (trimSpace call.name) then
        s₁.namesAfter call.callID (trimSpace call.name) call.callID else "") = trimSpace call.name := by
    rw [hname, Function.update_self]
    by_cases hempty : trimSpace call.name = ""
    · rw [if_neg (fun hc => hsends.mp hc hempty), hempty]
    · rw [if_pos (hsends.mpr hempty)]
  rw [hids, hsentName] at hview
  rw [hids, hname, hsent', harguments, hcanonical] at hstate
  have hclient : addToolDelta (heldCalls started) _
      = heldCalls (started ++ [⟨call, item.arguments, false⟩]) :=
    heldCalls_announce (show CallProgress.callID ⟨call, item.arguments, false⟩ ∉ _ from hnew)
  refine ⟨?_, ?_⟩
  · rw [hview, foldl_cons]
    exact hclient
  · have hne : ∀ c ∈ started, c.callID ≠ call.callID := fun c hc heq =>
      hnew (heq ▸ List.mem_map_of_mem hc)
    rw [hstate]
    refine ⟨hquiet.trans h.quiet, ?_, ?_, ?_, ?_, ?_, ?_, ?_⟩
    · rw [map_append]
      rfl
    · intro c hc
      dsimp only
      rcases mem_append.mp hc with hc | hc
      · rw [Function.update_of_ne (hne c hc), h.names c hc]
      · rw [mem_singleton.mp hc, CallProgress.callID, Function.update_self]
    · intro c hc
      dsimp only
      rcases mem_append.mp hc with hc | hc
      · rw [Function.update_of_ne (hne c hc), h.sent c hc]
      · rw [mem_singleton.mp hc, CallProgress.callID, Function.update_self]
    · intro c hc
      dsimp only
      rcases mem_append.mp hc with hc | hc
      · rw [Function.update_of_ne (hne c hc), h.args c hc]
      · rw [mem_singleton.mp hc, CallProgress.callID, Function.update_self]
    · intro c hc
      dsimp only
      rcases mem_append.mp hc with hc | hc
      · rw [Function.update_of_ne (hother c hc), h.canonical c hc]
      · rw [mem_singleton.mp hc, CallProgress.callID, Function.update_self]
    · intro id hid
      rw [map_append, mem_append, not_or] at hid
      have hne' : id ≠ call.callID := fun heq => hid.2 (mem_singleton.mpr heq)
      dsimp only
      rw [Function.update_of_ne hne', Function.update_of_ne hne', Function.update_of_ne hne']
      exact h.fresh id hid.1
    · exact iff_of_true rfl (by simp)

/-! ### One event -/

/-- The fields about tool calls. -/
def ChatStreamState.toolState (s : ChatStreamState) :
    List String × (String → String) × (String → String) × (String → Bool) × (String → String) × Bool :=
  (s.toolCallIndexByID, s.toolCallNameByID, s.toolCallArgsByID, s.toolCallNameSent,
    s.toolCallCanonicalIDByItemID, s.sawToolCall)

/-- Nothing else counts before any text. -/
theorem ToolInv.congr {s' : ChatStreamState} (h : ToolInv s started)
    (htools : s'.toolState = s.toolState) (hquiet : s'.outputText = "") : ToolInv s' started := by
  simp only [toolState, Prod.mk.injEq] at htools
  obtain ⟨hindex, hnames, hargs, hsent, hcanonical, hsaw⟩ := htools
  refine ⟨hquiet, ?_, ?_, ?_, ?_, ?_, ?_, ?_⟩
  · rw [hindex]; exact h.index
  · rw [hnames]; exact h.names
  · rw [hsent]; exact h.sent
  · rw [hargs]; exact h.args
  · rw [hcanonical]; exact h.canonical
  · rw [hnames, hsent, hargs]; exact h.fresh
  · rw [hsaw]; exact h.saw

/-- An item that ends a call is kept like the rest of its arguments. -/
theorem ToolInv.recordItem_eq (h : ToolInv s started) (hc : c ∈ started)
    (hargs : hasPrefix c.call.arguments c.arguments = true) :
    s.recordItem c.call
      = s.recordArguments c.callID (argsDelta c.call.arguments c.arguments) := by
  have hnames : (if trimSpace c.call.name ≠ "" then
      Function.update s.toolCallNameByID c.call.callID (trimSpace c.call.name)
      else s.toolCallNameByID) = s.toolCallNameByID := by
    split
    · exact update_same (h.names c hc)
    · rfl
  have hcanonical : (if trimSpace c.call.id ≠ "" ∧ c.call.callID ≠ "" then
      Function.update s.toolCallCanonicalIDByItemID (trimSpace c.call.id) c.call.callID
      else s.toolCallCanonicalIDByItemID) = s.toolCallCanonicalIDByItemID := by
    split
    · exact update_same (h.canonical c hc)
    · rfl
  have harguments : (if c.call.arguments ≠ "" then
      Function.update s.toolCallArgsByID c.call.callID c.call.arguments else s.toolCallArgsByID)
      = Function.update s.toolCallArgsByID c.callID (s.toolCallArgsByID c.callID ++
          argsDelta c.call.arguments c.arguments) := by
    rw [h.args c hc, append_argsDelta hargs]
    split
    · rfl
    · next hempty =>
      have hnone : c.arguments = "" := by
        have hrest := hasPrefix_iff.mp hargs
        rw [not_not.mp hempty] at hrest
        exact (String.append_eq_empty_iff.mp hrest).1
      refine (update_same ?_).symm
      rw [h.args c hc, hnone, not_not.mp hempty]
  unfold recordItem recordArguments
  rw [hnames, hcanonical, harguments]

/-- What an item of the first call in turn announces. -/
theorem ResponsesProgress.next_added {item : ResponsesOutput} (htype : item.type = .functionCall)
    (h : p.next (.outputItemAdded item) = some p') :
    ∃ call todo, p.todo = call :: todo ∧ item = { call with arguments := item.arguments } ∧
      hasPrefix call.arguments item.arguments = true ∧
      p' = ⟨todo, p.started ++ [⟨call, item.arguments, false⟩]⟩ := by
  simp only [ResponsesProgress.next, htype, ne_eq, not_true, if_false] at h
  cases htodo : p.todo with
  | nil =>
    rw [htodo] at h
    cases h
  | cons call todo =>
    rw [htodo] at h
    dsimp only at h
    split at h
    · next hcond => exact ⟨call, todo, rfl, hcond.1, hcond.2, (Option.some.inj h).symm⟩
    · cases h

/-- The call that is known by its item id is the one with its call id. -/
theorem growCall_eq (hp : ProgressInv calls p) (hids : CallIDs calls) (hc : c ∈ p.started)
    {delta : String} {f : CallProgress → CallProgress} (hown : f c
      = { c with arguments := c.arguments ++ delta, finished := finished c })
    (hothers : ∀ c' ∈ p.started, c' ≠ c → f c' = c') :
    p.started.map f = growCall c.callID delta finished p.started := by
  refine map_congr_left fun c' hc' => ?_
  by_cases hsame : c'.callID = c.callID
  · obtain rfl := inj_on_of_nodup_map (hp.callIDs_nodup hids) hc' hc hsame
    rw [if_pos rfl, hown]
  · rw [if_neg hsame]
    exact hothers c' hc' fun heq => hsame (by rw [heq])

/-- The progress of a call that got more arguments. -/
theorem ProgressInv.grow (hp : ProgressInv calls p) (hids : CallIDs calls) (hc : c ∈ p.started)
    {delta : String} (hargs : hasPrefix c.call.arguments (c.arguments ++ delta) = true)
    (hfinished : finished c = true → c.arguments ++ delta = c.call.arguments) :
    ProgressInv calls { p with started := growCall c.callID delta finished p.started } := by
  have hself : ∀ c₀ ∈ p.started, c₀.callID = c.callID → c₀ = c := fun c₀ hc₀ hsame =>
    inj_on_of_nodup_map (hp.callIDs_nodup hids) hc₀ hc hsame
  refine ⟨?_, ?_, ?_⟩
  · rw [← hp.calls, growCall, List.map_map]
    refine congrArg (· ++ p.todo) (map_congr_left fun c' _ => ?_)
    simp only [Function.comp]
    split <;> rfl
  · intro c' hc'
    obtain ⟨c₀, hc₀, hcall, -, ⟨hsame, harguments, -⟩ | ⟨-, rfl⟩⟩ := mem_growCall hc'
    · rw [hcall, harguments, hself c₀ hc₀ hsame]
      exact hargs
    · exact hp.args c' hc₀
  · intro c' hc' hfin
    obtain ⟨c₀, hc₀, hcall, -, ⟨hsame, harguments, hfinished'⟩ | ⟨-, rfl⟩⟩ := mem_growCall hc'
    · obtain rfl := hself c₀ hc₀ hsame
      rw [hcall, harguments]
      exact hfinished (hfinished' ▸ hfin)
    · exact hp.finished c' hc₀ hfin

/-- **One event before any text.** -/
theorem ToolInv.step (h : ToolInv s p.started) (hp : ProgressInv calls p) (hids : CallIDs calls)
    (herr : s.streamErr = false) (hnext : p.next e = some p') (hquiet : (e.text?).getD "" = "") :
    (chunkView (s.step e).1).2.1.foldl addToolDelta (heldCalls p.started) = heldCalls p'.started ∧
      ToolInv (s.step e).2 p'.started ∧ ProgressInv calls p' := by
  obtain ⟨-, -, hframe, -⟩ := step_view (ResponsesProgress.next_body hnext) herr
  have houtput : (s.step e).2.outputText = "" := by
    have := congrArg Prod.fst hframe
    rwa [hquiet, h.quiet] at this
  -- an event that is not about tool calls
  have hother : p' = p → (chunkView (s.step e).1).2.1 = [] →
      (s.step e).2.toolState = s.toolState →
      (chunkView (s.step e).1).2.1.foldl addToolDelta (heldCalls p.started) = heldCalls p'.started ∧
        ToolInv (s.step e).2 p'.started ∧ ProgressInv calls p' := by
    rintro rfl hview htools
    rw [hview]
    exact ⟨rfl, h.congr htools houtput, hp⟩
  have hstep : s.streamErr ≠ true := by simp [herr]
  cases e with
  | completed model => cases hnext
  | failed => cases hnext
  | created model =>
    have hcall : s.step (.created model) = ([], s.withModel model) := if_neg hstep
    refine hother (Option.some.inj hnext).symm ?_ ?_
    · rw [hcall]
      rfl
    · rw [hcall]
      rfl
  | other =>
    have hcall : s.step .other = ([], s) := if_neg hstep
    refine hother (Option.some.inj hnext).symm ?_ ?_
    · rw [hcall]
      rfl
    · rw [hcall]
  | reasoningSummaryTextDone =>
    refine hother (Option.some.inj hnext).symm ?_ ?_
    · rw [ChatStreamState.step, if_neg hstep]
      rfl
    · rw [ChatStreamState.step, if_neg hstep]
      split <;> rfl
  | reasoningSummaryTextDelta delta =>
    have hview := (sendReasoningSummaryDelta_view delta s).1
    refine hother (Option.some.inj hnext).symm ?_ ?_ <;> rw [ChatStreamState.step, if_neg hstep]
    · rw [hview]
    · unfold sendReasoningSummaryDelta
      split
      · rfl
      · simp only [(sendStartIfNeeded_view _).2]
        rfl
  | outputTextDelta delta =>
    obtain ⟨hview, hstate⟩ := sendOutputTextDelta_view delta s
    refine hother (Option.some.inj hnext).symm ?_ ?_ <;> rw [ChatStreamState.step, if_neg hstep]
    · rw [hview]
    · rw [hstate]
      rfl
  | outputItemAdded item =>
    by_cases htype : item.type = .functionCall
    · obtain ⟨call, todo, htodo, heq, hargs, rfl⟩ := ResponsesProgress.next_added htype hnext
      have hcalls := hp.calls
      have hall := hids.callsNodup
      have hitems := hids.itemsNodup
      rw [htodo] at hcalls
      rw [← hcalls, map_append, List.map_map, nodup_append] at hall hitems
      have hmem : call ∈ calls := by
        rw [← hcalls]
        exact mem_append_right _ mem_cons_self
      have hnew : call.callID ∉ p.started.map CallProgress.callID := fun hold =>
        hall.2.2 call.callID hold call.callID mem_cons_self rfl
      have hother : ∀ c ∈ p.started, trimSpace c.call.id ≠ trimSpace call.id := fun c hc hsame =>
        hitems.2.2 (trimSpace c.call.id) (List.mem_map_of_mem hc) (trimSpace call.id)
          mem_cons_self hsame
      have hcall : s.step (.outputItemAdded item) = s.handleItem item := if_neg hstep
      obtain ⟨hheld, hinv⟩ := h.announce heq hnew (hids.items call hmem) hother htype
      rw [hcall]
      refine ⟨hheld, hinv, ?_, ?_, ?_⟩
      · rw [← hcalls, map_append, append_assoc]
        rfl
      · intro c hc
        rcases mem_append.mp hc with hc | hc
        · exact hp.args c hc
        · rw [mem_singleton.mp hc]
          exact hargs
      · intro c hc hfin
        rcases mem_append.mp hc with hc | hc
        · exact hp.finished c hc hfin
        · rw [mem_singleton.mp hc] at hfin
          cases hfin
    · have hskip : s.step (.outputItemAdded item) = ([], s) := by
        rw [ChatStreamState.step, if_neg hstep]
        exact if_pos htype
      have hsame : p.next (.outputItemAdded item) = some p := if_pos htype
      refine hother (mem_unique hnext hsame) ?_ ?_
      · rw [hskip]
        rfl
      · rw [hskip]
  | outputItemDone item =>
    by_cases htype : item.type = .functionCall
    · have hturn : p.next (.outputItemDone item)
          = if ∃ c ∈ p.started, c.finished = false ∧ c.call = item then
              some { p with started := p.started.map fun c =>
                if c.call = item then ⟨c.call, c.call.arguments, true⟩ else c }
            else none := if_neg (not_not.mpr htype)
      rw [hturn] at hnext
      split at hnext
      · next hrunning =>
        obtain ⟨c, hc, -, rfl⟩ := hrunning
        have hargs := hp.args c hc
        have happend := append_argsDelta hargs
        have hgrow : (p.started.map fun c' =>
            if c'.call = c.call then (⟨c'.call, c'.call.arguments, true⟩ : CallProgress) else c')
            = growCall c.callID (argsDelta c.call.arguments c.arguments)
              (fun _ => true) p.started := by
          refine growCall_eq hp hids hc ?_ fun c' hc' hne => ?_
          · rw [if_pos rfl, happend]
          · refine if_neg fun hsame => hne ?_
            exact inj_on_of_nodup_map (hp.callIDs_nodup hids) hc' hc
              (congrArg callID hsame)
        rw [hgrow] at hnext
        obtain rfl := Option.some.inj hnext
        have hcall : s.step (.outputItemDone c.call)
            = (s.recordArguments c.callID
                (argsDelta c.call.arguments c.arguments)).sendToolCallDelta c.callID
              (trimSpace c.call.name) (argsDelta c.call.arguments c.arguments) := by
          rw [ChatStreamState.step, if_neg hstep]
          rw [handleItem, if_neg (not_not.mpr htype)]
          rw [h.recordItem_eq hc hargs, ← CallProgress.callID, h.args c hc]
        obtain ⟨hheld, hinv⟩ := h.grow hc (hp.callID_ne_empty hids hc) (.inr rfl)
          (argsDelta c.call.arguments c.arguments) (fun _ => true)
        rw [hcall]
        refine ⟨hheld, hinv, hp.grow hids hc ?_ fun _ => happend⟩
        rw [happend]
        exact hasPrefix_self _
      · cases hnext
    · have hskip : s.step (.outputItemDone item) = ([], s) := by
        rw [ChatStreamState.step, if_neg hstep]
        exact if_pos htype
      have hsame : p.next (.outputItemDone item) = some p := if_pos htype
      refine hother (mem_unique hnext hsame) ?_ ?_
      · rw [hskip]
        rfl
      · rw [hskip]
  | functionCallArgumentsDelta itemID delta =>
    simp only [ResponsesProgress.next] at hnext
    split at hnext
    · next hrunning =>
      obtain ⟨c, hc, hfin, rfl, hargs⟩ := hrunning
      have hgrow : (p.started.map fun c' =>
          if c'.call.id = c.call.id then { c' with arguments := c'.arguments ++ delta } else c')
          = growCall c.callID delta CallProgress.finished p.started := by
        refine growCall_eq hp hids hc (if_pos rfl) fun c' hc' hne => ?_
        refine if_neg fun hsame => hne ?_
        exact inj_on_of_nodup_map (hp.items_nodup hids) hc' hc (congrArg trimSpace hsame)
      rw [hgrow] at hnext
      obtain rfl := Option.some.inj hnext
      have hne := hp.callID_ne_empty hids hc
      have hcallID : s.callIDOfItem c.call.id = c.callID := by
        unfold callIDOfItem
        rw [h.canonical c hc]
        exact if_neg hne
      have hcall : s.step (.functionCallArgumentsDelta c.call.id delta)
          = (s.recordArguments c.callID delta).sendToolCallDelta c.callID "" delta := by
        rw [ChatStreamState.step, if_neg hstep]
        rw [handleArgumentsDelta]
        rw [hcallID, if_neg hne]
      obtain ⟨hheld, hinv⟩ := h.grow hc hne (.inl rfl) delta CallProgress.finished
      rw [hcall]
      refine ⟨hheld, hinv, hp.grow hids hc hargs fun hf => ?_⟩
      rw [hfin] at hf
      cases hf
    · cases hnext

/-! ### Whole streams -/

/-- **Events before any text.** -/
theorem ToolInv.steps (h : ToolInv s p.started) (hp : ProgressInv calls p) (hids : CallIDs calls)
    (herr : s.streamErr = false) (hnext : es.foldlM ResponsesProgress.next p = some p')
    (hquiet : ∀ e ∈ es, (e.text?).getD "" = "") :
    (chunkView (s.steps es).1).2.1.foldl addToolDelta (heldCalls p.started)
        = heldCalls p'.started ∧
      ToolInv (s.steps es).2 p'.started ∧ ProgressInv calls p' := by
  induction es generalizing s p with
  | nil =>
    obtain rfl : p = p' := Option.some.inj hnext
    exact ⟨rfl, h, hp⟩
  | cons e es ih =>
    obtain ⟨hquiet, hquiets⟩ := forall_mem_cons.mp hquiet
    obtain ⟨p₁, hfirst, hrest⟩ := ResponsesProgress.foldlM_cons hnext
    obtain ⟨hheld, hinv, hp₁⟩ := h.step hp hids herr hfirst hquiet
    obtain ⟨-, -, hframe, -⟩ := step_view (ResponsesProgress.next_body hfirst) herr
    have herr' : (s.step e).2.streamErr = false := congrArg (fun f => f.2.1) hframe
    rw [steps, chunkView_append, foldl_append, hheld]
    exact ih hinv hp₁ herr' hrest hquiets

/-- Whether a call was announced before the text. -/
theorem ResponsesProgress.next_textFirst (hnext : p.next e = some p')
    (hquiet : (e.text?).getD "" = "") (es : List ResponsesEvent) :
    p'.started = [] ∧ TextFirst es ↔ p.started = [] ∧ TextFirst (e :: es) := by
  have hsame : p.next e = some p → (TextFirst (e :: es) ↔ TextFirst es) →
      (p'.started = [] ∧ TextFirst es ↔ p.started = [] ∧ TextFirst (e :: es)) := by
    intro h hfirst
    obtain rfl : p' = p := mem_unique hnext h
    rw [hfirst]
  -- a call that goes on was announced
  have hboth : p.started ≠ [] → p'.started ≠ [] →
      (p'.started = [] ∧ TextFirst es ↔ p.started = [] ∧ TextFirst (e :: es)) := fun h h' =>
    iff_of_false (fun hc => h' hc.1) fun hc => h hc.1
  cases e with
  | completed model => cases hnext
  | failed => cases hnext
  | created model => exact hsame rfl Iff.rfl
  | other => exact hsame rfl Iff.rfl
  | reasoningSummaryTextDone => exact hsame rfl Iff.rfl
  | reasoningSummaryTextDelta delta => exact hsame rfl Iff.rfl
  | outputTextDelta delta =>
    obtain rfl : delta = "" := hquiet
    exact hsame rfl (or_iff_right (not_not.mpr rfl))
  | outputItemAdded item =>
    by_cases htype : item.type = .functionCall
    · obtain ⟨call, todo, -, -, -, rfl⟩ := ResponsesProgress.next_added htype hnext
      exact iff_of_false (fun hc => by simp at hc) fun hc => hc.2.1 htype
    · exact hsame (if_pos htype) (and_iff_right htype)
  | outputItemDone item =>
    by_cases htype : item.type = .functionCall
    · simp only [ResponsesProgress.next, htype, ne_eq, not_true, if_false] at hnext
      split at hnext
      · next hrunning =>
        obtain ⟨c, hc, -⟩ := hrunning
        obtain rfl := Option.some.inj hnext
        have hne := ne_nil_of_mem hc
        exact hboth hne (by simpa using hne)
      · cases hnext
    · exact hsame (if_pos htype) Iff.rfl
  | functionCallArgumentsDelta itemID delta =>
    simp only [ResponsesProgress.next] at hnext
    split at hnext
    · next hrunning =>
      obtain ⟨c, hc, -⟩ := hrunning
      obtain rfl := Option.some.inj hnext
      have hne := ne_nil_of_mem hc
      exact hboth hne (by simpa using hne)
    · cases hnext

/-- **A stream with text** leaves no tool calls exactly when the text comes first. -/
theorem ToolInv.steps_text (h : ToolInv s p.started) (hp : ProgressInv calls p)
    (hids : CallIDs calls) (herr : s.streamErr = false)
    (hnext : es.foldlM ResponsesProgress.next p = some p')
    (htext : concat (es.filterMap ResponsesEvent.text?) ≠ "") :
    (chunkView (s.steps es).1).2.1.foldl addToolDelta (heldCalls p.started) = [] ↔
      p.started = [] ∧ TextFirst es := by
  induction es generalizing s p with
  | nil => exact absurd rfl htext
  | cons e es ih =>
    obtain ⟨p₁, hfirst, hrest⟩ := ResponsesProgress.foldlM_cons hnext
    have hbody := ResponsesProgress.next_body hfirst
    obtain ⟨-, -, hframe, -⟩ := ChatStreamState.step_view hbody herr
    have herr' : (s.step e).2.streamErr = false := congrArg (fun f => f.2.1) hframe
    rw [ChatStreamState.steps, chunkView_append, foldl_append]
    by_cases hquiet : (e.text?).getD "" = ""
    · obtain ⟨hheld, hinv, hp₁⟩ := h.step hp hids herr hfirst hquiet
      have hmore : concat (es.filterMap ResponsesEvent.text?) ≠ "" := by
        rw [filterMap_cons] at htext
        cases htext? : e.text? with
        | none =>
          rw [htext?] at htext
          exact htext
        | some x =>
          rw [htext?] at htext hquiet
          obtain rfl : x = "" := hquiet
          exact fun hnone => htext (by
            change "" ++ concat _ = ""
            rw [hnone]
            rfl)
      rw [hheld, ih hinv hp₁ herr' hrest hmore]
      exact ResponsesProgress.next_textFirst hfirst hquiet es
    · -- the first text: nothing more is sent about tool calls
      cases e with
      | outputTextDelta delta =>
        obtain ⟨hview, -⟩ := ChatStreamState.sendOutputTextDelta_view delta s
        have hcall : s.step (.outputTextDelta delta) = s.sendOutputTextDelta delta :=
          if_neg (by simp [herr])
        have hlate : (s.step (.outputTextDelta delta)).2.outputText ≠ "" := by
          have houtput := congrArg Prod.fst hframe
          rw [h.quiet] at houtput
          exact fun hempty => hquiet (houtput.symm.trans hempty)
        have hes : ∀ e ∈ es, e.Body := ResponsesProgress.body_of_foldlM hrest
        rw [(ChatStreamState.steps_view hes herr').2.2.2 hlate, hcall, hview]
        have hheld : heldCalls p.started = [] ↔ p.started = [] := map_eq_nil_iff
        rw [foldl_nil, foldl_nil, hheld]
        exact (and_iff_left (.inl hquiet)).symm
      | _ => exact absurd rfl hquiet

end Progress

/-! ## The whole stream and the whole result -/

namespace ChatStreamState

theorem steps_append (s : ChatStreamState) (es es' : List ResponsesEvent) :
    s.steps (es ++ es')
      = ((s.steps es).1 ++ ((s.steps es).2.steps es').1, ((s.steps es).2.steps es').2) := by
  induction es generalizing s with
  | nil => rfl
  | cons e es ih => simp [steps, ih]

/-- The last chunk has the finish reason. -/
theorem sendStop_view (hstop : s.sentStop = false) :
    chunkView s.sendStop.1 = ("", [], [s.finishReason]) ∧
      s.sendStop.2 = { s with sentStop := true } := by
  have hreason : s.finishReason ≠ "" := by
    unfold finishReason
    split <;> decide
  have hfinish : StreamChoice.finish? { finishReason := some s.finishReason }
      = some s.finishReason := by
    simp [StreamChoice.finish?, hreason]
  unfold sendStop
  rw [if_neg (by simp [hstop])]
  refine ⟨?_, rfl⟩
  simp [chunkView, chunk, ChatChunk.content, ChatChunk.toolDeltas, concat, hfinish,
    ChoiceDelta.getContentString]

/-- The end of a stream. -/
theorem step_completed (herr : s.streamErr = false) (hstop : s.sentStop = false) (model : String) :
    chunkView (s.step (.completed model)).1 = ("", [], [s.finishReason]) ∧
      (s.step (.completed model)).2.streamErr = false ∧
      (s.step (.completed model)).2.sentStart = true ∧
      (s.step (.completed model)).2.sentStop = true := by
  obtain ⟨hview, hstate⟩ := (s.withModel model).sendStartIfNeeded_view
  obtain ⟨herr₁, hstop₁, hstart₁, hreason₁⟩ :
      (s.withModel model).sendStartIfNeeded.2.streamErr = false ∧
      (s.withModel model).sendStartIfNeeded.2.sentStop = false ∧
      (s.withModel model).sendStartIfNeeded.2.sentStart = true ∧
      (s.withModel model).sendStartIfNeeded.2.finishReason = s.finishReason := by
    rw [hstate]
    exact ⟨herr, hstop, rfl, rfl⟩
  have hstep : s.step (.completed model)
      = ((s.withModel model).sendStartIfNeeded.1 ++
          (s.withModel model).sendStartIfNeeded.2.sendStop.1,
        (s.withModel model).sendStartIfNeeded.2.sendStop.2) := if_neg (by simp [herr])
  obtain ⟨hview', hstate'⟩ := sendStop_view hstop₁
  rw [hstep, chunkView_append, hview, hview', hstate', hreason₁]
  exact ⟨rfl, herr₁, hstart₁, rfl⟩

end ChatStreamState

/-- What a client makes of a stream. -/
theorem reassemble_handler {body : List ResponsesEvent} (hbody : ∀ e ∈ body, e.Body)
    (model model' : String) :
    (oaiResponsesToChatStreamHandler model (body ++ [.completed model'])).map reassemble
      = some { content := concat (body.filterMap ResponsesEvent.text?)
               toolCalls := ((chunkView (steps { model } body).1).2.1.foldl
                 addToolDelta []).map Prod.snd
               finishReason := (steps { model } body).2.finishReason } := by
  obtain ⟨htext, hfinish, hframe, -⟩ : _ ∧ _ ∧ (steps { model } body).2.frame = _ ∧ _ :=
    steps_view hbody rfl
  have herr : (steps { model } body).2.streamErr = false :=
    congrArg (fun f => f.2.1) hframe
  have hstop : (steps { model } body).2.sentStop = false :=
    congrArg (fun f => f.2.2) hframe
  generalize hrun : steps { model } body = run at *
  obtain ⟨hview, herr', hstart', hstop'⟩ := step_completed herr hstop model'
  have hsteps : steps { model } (body ++ [.completed model'])
      = (run.1 ++ ((run.2.step (.completed model')).1 ++ []), (run.2.step (.completed model')).2) := by
    rw [steps_append, hrun]
    rfl
  have hchunks : oaiResponsesToChatStreamHandler model (body ++ [.completed model'])
      = some (run.1 ++ (run.2.step (.completed model')).1) := by
    simp [oaiResponsesToChatStreamHandler, hsteps, herr', sendStartIfNeeded, hstart',
        sendStop, hstop', append_nil]
  have hreassemble : ∀ cs, reassemble cs
      = { content := (chunkView cs).1
          toolCalls := ((chunkView cs).2.1.foldl addToolDelta []).map Prod.snd
          finishReason := (chunkView cs).2.2.getLast?.getD "" } := fun _ => rfl
  rw [hchunks, map_some, hreassemble, chunkView_append, hview, htext, hfinish,
    String.append_empty, append_nil]
  rfl

/-- The text of a result of messages and function calls. -/
theorem extractOutputText_plain {output : List ResponsesOutput} (h : ∀ out ∈ output, out.Plain) :
    extractOutputTextFromResponses output = concat (output.flatMap outputTexts) := by
  have hall : (output.flatMap fun out => out.content.map ResponsesOutputContent.text)
      = output.flatMap outputTexts := by
    refine flatMap_congr fun out hout => ?_
    unfold outputTexts
    rcases h out hout with ⟨htype, hrole, hparts⟩ | ⟨htype, hcontent⟩
    · rw [if_pos ⟨htype, hrole⟩, filter_eq_self.mpr fun c hc => by simpa using hparts c hc]
    · rw [if_neg (fun hc => by rw [htype] at hc; cases hc.1), hcontent]
      rfl
  unfold extractOutputTextFromResponses
  dsimp only
  rw [hall]
  split <;> rfl

/-- All calls of a stream that is complete. -/
theorem heldCalls_complete {calls : List ResponsesOutput} (hp : ProgressInv calls p)
    (htodo : p.todo = []) (hfinished : ∀ c ∈ p.started, c.finished = true) :
    (heldCalls p.started).map Prod.snd = calls.map toToolCall := by
  have hcalls := hp.calls
  rw [htodo, append_nil] at hcalls
  rw [heldCalls, ← hcalls, List.map_map, List.map_map]
  refine map_congr_left fun c hc => ?_
  simp only [Function.comp]
  rw [hp.finished c hc (hfinished c hc)]
  rfl

/-- **A whole result and its stream give the same message exactly when they agree.** -/
theorem oaiResponsesToChatStreamHandler_eq_iff (output : List ResponsesOutput)
    (body : List ResponsesEvent) (model model' : String) (h : ResponsesProtocol output body) :
    (oaiResponsesToChatStreamHandler model (body ++ [.completed model'])).map reassemble
        = some (responsesResponseToChatCompletionsResponse output) ↔ Agrees output body := by
  obtain ⟨p, hprogress, htodo, hfinished⟩ := h.progress
  have hbody := ResponsesProgress.body_of_foldlM hprogress
  have hids : CallIDs (functionCalls output) := ⟨h.items.1, h.items.2, h.calls⟩
  have hinv : ToolInv { model } [] := ⟨rfl, rfl, nofun, nofun, nofun, nofun,
    fun _ _ => ⟨rfl, rfl, rfl⟩, ⟨nofun, fun hne => absurd rfl hne⟩⟩
  have hp : ProgressInv (functionCalls output) ⟨functionCalls output, []⟩ := ⟨rfl, nofun, nofun⟩
  obtain ⟨-, -, hframe, -⟩ : _ ∧ _ ∧ (ChatStreamState.steps { model } body).2.frame = _ ∧ _ :=
    ChatStreamState.steps_view hbody rfl
  have houtput : (ChatStreamState.steps { model } body).2.outputText
      = concat (body.filterMap ResponsesEvent.text?) :=
    (congrArg Prod.fst hframe).trans String.empty_append
  rw [reassemble_handler hbody, Option.some.injEq, responsesResponseToChatCompletionsResponse,
      extractOutputText_plain h.plain]
  unfold Agrees
  rw [← h.text]
  by_cases htext : concat (body.filterMap ResponsesEvent.text?) = ""
  · have hquiet : ∀ e ∈ body, (e.text?).getD "" = "" := by
      intro e he
      cases hx : e.text? with
      | none => rfl
      | some x => exact concat_eq_empty_iff.mp htext x (mem_filterMap.mpr ⟨e, he, hx⟩)
    obtain ⟨hheld, hinv', hp'⟩ := hinv.steps hp hids rfl hprogress hquiet
    have htools : ((chunkView (ChatStreamState.steps { model } body).1).2.1.foldl
        addToolDelta []).map Prod.snd = (functionCalls output).map ResponsesOutput.toToolCall := by
      rw [← heldCalls_complete hp' htodo hfinished, ← hheld]
      rfl
    have hnamed : (output.filter fun out => out.type = .functionCall ∧ trimSpace out.name ≠ "")
        = (functionCalls output).filter fun call => trimSpace call.name ≠ "" := by
      rw [functionCalls, List.filter_filter]
      refine filter_congr fun out _ => ?_
      rw [← Bool.decide_and]
      exact decide_eq_decide.mpr and_comm
    have hsaw : (ChatStreamState.steps { model } body).2.sawToolCall = true ↔
        functionCalls output ≠ [] := by
      have hcalls := hp'.calls
      rw [htodo, append_nil] at hcalls
      rw [hinv'.saw, ← hcalls, ne_eq, ne_eq, map_eq_nil_iff]
    rw [htools, htext, if_pos rfl, hnamed, ChatStreamState.finishReason, houtput]
    constructor
    · intro heq call hcall
      have hlength := congrArg (fun m => m.toolCalls.length) heq
      simp only [length_map] at hlength
      have hself := length_filter_eq_length_iff.mp hlength.symm call hcall
      simpa using hself
    · intro hall
      have hself : ((functionCalls output).filter fun call => trimSpace call.name ≠ "")
          = functionCalls output := filter_eq_self.mpr fun call hcall => by simpa using hall call hcall
      rw [hself]
      by_cases hnone : functionCalls output = []
      · have hunseen : ¬ ((ChatStreamState.steps { model } body).2.sawToolCall = true ∧
            concat (body.filterMap ResponsesEvent.text?) = "") := fun hc => hsaw.mp hc.1 hnone
        rw [hnone, if_neg hunseen]
        rfl
      · have hsome : (functionCalls output).map ResponsesOutput.toToolCall ≠ [] := by
          simpa using hnone
        rw [if_pos ⟨hsaw.mpr hnone, htext⟩, if_neg hsome, if_neg hsome]
  · have hlate : (ChatStreamState.steps { model } body).2.finishReason = "stop" := by
      rw [ChatStreamState.finishReason, houtput, if_neg fun hc => htext hc.2]
    have hfirst := hinv.steps_text hp hids rfl hprogress htext
    rw [hlate, if_neg htext, if_neg htext, ← and_iff_right_of_imp (show TextFirst body → ([] : List
        CallProgress) = [] from fun _ => rfl), ← hfirst, ChatCompletion.mk.injEq,
        map_eq_nil_iff]
    exact ⟨fun heq => heq.2.1, fun heq => ⟨rfl, heq, rfl⟩⟩

/-- A call of a weather service. -/
def weatherCall : ResponsesOutput :=
  { type := .functionCall, id := "fc_1", callId := "call_1", name := "weather", arguments := "\x7b\x7d" }

/-- The events of the call. -/
def weatherEvents : List ResponsesEvent :=
  [.outputItemAdded { weatherCall with arguments := "" }, .functionCallArgumentsDelta "fc_1" "\x7b",
    .outputItemDone weatherCall]

/-- A result with a call only is the same over both ways. -/
theorem oaiResponsesToChatStreamHandler_weather :
    (oaiResponsesToChatStreamHandler "m" (weatherEvents ++ [.completed ""])).map reassemble
      = some (responsesResponseToChatCompletionsResponse [weatherCall]) :=
  (oaiResponsesToChatStreamHandler_eq_iff [weatherCall] weatherEvents "m" ""
    ⟨by decide, by decide +kernel, by decide, ⟨_, rfl, rfl, by decide⟩, rfl⟩).mpr
    (by decide +kernel)

/-- **A call before the text.** The whole result is an answer in text; the stream has the tool call as
well. -/
theorem oaiResponsesToChatStreamHandler_callThenText :
    ResponsesProtocol [weatherCall, { type := .message, content := [{ text := "Hi" }] }]
      (weatherEvents ++ [.outputTextDelta "Hi"]) ∧
    responsesResponseToChatCompletionsResponse
        [weatherCall, { type := .message, content := [{ text := "Hi" }] }]
      = { content := "Hi", toolCalls := [], finishReason := "stop" } ∧
    (oaiResponsesToChatStreamHandler "m"
        (weatherEvents ++ [.outputTextDelta "Hi"] ++ [.completed ""])).map reassemble
      = some { content := "Hi", toolCalls := [weatherCall.toToolCall], finishReason := "stop" } ∧
    (oaiResponsesToChatStreamHandler "m"
        (weatherEvents ++ [.outputTextDelta "Hi"] ++ [.completed ""])).map reassemble
      ≠ some (responsesResponseToChatCompletionsResponse
        [weatherCall, { type := .message, content := [{ text := "Hi" }] }]) := by
  refine ⟨⟨by decide, by decide +kernel, by decide, ⟨_, rfl, rfl, by decide⟩, rfl⟩,
    by decide, by decide +kernel, by decide +kernel⟩

end Prox
