import Mathlib.Logic.Function.Basic
import Prox.Relay.ClaudeStream

/-! # Responses results as chat completions

The embedding of `ResponsesResponseToChatCompletionsResponse` in
`service/openaicompat/responses_to_chat.go` and of `OaiResponsesToChatStreamHandler` in
`relay/channel/openai/chat_via_responses.go`, for clients that speak the OpenAI format. A chunk that is
sent arrives. The accounting of the usage and the times of creation are left out. -/

namespace Prox

/-! ## Results -/

/-- The type of an output item. -/
inductive OutputType where
  | message
  | functionCall
  | other
  deriving DecidableEq

/-- The type of a content part. -/
inductive ContentType where
  | outputText
  | other
  deriving DecidableEq

/-- A content part of a message. -/
structure ResponsesOutputContent where
  type : ContentType := .outputText
  text : String
  deriving DecidableEq

/-- An output item; the arguments are what `ArgumentsString` returns for it. -/
structure ResponsesOutput where
  type : OutputType
  id : String := ""
  role : String := ""
  content : List ResponsesOutputContent := []
  callId : String := ""
  name : String := ""
  arguments : String := ""
  deriving DecidableEq

namespace ResponsesOutput

/-- The id of a function call: the call id, or else the id of its item. -/
def callID (out : ResponsesOutput) : String :=
  if trimSpace out.callId = "" then trimSpace out.id else trimSpace out.callId

/-- The output texts of an assistant message. -/
def outputTexts (out : ResponsesOutput) : List String :=
  if out.type = .message ∧ (out.role = "" ∨ out.role = "assistant") then
    (out.content.filter fun c => c.type = .outputText).map ResponsesOutputContent.text
  else []

end ResponsesOutput

/-- The text of a result: that of the assistant messages, or else all the text there is. -/
def extractOutputTextFromResponses (output : List ResponsesOutput) : String :=
  let text := concat (output.flatMap ResponsesOutput.outputTexts)
  if text ≠ "" then text
  else concat (output.flatMap fun out => out.content.map ResponsesOutputContent.text)

/-- A tool call of a chat message. -/
structure ChatToolCall where
  id : String
  name : String
  arguments : String
  deriving DecidableEq

/-- A function call as a tool call. -/
def ResponsesOutput.toToolCall (out : ResponsesOutput) : ChatToolCall :=
  { id := out.callID, name := trimSpace out.name, arguments := out.arguments }

/-- The assistant message of a chat completion and its finish reason. -/
structure ChatCompletion where
  content : String
  toolCalls : List ChatToolCall
  finishReason : String
  deriving DecidableEq

/-- The conversion of a whole result: tool calls only when there is no text. -/
def responsesResponseToChatCompletionsResponse (output : List ResponsesOutput) : ChatCompletion :=
  let text := extractOutputTextFromResponses output
  let toolCalls := if text = "" then
      (output.filter fun out => out.type = .functionCall ∧ trimSpace out.name ≠ "").map
        ResponsesOutput.toToolCall
    else []
  { content := if toolCalls = [] then text else ""
    toolCalls
    finishReason := if toolCalls = [] then "stop" else "tool_calls" }

/-! ## The stream -/

/-- An event of a Responses stream, with what the handler reads of it. -/
inductive ResponsesEvent where
  | created (model : String)
  | reasoningSummaryTextDelta (delta : String)
  | reasoningSummaryTextDone
  | outputTextDelta (delta : String)
  | outputItemAdded (item : ResponsesOutput)
  | outputItemDone (item : ResponsesOutput)
  | functionCallArgumentsDelta (itemID delta : String)
  | completed (model : String)
  /-- `response.error` and `response.failed`. -/
  | failed
  /-- The events that are passed over, `response.function_call_arguments.done` among them. -/
  | other

/-- The variables of the handler. The indices of the tool calls are the positions of their ids. -/
structure ChatStreamState where
  model : String
  outputText : String := ""
  sentStart : Bool := false
  sentStop : Bool := false
  sawToolCall : Bool := false
  streamErr : Bool := false
  toolCallIndexByID : List String := []
  toolCallNameByID : String → String := fun _ => ""
  toolCallArgsByID : String → String := fun _ => ""
  toolCallNameSent : String → Bool := fun _ => false
  toolCallCanonicalIDByItemID : String → String := fun _ => ""
  hasSentReasoningSummary : Bool := false
  needsReasoningSummarySeparator : Bool := false

namespace ChatStreamState

/-- A chunk with one choice. -/
def chunk (s : ChatStreamState) (delta : ChoiceDelta) (finishReason : Option String := none) :
    ChatChunk :=
  { model := s.model, choices := [{ delta, finishReason }] }

/-- The empty chunk that opens the stream. -/
def sendStartIfNeeded (s : ChatStreamState) : List ChatChunk × ChatStreamState :=
  if s.sentStart then ([], s) else ([s.chunk { content := some "" }], { s with sentStart := true })

/-- The blank lines that separate two summaries. -/
def separate (needed : Bool) (delta : String) : String :=
  if needed ∧ ¬ hasPrefix delta "\n\n" then
    if hasPrefix delta "\n" then "\n" ++ delta else "\n\n" ++ delta
  else delta

/-- A piece of a reasoning summary. -/
def sendReasoningSummaryDelta (delta : String) (s : ChatStreamState) :
    List ChatChunk × ChatStreamState :=
  if delta = "" then ([], s)
  else
    let delta := separate s.needsReasoningSummarySeparator delta
    let (start, s) := sendStartIfNeeded { s with needsReasoningSummarySeparator := false }
    (start ++ [s.chunk { reasoningContent := some delta }],
      { s with hasSentReasoningSummary := true })

/-- A piece of text. -/
def sendOutputTextDelta (delta : String) (s : ChatStreamState) : List ChatChunk × ChatStreamState :=
  let (start, s) := s.sendStartIfNeeded
  if delta = "" then (start, s)
  else (start ++ [s.chunk { content := some delta }],
    { s with outputText := s.outputText ++ delta })

/-- A piece of a tool call. Text is preferred over tool calls, as in the conversion of a whole
result. -/
def sendToolCallDelta (callID name argsDelta : String) (s : ChatStreamState) :
    List ChatChunk × ChatStreamState :=
  if callID = "" ∨ s.outputText ≠ "" then ([], s)
  else
    let (start, s) := s.sendStartIfNeeded
    let s := if callID ∈ s.toolCallIndexByID then s
      else { s with toolCallIndexByID := s.toolCallIndexByID ++ [callID] }
    let idx := s.toolCallIndexByID.idxOf callID
    let s := if name = "" then s
      else { s with toolCallNameByID := Function.update s.toolCallNameByID callID name }
    let name := s.toolCallNameByID callID
    let sendName := name ≠ "" ∧ s.toolCallNameSent callID = false
    let tool : ToolCallResponse :=
      { index := some (idx : Int), id := callID, name := if sendName then name else ""
        arguments := argsDelta }
    (start ++ [s.chunk { toolCalls := [tool] }],
      { s with
        sawToolCall := true
        toolCallNameSent :=
          if sendName then Function.update s.toolCallNameSent callID true else s.toolCallNameSent })

/-- What an item brings of the arguments beyond those that came before. -/
def argsDelta (newArgs prevArgs : String) : String :=
  if newArgs ≠ "" ∧ hasPrefix newArgs prevArgs then afterPrefix newArgs prevArgs else newArgs

/-- What is kept of a function call item. -/
def recordItem (item : ResponsesOutput) (s : ChatStreamState) : ChatStreamState :=
  { s with
    toolCallCanonicalIDByItemID := if trimSpace item.id ≠ "" ∧ item.callID ≠ "" then
      Function.update s.toolCallCanonicalIDByItemID (trimSpace item.id) item.callID
      else s.toolCallCanonicalIDByItemID
    toolCallNameByID := if trimSpace item.name ≠ "" then
      Function.update s.toolCallNameByID item.callID (trimSpace item.name)
      else s.toolCallNameByID
    toolCallArgsByID := if item.arguments ≠ "" then
      Function.update s.toolCallArgsByID item.callID item.arguments
      else s.toolCallArgsByID }

/-- `response.output_item.added` and `response.output_item.done`. -/
def handleItem (item : ResponsesOutput) (s : ChatStreamState) : List ChatChunk × ChatStreamState :=
  if item.type ≠ .functionCall then ([], s)
  else
    let prevArgs := s.toolCallArgsByID item.callID
    sendToolCallDelta item.callID (trimSpace item.name) (argsDelta item.arguments prevArgs)
      (s.recordItem item)

/-- The call that a piece of arguments belongs to. -/
def callIDOfItem (s : ChatStreamState) (itemID : String) : String :=
  let callID := s.toolCallCanonicalIDByItemID (trimSpace itemID)
  if callID = "" then trimSpace itemID else callID

/-- What is kept of a piece of arguments. -/
def recordArguments (callID delta : String) (s : ChatStreamState) : ChatStreamState :=
  { s with
    toolCallArgsByID :=
      Function.update s.toolCallArgsByID callID (s.toolCallArgsByID callID ++ delta) }

/-- `response.function_call_arguments.delta`. -/
def handleArgumentsDelta (itemID delta : String) (s : ChatStreamState) :
    List ChatChunk × ChatStreamState :=
  let callID := s.callIDOfItem itemID
  if callID = "" then ([], s) else sendToolCallDelta callID "" delta (s.recordArguments callID delta)

/-- The finish reason. -/
def finishReason (s : ChatStreamState) : String :=
  if s.sawToolCall = true ∧ s.outputText = "" then "tool_calls" else "stop"

/-- The chunk that ends the stream. -/
def sendStop (s : ChatStreamState) : List ChatChunk × ChatStreamState :=
  if s.sentStop then ([], s)
  else ([s.chunk {} (some s.finishReason)], { s with sentStop := true })

/-- The model that an event names. -/
def withModel (s : ChatStreamState) (model : String) : ChatStreamState :=
  { s with model := if model ≠ "" then model else s.model }

/-- One event. -/
def step (s : ChatStreamState) (e : ResponsesEvent) : List ChatChunk × ChatStreamState :=
  if s.streamErr then ([], s)
  else match e with
    | .created model => ([], s.withModel model)
    | .reasoningSummaryTextDelta delta => s.sendReasoningSummaryDelta delta
    | .reasoningSummaryTextDone =>
      ([], if s.hasSentReasoningSummary then { s with needsReasoningSummarySeparator := true } else s)
    | .outputTextDelta delta => s.sendOutputTextDelta delta
    | .outputItemAdded item => s.handleItem item
    | .outputItemDone item => s.handleItem item
    | .functionCallArgumentsDelta itemID delta => s.handleArgumentsDelta itemID delta
    | .completed model =>
      let (start, s) := (s.withModel model).sendStartIfNeeded
      let (stop, s) := s.sendStop
      (start ++ stop, s)
    | .failed => ([], { s with streamErr := true })
    | .other => ([], s)

/-- Events one after the other. -/
def steps : ChatStreamState → List ResponsesEvent → List ChatChunk × ChatStreamState
  | s, [] => ([], s)
  | s, e :: es => ((s.step e).1 ++ ((s.step e).2.steps es).1, ((s.step e).2.steps es).2)

end ChatStreamState

/-- `OaiResponsesToChatStreamHandler`: the chunks it sends, or none when the upstream reports an
error. -/
def oaiResponsesToChatStreamHandler (model : String) (events : List ResponsesEvent) :
    Option (List ChatChunk) :=
  let (chunks, s) := ChatStreamState.steps { model } events
  if s.streamErr then none
  else
    let (start, s) := s.sendStartIfNeeded
    some (chunks ++ start ++ s.sendStop.1)

/-! ## The client -/

/-- A client that puts the deltas of a tool call together, by their index. -/
def addToolDelta (calls : List (Option Int × ChatToolCall)) (t : ToolCallResponse) :
    List (Option Int × ChatToolCall) :=
  if t.index ∈ calls.map Prod.fst then
    calls.map fun c => if c.1 = t.index then
      (c.1, { c.2 with name := c.2.name ++ t.name, arguments := c.2.arguments ++ t.arguments })
      else c
  else calls ++ [(t.index, { id := t.id, name := t.name, arguments := t.arguments })]

/-- What a client makes of the chunks. -/
def reassemble (chunks : List ChatChunk) : ChatCompletion :=
  { content := concat (chunks.map ChatChunk.content)
    toolCalls := ((chunks.flatMap ChatChunk.toolDeltas).foldl addToolDelta []).map Prod.snd
    finishReason :=
      ((chunks.flatMap ChatChunk.choices).filterMap StreamChoice.finish?).getLast?.getD "" }

end Prox
