import Mathlib.Data.List.Basic
import Prox.Lib.Go

/-! # Chat chunks as a Claude stream

The embedding of `StreamResponseOpenAI2Claude` in `service/convert.go` and of the handler that drives
it: `HandleStreamFormat` and `HandleFinalResponse` in `relay/channel/openai/helper.go` and
`OaiStreamHandler` in `relay/channel/openai/relay-openai.go`, for clients that speak the Claude
format. The handler keeps the last chunk back: every chunk but the last goes through
`HandleStreamFormat`, which counts it, and the last one goes through `HandleFinalResponse`, which does
not. -/

namespace Prox

/-! ## Chunks -/

/-- The token counts of an upstream that the Claude usage is built from. -/
structure ChatUsage where
  promptTokens : Int
  completionTokens : Int
  cachedTokens : Int := 0
  cachedCreationTokens : Int := 0
  claudeCacheCreation5mTokens : Int := 0
  claudeCacheCreation1hTokens : Int := 0
  deriving DecidableEq

/-- A delta of a tool call. -/
structure ToolCallResponse where
  index : Option Int
  id : String
  name : String
  arguments : String
  deriving DecidableEq

/-- Tool calls are found by their index. -/
instance lawfulBEqIndex : LawfulBEq (Option Int) := inferInstance

/-- The delta of a choice. -/
structure ChoiceDelta where
  content : Option String := none
  reasoningContent : Option String := none
  reasoning : Option String := none
  toolCalls : List ToolCallResponse := []
  deriving DecidableEq

/-- A choice of a chunk. -/
structure StreamChoice where
  delta : ChoiceDelta := {}
  finishReason : Option String := none
  deriving DecidableEq

/-- A chunk of an upstream (`ChatCompletionsStreamResponse`). -/
structure ChatChunk where
  id : String := ""
  model : String := ""
  choices : List StreamChoice := []
  usage : Option ChatUsage := none
  deriving DecidableEq

/-- The text of a delta. -/
def ChoiceDelta.getContentString (d : ChoiceDelta) : String := d.content.getD ""

/-- The reasoning of a delta, under either of its names. -/
def ChoiceDelta.getReasoningContent (d : ChoiceDelta) : String :=
  match d.reasoningContent, d.reasoning with
  | some r, _ => r
  | none, some r => r
  | none, none => ""

/-- The finish reason of a choice; an empty one counts as none. -/
def StreamChoice.finish? (c : StreamChoice) : Option String := c.finishReason.filter (· ≠ "")

namespace ChatChunk

/-- The text of a chunk. -/
def content (d : ChatChunk) : String := concat (d.choices.map fun c => c.delta.getContentString)

/-- The reasoning of a chunk. -/
def reasoning (d : ChatChunk) : String := concat (d.choices.map fun c => c.delta.getReasoningContent)

/-- The deltas of tool calls of a chunk. -/
def toolDeltas (d : ChatChunk) : List ToolCallResponse := d.choices.flatMap fun c => c.delta.toolCalls

end ChatChunk

/-! ## Events -/

/-- The usage of a Claude message; the last two are sent only when one of them is positive. -/
structure ClaudeUsage where
  inputTokens : Int
  outputTokens : Int
  cacheCreationInputTokens : Int
  cacheReadInputTokens : Int
  cacheCreation : Option (Int × Int)
  deriving DecidableEq

/-- A content block. -/
inductive ClaudeBlock where
  | text
  | thinking
  | toolUse (id name : String)
  deriving DecidableEq

/-- A delta of a content block. -/
inductive ClaudeDelta where
  | text (text : String)
  | thinking (thinking : String)
  | inputJson (partialJson : String)
  deriving DecidableEq

/-- An event of a Claude stream. -/
inductive ClaudeEvent where
  | messageStart (id model : String) (inputTokens : Int)
  | contentBlockStart (index : Int) (block : ClaudeBlock)
  | contentBlockDelta (index : Int) (delta : ClaudeDelta)
  | contentBlockStop (index : Int)
  | messageDelta (stopReason : String) (usage : ClaudeUsage)
  | messageStop
  deriving DecidableEq

/-- The share of the cache creation tokens with each lifetime. -/
def normalizeCacheCreationSplit (totalTokens tokens5m tokens1h : Int) : Int × Int :=
  (tokens5m + max (totalTokens - tokens5m - tokens1h) 0, tokens1h)

/-- The usage of the upstream in the format of Claude. -/
def buildClaudeUsageFromOpenAIUsage (u : ChatUsage) : ClaudeUsage :=
  let split := normalizeCacheCreationSplit u.cachedCreationTokens u.claudeCacheCreation5mTokens
    u.claudeCacheCreation1hTokens
  { inputTokens := u.promptTokens, outputTokens := u.completionTokens
    cacheCreationInputTokens := u.cachedCreationTokens, cacheReadInputTokens := u.cachedTokens
    cacheCreation := if 0 < split.1 ∨ 0 < split.2 then some split else none }

/-- The stop reason for a finish reason. -/
def stopReasonOpenAI2Claude (finishReason : String) : String :=
  let reason := toLowerAscii finishReason
  if reason = "stop" then "end_turn"
  else if reason = "stop_sequence" then "stop_sequence"
  else if reason = "length" ∨ reason = "max_tokens" then "max_tokens"
  else if reason = "content_filter" then "refusal"
  else if reason = "tool_calls" then "tool_use"
  else finishReason

/-! ## The converter -/

/-- What kind of block is open. -/
inductive LastMessageType where
  | none
  | text
  | tools
  | thinking
  deriving DecidableEq

/-- The part of `RelayInfo` that the converter reads and writes. -/
structure ConvertInfo where
  estimatePromptTokens : Int := 0
  sendResponseCount : Nat := 0
  lastMessagesType : LastMessageType := .none
  index : Int := 0
  usage : Option ChatUsage := none
  finishReason : String := ""
  done : Bool := false
  toolCallBaseIndex : Int := 0
  toolCallMaxIndexOffset : Int := 0

namespace ConvertInfo

/-- The stops for the blocks that are open: one for a text or a thinking block, one for each tool. -/
def stopOpenBlocks (s : ConvertInfo) : List ClaudeEvent :=
  match s.lastMessagesType with
  | .text | .thinking => [.contentBlockStop s.index]
  | .tools => (List.range (s.toolCallMaxIndexOffset + 1).toNat).map
      fun offset : Nat => .contentBlockStop (s.toolCallBaseIndex + offset)
  | .none => []

/-- The state after the open blocks were closed: the index of the next block. -/
def advance (s : ConvertInfo) : ConvertInfo :=
  match s.lastMessagesType with
  | .none => s
  | .tools =>
    { s with
      index := s.toolCallBaseIndex + s.toolCallMaxIndexOffset + 1
      toolCallBaseIndex := 0, toolCallMaxIndexOffset := 0, lastMessagesType := .none }
  | _ => { s with index := s.index + 1, lastMessagesType := .none }

/-- `stopOpenBlocksAndAdvance`, unless the open block is of the kind that goes on. -/
def switchTo (t : LastMessageType) (s : ConvertInfo) : List ClaudeEvent × ConvertInfo :=
  if s.lastMessagesType = t then ([], s) else (s.stopOpenBlocks, s.advance)

/-- The end of the message, with the usage if there is one. -/
def finish (stopReason : String) (usage : Option ChatUsage) (s : ConvertInfo) :
    List ClaudeEvent × ConvertInfo :=
  (s.stopOpenBlocks ++
    (usage.map fun u => .messageDelta stopReason (buildClaudeUsageFromOpenAIUsage u)).toList ++
    [.messageStop], { s with done := true })

end ConvertInfo

/-- The tool call of a first chunk: only its first one, at index 0. -/
def firstToolCall (c : ChoiceDelta) (s : ConvertInfo) : List ClaudeEvent × ConvertInfo :=
  match c.toolCalls with
  | [] => ([], s)
  | toolCall :: _ =>
    (.contentBlockStart 0 (.toolUse toolCall.id toolCall.name) ::
      if toolCall.arguments ≠ "" then [.contentBlockDelta 0 (.inputJson toolCall.arguments)] else [],
      { s with lastMessagesType := .tools, toolCallBaseIndex := 0, toolCallMaxIndexOffset := 0 })

/-- The content of a first chunk; a block is started in any case. -/
def firstContent (c : ChoiceDelta) (s : ConvertInfo) : List ClaudeEvent × ConvertInfo :=
  if c.getReasoningContent ≠ "" then
    let (stops, s) := s.switchTo .thinking
    (stops ++ [.contentBlockStart s.index .thinking,
      .contentBlockDelta s.index (.thinking c.getReasoningContent)],
      { s with lastMessagesType := .thinking })
  else if c.getContentString ≠ "" then
    let (stops, s) := s.switchTo .text
    (stops ++ [.contentBlockStart s.index .text,
      .contentBlockDelta s.index (.text c.getContentString)],
      { s with lastMessagesType := .text })
  else ([], s)

/-- The first chunk. -/
def convertFirst (d : ChatChunk) (s : ConvertInfo) : List ClaudeEvent × ConvertInfo :=
  let start := ClaudeEvent.messageStart d.id d.model s.estimatePromptTokens
  match d.choices with
  | [] => ([start], s)
  | choice :: _ =>
    let (tool, s) := firstToolCall choice.delta s
    let (content, s) := firstContent choice.delta s
    match choice.finish? with
    | none => (start :: tool ++ content, s)
    | some reason =>
      let s := { s with finishReason := reason }
      let (ending, s) := s.finish (stopReasonOpenAI2Claude reason) (d.usage.or s.usage)
      (start :: tool ++ content ++ ending, s)

/-- The tool calls of a later chunk, from position `i` on, with the largest offset so far. -/
def convertToolCalls (base : Int) : Nat → Int → List ToolCallResponse → List ClaudeEvent × Int
  | _, maxOffset, [] => ([], maxOffset)
  | i, maxOffset, toolCall :: rest =>
    let offset := toolCall.index.getD i
    let start := if toolCall.name ≠ "" then
      [ClaudeEvent.contentBlockStart (base + offset) (.toolUse toolCall.id toolCall.name)] else []
    let delta := if toolCall.arguments ≠ "" then
      [ClaudeEvent.contentBlockDelta (base + offset) (.inputJson toolCall.arguments)] else []
    let (events, maxOffset) := convertToolCalls base (i + 1) (max maxOffset offset) rest
    (start ++ delta ++ events, maxOffset)

/-- The delta of a later chunk: tool calls, or else reasoning, or else text. -/
def laterContent (c : ChoiceDelta) (s : ConvertInfo) : List ClaudeEvent × ConvertInfo :=
  if c.toolCalls ≠ [] then
    let (stops, s) :=
      if s.lastMessagesType = .tools then ([], s)
      else (s.stopOpenBlocks,
        { s.advance with
          toolCallBaseIndex := s.advance.index, toolCallMaxIndexOffset := 0
          lastMessagesType := .tools })
    let (events, maxOffset) :=
      convertToolCalls s.toolCallBaseIndex 0 s.toolCallMaxIndexOffset c.toolCalls
    (stops ++ events,
      { s with toolCallMaxIndexOffset := maxOffset, index := s.toolCallBaseIndex + maxOffset })
  else if c.getReasoningContent ≠ "" then
    let start := if s.lastMessagesType = .thinking then []
      else s.stopOpenBlocks ++ [.contentBlockStart s.advance.index .thinking]
    let s := if s.lastMessagesType = .thinking then s else s.advance
    (start ++ [.contentBlockDelta s.index (.thinking c.getReasoningContent)],
      { s with lastMessagesType := .thinking })
  else if c.getContentString ≠ "" then
    let start := if s.lastMessagesType = .text then []
      else s.stopOpenBlocks ++ [.contentBlockStart s.advance.index .text]
    let s := if s.lastMessagesType = .text then s else s.advance
    (start ++ [.contentBlockDelta s.index (.text c.getContentString)],
      { s with lastMessagesType := .text })
  else ([], s)

/-- A later chunk. -/
def convertLater (d : ChatChunk) (s : ConvertInfo) : List ClaudeEvent × ConvertInfo :=
  match d.choices with
  | [] =>
    match d.usage.or s.usage with
    | none => ([], s)
    | some usage =>
      let stopReason := stopReasonOpenAI2Claude s.finishReason
      s.finish (if stopReason = "" then "end_turn" else stopReason) (some usage)
  | choice :: _ =>
    match choice.finish?, d.usage with
    | none, _ => laterContent choice.delta s
    -- the end is put off until a chunk brings the usage, and with it what this chunk has to say
    | some reason, none => ([], { s with finishReason := reason })
    | some reason, some usage =>
      let (content, s) := laterContent choice.delta { s with finishReason := reason }
      let (ending, s) := s.finish (stopReasonOpenAI2Claude reason) (some usage)
      (content ++ ending, s)

/-- One call of the converter. -/
def streamResponseOpenAI2Claude (d : ChatChunk) (s : ConvertInfo) :
    List ClaudeEvent × ConvertInfo :=
  if s.done then ([], s)
  else if s.sendResponseCount = 1 then convertFirst d s
  else convertLater d s

/-! ## The handler -/

/-- A chunk that is not the last. -/
def handleStreamFormat (d : ChatChunk) (s : ConvertInfo) : List ClaudeEvent × ConvertInfo :=
  streamResponseOpenAI2Claude d
    { s with sendResponseCount := s.sendResponseCount + 1, usage := d.usage.or s.usage }

/-- The last chunk. -/
def handleFinalResponse (usage : ChatUsage) (d : ChatChunk) (s : ConvertInfo) :
    List ClaudeEvent × ConvertInfo :=
  let (events, s) := streamResponseOpenAI2Claude d { s with usage := some usage }
  (events, { s with done := true })

/-- The events of a stream of chunks, where `usage` is the usage that was found or estimated at its
end. -/
def oaiStream (usage : ChatUsage) : ConvertInfo → List ChatChunk → List ClaudeEvent
  | _, [] => []
  | s, [d] => (handleFinalResponse usage d s).1
  | s, d :: ds =>
    (handleStreamFormat d s).1 ++ oaiStream usage (handleStreamFormat d s).2 ds

/-- `OaiStreamHandler` for a client that speaks the Claude format. -/
def oaiStreamHandler (estimatePromptTokens : Int) (usage : ChatUsage) (chunks : List ChatChunk) :
    List ClaudeEvent :=
  oaiStream usage { estimatePromptTokens } chunks

end Prox
