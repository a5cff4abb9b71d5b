import Prox.Relay.ClaudeMessage
import Prox.Relay.GeminiRequest

/-! # A chat request as a Claude request

The embedding of the two passes over the messages in `RequestOpenAI2ClaudeMessage` of
`relay/channel/claude/relay-claude.go`. The first pass puts neighbouring messages of one role together when
both have a text, and gives the others a placeholder for an empty content. The second pass collects the
system prompt, appends the tool results to the user's message before them, and turns what is left into
blocks. The decoding of contents and arguments and the loading of files are parameters. -/

namespace Prox

section ChatToClaude

variable {V : Type}

/-! ## Messages -/

/-- `Message` of a request. The tool calls are decoded; `none` is a message without the field. -/
structure OpenAIMessage (V : Type) where
  role : String
  content : AnyContent V := .null
  toolCalls : Option (List ToolCallRequest) := none
  toolCallId : String := ""

/-- `FileSource`: where the data of a part is to be had, and its type if that is known. -/
structure FileSource where
  data : String
  mimeType : String := ""

/-- `MediaContent` as the conversion reads it: a text, or something else with what `ToFileSource` makes
of it. -/
inductive ContentPart where
  | text (text : String)
  | file (source : Option FileSource)

/-- The content of a Claude message: a text or blocks. -/
inductive ClaudeContent (V : Type) where
  | string (text : String)
  | media (blocks : List (ClaudeMediaMessage V))
  deriving DecidableEq

/-- `ClaudeMessage` as the conversion builds it. -/
structure ConvertedMessage (V : Type) where
  role : String
  content : ClaudeContent V
  deriving DecidableEq

/-- What the conversion uses and does not define: `ParseContent` of a list of parts, the decoding of
arguments into a fresh map, which is none when they are no object, and `GetBase64Data`, which loads the
data of a file and its type. -/
structure ChatToClaudeEnv (V : Type) where
  parseContent : V → List ContentPart
  unmarshalObject : String → Option V
  emptyObject : V
  getBase64Data : FileSource → Except String (String × String)

/-- `ParseContent`: a text is one part. -/
def AnyContent.parts (env : ChatToClaudeEnv V) : AnyContent V → List ContentPart
  | .null => []
  | .string text => [.text text]
  | .value v => env.parseContent v

/-- What a part says: an empty text says nothing. -/
def ContentPart.said : ContentPart → Option String
  | .text t => if t ≠ "" then some t else none
  | .file _ => none

/-! ## The first pass -/

/-- A content that is missing or an empty text becomes a placeholder. -/
def AnyContent.orPlaceholder : AnyContent V → AnyContent V
  | .null => .string "..."
  | .string text => .string (if text = "" then "..." else text)
  | .value v => .value v

/-- The copy of a message: only the assistant's has tool calls, and only a tool's the id of a call. -/
def fmtMessage (message : OpenAIMessage V) : OpenAIMessage V where
  role := message.role
  content := message.content
  toolCalls := if message.role = "assistant" then message.toolCalls else none
  toolCallId := if message.role = "tool" then message.toolCallId else ""

/-- The text of two neighbouring messages, when they are put together. -/
def mergedText (lastMessage message : OpenAIMessage V) : Option String :=
  if lastMessage.role = message.role ∧ lastMessage.role ≠ "tool" then
    match lastMessage.content, message.content with
    | .string last, .string text => some (trimChar '"' (last ++ " " ++ text))
    | _, _ => none
  else none

/-- What the first pass keeps: its messages and the last of them. -/
structure FormatState (V : Type) where
  formatMessages : List (OpenAIMessage V) := []
  lastMessage : OpenAIMessage V := { role := "tool" }

/-- One message of the first pass. What is put together stands in the place of the last message. -/
def formatMessage (s : FormatState V) (message : OpenAIMessage V) : FormatState V :=
  match mergedText s.lastMessage message with
  | some text =>
    let merged := { fmtMessage message with content := (AnyContent.string text).orPlaceholder }
    ⟨s.formatMessages.dropLast ++ [merged], merged⟩
  | none =>
    let plain := { fmtMessage message with content := message.content.orPlaceholder }
    ⟨s.formatMessages ++ [plain], plain⟩

/-- The first pass. -/
def formatMessages (messages : List (OpenAIMessage V)) : List (OpenAIMessage V) :=
  (messages.foldl formatMessage {}).formatMessages

/-! ## The second pass -/

/-- The blocks of the system prompt in a message. -/
def systemBlocks (env : ChatToClaudeEnv V) (message : OpenAIMessage V) : List (ClaudeMediaMessage V) :=
  ((message.content.parts env).filterMap ContentPart.said).map .textBlock

/-- The block of a tool message. -/
def toolResultBlock (message : OpenAIMessage V) : ClaudeMediaMessage V :=
  { type := "tool_result", toolUseId := message.toolCallId, content := message.content }

/-- The blocks of a part: none for an empty text or a part without a file. -/
def partBlocks (env : ChatToClaudeEnv V) : ContentPart → Except String (List (ClaudeMediaMessage V))
  | .text text => pure (if text ≠ "" then [.textBlock text] else [])
  | .file none => pure []
  | .file (some source) => do
    let (base64Data, mimeType) ← env.getBase64Data source
    let type := if hasPrefix mimeType "application/pdf" = true then "document" else "image"
    pure [{ type, source := some { type := "base64", mediaType := mimeType, data := base64Data } }]

/-- The blocks of the parts. -/
def contentBlocks (env : ChatToClaudeEnv V) : List ContentPart →
    Except String (List (ClaudeMediaMessage V))
  | [] => pure []
  | part :: parts => do
    let blocks ← partBlocks env part
    let others ← contentBlocks env parts
    pure (blocks ++ others)

/-- The input of a tool call. -/
def toolInput (env : ChatToClaudeEnv V) (args : String) : V :=
  if args = "" then env.emptyObject else (env.unmarshalObject args).getD env.emptyObject

/-- The block of a tool call. -/
def toolUse (env : ChatToClaudeEnv V) (toolCall : ToolCallRequest) : ClaudeMediaMessage V :=
  .toolUseBlock toolCall.id toolCall.name (toolInput env toolCall.arguments)

/-- The content of a message that is neither of the system nor of a tool. -/
def claudeContent (env : ChatToClaudeEnv V) (message : OpenAIMessage V) :
    Except String (ClaudeContent V) :=
  match message.content, message.toolCalls with
  | .string text, none => pure (.string (if text = "" then "..." else text))
  | content, toolCalls => do
    let blocks ← contentBlocks env (content.parts env)
    pure (.media (blocks ++ (toolCalls.getD []).map (toolUse env)))

/-- The blocks of a content: a text is one. -/
def ClaudeContent.blocks : ClaudeContent V → List (ClaudeMediaMessage V)
  | .string text => [.textBlock text]
  | .media blocks => blocks

/-- A tool result goes to the user's message before it, or becomes a message of the user. -/
def appendToolResult (claudeMessages : List (ConvertedMessage V)) (result : ClaudeMediaMessage V) :
    List (ConvertedMessage V) :=
  match claudeMessages.getLast? with
  | some lastMessage =>
    if lastMessage.role = "user" then
      claudeMessages.dropLast ++
        [{ lastMessage with content := .media (lastMessage.content.blocks ++ [result]) }]
    else claudeMessages ++ [⟨"user", .media [result]⟩]
  | none => claudeMessages ++ [⟨"user", .media [result]⟩]

/-- What the second pass builds. -/
structure ConvertState (V : Type) where
  isFirstMessage : Bool := true
  systemMessages : List (ClaudeMediaMessage V) := []
  claudeMessages : List (ConvertedMessage V) := []

/-- The placeholder before a conversation that does not begin with the user. -/
def openingMessage (isFirstMessage : Bool) (role : String) : List (ConvertedMessage V) :=
  if isFirstMessage = true ∧ role ≠ "user" then [⟨"user", .media [.textBlock "..."]⟩] else []

/-- One message of the second pass. -/
def convertMessage (env : ChatToClaudeEnv V) (s : ConvertState V) (message : OpenAIMessage V) :
    Except String (ConvertState V) :=
  if message.role = "system" then
    pure { s with systemMessages := s.systemMessages ++ systemBlocks env message }
  else
    let claudeMessages := s.claudeMessages ++ openingMessage s.isFirstMessage message.role
    if message.role = "tool" then
      pure { s with isFirstMessage := false
                    claudeMessages := appendToolResult claudeMessages (toolResultBlock message) }
    else do
      let content ← claudeContent env message
      pure { s with isFirstMessage := false
                    claudeMessages := claudeMessages ++ [⟨message.role, content⟩] }

/-- The messages and the system prompt that `RequestOpenAI2ClaudeMessage` sends for some messages. -/
def requestOpenAI2ClaudeMessages (env : ChatToClaudeEnv V) (messages : List (OpenAIMessage V)) :
    Except String (ConvertState V) :=
  (formatMessages messages).foldlM (convertMessage env) {}

/-! ## What a conversation holds -/

/-- The texts of a content. -/
def AnyContent.texts (env : ChatToClaudeEnv V) : AnyContent V → List String
  | .null => []
  | .string text => [text]
  | .value v => (env.parseContent v).filterMap ContentPart.said

/-- The texts of a message of the user or the assistant. -/
def OpenAIMessage.texts (env : ChatToClaudeEnv V) (m : OpenAIMessage V) : List String :=
  if m.role = "user" ∨ m.role = "assistant" then m.content.texts env else []

/-- The tool calls of a message of the assistant. -/
def OpenAIMessage.calls (m : OpenAIMessage V) : List ToolCallRequest :=
  if m.role = "assistant" then m.toolCalls.getD [] else []

/-- A tool call is sent by a block: its id and name are the same, and so are the arguments if they are an
object. -/
structure SentAs (env : ChatToClaudeEnv V) (call : ToolCallRequest) (b : ClaudeMediaMessage V) : Prop where
  id : b.id = call.id
  name : b.name = call.name
  input : ∀ v, call.arguments ≠ "" → env.unmarshalObject call.arguments = some v → b.input = some v

/-- A tool message is sent by a block: with the id of its call, and with its content unless it has none. -/
structure ResultSentAs (m : OpenAIMessage V) (b : ClaudeMediaMessage V) : Prop where
  toolUseId : b.toolUseId = m.toolCallId
  content : b.content = m.content.orPlaceholder

/-- A text consists of texts in their order, with joining spaces and placeholders between them. -/
def Joins : List String → String → Prop
  | [], s => s = "" ∨ s = "..."
  | t :: ts, s => ∃ gap rest, s = gap ++ (t ++ rest) ∧ (gap = "" ∨ gap = " " ∨ gap = "... ") ∧ Joins ts rest

/-- The messages that are sent have all of the conversation: the tool calls, the tool results and the texts
of the chat messages, each kind in its order, and all of them are of the user or the assistant. -/
structure ConversationSent (env : ChatToClaudeEnv V) (messages : List (OpenAIMessage V))
    (sent : List (ConvertedMessage V)) : Prop where
  calls : List.Forall₂ (SentAs env) (messages.flatMap OpenAIMessage.calls)
    ((sent.flatMap (·.content.blocks)).filter (·.type = "tool_use"))
  results : List.Forall₂ ResultSentAs (messages.filter (·.role = "tool"))
    ((sent.flatMap (·.content.blocks)).filter (·.type = "tool_result"))
  texts : ∃ groups : List (List String), groups.flatten = messages.flatMap (OpenAIMessage.texts env) ∧
    List.Forall₂ Joins groups
      (((sent.flatMap (·.content.blocks)).filter (·.type = "text")).map (·.getText))
  roles : ∀ m ∈ sent, m.role = "user" ∨ m.role = "assistant"

/-! ## Runs of messages -/

/-- Two neighbouring messages are put together. -/
def merges (a b : OpenAIMessage V) : Bool :=
  a.role = b.role && b.role ≠ "tool" &&
    match a.content, b.content with
    | .value _, _ => false
    | _, .string _ => true
    | _, _ => false

/-- A text that begins with a quote. -/
def AnyContent.opensQuoted : AnyContent V → Bool
  | .string text => text.toList.head? = some '"'
  | _ => false

/-- A text that ends with a quote. -/
def AnyContent.closesQuoted : AnyContent V → Bool
  | .string text => text.toList.getLast? = some '"'
  | _ => false

/-- A run of messages that are put together keeps what they say: only the last one has tool calls, and the
text of all has no quote at either end. -/
structure RunKept (a : OpenAIMessage V) (rest : List (OpenAIMessage V)) : Prop where
  calls : ∀ m ∈ (a :: rest).dropLast, m.calls = []
  opens : a.content.opensQuoted = false
  closes : ∀ m ∈ rest, m.content.closesQuoted = false

end ChatToClaude

end Prox
