import Prox.Relay.ClaudeMessage
import Prox.Relay.GeminiRequest

/-! # A Claude request as a chat request

The embedding of `ClaudeToOpenAIRequest` in `service/convert.go`. The blocks of a message are read in one
loop: a tool result becomes a tool message at once, texts and images are collected, and so are the tool
calls; the message behind the loop has the tool calls if there are any, and only else the texts and
images. The decoding of contents and of tools into their types is a parameter. -/

namespace Prox

open ClaudeMediaMessage List Option

section ClaudeRequest

variable {V : Type}

/-! ## Requests -/

/-- `ClaudeMessage`. -/
structure ClaudeMessage (V : Type) where
  role : String
  content : AnyContent V

/-- `Thinking`. -/
structure ClaudeThinking where
  type : String
  budgetTokens : Option Int := none

/-- The fields of `ClaudeRequest` that are converted; `efforts` is what `GetEfforts` reads. -/
structure ClaudeRequest (V : Type) where
  model : String := ""
  temperature : Option ℚ := none
  maxTokens : Option Nat := none
  topP : Option ℚ := none
  topK : Option Int := none
  stream : Option Bool := none
  efforts : String := ""
  thinking : Option ClaudeThinking := none
  stopSequences : List String := []
  tools : Option V := none
  system : AnyContent V := .null
  messages : List (ClaudeMessage V)

/-- What the conversion reads of `RelayInfo`. -/
structure ClaudeRelayInfo where
  isOpenRouter : Bool := false
  originModelName : String := ""
  upstreamModelName : String := ""

/-- `MediaContent` with its cache control. -/
inductive ChatMediaContent (V : Type) where
  | text (text : String) (cacheControl : Option V)
  | imageUrl (url : String)
  deriving DecidableEq

/-- The content of a chat message. -/
inductive ChatContent (V : Type) where
  | null
  | string (text : String)
  | media (contents : List (ChatMediaContent V))
  deriving DecidableEq

/-- `Message` with its name. -/
structure ChatMessage (V : Type) where
  role : String
  content : ChatContent V := .null
  name : Option String := none
  toolCalls : List ToolCallRequest := []
  toolCallId : String := ""
  deriving DecidableEq

/-- `RequestReasoning`. -/
structure RequestReasoning where
  enabled : Bool := false
  maxTokens : Int := 0

/-- The fields of `GeneralOpenAIRequest` that a Claude request sets. -/
structure ChatRequest (V : Type) where
  model : String
  temperature : Option ℚ
  maxTokens : Option Nat
  topP : Option ℚ
  topK : Option Int
  stream : Option Bool
  verbosity : Option String
  reasoning : Option RequestReasoning
  stop : List String
  tools : List (FunctionRequest V)
  messages : List (ChatMessage V)

/-- What the conversion uses and does not define: the encoding of values, and `Any2Type`, which encodes a
value and decodes it into a type. -/
structure ClaudeRequestEnv (V : Type) where
  codec : JsonCodec V
  parseMedia : V → Except String (List (ClaudeMediaMessage V))
  marshalMedia : List (ClaudeMediaMessage V) → String
  parseTools : V → Except String (List (FunctionRequest V))

/-! ## Messages -/

/-- `ParseContent`. Nothing is no blocks, and a string is no list of blocks. -/
def ClaudeMessage.parseContent (env : ClaudeRequestEnv V) (m : ClaudeMessage V) :
    Except String (List (ClaudeMediaMessage V)) :=
  match m.content with
  | .null => pure []
  | .string _ => throw "json: cannot unmarshal string"
  | .value v => env.parseMedia v

/-- The blocks of a message that can be read. -/
def ClaudeMessage.blocks (env : ClaudeRequestEnv V) (m : ClaudeMessage V) :
    List (ClaudeMediaMessage V) :=
  match m.parseContent env with
  | .ok blocks => blocks
  | .error _ => []

/-- `SearchToolNameByToolCallId`. -/
def ClaudeRequest.searchToolNameByToolCallId (env : ClaudeRequestEnv V) (request : ClaudeRequest V)
    (toolCallId : String) : String :=
  match (request.messages.flatMap (ClaudeMessage.blocks env)).find? (·.id = toolCallId) with
  | some block => block.name
  | none => ""

/-- The content of a tool message: the text of a result, or else its blocks encoded again. -/
def toolResultText (env : ClaudeRequestEnv V) (mediaMsg : ClaudeMediaMessage V) : String :=
  match mediaMsg.content with
  | .string text => text
  | .null => "null"
  | .value v =>
    match env.parseMedia v with
    | .ok mediaContents => env.marshalMedia mediaContents
    | .error _ => "null"

/-- The tool message for a result. -/
def oaiToolMessage (env : ClaudeRequestEnv V) (request : ClaudeRequest V)
    (mediaMsg : ClaudeMediaMessage V) : ChatMessage V :=
  let toolName := if mediaMsg.name = "" then
      request.searchToolNameByToolCallId env mediaMsg.toolUseId
    else mediaMsg.name
  { role := "tool", name := some toolName, toolCallId := mediaMsg.toolUseId
    content := .string (toolResultText env mediaMsg) }

/-- The tool call for a `tool_use`. -/
def oaiToolCall (env : ClaudeRequestEnv V) (mediaMsg : ClaudeMediaMessage V) : ToolCallRequest :=
  { id := mediaMsg.id, name := mediaMsg.name, arguments := env.codec.marshal mediaMsg.input }

/-- What the loop over the blocks of a message builds. -/
structure ClaudeMessageState (V : Type) where
  toolCalls : List ToolCallRequest := []
  mediaMessages : List (ChatMediaContent V) := []
  openAIMessages : List (ChatMessage V) := []

/-- One block; an error is a panic. -/
def convertClaudeBlock (env : ClaudeRequestEnv V) (request : ClaudeRequest V)
    (s : ClaudeMessageState V) (mediaMsg : ClaudeMediaMessage V) :
    Except String (ClaudeMessageState V) :=
  if mediaMsg.type = "text" ∨ mediaMsg.type = "input_text" then
    pure { s with mediaMessages := s.mediaMessages ++ [.text mediaMsg.getText mediaMsg.cacheControl] }
  else if mediaMsg.type = "image" then
    match mediaMsg.source with
    | none => throw "nil pointer dereference"
    | some source =>
      let imageData := "data:" ++ source.mediaType ++ ";base64," ++ source.data
      pure { s with mediaMessages := s.mediaMessages ++ [.imageUrl imageData] }
  else if mediaMsg.type = "tool_use" then
    pure { s with toolCalls := s.toolCalls ++ [oaiToolCall env mediaMsg] }
  else if mediaMsg.type = "tool_result" then
    pure { s with openAIMessages := s.openAIMessages ++ [oaiToolMessage env request mediaMsg] }
  else pure s

/-- The message behind the loop; one with neither content nor tool calls is left out. -/
def ownMessage (role : String) (s : ClaudeMessageState V) : Option (ChatMessage V) :=
  if s.toolCalls ≠ [] then some { role, toolCalls := s.toolCalls }
  else if s.mediaMessages ≠ [] then some { role, content := .media s.mediaMessages }
  else none

/-- One message: its tool messages and what it is itself. -/
def convertClaudeMessage (env : ClaudeRequestEnv V) (request : ClaudeRequest V)
    (m : ClaudeMessage V) : Except String (List (ChatMessage V)) :=
  match m.content with
  | .string text => pure [{ role := m.role, content := .string text }]
  | _ => do
    let contents ← m.parseContent env
    let s ← contents.foldlM (convertClaudeBlock env request) {}
    pure (s.openAIMessages ++ (ownMessage m.role s).toList)

/-- The messages one after the other. -/
def convertClaudeMessages (env : ClaudeRequestEnv V) (request : ClaudeRequest V) :
    List (ClaudeMessage V) → Except String (List (ChatMessage V))
  | [] => pure []
  | m :: rest => do
    let messages ← convertClaudeMessage env request m
    let others ← convertClaudeMessages env request rest
    pure (messages ++ others)

/-! ## The request -/

/-- The blocks of the system prompt. -/
def ClaudeRequest.parseSystem (env : ClaudeRequestEnv V) (request : ClaudeRequest V) :
    List (ClaudeMediaMessage V) :=
  match request.system with
  | .value v =>
    match env.parseMedia v with
    | .ok systems => systems
    | .error _ => []
  | _ => []

/-- The system message. -/
def claudeSystemMessage (env : ClaudeRequestEnv V) (info : ClaudeRelayInfo)
    (request : ClaudeRequest V) : Option (ChatMessage V) :=
  match request.system with
  | .null => none
  | .string text => if text ≠ "" then some { role := "system", content := .string text } else none
  | .value _ =>
    match request.parseSystem env with
    | [] => none
    | systems =>
      if info.isOpenRouter = true ∧ hasPrefix info.upstreamModelName "anthropic/claude" = true then
        some { role := "system"
               content := .media (systems.map fun system => .text system.getText system.cacheControl) }
      else some { role := "system", content := .string (concat (systems.map (·.getText))) }

/-- The reasoning of a request for OpenRouter. -/
def openRouterReasoning (thinking : ClaudeThinking) : RequestReasoning :=
  if thinking.type = "enabled" then { enabled := true, maxTokens := thinking.budgetTokens.getD 0 }
  else if thinking.type = "adaptive" then { enabled := true }
  else {}

/-- `strings.HasSuffix`. -/
def hasSuffix (s suffix : String) : Bool := suffix.toList.isSuffixOf s.toList

/-- The model: the suffix of the model that was asked for is kept, but not for OpenRouter. -/
def claudeChatModel (info : ClaudeRelayInfo) (model : String) : String :=
  if info.isOpenRouter = false ∧ hasSuffix info.originModelName "-thinking" = true ∧
      hasSuffix model "-thinking" = false then model ++ "-thinking"
  else model

/-- The tools; when they cannot be read there are none. -/
def claudeChatTools (env : ClaudeRequestEnv V) (tools : Option V) : List (FunctionRequest V) :=
  match tools.map env.parseTools with
  | some (.ok tools) => tools
  | _ => []

/-- `ClaudeToOpenAIRequest`. -/
def claudeToOpenAIRequest (env : ClaudeRequestEnv V) (info : ClaudeRelayInfo)
    (request : ClaudeRequest V) : Except String (ChatRequest V) := do
  let messages ← convertClaudeMessages env request request.messages
  pure
    { model := claudeChatModel info request.model
      temperature := request.temperature, maxTokens := request.maxTokens
      topP := request.topP, topK := request.topK, stream := request.stream
      verbosity := if info.isOpenRouter = true ∧ request.efforts ≠ "" then some request.efforts else none
      reasoning := if info.isOpenRouter = true then request.thinking.map openRouterReasoning else none
      stop := request.stopSequences
      tools := claudeChatTools env request.tools
      messages := (claudeSystemMessage env info request).toList ++ messages }

/-! ## What a conversation holds -/

/-- A text block. -/
def ClaudeMediaMessage.isText (b : ClaudeMediaMessage V) : Bool := b.type = "text" || b.type = "input_text"

/-- The texts of a message, block by block. -/
def ClaudeMessage.texts (env : ClaudeRequestEnv V) (m : ClaudeMessage V) : List String :=
  match m.content with
  | .string text => [text]
  | _ => ((m.blocks env).filter ClaudeMediaMessage.isText).map ClaudeMediaMessage.getText

/-- The tool calls of a message. -/
def ClaudeMessage.calls (env : ClaudeRequestEnv V) (m : ClaudeMessage V) : List ToolCallRequest :=
  ((m.blocks env).filter (·.type = "tool_use")).map (oaiToolCall env)

/-- The text of a part. -/
def ChatMediaContent.text? : ChatMediaContent V → Option String
  | text t _ => some t
  | imageUrl _ => none

/-- The texts of a chat message that is no tool message. -/
def ChatMessage.texts (m : ChatMessage V) : List String :=
  if m.role = "tool" then []
  else match m.content with
    | .null => []
    | .string text => [text]
    | .media contents => contents.filterMap ChatMediaContent.text?

/-- Some of the blocks is a tool call with the id. -/
def CalledIn (blocks : List (ClaudeMediaMessage V)) (id : String) : Prop :=
  ∃ b ∈ blocks, b.type = "tool_use" ∧ b.id = id
  deriving Decidable

/-- Some of the messages is one of the assistant with a tool call with the id. -/
def AskedIn (messages : List (ChatMessage V)) (id : String) : Prop :=
  ∃ m ∈ messages, m.role = "assistant" ∧ ∃ call ∈ m.toolCalls, call.id = id

/-- The content of a message is that of a result: its text, or the encoding of what its blocks decode to.
A result without content may have any. -/
def CarriesResult (env : ClaudeRequestEnv V) (result : ClaudeMediaMessage V) (content : ChatContent V) :
    Prop :=
  match result.content with
  | .null => True
  | .string text => content = .string text
  | .value v => ∃ blocks, env.parseMedia v = .ok blocks ∧ content = .string (env.marshalMedia blocks)

/-- A tool result, with the blocks before it, is returned by a tool message, with the messages before it:
the id and the content are the same, and the call of it was sent if it was made. -/
structure Returned (env : ClaudeRequestEnv V) (result : List (ClaudeMediaMessage V) × ClaudeMediaMessage V)
    (tool : List (ChatMessage V) × ChatMessage V) : Prop where
  toolCallId : tool.2.toolCallId = result.2.toolUseId
  content : CarriesResult env result.2 tool.2.content
  asked : CalledIn result.1 result.2.toolUseId → AskedIn tool.1 result.2.toolUseId

/-- The tool results, each with the blocks before it. -/
def resultsOf (earlier blocks : List (ClaudeMediaMessage V)) :
    List (List (ClaudeMediaMessage V) × ClaudeMediaMessage V) :=
  (withEarlier earlier blocks).filter fun result => result.2.type = "tool_result"

/-- The tool messages, each with the messages before it. -/
def toolMessagesOf (earlier messages : List (ChatMessage V)) :
    List (List (ChatMessage V) × ChatMessage V) :=
  (withEarlier earlier messages).filter fun tool => tool.2.role = "tool"

/-- The chat messages have all of the conversation: the texts, the calls and the results of the Claude
messages, each kind in its order, behind the text of the system prompt. -/
structure ConversationKept (env : ClaudeRequestEnv V) (info : ClaudeRelayInfo)
    (request : ClaudeRequest V) (messages : List (ChatMessage V)) : Prop where
  texts : messages.flatMap ChatMessage.texts
    = (claudeSystemMessage env info request).toList.flatMap ChatMessage.texts ++
      request.messages.flatMap (ClaudeMessage.texts env)
  calls : messages.flatMap ChatMessage.toolCalls = request.messages.flatMap (ClaudeMessage.calls env)
  results : List.Forall₂ (Returned env)
    (resultsOf [] (request.messages.flatMap (ClaudeMessage.blocks env))) (toolMessagesOf [] messages)

/-! ## The loop over the blocks -/

/-- The part of a block. -/
def mediaOf (b : ClaudeMediaMessage V) : List (ChatMediaContent V) :=
  if b.type = "text" ∨ b.type = "input_text" then [.text b.getText b.cacheControl]
  else if b.type = "image" then
    b.source.toList.map fun source => .imageUrl ("data:" ++ source.mediaType ++ ";base64," ++ source.data)
  else []

/-- The blocks can be converted: images have a source. -/
def SourcesGiven (blocks : List (ClaudeMediaMessage V)) : Prop :=
  ∀ b ∈ blocks, b.type = "image" → b.source.isSome

variable {env : ClaudeRequestEnv V} {request : ClaudeRequest V}

/-- What one block adds. -/
theorem convertClaudeBlock_eq_ok {s s' : ClaudeMessageState V} {b : ClaudeMediaMessage V} :
    convertClaudeBlock env request s b = .ok s' ↔ (b.type = "image" → b.source.isSome) ∧
      s' = { toolCalls := s.toolCalls ++ ([b].filter (·.type = "tool_use")).map (oaiToolCall env)
             mediaMessages := s.mediaMessages ++ mediaOf b
             openAIMessages := s.openAIMessages ++
               ([b].filter (·.type = "tool_result")).map (oaiToolMessage env request) } := by
  unfold convertClaudeBlock mediaOf
  by_cases htext : b.type = "text" ∨ b.type = "input_text"
  · rw [if_pos htext, pure_eq_ok, eq_comm]
    rcases htext with h | h <;> simp [h]
  · rw [if_neg htext, if_neg htext]
    by_cases himage : b.type = "image"
    · rw [if_pos himage]
      cases hsource : b.source with
      | none => simp [himage]
      | some source =>
        rw [pure_eq_ok, eq_comm]
        simp [himage]
    · rw [if_neg himage]
      by_cases huse : b.type = "tool_use"
      · rw [if_pos huse, pure_eq_ok, eq_comm]
        simp [huse]
      · rw [if_neg huse]
        by_cases hresult : b.type = "tool_result"
        · rw [if_pos hresult, pure_eq_ok, eq_comm]
          simp [hresult]
        · rw [if_neg hresult, pure_eq_ok, eq_comm]
          simp [huse, hresult, himage]

/-- **The loop over the blocks** sorts them into tool calls, parts and tool messages. -/
theorem foldlM_convertClaudeBlock {blocks : List (ClaudeMediaMessage V)}
    {s s' : ClaudeMessageState V} :
    blocks.foldlM (convertClaudeBlock env request) s = .ok s' ↔ SourcesGiven blocks ∧
      s' = { toolCalls := s.toolCalls ++ (blocks.filter (·.type = "tool_use")).map (oaiToolCall env)
             mediaMessages := s.mediaMessages ++ blocks.flatMap mediaOf
             openAIMessages := s.openAIMessages ++
               (blocks.filter (·.type = "tool_result")).map (oaiToolMessage env request) } := by
  induction blocks generalizing s with
  | nil =>
    rw [foldlM_nil, pure_eq_ok, eq_comm]
    simp [SourcesGiven]
  | cons b bs ih =>
    simp only [List.foldlM_cons, bind_eq_ok, convertClaudeBlock_eq_ok, ih, SourcesGiven,
      forall_mem_cons]
    have hsplit : ∀ p : ClaudeMediaMessage V → Bool, (b :: bs).filter p = [b].filter p ++ bs.filter p :=
      fun p => filter_append [b] bs
    constructor
    · rintro ⟨_, ⟨hb, rfl⟩, hbs, rfl⟩
      refine ⟨⟨hb, hbs⟩, ?_⟩
      simp [hsplit]
    · rintro ⟨⟨hb, hbs⟩, rfl⟩
      refine ⟨_, ⟨hb, rfl⟩, hbs, ?_⟩
      simp [hsplit]

/-! ## The messages of a message -/

/-- What a message is itself, behind its tool messages. -/
def ClaudeMessage.own (env : ClaudeRequestEnv V) (m : ClaudeMessage V) : Option (ChatMessage V) :=
  match m.content with
  | .string text => some { role := m.role, content := .string text }
  | _ => ownMessage m.role
    { toolCalls := m.calls env, mediaMessages := (m.blocks env).flatMap mediaOf }

/-- The messages that are made of a message. -/
def ClaudeMessage.sent (env : ClaudeRequestEnv V) (request : ClaudeRequest V) (m : ClaudeMessage V) :
    List (ChatMessage V) :=
  ((m.blocks env).filter (·.type = "tool_result")).map (oaiToolMessage env request) ++
    (m.own env).toList

/-- The content of a message can be read, and its images have a source. -/
def ClaudeMessage.Convertible (env : ClaudeRequestEnv V) (m : ClaudeMessage V) : Prop :=
  match m.content with
  | .string _ => True
  | _ => ∃ blocks, m.parseContent env = .ok blocks ∧ SourcesGiven blocks

variable {m : ClaudeMessage V}

theorem ClaudeMessage.blocks_of_string {text : String} (h : m.content = .string text) :
    m.blocks env = [] := by
  simp [blocks, parseContent, h, throw, throwThe, MonadExceptOf.throw]

theorem ClaudeMessage.blocks_of_ok {blocks : List (ClaudeMediaMessage V)}
    (h : m.parseContent env = .ok blocks) : m.blocks env = blocks := by
  unfold ClaudeMessage.blocks
  rw [h]

variable {messages : List (ChatMessage V)}

/-- A message is converted when it can be. -/
theorem convertClaudeMessage_eq_ok :
    convertClaudeMessage env request m = .ok messages ↔
      m.Convertible env ∧ messages = m.sent env request := by
  have hread (hcontent : ∀ text, m.content ≠ .string text) :
      (do
        let contents ← m.parseContent env
        let s ← contents.foldlM (convertClaudeBlock env request) {}
        pure (s.openAIMessages ++ (ownMessage m.role s).toList)) = Except.ok messages ↔
      (∃ blocks, m.parseContent env = .ok blocks ∧ SourcesGiven blocks) ∧
        messages = m.sent env request := by
    have hown : m.own env = ownMessage m.role
        { toolCalls := m.calls env, mediaMessages := (m.blocks env).flatMap mediaOf } := by
      unfold ClaudeMessage.own
      split
      · next text htext => exact absurd htext (hcontent text)
      · rfl
    simp only [ok_iff, foldlM_convertClaudeBlock, nil_append]
    constructor
    · rintro ⟨blocks, hparse, _, ⟨hsources, rfl⟩, rfl⟩
      refine ⟨⟨blocks, hparse, hsources⟩, ?_⟩
      rw [ClaudeMessage.sent, hown, ClaudeMessage.calls, ClaudeMessage.blocks_of_ok hparse]
      rfl
    · rintro ⟨⟨blocks, hparse, hsources⟩, rfl⟩
      refine ⟨blocks, hparse, _, ⟨hsources, rfl⟩, ?_⟩
      rw [ClaudeMessage.sent, hown, ClaudeMessage.calls, ClaudeMessage.blocks_of_ok hparse]
      rfl
  unfold convertClaudeMessage ClaudeMessage.Convertible
  cases hcontent : m.content with
  | string text =>
    rw [pure_eq_ok, eq_comm, ClaudeMessage.sent, ClaudeMessage.blocks_of_string hcontent]
    simp [ClaudeMessage.own, hcontent]
  | null => exact hread fun text h => by rw [hcontent] at h; cases h
  | value v => exact hread fun text h => by rw [hcontent] at h; cases h

/-- The messages of a conversation. -/
theorem convertClaudeMessages_eq_ok {ms : List (ClaudeMessage V)} :
    convertClaudeMessages env request ms = .ok messages ↔
      (∀ m ∈ ms, m.Convertible env) ∧ messages = ms.flatMap (ClaudeMessage.sent env request) := by
  induction ms generalizing messages with
  | nil =>
    rw [convertClaudeMessages, pure_eq_ok]
    simp
  | cons m rest ih =>
    simp only [convertClaudeMessages, ok_iff, convertClaudeMessage_eq_ok, ih, forall_mem_cons,
        flatMap_cons]
    constructor
    · rintro ⟨_, ⟨hm, rfl⟩, _, ⟨hrest, rfl⟩, rfl⟩
      exact ⟨⟨hm, hrest⟩, rfl⟩
    · rintro ⟨⟨hm, hrest⟩, rfl⟩
      exact ⟨_, ⟨hm, rfl⟩, _, ⟨hrest, rfl⟩, rfl⟩

/-! ## Texts and calls -/

/-- The texts of the parts are those of the text blocks. -/
theorem filterMap_mediaOf (blocks : List (ClaudeMediaMessage V)) :
    (blocks.flatMap mediaOf).filterMap ChatMediaContent.text?
      = (blocks.filter isText).map getText := by
  induction blocks with
  | nil => rfl
  | cons b bs ih =>
    rw [flatMap_cons, filterMap_append, ih]
    by_cases htext : b.type = "text" ∨ b.type = "input_text"
    · have hb : b.isText = true := by simpa [isText] using htext
      rw [filter_cons_of_pos hb, mediaOf, if_pos htext]
      rfl
    · have hb : ¬ b.isText = true := by simpa [isText] using htext
      rw [filter_cons_of_neg hb, mediaOf, if_neg htext]
      split
      · cases b.source <;> rfl
      · rfl

/-- The texts of what a message is itself: none, if it has tool calls as well. -/
theorem ClaudeMessage.own_texts (env : ClaudeRequestEnv V) (m : ClaudeMessage V) :
    (m.own env).toList.flatMap ChatMessage.texts
      = if m.role = "tool" ∨ m.calls env ≠ [] then [] else m.texts env := by
  have hread (hcontent : ∀ text, m.content ≠ .string text) :
      (ownMessage m.role { toolCalls := m.calls env, mediaMessages := (m.blocks env).flatMap mediaOf }
        ).toList.flatMap ChatMessage.texts
      = if m.role = "tool" ∨ m.calls env ≠ [] then [] else m.texts env := by
    have htexts : m.texts env
        = ((m.blocks env).flatMap mediaOf).filterMap ChatMediaContent.text? := by
      unfold ClaudeMessage.texts
      split
      · next text htext => exact absurd htext (hcontent text)
      · exact (filterMap_mediaOf _).symm
    rw [htexts, ownMessage]
    by_cases hcalls : m.calls env = []
    · by_cases hmedia : (m.blocks env).flatMap mediaOf = []
      · simp [hcalls, hmedia]
      · simp [hcalls, hmedia, ChatMessage.texts]
    · simp [hcalls, ChatMessage.texts]
  unfold ClaudeMessage.own
  cases hcontent : m.content with
  | string text =>
    have hcalls : m.calls env = [] := by
      rw [ClaudeMessage.calls, ClaudeMessage.blocks_of_string hcontent]
      rfl
    simp [hcalls, ClaudeMessage.texts, hcontent, ChatMessage.texts]
  | null => exact hread fun text h => by rw [hcontent] at h; cases h
  | value v => exact hread fun text h => by rw [hcontent] at h; cases h

/-- What a message is itself has its tool calls. -/
theorem ClaudeMessage.own_calls (env : ClaudeRequestEnv V) (m : ClaudeMessage V) :
    (m.own env).toList.flatMap ChatMessage.toolCalls = m.calls env := by
  have hread : (ownMessage m.role
        { toolCalls := m.calls env, mediaMessages := (m.blocks env).flatMap mediaOf }
        ).toList.flatMap ChatMessage.toolCalls = m.calls env := by
    rw [ownMessage]
    by_cases hcalls : m.calls env = []
    · by_cases hmedia : (m.blocks env).flatMap mediaOf = [] <;> simp [hcalls, hmedia]
    · simp [hcalls]
  unfold ClaudeMessage.own
  cases hcontent : m.content with
  | string text =>
    rw [ClaudeMessage.calls, ClaudeMessage.blocks_of_string hcontent]
    rfl
  | null => exact hread
  | value v => exact hread

theorem ClaudeMessage.own_role {o : ChatMessage V} (h : o ∈ m.own env) : o.role = m.role := by
  unfold ClaudeMessage.own ownMessage at h
  split at h
  · cases h
    rfl
  · split_ifs at h <;> cases h <;> rfl

/-- The tool messages of a message have no texts and no calls. -/
theorem ClaudeMessage.sent_texts (env : ClaudeRequestEnv V) (request : ClaudeRequest V)
    (m : ClaudeMessage V) :
    (m.sent env request).flatMap ChatMessage.texts
      = if m.role = "tool" ∨ m.calls env ≠ [] then [] else m.texts env := by
  have htools : ((((m.blocks env).filter (·.type = "tool_result")).map (oaiToolMessage env request)
      ).flatMap ChatMessage.texts) = [] := by
    refine flatMap_eq_nil_iff.mpr fun t ht => ?_
    obtain ⟨b, -, rfl⟩ := List.mem_map.mp ht
    rfl
  rw [ClaudeMessage.sent, flatMap_append, htools, nil_append, ClaudeMessage.own_texts]

theorem ClaudeMessage.sent_calls (env : ClaudeRequestEnv V) (request : ClaudeRequest V)
    (m : ClaudeMessage V) :
    (m.sent env request).flatMap ChatMessage.toolCalls = m.calls env := by
  have htools : ((((m.blocks env).filter (·.type = "tool_result")).map (oaiToolMessage env request)
      ).flatMap ChatMessage.toolCalls) = [] := by
    refine flatMap_eq_nil_iff.mpr fun t ht => ?_
    obtain ⟨b, -, rfl⟩ := List.mem_map.mp ht
    rfl
  rw [ClaudeMessage.sent, flatMap_append, htools, nil_append, ClaudeMessage.own_calls]

/-! ## Results -/

/-- The content of a result can be read: it is nothing, a text or a list of blocks. -/
def ClaudeMediaMessage.Readable (env : ClaudeRequestEnv V) (b : ClaudeMediaMessage V) : Prop :=
  match b.content with
  | .value v => ∃ blocks, env.parseMedia v = .ok blocks
  | _ => True

/-- A tool message has the content of a result that can be read. -/
theorem carriesResult_toolResultText {b : ClaudeMediaMessage V} :
    CarriesResult env b (.string (toolResultText env b)) ↔ b.Readable env := by
  unfold CarriesResult Readable toolResultText
  cases b.content with
  | null => exact Iff.rfl
  | string text => exact iff_of_true rfl trivial
  | value v =>
    cases hparse : env.parseMedia v with
    | ok blocks => simp [hparse]
    | error e => simp [hparse]

theorem askedIn_append {messages' : List (ChatMessage V)} {id : String} :
    AskedIn (messages ++ messages') id ↔ AskedIn messages id ∨ AskedIn messages' id := by
  simp [AskedIn, or_and_right, exists_or]

/-- Tool messages ask for nothing. -/
theorem not_askedIn_tools (env : ClaudeRequestEnv V) (request : ClaudeRequest V)
    (results : List (ClaudeMediaMessage V)) (id : String) :
    ¬ AskedIn (results.map (oaiToolMessage env request)) id := by
  rintro ⟨m, hm, -, call, hcall, -⟩
  obtain ⟨b, -, rfl⟩ := List.mem_map.mp hm
  cases hcall

/-- **The results of one message**: its tool messages stand together, before its own calls. -/
theorem forall₂_returned_blocks_iff (env : ClaudeRequestEnv V) (request : ClaudeRequest V)
    (blocks earlier : List (ClaudeMediaMessage V)) (before : List (ChatMessage V)) :
    List.Forall₂ (Returned env) (resultsOf earlier blocks)
        (withEarlier before
          ((blocks.filter (·.type = "tool_result")).map (oaiToolMessage env request))) ↔
      ∀ result ∈ resultsOf earlier blocks, result.2.Readable env ∧
        (CalledIn result.1 result.2.toolUseId → AskedIn before result.2.toolUseId) := by
  induction blocks generalizing earlier before with
  | nil => simp [resultsOf, withEarlier]
  | cons b bs ih =>
    by_cases hb : b.type = "tool_result"
    · have hresults : resultsOf earlier (b :: bs) = (earlier, b) :: resultsOf (earlier ++ [b]) bs := by
        rw [resultsOf, withEarlier, filter_cons_of_pos (by simpa using hb)]
        rfl
      have hpair : Returned env (earlier, b) (before, oaiToolMessage env request b) ↔
          b.Readable env ∧ (CalledIn earlier b.toolUseId → AskedIn before b.toolUseId) := by
        rw [← carriesResult_toolResultText]
        exact ⟨fun h => ⟨h.content, h.asked⟩, fun h => ⟨rfl, h.1, h.2⟩⟩
      rw [hresults, filter_cons_of_pos (by simpa using hb), map_cons, withEarlier,
          forall₂_cons, hpair, ih]
      -- the tool message in between asks for nothing
      have hbefore : ∀ id, AskedIn (before ++ [oaiToolMessage env request b]) id ↔ AskedIn before id := by
        intro id
        rw [askedIn_append]
        exact or_iff_left (not_askedIn_tools env request [b] id)
      simp [hbefore]
    · have hresults : resultsOf earlier (b :: bs) = resultsOf (earlier ++ [b]) bs := by
        rw [resultsOf, withEarlier, filter_cons_of_neg (by simpa using hb)]
        rfl
      rw [hresults, filter_cons_of_neg (by simpa using hb), ih]

/-- A message asks for what its blocks call, if it is one of the assistant. -/
theorem askedIn_sent_iff (env : ClaudeRequestEnv V) (request : ClaudeRequest V) (m : ClaudeMessage V)
    (id : String) :
    AskedIn (m.sent env request) id ↔ m.role = "assistant" ∧ CalledIn (m.blocks env) id := by
  have hcalls : (∃ call ∈ m.calls env, call.id = id) ↔ CalledIn (m.blocks env) id := by
    constructor
    · rintro ⟨call, hcall, rfl⟩
      obtain ⟨b, hb, rfl⟩ := List.mem_map.mp hcall
      obtain ⟨hmem, htype⟩ := mem_filter.mp hb
      exact ⟨b, hmem, of_decide_eq_true htype, rfl⟩
    · rintro ⟨b, hb, htype, rfl⟩
      exact ⟨_, List.mem_map_of_mem (mem_filter.mpr ⟨hb, decide_eq_true htype⟩), rfl⟩
  rw [ClaudeMessage.sent, askedIn_append, or_iff_right (not_askedIn_tools env request _ id), ← hcalls,
    ← m.own_calls env]
  constructor
  · rintro ⟨o, ho, hrole, call, hcall, hid⟩
    exact ⟨(ClaudeMessage.own_role (mem_toList.mp ho)).symm.trans hrole, call,
      mem_flatMap.mpr ⟨o, ho, hcall⟩, hid⟩
  · rintro ⟨hrole, call, hcall, hid⟩
    obtain ⟨o, ho, hcall⟩ := mem_flatMap.mp hcall
    exact ⟨o, ho, (ClaudeMessage.own_role (mem_toList.mp ho)).trans hrole, call, hcall, hid⟩

theorem askedIn_flatMap_sent_iff (env : ClaudeRequestEnv V) (request : ClaudeRequest V)
    (ms : List (ClaudeMessage V)) (id : String) :
    AskedIn (ms.flatMap (ClaudeMessage.sent env request)) id ↔
      ∃ m ∈ ms, m.role = "assistant" ∧ CalledIn (m.blocks env) id := by
  induction ms with
  | nil => simp [AskedIn]
  | cons m rest ih =>
    rw [flatMap_cons, askedIn_append, askedIn_sent_iff, ih]
    simp

theorem resultsOf_append (earlier blocks blocks' : List (ClaudeMediaMessage V)) :
    resultsOf earlier (blocks ++ blocks')
      = resultsOf earlier blocks ++ resultsOf (earlier ++ blocks) blocks' := by
  rw [resultsOf, withEarlier_append, filter_append]
  rfl

theorem toolMessagesOf_append (earlier messages messages' : List (ChatMessage V)) :
    toolMessagesOf earlier (messages ++ messages')
      = toolMessagesOf earlier messages ++ toolMessagesOf (earlier ++ messages) messages' := by
  rw [toolMessagesOf, withEarlier_append, filter_append]
  rfl

theorem toolMessagesOf_tools {earlier tools : List (ChatMessage V)} (h : ∀ t ∈ tools, t.role = "tool") :
    toolMessagesOf earlier tools = withEarlier earlier tools :=
  filter_eq_self.mpr fun _ he => decide_eq_true (h _ (mem_of_mem_withEarlier he))

theorem toolMessagesOf_none {earlier others : List (ChatMessage V)} (h : ∀ t ∈ others, t.role ≠ "tool") :
    toolMessagesOf earlier others = [] :=
  filter_eq_nil_iff.mpr fun _ he htool => h _ (mem_of_mem_withEarlier he) (of_decide_eq_true htool)

/-- The tool messages of a message, if it is none itself. -/
theorem toolMessagesOf_sent (env : ClaudeRequestEnv V) (request : ClaudeRequest V)
    (hown : m.role = "tool" → m.own env = none) (earlier : List (ChatMessage V)) :
    toolMessagesOf earlier (m.sent env request)
      = withEarlier earlier
        (((m.blocks env).filter (·.type = "tool_result")).map (oaiToolMessage env request)) := by
  have htools : ∀ t ∈ ((m.blocks env).filter (·.type = "tool_result")).map (oaiToolMessage env request),
      t.role = "tool" := by
    intro t ht
    obtain ⟨b, -, rfl⟩ := List.mem_map.mp ht
    rfl
  have hothers : ∀ t ∈ (m.own env).toList, t.role ≠ "tool" := by
    intro t ht hrole
    have hmem := mem_toList.mp ht
    rw [hown ((ClaudeMessage.own_role hmem).symm.trans hrole)] at hmem
    cases hmem
  rw [ClaudeMessage.sent, toolMessagesOf_append, toolMessagesOf_tools htools,
    toolMessagesOf_none hothers, append_nil]

/-- A result of a message, with the blocks before it, can be read, and if it was called, then by a message
of the assistant before its own. -/
def ResultFits (env : ClaudeRequestEnv V) (before : List (ClaudeMessage V))
    (result : List (ClaudeMediaMessage V) × ClaudeMediaMessage V) : Prop :=
  result.2.Readable env ∧ (CalledIn result.1 result.2.toolUseId →
    ∃ m ∈ before, m.role = "assistant" ∧ CalledIn (m.blocks env) result.2.toolUseId)

/-- **The results of a conversation** are returned exactly when each of them fits, as long as no message
but the tool messages has the role of one. -/
theorem forall₂_returned_iff (env : ClaudeRequestEnv V) (request : ClaudeRequest V)
    {system : List (ChatMessage V)} (hsystem : ∀ id, ¬ AskedIn system id)
    (es ms : List (ClaudeMessage V)) (hown : ∀ m ∈ ms, m.role = "tool" → m.own env = none) :
    List.Forall₂ (Returned env)
        (resultsOf (es.flatMap (ClaudeMessage.blocks env)) (ms.flatMap (ClaudeMessage.blocks env)))
        (toolMessagesOf (system ++ es.flatMap (ClaudeMessage.sent env request))
          (ms.flatMap (ClaudeMessage.sent env request))) ↔
      ∀ e ∈ withEarlier es ms, ∀ result ∈ resultsOf (e.1.flatMap (ClaudeMessage.blocks env))
        (e.2.blocks env), ResultFits env e.1 result := by
  induction ms generalizing es with
  | nil => simp [resultsOf, toolMessagesOf, withEarlier]
  | cons m rest ih =>
    obtain ⟨hm, hrest⟩ := forall_mem_cons.mp hown
    have hlater := ih (es ++ [m]) hrest
    rw [flatMap_append, flatMap_append, flatMap_singleton, flatMap_singleton,
      ← append_assoc] at hlater
    have hlen : (resultsOf (es.flatMap (ClaudeMessage.blocks env)) (m.blocks env)).length
        = (withEarlier (system ++ es.flatMap (ClaudeMessage.sent env request))
          (((m.blocks env).filter (·.type = "tool_result")).map (oaiToolMessage env request))).length := by
      rw [length_withEarlier, length_map]
      exact length_filter_withEarlier (fun b : ClaudeMediaMessage V => b.type = "tool_result") _ _
    rw [flatMap_cons, flatMap_cons, resultsOf_append, toolMessagesOf_append,
      toolMessagesOf_sent env request hm, forall₂_append_iff hlen, hlater,
      forall₂_returned_blocks_iff, withEarlier, forall_mem_cons]
    refine and_congr_left fun _ => forall_congr' fun result => forall_congr' fun _ => ?_
    -- what was asked before the message is what the messages before it ask
    rw [askedIn_append, or_iff_right (hsystem _), askedIn_flatMap_sent_iff]
    rfl

/-- As many tool messages as results means that no message is taken for a tool message. -/
theorem own_eq_none_of_countP (env : ClaudeRequestEnv V) (request : ClaudeRequest V)
    {ms : List (ClaudeMessage V)}
    (h : (ms.flatMap (ClaudeMessage.sent env request)).countP (·.role = "tool")
      = (ms.flatMap (ClaudeMessage.blocks env)).countP (·.type = "tool_result")) :
    ∀ m ∈ ms, m.role = "tool" → m.own env = none := by
  have hsent : ∀ m : ClaudeMessage V, (m.sent env request).countP (·.role = "tool")
      = (m.blocks env).countP (·.type = "tool_result") +
        (m.own env).toList.countP (·.role = "tool") := by
    intro m
    rw [ClaudeMessage.sent, countP_append, countP_map, countP_eq_length.mpr,
      ← countP_eq_length_filter]
    intro b _
    simp [oaiToolMessage]
  have hle : ∀ ms : List (ClaudeMessage V), (ms.flatMap (ClaudeMessage.blocks env)).countP
        (·.type = "tool_result")
      ≤ (ms.flatMap (ClaudeMessage.sent env request)).countP (·.role = "tool") := by
    intro ms
    induction ms with
    | nil => exact le_rfl
    | cons m rest ih =>
      rw [flatMap_cons, flatMap_cons, countP_append, countP_append, hsent]
      omega
  induction ms with
  | nil => simp
  | cons m rest ih =>
    rw [flatMap_cons, flatMap_cons, countP_append, countP_append, hsent] at h
    have hrest := hle rest
    refine forall_mem_cons.mpr ⟨fun hrole => ?_, ih (by omega)⟩
    cases hown : m.own env with
    | none => rfl
    | some o =>
      have hcount : (m.own env).toList.countP (·.role = "tool") = 1 := by
        rw [hown]
        simp [(ClaudeMessage.own_role (m := m) hown).trans hrole]
      omega

/-! ## Agreement -/

/-- A message says something itself: it is a text, or one of its blocks is a text, an image or a tool
call. -/
def ClaudeMessage.Speaks (env : ClaudeRequestEnv V) (m : ClaudeMessage V) : Prop :=
  (∃ text, m.content = .string text) ∨
    ∃ b ∈ m.blocks env, b.isText = true ∨ b.type = "image" ∨ b.type = "tool_use"

/-- A message that can be converted is a message itself exactly when it says something. -/
theorem ClaudeMessage.own_eq_none_iff (hm : m.Convertible env) :
    m.own env = none ↔ ¬ m.Speaks env := by
  have hread (hcontent : ∀ text, m.content ≠ .string text) (hsources : SourcesGiven (m.blocks env)) :
      ownMessage m.role { toolCalls := m.calls env, mediaMessages := (m.blocks env).flatMap mediaOf }
        = none ↔ ¬ m.Speaks env := by
    have hmedia : (m.blocks env).flatMap mediaOf = [] ↔
        ∀ b ∈ m.blocks env, ¬ (b.isText = true ∨ b.type = "image") := by
      rw [flatMap_eq_nil_iff]
      refine forall_congr' fun b => forall_congr' fun hb => ?_
      unfold mediaOf isText
      by_cases htext : b.type = "text" ∨ b.type = "input_text"
      · simp [htext]
      · by_cases himage : b.type = "image"
        · obtain ⟨source, hsource⟩ := isSome_iff_exists.mp (hsources b hb himage)
          simp [himage, hsource]
        · simp [himage]
    have hcalls : m.calls env = [] ↔ ∀ b ∈ m.blocks env, ¬ b.type = "tool_use" := by
      simp [ClaudeMessage.calls]
    have hnone : ownMessage m.role
          { toolCalls := m.calls env, mediaMessages := (m.blocks env).flatMap mediaOf } = none ↔
        m.calls env = [] ∧ (m.blocks env).flatMap mediaOf = [] := by
      unfold ownMessage
      by_cases h1 : m.calls env = [] <;> by_cases h2 : (m.blocks env).flatMap mediaOf = [] <;>
        simp [h1, h2]
    rw [hnone, hcalls, hmedia, ClaudeMessage.Speaks, not_or, not_exists, and_iff_right hcontent]
    constructor
    · rintro ⟨huse, hother⟩ ⟨b, hb, htext | himage | hcall⟩
      · exact hother b hb (.inl htext)
      · exact hother b hb (.inr himage)
      · exact huse b hb hcall
    · intro h
      exact ⟨fun b hb hcall => h ⟨b, hb, .inr (.inr hcall)⟩,
        fun b hb hmedia => h ⟨b, hb, hmedia.elim .inl fun himage => .inr (.inl himage)⟩⟩
  unfold ClaudeMessage.Convertible at hm
  unfold ClaudeMessage.own
  cases hcontent : m.content with
  | string text => exact iff_of_false nofun (not_not.mpr (.inl ⟨text, hcontent⟩))
  | null =>
    rw [hcontent] at hm
    obtain ⟨blocks, hparse, hsources⟩ := hm
    exact hread (fun text h => by rw [hcontent] at h; cases h)
      (ClaudeMessage.blocks_of_ok hparse ▸ hsources)
  | value v =>
    rw [hcontent] at hm
    obtain ⟨blocks, hparse, hsources⟩ := hm
    exact hread (fun text h => by rw [hcontent] at h; cases h)
      (ClaudeMessage.blocks_of_ok hparse ▸ hsources)

/-- A message with texts says something. -/
theorem ClaudeMessage.speaks_of_texts (h : m.texts env ≠ []) : m.Speaks env := by
  unfold ClaudeMessage.texts at h
  split at h
  · next text htext => exact .inl ⟨text, htext⟩
  · rw [ne_eq, map_eq_nil_iff, filter_eq_nil_iff, not_forall] at h
    obtain ⟨b, hb⟩ := h
    obtain ⟨hmem, htext⟩ := Classical.not_imp.mp hb
    exact .inr ⟨b, hmem, .inl (not_not.mp htext)⟩

/-- The system message asks for nothing and is no tool message. -/
theorem claudeSystemMessage_role {info : ClaudeRelayInfo} {m : ChatMessage V}
    (h : m ∈ claudeSystemMessage env info request) : m.role = "system" ∧ m.toolCalls = [] := by
  unfold claudeSystemMessage at h
  split at h
  · cases h
  · split_ifs at h
    · cases h
      exact ⟨rfl, rfl⟩
    · cases h
  · split at h
    · cases h
    · split_ifs at h <;> cases h <;> exact ⟨rfl, rfl⟩

/-- The texts are kept exactly when messages with texts are no tool messages and call no tools. -/
theorem texts_kept_iff (env : ClaudeRequestEnv V) (request : ClaudeRequest V)
    (ms : List (ClaudeMessage V)) :
    ms.flatMap (fun m => (m.sent env request).flatMap ChatMessage.texts)
        = ms.flatMap (ClaudeMessage.texts env) ↔
      ∀ m ∈ ms, m.texts env ≠ [] → m.role ≠ "tool" ∧ m.calls env = [] := by
  rw [flatMap_eq_flatMap_iff]
  · refine forall_congr' fun m => forall_congr' fun _ => ?_
    rw [ClaudeMessage.sent_texts]
    by_cases hlost : m.role = "tool" ∨ m.calls env ≠ []
    · rw [if_pos hlost, eq_comm]
      refine ⟨fun h hne => absurd h hne, fun h => ?_⟩
      by_contra hne
      obtain ⟨hrole, hcalls⟩ := h hne
      exact hlost.elim hrole fun h => h hcalls
    · rw [if_neg hlost]
      obtain ⟨hrole, hcalls⟩ := not_or.mp hlost
      exact iff_of_true rfl fun _ => ⟨hrole, not_not.mp hcalls⟩
  · intro m _
    rw [ClaudeMessage.sent_texts]
    split_ifs
    · exact nil_sublist _
    · exact .refl _

/-- **What a converted request keeps.** It is converted and keeps its conversation exactly when every
content can be read and every image has a source, no message has texts and tool calls, no message that
says something has the role of a tool message, and every result fits. -/
theorem claude_request_kept_iff (env : ClaudeRequestEnv V) (info : ClaudeRelayInfo)
    (request : ClaudeRequest V) :
    (∃ r, claudeToOpenAIRequest env info request = .ok r ∧
      ConversationKept env info request r.messages) ↔
    (∀ m ∈ request.messages, m.Convertible env) ∧
    (∀ m ∈ request.messages, m.texts env ≠ [] → m.calls env = []) ∧
    (∀ m ∈ request.messages, m.role = "tool" → ¬ m.Speaks env) ∧
    ∀ e ∈ withEarlier [] request.messages,
      ∀ result ∈ resultsOf (e.1.flatMap (ClaudeMessage.blocks env)) (e.2.blocks env),
        ResultFits env e.1 result := by
  generalize hsystem : (claudeSystemMessage env info request).toList = system
  have hrole : ∀ m ∈ system, m.role = "system" ∧ m.toolCalls = [] := by
    intro m hm
    rw [← hsystem] at hm
    exact claudeSystemMessage_role (mem_toList.mp hm)
  have hasked : ∀ id, ¬ AskedIn system id := by
    rintro id ⟨m, hm, -, call, hcall, -⟩
    rw [(hrole m hm).2] at hcall
    cases hcall
  have htool : ∀ m ∈ system, m.role ≠ "tool" := by
    intro m hm h
    rw [(hrole m hm).1] at h
    revert h
    decide
  have hkept : ConversationKept env info request
        (system ++ request.messages.flatMap (ClaudeMessage.sent env request)) ↔
      (∀ m ∈ request.messages, m.texts env ≠ [] → m.role ≠ "tool" ∧ m.calls env = []) ∧
      List.Forall₂ (Returned env)
        (resultsOf [] (request.messages.flatMap (ClaudeMessage.blocks env)))
        (toolMessagesOf system (request.messages.flatMap (ClaudeMessage.sent env request))) := by
    have htexts : (system ++ request.messages.flatMap (ClaudeMessage.sent env request)).flatMap
          ChatMessage.texts = (claudeSystemMessage env info request).toList.flatMap ChatMessage.texts ++
            request.messages.flatMap (ClaudeMessage.texts env) ↔
        ∀ m ∈ request.messages, m.texts env ≠ [] → m.role ≠ "tool" ∧ m.calls env = [] := by
      rw [hsystem, flatMap_append, append_cancel_left_eq, flatMap_assoc, texts_kept_iff]
    have hcalls : (system ++ request.messages.flatMap (ClaudeMessage.sent env request)).flatMap
        ChatMessage.toolCalls = request.messages.flatMap (ClaudeMessage.calls env) := by
      have hnone : system.flatMap ChatMessage.toolCalls = [] :=
        flatMap_eq_nil_iff.mpr fun m hm => (hrole m hm).2
      rw [flatMap_append, hnone, flatMap_assoc]
      exact congrArg (request.messages.flatMap ·) (funext fun m => m.sent_calls env request)
    have hresults : toolMessagesOf []
          (system ++ request.messages.flatMap (ClaudeMessage.sent env request))
        = toolMessagesOf system (request.messages.flatMap (ClaudeMessage.sent env request)) := by
      rw [toolMessagesOf_append, toolMessagesOf_none htool]
      rfl
    rw [← htexts, ← hresults]
    exact ⟨fun h => ⟨h.texts, h.results⟩, fun h => ⟨h.1, hcalls, h.2⟩⟩
  have hfit (hown : ∀ m ∈ request.messages, m.role = "tool" → m.own env = none) :=
    forall₂_returned_iff env request hasked [] request.messages hown
  simp only [flatMap_nil, append_nil] at hfit
  constructor
  · rintro ⟨r, hr, hr'⟩
    simp only [claudeToOpenAIRequest, ok_iff, convertClaudeMessages_eq_ok] at hr
    obtain ⟨_, ⟨hconvertible, rfl⟩, rfl⟩ := hr
    rw [hsystem, hkept] at hr'
    obtain ⟨htexts, hresults⟩ := hr'
    have hown : ∀ m ∈ request.messages, m.role = "tool" → m.own env = none := by
      refine own_eq_none_of_countP env request ?_
      have hlen := hresults.length_eq
      rw [resultsOf, length_filter_withEarlier (fun b : ClaudeMediaMessage V => b.type = "tool_result"),
        toolMessagesOf, length_filter_withEarlier (fun m : ChatMessage V => m.role = "tool"),
        ← countP_eq_length_filter, ← countP_eq_length_filter] at hlen
      exact hlen.symm
    refine ⟨hconvertible, fun m hm hne => (htexts m hm hne).2, fun m hm hmrole => ?_,
      (hfit hown).mp hresults⟩
    exact (ClaudeMessage.own_eq_none_iff (hconvertible m hm)).mp (hown m hm hmrole)
  · rintro ⟨hconvertible, hcalls, hspeaks, hresults⟩
    have hown : ∀ m ∈ request.messages, m.role = "tool" → m.own env = none := fun m hm hmrole =>
      (ClaudeMessage.own_eq_none_iff (hconvertible m hm)).mpr (hspeaks m hm hmrole)
    refine ⟨_, bind_eq_ok.mpr ⟨_, convertClaudeMessages_eq_ok.mpr ⟨hconvertible, rfl⟩, rfl⟩, ?_⟩
    rw [hsystem, hkept]
    exact ⟨fun m hm hne => ⟨fun hmrole => hspeaks m hm hmrole (ClaudeMessage.speaks_of_texts hne),
      hcalls m hm hne⟩, (hfit hown).mpr hresults⟩

end ClaudeRequest

/-! ## A text beside a tool call -/

/-- The values of the sample: an empty object, and the blocks of one message. -/
inductive SampleValue where
  | emptyObject
  | blocks
  deriving DecidableEq

/-- A text and a call of a tool. -/
def sampleBlocks : List (ClaudeMediaMessage SampleValue) :=
  [.textBlock "Let me look.", .toolUseBlock "toolu_1" "now" .emptyObject]

/-- The JSON text of a sample value. -/
def SampleValue.json : SampleValue → String
  | .emptyObject => "\x7b\x7d"
  | .blocks => "[\x7b\"type\":\"text\",\"text\":\"Let me look.\"\x7d,\x7b\"type\":\"tool_use\"," ++
      "\"id\":\"toolu_1\",\"name\":\"now\",\"input\":\x7b\x7d\x7d]"

/-- The encoding of the sample values. -/
def sampleCodec : JsonCodec SampleValue where
  encode := SampleValue.json
  decode text :=
    if text = SampleValue.emptyObject.json then some .emptyObject
    else if text = SampleValue.blocks.json then some .blocks
    else none
  decode_encode v := by cases v <;> decide

/-- The decoding of the sample values: an object is no list. -/
def sampleClaudeEnv : ClaudeRequestEnv SampleValue where
  codec := sampleCodec
  parseMedia
    | .emptyObject => .error "json: cannot unmarshal object"
    | .blocks => .ok sampleBlocks
  marshalMedia blocks := if blocks = sampleBlocks then SampleValue.blocks.json else "[]"
  parseTools _ := .ok []

/-- A question, and an answer with a text and a call. -/
def sampleClaudeRequest : ClaudeRequest SampleValue where
  messages := [⟨"user", .string "What time is it?"⟩, ⟨"assistant", .value .blocks⟩]

/-- The text beside the tool call is not in any message. -/
theorem claude_text_beside_call_lost :
    (claudeToOpenAIRequest sampleClaudeEnv {} sampleClaudeRequest).map ChatRequest.messages = .ok
      [{ role := "user", content := .string "What time is it?" },
        { role := "assistant", toolCalls := [⟨"toolu_1", "now", "\x7b\x7d"⟩] }] ∧
    ¬ ∃ r, claudeToOpenAIRequest sampleClaudeEnv {} sampleClaudeRequest = .ok r ∧
      ConversationKept sampleClaudeEnv {} sampleClaudeRequest r.messages := by
  have hmessages : (claudeToOpenAIRequest sampleClaudeEnv {} sampleClaudeRequest).map
      ChatRequest.messages = .ok [{ role := "user", content := .string "What time is it?" },
        { role := "assistant", toolCalls := [⟨"toolu_1", "now", "\x7b\x7d"⟩] }] := by
    decide
  refine ⟨hmessages, ?_⟩
  rintro ⟨r, hr, hkept⟩
  rw [hr] at hmessages
  have htexts := hkept.texts
  rw [Except.ok.inj hmessages] at htexts
  revert htexts
  decide

end Prox
