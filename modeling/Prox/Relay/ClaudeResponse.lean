import Mathlib.Data.List.Forall2
import Prox.Relay.ClaudeMessage
import Prox.Relay.ResponsesChat

/-! # A Claude response as a chat completion

The embedding of `ResponseClaude2OpenAI` and `StreamResponseClaude2OpenAI` in
`relay/channel/claude/relay-claude.go`. The first reads the blocks of a response in a loop that keeps one
text and one thinking, the last it sees; the second turns every event of the stream into a chunk. The
main result says for which responses a client gets the same message from both. The ids and times of the
chunks, which their handler writes, and the role of the first delta are left out. -/

namespace Prox

open ClaudeMediaMessage List Option

variable {i : Nat}

section ClaudeResponse

variable {V : Type}

/-! ## The conversions -/

/-- The finish reason for a stop reason. -/
def stopReasonClaude2OpenAI (reason : String) : String :=
  let lower := toLowerAscii reason
  if lower = "stop_sequence" then "stop"
  else if lower = "end_turn" then "stop"
  else if lower = "max_tokens" then "length"
  else if lower = "tool_use" then "tool_calls"
  else if lower = "refusal" then "content_filter"
  else reason

/-- `ClaudeResponse` as the answer to a request. -/
structure ClaudeResponse (V : Type) where
  id : String := ""
  model : String := ""
  content : List (ClaudeMediaMessage V)
  stopReason : String

/-- `OpenAITextResponse` with its one choice. -/
structure OpenAITextResponse where
  id : String
  model : String
  role : String
  content : String
  reasoningContent : Option String
  toolCalls : List ChatToolCall
  finishReason : String

/-- The variables of the loop over the blocks. -/
structure ClaudeBlockState where
  responseText : String := ""
  thinkingContent : String := ""
  tools : List ChatToolCall := []

/-- One block: a later text replaces the text, a later thinking the thinking. -/
def readClaudeBlock (codec : JsonCodec V) (s : ClaudeBlockState)
    (message : ClaudeMediaMessage V) : ClaudeBlockState :=
  if message.type = "tool_use" then
    { s with tools := s.tools ++
        [{ id := message.id, name := message.name, arguments := codec.marshal message.input }] }
  else if message.type = "thinking" then
    { s with thinkingContent := message.thinking.getD s.thinkingContent }
  else if message.type = "text" then { s with responseText := message.getText }
  else s

/-- `ResponseClaude2OpenAI`. The first block gives the first values of text and reasoning, whatever its
type. -/
def responseClaude2OpenAI (codec : JsonCodec V) (r : ClaudeResponse V) : OpenAITextResponse :=
  let responseText := (r.content.head?.map ClaudeMediaMessage.getText).getD ""
  let responseThinking := (r.content.head?.bind ClaudeMediaMessage.thinking).getD ""
  let s := r.content.foldl (readClaudeBlock codec) { responseText }
  { id := r.id, model := r.model, role := "assistant", content := s.responseText
    reasoningContent :=
      if s.thinkingContent ≠ "" then some s.thinkingContent
      else if 0 < byteLen responseThinking then some responseThinking
      else none
    toolCalls := s.tools
    finishReason := stopReasonClaude2OpenAI r.stopReason }

/-- The type of an event. -/
inductive ClaudeEventType where
  | messageStart
  | contentBlockStart
  | contentBlockDelta
  | contentBlockStop
  | messageDelta
  | messageStop
  | ping
  | other
  deriving DecidableEq

/-- `ClaudeResponse` as an event of a stream. -/
structure ClaudeStreamResponse (V : Type) where
  type : ClaudeEventType
  model : String := ""
  index : Option Int := none
  message : Option (ClaudeMediaMessage V) := none
  contentBlock : Option (ClaudeMediaMessage V) := none
  delta : Option (ClaudeMediaMessage V) := none

/-- The delta of the choice for a `content_block_start`. -/
def startDelta (fcIdx : Int) (contentBlock : ClaudeMediaMessage V) : ChoiceDelta :=
  if contentBlock.type = "tool_use" then
    { toolCalls := [{ index := some fcIdx, id := contentBlock.id, name := contentBlock.name
                      arguments := "" }] }
  else if contentBlock.type = "text" then { content := contentBlock.text }
  else {}

/-- The delta of the choice for a `content_block_delta`. A delta of arguments without a text of its own
is dereferenced all the same. -/
def contentDelta (fcIdx : Int) (delta : ClaudeMediaMessage V) : Except String ChoiceDelta :=
  if delta.type = "input_json_delta" then
    match delta.partialJson with
    | none => throw "nil pointer dereference"
    | some arguments =>
      return { toolCalls := [{ index := some fcIdx, id := "", name := "", arguments }] }
  else if delta.type = "signature_delta" then
    return { content := delta.text, reasoningContent := some "\n" }
  else if delta.type = "thinking_delta" then
    return { content := delta.text, reasoningContent := delta.thinking }
  else return { content := delta.text }

/-- `StreamResponseClaude2OpenAI`: the chunk for an event, if there is one. -/
def streamResponseClaude2OpenAI (claudeResponse : ClaudeStreamResponse V) :
    Except String (Option ChatChunk) :=
  let fcIdx := claudeResponse.index.getD 0
  let chunk (delta : ChoiceDelta) (finishReason : Option String) : ChatChunk :=
    { model := claudeResponse.model, choices := [{ delta, finishReason }] }
  match claudeResponse.type with
  | .messageStart =>
    return some { chunk { content := some "" } none with
      id := (claudeResponse.message.map ClaudeMediaMessage.id).getD ""
      model := (claudeResponse.message.map ClaudeMediaMessage.model).getD claudeResponse.model }
  | .contentBlockStart =>
    return claudeResponse.contentBlock.map fun b => chunk (startDelta fcIdx b) none
  | .contentBlockDelta =>
    match claudeResponse.delta with
    | none => return some (chunk {} none)
    | some d => do
      let delta ← contentDelta fcIdx d
      return some (chunk delta none)
  | .messageDelta =>
    let finishReason := (claudeResponse.delta.bind ClaudeMediaMessage.stopReason).map
      stopReasonClaude2OpenAI
    return some (chunk {} (finishReason.filter (· ≠ "null")))
  | .contentBlockStop => return none
  | .messageStop => return none
  | .ping => return none
  | .other => return none

/-- The chunks for the events of a stream. -/
def streamChunks : List (ClaudeStreamResponse V) → Except String (List ChatChunk)
  | [] => return []
  | e :: es => do
    let chunk ← streamResponseClaude2OpenAI e
    let chunks ← streamChunks es
    return chunk.toList ++ chunks

/-! ## The stream of a response -/

/-- The blocks of the responses in question. -/
inductive ClaudeMediaMessage.Plain : ClaudeMediaMessage V → Prop
  | text (text : String) : (textBlock text).Plain
  | thinking (thinking : String) : (thinkingBlock thinking).Plain
  | toolUse (id name : String) (input : V) : (toolUseBlock id name input).Plain

/-- The start of the block at an index. -/
def ClaudeStreamResponse.start (i : Nat) (b : ClaudeMediaMessage V) : ClaudeStreamResponse V :=
  { type := .contentBlockStart, index := some (i : Int), contentBlock := some b }

/-- A delta of the block at an index. -/
def ClaudeStreamResponse.piece (i : Nat) (d : ClaudeMediaMessage V) : ClaudeStreamResponse V :=
  { type := .contentBlockDelta, index := some (i : Int), delta := some d }

/-- The end of the block at an index. -/
def ClaudeStreamResponse.stop (i : Nat) : ClaudeStreamResponse V :=
  { type := .contentBlockStop, index := some (i : Int) }

/-- The delta with a piece of text. -/
def textDelta (text : String) : ClaudeMediaMessage V := { type := "text_delta", text := some text }

/-- The delta with a piece of reasoning. -/
def thinkingDelta (thinking : String) : ClaudeMediaMessage V :=
  { type := "thinking_delta", thinking := some thinking }

/-- The delta with a signature, which is encrypted and not looked at. -/
def signatureDelta : ClaudeMediaMessage V := { type := "signature_delta" }

/-- The delta with a piece of the arguments. -/
def inputJsonDelta (partialJson : String) : ClaudeMediaMessage V :=
  { type := "input_json_delta", partialJson := some partialJson }

/-- The events of the block at an index: its start, its text, reasoning or arguments in pieces, and its
end. Of a text the start may have the first piece; reasoning may be followed by signatures. -/
inductive BlockStream (codec : JsonCodec V) (i : Nat) :
    ClaudeMediaMessage V → List (ClaudeStreamResponse V) → Prop
  | text (first : String) (pieces : List String) :
    BlockStream codec i (.textBlock (first ++ concat pieces))
      (.start i (.textBlock first) :: pieces.map (fun t => .piece i (textDelta t)) ++ [.stop i])
  | thinking (pieces : List String) (signatures : Nat) :
    BlockStream codec i (.thinkingBlock (concat pieces))
      (.start i (.thinkingBlock "") :: pieces.map (fun t => .piece i (thinkingDelta t)) ++
        List.replicate signatures (.piece i signatureDelta) ++ [.stop i])
  | toolUse (id name : String) (input empty : V) (pieces : List String)
    (harguments : codec.decode (concat pieces) = some input) :
    BlockStream codec i (.toolUseBlock id name input)
      (.start i (.toolUseBlock id name empty) :: pieces.map (fun t => .piece i (inputJsonDelta t)) ++
        [.stop i])

/-- The events of the blocks from an index on, one block after the other. -/
inductive BlocksStream (codec : JsonCodec V) :
    Nat → List (ClaudeMediaMessage V) → List (ClaudeStreamResponse V) → Prop
  | nil (i : Nat) : BlocksStream codec i [] []
  | cons {i : Nat} {b : ClaudeMediaMessage V} {bs : List (ClaudeMediaMessage V)}
    {es es' : List (ClaudeStreamResponse V)} (hb : BlockStream codec i b es)
    (hbs : BlocksStream codec (i + 1) bs es') : BlocksStream codec i (b :: bs) (es ++ es')

/-- The events are a stream of the response: the start, the blocks, the stop reason and the end, with
pings anywhere. A response without a stop reason has none in its stream. -/
def StreamOf (codec : JsonCodec V) (r : ClaudeResponse V) (events : List (ClaudeStreamResponse V)) :
    Prop :=
  ∃ body stopReason, BlocksStream codec 0 r.content body ∧ Option.getD stopReason "" = r.stopReason ∧
    events.filter (fun e => e.type ≠ .ping)
      = { type := .messageStart, message := some { id := r.id, model := r.model } } :: body ++
        [{ type := .messageDelta, delta := some { stopReason } }, { type := .messageStop }]

/-- The event is a delta with a signature. -/
def ClaudeStreamResponse.IsSignature (e : ClaudeStreamResponse V) : Prop :=
  ∃ d ∈ e.delta, d.type = "signature_delta"
  deriving Decidable

/-- Two tool calls are the same with equal arguments. -/
structure ChatToolCall.Same (codec : JsonCodec V) (a b : ChatToolCall) : Prop where
  id_eq : a.id = b.id
  name_eq : a.name = b.name
  arguments : ∃ v, codec.decode a.arguments = some v ∧ codec.decode b.arguments = some v

/-- The message of a response and what a client puts together from the chunks of its stream say the
same: `chunks` are those of the whole stream, `unsigned` those of the stream without its signatures. -/
structure AgreesWith (codec : JsonCodec V) (m : OpenAITextResponse) (chunks unsigned : List ChatChunk) :
    Prop where
  content : m.content = (reassemble chunks).content
  reasoning : m.reasoningContent.getD "" = concat (unsigned.map ChatChunk.reasoning)
  toolCalls : List.Forall₂ (ChatToolCall.Same codec) m.toolCalls (reassemble chunks).toolCalls
  finishReason : m.finishReason = (reassemble chunks).finishReason

/-- The response is converted without a panic, and its stream says the same. -/
def StreamAgrees (codec : JsonCodec V) (r : ClaudeResponse V)
    (events : List (ClaudeStreamResponse V)) : Prop :=
  ∃ chunks unsigned, streamChunks events = .ok chunks ∧
    streamChunks (events.filter fun e => ¬ e.IsSignature) = .ok unsigned ∧
    AgreesWith codec (responseClaude2OpenAI codec r) chunks unsigned

/-! ## The condition -/

/-- The texts of the text blocks. -/
def textsOf (content : List (ClaudeMediaMessage V)) : List String :=
  (content.filter fun b => b.type = "text").map ClaudeMediaMessage.getText

/-- The texts of the thinking blocks. -/
def thinkingsOf (content : List (ClaudeMediaMessage V)) : List String :=
  (content.filter fun b => b.type = "thinking").map fun b => b.thinking.getD ""

/-- The text of a block. -/
def ClaudeMediaMessage.textOf (b : ClaudeMediaMessage V) : String :=
  if b.type = "text" then b.getText else ""

/-- The reasoning of a block. -/
def ClaudeMediaMessage.thinkingOf (b : ClaudeMediaMessage V) : String :=
  if b.type = "thinking" then b.thinking.getD "" else ""

/-- The tool call of a block. -/
def ClaudeMediaMessage.toolCallOf (codec : JsonCodec V) (b : ClaudeMediaMessage V) : List ChatToolCall :=
  if b.type = "tool_use" then [{ id := b.id, name := b.name, arguments := codec.marshal b.input }]
  else []

/-! ## What the response says -/

variable (content : List (ClaudeMediaMessage V))

/-- The texts of the texts, put together. -/
theorem concat_textsOf :
    concat (textsOf content) = concat (content.map ClaudeMediaMessage.textOf) := by
  induction content with
  | nil => rfl
  | cons b bs ih =>
    show _ = b.textOf ++ concat (bs.map ClaudeMediaMessage.textOf)
    rw [← ih, textsOf, filter_cons, ClaudeMediaMessage.textOf]
    by_cases hb : b.type = "text"
    · rw [if_pos hb, if_pos (by simpa using hb)]
      rfl
    · rw [if_neg hb, if_neg (by simpa using hb)]
      rfl

/-- The texts of the reasoning, put together. -/
theorem concat_thinkingsOf :
    concat (thinkingsOf content) = concat (content.map ClaudeMediaMessage.thinkingOf) := by
  induction content with
  | nil => rfl
  | cons b bs ih =>
    show _ = b.thinkingOf ++ concat (bs.map ClaudeMediaMessage.thinkingOf)
    rw [← ih, thinkingsOf, filter_cons, ClaudeMediaMessage.thinkingOf]
    by_cases hb : b.type = "thinking"
    · rw [if_pos hb, if_pos (by simpa using hb)]
      rfl
    · rw [if_neg hb, if_neg (by simpa using hb)]
      rfl

/-- **The loop over the blocks** keeps the last text and the last thinking and collects the calls. -/
theorem foldl_readClaudeBlock (codec : JsonCodec V) {content : List (ClaudeMediaMessage V)}
    (hplain : ∀ b ∈ content, b.Plain) (s : ClaudeBlockState) :
    content.foldl (readClaudeBlock codec) s
      = { responseText := (textsOf content).getLast?.getD s.responseText
          thinkingContent := (thinkingsOf content).getLast?.getD s.thinkingContent
          tools := s.tools ++ content.flatMap (toolCallOf codec) } := by
  induction content generalizing s with
  | nil => simp [textsOf, thinkingsOf]
  | cons b bs ih =>
    obtain ⟨hb, hbs⟩ := forall_mem_cons.mp hplain
    rw [foldl_cons, ih hbs]
    cases hb with
    | text t =>
      simp [textsOf, thinkingsOf, readClaudeBlock, textBlock, toolCallOf, List.getLast?_cons]
    | thinking t =>
      simp [textsOf, thinkingsOf, readClaudeBlock, thinkingBlock, toolCallOf, List.getLast?_cons]
    | toolUse id name input =>
      simp [textsOf, thinkingsOf, readClaudeBlock, toolUseBlock, toolCallOf]

/-! ## What the chunks say -/

/-- The text, the reasoning, the tool deltas and the finish reasons of chunks. -/
structure Tells (chunks : List ChatChunk) (content reasoning : String) (tools : List ToolCallResponse)
    (finish : List String) : Prop where
  content : concat (chunks.map ChatChunk.content) = content
  reasoning : concat (chunks.map ChatChunk.reasoning) = reasoning
  tools : chunks.flatMap ChatChunk.toolDeltas = tools
  finish : (chunks.flatMap ChatChunk.choices).filterMap StreamChoice.finish? = finish

theorem Tells.append {cs cs' : List ChatChunk} {c c' r r' : String} {t t' : List ToolCallResponse}
    {f f' : List String} (h : Tells cs c r t f) (h' : Tells cs' c' r' t' f') :
    Tells (cs ++ cs') (c ++ c') (r ++ r') (t ++ t') (f ++ f') where
  content := by rw [map_append, concat_append, h.content, h'.content]
  reasoning := by rw [map_append, concat_append, h.reasoning, h'.reasoning]
  tools := by rw [flatMap_append, h.tools, h'.tools]
  finish := by rw [flatMap_append, filterMap_append, h.finish, h'.finish]

variable {es : List (ClaudeStreamResponse V)}

/-- The chunks of two streams one after the other. -/
theorem streamChunks_append {es' : List (ClaudeStreamResponse V)} {cs cs' : List ChatChunk}
    (h : streamChunks es = .ok cs) (h' : streamChunks es' = .ok cs') :
    streamChunks (es ++ es') = .ok (cs ++ cs') := by
  induction es generalizing cs with
  | nil =>
    obtain rfl := pure_eq_ok.mp h
    exact h'
  | cons e es ih =>
    simp only [cons_append, streamChunks, ok_iff] at h ⊢
    obtain ⟨c, hc, ds, hds, rfl⟩ := h
    exact ⟨c, hc, ds ++ cs', ih hds, by rw [append_assoc]⟩

theorem streamChunks_filter_ping (es : List (ClaudeStreamResponse V)) :
    streamChunks (es.filter fun e => e.type ≠ .ping) = streamChunks es := by
  induction es with
  | nil => rfl
  | cons e es ih =>
    by_cases he : e.type = .ping
    · rw [filter_cons_of_neg (by simpa using he), ih]
      have hnone : streamResponseClaude2OpenAI e = .ok none := by
        unfold streamResponseClaude2OpenAI
        rw [he]
        rfl
      rw [streamChunks, hnone]
      cases streamChunks es <;> rfl
    · rw [filter_cons_of_pos (by simpa using he), streamChunks, streamChunks, ih]

/-- A chunk with one choice. -/
def choiceChunk (delta : ChoiceDelta) (finishReason : Option String := none) : ChatChunk :=
  { choices := [{ delta, finishReason }] }

/-- The chunks for the pieces of a block. -/
theorem streamChunks_map {f : String → ClaudeStreamResponse V} {g : String → ChoiceDelta}
    (hfg : ∀ t, streamResponseClaude2OpenAI (f t) = .ok (some (choiceChunk (g t))))
    (pieces : List String) :
    streamChunks (pieces.map f) = .ok (pieces.map fun t => choiceChunk (g t)) := by
  induction pieces with
  | nil => rfl
  | cons t ts ih => rw [map_cons, streamChunks, hfg, ih]; rfl

theorem tells_choiceChunk (delta : ChoiceDelta) (finishReason : Option String) :
    Tells [choiceChunk delta finishReason] delta.getContentString delta.getReasoningContent
      delta.toolCalls (finishReason.filter (· ≠ "")).toList := by
  refine ⟨?_, ?_, ?_, ?_⟩
  · simp [choiceChunk, ChatChunk.content, concat]
  · simp [choiceChunk, ChatChunk.reasoning, concat]
  · simp [choiceChunk, ChatChunk.toolDeltas]
  · cases finishReason with
    | none => rfl
    | some reason =>
      by_cases hreason : reason = ""
      · simp [choiceChunk, StreamChoice.finish?, hreason]
      · simp [choiceChunk, StreamChoice.finish?, filter_some, hreason]

/-- The chunks of the pieces of a block say what the pieces say. -/
theorem tells_pieces (g : String → ChoiceDelta) (pieces : List String) :
    Tells (pieces.map fun t => choiceChunk (g t))
      (concat (pieces.map fun t => (g t).getContentString))
      (concat (pieces.map fun t => (g t).getReasoningContent))
      (pieces.flatMap fun t => (g t).toolCalls) [] := by
  induction pieces with
  | nil => exact ⟨rfl, rfl, rfl, rfl⟩
  | cons t ts ih => exact (tells_choiceChunk (g t) none).append ih

/-- A client adds the pieces of the arguments to the call of their index, the last one so far. -/
theorem foldl_addToolDelta_pieces {calls : List (Option Int × ChatToolCall)} {i : Option Int}
    (hi : i ∉ calls.map Prod.fst) (c : ChatToolCall) (pieces : List String) :
    (pieces.map fun t => ({ index := i, id := "", name := "", arguments := t } : ToolCallResponse)
        ).foldl addToolDelta (calls ++ [(i, c)])
      = calls ++ [(i, { c with arguments := c.arguments ++ concat pieces })] := by
  induction pieces generalizing c with
  | nil => simp [concat]
  | cons t ts ih =>
    have hstep : addToolDelta (calls ++ [(i, c)]) { index := i, id := "", name := "", arguments := t }
        = calls ++ [(i, { c with arguments := c.arguments ++ t })] := by
      have hother : ∀ x ∈ calls, x.1 ≠ i := by
        intro x hx heq
        exact hi (heq ▸ List.mem_map_of_mem hx)
      unfold addToolDelta
      rw [if_pos (by simp), map_append]
      refine congrArg₂ _ ?_ ?_
      · refine (map_congr_left fun x hx => ?_).trans (List.map_id calls)
        rw [if_neg (hother x hx)]
        rfl
      · simp
    rw [map_cons, foldl_cons, hstep, ih]
    show _ = calls ++ [(i, { c with arguments := c.arguments ++ (t ++ concat ts) })]
    rw [String.append_assoc]

/-- What the stream of a block says, at an index that the client does not know yet. -/
structure BlockSays (codec : JsonCodec V) (i : Nat) (b : ClaudeMediaMessage V)
    (es : List (ClaudeStreamResponse V)) (reasoning : String) (tools : List ToolCallResponse)
    (held : List (Option Int × ChatToolCall)) : Prop where
  chunks : ∃ cs, streamChunks es = .ok cs ∧ Tells cs b.textOf reasoning tools []
  reasoning : (∀ e ∈ es, ¬ e.IsSignature) → reasoning = b.thinkingOf
  index : ∀ c ∈ held, c.1 = some (i : Int)
  calls : List.Forall₂ (ChatToolCall.Same codec) (b.toolCallOf codec) (held.map Prod.snd)
  folded : ∀ calls : List (Option Int × ChatToolCall), some (i : Int) ∉ calls.map Prod.fst →
    tools.foldl addToolDelta calls = calls ++ held

variable (pieces : List String)

theorem tells_textPieces :
    Tells (pieces.map fun t => choiceChunk { content := some t }) (concat pieces) "" [] [] := by
  have h := tells_pieces (fun t => { content := some t }) pieces
  rw [flatMap_eq_nil_iff.mpr fun _ _ => rfl] at h
  simpa [ChoiceDelta.getContentString, ChoiceDelta.getReasoningContent] using h

theorem tells_thinkingPieces :
    Tells (pieces.map fun t => choiceChunk { reasoningContent := some t }) "" (concat pieces) [] [] := by
  have h := tells_pieces (fun t => { reasoningContent := some t }) pieces
  rw [flatMap_eq_nil_iff.mpr fun _ _ => rfl] at h
  simpa [ChoiceDelta.getContentString, ChoiceDelta.getReasoningContent] using h

/-- The delta with a piece of the arguments of a call. -/
def argumentsDelta (i : Nat) (arguments : String) : ToolCallResponse :=
  { index := some (i : Int), id := "", name := "", arguments }

theorem tells_argumentPieces (i : Nat) (pieces : List String) :
    Tells (pieces.map fun t => choiceChunk { toolCalls := [argumentsDelta i t] }) "" ""
      (pieces.map (argumentsDelta i)) [] := by
  have h := tells_pieces (fun t => { toolCalls := [argumentsDelta i t] }) pieces
  have htools : (pieces.flatMap fun t => [argumentsDelta i t]) = pieces.map (argumentsDelta i) :=
    flatMap_pure_eq_map _ _
  rw [htools] at h
  simpa [ChoiceDelta.getContentString, ChoiceDelta.getReasoningContent] using h

theorem streamChunks_start (i : Nat) (b : ClaudeMediaMessage V) :
    streamChunks [.start i b] = .ok [choiceChunk (startDelta i b)] := rfl

theorem streamChunks_stop (i : Nat) : streamChunks (V := V) [.stop i] = .ok [] := rfl

variable {codec : JsonCodec V}

/-- **The stream of a block** says what the block says. -/
theorem BlockStream.says {b : ClaudeMediaMessage V} (h : BlockStream codec i b es) :
    ∃ reasoning tools held, BlockSays codec i b es reasoning tools held := by
  cases h with
  | text first pieces =>
    have hpieces := streamChunks_map (f := fun t => .piece i (textDelta t))
      (g := fun t => ({ content := some t } : ChoiceDelta)) (V := V) (fun t => rfl) pieces
    have hsaid := (tells_choiceChunk (startDelta i (.textBlock (V := V) first)) none).append
      (tells_textPieces pieces)
    refine ⟨"", [], [], ⟨_, streamChunks_append (streamChunks_append (streamChunks_start i _) hpieces)
      (streamChunks_stop i), ?_⟩, fun _ => rfl, by simp, .nil, by simp⟩
    rw [append_nil]
    exact hsaid
  | thinking pieces signatures =>
    have hpieces := streamChunks_map (f := fun t => .piece i (thinkingDelta t))
      (g := fun t => ({ reasoningContent := some t } : ChoiceDelta)) (V := V) (fun t => rfl) pieces
    have hsigned := streamChunks_map (f := fun _ => .piece i signatureDelta)
      (g := fun t => ({ reasoningContent := some "\n" } : ChoiceDelta)) (V := V) (fun t => rfl)
      (List.replicate signatures "\n")
    rw [map_replicate, map_replicate, ← map_replicate (f := fun t : String =>
      choiceChunk { reasoningContent := some t }) (a := "\n")] at hsigned
    have hsaid := ((tells_choiceChunk (startDelta i (.thinkingBlock (V := V) "")) none).append
      (tells_thinkingPieces pieces)).append (tells_thinkingPieces (List.replicate signatures "\n"))
    refine ⟨"" ++ concat pieces ++ concat (List.replicate signatures "\n"), [], [],
      ⟨_, streamChunks_append (streamChunks_append (streamChunks_append (streamChunks_start i _) hpieces)
        hsigned) (streamChunks_stop i), ?_⟩, fun hunsigned => ?_, by simp, .nil, by simp⟩
    · rw [append_nil]
      exact hsaid
    · -- a stream without signature deltas has none of these newlines
      cases signatures with
      | zero =>
        show "" ++ concat pieces ++ "" = concat pieces
        rw [String.empty_append, String.append_empty]
      | succ n =>
        refine absurd ⟨signatureDelta, rfl, rfl⟩ (hunsigned (.piece i signatureDelta) ?_)
        simp
  | toolUse id name input empty pieces harguments =>
    have hpieces := streamChunks_map (f := fun t => .piece i (inputJsonDelta t))
      (g := fun t => ({ toolCalls := [argumentsDelta i t] } : ChoiceDelta)) (V := V) (fun t => rfl)
      pieces
    have hsaid := (tells_choiceChunk (startDelta i (.toolUseBlock id name empty)) none).append
      (tells_argumentPieces i pieces)
    refine ⟨"", { index := some (i : Int), id, name, arguments := "" } :: pieces.map (argumentsDelta i),
      [(some (i : Int), { id, name, arguments := concat pieces })],
      ⟨_, streamChunks_append (streamChunks_append (streamChunks_start i _) hpieces)
        (streamChunks_stop i), ?_⟩, fun _ => rfl, by simp, ?_, fun calls hnew => ?_⟩
    · rw [append_nil]
      exact hsaid
    · exact .cons ⟨rfl, rfl, input, codec.decode_encode input, harguments⟩ .nil
    · have hfirst : addToolDelta calls { index := some (i : Int), id, name, arguments := "" }
          = calls ++ [(some (i : Int), { id, name, arguments := "" })] := by
        unfold addToolDelta
        rw [if_neg hnew]
      rw [foldl_cons, hfirst]
      exact (foldl_addToolDelta_pieces hnew _ pieces).trans (by rw [String.empty_append])

/-! ## Whole streams -/

variable {bs : List (ClaudeMediaMessage V)}

/-- **The streams of the blocks** say what the blocks say, if the client knows earlier indices only. -/
theorem BlocksStream.says (h : BlocksStream codec i bs es) :
    ∃ cs reasoning tools held, streamChunks es = .ok cs ∧
      Tells cs (concat (bs.map ClaudeMediaMessage.textOf)) reasoning tools [] ∧
      ((∀ e ∈ es, ¬ e.IsSignature) → reasoning = concat (bs.map ClaudeMediaMessage.thinkingOf)) ∧
      List.Forall₂ (ChatToolCall.Same codec) (bs.flatMap (toolCallOf codec))
        (held.map Prod.snd) ∧
      ∀ calls : List (Option Int × ChatToolCall), (∀ c ∈ calls, ∃ j : Nat, j < i ∧ c.1 = some (j : Int)) →
        tools.foldl addToolDelta calls = calls ++ held := by
  induction h with
  | nil i => exact ⟨[], "", [], [], rfl, ⟨rfl, rfl, rfl, rfl⟩, fun _ => rfl, .nil, by simp⟩
  | @cons i b bs es es' hb _ ih =>
    obtain ⟨r, tools, held, hsaid⟩ := hb.says
    obtain ⟨cs, hcs, hcsaid⟩ := hsaid.chunks
    obtain ⟨cs', r', tools', held', hcs', hcsaid', hr', hcalls', hfold'⟩ := ih
    refine ⟨cs ++ cs', r ++ r', tools ++ tools', held ++ held', streamChunks_append hcs hcs',
      hcsaid.append hcsaid', fun hunsigned => ?_, ?_, fun calls hearlier => ?_⟩
    · rw [hsaid.reasoning fun e he => hunsigned e (mem_append_left _ he),
        hr' fun e he => hunsigned e (mem_append_right _ he)]
      rfl
    · rw [map_append]
      exact rel_append hsaid.calls hcalls'
    · have hnew : some (i : Int) ∉ calls.map Prod.fst := by
        intro hmem
        obtain ⟨c, hc, hci⟩ := List.mem_map.mp hmem
        obtain ⟨j, hj, hcj⟩ := hearlier c hc
        have hij : (i : Int) = j := mem_unique hci hcj
        omega
      rw [foldl_append, hsaid.folded calls hnew, hfold', append_assoc]
      intro c hc
      rcases mem_append.mp hc with hc | hc
      · obtain ⟨j, hj, hcj⟩ := hearlier c hc
        exact ⟨j, by omega, hcj⟩
      · exact ⟨i, by omega, hsaid.index c hc⟩

/-- The stream of a block without its signatures is a stream of the block. -/
theorem BlockStream.unsigned {b : ClaudeMediaMessage V} (h : BlockStream codec i b es) :
    BlockStream codec i b (es.filter fun e => ¬ e.IsSignature) := by
  have hstart : ∀ b : ClaudeMediaMessage V, ¬ (ClaudeStreamResponse.start i b).IsSignature := by
    rintro b ⟨d, hd, -⟩
    cases hd
  have hstop : ¬ (ClaudeStreamResponse.stop (V := V) i).IsSignature := by
    rintro ⟨d, hd, -⟩
    cases hd
  have hpiece : ∀ d : ClaudeMediaMessage V, d.type ≠ "signature_delta" →
      ¬ (ClaudeStreamResponse.piece i d).IsSignature := by
    rintro d hd ⟨d', hd', hsig⟩
    obtain rfl := Option.some.inj hd'
    exact hd hsig
  cases h with
  | text first pieces =>
    rw [filter_eq_self.mpr]
    · exact .text first pieces
    · intro e he
      simp only [cons_append, mem_cons, mem_append, List.mem_map, not_mem_nil,
        or_false] at he
      rcases he with rfl | ⟨t, -, rfl⟩ | rfl
      · exact decide_eq_true (hstart _)
      · exact decide_eq_true (hpiece _ (by simp [textDelta]))
      · exact decide_eq_true hstop
  | thinking pieces signatures =>
    have hsigned : (List.replicate signatures (ClaudeStreamResponse.piece (V := V) i signatureDelta)
        ).filter (fun e => ¬ e.IsSignature) = [] := by
      refine filter_eq_nil_iff.mpr fun e he => ?_
      rw [eq_of_mem_replicate he]
      exact fun h => of_decide_eq_true h ⟨signatureDelta, rfl, rfl⟩
    have hunsigned : BlockStream codec i _ _ := .thinking pieces 0
    have hlast : [ClaudeStreamResponse.stop (V := V) i].filter (fun e => ¬ e.IsSignature)
        = [.stop i] := by
      rw [filter_cons_of_pos (by simpa using hstop), filter_nil]
    rw [filter_append, filter_append, hsigned, filter_eq_self.mpr]
    · exact hunsigned
    · intro e he
      simp only [mem_cons, List.mem_map] at he
      rcases he with rfl | ⟨t, -, rfl⟩
      · exact decide_eq_true (hstart _)
      · exact decide_eq_true (hpiece _ (by simp [thinkingDelta]))
  | toolUse id name input empty pieces harguments =>
    rw [filter_eq_self.mpr]
    · exact .toolUse id name input empty pieces harguments
    · intro e he
      simp only [cons_append, mem_cons, mem_append, List.mem_map, not_mem_nil,
        or_false] at he
      rcases he with rfl | ⟨t, -, rfl⟩ | rfl
      · exact decide_eq_true (hstart _)
      · exact decide_eq_true (hpiece _ (by simp [inputJsonDelta]))
      · exact decide_eq_true hstop

theorem BlocksStream.unsigned (h : BlocksStream codec i bs es) :
    BlocksStream codec i bs (es.filter fun e => ¬ e.IsSignature) := by
  induction h with
  | nil i => exact .nil i
  | cons hb _ ih =>
    rw [filter_append]
    exact .cons hb.unsigned ih

variable {r : ClaudeResponse V}

theorem StreamOf.unsigned {events : List (ClaudeStreamResponse V)} (h : StreamOf codec r events) :
    StreamOf codec r (events.filter fun e => ¬ e.IsSignature) := by
  obtain ⟨body, stopReason, hbody, hstop, hevents⟩ := h
  refine ⟨_, stopReason, hbody.unsigned, hstop, ?_⟩
  have hcomm : (events.filter fun e => ¬ e.IsSignature).filter (fun e => e.type ≠ .ping)
      = (events.filter fun e => e.type ≠ .ping).filter fun e => ¬ e.IsSignature := by
    rw [List.filter_filter, List.filter_filter]
    exact filter_congr fun e _ => Bool.and_comm _ _
  rw [hcomm, hevents, filter_append]
  refine congrArg _ (filter_eq_self.mpr ?_)
  simp [ClaudeStreamResponse.IsSignature]

/-- The finish reason that a client reads off the stop reason of a stream. -/
theorem finishReason_of_delta {stopReason : Option String} {reason : String}
    (hstop : stopReason.getD "" = reason) :
    ([] ++ [] ++ (((stopReason.map stopReasonClaude2OpenAI).filter (· ≠ "null")).filter (· ≠ "")
        ).toList).getLast?.getD ""
      = if stopReasonClaude2OpenAI reason = "null" then "" else stopReasonClaude2OpenAI reason := by
  cases stopReason with
  | none =>
    subst hstop
    decide +kernel
  | some s =>
    obtain rfl : s = reason := hstop
    rw [map_some]
    generalize stopReasonClaude2OpenAI s = f
    by_cases hnull : f = "null"
    · simp [hnull, filter_some]
    · by_cases hempty : f = ""
      · simp [hempty, filter_some]
      · simp [filter_some, hnull, hempty]

/-- **A whole stream** says what the response says; the finish reason is missing when it is `null`. -/
theorem StreamOf.says {events : List (ClaudeStreamResponse V)} (h : StreamOf codec r events) :
    ∃ cs, streamChunks events = .ok cs ∧
      (reassemble cs).content = concat (r.content.map ClaudeMediaMessage.textOf) ∧
      ((∀ e ∈ events, ¬ e.IsSignature) →
        concat (cs.map ChatChunk.reasoning) = concat (r.content.map ClaudeMediaMessage.thinkingOf)) ∧
      List.Forall₂ (ChatToolCall.Same codec) (r.content.flatMap (toolCallOf codec))
        (reassemble cs).toolCalls ∧
      (reassemble cs).finishReason
        = if stopReasonClaude2OpenAI r.stopReason = "null" then ""
          else stopReasonClaude2OpenAI r.stopReason := by
  obtain ⟨body, stopReason, hbody, hstop, hevents⟩ := h
  obtain ⟨cs, reasoning, tools, held, hcs, hsaid, hr, hcalls, hfold⟩ := hbody.says
  -- the two ends of the stream
  have hfirst : streamChunks [({ type := .messageStart, message := some { id := r.id, model := r.model } } :
      ClaudeStreamResponse V)]
      = .ok [{ id := r.id, model := r.model, choices := [{ delta := { content := some "" } }] }] := rfl
  have hfirstSaid : Tells
      [{ id := r.id, model := r.model, choices := [{ delta := { content := some "" } }] }] "" "" [] [] :=
    ⟨rfl, rfl, rfl, rfl⟩
  generalize hreason : (stopReason.map stopReasonClaude2OpenAI).filter (· ≠ "null") = reason
  have hlast : streamChunks [({ type := .messageDelta, delta := some { stopReason } } :
      ClaudeStreamResponse V), { type := .messageStop }] = .ok [choiceChunk {} reason] := by
    rw [← hreason]
    rfl
  have hchunks := streamChunks_append (streamChunks_append hfirst hcs) hlast
  have hall := (hfirstSaid.append hsaid).append (tells_choiceChunk {} reason)
  have hstream := (streamChunks_filter_ping events).symm.trans
    ((congrArg streamChunks hevents).trans hchunks)
  refine ⟨_, hstream, ?_, fun hunsigned => ?_, ?_, ?_⟩
  · refine hall.content.trans ?_
    exact String.append_empty
  · have hbodyUnsigned : ∀ e ∈ body, ¬ e.IsSignature := by
      intro e he
      have hmem : e ∈ events.filter fun e => e.type ≠ .ping := by
        rw [hevents]
        exact mem_append_left _ (mem_cons_of_mem _ he)
      exact hunsigned e (mem_of_mem_filter hmem)
    refine hall.reasoning.trans ?_
    rw [hr hbodyUnsigned]
    exact String.append_empty
  · unfold reassemble
    rw [hall.tools]
    have hheld : ([] ++ tools ++ []).foldl addToolDelta [] = held := by
      rw [append_nil]
      exact hfold [] (by simp)
    exact hheld ▸ hcalls
  · unfold reassemble
    rw [hall.finish, ← hreason]
    exact finishReason_of_delta hstop

/-! ## Agreement -/

/-- Only `null` is turned into `null`. -/
theorem stopReasonClaude2OpenAI_eq_null {reason : String} :
    stopReasonClaude2OpenAI reason = "null" ↔ reason = "null" := by
  constructor
  · intro h
    unfold stopReasonClaude2OpenAI at h
    dsimp only at h
    split_ifs at h <;> first | exact h | (simp at h)
  · rintro rfl
    decide +kernel

/-- The reasoning of a response is that of its thinking blocks: of the last one, if the others are empty,
or of the first block, if the later ones are. -/
def ReasoningReported (content : List (ClaudeMediaMessage V)) : Prop :=
  (∀ t ∈ (thinkingsOf content).dropLast, t = "") ∨
    ((∃ b ∈ content.head?, b.type = "thinking") ∧ ∀ t ∈ (thinkingsOf content).tail, t = "")
  deriving Decidable

theorem responseClaude2OpenAI_content (codec : JsonCodec V) (hplain : ∀ b ∈ r.content, b.Plain) :
    (responseClaude2OpenAI codec r).content = (textsOf r.content).getLast?.getD "" := by
  simp only [responseClaude2OpenAI, foldl_readClaudeBlock codec hplain]
  cases hlast : (textsOf r.content).getLast? with
  | some t => rfl
  | none =>
    -- without a text block the first block has no text either
    have hnone : textsOf r.content = [] := List.getLast?_eq_none_iff.mp hlast
    cases hcontent : r.content with
    | nil => rfl
    | cons b bs =>
      rw [hcontent] at hplain hnone
      cases hplain b mem_cons_self with
      | text t => simp [textsOf, textBlock] at hnone
      | thinking t => rfl
      | toolUse id name input => rfl

/-- The reasoning of the first block. -/
def headThinking (content : List (ClaudeMediaMessage V)) : String :=
  (content.head?.bind ClaudeMediaMessage.thinking).getD ""

/-- The reasoning of a response is that of its last thinking block or else that of its first block. -/
theorem responseClaude2OpenAI_reasoning (codec : JsonCodec V) (hplain : ∀ b ∈ r.content, b.Plain) :
    (responseClaude2OpenAI codec r).reasoningContent.getD ""
      = if (thinkingsOf r.content).getLast?.getD "" ≠ "" then (thinkingsOf r.content).getLast?.getD ""
        else headThinking r.content := by
  simp only [responseClaude2OpenAI, foldl_readClaudeBlock codec hplain]
  show Option.getD (if (thinkingsOf r.content).getLast?.getD "" ≠ "" then _
    else if 0 < byteLen (headThinking r.content) then some (headThinking r.content) else none) "" = _
  split_ifs with hlast hhead
  · rfl
  · rfl
  · -- a text without a byte is empty
    have hzero : byteLen (headThinking r.content) = 0 := by omega
    exact (String.utf8ByteSize_eq_zero_iff.mp hzero).symm

/-- Of the texts that begin with `t`, the last one that is not empty, or else `t`, is all there is exactly
when the texts before the last or the texts behind `t` are empty. -/
theorem lastOrFirst_eq_concat_iff (t : String) (ts : List String) :
    (if (t :: ts).getLast?.getD "" ≠ "" then (t :: ts).getLast?.getD "" else t) = concat (t :: ts) ↔
      (∀ x ∈ (t :: ts).dropLast, x = "") ∨ ∀ x ∈ ts, x = "" := by
  have hsplit : (t :: ts).dropLast ++ [(t :: ts).getLast?.getD ""] = t :: ts := by
    exact dropLast_append_getLast _
  by_cases hlast : (t :: ts).getLast?.getD "" = ""
  · rw [if_neg (not_not.mpr hlast)]
    have hall : t = concat (t :: ts) ↔ ∀ x ∈ ts, x = "" := by
      rw [← concat_eq_empty_iff]
      show t = t ++ concat ts ↔ _
      exact ⟨fun h => String.append_eq_left_iff.mp h.symm, fun h => by rw [h, String.append_empty]⟩
    rw [hall]
    refine ⟨.inr, fun h => h.elim (fun hbefore x hx => ?_) id⟩
    -- the texts before the last are empty, and so is the last
    have hx' : x ∈ (t :: ts).dropLast ++ [(t :: ts).getLast?.getD ""] := by
      rw [hsplit]
      exact mem_cons_of_mem _ hx
    rcases mem_append.mp hx' with hx' | hx'
    · exact hbefore x hx'
    · exact (mem_singleton.mp hx').trans hlast
  · rw [if_pos hlast, getLast?_eq_concat_iff]
    refine ⟨.inl, fun h => h.elim id fun hbehind => ?_⟩
    -- the last text is not empty, so there is none behind `t`
    cases ts with
    | nil => simp
    | cons u us =>
      have hmem : (t :: u :: us).getLast?.getD "" ∈ u :: us := by
        exact getLast_mem _
      exact absurd (hbehind _ hmem) hlast

/-- The reported reasoning is all of it exactly when the other blocks have none. -/
theorem reported_eq_concat_iff {content : List (ClaudeMediaMessage V)}
    (hplain : ∀ b ∈ content, b.Plain) :
    (if (thinkingsOf content).getLast?.getD "" ≠ "" then (thinkingsOf content).getLast?.getD ""
      else headThinking content) = concat (thinkingsOf content) ↔ ReasoningReported content := by
  have hnone (h : headThinking content = "") (hb : ¬ ∃ b ∈ content.head?, b.type = "thinking") :
      (if (thinkingsOf content).getLast?.getD "" ≠ "" then (thinkingsOf content).getLast?.getD ""
        else headThinking content) = concat (thinkingsOf content) ↔ ReasoningReported content := by
    rw [h, ite_not, ite_eq_right_iff.mpr fun h => h.symm, getLast?_eq_concat_iff]
    exact ⟨.inl, fun hreported => hreported.elim id fun hfirst => absurd hfirst.1 hb⟩
  cases content with
  | nil => exact hnone rfl (by simp)
  | cons b bs =>
    cases hplain b mem_cons_self with
    | text t => exact hnone rfl (by simp [textBlock])
    | toolUse id name input => exact hnone rfl (by simp [toolUseBlock])
    | thinking t =>
      have hfirst : thinkingsOf (.thinkingBlock t :: bs) = t :: thinkingsOf bs := rfl
      refine (lastOrFirst_eq_concat_iff t (thinkingsOf bs)).trans (or_congr_right ?_)
      exact ⟨fun h => ⟨⟨_, rfl, rfl⟩, h⟩, And.right⟩

/-- Only blocks of the three kinds have a stream. -/
theorem BlocksStream.plain (h : BlocksStream codec i bs es) : ∀ b ∈ bs, b.Plain := by
  induction h with
  | nil i => simp
  | cons hb _ ih =>
    refine forall_mem_cons.mpr ⟨?_, ih⟩
    cases hb with
    | text first pieces => exact .text _
    | thinking pieces signatures => exact .thinking _
    | toolUse id name input empty pieces harguments => exact .toolUse id name input

/-- **A response and its stream give the same message** exactly when the text blocks before the last are
empty, one thinking block that is reported has all the reasoning, and the stop reason is not `null`. -/
theorem claudeStream_agrees_iff {codec : JsonCodec V} {r : ClaudeResponse V}
    {events : List (ClaudeStreamResponse V)} (hevents : StreamOf codec r events) :
    StreamAgrees codec r events ↔
      (∀ t ∈ (textsOf r.content).dropLast, t = "") ∧ ReasoningReported r.content ∧
        r.stopReason ≠ "null" := by
  have hplain : ∀ b ∈ r.content, b.Plain := by
    obtain ⟨body, -, hbody, -⟩ := hevents
    exact hbody.plain
  obtain ⟨cs, hcs, hcontent, -, hcalls, hfinish⟩ := hevents.says
  obtain ⟨us, hus, -, hreasoning, -⟩ := hevents.unsigned.says
  have hreasoning := hreasoning fun e he => of_decide_eq_true (mem_filter.mp he).2
  rw [← concat_textsOf] at hcontent
  rw [← concat_thinkingsOf] at hreasoning
  have htext : (responseClaude2OpenAI codec r).content = (reassemble cs).content ↔
      ∀ t ∈ (textsOf r.content).dropLast, t = "" := by
    rw [hcontent, responseClaude2OpenAI_content codec hplain, getLast?_eq_concat_iff]
  have hthinking : (responseClaude2OpenAI codec r).reasoningContent.getD ""
      = concat (us.map ChatChunk.reasoning) ↔ ReasoningReported r.content := by
    rw [hreasoning, responseClaude2OpenAI_reasoning codec hplain, reported_eq_concat_iff hplain]
  have hreason : (responseClaude2OpenAI codec r).finishReason = (reassemble cs).finishReason ↔
      r.stopReason ≠ "null" := by
    rw [hfinish]
    show stopReasonClaude2OpenAI r.stopReason = _ ↔ _
    by_cases hnull : stopReasonClaude2OpenAI r.stopReason = "null"
    · rw [hnull]
      exact iff_of_false (by decide) (not_not.mpr (stopReasonClaude2OpenAI_eq_null.mp hnull))
    · rw [if_neg hnull]
      exact iff_of_true rfl (mt stopReasonClaude2OpenAI_eq_null.mpr hnull)
  have htools : (responseClaude2OpenAI codec r).toolCalls
      = r.content.flatMap (ClaudeMediaMessage.toolCallOf codec) := by
    simp [responseClaude2OpenAI, foldl_readClaudeBlock codec hplain]
  constructor
  · rintro ⟨chunks, unsigned, hchunks, hunsigned, hagree⟩
    obtain rfl : cs = chunks := Except.ok.inj (hcs.symm.trans hchunks)
    obtain rfl : us = unsigned := Except.ok.inj (hus.symm.trans hunsigned)
    exact ⟨htext.mp hagree.content, hthinking.mp hagree.reasoning, hreason.mp hagree.finishReason⟩
  · rintro ⟨ht, hr, hf⟩
    exact ⟨cs, us, hcs, hus, htext.mpr ht, hthinking.mpr hr, htools ▸ hcalls, hreason.mpr hf⟩

end ClaudeResponse

/-- The encoding of the empty object, the one value here. -/
def emptyCodec : JsonCodec Unit where
  encode _ := "\x7b\x7d"
  decode s := if s = "\x7b\x7d" then some () else none
  decode_encode _ := if_pos rfl

/-- A response with a text, a call of a tool and some more text. -/
def twoTextResponse (first : String) : ClaudeResponse Unit where
  id := "msg_1"
  model := "claude"
  content := [.textBlock first, .toolUseBlock "toolu_1" "now" (), .textBlock "It is late."]
  stopReason := "tool_use"

/-- The events of the response, with a ping. -/
def twoTextEvents (first : String) : List (ClaudeStreamResponse Unit) :=
  [{ type := .messageStart, message := some { id := "msg_1", model := "claude" } },
    .start 0 (.textBlock ""), { type := .ping }, .piece 0 (textDelta first), .stop 0,
    .start 1 (.toolUseBlock "toolu_1" "now" ()), .piece 1 (inputJsonDelta "\x7b"),
    .piece 1 (inputJsonDelta "\x7d"), .stop 1,
    .start 2 (.textBlock "It is "), .piece 2 (textDelta "late."), .stop 2,
    { type := .messageDelta, delta := some { stopReason := some "tool_use" } },
    { type := .messageStop }]

theorem twoTextEvents_streamOf {first : String} (hfirst : first = "" ∨ first = "Let me see.") :
    StreamOf emptyCodec (twoTextResponse first) (twoTextEvents first) := by
  have htext : "" ++ concat [first] = first := by
    rcases hfirst with rfl | rfl <;> decide
  have hlate : "It is " ++ concat ["late."] = "It is late." := by decide
  have hstream : BlocksStream emptyCodec 0 _ _ := .cons (.text "" [first])
    (.cons (.toolUse "toolu_1" "now" () () ["\x7b", "\x7d"] (by decide))
      (.cons (.text "It is " ["late."]) (.nil 3)))
  rw [htext] at hstream
  exact ⟨_, some "tool_use", hstream, rfl, rfl⟩

/-- With one text the client gets the same either way. -/
theorem claudeStream_agrees_oneText :
    StreamAgrees emptyCodec (twoTextResponse "") (twoTextEvents "") :=
  (claudeStream_agrees_iff (twoTextEvents_streamOf (.inl rfl))).mpr
    ⟨by decide, by decide, by decide⟩

/-- **Two texts.** The stream has both of them, the whole response only the last. -/
theorem claudeStream_disagrees_twoTexts :
    StreamOf emptyCodec (twoTextResponse "Let me see.") (twoTextEvents "Let me see.") ∧
    ¬ StreamAgrees emptyCodec (twoTextResponse "Let me see.") (twoTextEvents "Let me see.") := by
  refine ⟨twoTextEvents_streamOf (.inr rfl), ?_⟩
  rintro ⟨chunks, unsigned, hchunks, -, hagree⟩
  have hsaid : (reassemble chunks).content = "Let me see.It is late." := by
    have heval : ∃ cs, streamChunks (twoTextEvents "Let me see.") = .ok cs ∧
        (reassemble cs).content = "Let me see.It is late." := ⟨_, rfl, by decide⟩
    obtain ⟨cs, hcs, hcontent⟩ := heval
    obtain rfl : cs = chunks := Except.ok.inj (hcs.symm.trans hchunks)
    exact hcontent
  have hwhole : (responseClaude2OpenAI emptyCodec (twoTextResponse "Let me see.")).content
      = "It is late." := by decide
  have hcontent := hagree.content
  rw [hsaid] at hcontent
  revert hcontent
  decide

end Prox
