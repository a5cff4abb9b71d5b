import Mathlib.Data.List.Nodup
import Mathlib.Data.Rat.Floor
import Prox.Lib.Go
import Prox.Lib.Lists

/-! # A Gemini request as a chat request

The embedding of `GeminiToOpenAIRequest` in `service/convert.go`: the contents become messages, a
function call becomes a tool call whose id counts the calls of its own entry, and a function response
becomes a tool message with the id of the last call of its own entry. The stop sequences are cut by
slicing, which reads up to the capacity of the slice and panics behind it.

The values of arguments and responses, their marshalling and the decoding of the function declarations
are parameters. -/

namespace Prox

open List Option

/-! ## Slices -/

/-- A slice: its elements and the elements behind them, up to its capacity. -/
structure Slice (α : Type) where
  elems : List α
  spare : List α := []

/-- `s[:n]`: the bound of the access is the capacity, not the length. -/
def Slice.upTo {α : Type} (s : Slice α) (n : Nat) : Except String (List α) :=
  if n ≤ (s.elems ++ s.spare).length then pure ((s.elems ++ s.spare).take n)
  else throw "slice bounds out of range"

/-- Cut at a bound, a slice is a prefix of its elements only when it has as many. -/
theorem Slice.upTo_prefix_iff {α : Type} (s : Slice α) (n : Nat) :
    (∃ t, s.upTo n = .ok t ∧ t <+: s.elems) ↔ n ≤ s.elems.length := by
  unfold Slice.upTo
  constructor
  · rintro ⟨t, ht, hpre⟩
    split_ifs at ht with hn
    · obtain rfl := pure_eq_ok.mp ht
      have hlen := hpre.length_le
      rw [length_take, Nat.min_eq_left hn] at hlen
      exact hlen
  · intro hn
    have hcap : n ≤ (s.elems ++ s.spare).length := by rw [length_append]; omega
    refine ⟨_, by rw [if_pos hcap]; rfl, ?_⟩
    rw [take_append_of_le_length hn]
    exact take_prefix n _

/-! ## Requests -/

section Gemini

variable {V : Type}

/-- `GeminiInlineData`. -/
structure GeminiInlineData where
  mimeType : String
  data : String

/-- `GeminiFileData`. -/
structure GeminiFileData where
  mimeType : String
  fileUri : String

/-- `FunctionCall`. -/
structure GeminiFunctionCall (V : Type) where
  functionName : String
  arguments : V

/-- `GeminiFunctionResponse`. -/
structure GeminiFunctionResponse (V : Type) where
  name : String
  response : V

/-- `GeminiPart`. -/
structure GeminiPart (V : Type) where
  text : String := ""
  inlineData : Option GeminiInlineData := none
  fileData : Option GeminiFileData := none
  functionCall : Option (GeminiFunctionCall V) := none
  functionResponse : Option (GeminiFunctionResponse V) := none

/-- `GeminiChatContent`. -/
structure GeminiContent (V : Type) where
  role : String
  parts : List (GeminiPart V)

/-- The fields of `GeminiChatGenerationConfig` that are converted. -/
structure GeminiGenerationConfig where
  temperature : Option ℚ := none
  topP : Option ℚ := none
  topK : Option ℚ := none
  maxOutputTokens : Option Nat := none
  candidateCount : Option Int := none
  stopSequences : Slice String := { elems := [] }

/-- `GeminiChatRequest`; of a tool only the declarations are read. -/
structure GeminiRequest (V : Type) where
  contents : List (GeminiContent V)
  generationConfig : GeminiGenerationConfig := {}
  tools : List (Option V) := []
  systemInstructions : Option (List (GeminiPart V)) := none

/-- `MediaContent`. -/
inductive MediaContent where
  | text (text : String)
  | imageUrl (url detail mimeType : String)
  deriving DecidableEq

/-- The content of a message. -/
inductive MessageContent where
  | null
  | string (text : String)
  | media (contents : List MediaContent)
  deriving DecidableEq

/-- `ToolCallRequest` of type `function`. -/
structure ToolCallRequest where
  id : String
  name : String
  arguments : String
  deriving DecidableEq

/-- `Message`. -/
structure GeminiOpenAIMessage where
  role : String
  content : MessageContent := .null
  toolCalls : List ToolCallRequest := []
  toolCallId : String := ""
  deriving DecidableEq

/-- `FunctionRequest` of a declared tool. -/
structure FunctionRequest (V : Type) where
  name : String
  description : String
  parameters : V
  deriving DecidableEq

/-- `GeneralOpenAIRequest`. -/
structure GeneralOpenAIRequest (V : Type) where
  model : String
  stream : Bool
  messages : List GeminiOpenAIMessage
  temperature : Option ℚ := none
  topP : Option ℚ := none
  topK : Option Int := none
  maxTokens : Option Nat := none
  stop : List String := []
  n : Option Int := none
  tools : List (FunctionRequest V) := []
  deriving DecidableEq

/-- What the conversion uses and does not define. -/
structure GeminiEnv (V : Type) where
  toJSONString : V → String
  functionDeclarations : V → Except String (List (FunctionRequest V))

/-! ## Parts -/

/-- What a part is taken for: the first of its fields that is set. -/
inductive GeminiPartKind (V : Type) where
  | media (content : MediaContent)
  | call (call : GeminiFunctionCall V)
  | response (response : GeminiFunctionResponse V)
  | other

/-- The branches on the fields of a part. -/
def GeminiPart.kind (part : GeminiPart V) : GeminiPartKind V :=
  if part.text ≠ "" then .media (.text part.text)
  else match part.inlineData with
    | some d =>
      .media (.imageUrl ("data:" ++ d.mimeType ++ ";base64," ++ d.data) "auto" d.mimeType)
    | none =>
      match part.fileData with
      | some d => .media (.imageUrl d.fileUri "auto" d.mimeType)
      | none =>
        match part.functionCall, part.functionResponse with
        | some c, _ => .call c
        | none, some r => .response r
        | none, none => .other

/-- The id after so many tool calls of an entry. -/
def geminiCallId (n : Nat) : String := "call_" ++ toString n

/-- What the loop over the parts of an entry builds. -/
structure GeminiPartState where
  mediaContents : List MediaContent := []
  toolCalls : List ToolCallRequest := []
  messages : List GeminiOpenAIMessage

/-- One part. -/
def convertGeminiPart (env : GeminiEnv V) (s : GeminiPartState) (part : GeminiPart V) :
    GeminiPartState :=
  match part.kind with
  | .media content => { s with mediaContents := s.mediaContents ++ [content] }
  | .call call =>
    let toolCall : ToolCallRequest :=
      { id := geminiCallId (s.toolCalls.length + 1), name := call.functionName
        arguments := env.toJSONString call.arguments }
    { s with toolCalls := s.toolCalls ++ [toolCall] }
  | .response response =>
    let toolMessage : GeminiOpenAIMessage :=
      { role := "tool", toolCallId := geminiCallId s.toolCalls.length
        content := .string (env.toJSONString response.response) }
    { s with messages := s.messages ++ [toolMessage] }
  | .other => s

/-- `convertGeminiRoleToOpenAI`. -/
def convertGeminiRoleToOpenAI (geminiRole : String) : String :=
  if geminiRole = "user" then "user"
  else if geminiRole = "model" then "assistant"
  else if geminiRole = "function" then "function"
  else "user"

/-- The message of an entry; an entry with neither content nor tool calls has none. -/
def geminiMessage (role : String) (s : GeminiPartState) : Option GeminiOpenAIMessage :=
  let message : GeminiOpenAIMessage := { role := convertGeminiRoleToOpenAI role }
  if s.toolCalls ≠ [] then some { message with toolCalls := s.toolCalls }
  else match s.mediaContents with
    | [] => none
    | [.text text] => some { message with content := .string text }
    | contents => some { message with content := .media contents }

/-- One entry: the tool messages of its parts, then its own message. -/
def convertGeminiContent (env : GeminiEnv V) (messages : List GeminiOpenAIMessage) (content : GeminiContent V) :
    List GeminiOpenAIMessage :=
  let s := content.parts.foldl (convertGeminiPart env) { messages }
  s.messages ++ (geminiMessage content.role s).toList

/-! ## The request -/

/-- `extractTextFromGeminiParts`. -/
def extractTextFromGeminiParts (parts : List (GeminiPart V)) : String :=
  "\n".intercalate ((parts.map (·.text)).filter (· ≠ ""))

/-- The declared functions; a tool whose declarations cannot be read is skipped. -/
def convertGeminiTools (env : GeminiEnv V) (tools : List (Option V)) : List (FunctionRequest V) :=
  tools.flatMap fun
    | none => []
    | some declarations =>
      match env.functionDeclarations declarations with
      | .error _ => []
      | .ok functions => functions

/-- The stop sequences, cut at four. -/
def geminiStop (stopSequences : Slice String) : Except String (List String) :=
  if stopSequences.elems ≠ [] then stopSequences.upTo 4 else pure []

/-- The system instructions as a message. -/
def geminiSystemMessage (parts : List (GeminiPart V)) : GeminiOpenAIMessage :=
  { role := "system", content := .string (extractTextFromGeminiParts parts) }

/-- `GeminiToOpenAIRequest`; an error is a panic. -/
def geminiToOpenAIRequest (env : GeminiEnv V) (upstreamModelName : String) (isStream : Bool)
    (request : GeminiRequest V) : Except String (GeneralOpenAIRequest V) := do
  let messages := request.contents.foldl (convertGeminiContent env) []
  let config := request.generationConfig
  let stop ← geminiStop config.stopSequences
  pure
    { model := upstreamModelName, stream := isStream
      messages := (request.systemInstructions.map geminiSystemMessage).toList ++ messages
      temperature := config.temperature
      topP := config.topP.filter (0 < ·)
      topK := (config.topK.filter (0 < ·)).map fun topK => ⌊topK⌋
      maxTokens := config.maxOutputTokens.filter (0 < ·)
      stop
      n := config.candidateCount.filter (0 < ·)
      tools := convertGeminiTools env request.tools }

/-! ## Messages of an entry -/

/-- The calls among the parts. -/
def geminiCalls (parts : List (GeminiPart V)) : List (GeminiFunctionCall V) :=
  parts.filterMap fun part =>
    match part.kind with
    | .call call => some call
    | _ => none

/-- The tool calls of an entry, after so many. -/
def numberedCalls (env : GeminiEnv V) : Nat → List (GeminiFunctionCall V) → List ToolCallRequest
  | _, [] => []
  | n, call :: rest =>
    { id := geminiCallId (n + 1), name := call.functionName
      arguments := env.toJSONString call.arguments } :: numberedCalls env (n + 1) rest

/-- The tool messages of an entry, after so many calls. -/
def toolReplies (env : GeminiEnv V) : Nat → List (GeminiPart V) → List GeminiOpenAIMessage
  | _, [] => []
  | n, part :: rest =>
    match part.kind with
    | .call _ => toolReplies env (n + 1) rest
    | .response response =>
      { role := "tool", toolCallId := geminiCallId n
        content := .string (env.toJSONString response.response) } :: toolReplies env n rest
    | _ => toolReplies env n rest

/-- The media among the parts. -/
def geminiMedia (parts : List (GeminiPart V)) : List MediaContent :=
  parts.filterMap fun part =>
    match part.kind with
    | .media content => some content
    | _ => none

variable (env : GeminiEnv V)

/-- The loop over the parts: the calls are numbered on, and the replies are sent before the calls. -/
theorem foldl_convertGeminiPart (parts : List (GeminiPart V))
    (s : GeminiPartState) :
    parts.foldl (convertGeminiPart env) s =
      { mediaContents := s.mediaContents ++ geminiMedia parts
        toolCalls := s.toolCalls ++ numberedCalls env s.toolCalls.length (geminiCalls parts)
        messages := s.messages ++ toolReplies env s.toolCalls.length parts } := by
  induction parts generalizing s with
  | nil => simp [geminiMedia, geminiCalls, numberedCalls, toolReplies]
  | cons part rest ih =>
    rw [foldl_cons, ih]
    cases hkind : part.kind <;>
      simp [convertGeminiPart, geminiMedia, geminiCalls, numberedCalls, toolReplies, hkind]

/-- The message that an entry ends with. -/
def geminiOwnMessage (env : GeminiEnv V) (content : GeminiContent V) : Option GeminiOpenAIMessage :=
  geminiMessage content.role
    { mediaContents := geminiMedia content.parts
      toolCalls := numberedCalls env 0 (geminiCalls content.parts), messages := [] }

/-- The messages of an entry. -/
def geminiMessages (env : GeminiEnv V) (content : GeminiContent V) : List GeminiOpenAIMessage :=
  toolReplies env 0 content.parts ++ (geminiOwnMessage env content).toList

/-- The messages of a request are those of its entries, one after the other. -/
theorem foldl_convertGeminiContent (contents : List (GeminiContent V))
    (messages : List GeminiOpenAIMessage) :
    contents.foldl (convertGeminiContent env) messages =
      messages ++ contents.flatMap (geminiMessages env) := by
  induction contents generalizing messages with
  | nil => simp
  | cons content rest ih =>
    have hstep : convertGeminiContent env messages content = messages ++ geminiMessages env content := by
      simp [convertGeminiContent, foldl_convertGeminiPart, geminiMessages, geminiOwnMessage, geminiMessage]
    rw [foldl_cons, ih, hstep, flatMap_cons, append_assoc]

/-! ## Ids -/

theorem geminiCallId_inj {m n : Nat} (h : geminiCallId m = geminiCallId n) : m = n := by
  have hlist := congrArg String.toList h
  simp only [geminiCallId, String.toList_append, append_cancel_left_eq] at hlist
  exact (toDigits_append_inj (s := []) (t := []) (by simp) (by simp)
    (by simpa [Nat.toString_eq_repr] using hlist)).1

/-- The ids of the calls of an entry. -/
theorem mem_numberedCalls_id {env : GeminiEnv V} {n : Nat} {calls : List (GeminiFunctionCall V)}
    {id : String} :
    id ∈ (numberedCalls env n calls).map (·.id) ↔
      ∃ i, n < i ∧ i ≤ n + calls.length ∧ id = geminiCallId i := by
  induction calls generalizing n with
  | nil =>
    simp only [numberedCalls, map_nil, not_mem_nil, length_nil, false_iff]
    rintro ⟨i, h1, h2, -⟩
    omega
  | cons call rest ih =>
    simp only [numberedCalls, map_cons, mem_cons, ih, length_cons]
    constructor
    · rintro (rfl | ⟨i, h1, h2, rfl⟩)
      · exact ⟨n + 1, by omega, by omega, rfl⟩
      · exact ⟨i, by omega, by omega, rfl⟩
    · rintro ⟨i, h1, h2, rfl⟩
      rcases Nat.lt_or_ge (n + 1) i with h | h
      · exact .inr ⟨i, h, by omega, rfl⟩
      · exact .inl (congrArg geminiCallId (by omega))

theorem nodup_numberedCalls_id (n : Nat) (calls : List (GeminiFunctionCall V)) :
    ((numberedCalls env n calls).map (·.id)).Nodup := by
  induction calls generalizing n with
  | nil => exact .nil
  | cons call rest ih =>
    refine nodup_cons.mpr ⟨fun hmem => ?_, ih (n + 1)⟩
    obtain ⟨i, hi, -, hid⟩ := mem_numberedCalls_id.mp hmem
    have := geminiCallId_inj hid
    omega

/-- The ids of the tool calls in messages. -/
def toolCallIds (messages : List GeminiOpenAIMessage) : List String :=
  messages.flatMap fun m => m.toolCalls.map (·.id)

theorem mem_toolReplies {env : GeminiEnv V} {n : Nat} {parts : List (GeminiPart V)} {m : GeminiOpenAIMessage}
    (h : m ∈ toolReplies env n parts) :
    m.role = "tool" ∧ m.toolCalls = [] ∧
      ∃ i, i ≤ n + (geminiCalls parts).length ∧ m.toolCallId = geminiCallId i := by
  induction parts generalizing n with
  | nil => simp [toolReplies] at h
  | cons part rest ih =>
    cases hkind : part.kind with
    | call call =>
      simp only [toolReplies, hkind] at h
      obtain ⟨hrole, hcalls, i, hi, hid⟩ := ih h
      refine ⟨hrole, hcalls, i, ?_, hid⟩
      simp only [geminiCalls, filterMap_cons, hkind, length_cons] at hi ⊢
      omega
    | response response =>
      simp only [toolReplies, hkind, mem_cons] at h
      rcases h with rfl | h
      · exact ⟨rfl, rfl, n, by omega, rfl⟩
      · simpa only [geminiCalls, filterMap_cons, hkind] using ih h
    | media content =>
      simp only [toolReplies, hkind] at h
      simpa only [geminiCalls, filterMap_cons, hkind] using ih h
    | other =>
      simp only [toolReplies, hkind] at h
      simpa only [geminiCalls, filterMap_cons, hkind] using ih h

theorem convertGeminiRole_ne_tool (role : String) : convertGeminiRoleToOpenAI role ≠ "tool" := by
  unfold convertGeminiRoleToOpenAI
  split_ifs <;> decide

theorem mem_geminiOwnMessage {env : GeminiEnv V} {content : GeminiContent V} {m : GeminiOpenAIMessage}
    (h : m ∈ geminiOwnMessage env content) :
    m.role ≠ "tool" ∧ m.toolCalls = numberedCalls env 0 (geminiCalls content.parts) := by
  unfold geminiOwnMessage geminiMessage at h
  split_ifs at h with hcalls
  · obtain rfl := Option.some.inj h
    exact ⟨convertGeminiRole_ne_tool _, rfl⟩
  · have hnone : numberedCalls env 0 (geminiCalls content.parts) = [] := not_not.mp hcalls
    rw [hnone]
    split at h
    · cases h
    · obtain rfl := Option.some.inj h
      exact ⟨convertGeminiRole_ne_tool _, rfl⟩
    · obtain rfl := Option.some.inj h
      exact ⟨convertGeminiRole_ne_tool _, rfl⟩

/-- The ids of an entry are those of its calls. -/
theorem toolCallIds_geminiMessages (content : GeminiContent V) :
    toolCallIds (geminiMessages env content) =
      (numberedCalls env 0 (geminiCalls content.parts)).map (·.id) := by
  have hreplies : toolCallIds (toolReplies env 0 content.parts) = [] :=
    flatMap_eq_nil_iff.mpr fun m hm => by rw [(mem_toolReplies hm).2.1]; rfl
  rw [geminiMessages, toolCallIds, flatMap_append]
  rw [toolCallIds] at hreplies
  rw [hreplies]
  cases hown : geminiOwnMessage env content with
  | some m => simp [(mem_geminiOwnMessage (m := m) hown).2]
  | none =>
    -- an entry with calls has a message
    have hnone : numberedCalls env 0 (geminiCalls content.parts) = [] := by
      by_contra hne
      rw [geminiOwnMessage, geminiMessage, if_pos hne] at hown
      cases hown
    rw [hnone]
    rfl

/-- The ids are unique exactly when of any two entries one has no calls. -/
theorem nodup_toolCallIds_iff (contents : List (GeminiContent V)) :
    (toolCallIds (contents.flatMap (geminiMessages env))).Nodup ↔
      contents.Pairwise fun c c' => geminiCalls c.parts = [] ∨ geminiCalls c'.parts = [] := by
  have hids : toolCallIds (contents.flatMap (geminiMessages env)) =
      contents.flatMap fun c => (numberedCalls env 0 (geminiCalls c.parts)).map (·.id) := by
    rw [toolCallIds, flatMap_assoc]
    exact congrArg (contents.flatMap ·) (funext fun c => toolCallIds_geminiMessages env c)
  have hdisjoint : ∀ c c' : GeminiContent V,
      ((numberedCalls env 0 (geminiCalls c.parts)).map (·.id)).Disjoint
        ((numberedCalls env 0 (geminiCalls c'.parts)).map (·.id)) ↔
      geminiCalls c.parts = [] ∨ geminiCalls c'.parts = [] := by
    intro c c'
    constructor
    · intro h
      by_contra hne
      rw [not_or] at hne
      -- both entries have a first call
      have hmem : ∀ e : GeminiContent V, geminiCalls e.parts ≠ [] →
          geminiCallId 1 ∈ (numberedCalls env 0 (geminiCalls e.parts)).map (·.id) := fun e he =>
        mem_numberedCalls_id.mpr ⟨1, by omega, by have := length_pos_iff.mpr he; omega, rfl⟩
      exact h (hmem c hne.1) (hmem c' hne.2)
    · rintro (h | h) <;> simp [h, numberedCalls]
  rw [hids, nodup_flatMap]
  refine ⟨fun h => h.2.imp (hdisjoint _ _).mp, fun h => ⟨fun c _ => nodup_numberedCalls_id env 0 _, ?_⟩⟩
  exact h.imp (hdisjoint _ _).mpr

/-! ## Replies -/

/-- The function responses of the contents, each with the parts before it. -/
def geminiResponses (contents : List (GeminiContent V)) :
    List (List (GeminiPart V) × GeminiFunctionResponse V) :=
  (withEarlier [] (contents.flatMap (·.parts))).filterMap fun reply =>
    match reply.2.kind with
    | .response response => some (reply.1, response)
    | _ => none

/-- The tool messages, each with the messages before it. -/
def toolMessages (messages : List GeminiOpenAIMessage) : List (List GeminiOpenAIMessage × GeminiOpenAIMessage) :=
  (withEarlier [] messages).filter fun tool => tool.2.role = "tool"

/-- Some of the parts calls the function. -/
def Called (parts : List (GeminiPart V)) (name : String) : Prop :=
  ∃ part ∈ parts, ∃ call, part.functionCall = some call ∧ call.functionName = name

/-- An assistant message before the tool message has the call of the function with its id. -/
def Answers (tool : List GeminiOpenAIMessage × GeminiOpenAIMessage) (name : String) : Prop :=
  ∃ m ∈ tool.1, m.role = "assistant" ∧
    ∃ call ∈ m.toolCalls, call.id = tool.2.toolCallId ∧ call.name = name

/-- What a converted request should keep. -/
structure GeminiKept (request : GeminiRequest V) (r : GeneralOpenAIRequest V) : Prop where
  stop : r.stop <+: request.generationConfig.stopSequences.elems
  stop_length : r.stop.length ≤ 4
  ids : (toolCallIds r.messages).Nodup
  replies : List.Forall₂
    (fun reply tool => Called reply.1 reply.2.name → Answers tool reply.2.name)
    (geminiResponses request.contents) (toolMessages r.messages)

/-- Whether a part is a function response. -/
def GeminiPart.isResponse (part : GeminiPart V) : Bool :=
  match part.kind with
  | .response _ => true
  | _ => false

theorem length_geminiResponses (contents : List (GeminiContent V)) :
    (geminiResponses contents).length = (contents.flatMap (·.parts)).countP (·.isResponse) := by
  rw [geminiResponses, length_filterMap_eq_countP]
  conv_rhs => rw [← map_snd_withEarlier [] (contents.flatMap (·.parts)), countP_map]
  refine countP_congr fun reply _ => ?_
  simp only [Function.comp, GeminiPart.isResponse]
  cases reply.2.kind <;> simp

theorem length_toolMessages (messages : List GeminiOpenAIMessage) :
    (toolMessages messages).length = messages.countP (·.role = "tool") := by
  rw [toolMessages, ← countP_eq_length_filter]
  conv_rhs => rw [← map_snd_withEarlier [] messages, countP_map]
  rfl

theorem length_toolReplies (n : Nat) (parts : List (GeminiPart V)) :
    (toolReplies env n parts).length = parts.countP (·.isResponse) := by
  induction parts generalizing n with
  | nil => rfl
  | cons part rest ih =>
    cases hkind : part.kind <;> simp [toolReplies, GeminiPart.isResponse, hkind, ih]

/-- Every function response has its tool message. -/
theorem countP_tool_geminiMessages (contents : List (GeminiContent V)) :
    (contents.flatMap (geminiMessages env)).countP (·.role = "tool") =
      (contents.flatMap (·.parts)).countP (·.isResponse) := by
  induction contents with
  | nil => rfl
  | cons content rest ih =>
    have hreplies : (toolReplies env 0 content.parts).countP (·.role = "tool") =
        (toolReplies env 0 content.parts).length :=
      countP_eq_length.mpr fun m hm => by simp [(mem_toolReplies hm).1]
    have hown : (geminiOwnMessage env content).toList.countP (·.role = "tool") = 0 :=
      countP_eq_zero.mpr fun m hm => by
        simpa using (mem_geminiOwnMessage (mem_toList.mp hm)).1
    rw [flatMap_cons, flatMap_cons, countP_append, countP_append, ih,
      geminiMessages, countP_append, hreplies, hown, length_toolReplies, Nat.add_zero]

/-- A tool message of an entry stands before the entry's own message: only replies come before it. -/
theorem toolReplies_of_geminiMessages {env : GeminiEnv V} {content : GeminiContent V}
    {w w' : List GeminiOpenAIMessage} {tool : GeminiOpenAIMessage} (h : geminiMessages env content = w ++ tool :: w')
    (hrole : tool.role = "tool") :
    ∃ w'', toolReplies env 0 content.parts = w ++ tool :: w'' := by
  have hnot : tool ∉ (geminiOwnMessage env content).toList := fun hmem =>
    (mem_geminiOwnMessage (mem_toList.mp hmem)).1 hrole
  rw [geminiMessages, append_eq_append_iff] at h
  rcases h with ⟨z, -, hown⟩ | ⟨z, hreplies, h⟩
  · exact absurd (by simp [hown]) hnot
  · cases z with
    | nil => exact absurd (by rw [nil_append] at h; simp [← h]) hnot
    | cons m z =>
      obtain ⟨rfl, -⟩ := List.cons.inj h
      exact ⟨z, hreplies⟩

/-- With unique ids no tool call before a tool message has its id: the calls of its own entry come
behind it, and no other entry has calls when its own has. -/
theorem not_answers_of_unique {env : GeminiEnv V} {contents : List (GeminiContent V)}
    {system : List GeminiOpenAIMessage} (hsystem : ∀ m ∈ system, m.role ≠ "tool" ∧ m.toolCalls = [])
    (hunique : contents.Pairwise fun c c' => geminiCalls c.parts = [] ∨ geminiCalls c'.parts = [])
    {tool : List GeminiOpenAIMessage × GeminiOpenAIMessage}
    (htool : tool ∈ toolMessages (system ++ contents.flatMap (geminiMessages env))) (name : String) :
    ¬ Answers tool name := by
  obtain ⟨earlier, tm⟩ := tool
  obtain ⟨hmem, hrole⟩ := mem_filter.mp htool
  replace hrole : tm.role = "tool" := of_decide_eq_true hrole
  obtain ⟨u, v, hsplit, hearlier⟩ := mem_withEarlier.mp hmem
  subst hearlier
  -- the tool message is one of an entry
  obtain ⟨u, rfl, hflat⟩ : ∃ u', earlier = system ++ u' ∧
      contents.flatMap (geminiMessages env) = u' ++ tm :: v := by
    rcases append_eq_append_iff.mp hsplit with ⟨u', hu, h⟩ | ⟨z, hz, h⟩
    · exact ⟨u', hu, h⟩
    · cases z with
      | nil => exact ⟨[], by simpa using hz.symm, by simpa using h.symm⟩
      | cons m z =>
        obtain ⟨rfl, -⟩ := List.cons.inj h
        exact absurd hrole (hsystem tm (by simp [hz])).1
  obtain ⟨before, content, after, w, w', rfl, hcontent, rfl⟩ := exists_of_flatMap_eq hflat
  obtain ⟨w'', hreplies⟩ := toolReplies_of_geminiMessages hcontent hrole
  obtain ⟨-, -, i, hi, hid⟩ := mem_toolReplies (hreplies ▸ mem_append_right w
    (mem_cons_self ..) : tm ∈ toolReplies env 0 content.parts)
  rintro ⟨m, hm, -, call, hcall, hcallid, -⟩
  rcases mem_append.mp hm with hm | hm
  · rw [(hsystem m hm).2] at hcall
    cases hcall
  rcases mem_append.mp hm with hm | hm
  · obtain ⟨other, hother, hm⟩ := mem_flatMap.mp hm
    have hids : call.id ∈ toolCallIds (geminiMessages env other) :=
      mem_flatMap.mpr ⟨m, hm, List.mem_map_of_mem hcall⟩
    rw [toolCallIds_geminiMessages] at hids
    obtain ⟨j, hj, hjlen, hjid⟩ := mem_numberedCalls_id.mp hids
    have hij : j = i := geminiCallId_inj (by rw [← hjid, hcallid]; exact hid)
    rcases (pairwise_append.mp hunique).2.2 other hother content (mem_cons_self ..) with h | h
    · rw [h, length_nil] at hjlen
      omega
    · rw [h, length_nil] at hi
      omega
  · have hm' : m ∈ toolReplies env 0 content.parts := hreplies ▸ mem_append_left _ hm
    rw [(mem_toolReplies hm').2.1] at hcall
    cases hcall

/-- The messages of a request keep unique ids and the pairing of its tools exactly when at most one
entry has calls and no response stands behind a call of its function. -/
theorem gemini_messages_kept_iff (contents : List (GeminiContent V))
    {system : List GeminiOpenAIMessage} (hsystem : ∀ m ∈ system, m.role ≠ "tool" ∧ m.toolCalls = []) :
    (toolCallIds (system ++ contents.flatMap (geminiMessages env))).Nodup ∧
        List.Forall₂ (fun reply tool => Called reply.1 reply.2.name → Answers tool reply.2.name)
          (geminiResponses contents)
          (toolMessages (system ++ contents.flatMap (geminiMessages env))) ↔
      contents.Pairwise (fun c c' => geminiCalls c.parts = [] ∨ geminiCalls c'.parts = []) ∧
        ∀ reply ∈ geminiResponses contents, ¬ Called reply.1 reply.2.name := by
  have hnone : toolCallIds system = [] :=
    flatMap_eq_nil_iff.mpr fun m hm => by rw [(hsystem m hm).2]; rfl
  have hids : toolCallIds (system ++ contents.flatMap (geminiMessages env)) =
      toolCallIds (contents.flatMap (geminiMessages env)) := by
    rw [toolCallIds, flatMap_append, ← toolCallIds, hnone, nil_append, toolCallIds]
  have hlen : (geminiResponses contents).length =
      (toolMessages (system ++ contents.flatMap (geminiMessages env))).length := by
    have hzero : system.countP (·.role = "tool") = 0 :=
      countP_eq_zero.mpr fun m hm => by simpa using (hsystem m hm).1
    rw [length_geminiResponses, length_toolMessages, countP_append, hzero, Nat.zero_add,
      countP_tool_geminiMessages]
  rw [hids, nodup_toolCallIds_iff]
  refine and_congr_right fun hunique => ⟨fun h reply hreply hcalled => ?_, fun h => ?_⟩
  · obtain ⟨tool, htool, hpaired⟩ := exists_of_forall₂ h hreply
    exact not_answers_of_unique hsystem hunique htool _ (hpaired hcalled)
  · refine forall₂_iff_zip.mpr ⟨hlen, fun hmem hcalled => ?_⟩
    exact absurd hcalled (h _ (of_mem_zip hmem).1)

/-- The stop sequences are a prefix of at most four exactly when there are none or at least four. -/
theorem geminiStop_kept_iff (stopSequences : Slice String) :
    (∃ stop, geminiStop stopSequences = .ok stop ∧ stop <+: stopSequences.elems ∧ stop.length ≤ 4) ↔
      stopSequences.elems = [] ∨ 4 ≤ stopSequences.elems.length := by
  by_cases hnil : stopSequences.elems = []
  · simp [geminiStop, hnil, pure, Except.pure]
  · have hlen : ∀ stop, stopSequences.upTo 4 = .ok stop → stop.length ≤ 4 := by
      intro stop hstop
      unfold Slice.upTo at hstop
      split_ifs at hstop
      obtain rfl := pure_eq_ok.mp hstop
      exact length_take_le ..
    have hkept := stopSequences.upTo_prefix_iff 4
    simp only [geminiStop, ne_eq, hnil, not_false_eq_true, if_true, false_or, ← hkept]
    constructor
    · rintro ⟨stop, hstop, hpre, -⟩
      exact ⟨stop, hstop, hpre⟩
    · rintro ⟨stop, hstop, hpre⟩
      exact ⟨stop, hstop, hpre, hlen stop hstop⟩

/-- A converted request keeps the pairing of its tools, unique ids and a prefix of its stop sequences
if and only if it has no stop sequences or at least four, at most one entry with function calls and no
function response behind a call of its function. -/
theorem gemini_request_kept_iff (env : GeminiEnv V) (upstreamModelName : String) (isStream : Bool)
    (request : GeminiRequest V) :
    (∃ r, geminiToOpenAIRequest env upstreamModelName isStream request = .ok r ∧
      GeminiKept request r) ↔
    (request.generationConfig.stopSequences.elems = [] ∨
        4 ≤ request.generationConfig.stopSequences.elems.length) ∧
      request.contents.Pairwise
        (fun c c' => geminiCalls c.parts = [] ∨ geminiCalls c'.parts = []) ∧
      ∀ reply ∈ geminiResponses request.contents, ¬ Called reply.1 reply.2.name := by
  have hsystem : ∀ m ∈ (request.systemInstructions.map geminiSystemMessage).toList,
      m.role ≠ "tool" ∧ m.toolCalls = [] := by
    intro m hm
    obtain ⟨parts, -, rfl⟩ := map_eq_some_iff.mp (mem_toList.mp hm)
    exact ⟨by show "system" ≠ "tool"; decide, rfl⟩
  have hfold := foldl_convertGeminiContent env request.contents []
  rw [nil_append] at hfold
  rw [← geminiStop_kept_iff, ← gemini_messages_kept_iff env request.contents hsystem, ← hfold]
  constructor
  · rintro ⟨r, hr, hkept⟩
    obtain ⟨stop, hstop, hr⟩ := bind_eq_ok.mp hr
    obtain rfl := pure_eq_ok.mp hr
    exact ⟨⟨stop, hstop, hkept.stop, hkept.stop_length⟩, hkept.ids, hkept.replies⟩
  · rintro ⟨⟨stop, hstop, hpre, hlen⟩, hids, hreplies⟩
    exact ⟨_, bind_eq_ok.mpr ⟨stop, hstop, rfl⟩, hpre, hlen, hids, hreplies⟩

/-- Values as texts. -/
def sampleGeminiEnv : GeminiEnv String where
  toJSONString s := s
  functionDeclarations _ := .ok []

/-- A call of a function, its response in the next entry and one stop sequence, in a slice of four. -/
def sampleGeminiRequest : GeminiRequest String where
  contents :=
    [{ role := "model", parts := [{ functionCall := some ⟨"weather", "\x7b\x7d"⟩ }] },
      { role := "user", parts := [{ functionResponse := some ⟨"weather", "\x7b\x7d"⟩ }] }]
  generationConfig := { stopSequences := ⟨["END"], ["", "", ""]⟩ }

/-- The response is not paired with its call, the stop sequences get three empty ones, and without the
spare capacity the conversion panics. -/
theorem gemini_response_unpaired :
    (geminiToOpenAIRequest sampleGeminiEnv "m" false sampleGeminiRequest).map
        (fun r => (r.messages, r.stop)) =
      .ok ([{ role := "assistant", toolCalls := [⟨"call_1", "weather", "\x7b\x7d"⟩] },
        { role := "tool", toolCallId := "call_0", content := .string "\x7b\x7d" }], ["END", "", "", ""]) ∧
    geminiToOpenAIRequest sampleGeminiEnv "m" false
        { sampleGeminiRequest with generationConfig := { stopSequences := ⟨["END"], []⟩ } } =
      .error "slice bounds out of range" := by
  decide

end Gemini

end Prox
