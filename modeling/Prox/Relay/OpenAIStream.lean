import Prox.Relay.ClaudeStream

/-! # A chat stream for clients that speak the OpenAI format

The embedding of `OaiStreamHandler` and `sendStreamData` in `relay/channel/openai/relay-openai.go`, of
`handleLastResponse` and `HandleFinalResponse` in `helper.go` beside it and of the lines that
`StreamScannerHandler` hands on, for clients that speak the OpenAI format. The handler keeps one chunk
back: a chunk is sent when the next one arrives, and the last one only after a look at its usage.

The decoder of the chunks, the count of the tokens of a text and the corrections of a usage for single
channels are parameters. -/

namespace Prox

open List

/-! ## Lines -/

/-- The data of the lines of an event stream, up to its end (`StreamScannerHandler`). -/
def streamScannerData : List String → List String
  | [] => []
  | line :: rest =>
    if byteLen line < 6 then streamScannerData rest
    else if ¬ hasPrefix line "data:" ∧ ¬ hasPrefix line "[DONE]" then streamScannerData rest
    else
      -- both prefixes are cut at the fifth byte
      let data := trimSpace (String.ofList (line.toList.drop 5))
      if data = "" then streamScannerData rest
      else if hasPrefix data "[DONE]" then []
      else data :: streamScannerData rest

theorem ne_empty_of_mem_streamScannerData {lines : List String} {data : String}
    (h : data ∈ streamScannerData lines) : data ≠ "" := by
  induction lines with
  | nil => simp [streamScannerData] at h
  | cons line rest ih =>
    simp only [streamScannerData] at h
    split_ifs at h with h1 h2 h3 h4
    · exact ih h
    · exact ih h
    · exact ih h
    · simp at h
    · rcases mem_cons.mp h with rfl | h
      · exact h3
      · exact ih h

/-! ## Chunks -/

/-- Whether a choice says something in words. -/
def StreamChoice.hasText (c : StreamChoice) : Bool :=
  c.delta.getContentString ≠ "" || c.delta.getReasoningContent ≠ ""

/-- Whether a chunk carries content, reasoning, a delta of a tool call or a finish reason. -/
def ChatChunk.carries (d : ChatChunk) : Bool :=
  d.choices.any fun c => c.hasText || !c.delta.toolCalls.isEmpty || c.finish?.isSome

/-- `ValidUsage`: a usage that counts something. -/
def validUsage : Option ChatUsage → Bool
  | none => false
  | some usage => usage.promptTokens ≠ 0 || usage.completionTokens ≠ 0

/-- What is written to the client. -/
inductive ClientData where
  | string (data : String)
  | object (chunk : ChatChunk)
  | done
  deriving DecidableEq

/-- What the handler uses and does not define. -/
structure StreamEnv where
  unmarshal : String → Except String ChatChunk
  /-- The decoder of the usage alone. -/
  unmarshalUsage : String → Except String (Option ChatUsage)
  responseText2Usage : String → String → ChatUsage
  applyUsagePostProcessing : ChatUsage → String → ChatUsage

/-- The part of `RelayInfo` that the handler reads. -/
structure StreamInfo where
  upstreamModelName : String := ""
  shouldIncludeUsage : Bool := false
  forceFormat : Bool := false
  thinkingToContent : Bool := false

/-- `ThinkingContentInfo`: how far the thinking section has come. -/
structure ThinkingContentInfo where
  isFirstThinkingContent : Bool := true
  sendLastThinkingContent : Bool := false
  hasSentThinkingContent : Bool := false

/-! ## One chunk -/

/-- The delta with this text in place of its reasoning. -/
def ChoiceDelta.showText (text : String) (c : ChoiceDelta) : ChoiceDelta :=
  { c with content := some text, reasoningContent := none, reasoning := none }

/-- The chunk with this text in place of the reasoning of every choice. -/
def ChatChunk.showText (text : String) (d : ChatChunk) : ChatChunk :=
  { d with choices := d.choices.map fun c => { c with delta := c.delta.showText text } }

/-- Whether some choice brings reasoning. -/
def ChatChunk.hasThinkingContent (d : ChatChunk) : Bool :=
  d.choices.any fun c => c.delta.getReasoningContent ≠ ""

/-- Whether some choice brings content. -/
def ChatChunk.hasContent (d : ChatChunk) : Bool :=
  d.choices.any fun c => c.delta.getContentString ≠ ""

/-- A choice with its reasoning turned into content. -/
def StreamChoice.thinkToContent (silent : Bool) (c : StreamChoice) : StreamChoice :=
  if c.delta.getReasoningContent ≠ "" then
    { c with delta := c.delta.showText c.delta.getReasoningContent }
  else if silent then
    { c with delta := { c.delta with reasoningContent := none, reasoning := none } }
  else c

/-- `sendStreamData` from the point on where reasoning becomes content. -/
def sendThinking (d : ChatChunk) (t : ThinkingContentInfo) : List ClientData × ThinkingContentInfo :=
  if t.isFirstThinkingContent ∧ d.hasThinkingContent then
    ([.object (d.showText ("<think>\n" ++ d.reasoning))],
      { t with isFirstThinkingContent := false, hasSentThinkingContent := true })
  else if d.choices = [] then ([.object d], t)
  else
    -- the loop over the choices sends the closing marker at its first choice or not at all
    let closes := d.hasContent && !t.sendLastThinkingContent && t.hasSentThinkingContent
    let silent := !d.hasThinkingContent && !d.hasContent
    ((if closes then [.object (d.showText "\n</think>\n")] else []) ++
      [.object { d with choices := d.choices.map (·.thinkToContent silent) }],
      { t with sendLastThinkingContent := t.sendLastThinkingContent || closes })

/-- `sendStreamData`. -/
def sendStreamData (env : StreamEnv) (forceFormat thinkToContent : Bool) (data : String)
    (t : ThinkingContentInfo) : Except String (List ClientData × ThinkingContentInfo) :=
  if data = "" then pure ([], t)
  else if !forceFormat && !thinkToContent then pure ([.string data], t)
  else do
    let lastStreamResponse ← env.unmarshal data
    if !thinkToContent then pure ([.object lastStreamResponse], t)
    else pure (sendThinking lastStreamResponse t)

/-! ## The handler -/

/-- What the handler keeps from chunk to chunk. -/
structure StreamState where
  lastStreamData : String := ""
  secondLastStreamData : String := ""
  responseText : String := ""
  toolCount : Nat := 0
  thinking : ThinkingContentInfo := {}

/-- The text of a chunk, choice by choice, as the tokens are counted (`ProcessStreamResponse`). -/
def ChatChunk.countedText (d : ChatChunk) : String :=
  concat (d.choices.map fun c => c.delta.getContentString ++ c.delta.getReasoningContent ++
    concat (c.delta.toolCalls.map fun tool => tool.name ++ tool.arguments))

/-- `processTokenData`: a chunk that cannot be read counts nothing. -/
def processTokenData (env : StreamEnv) (data : String) (s : StreamState) : StreamState :=
  match env.unmarshal data with
  | .error _ => s
  | .ok d =>
    { s with
      responseText := s.responseText ++ d.countedText
      toolCount := d.choices.foldl (fun n c => max n c.delta.toolCalls.length) s.toolCount }

/-- What a call of `sendStreamData` sends; an error is only recorded. -/
def sent (env : StreamEnv) (info : StreamInfo) (s : StreamState) :
    List ClientData × ThinkingContentInfo :=
  match sendStreamData env info.forceFormat info.thinkingToContent s.lastStreamData s.thinking with
  | .error _ => ([], s.thinking)
  | .ok r => r

/-- The callback of the scanner: it sends the chunk before and keeps this one. -/
def handleData (env : StreamEnv) (info : StreamInfo) (data : String) (s : StreamState) :
    List ClientData × StreamState :=
  let isAudioModel := containsText (toLowerAscii info.upstreamModelName) "audio"
  let (out, thinking) := if s.lastStreamData ≠ "" then sent env info s else ([], s.thinking)
  let s := { s with thinking }
  if data = "" then (out, s)
  else
    let secondLast := if isAudioModel ∧ s.lastStreamData ≠ "" then s.lastStreamData
      else s.secondLastStreamData
    (out, processTokenData env data
      { s with lastStreamData := data, secondLastStreamData := secondLast })

/-- The callback for one data after the other. -/
def readStream (env : StreamEnv) (info : StreamInfo) :
    List String → StreamState → List ClientData × StreamState
  | [], s => ([], s)
  | data :: rest, s =>
    let (out, s) := handleData env info data s
    let (later, s) := readStream env info rest s
    (out ++ later, s)

/-- What the end of the stream knows of the response. -/
structure LastResponse where
  responseId : String := ""
  model : String
  usage : Option ChatUsage := none
  shouldSendLastResp : Bool := true

/-- `handleLastResponse`; `usage` is set exactly when the stream contains one. -/
def handleLastResponse (env : StreamEnv) (info : StreamInfo) (lastStreamData : String)
    (r : LastResponse) : LastResponse :=
  match env.unmarshal lastStreamData with
  | .error _ => r
  | .ok d =>
    let r := { r with responseId := d.id, model := d.model }
    if validUsage d.usage then
      { r with
        usage := d.usage
        shouldSendLastResp :=
          if info.shouldIncludeUsage then r.shouldSendLastResp else d.choices.any (·.hasText) }
    else r

/-- The usage in the last chunk but one, for an audio model. -/
def audioUsage (env : StreamEnv) (s : StreamState) : Option ChatUsage :=
  if s.secondLastStreamData = "" then none
  else match env.unmarshalUsage s.secondLastStreamData with
    | .error _ => none
    | .ok usage => if validUsage usage then usage else none

/-- `HandleFinalResponse`. -/
def finalResponse (info : StreamInfo) (r : LastResponse) (usage : ChatUsage) : List ClientData :=
  (if info.shouldIncludeUsage ∧ r.usage = none then
    [.object { id := r.responseId, model := r.model, choices := [], usage := some usage }] else []) ++
  [.done]

/-- `OaiStreamHandler` for a client that speaks the OpenAI format. -/
def openAIStreamHandler (env : StreamEnv) (info : StreamInfo) (lines : List String) :
    List ClientData :=
  let (out, s) := readStream env info (streamScannerData lines) {}
  let r := handleLastResponse env info s.lastStreamData
    { model := info.upstreamModelName, usage := audioUsage env s }
  let last := if r.shouldSendLastResp then (sent env info s).1 else []
  let estimate := env.responseText2Usage s.responseText info.upstreamModelName
  let usage := env.applyUsagePostProcessing
    (r.usage.getD
      { estimate with completionTokens := estimate.completionTokens + s.toolCount * 7 })
    s.lastStreamData
  out ++ last ++ finalResponse info r usage

/-! ## Nothing is withheld -/

/-- The data sent on as they came. -/
def forwarded (out : List ClientData) : List String :=
  out.filterMap fun
    | .string data => some data
    | _ => none

@[simp] theorem forwarded_append (xs ys : List ClientData) :
    forwarded (xs ++ ys) = forwarded xs ++ forwarded ys :=
  filterMap_append

@[simp] theorem forwarded_finalResponse (info : StreamInfo) (r : LastResponse) (usage : ChatUsage) :
    forwarded (finalResponse info r usage) = [] := by
  unfold finalResponse
  split_ifs <;> rfl

/-- The chunk that is kept back. -/
def StreamState.pending (s : StreamState) : List String :=
  if s.lastStreamData = "" then [] else [s.lastStreamData]

/-- A client of this format that asks for no conversion. -/
def StreamInfo.plain (info : StreamInfo) : StreamInfo :=
  { info with forceFormat := false, thinkingToContent := false }

section

variable (env : StreamEnv)

@[simp] theorem processTokenData_lastStreamData (data : String) (s : StreamState) :
    (processTokenData env data s).lastStreamData = s.lastStreamData := by
  unfold processTokenData
  split <;> rfl

/-- Without a conversion a call sends the chunk that was kept back. -/
theorem forwarded_sent (info : StreamInfo) (s : StreamState) :
    forwarded (sent env info.plain s).1 = s.pending := by
  by_cases h : s.lastStreamData = "" <;>
    simp [sent, sendStreamData, StreamInfo.plain, StreamState.pending, h, forwarded, pure, Except.pure]

/-- The callback sends what was kept back and keeps what it is given. -/
theorem handleData_plain (info : StreamInfo) {data : String} (hne : data ≠ "")
    (s : StreamState) :
    forwarded (handleData env info.plain data s).1 = s.pending ∧
      (handleData env info.plain data s).2.lastStreamData = data := by
  simp only [handleData, if_neg hne]
  refine ⟨?_, by simp⟩
  split_ifs with h
  · exact forwarded_sent env info s
  · simp [StreamState.pending, h, forwarded]

/-- Reading a stream forwards its data one behind: what was sent and what is kept back are what was
kept back before and the data. -/
theorem readStream_plain (info : StreamInfo) {datas : List String}
    (hne : ∀ data ∈ datas, data ≠ "") (s : StreamState) :
    forwarded (readStream env info.plain datas s).1 ++ (readStream env info.plain datas s).2.pending =
      s.pending ++ datas := by
  induction datas generalizing s with
  | nil => simp [readStream, forwarded]
  | cons data rest ih =>
    obtain ⟨hout, hlast⟩ := handleData_plain env info (hne data (mem_cons_self ..)) s
    have hrest := ih (fun d hd => hne d (mem_cons_of_mem _ hd))
      (handleData env info.plain data s).2
    simp only [readStream, forwarded_append, append_assoc, hrest, hout]
    simp [StreamState.pending, hlast, hne data (mem_cons_self ..)]

/-- The chunk that is kept back in the end is the last one. -/
theorem readStream_lastStreamData (info : StreamInfo) {datas : List String}
    (hne : ∀ data ∈ datas, data ≠ "") (s : StreamState) :
    (readStream env info.plain datas s).2.lastStreamData = datas.getLast?.getD s.lastStreamData := by
  induction datas generalizing s with
  | nil => rfl
  | cons data rest ih =>
    obtain ⟨-, hlast⟩ := handleData_plain env info (hne data (mem_cons_self ..)) s
    have hrest := ih (fun d hd => hne d (mem_cons_of_mem _ hd))
      (handleData env info.plain data s).2
    show (readStream env info.plain rest (handleData env info.plain data s).2).2.lastStreamData = _
    rw [hrest, hlast, List.getLast?_cons, Option.getD_some]

/-- The last chunk is sent unless it brings a usage that was not asked for and no words. -/
theorem handleLastResponse_sends_iff (info : StreamInfo) (data : String)
    {r : LastResponse} (hr : r.shouldSendLastResp = true) :
    (handleLastResponse env info data r).shouldSendLastResp = true ↔
      info.shouldIncludeUsage = true ∨ ∀ d, env.unmarshal data = .ok d →
        validUsage d.usage = false ∨ d.choices.any (·.hasText) = true := by
  unfold handleLastResponse
  cases hu : env.unmarshal data with
  | error e => simp [hr]
  | ok d =>
    cases hv : validUsage d.usage <;> cases hi : info.shouldIncludeUsage <;>
      simp [hr, hv]

end

/-- Whether the data are a chunk that carries something. -/
def StreamEnv.carries (env : StreamEnv) (data : String) : Bool :=
  match env.unmarshal data with
  | .error _ => false
  | .ok d => d.carries

/-- Every chunk that carries content, reasoning, a delta of a tool call or a finish reason is forwarded
once and in order if and only if the usage was asked for or the last chunk has no usage, or has words,
or carries nothing. -/
theorem every_chunk_forwarded_iff (env : StreamEnv) (info : StreamInfo) (lines : List String) :
    (forwarded (openAIStreamHandler env info.plain lines)).filter env.carries =
        (streamScannerData lines).filter env.carries ↔
      info.shouldIncludeUsage = true ∨
        ∀ data ∈ (streamScannerData lines).getLast?, ∀ d, env.unmarshal data = .ok d →
          validUsage d.usage = false ∨ d.choices.any (·.hasText) = true ∨ d.carries = false := by
  have hne : ∀ data ∈ streamScannerData lines, data ≠ "" :=
    fun data => ne_empty_of_mem_streamScannerData
  unfold openAIStreamHandler
  generalize streamScannerData lines = datas at hne
  have hread := readStream_plain env info hne {}
  have hlast := readStream_lastStreamData env info hne {}
  rw [show StreamState.pending {} = [] from rfl, nil_append] at hread
  generalize readStream env info.plain datas {} = read at hread hlast
  obtain ⟨out, s⟩ := read
  -- the data are what was sent before the end and then the chunk that was kept back
  simp only [forwarded_append, forwarded_finalResponse, append_nil]
  cases hd : datas.getLast? with
  | none =>
    obtain rfl : datas = [] := List.getLast?_eq_none_iff.mp hd
    obtain ⟨hout, hpending⟩ := append_eq_nil_iff.mp hread
    have hsent : forwarded (sent env info.plain s).1 = [] := (forwarded_sent env info s).trans hpending
    split_ifs <;> simp [hout, hsent, show forwarded [] = [] from rfl]
  | some data =>
    have hdata : data ∈ datas := List.mem_of_getLast? hd
    have hs : s.lastStreamData = data := by simpa [hd] using hlast
    have hpending : s.pending = [data] := by simp [StreamState.pending, hs, hne data hdata]
    have hsends := handleLastResponse_sends_iff env info.plain s.lastStreamData
      (r := { model := info.plain.upstreamModelName, usage := audioUsage env s }) rfl
    rw [← hread, filter_append, filter_append]
    rw [hs] at hsends ⊢
    by_cases hsend : (handleLastResponse env info.plain data
        { model := info.plain.upstreamModelName, usage := audioUsage env s }).shouldSendLastResp = true
    · rw [if_pos hsend, forwarded_sent]
      refine iff_of_true rfl ((hsends.mp hsend).imp id ?_)
      rintro h _ ⟨rfl⟩ d hok
      exact (h d hok).imp id .inl
    · -- the last chunk has a usage that was not asked for and no words
      have hkept := mt hsends.mpr hsend
      push Not at hkept
      obtain ⟨hinclude, d, hok, hvalid, htext⟩ := hkept
      have hcarries : env.carries data = d.carries := by simp [StreamEnv.carries, hok]
      replace hinclude : ¬ info.shouldIncludeUsage = true := hinclude
      rw [if_neg hsend, hpending]
      simp [-any_eq_true, hok, hvalid, htext, hinclude, hcarries, show forwarded [] = [] from rfl]

/-- A decoder that knows a chunk with a text and a chunk with the finish reason and the usage. -/
def sampleStreamEnv : StreamEnv where
  unmarshal data :=
    if data = "hello" then .ok { choices := [{ delta := { content := some "Hello" } }] }
    else if data = "stop" then
      .ok { choices := [{ finishReason := some "stop" }], usage := some ⟨3, 1, 0, 0, 0, 0⟩ }
    else .error "unexpected end of JSON input"
  unmarshalUsage _ := .ok none
  responseText2Usage _ _ := ⟨0, 0, 0, 0, 0, 0⟩
  applyUsagePostProcessing usage _ := usage

/-- A finish reason in one chunk with the usage does not reach a client that did not ask for the
usage. -/
theorem finish_reason_withheld :
    (streamScannerData ["data: hello", "data: stop", "data: [DONE]"]).filter sampleStreamEnv.carries =
        ["hello", "stop"] ∧
      openAIStreamHandler sampleStreamEnv {} ["data: hello", "data: stop", "data: [DONE]"] =
        [.string "hello", .done] := by
  decide +kernel

end Prox
