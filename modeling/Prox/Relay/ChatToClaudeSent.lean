import Prox.Lib.Lists
import Prox.Relay.ChatToClaudeRuns

/-! # When a chat request keeps its conversation

The blocks that the second pass sends are those of the messages of the first pass, behind a placeholder at
most. What is lost between the two is lost in the runs: `openAI_conversation_sent_iff` says exactly when
nothing is. -/

namespace Prox

open ContentPart List OpenAIMessage

section ChatToClaude

variable {V : Type}

/-! ## The second pass -/

/-- The files of a message that is converted can be had. -/
def OpenAIMessage.Fetchable (env : ChatToClaudeEnv V) (m : OpenAIMessage V) : Prop :=
  m.role ≠ "system" → m.role ≠ "tool" → ∀ source, .file (some source) ∈ m.content.parts env →
    ∃ data, env.getBase64Data source = .ok data

/-- The blocks of the messages built so far. -/
def ConvertState.blocks (s : ConvertState V) : List (ClaudeMediaMessage V) :=
  s.claudeMessages.flatMap (·.content.blocks)

/-- The blocks that a message of the second pass becomes. -/
def BecomesBlocks (env : ChatToClaudeEnv V) (m : OpenAIMessage V) (blocks : List (ClaudeMediaMessage V)) :
    Prop :=
  if m.role = "system" then blocks = []
  else if m.role = "tool" then blocks = [toolResultBlock m]
  else ∃ content, claudeContent env m = .ok content ∧ blocks = content.blocks

/-- A message of the user or the assistant. -/
def OfTwo (m : ConvertedMessage V) : Prop := m.role = "user" ∨ m.role = "assistant"

/-- What is there before a message besides the messages before it. -/
theorem openingMessage_cases (first : Bool) (role : String) :
    openingMessage (V := V) first role = [] ∨
      first = true ∧ openingMessage (V := V) first role = [⟨"user", .media [.textBlock "..."]⟩] := by
  unfold openingMessage
  split_ifs with h
  · exact .inr ⟨h.1, rfl⟩
  · exact .inl rfl

theorem openingMessage_ofTwo (first : Bool) (role : String) :
    ∀ c ∈ openingMessage (V := V) first role, OfTwo c := by
  intro c hc
  rcases openingMessage_cases (V := V) first role with h | ⟨-, h⟩
  · rw [h] at hc
    cases hc
  · rw [h, mem_singleton] at hc
    rw [hc]
    exact .inl rfl

/-- A tool result is a block behind the others. -/
theorem blocks_appendToolResult (cs : List (ConvertedMessage V)) (result : ClaudeMediaMessage V) :
    (appendToolResult cs result).flatMap (·.content.blocks)
      = cs.flatMap (·.content.blocks) ++ [result] := by
  unfold appendToolResult
  cases hlast : cs.getLast? with
  | none => simp [ClaudeContent.blocks]
  | some c =>
    obtain ⟨init, rfl⟩ := List.getLast?_eq_some_iff.mp hlast
    dsimp only
    split_ifs <;> simp [ClaudeContent.blocks]

theorem ofTwo_appendToolResult {cs : List (ConvertedMessage V)} {result : ClaudeMediaMessage V} :
    (∀ c ∈ appendToolResult cs result, OfTwo c) ↔ ∀ c ∈ cs, OfTwo c := by
  have huser : ∀ content : ClaudeContent V, OfTwo ⟨"user", content⟩ := fun _ => .inl rfl
  unfold appendToolResult
  cases hlast : cs.getLast? with
  | none => simp [or_imp, forall_and, huser]
  | some c =>
    obtain ⟨init, rfl⟩ := List.getLast?_eq_some_iff.mp hlast
    dsimp only
    by_cases hc : c.role = "user"
    · have hc' : OfTwo c := .inl hc
      simp [or_imp, forall_and, hc', hc, huser]
    · rw [if_neg hc]
      simp [or_imp, forall_and, huser]

/-- What one message of the second pass changes. -/
structure Converts (env : ChatToClaudeEnv V) (s : ConvertState V) (m : OpenAIMessage V)
    (s' : ConvertState V) : Prop where
  blocks : ∃ blocks, BecomesBlocks env m blocks ∧ s'.blocks = s.blocks ++
    ((if m.role = "system" then [] else openingMessage s.isFirstMessage m.role).flatMap
      (·.content.blocks) ++ blocks)
  isFirstMessage : s'.isFirstMessage = (s.isFirstMessage && m.role = "system")
  roles : (∀ c ∈ s'.claudeMessages, OfTwo c) ↔ (∀ c ∈ s.claudeMessages, OfTwo c) ∧ m.role ∈ knownRoles

variable {env : ChatToClaudeEnv V} {m : OpenAIMessage V}

/-- **One message of the second pass.** -/
theorem convertMessage_converts {s s' : ConvertState V} (h : convertMessage env s m = .ok s') :
    Converts env s m s' := by
  unfold convertMessage at h
  by_cases hsystem : m.role = "system"
  · rw [if_pos hsystem, pure_eq_ok] at h
    subst h
    refine ⟨⟨[], by rw [BecomesBlocks, if_pos hsystem], ?_⟩, by simp [hsystem], ?_⟩
    · simp [hsystem, ConvertState.blocks]
    · simp [hsystem, knownRoles]
  · rw [if_neg hsystem] at h
    have hopening := openingMessage_ofTwo (V := V) s.isFirstMessage m.role
    by_cases htool : m.role = "tool"
    · rw [if_pos htool, pure_eq_ok] at h
      subst h
      refine ⟨⟨[toolResultBlock m], by rw [BecomesBlocks, if_neg hsystem, if_pos htool], ?_⟩,
        by simp [hsystem], ?_⟩
      · rw [if_neg hsystem]
        simp [ConvertState.blocks, blocks_appendToolResult]
      · rw [ofTwo_appendToolResult]
        have hknown : m.role ∈ knownRoles := by simp [htool, knownRoles]
        simp only [forall_mem_append, and_iff_left hopening, hknown, and_true]
    · rw [if_neg htool, bind_eq_ok] at h
      obtain ⟨content, hcontent, h⟩ := h
      rw [pure_eq_ok] at h
      subst h
      have hbecomes : BecomesBlocks env m content.blocks := by
        rw [BecomesBlocks, if_neg hsystem, if_neg htool]
        exact ⟨content, hcontent, rfl⟩
      refine ⟨⟨content.blocks, hbecomes, ?_⟩, by simp [hsystem], ?_⟩
      · rw [if_neg hsystem]
        simp [ConvertState.blocks]
      · have hknown : OfTwo (V := V) ⟨m.role, content⟩ ↔ m.role ∈ knownRoles := by
          simp [OfTwo, knownRoles, hsystem, htool]
        simp only [forall_mem_append, and_iff_left hopening, forall_mem_singleton, hknown]

/-- The parts can be converted when their files can be had. -/
theorem exists_contentBlocks {parts : List ContentPart} :
    (∃ blocks, contentBlocks env parts = .ok blocks) ↔
      ∀ source, .file (some source) ∈ parts → ∃ data, env.getBase64Data source = .ok data := by
  induction parts with
  | nil => exact iff_of_true ⟨[], rfl⟩ nofun
  | cons part parts ih =>
    have hpart : (∃ blocks, partBlocks env part = .ok blocks) ↔
        ∀ source, part = .file (some source) → ∃ data, env.getBase64Data source = .ok data := by
      cases part with
      | text text => exact iff_of_true ⟨_, rfl⟩ nofun
      | file source =>
        cases source with
        | none => exact iff_of_true ⟨_, rfl⟩ nofun
        | some source =>
          rw [partBlocks, exists_bind_eq_ok]
          simp [pure_eq_ok]
    have hcons : (∃ blocks, contentBlocks env (part :: parts) = .ok blocks) ↔
        (∃ blocks, partBlocks env part = .ok blocks) ∧ ∃ blocks, contentBlocks env parts = .ok blocks := by
      rw [contentBlocks]
      simp only [exists_bind_eq_ok, pure_eq_ok, exists_eq', and_true, exists_and_right]
    rw [hcons, hpart, ih]
    constructor
    · rintro ⟨h1, h2⟩ source hsource
      rcases mem_cons.mp hsource with h | h
      · exact h1 source h.symm
      · exact h2 source h
    · intro h
      exact ⟨fun source hsource => h source (mem_cons.mpr (.inl hsource.symm)),
        fun source hsource => h source (mem_cons_of_mem _ hsource)⟩

theorem exists_claudeContent :
    (∃ content, claudeContent env m = .ok content) ↔
      ∀ source, .file (some source) ∈ m.content.parts env → ∃ data, env.getBase64Data source = .ok data := by
  have hblocks : (∃ content, (do
        let blocks ← contentBlocks env (m.content.parts env)
        pure (ClaudeContent.media (blocks ++ (m.toolCalls.getD []).map (toolUse env)))) =
          Except.ok content) ↔
      ∃ blocks, contentBlocks env (m.content.parts env) = .ok blocks := by
    simp only [exists_bind_eq_ok, pure_eq_ok, exists_eq', and_true]
  unfold claudeContent
  rw [← exists_contentBlocks, ← hblocks]
  split
  · next text htext hcalls => exact iff_of_true ⟨_, rfl⟩ ⟨_, by rw [htext]; rfl⟩
  · exact Iff.rfl

/-- A message is converted when its files can be had. -/
theorem exists_convertMessage {s : ConvertState V} :
    (∃ s', convertMessage env s m = .ok s') ↔ m.Fetchable env := by
  unfold convertMessage Fetchable
  by_cases hsystem : m.role = "system"
  · rw [if_pos hsystem]
    exact iff_of_true ⟨_, rfl⟩ fun h => absurd hsystem h
  · rw [if_neg hsystem]
    by_cases htool : m.role = "tool"
    · rw [if_pos htool]
      exact iff_of_true ⟨_, rfl⟩ fun _ h => absurd htool h
    · rw [if_neg htool, ← exists_claudeContent]
      simp only [exists_bind_eq_ok, pure_eq_ok, exists_eq', and_true]
      exact ⟨fun h _ _ => h, fun h => h hsystem htool⟩

variable {ms run : List (OpenAIMessage V)}

/-- **The second pass.** The blocks are those of the messages, behind a placeholder at most. -/
theorem foldlM_convertMessage {s s' : ConvertState V}
    (h : ms.foldlM (convertMessage env) s = .ok s') :
    (∃ opening parts, (opening = [] ∨ s.isFirstMessage = true ∧ opening = [.textBlock "..."]) ∧
      List.Forall₂ (BecomesBlocks env) ms parts ∧ s'.blocks = s.blocks ++ (opening ++ parts.flatten)) ∧
    ((∀ c ∈ s'.claudeMessages, OfTwo c) ↔
      (∀ c ∈ s.claudeMessages, OfTwo c) ∧ ∀ m ∈ ms, m.role ∈ knownRoles) := by
  induction ms generalizing s with
  | nil =>
    rw [foldlM_nil, pure_eq_ok] at h
    subst h
    exact ⟨⟨[], [], .inl rfl, .nil, by simp⟩, by simp⟩
  | cons m ms ih =>
    rw [List.foldlM_cons, bind_eq_ok] at h
    obtain ⟨t, ht, h⟩ := h
    obtain ⟨⟨blocks, hblocks, hsent⟩, hfirst, hroles⟩ := convertMessage_converts ht
    obtain ⟨⟨opening, parts, hopening, hparts, hsent'⟩, hroles'⟩ := ih h
    constructor
    · by_cases hsystem : m.role = "system"
      · -- the system prompt is not sent with the messages
        rw [BecomesBlocks, if_pos hsystem] at hblocks
        subst hblocks
        refine ⟨opening, [] :: parts, ?_, .cons (by rw [BecomesBlocks, if_pos hsystem]) hparts, ?_⟩
        · rw [hfirst] at hopening
          simpa [hsystem] using hopening
        · rw [hsent', hsent, if_pos hsystem]
          simp
      · -- behind this message no placeholder can come
        have hnone : opening = [] := by
          rw [hfirst] at hopening
          simpa [hsystem] using hopening
        rw [if_neg hsystem] at hsent
        refine ⟨(openingMessage s.isFirstMessage m.role).flatMap (·.content.blocks), blocks :: parts, ?_,
          .cons hblocks hparts, ?_⟩
        · rcases openingMessage_cases (V := V) s.isFirstMessage m.role with h | ⟨hs, h⟩
          · exact .inl (by rw [h]; rfl)
          · exact .inr ⟨hs, by rw [h]; rfl⟩
        · rw [hsent', hsent, hnone]
          simp
    · rw [hroles', hroles, forall_mem_cons, and_assoc]

/-- The second pass comes to its end when the files of all messages can be had. -/
theorem exists_foldlM_convertMessage {s : ConvertState V} :
    (∃ s', ms.foldlM (convertMessage env) s = .ok s') ↔ ∀ m ∈ ms, m.Fetchable env := by
  induction ms generalizing s with
  | nil => exact iff_of_true ⟨s, rfl⟩ nofun
  | cons m ms ih =>
    rw [List.foldlM_cons, exists_bind_eq_ok, forall_mem_cons, ← exists_convertMessage (s := s)]
    simp [ih]

/-! ## What the blocks hold -/

/-- A message as the first pass leaves it: only the assistant's has tool calls, and its content is not
empty. -/
structure Formatted (m : OpenAIMessage V) : Prop where
  toolCalls : m.role ≠ "assistant" → m.toolCalls = none
  content : m.content.orPlaceholder = m.content

theorem orPlaceholder_orPlaceholder (c : AnyContent V) : c.orPlaceholder.orPlaceholder = c.orPlaceholder := by
  cases c with
  | null => rfl
  | string text => by_cases h : text = "" <;> simp [AnyContent.orPlaceholder, h]
  | value v => rfl

theorem formatted_formatted (l m : OpenAIMessage V) : Formatted (formatted l m) :=
  ⟨fun h => if_neg h, orPlaceholder_orPlaceholder _⟩

/-- The blocks of parts are texts, images and documents. -/
theorem contentBlocks_spec {parts : List ContentPart} {blocks : List (ClaudeMediaMessage V)}
    (h : contentBlocks env parts = .ok blocks) :
    (blocks.filter (·.type = "text")).map (·.getText) = parts.filterMap ContentPart.said ∧
      ∀ b ∈ blocks, b.type ≠ "tool_use" ∧ b.type ≠ "tool_result" := by
  induction parts generalizing blocks with
  | nil =>
    cases pure_eq_ok.mp h
    exact ⟨rfl, by simp⟩
  | cons part parts ih =>
    simp only [contentBlocks, ok_iff] at h
    obtain ⟨bs, hbs, others, hothers, rfl⟩ := h
    obtain ⟨htexts, htypes⟩ := ih hothers
    have hpart : (bs.filter (·.type = "text")).map (·.getText) = part.said.toList ∧
        ∀ b ∈ bs, b.type ≠ "tool_use" ∧ b.type ≠ "tool_result" := by
      cases part with
      | text text =>
        cases pure_eq_ok.mp hbs
        by_cases ht : text = ""
        · simp [ht, ContentPart.said]
        · simp [ht, ContentPart.said, ClaudeMediaMessage.textBlock, ClaudeMediaMessage.getText]
      | file source =>
        cases source with
        | none =>
          cases pure_eq_ok.mp hbs
          exact ⟨rfl, by simp⟩
        | some source =>
          simp only [partBlocks, ok_iff] at hbs
          obtain ⟨data, -, rfl⟩ := hbs
          by_cases hpdf : hasPrefix data.2 "application/pdf" = true <;> simp [hpdf, ContentPart.said]
    rw [filter_append, map_append, htexts, hpart.1]
    refine ⟨?_, fun b hb => (mem_append.mp hb).elim (hpart.2 b) (htypes b)⟩
    cases hsaid : part.said <;> simp [hsaid]

/-- The blocks of a content: its texts, and behind them the tool calls. -/
theorem claudeContent_spec {content : ClaudeContent V} (hm : Formatted m)
    (h : claudeContent env m = .ok content) :
    content.blocks.filter (·.type = "tool_use") = (m.toolCalls.getD []).map (toolUse env) ∧
    content.blocks.filter (·.type = "tool_result") = [] ∧
    (content.blocks.filter (·.type = "text")).map (·.getText) = m.content.texts env := by
  have hcontent := hm.content
  unfold claudeContent at h
  split at h
  · next text htext hcalls =>
    cases pure_eq_ok.mp h
    rw [htext] at hcontent
    have hplaceholder : (if text = "" then "..." else text) = text := AnyContent.string.inj hcontent
    rw [hplaceholder, hcalls, htext]
    simp [ClaudeContent.blocks, ClaudeMediaMessage.textBlock, ClaudeMediaMessage.getText, AnyContent.texts]
  · rw [bind_eq_ok] at h
    obtain ⟨blocks, hblocks, h⟩ := h
    cases pure_eq_ok.mp h
    obtain ⟨htexts, htypes⟩ := contentBlocks_spec hblocks
    have huse : blocks.filter (·.type = "tool_use") = [] :=
      filter_eq_nil_iff.mpr fun b hb => by simpa using (htypes b hb).1
    have hresult : blocks.filter (·.type = "tool_result") = [] :=
      filter_eq_nil_iff.mpr fun b hb => by simpa using (htypes b hb).2
    have hcalls : ∀ b ∈ (m.toolCalls.getD []).map (toolUse env), b.type = "tool_use" := by
      intro b hb
      obtain ⟨call, -, rfl⟩ := mem_map.mp hb
      rfl
    have hparts : (m.content.parts env).filterMap ContentPart.said = m.content.texts env := by
      cases hc : m.content with
      | null => rfl
      | string text =>
        rw [hc] at hcontent
        have hplaceholder : (if text = "" then "..." else text) = text := AnyContent.string.inj hcontent
        have hne : text ≠ "" := by
          rintro rfl
          revert hplaceholder
          decide
        simp [AnyContent.parts, AnyContent.texts, ContentPart.said, hne]
      | value v => rfl
    have hself : ∀ type : String, type ≠ "tool_use" →
        ((m.toolCalls.getD []).map (toolUse env)).filter (·.type = type) = [] := by
      intro type htype
      refine filter_eq_nil_iff.mpr fun b hb => ?_
      simpa [hcalls b hb] using htype.symm
    have hself_result := hself "tool_result" (by decide)
    have hself_text := hself "text" (by decide)
    simp only [ClaudeContent.blocks, filter_append, huse, hresult, hself_result, hself_text,
      append_nil, nil_append, htexts, hparts]
    exact ⟨filter_eq_self.mpr fun b hb => decide_eq_true (hcalls b hb), trivial, trivial⟩

/-- **The blocks of a message** hold its tool calls, the result it is and its texts. -/
theorem BecomesBlocks.spec {blocks : List (ClaudeMediaMessage V)} (hm : Formatted m)
    (hrole : m.role ∈ knownRoles) (h : BecomesBlocks env m blocks) :
    blocks.filter (·.type = "tool_use") = m.calls.map (toolUse env) ∧
    blocks.filter (·.type = "tool_result") = ([m].filter (·.role = "tool")).map toolResultBlock ∧
    (blocks.filter (·.type = "text")).map (·.getText) = m.texts env := by
  unfold BecomesBlocks at h
  by_cases hsystem : m.role = "system"
  · rw [if_pos hsystem] at h
    subst h
    simp [calls, texts, hsystem]
  · rw [if_neg hsystem] at h
    by_cases htool : m.role = "tool"
    · rw [if_pos htool] at h
      subst h
      simp [calls, texts, htool, toolResultBlock]
    · rw [if_neg htool] at h
      obtain ⟨content, hcontent, rfl⟩ := h
      obtain ⟨huse, hresult, htexts⟩ := claudeContent_spec hm hcontent
      have hspeaks : m.role = "user" ∨ m.role = "assistant" := by
        simpa [knownRoles, hsystem, htool] using hrole
      refine ⟨?_, ?_, ?_⟩
      · rw [huse, calls]
        by_cases hassistant : m.role = "assistant"
        · rw [if_pos hassistant]
        · rw [if_neg hassistant, hm.toolCalls hassistant]
          rfl
      · rw [hresult]
        simp [htool]
      · rw [htexts, texts, if_pos hspeaks]

/-- The blocks of all messages. -/
theorem becomesBlocks_flatten {parts : List (List (ClaudeMediaMessage V))}
    (hparts : List.Forall₂ (BecomesBlocks env) ms parts)
    (hms : ∀ m ∈ ms, Formatted m ∧ m.role ∈ knownRoles) :
    parts.flatten.filter (·.type = "tool_use") = (ms.flatMap calls).map (toolUse env) ∧
    parts.flatten.filter (·.type = "tool_result") = (ms.filter (·.role = "tool")).map toolResultBlock ∧
    (parts.flatten.filter (·.type = "text")).map (·.getText) = ms.flatMap (texts env) := by
  induction hparts with
  | nil => exact ⟨rfl, rfl, rfl⟩
  | @cons m blocks ms parts hm _ ih =>
    obtain ⟨⟨hformatted, hrole⟩, hms⟩ := forall_mem_cons.mp hms
    obtain ⟨huse, hresult, htexts⟩ := hm.spec hformatted hrole
    obtain ⟨huses, hresults, htextss⟩ := ih hms
    have hcons : (m :: ms).filter (·.role = "tool") = [m].filter (·.role = "tool") ++
        ms.filter (·.role = "tool") := filter_append [m] ms
    rw [flatten_cons, filter_append, filter_append, filter_append,
        map_append, huse, hresult, htexts, huses, hresults, htextss, flatMap_cons, hcons,
        map_append, map_append]
    exact ⟨rfl, rfl, rfl⟩

/-! ## The conversation -/

theorem formattedRun_formatted (hne : run ≠ []) : Formatted (formattedRun run) := by
  obtain ⟨l, hl⟩ := exists_formattedRun_eq hne
  rw [hl]
  exact formatted_formatted l _

/-- A run has files when one of its messages has. -/
theorem formattedRun_fetchable (hchain : run.IsChain fun x y => merges x y) (hne : run ≠ []) :
    (formattedRun run).Fetchable env ↔ ∀ m ∈ run, m.Fetchable env := by
  have hfile : ∀ (c : AnyContent V) (source : FileSource),
      file (some source) ∈ c.orPlaceholder.parts env ↔ .file (some source) ∈ c.parts env := by
    intro c source
    cases c <;> simp [AnyContent.orPlaceholder, AnyContent.parts]
  have hnofile : ∀ m : OpenAIMessage V, (∀ v, m.content ≠ .value v) → m.Fetchable env := by
    intro m hm _ _ source hsource
    cases hc : m.content with
    | value v => exact absurd hc (hm v)
    | null | string => simp [hc, AnyContent.parts] at hsource
  cases run with
  | nil => exact absurd rfl hne
  | cons a rest =>
    by_cases hrest : rest = []
    · subst hrest
      show (formatted { role := "tool" } a).Fetchable env ↔ _
      have hcontent : (formatted { role := "tool" } a).content = a.content.orPlaceholder := by
        show AnyContent.orPlaceholder _ = _
        rw [mergedText_tool]
        rfl
      simp [Fetchable, hcontent, hfile]
    · have hlast : (a :: rest).getLast hne ∈ rest := by
        rw [getLast_cons hrest]
        exact getLast_mem hrest
      obtain ⟨l, hl⟩ := exists_formattedRun_eq hne
      obtain ⟨-, -, text, htext⟩ := of_mem_chain hchain hlast
      refine iff_of_true (hnofile _ ?_) fun m hm => hnofile m ?_
      · rw [hl]
        intro v hv
        have hv' : ((mergedText l ((a :: rest).getLast hne)).elim
          ((a :: rest).getLast hne).content AnyContent.string).orPlaceholder = .value v := hv
        rw [htext] at hv'
        cases hmerged : mergedText l ((a :: rest).getLast hne) <;> rw [hmerged] at hv' <;> cases hv'
      · rcases mem_cons.mp hm with rfl | hm
        · exact (head_of_chain hchain hrest).2
        · obtain ⟨-, -, text, htext⟩ := of_mem_chain hchain hm
          intro v hv
          rw [htext] at hv
          cases hv

/-- The tool messages are runs of their own. -/
theorem formattedRun_results (hchain : run.IsChain fun x y => merges x y) (hne : run ≠ []) :
    List.Forall₂ ResultSentAs (run.filter (·.role = "tool"))
      (([formattedRun run].filter (·.role = "tool")).map toolResultBlock) := by
  cases run with
  | nil => exact absurd rfl hne
  | cons a rest =>
    have hrole := formattedRun_role hchain (mem_cons_self ..)
    by_cases htool : a.role = "tool"
    · have hrest : rest = [] := by
        by_contra h
        exact (head_of_chain hchain h).1 htool
      subst hrest
      rw [filter_cons_of_pos (by simpa using htool), filter_cons_of_pos (by simpa [hrole] using htool)]
      refine .cons ⟨?_, ?_⟩ .nil
      · exact if_pos htool
      · show AnyContent.orPlaceholder _ = _
        rw [mergedText_tool]
        rfl
    · have hnone : (a :: rest).filter (·.role = "tool") = [] := by
        refine filter_eq_nil_iff.mpr fun m hm => ?_
        rw [← formattedRun_role hchain hm, hrole]
        simpa using htool
      rw [hnone, filter_cons_of_neg (by simpa [hrole] using htool)]
      exact .nil

variable (env : ChatToClaudeEnv V)

/-- A call is sent by its own block. -/
theorem sentAs_toolUse (call : ToolCallRequest) :
    SentAs env call (toolUse env call) := by
  refine ⟨rfl, rfl, fun v hne hv => ?_⟩
  show some (toolInput env call.arguments) = some v
  rw [toolInput, if_neg hne, hv]
  rfl

/-- Every call has its block exactly when no message with calls is put together with one behind it. -/
theorem calls_sent_iff (messages : List (OpenAIMessage V)) :
    List.Forall₂ (SentAs env) (messages.flatMap calls)
      (((formatMessages messages).flatMap calls).map (toolUse env)) ↔
    ∀ run ∈ messages.splitBy merges, ∀ m ∈ run.dropLast, m.calls = [] := by
  have hruns : ∀ run ∈ messages.splitBy merges,
      ((formattedRun run).calls).Sublist (run.flatMap calls) ∧
      ((formattedRun run).calls = run.flatMap calls ↔ ∀ m ∈ run.dropLast, m.calls = []) :=
    fun run hrun => formattedRun_calls (ne_nil_of_mem_splitBy hrun)
  have hformat : (formatMessages messages).flatMap calls
      = (messages.splitBy merges).flatMap fun run => (formattedRun run).calls := by
    rw [formatMessages_eq, flatMap_map]
  have hmessages : messages.flatMap calls
      = (messages.splitBy merges).flatMap fun run => run.flatMap calls := by
    conv_lhs => rw [← flatten_splitBy merges messages, flatten_eq_flatMap, flatMap_assoc]
    rfl
  have heq : (formatMessages messages).flatMap calls = messages.flatMap calls ↔
      ∀ run ∈ messages.splitBy merges, ∀ m ∈ run.dropLast, m.calls = [] := by
    rw [hformat, hmessages, flatMap_eq_flatMap_iff fun run hrun => (hruns run hrun).1]
    exact forall₂_congr fun run hrun => (hruns run hrun).2
  have hsub : ((formatMessages messages).flatMap calls).Sublist
      (messages.flatMap calls) := by
    rw [hformat, hmessages]
    exact flatMap_sublist_flatMap fun run hrun => (hruns run hrun).1
  rw [← heq]
  constructor
  · intro h
    -- there are as many blocks as calls
    have hlen := h.length_eq
    rw [length_map] at hlen
    exact hsub.eq_of_length hlen.symm
  · intro h
    rw [h, forall₂_map_right_iff]
    exact forall₂_same.mpr fun call _ => sentAs_toolUse env call

/-- The texts that are sent join those of the messages exactly when no quote stands where two are put
together. -/
theorem texts_sent_iff {messages : List (OpenAIMessage V)}
    (hroles : ∀ m ∈ messages, m.role ∈ knownRoles) {opening : List String}
    (hopening : opening = [] ∨ opening = ["..."]) :
    (∃ groups : List (List String), groups.flatten = messages.flatMap (texts env) ∧
      List.Forall₂ Joins groups
        (opening ++ (formatMessages messages).flatMap (texts env))) ↔
    ∀ a rest, a :: rest ∈ messages.splitBy merges → QuotesInside a rest := by
  have hchain : ∀ run ∈ messages.splitBy merges, run.IsChain fun x y => merges x y := fun run hrun =>
    isChain_of_mem_splitBy hrun
  have hrole : ∀ a rest, a :: rest ∈ messages.splitBy merges → a.role ∈ knownRoles := by
    intro a rest hrun
    refine hroles a ?_
    rw [← flatten_splitBy merges messages]
    exact mem_flatten.mpr ⟨_, hrun, mem_cons_self ..⟩
  have hformat : (formatMessages messages).flatMap (texts env)
      = (messages.splitBy merges).flatMap fun run => (formattedRun run).texts env := by
    rw [formatMessages_eq, flatMap_map]
  have hmessages : messages.flatMap (texts env)
      = (messages.splitBy merges).flatMap fun run => run.flatMap (texts env) := by
    conv_lhs => rw [← flatten_splitBy merges messages, flatten_eq_flatMap, flatMap_assoc]
    rfl
  rw [hformat, hmessages]
  have hnonempty : ∀ run ∈ messages.splitBy merges, run ≠ [] := fun run hrun =>
    ne_nil_of_mem_splitBy hrun
  generalize messages.splitBy merges = runs at hchain hrole hnonempty
  constructor
  · rintro ⟨groups, hflat, hjoins⟩
    have hquotes := quotes_of_groups hjoins
    have hnone : opening.flatMap quotes = [] := by rcases hopening with rfl | rfl <;> decide
    rw [hflat, flatMap_append, hnone, nil_append, flatMap_assoc, flatMap_assoc,
      flatMap_eq_flatMap_iff] at hquotes
    · intro a rest hrun
      exact (run_quotes env (hchain _ hrun) (hrole a rest hrun)).2.mp (hquotes _ hrun)
    · intro run hrun
      cases run with
      | nil => exact absurd rfl (hnonempty _ hrun)
      | cons a rest => exact (run_quotes env (hchain _ hrun) (hrole a rest hrun)).1
  · intro h
    obtain ⟨groups, hflat, hjoins⟩ : ∃ groups : List (List String),
        groups.flatten = (runs.flatMap fun run => run.flatMap (texts env)) ∧
        List.Forall₂ Joins groups (runs.flatMap fun run => (formattedRun run).texts env) := by
      clear hrole
      induction runs with
      | nil => exact ⟨[], rfl, .nil⟩
      | cons run runs ih =>
        obtain ⟨hrun, hchain⟩ := forall_mem_cons.mp hchain
        obtain ⟨hne, hnonempty⟩ := forall_mem_cons.mp hnonempty
        obtain ⟨groups, hflat, hjoins⟩ := ih hchain hnonempty
          fun a rest hmem => h a rest (mem_cons_of_mem _ hmem)
        cases run with
        | nil => exact absurd rfl hne
        | cons a rest =>
          obtain ⟨first, hfirst, hfirst'⟩ := exists_groups_run env hrun (h a rest (mem_cons_self ..))
          exact ⟨first ++ groups, by rw [flatten_append, hflat, hfirst]; rfl,
            rel_append hfirst' hjoins⟩
    rcases hopening with rfl | rfl
    · exact ⟨groups, hflat, hjoins⟩
    · exact ⟨[] :: groups, hflat, .cons (.inr rfl) hjoins⟩

/-- Every tool message has its block. -/
theorem results_sent (messages : List (OpenAIMessage V)) :
    List.Forall₂ ResultSentAs (messages.filter (·.role = "tool"))
      (((formatMessages messages).filter (·.role = "tool")).map toolResultBlock) := by
  have hchain : ∀ run ∈ messages.splitBy merges, run.IsChain fun x y => merges x y := fun run hrun =>
    isChain_of_mem_splitBy hrun
  have hnonempty : ∀ run ∈ messages.splitBy merges, run ≠ [] := fun run hrun =>
    ne_nil_of_mem_splitBy hrun
  conv => arg 2; rw [← flatten_splitBy merges messages]
  rw [formatMessages_eq]
  generalize messages.splitBy merges = runs at hchain hnonempty
  induction runs with
  | nil => exact .nil
  | cons run runs ih =>
    obtain ⟨hrun, hchain⟩ := forall_mem_cons.mp hchain
    obtain ⟨hne, hnonempty⟩ := forall_mem_cons.mp hnonempty
    have hcons : (formattedRun run :: runs.map formattedRun).filter (·.role = "tool")
        = [formattedRun run].filter (·.role = "tool") ++
          (runs.map formattedRun).filter (·.role = "tool") :=
      filter_append [formattedRun run] _
    rw [flatten_cons, filter_append, map_cons, hcons, map_append]
    exact rel_append (formattedRun_results hrun hne) (ih hchain hnonempty)

theorem runsKept_iff {runs : List (List (OpenAIMessage V))}
    (hchain : ∀ run ∈ runs, run.IsChain fun x y => merges x y) :
    ((∀ run ∈ runs, ∀ m ∈ run.dropLast, m.calls = []) ∧
      ∀ a rest, a :: rest ∈ runs → QuotesInside a rest) ↔
    ∀ a rest, a :: rest ∈ runs → rest ≠ [] → a.role ≠ "system" → RunKept a rest := by
  constructor
  · rintro ⟨hcalls, hquotes⟩ a rest hrun hne hsystem
    obtain ⟨hopens, hcloses⟩ := hquotes a rest hrun hne hsystem
    exact ⟨hcalls _ hrun, hopens, hcloses⟩
  · intro h
    refine ⟨fun run hrun m hm => ?_, fun a rest hrun hne hsystem =>
      ⟨(h a rest hrun hne hsystem).opens, (h a rest hrun hne hsystem).closes⟩⟩
    cases run with
    | nil => cases hm
    | cons a rest =>
      by_cases hne : rest = []
      · subst hne
        cases hm
      · by_cases hsystem : a.role = "system"
        · -- a run of the system has no calls
          have hrole : m.role = a.role := by
            rcases mem_cons.mp ((dropLast_sublist _).subset hm) with rfl | hm
            · rfl
            · exact (of_mem_chain (hchain _ hrun) hm).1
          rw [calls, if_neg (by rw [hrole, hsystem]; decide)]
        · exact (h a rest hrun hne hsystem).calls m hm

/-- **A chat request keeps its conversation on the way to Claude** exactly when all roles are known, the
files of its messages can be had, and in every run of messages of the user or the assistant that are put
together only the last one has tool calls, the first does not begin with a quote and no other one ends
with one. -/
theorem openAI_conversation_sent_iff (env : ChatToClaudeEnv V) (messages : List (OpenAIMessage V)) :
    (∃ r, requestOpenAI2ClaudeMessages env messages = .ok r ∧
      ConversationSent env messages r.claudeMessages) ↔
    (∀ m ∈ messages, m.role ∈ knownRoles) ∧ (∀ m ∈ messages, m.Fetchable env) ∧
    ∀ a rest, a :: rest ∈ messages.splitBy merges → rest ≠ [] → a.role ≠ "system" → RunKept a rest := by
  have hchain : ∀ run ∈ messages.splitBy merges, run.IsChain fun x y => merges x y := fun run hrun =>
    isChain_of_mem_splitBy hrun
  have hnonempty : ∀ run ∈ messages.splitBy merges, run ≠ [] := fun run hrun =>
    ne_nil_of_mem_splitBy hrun
  have hmem : ∀ p : OpenAIMessage V → Prop, (∀ m ∈ messages, p m) ↔
      ∀ run ∈ messages.splitBy merges, ∀ m ∈ run, p m := by
    intro p
    conv_lhs => rw [← flatten_splitBy merges messages]
    exact forall_mem_flatten
  -- the roles and the files are those of the messages of the first pass
  have hroles : (∀ m ∈ formatMessages messages, m.role ∈ knownRoles) ↔
      ∀ m ∈ messages, m.role ∈ knownRoles := by
    rw [hmem, formatMessages_eq, forall_mem_map]
    refine forall₂_congr fun run hrun => ?_
    have hrole := fun m (hm : m ∈ run) => formattedRun_role (hchain run hrun) hm
    exact ⟨fun h m hm => hrole m hm ▸ h,
      fun h => hrole _ (head_mem (hnonempty run hrun)) ▸ h _ (head_mem (hnonempty run hrun))⟩
  have hfetchable : (∀ m ∈ formatMessages messages, m.Fetchable env) ↔
      ∀ m ∈ messages, m.Fetchable env := by
    rw [hmem, formatMessages_eq, forall_mem_map]
    exact forall₂_congr fun run hrun => formattedRun_fetchable (hchain run hrun) (hnonempty run hrun)
  have hformatted : ∀ m ∈ formatMessages messages, Formatted m := by
    rw [formatMessages_eq, forall_mem_map]
    exact fun run hrun => formattedRun_formatted (hnonempty run hrun)
  have hsent : ∀ r, requestOpenAI2ClaudeMessages env messages = .ok r →
      (∀ m ∈ messages, m.role ∈ knownRoles) →
      (ConversationSent env messages r.claudeMessages ↔
        ∀ a rest, a :: rest ∈ messages.splitBy merges → rest ≠ [] → a.role ≠ "system" →
          RunKept a rest) := by
    intro r hr hknown
    obtain ⟨⟨opening, parts, hopening, hparts, hblocks⟩, hsentRoles⟩ := foldlM_convertMessage hr
    obtain ⟨huse, hresult, htexts⟩ := becomesBlocks_flatten hparts
      fun m hm => ⟨hformatted m hm, hroles.mpr hknown m hm⟩
    have hall : r.claudeMessages.flatMap (·.content.blocks) = opening ++ parts.flatten := hblocks
    have hopening' : opening.filter (·.type = "tool_use") = [] ∧
        opening.filter (·.type = "tool_result") = [] ∧
        ((opening.filter (·.type = "text")).map (·.getText) = [] ∨
          (opening.filter (·.type = "text")).map (·.getText) = ["..."]) := by
      rcases hopening with rfl | ⟨-, rfl⟩
      · simp
      · simp [ClaudeMediaMessage.textBlock, ClaudeMediaMessage.getText]
    obtain ⟨hopen1, hopen2, hopen3⟩ := hopening'
    have hparts_iff : ConversationSent env messages r.claudeMessages ↔
        List.Forall₂ (SentAs env) (messages.flatMap OpenAIMessage.calls)
          (((formatMessages messages).flatMap OpenAIMessage.calls).map (toolUse env)) ∧
        ∃ groups : List (List String), groups.flatten = messages.flatMap (OpenAIMessage.texts env) ∧
          List.Forall₂ Joins groups ((opening.filter (·.type = "text")).map (·.getText) ++
            (formatMessages messages).flatMap (OpenAIMessage.texts env)) := by
      have h1 : (r.claudeMessages.flatMap (·.content.blocks)).filter (·.type = "tool_use")
          = ((formatMessages messages).flatMap OpenAIMessage.calls).map (toolUse env) := by
        rw [hall, filter_append, hopen1, huse, nil_append]
      have h2 : (r.claudeMessages.flatMap (·.content.blocks)).filter (·.type = "tool_result")
          = ((formatMessages messages).filter (·.role = "tool")).map toolResultBlock := by
        rw [hall, filter_append, hopen2, hresult, nil_append]
      have h3 : ((r.claudeMessages.flatMap (·.content.blocks)).filter (·.type = "text")).map (·.getText)
          = (opening.filter (·.type = "text")).map (·.getText) ++
            (formatMessages messages).flatMap (OpenAIMessage.texts env) := by
        rw [hall, filter_append, map_append, htexts]
      rw [← h1, ← h3]
      constructor
      · exact fun h => ⟨h.calls, h.texts⟩
      · rintro ⟨hcalls, htexts⟩
        refine ⟨hcalls, h2 ▸ results_sent messages, htexts, ?_⟩
        exact hsentRoles.mpr ⟨nofun, hroles.mpr hknown⟩
    rw [hparts_iff, calls_sent_iff, texts_sent_iff env hknown hopen3, runsKept_iff hchain]
  constructor
  · rintro ⟨r, hr, hkept⟩
    obtain ⟨-, hsentRoles⟩ := foldlM_convertMessage hr
    have hknown := hroles.mp (hsentRoles.mp hkept.roles).2
    exact ⟨hknown, hfetchable.mp (exists_foldlM_convertMessage.mp ⟨r, hr⟩), (hsent r hr hknown).mp hkept⟩
  · rintro ⟨hknown, hfetch, hruns⟩
    obtain ⟨r, hr⟩ := exists_foldlM_convertMessage (s := {}) |>.mpr (hfetchable.mpr hfetch)
    exact ⟨r, hr, (hsent r hr hknown).mpr hruns⟩

end ChatToClaude

/-! ## Quotes and calls that are lost -/

/-- An environment with one value, the empty object. -/
def sampleChatToClaudeEnv : ChatToClaudeEnv Unit where
  parseContent _ := []
  unmarshalObject args := if args = "\x7b\x7d" then some () else none
  emptyObject := ()
  getBase64Data _ := .error "unsupported source"

/-- A quotation behind a request, and an answer behind a tool call. -/
def sampleChatMessages : List (OpenAIMessage Unit) :=
  [{ role := "user", content := .string "Translate:" },
    { role := "user", content := .string "\"Good day\"" },
    { role := "assistant", toolCalls := some [⟨"call_1", "dictionary", "\x7b\x7d"⟩] },
    { role := "assistant", content := .string "Done." }]

/-- The last quote and the tool call are not sent. -/
theorem openAI_conversation_lost :
    (requestOpenAI2ClaudeMessages sampleChatToClaudeEnv sampleChatMessages).map
      ConvertState.claudeMessages = .ok
        [⟨"user", .string "Translate: \"Good day"⟩, ⟨"assistant", .string "... Done."⟩] ∧
    ¬ ∃ r, requestOpenAI2ClaudeMessages sampleChatToClaudeEnv sampleChatMessages = .ok r ∧
      ConversationSent sampleChatToClaudeEnv sampleChatMessages r.claudeMessages := by
  have hmessages : (requestOpenAI2ClaudeMessages sampleChatToClaudeEnv sampleChatMessages).map
      ConvertState.claudeMessages = .ok
        [⟨"user", .string "Translate: \"Good day"⟩, ⟨"assistant", .string "... Done."⟩] := by
    decide
  refine ⟨hmessages, ?_⟩
  rintro ⟨r, hr, hsent⟩
  rw [hr] at hmessages
  have hcalls := hsent.calls.length_eq
  rw [Except.ok.inj hmessages] at hcalls
  revert hcalls
  decide

end Prox
