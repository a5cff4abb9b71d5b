import Prox.Relay.ClaudeWellFormed

/-! # What the converted stream says

A client of a Claude stream puts the text deltas together, the thinking deltas, and for each tool
block the pieces of its input. The chunks are taken apart into pieces, each marked as looked at or
passed over, and the converter is shown to work piece by piece: nothing but empty pieces may stand
where it does not look, and the arguments of a tool call must come before anything else is said. -/

namespace Prox

open ChoiceDelta ConvertInfo List Option

/-! ## Reassembly -/

/-- The text of a delta. -/
def ClaudeEvent.text? : ClaudeEvent → Option String
  | .contentBlockDelta _ (.text text) => some text
  | _ => none

/-- The thinking of a delta. -/
def ClaudeEvent.thinking? : ClaudeEvent → Option String
  | .contentBlockDelta _ (.thinking thinking) => some thinking
  | _ => none

/-- The tool block that an event starts. -/
def ClaudeEvent.tool? : ClaudeEvent → Option (Int × String × String)
  | .contentBlockStart index (.toolUse id name) => some (index, id, name)
  | _ => none

/-- The input of a tool block. -/
def ClaudeEvent.json? (index : Int) : ClaudeEvent → Option String
  | .contentBlockDelta i (.inputJson partialJson) => if i = index then some partialJson else none
  | _ => none

/-- All text of a stream. -/
def textOf (events : List ClaudeEvent) : String := concat (events.filterMap ClaudeEvent.text?)

/-- All thinking of a stream. -/
def thinkingOf (events : List ClaudeEvent) : String := concat (events.filterMap ClaudeEvent.thinking?)

/-- The tool blocks of a stream. -/
def toolStarts (events : List ClaudeEvent) : List (Int × String × String) :=
  events.filterMap ClaudeEvent.tool?

/-- All input of a block. -/
def jsonOf (events : List ClaudeEvent) (index : Int) : String :=
  concat (events.filterMap (ClaudeEvent.json? index))

/-- The tool calls of a Claude stream: id, name and input. -/
def toolUses (events : List ClaudeEvent) : List (String × String × String) :=
  (toolStarts events).map fun b => (b.2.1, b.2.2, jsonOf events b.1)

/-- The arguments of the tool call with an index. -/
def argumentsOf (index : Option Int) (ts : List ToolCallResponse) : String :=
  concat ((ts.filter fun t => t.index = index).map ToolCallResponse.arguments)

/-- The tool calls of a stream of chunks: id, name and arguments. -/
def toolCallsOf (ts : List ToolCallResponse) : List (String × String × String) :=
  (ts.filter fun t => t.name ≠ "").map fun t => (t.id, t.name, argumentsOf t.index ts)

/-- The events say what the chunks say, with one block for each tool call. -/
structure Preserves (ds : List ChatChunk) (events : List ClaudeEvent) : Prop where
  text : textOf events = concat (ds.map ChatChunk.content)
  thinking : thinkingOf events = concat (ds.map ChatChunk.reasoning)
  tools : toolUses events = toolCallsOf (ds.flatMap ChatChunk.toolDeltas)
  blocks : ((toolStarts events).map Prod.fst).Nodup

/-! ## What the converter passes over -/

namespace ChoiceDelta

/-- The pieces of a delta that is passed over. -/
def hiddenMarks (c : ChoiceDelta) : List (Bool × Piece) :=
  c.toolCalls.map (fun t => (false, .tool t)) ++
    [(false, .thinking c.getReasoningContent), (false, .text c.getContentString)]

/-- The pieces of a first delta, with those the converter looks at marked. -/
def firstMarks (c : ChoiceDelta) : List (Bool × Piece) :=
  (c.toolCalls.take 1).map (fun t => (true, .tool t)) ++
    (c.toolCalls.drop 1).map (fun t => (false, .tool t)) ++
    [(true, .thinking c.getReasoningContent),
      (decide (c.getReasoningContent = ""), .text c.getContentString)]

/-- The pieces of a later delta, with those the converter looks at marked. -/
def laterMarks (c : ChoiceDelta) : List (Bool × Piece) :=
  c.toolCalls.map (fun t => (true, .tool t)) ++
    [(decide (c.toolCalls = []), .thinking c.getReasoningContent),
      (decide (c.toolCalls = [] ∧ c.getReasoningContent = ""), .text c.getContentString)]

end ChoiceDelta

/-- The pieces of the later chunks. Nothing is looked at after the chunk that closes the stream: one
without choices once the usage is `known`, or one with a finish reason and a usage. -/
def marksLater (known : Bool) : List ChatChunk → List (Bool × Piece)
  | [] => []
  | d :: ds =>
    if d.Closing known ∨ (d.Finished ∧ d.usage.isSome) then
      d.delta.laterMarks ++ ds.flatMap fun d => d.delta.hiddenMarks
    else if d.Finished then d.delta.hiddenMarks ++ marksLater known ds
    else d.delta.laterMarks ++ marksLater (known || d.usage.isSome) ds

/-- The pieces of a stream, with those the converter looks at marked. Of two chunks both are taken for
the first. -/
def marks : List ChatChunk → List (Bool × Piece)
  | [] => []
  | [d] => marksLater false [d]
  | [d, d'] => d.delta.firstMarks ++ if d.Finished then d'.delta.hiddenMarks else d'.delta.firstMarks
  | d :: ds => d.delta.firstMarks ++
      if d.Finished then ds.flatMap fun d => d.delta.hiddenMarks
      else marksLater d.usage.isSome ds

/-- The deltas of a tool call that have no arguments. -/
def NoArguments (index : Option Int) (ps : List (Bool × Piece)) : Prop :=
  ∀ p ∈ ps, ∀ t, p.2 = .tool t → t.index = index → t.arguments = ""

/-- After the tool call was started: its deltas are looked at before any text or thinking is, or they
have no arguments. -/
def ArgumentsKept (index : Option Int) : List (Bool × Piece) → Prop
  | [] => True
  | (shown, .tool t) :: ps =>
    (shown = false → t.index = index → t.arguments = "") ∧ ArgumentsKept index ps
  | (shown, .text text) :: ps =>
    if shown ∧ text ≠ "" then NoArguments index ps else ArgumentsKept index ps
  | (shown, .thinking thinking) :: ps =>
    if shown ∧ thinking ≠ "" then NoArguments index ps else ArgumentsKept index ps

/-- Every tool call is started, and its arguments are kept. -/
def ToolsKept : List (Bool × Piece) → Prop
  | [] => True
  | (shown, .tool t) :: ps =>
    (t.name ≠ "" → shown = true ∧ ArgumentsKept t.index ps) ∧ ToolsKept ps
  | _ :: ps => ToolsKept ps

/-- The text and the thinking that are passed over are empty. -/
def ContentKept (ps : List (Bool × Piece)) : Prop :=
  ∀ p ∈ ps, p.1 = false → ∀ text, (p.2 = .text text ∨ p.2 = .thinking text) → text = ""

section Decide

variable (index : Option Int)

instance : (p : Piece) → Decidable (∀ t, p = .tool t → t.index = index → t.arguments = "")
  | .tool t => decidable_of_iff (t.index = index → t.arguments = "")
      ⟨fun h _ ht => Piece.tool.inj ht ▸ h, fun h => h t rfl⟩
  | .text _ => isTrue nofun
  | .thinking _ => isTrue nofun

instance (ps : List (Bool × Piece)) : Decidable (NoArguments index ps) :=
  inferInstanceAs (Decidable (∀ p ∈ ps, _))

instance decidableArgumentsKept : (ps : List (Bool × Piece)) → Decidable (ArgumentsKept index ps)
  | [] => inferInstanceAs (Decidable True)
  | (_, .tool _) :: ps =>
    have := decidableArgumentsKept ps
    inferInstanceAs (Decidable (_ ∧ ArgumentsKept index ps))
  | (shown, .text text) :: ps =>
    have := decidableArgumentsKept ps
    inferInstanceAs (Decidable (if shown ∧ text ≠ "" then NoArguments index ps
      else ArgumentsKept index ps))
  | (shown, .thinking thinking) :: ps =>
    have := decidableArgumentsKept ps
    inferInstanceAs (Decidable (if shown ∧ thinking ≠ "" then NoArguments index ps
      else ArgumentsKept index ps))

instance decidableToolsKept : (ps : List (Bool × Piece)) → Decidable (ToolsKept ps)
  | [] => inferInstanceAs (Decidable True)
  | (_, .tool _) :: ps =>
    have := decidableToolsKept ps
    inferInstanceAs (Decidable (_ ∧ ToolsKept ps))
  | (_, .text _) :: ps => decidableToolsKept ps
  | (_, .thinking _) :: ps => decidableToolsKept ps

instance : (p : Piece) → Decidable (∀ text, (p = .text text ∨ p = .thinking text) → text = "")
  | .tool _ => isTrue nofun
  | .text x => decidable_of_iff (x = "")
      ⟨fun h _ ht => by rcases ht with ht | ht <;> cases ht; exact h, fun h => h x (.inl rfl)⟩
  | .thinking x => decidable_of_iff (x = "")
      ⟨fun h _ ht => by rcases ht with ht | ht <;> cases ht; exact h, fun h => h x (.inr rfl)⟩

instance (ps : List (Bool × Piece)) : Decidable (ContentKept ps) :=
  inferInstanceAs (Decidable (∀ p ∈ ps, p.1 = false → _))

end Decide

/-- Two chunks that both have tool calls: both start the block 0. -/
def TwoToolChunks : List ChatChunk → Prop
  | [d, d'] => ¬ d.Finished ∧ d.delta.toolCalls ≠ [] ∧ d'.delta.toolCalls ≠ []
  | _ => False

/-- The streams that lose nothing. -/
structure Lossless (ds : List ChatChunk) : Prop where
  content : ContentKept (marks ds)
  tools : ToolsKept (marks ds)
  blocks : ¬ TwoToolChunks ds

/-! ## Events that say something -/

/-- Deltas, and the starts of tool blocks. -/
def ClaudeEvent.speaks : ClaudeEvent → Bool
  | .contentBlockDelta .. => true
  | .contentBlockStart _ (.toolUse ..) => true
  | _ => false

/-- The events that say something. -/
def said (events : List ClaudeEvent) : List ClaudeEvent := events.filter ClaudeEvent.speaks

theorem said_append (es es' : List ClaudeEvent) : said (es ++ es') = said es ++ said es' :=
  filter_append ..

/-- Only the events that say something count. -/
theorem filterMap_said {β : Type} {f : ClaudeEvent → Option β}
    (hf : ∀ e, e.speaks = false → f e = none) (es : List ClaudeEvent) :
    (said es).filterMap f = es.filterMap f := by
  induction es with
  | nil => rfl
  | cons e es ih =>
    unfold said at ih ⊢
    cases he : e.speaks with
    | true => rw [filter_cons_of_pos he, filterMap_cons, filterMap_cons, ih]
    | false =>
      rw [filter_cons_of_neg (by simp [he]), filterMap_cons, hf e he]
      exact ih

section

variable (es : List ClaudeEvent)

theorem textOf_said : textOf (said es) = textOf es := by
  refine congrArg concat (filterMap_said (fun e he => ?_) es)
  cases e with
  | contentBlockDelta i delta => cases he
  | _ => rfl

theorem thinkingOf_said : thinkingOf (said es) = thinkingOf es := by
  refine congrArg concat (filterMap_said (fun e he => ?_) es)
  cases e with
  | contentBlockDelta i delta => cases he
  | _ => rfl

theorem toolStarts_said : toolStarts (said es) = toolStarts es := by
  refine filterMap_said (fun e he => ?_) es
  cases e with
  | contentBlockStart i block =>
    cases block with
    | toolUse => cases he
    | _ => rfl
  | _ => rfl

theorem jsonOf_said (b : Int) : jsonOf (said es) b = jsonOf es b := by
  refine congrArg concat (filterMap_said (fun e he => ?_) es)
  cases e with
  | contentBlockDelta i delta => cases he
  | _ => rfl

theorem toolUses_said : toolUses (said es) = toolUses es := by
  simp [toolUses, toolStarts_said, jsonOf_said]

end

theorem textOf_append (es es' : List ClaudeEvent) : textOf (es ++ es') = textOf es ++ textOf es' := by
  rw [textOf, filterMap_append, concat_append]
  rfl

theorem thinkingOf_append (es es' : List ClaudeEvent) :
    thinkingOf (es ++ es') = thinkingOf es ++ thinkingOf es' := by
  rw [thinkingOf, filterMap_append, concat_append]
  rfl

theorem toolStarts_append (es es' : List ClaudeEvent) :
    toolStarts (es ++ es') = toolStarts es ++ toolStarts es' := filterMap_append

theorem jsonOf_append (es es' : List ClaudeEvent) (b : Int) :
    jsonOf (es ++ es') b = jsonOf es b ++ jsonOf es' b := by
  rw [jsonOf, filterMap_append, concat_append]
  rfl

variable (s : ConvertInfo)

/-- The stops say nothing. -/
theorem said_stops : said s.stopOpenBlocks = [] := by
  refine filter_eq_nil_iff.mpr fun e he => ?_
  unfold stopOpenBlocks at he
  split at he
  · rw [mem_singleton.mp he]; nofun
  · rw [mem_singleton.mp he]; nofun
  · obtain ⟨o, -, rfl⟩ := List.mem_map.mp he
    nofun
  · cases he

/-- The end of the message says nothing. -/
theorem said_finish (stopReason : String) (u : Option ChatUsage) :
    said (s.finish stopReason u).1 = [] := by
  rw [finish, said_append, said_append, said_stops]
  cases u <;> rfl

/-! ## Piece by piece -/

/-- One piece. -/
def stepPiece (s : ConvertInfo) : Piece → List ClaudeEvent × ConvertInfo
  | .text text => laterContent { content := some text } s
  | .thinking thinking => laterContent { reasoningContent := some thinking } s
  | .tool t => laterContent { toolCalls := [t] } s

/-- The pieces that are looked at, one after the other. -/
def runMarks : ConvertInfo → List (Bool × Piece) → List ClaudeEvent × ConvertInfo
  | s, [] => ([], s)
  | s, (false, _) :: ps => runMarks s ps
  | s, (true, p) :: ps =>
    ((stepPiece s p).1 ++ (runMarks (stepPiece s p).2 ps).1, (runMarks (stepPiece s p).2 ps).2)

theorem runMarks_append (ps qs : List (Bool × Piece)) :
    runMarks s (ps ++ qs)
      = ((runMarks s ps).1 ++ (runMarks (runMarks s ps).2 qs).1,
        (runMarks (runMarks s ps).2 qs).2) := by
  induction ps generalizing s with
  | nil => rfl
  | cons p ps ih =>
    obtain ⟨_ | _, p⟩ := p
    · exact ih s
    · simp [runMarks, ih]

variable {ps : List (Bool × Piece)}

/-- Pieces that are passed over. -/
theorem runMarks_hidden (h : ∀ p ∈ ps, p.1 = false) :
    runMarks s ps = ([], s) := by
  induction ps with
  | nil => rfl
  | cons p ps ih =>
    obtain ⟨shown, p⟩ := p
    obtain rfl : shown = false := h _ mem_cons_self
    exact ih fun q hq => h q (mem_cons_of_mem _ hq)

theorem ChoiceDelta.hiddenMarks_hidden (c : ChoiceDelta) : ∀ p ∈ c.hiddenMarks, p.1 = false := by
  intro p hp
  simp only [hiddenMarks, mem_append, List.mem_map, mem_cons,
    not_mem_nil, or_false] at hp
  rcases hp with ⟨_, -, rfl⟩ | rfl | rfl <;> rfl

/-- Chunks that are passed over. -/
theorem runMarks_hiddenMarks (ds : List ChatChunk) :
    runMarks s (ds.flatMap fun d => d.delta.hiddenMarks) = ([], s) := by
  refine runMarks_hidden s fun p hp => ?_
  obtain ⟨d, -, hp⟩ := mem_flatMap.mp hp
  exact d.delta.hiddenMarks_hidden p hp

/-- Deltas that carry their index are placed by it. -/
theorem convertToolCalls_position {base : Int} {ts : List ToolCallResponse}
    (h : ∀ t ∈ ts, t.index.isSome) (i j : Nat) (maxOffset : Int) :
    convertToolCalls base i maxOffset ts = convertToolCalls base j maxOffset ts := by
  induction ts generalizing i j maxOffset with
  | nil => rfl
  | cons t ts ih =>
    obtain ⟨o, ho⟩ := isSome_iff_exists.mp (h t mem_cons_self)
    have hrest := ih (fun t' ht' => h t' (mem_cons_of_mem t ht')) (i + 1) (j + 1)
      (max maxOffset o)
    rw [convertToolCalls_cons, convertToolCalls_cons, ho]
    simp only [getD_some]
    rw [hrest]

/-- The state after a tool call. -/
def ConvertInfo.afterTool (s : ConvertInfo) (o : Int) : ConvertInfo :=
  { s.openTools with
    toolCallMaxIndexOffset := max s.openTools.toolCallMaxIndexOffset o
    index := s.openTools.toolCallBaseIndex + max s.openTools.toolCallMaxIndexOffset o }

variable {o : Int}

theorem stepPiece_tool {t : ToolCallResponse} (ho : t.index = some o) :
    stepPiece s (.tool t)
      = ((if s.lastMessagesType = .tools then [] else s.stopOpenBlocks) ++
          toolEvents s.openTools.toolCallBaseIndex o t, s.afterTool o) := by
  rw [stepPiece, laterContent_tools (by nofun), convertToolCalls_cons, ho]
  simp [convertToolCalls, afterTool]

/-- The tool calls of a chunk one after the other. -/
theorem laterContent_tools_runMarks {ts : List ToolCallResponse} (hne : ts ≠ [])
    (h : ∀ t ∈ ts, t.index.isSome) (s : ConvertInfo) {c : ChoiceDelta} (hc : c.toolCalls = ts) :
    laterContent c s = runMarks s (ts.map fun t => (true, .tool t)) := by
  induction ts generalizing s c with
  | nil => exact absurd rfl hne
  | cons t ts ih =>
    obtain ⟨o, ho⟩ := isSome_iff_exists.mp (h t mem_cons_self)
    have hindices : ∀ t' ∈ ts, t'.index.isSome := fun t' ht' => h t' (mem_cons_of_mem t ht')
    rw [map_cons, runMarks, stepPiece_tool s ho,
      laterContent_tools (by rw [hc]; exact hne), hc, convertToolCalls_cons, ho]
    have htype : (s.afterTool o).lastMessagesType = .tools := s.openTools_lastMessagesType
    have hopen : (s.afterTool o).openTools = s.afterTool o := if_pos htype
    by_cases hts : ts = []
    · subst hts
      simp [convertToolCalls, runMarks, afterTool]
    · have hrest : laterContent { toolCalls := ts } (s.afterTool o) = _ :=
        ih hts hindices (s.afterTool o) rfl
      have hcall : toolCalls { toolCalls := ts } ≠ [] := hts
      rw [← hrest, laterContent_tools hcall, hopen, if_pos htype, convertToolCalls_position
          hindices 1 0]
      simp [afterTool]

/-- Nothing to say. -/
theorem stepPiece_empty :
    stepPiece s (.text "") = ([], s) ∧ stepPiece s (.thinking "") = ([], s) := ⟨rfl, rfl⟩

/-- **A chunk is converted piece by piece.** -/
theorem laterContent_runMarks (c : ChoiceDelta) (h : ∀ t ∈ c.toolCalls, t.index.isSome)
    (s : ConvertInfo) : laterContent c s = runMarks s c.laterMarks := by
  by_cases htools : c.toolCalls = []
  · have hmarks : c.laterMarks = [(true, .thinking c.getReasoningContent),
        (decide (c.getReasoningContent = ""), .text c.getContentString)] := by
      simp [laterMarks, htools]
    have hthinking : getReasoningContent { reasoningContent := some c.getReasoningContent }
      = c.getReasoningContent := rfl
    have htext : getContentString { content := some c.getContentString }
      = c.getContentString := rfl
    have hempty : getReasoningContent { content := some c.getContentString } = "" := rfl
    rw [hmarks]
    by_cases hreasoning : c.getReasoningContent = ""
    · rw [hreasoning, decide_eq_true rfl]
      simp only [runMarks, (stepPiece_empty s).2, nil_append, append_nil]
      simp [stepPiece, laterContent, htools, hreasoning, htext, hempty]
    · rw [decide_eq_false hreasoning]
      simp only [runMarks, append_nil]
      simp [stepPiece, laterContent, htools, hreasoning, hthinking, ne_eq]
  · have hmarks : c.laterMarks = c.toolCalls.map (fun t => (true, .tool t)) ++
        [(false, .thinking c.getReasoningContent), (false, .text c.getContentString)] := by
      simp [laterMarks, htools]
    rw [hmarks, runMarks_append, ← laterContent_tools_runMarks htools h s rfl]
    simp [runMarks]

/-! ## What the pieces say -/

/-- The text of a piece. -/
def Piece.text? : Piece → Option String
  | .text x => some x
  | _ => none

/-- The thinking of a piece. -/
def Piece.thinking? : Piece → Option String
  | .thinking x => some x
  | _ => none

/-- The tool call of a piece. -/
def Piece.tool? : Piece → Option ToolCallResponse
  | .tool t => some t
  | _ => none

/-- What the pieces that are looked at have of a kind. -/
def shownOf {β : Type} (f : Piece → Option β) (ps : List (Bool × Piece)) : List β :=
  ps.filterMap fun p => if p.1 then f p.2 else none

/-- What all pieces have of a kind. -/
def allOf {β : Type} (f : Piece → Option β) (ps : List (Bool × Piece)) : List β :=
  ps.filterMap fun p => f p.2

/-- The state after a block of text or of thinking was begun. -/
def ConvertInfo.continue (s : ConvertInfo) (t : LastMessageType) : ConvertInfo :=
  { (if s.lastMessagesType = t then s else s.advance) with lastMessagesType := t }

theorem stepPiece_text {text : String} (hne : text ≠ "") :
    said (stepPiece s (.text text)).1
        = [.contentBlockDelta (s.continue .text).index (.text text)] ∧
      (stepPiece s (.text text)).2 = s.continue .text := by
  have hempty : ChoiceDelta.getReasoningContent { content := some text } = "" := rfl
  have htext : ChoiceDelta.getContentString { content := some text } = text := rfl
  simp only [stepPiece, laterContent, hempty, htext, ne_eq, not_true, if_false, hne,
    not_false_eq_true, if_true, ConvertInfo.continue, and_true]
  by_cases htype : s.lastMessagesType = .text
  · simp only [htype, if_true]
    rfl
  · simp only [htype, if_false]
    rw [said_append, said_append, said_stops]
    rfl

theorem stepPiece_thinking {thinking : String} (hne : thinking ≠ "") :
    said (stepPiece s (.thinking thinking)).1
        = [.contentBlockDelta (s.continue .thinking).index (.thinking thinking)] ∧
      (stepPiece s (.thinking thinking)).2 = s.continue .thinking := by
  have hthinking : ChoiceDelta.getReasoningContent { reasoningContent := some thinking } = thinking :=
    rfl
  simp only [stepPiece, laterContent, hthinking, ne_eq, not_true, if_false, hne,
    not_false_eq_true, if_true, ConvertInfo.continue, and_true]
  by_cases htype : s.lastMessagesType = .thinking
  · simp only [htype, if_true]
    rfl
  · simp only [htype, if_false]
    rw [said_append, said_append, said_stops]
    rfl

theorem said_stepPiece_tool {t : ToolCallResponse} (ho : t.index = some o) :
    said (stepPiece s (.tool t)).1 = toolEvents s.openTools.toolCallBaseIndex o t := by
  have hstops : said (if s.lastMessagesType = .tools then [] else s.stopOpenBlocks) = [] := by
    split
    · rfl
    · exact said_stops s
  have htool : said (toolEvents s.openTools.toolCallBaseIndex o t)
      = toolEvents s.openTools.toolCallBaseIndex o t := by
    unfold toolEvents
    split <;> split <;> rfl
  rw [stepPiece_tool s ho, said_append, hstops, htool, nil_append]

section ToolEvents

variable (base o : Int) (t : ToolCallResponse)

theorem textOf_toolEvents : textOf (toolEvents base o t) = "" := by
  unfold toolEvents
  split <;> split <;> rfl

theorem thinkingOf_toolEvents : thinkingOf (toolEvents base o t) = "" := by
  unfold toolEvents
  split <;> split <;> rfl

theorem toolStarts_toolEvents :
    toolStarts (toolEvents base o t)
      = if t.name ≠ "" then [(base + o, t.id, t.name)] else [] := by
  unfold toolEvents
  split <;> split <;> rfl

theorem jsonOf_toolEvents (b : Int) :
    jsonOf (toolEvents base o t) b = if base + o = b then t.arguments else "" := by
  have hone : jsonOf (if t.arguments ≠ "" then
      [.contentBlockDelta (base + o) (.inputJson t.arguments)] else []) b
        = if base + o = b then t.arguments else "" := by
    by_cases hargs : t.arguments = ""
    · simp [hargs, jsonOf, concat]
    · by_cases hb : base + o = b
      · simp [hargs, hb, jsonOf, ClaudeEvent.json?, concat]
      · simp [hargs, hb, jsonOf, ClaudeEvent.json?, concat]
  have hstart : jsonOf (if t.name ≠ "" then
      [.contentBlockStart (base + o) (.toolUse t.id t.name)] else []) b = "" := by
    split <;> rfl
  rw [toolEvents, jsonOf_append, hstart, hone, String.empty_append]

end ToolEvents

/-- What is read off the events of each piece is read off the events of all. -/
theorem concat_runMarks {f : Piece → Option String} {g : ClaudeEvent → Option String}
    (h : ∀ p ∈ ps, ∀ s, concat ((stepPiece s p.2).1.filterMap g) = (f p.2).getD "") :
    concat ((runMarks s ps).1.filterMap g) = concat (shownOf f ps) := by
  induction ps generalizing s with
  | nil => rfl
  | cons p ps ih =>
    have hrest := fun s => ih s fun q hq => h q (mem_cons_of_mem _ hq)
    have hpiece := h p mem_cons_self s
    obtain ⟨_ | _, p⟩ := p
    · exact hrest s
    · rw [runMarks, filterMap_append, concat_append, hrest, hpiece]
      change _ = concat (List.filterMap _ ((true, p) :: ps))
      rw [filterMap_cons]
      cases hf : f p with
      | none =>
        exact String.empty_append
      | some x =>
        rfl

/-- Every tool call of the pieces has an index. -/
def Indexed (ps : List (Bool × Piece)) : Prop := ∀ p ∈ ps, ∀ t, p.2 = .tool t → t.index.isSome

theorem textOf_runMarks (h : Indexed ps) (s : ConvertInfo) :
    textOf (runMarks s ps).1 = concat (shownOf Piece.text? ps) := by
  refine concat_runMarks s fun p hp s => ?_
  change textOf _ = _
  rw [← textOf_said]
  obtain ⟨_, p⟩ := p
  cases p with
  | text text =>
    by_cases hne : text = ""
    · rw [hne]
      rfl
    · rw [(stepPiece_text s hne).1]
      exact String.append_empty
  | thinking thinking =>
    by_cases hne : thinking = ""
    · rw [hne]
      rfl
    · rw [(stepPiece_thinking s hne).1]
      rfl
  | tool t =>
    obtain ⟨o, ho⟩ := isSome_iff_exists.mp (h _ hp t rfl)
    rw [said_stepPiece_tool s ho, textOf_toolEvents]
    rfl

theorem thinkingOf_runMarks (h : Indexed ps) (s : ConvertInfo) :
    thinkingOf (runMarks s ps).1 = concat (shownOf Piece.thinking? ps) := by
  refine concat_runMarks s fun p hp s => ?_
  change thinkingOf _ = _
  rw [← thinkingOf_said]
  obtain ⟨_, p⟩ := p
  cases p with
  | text text =>
    by_cases hne : text = ""
    · rw [hne]
      rfl
    · rw [(stepPiece_text s hne).1]
      rfl
  | thinking thinking =>
    by_cases hne : thinking = ""
    · rw [hne]
      rfl
    · rw [(stepPiece_thinking s hne).1]
      exact String.append_empty
  | tool t =>
    obtain ⟨o, ho⟩ := isSome_iff_exists.mp (h _ hp t rfl)
    rw [said_stepPiece_tool s ho, thinkingOf_toolEvents]
    rfl

/-! ## Tool blocks -/

/-- The arguments that reach the block of a tool: those of its deltas up to the next text or
thinking. -/
def runArguments (index : Option Int) : List (Bool × Piece) → String
  | [] => ""
  | (true, .tool t) :: ps =>
    if t.index = index then t.arguments ++ runArguments index ps else runArguments index ps
  | (true, .text x) :: ps => if x ≠ "" then "" else runArguments index ps
  | (true, .thinking x) :: ps => if x ≠ "" then "" else runArguments index ps
  | (false, _) :: ps => runArguments index ps

/-- The tool calls that are started, with the arguments that reach them. -/
def startedTools : List (Bool × Piece) → List (String × String × String)
  | [] => []
  | (true, .tool t) :: ps =>
    if t.name ≠ "" then (t.id, t.name, t.arguments ++ runArguments t.index ps) :: startedTools ps
    else startedTools ps
  | _ :: ps => startedTools ps

/-- A block that will not be touched again. -/
def ConvertInfo.Behind (s : ConvertInfo) (b : Int) : Prop :=
  b < if s.lastMessagesType = .tools then s.toolCallBaseIndex else s.advance.index

/-- A block that will not be started again, after `m` tools were named. -/
def ConvertInfo.Started (s : ConvertInfo) (m : Nat) (b : Int) : Prop :=
  if s.lastMessagesType = .tools then
    b < s.toolCallBaseIndex + m ∧ b ≤ s.toolCallBaseIndex + s.toolCallMaxIndexOffset
  else b < s.advance.index

variable {t : LastMessageType} {p : Bool × Piece} {m : Nat}

section Blocks

variable {s : ConvertInfo} {b : Int}

/-- In a run of tools the largest offset counts. -/
def ConvertInfo.Offset (s : ConvertInfo) : Prop :=
  s.lastMessagesType = .tools → 0 ≤ s.toolCallMaxIndexOffset

theorem ConvertInfo.afterTool_lastMessagesType (o : Int) :
    (s.afterTool o).lastMessagesType = .tools := s.openTools_lastMessagesType

theorem ConvertInfo.afterTool_base (o : Int) :
    (s.afterTool o).toolCallBaseIndex
      = if s.lastMessagesType = .tools then s.toolCallBaseIndex else s.advance.index := by
  unfold afterTool openTools
  split <;> rfl

theorem ConvertInfo.afterTool_max (o : Int) :
    (s.afterTool o).toolCallMaxIndexOffset
      = max (if s.lastMessagesType = .tools then s.toolCallMaxIndexOffset else 0) o := by
  unfold afterTool openTools
  split <;> rfl

theorem ConvertInfo.continue_advance_index (ht : t ≠ .tools) (hn : t ≠ .none) (s : ConvertInfo) :
    (s.continue t).advance.index
      = if s.lastMessagesType = t then s.advance.index else s.advance.index + 1 := by
  unfold ConvertInfo.continue
  cases t with
  | none => exact absurd rfl hn
  | tools => exact absurd rfl ht
  | text =>
    by_cases htype : s.lastMessagesType = .text
    · rw [if_pos htype, if_pos htype, ConvertInfo.advance, ConvertInfo.advance, htype]
    · rw [if_neg htype, if_neg htype]
      rfl
  | thinking =>
    by_cases htype : s.lastMessagesType = .thinking
    · rw [if_pos htype, if_pos htype, ConvertInfo.advance, ConvertInfo.advance, htype]
    · rw [if_neg htype, if_neg htype]
      rfl

theorem ConvertInfo.advance_index_tools (h : s.lastMessagesType = .tools) :
    s.advance.index = s.toolCallBaseIndex + s.toolCallMaxIndexOffset + 1 := by
  rw [advance, h]

/-- Text or thinking starts no tool block and feeds none. -/
theorem stepPiece_quiet {p : Piece} {x : String} (hp : p = .text x ∨ p = .thinking x) (hne : x ≠ "")
    (s : ConvertInfo) :
    toolStarts (stepPiece s p).1 = [] ∧ (∀ b, jsonOf (stepPiece s p).1 b = "") ∧
      ∃ t, t ≠ .tools ∧ t ≠ .none ∧ (stepPiece s p).2 = s.continue t := by
  rcases hp with rfl | rfl
  · obtain ⟨hsaid, hstate⟩ := stepPiece_text s hne
    refine ⟨?_, fun b => ?_, .text, nofun, nofun, hstate⟩
    · rw [← toolStarts_said, hsaid]
      rfl
    · rw [← jsonOf_said, hsaid]
      rfl
  · obtain ⟨hsaid, hstate⟩ := stepPiece_thinking s hne
    refine ⟨?_, fun b => ?_, .thinking, nofun, nofun, hstate⟩
    · rw [← toolStarts_said, hsaid]
      rfl
    · rw [← jsonOf_said, hsaid]
      rfl

/-- A tool call, in the block of its number. -/
theorem stepPiece_call {t : ToolCallResponse} (ho : t.index = some o) (s : ConvertInfo) :
    toolStarts (stepPiece s (.tool t)).1
        = (if t.name ≠ "" then [((s.afterTool o).toolCallBaseIndex + o, t.id, t.name)] else []) ∧
      (∀ b, jsonOf (stepPiece s (.tool t)).1 b
        = if (s.afterTool o).toolCallBaseIndex + o = b then t.arguments else "") ∧
      (stepPiece s (.tool t)).2 = s.afterTool o := by
  have hsaid := said_stepPiece_tool s ho
  refine ⟨?_, fun b => ?_, by rw [stepPiece_tool s ho]⟩
  · rw [← toolStarts_said, hsaid, toolStarts_toolEvents]
    rfl
  · rw [← jsonOf_said, hsaid, jsonOf_toolEvents]
    rfl

/-- A piece that is not looked at, or has nothing to say. -/
def Passed (p : Bool × Piece) : Prop := p.1 = false ∨ p.2 = .text "" ∨ p.2 = .thinking ""

theorem runMarks_passed (hp : Passed p) (s : ConvertInfo) (ps : List (Bool × Piece)) :
    runMarks s (p :: ps) = runMarks s ps := by
  obtain ⟨_ | _, p⟩ := p
  · rfl
  · rcases hp with hp | hp | hp
    · cases hp
    · obtain rfl : p = _ := hp
      rfl
    · obtain rfl : p = _ := hp
      rfl

theorem runArguments_passed (hp : Passed p) (index : Option Int) (ps : List (Bool × Piece)) :
    runArguments index (p :: ps) = runArguments index ps := by
  obtain ⟨_ | _, p⟩ := p
  · rfl
  · rcases hp with hp | hp | hp
    · cases hp
    · obtain rfl : p = _ := hp
      rfl
    · obtain rfl : p = _ := hp
      rfl

theorem startedTools_passed (hp : Passed p) (ps : List (Bool × Piece)) :
    startedTools (p :: ps) = startedTools ps := by
  obtain ⟨_ | _, p⟩ := p
  · rfl
  · rcases hp with hp | hp | hp
    · cases hp
    · obtain rfl : p = _ := hp
      rfl
    · obtain rfl : p = _ := hp
      rfl

/-- **Induction over pieces with numbered tool calls**: pieces that are passed over, text or thinking,
and the tool calls that are looked at, new ones and those of the tools before. -/
theorem numbered_induction {motive : Nat → List (Bool × Piece) → Prop} (nil : ∀ m, motive m [])
    (passed : ∀ m m' p ps, m ≤ m' → Passed p → Numbered m' (allOf Piece.tool? ps) → motive m' ps →
      motive m (p :: ps)) (content : ∀ m p x ps, x ≠ "" → p = .text x ∨ p = .thinking x →
      Numbered m (allOf Piece.tool? ps) → motive m ps → motive m ((true, p) :: ps))
    (tool : ∀ m m' o : Nat, ∀ t ps, t.index = some (o : Int) →
      (t.name ≠ "" ∧ o = m ∧ m' = m + 1) ∨ (t.name = "" ∧ o < m ∧ m' = m) →
      Numbered m' (allOf Piece.tool? ps) → motive m' ps → motive m ((true, .tool t) :: ps))
    (hnum : Numbered m (allOf Piece.tool? ps)) : motive m ps := by
  induction ps generalizing m with
  | nil => exact nil m
  | cons p ps ih =>
    obtain ⟨shown, p⟩ := p
    have hquiet : ∀ x, (p = .text x ∨ p = .thinking x) → Numbered m (allOf Piece.tool? ps) →
        motive m ((shown, p) :: ps) := by
      intro x hp hrest
      by_cases hx : x = ""
      · subst hx
        exact passed m m _ ps (Nat.le_refl m) (.inr hp) hrest (ih hrest)
      · cases shown with
        | false => exact passed m m _ ps (Nat.le_refl m) (.inl rfl) hrest (ih hrest)
        | true => exact content m p x ps hx hp hrest (ih hrest)
    cases p with
    | text x => exact hquiet x (.inl rfl) hnum
    | thinking x => exact hquiet x (.inr rfl) hnum
    | tool t =>
      rcases hnum with ⟨hindex, hname, hnum⟩ | ⟨⟨o, ho, hindex⟩, hname, hnum⟩
      · cases shown with
        | false => exact passed m (m + 1) _ ps (Nat.le_succ m) (.inl rfl) hnum (ih hnum)
        | true => exact tool m (m + 1) m t ps hindex (.inl ⟨hname, rfl, rfl⟩) hnum (ih hnum)
      · cases shown with
        | false => exact passed m m _ ps (Nat.le_refl m) (.inl rfl) hnum (ih hnum)
        | true => exact tool m m o t ps hindex (.inr ⟨hname, ho, rfl⟩) hnum (ih hnum)

theorem ConvertInfo.offset_continue (ht : t ≠ .tools) (s : ConvertInfo) :
    (s.continue t).Offset := fun h => absurd h ht

theorem ConvertInfo.offset_afterTool (ho : 0 ≤ o) (s : ConvertInfo) :
    (s.afterTool o).Offset := fun _ => by
  rw [afterTool_max]
  omega

/-- The next block after the open ones. -/
theorem ConvertInfo.advance_le_continue (ht : t ≠ .tools) (hn : t ≠ .none) (s : ConvertInfo) :
    s.advance.index ≤ (s.continue t).advance.index := by
  rw [continue_advance_index ht hn]
  split <;> omega

theorem ConvertInfo.Behind.continue (ht : t ≠ .tools) (hn : t ≠ .none) (h : s.Behind b)
    (hoff : s.Offset) : (s.continue t).Behind b := by
  have hle := s.advance_le_continue ht hn
  unfold Behind at h ⊢
  rw [if_neg (show (s.continue t).lastMessagesType ≠ .tools from ht)]
  by_cases htype : s.lastMessagesType = .tools
  · have hmax := hoff htype
    rw [if_pos htype] at h
    rw [advance_index_tools htype] at hle
    omega
  · rw [if_neg htype] at h
    omega

theorem ConvertInfo.Behind.afterTool (h : s.Behind b) (o : Int) : (s.afterTool o).Behind b := by
  unfold Behind at h ⊢
  rw [if_pos (s.afterTool_lastMessagesType o), afterTool_base]
  exact h

theorem ConvertInfo.Started.continue (ht : t ≠ .tools) (hn : t ≠ .none) (h : s.Started m b) :
    (s.continue t).Started m b := by
  have hle := s.advance_le_continue ht hn
  unfold Started at h ⊢
  rw [if_neg (show (s.continue t).lastMessagesType ≠ .tools from ht)]
  by_cases htype : s.lastMessagesType = .tools
  · rw [if_pos htype] at h
    rw [advance_index_tools htype] at hle
    omega
  · rw [if_neg htype] at h
    omega

theorem ConvertInfo.Started.mono {m' : Nat} (h : s.Started m b) (hm : m ≤ m') : s.Started m' b := by
  unfold Started at h ⊢
  split
  · next htype =>
    rw [if_pos htype] at h
    omega
  · next htype =>
    rw [if_neg htype] at h
    exact h

theorem ConvertInfo.Started.afterTool (h : s.Started m b) (ho : 0 ≤ o) :
    (s.afterTool o).Started m b := by
  unfold Started at h ⊢
  rw [if_pos (s.afterTool_lastMessagesType o), afterTool_base,
    afterTool_max]
  split
  · next htype =>
    rw [if_pos htype] at h
    omega
  · next htype =>
    rw [if_neg htype] at h
    omega

/-- A new tool has a new block. -/
theorem ConvertInfo.Started.ne (h : s.Started m b) (o : Int) :
    (s.afterTool o).toolCallBaseIndex + m ≠ b := by
  unfold Started at h
  rw [afterTool_base]
  split
  · next htype =>
    rw [if_pos htype] at h
    omega
  · next htype =>
    rw [if_neg htype] at h
    omega

/-- The block of a tool call is started, or never will be. -/
theorem ConvertInfo.started_afterTool {o : Nat} (ho : o < m) (s : ConvertInfo) :
    (s.afterTool o).Started m ((s.afterTool o).toolCallBaseIndex + o) := by
  unfold Started
  rw [if_pos (s.afterTool_lastMessagesType o), afterTool_max]
  omega

section

variable (hnum : Numbered m (allOf Piece.tool? ps))

include hnum

/-- **A block behind the open ones gets no more input.** -/
theorem jsonOf_behind (h : s.Behind b) (hoff : s.Offset) :
    jsonOf (runMarks s ps).1 b = "" := by
  revert s
  refine numbered_induction (motive := fun _ ps => ∀ {s : ConvertInfo}, s.Behind b → s.Offset →
    jsonOf (runMarks s ps).1 b = "") ?_ ?_ ?_ ?_ hnum
  · exact fun _ _ _ _ => rfl
  · intro m m' p ps _ hp _ ih s h hoff
    rw [runMarks_passed hp]
    exact ih h hoff
  · intro m p x ps hne hp _ ih s h hoff
    obtain ⟨-, hjson, t, ht, hn, hstate⟩ := stepPiece_quiet hp hne s
    rw [runMarks, jsonOf_append, hjson, hstate]
    exact ih (h.continue ht hn hoff) (s.offset_continue ht)
  · intro m m' o t ps ho _ _ ih s h hoff
    obtain ⟨-, hjson, hstate⟩ := stepPiece_call ho s
    have hne : (s.afterTool o).toolCallBaseIndex + o ≠ b := by
      have hbehind := h.afterTool o
      unfold Behind at hbehind
      rw [if_pos (s.afterTool_lastMessagesType o)] at hbehind
      omega
    rw [runMarks, jsonOf_append, hjson, hstate, if_neg hne]
    exact ih (h.afterTool o) (s.offset_afterTool (Int.natCast_nonneg o))

/-- **The input of an open tool block** is that of its deltas up to the next text or thinking. -/
theorem jsonOf_open {k : Nat}
    (htype : s.lastMessagesType = .tools) (hk : (k : Int) ≤ s.toolCallMaxIndexOffset)
    (hb : b = s.toolCallBaseIndex + k) :
    jsonOf (runMarks s ps).1 b = runArguments (some (k : Int)) ps := by
  revert s
  refine numbered_induction (motive := fun _ ps => ∀ {s : ConvertInfo}, s.lastMessagesType = .tools →
    (k : Int) ≤ s.toolCallMaxIndexOffset → b = s.toolCallBaseIndex + k →
    jsonOf (runMarks s ps).1 b = runArguments (some (k : Int)) ps) ?_ ?_ ?_ ?_ hnum
  · exact fun _ _ _ _ _ => rfl
  · intro m m' p ps _ hp _ ih s htype hk hb
    rw [runMarks_passed hp, runArguments_passed hp]
    exact ih htype hk hb
  · intro m p x ps hne hp hnum _ s htype hk hb
    obtain ⟨-, hjson, t, ht, hn, hstate⟩ := stepPiece_quiet hp hne s
    have hover : runArguments (some (k : Int)) ((true, p) :: ps) = "" := by
      rcases hp with rfl | rfl <;> exact if_pos hne
    -- the next block comes after all the tools
    have hbehind : (s.continue t).Behind b := by
      have hle := s.advance_le_continue ht hn
      rw [advance_index_tools htype] at hle
      unfold Behind
      rw [if_neg (show (s.continue t).lastMessagesType ≠ .tools from ht)]
      omega
    rw [runMarks, jsonOf_append, hjson, hstate, hover]
    exact jsonOf_behind hnum hbehind (s.offset_continue ht)
  · intro m m' o t ps ho _ _ ih s htype hk hb
    obtain ⟨-, hjson, hstate⟩ := stepPiece_call ho s
    have hbase : (s.afterTool o).toolCallBaseIndex = s.toolCallBaseIndex := by
      rw [afterTool_base, if_pos htype]
    have hmax : (k : Int) ≤ (s.afterTool o).toolCallMaxIndexOffset := by
      rw [afterTool_max, if_pos htype]
      omega
    have hrest := ih (s.afterTool_lastMessagesType o) hmax (hbase ▸ hb)
    have hcall : runArguments (some (k : Int)) ((true, .tool t) :: ps)
        = if t.index = some (k : Int) then t.arguments ++ runArguments (some (k : Int)) ps
          else runArguments (some (k : Int)) ps := rfl
    have hsame : s.toolCallBaseIndex + o = b ↔ t.index = some (k : Int) := by
      rw [ho, Option.some.injEq]
      omega
    rw [runMarks, jsonOf_append, hjson, hstate, hbase, hrest, hcall]
    by_cases hkey : t.index = some (k : Int)
    · rw [if_pos (hsame.mpr hkey), if_pos hkey]
    · rw [if_neg (fun h => hkey (hsame.mp h)), if_neg hkey, String.empty_append]

/-- A block is not started twice. -/
theorem notMem_toolStarts (h : s.Started m b) :
    b ∉ (toolStarts (runMarks s ps).1).map Prod.fst := by
  revert s
  refine numbered_induction (motive := fun m ps => ∀ {s : ConvertInfo}, s.Started m b →
    b ∉ (toolStarts (runMarks s ps).1).map Prod.fst) ?_ ?_ ?_ ?_ hnum
  · exact fun _ _ _ => not_mem_nil
  · intro m m' p ps hm hp _ ih s h
    rw [runMarks_passed hp]
    exact ih (h.mono hm)
  · intro m p x ps hne hp _ ih s h
    obtain ⟨hstarts, -, t, ht, hn, hstate⟩ := stepPiece_quiet hp hne s
    rw [runMarks, toolStarts_append, hstarts, hstate]
    exact ih (h.continue ht hn)
  · intro m m' o t ps ho hturn _ ih s h
    obtain ⟨hstarts, -, hstate⟩ := stepPiece_call ho s
    have hm : m ≤ m' := by omega
    have hrest := ih ((h.afterTool (Int.natCast_nonneg o)).mono hm)
    rw [runMarks, toolStarts_append, hstarts, hstate, map_append, mem_append]
    rintro (hmem | hmem)
    · rcases hturn with ⟨hname, rfl, -⟩ | ⟨hname, -⟩
      · rw [if_pos hname] at hmem
        exact h.ne _ (mem_singleton.mp hmem).symm
      · rw [if_neg (not_not.mpr hname)] at hmem
        cases hmem
    · exact hrest hmem

end

/-- Events that start no block of the rest and feed none of its blocks. -/
theorem toolUses_append {es es' : List ClaudeEvent} (hstarts : toolStarts es = [])
    (hjson : ∀ b ∈ (toolStarts es').map Prod.fst, jsonOf es b = "") :
    toolUses (es ++ es') = toolUses es' := by
  rw [toolUses, toolStarts_append, hstarts]
  refine map_congr_left fun b hb => ?_
  rw [jsonOf_append, hjson b.1 (List.mem_map_of_mem hb), String.empty_append]

/-- **The tool blocks of a run**: one for each tool that is started, all different. -/
theorem toolUses_runMarks (hnum : Numbered m (allOf Piece.tool? ps)) (s : ConvertInfo) :
    toolUses (runMarks s ps).1 = startedTools ps ∧
      ((toolStarts (runMarks s ps).1).map Prod.fst).Nodup := by
  revert s
  refine numbered_induction (motive := fun _ ps => ∀ s : ConvertInfo,
    toolUses (runMarks s ps).1 = startedTools ps ∧
      ((toolStarts (runMarks s ps).1).map Prod.fst).Nodup) ?_ ?_ ?_ ?_ hnum
  · exact fun _ _ => ⟨rfl, nodup_nil⟩
  · intro m m' p ps _ hp _ ih s
    rw [runMarks_passed hp, startedTools_passed hp]
    exact ih s
  · intro m p x ps hne hp _ ih s
    obtain ⟨hstarts, hjson, -⟩ := stepPiece_quiet hp hne s
    have hquiet : startedTools ((true, p) :: ps) = startedTools ps := by
      rcases hp with rfl | rfl <;> rfl
    rw [runMarks, toolUses_append hstarts (fun b _ => hjson b), toolStarts_append, hstarts, hquiet]
    exact ih _
  · intro m m' o t ps ho hturn hnum ih s
    obtain ⟨hstarts, hjson, hstate⟩ := stepPiece_call ho s
    obtain ⟨huses, hnodup⟩ := ih (s.afterTool o)
    have hlt : o < m' := by omega
    have hfresh := notMem_toolStarts hnum (s.started_afterTool hlt)
    set block := (s.afterTool o).toolCallBaseIndex + (o : Int) with hblock
    have hother : ∀ b ∈ (toolStarts (runMarks (s.afterTool o) ps).1).map Prod.fst,
        jsonOf (stepPiece s (.tool t)).1 b = "" := fun b hb => by
      have hne : block ≠ b := fun h => hfresh (h ▸ hb)
      rw [hjson, if_neg hne]
    by_cases hname : t.name = ""
    · rw [if_neg (not_not.mpr hname)] at hstarts
      have hsame : startedTools ((true, .tool t) :: ps) = startedTools ps :=
        if_neg (not_not.mpr hname)
      rw [runMarks, hstate, toolUses_append hstarts hother, toolStarts_append, hstarts, hsame]
      exact ⟨huses, hnodup⟩
    · rw [if_pos hname] at hstarts
      have hnew : startedTools ((true, .tool t) :: ps)
          = (t.id, t.name, t.arguments ++ runArguments t.index ps) :: startedTools ps := if_pos hname
      have hown : jsonOf (runMarks (s.afterTool o) ps).1 block = runArguments t.index ps := by
        rw [ho]
        refine jsonOf_open hnum (s.afterTool_lastMessagesType o) ?_ hblock
        rw [afterTool_max]
        omega
      refine ⟨?_, ?_⟩
      · rw [hnew, ← huses, runMarks, hstate, toolUses, toolStarts_append, hstarts,
          singleton_append, map_cons, jsonOf_append, hjson, if_pos rfl, hown]
        refine congrArg (List.cons _) (map_congr_left fun b hb => ?_)
        rw [jsonOf_append, hother b.1 (List.mem_map_of_mem hb), String.empty_append]
      · rw [runMarks, hstate, toolStarts_append, hstarts, singleton_append]
        exact nodup_cons.mpr ⟨hfresh, hnodup⟩

end Blocks

end Prox
