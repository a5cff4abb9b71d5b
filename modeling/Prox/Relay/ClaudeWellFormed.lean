import Prox.Relay.ClaudeGrammar

/-! # The converted stream is well formed exactly when the chunks allow it

The proof runs the reader beside the converter. As long as the tool calls are in order, the reader is
where the converter's own state says (`ConvertInfo.reader`), and each chunk keeps it there. Once they
are not, the stream is lost: either the reader has met an event it cannot read, or the converter
believes that a block is open which was never started and never will be (`Doomed`), and it will stop
that block before it closes the stream. -/

namespace Prox

open ChatChunk ChoiceDelta ConvertInfo List Option ReaderState ToolRun

/-! ## The reader beside the converter -/

/-- Where a reader is that has read what the converter has written. -/
def ConvertInfo.reader (s : ConvertInfo) : ReaderState :=
  match s.lastMessagesType with
  | .none => .body s.index []
  | .text => .body (s.index + 1) [(s.index, .text)]
  | .thinking => .body (s.index + 1) [(s.index, .thinking)]
  | .tools => .body (s.toolCallBaseIndex + s.toolCallMaxIndexOffset + 1)
      (toolBlocks s.toolCallBaseIndex (List.range (s.toolCallMaxIndexOffset + 1).toNat))

/-- The converter is in the run of tool calls that the pieces are in. -/
structure InRun (parallel : Bool) (s : ConvertInfo) (r : ToolRun) : Prop where
  tools : s.lastMessagesType = .tools → ∃ k : Nat, r = .running (k + 1) ∧
    s.toolCallMaxIndexOffset = k ∧ s.index = s.toolCallBaseIndex + k ∧ (parallel ∨ k = 0)
  quiet : s.lastMessagesType ≠ .tools → r = .idle ∨ r = .over

/-- At least so many tools have been named. -/
def ToolRun.count : ToolRun → Nat
  | .idle => 0
  | .running k => k
  | .over => 1

/-- The number of tools that are named in some deltas. -/
def namedCount (ts : List ToolCallResponse) : Nat := ts.countP fun t => t.name ≠ ""

variable {i k m : Nat} {ts : List ToolCallResponse}

/-- The numbering goes on where it stopped. -/
theorem numbered_append {ts' : List ToolCallResponse} :
    Numbered m (ts ++ ts') ↔ Numbered m ts ∧ Numbered (m + namedCount ts) ts' := by
  induction ts generalizing m with
  | nil => exact (iff_of_eq (true_and _)).symm
  | cons t ts ih =>
    by_cases hname : t.name = ""
    · have hcount : namedCount (t :: ts) = namedCount ts := by
        simp [namedCount, hname]
      simp [Numbered, hname, ih, hcount, ne_eq, false_and, and_false, false_or, true_and,
          and_assoc]
    · have hcount : namedCount (t :: ts) = namedCount ts + 1 := by
        simp [namedCount, hname]
      have harith : m + 1 + namedCount ts = m + (namedCount ts + 1) := by omega
      simp [cons_append, Numbered, hname, ih, hcount, ne_eq, false_and, and_false, or_false,
          true_and, and_assoc, harith]

variable {c : ChoiceDelta} {base next : Int} {opened : List (Int × BlockKind)}
  {t : ToolCallResponse} {st : ReaderState} {s s' : ConvertInfo}

section Read

variable {parallel : Bool} {r : ToolRun}

/-- The stops close whatever is open. -/
theorem ConvertInfo.read_stops (s : ConvertInfo) :
    s.reader.readAll parallel s.stopOpenBlocks = some (.body s.advance.index []) := by
  unfold ConvertInfo.reader ConvertInfo.stopOpenBlocks ConvertInfo.advance
  cases htype : s.lastMessagesType with
  | none => rfl
  | text => simp [ReaderState.readAll_cons, ReaderState.read]
  | thinking => simp [ReaderState.readAll_cons, ReaderState.read]
  | tools => exact ReaderState.readAll_stop_tools _ _ nodup_range

/-- The end of the message can be read. -/
theorem ConvertInfo.read_finish (s : ConvertInfo) (stopReason : String) (usage : ChatUsage) :
    s.reader.readAll parallel (s.finish stopReason (some usage)).1 = some .stopped := by
  unfold finish
  rw [append_assoc, readAll_append_of_eq_some s.read_stops]
  rfl

/-- A content piece ends a run of tool calls. -/
theorem next_content (r : ToolRun) (hquiet : c.contentPieces ≠ []) :
    c.contentPieces.foldlM (ToolRun.next parallel) r
      = some (if r = .idle then .idle else .over) := by
  unfold contentPieces at *
  split
  · cases r <;> rfl
  · split
    · cases r <;> rfl
    · simp_all

/-- A block that is started after all others were closed, with its first delta. -/
theorem ReaderState.readAll_block (index : Int) (block : ClaudeBlock) (delta : ClaudeDelta)
    (hkind : block.kind = delta.kind) :
    (body index []).readAll parallel
        [.contentBlockStart index block, .contentBlockDelta index delta]
      = some (.body (index + 1) [(index, delta.kind)]) := by
  simp [readAll_cons, read, hkind]

/-- Content of a later chunk without tool calls. -/
theorem InRun.laterContent (h : InRun parallel s r) (htools : c.toolCalls = []) :
    ∃ r', c.laterPieces.foldlM (ToolRun.next parallel) r = some r' ∧
      s.reader.readAll parallel (laterContent c s).1 = some (laterContent c s).2.reader ∧
      InRun parallel (laterContent c s).2 r' ∧ r'.count ≤ r.count := by
  -- a run that ends has counted at least one tool
  have hcount : (if r = .idle then ToolRun.idle else .over).count ≤ r.count := by
    by_cases htype : s.lastMessagesType = .tools
    · obtain ⟨k, rfl, -⟩ := h.tools htype
      exact Nat.le_add_left 1 k
    · rcases h.quiet htype with rfl | rfl <;> decide
  have hpieces : c.laterPieces = c.contentPieces := if_neg (not_not.mpr htools)
  have hover : ∀ s' : ConvertInfo, s'.lastMessagesType ≠ .tools →
      InRun parallel s' (if r = .idle then .idle else .over) := fun s' hs' =>
    { tools := fun ht => absurd ht hs'
      quiet := fun _ => by split <;> simp }
  rw [hpieces]
  unfold Prox.laterContent
  rw [if_neg (not_not.mpr htools)]
  by_cases hreasoning : c.getReasoningContent = ""
  · by_cases hcontent : c.getContentString = ""
    · refine ⟨r, ?_, ?_, ?_, le_refl _⟩
      · simp [ChoiceDelta.contentPieces, hreasoning, hcontent]
      · simp [hreasoning, hcontent]
      · simpa [hreasoning, hcontent] using h
    · have hsome : c.contentPieces ≠ [] := by
        simp [ChoiceDelta.contentPieces, hreasoning, hcontent]
      rw [if_neg (not_not.mpr hreasoning), if_pos hcontent]
      refine ⟨_, next_content r hsome, ?_, hover _ nofun, hcount⟩
      by_cases htype : s.lastMessagesType = .text
      · simp [htype, ConvertInfo.reader, ReaderState.readAll_cons, ReaderState.read,
          ClaudeDelta.kind]
      · simp only [htype, if_false, append_assoc, singleton_append]
        rw [ReaderState.readAll_append_of_eq_some s.read_stops, ReaderState.readAll_block _ _ _ rfl]
        rfl
  · have hsome : c.contentPieces ≠ [] := by simp [ChoiceDelta.contentPieces, hreasoning]
    rw [if_pos hreasoning]
    refine ⟨_, next_content r hsome, ?_, hover _ nofun, hcount⟩
    by_cases htype : s.lastMessagesType = .thinking
    · simp [htype, ConvertInfo.reader, ReaderState.readAll_cons, ReaderState.read, ClaudeDelta.kind]
    · simp only [htype, if_false, append_assoc, singleton_append]
      rw [ReaderState.readAll_append_of_eq_some s.read_stops, ReaderState.readAll_block _ _ _ rfl]
      rfl

/-! ## Tool calls -/

/-- The blocks of `k` tools, and one more. -/
theorem toolBlocks_succ (base : Int) (k : Nat) :
    toolBlocks base (List.range (k + 1)) = toolBlocks base (List.range k) ++ [(base + k, .toolUse)] := by
  simp [toolBlocks, range_succ]

/-- A delta for one of `k` open tools. -/
theorem mem_toolBlocks (h : i < k) :
    (base + i, BlockKind.toolUse) ∈ toolBlocks base (List.range k) :=
  List.mem_map_of_mem (mem_range.mpr h)

theorem read_arguments {index : Int} (h : (index, BlockKind.toolUse) ∈ opened) (arguments : String) :
    (body next opened).readAll parallel
        (if arguments ≠ "" then [.contentBlockDelta index (.inputJson arguments)] else [])
      = some (.body next opened) := by
  split
  · change (if (index, BlockKind.toolUse) ∈ opened then _ else _ : Option ReaderState) >>= _ = _
    rw [if_pos h]
    rfl
  · rfl

/-- The events of one tool call. -/
def toolEvents (base offset : Int) (t : ToolCallResponse) : List ClaudeEvent :=
  (if t.name ≠ "" then [.contentBlockStart (base + offset) (.toolUse t.id t.name)] else []) ++
    if t.arguments ≠ "" then [.contentBlockDelta (base + offset) (.inputJson t.arguments)] else []

theorem convertToolCalls_cons (base : Int) (i : Nat) (maxOffset : Int) (t : ToolCallResponse)
    (ts : List ToolCallResponse) :
    convertToolCalls base i maxOffset (t :: ts)
      = (toolEvents base (t.index.getD i) t ++
          (convertToolCalls base (i + 1) (max maxOffset (t.index.getD i)) ts).1,
        (convertToolCalls base (i + 1) (max maxOffset (t.index.getD i)) ts).2) := rfl

theorem read_newTool (base : Int) (hname : t.name ≠ "") (hpar : parallel ∨ k = 0) :
    (ReaderState.body (base + k) (toolBlocks base (List.range k))).readAll parallel
        (toolEvents base k t)
      = some (.body (base + (k + 1 : Nat)) (toolBlocks base (List.range (k + 1)))) := by
  have hfree : toolBlocks base (List.range k) = [] ∨ (parallel ∧
      (ClaudeBlock.toolUse t.id t.name).kind = .toolUse ∧
      ∀ b ∈ toolBlocks base (List.range k), b.2 = .toolUse) := by
    rcases hpar with hpar | rfl
    · refine .inr ⟨hpar, rfl, fun b hb => ?_⟩
      obtain ⟨o, -, rfl⟩ := List.mem_map.mp hb
      rfl
    · exact .inl rfl
  have hnext : base + (k : Int) + 1 = base + (k + 1 : Nat) := by omega
  unfold toolEvents
  rw [if_pos hname, singleton_append, ReaderState.readAll_cons]
  dsimp only [ReaderState.read]
  rw [if_pos ⟨rfl, hfree⟩, hnext]
  change (ReaderState.body _ (_ ++ [(base + (k : Int), BlockKind.toolUse)])).readAll parallel _ = _
  rw [← toolBlocks_succ]
  exact read_arguments (mem_toolBlocks (Nat.lt_succ_self k)) _

theorem read_openTool (hname : t.name = "") (hi : i < k) :
    (body (base + k) (toolBlocks base (List.range k))).readAll parallel
        (toolEvents base i t)
      = some (.body (base + k) (toolBlocks base (List.range k))) := by
  unfold toolEvents
  rw [if_neg (not_not.mpr hname)]
  exact read_arguments (mem_toolBlocks hi) _

/-- A new tool out of turn. -/
theorem read_skippedTool {offset : Int} (hname : t.name ≠ "")
    (hne : base + offset ≠ next ∨ (opened ≠ [] ∧ ¬ parallel)) :
    (ReaderState.body next opened).readAll parallel (toolEvents base offset t) = none := by
  unfold toolEvents
  rw [if_pos hname, singleton_append, ReaderState.readAll_cons]
  dsimp only [ReaderState.read]
  rw [if_neg]
  · rfl
  · rintro ⟨hturn, hfree⟩
    rcases hne with hne | ⟨hopened, hpar⟩
    · exact hne hturn
    · exact hfree.elim hopened fun h => hpar h.1

variable (parallel) in
/-- A delta without a name opens nothing. -/
theorem read_unnamedTool {offset : Int} (hname : t.name = "") :
    (ReaderState.body next opened).readAll parallel (toolEvents base offset t) = none ∨
      (ReaderState.body next opened).readAll parallel (toolEvents base offset t)
        = some (.body next opened) := by
  unfold toolEvents
  rw [if_neg (not_not.mpr hname), nil_append]
  split
  · rw [ReaderState.readAll_cons]
    dsimp only [ReaderState.read]
    split
    · exact .inr rfl
    · exact .inl rfl
  · exact .inr rfl

theorem next_newTool (hname : t.name ≠ "") (hindex : t.index = some (k : Int))
    (hpar : parallel ∨ k = 0) :
    (running k).next parallel (.tool t) = some (.running (k + 1)) := by
  simp [ToolRun.next, call, hname, hindex, hpar]

theorem next_openTool (hname : t.name = "") (hindex : t.index = some (i : Int)) (hi : i < k) :
    (running k).next parallel (.tool t) = some (.running k) := by
  simp only [ToolRun.next, call, hname, hindex, ne_eq, not_true, if_false]
  exact if_pos (List.mem_map_of_mem (mem_range.mpr hi))

theorem next_skippedTool (hname : t.name ≠ "") (hindex : t.index = some (m : Int))
    (hne : m ≠ k ∨ ¬ (parallel ∨ k = 0)) : (running k).next parallel (.tool t) = none := by
  have hcond : ¬ (t.index = some (k : Int) ∧ (parallel ∨ k = 0)) := by
    rintro ⟨hk, hpar⟩
    rcases hne with hne | hne
    · rw [hindex, Option.some.injEq] at hk
      exact hne (by exact_mod_cast hk)
    · exact hne hpar
  rw [ToolRun.next, call, if_pos hname, if_neg hcond]

theorem next_lostTool (hname : t.name = "") (hindex : t.index = some (i : Int)) (hi : k ≤ i) :
    (running k).next parallel (.tool t) = none := by
  simp only [ToolRun.next, call, hname, hindex, ne_eq, not_true, if_false]
  refine if_neg fun hmem => ?_
  obtain ⟨o, ho, heq⟩ := List.mem_map.mp hmem
  rw [Option.some.injEq] at heq
  rw [mem_range] at ho
  omega

/-- The largest offset only grows. -/
theorem le_convertToolCalls (base : Int) (ts : List ToolCallResponse) (i : Nat) (maxOffset : Int) :
    maxOffset ≤ (convertToolCalls base i maxOffset ts).2 := by
  induction ts generalizing i maxOffset with
  | nil => exact Int.le_refl maxOffset
  | cons t ts ih =>
    exact Int.le_trans (Int.le_max_left _ _) (ih _ _)

variable (parallel) in
/-- The reader waits for a block that will never be started. -/
theorem convertToolCalls_doomed {j : Nat} (hnum : Numbered m ts) (hj : j < m)
    (opened : List (Int × BlockKind)) (i : Nat) (maxOffset : Int) :
    (body (base + j) opened).readAll parallel
        (convertToolCalls base i maxOffset ts).1 = none ∨
      (body (base + j) opened).readAll parallel
        (convertToolCalls base i maxOffset ts).1 = some (.body (base + j) opened) := by
  induction ts generalizing i maxOffset m with
  | nil => exact .inr rfl
  | cons t ts ih =>
    rw [convertToolCalls_cons]
    rcases hnum with ⟨hindex, hname, hnum⟩ | ⟨-, hname, hnum⟩
    · -- every new tool has a larger number
      rw [hindex]
      exact .inl (readAll_append_of_eq_none
        (read_skippedTool hname (.inl (by simp only [getD_some]; omega))) _)
    · rcases read_unnamedTool parallel hname with
        hnone | hsome
      · exact .inl (readAll_append_of_eq_none hnone _)
      · rw [readAll_append_of_eq_some hsome]
        exact ih hnum hj _ _

variable (parallel) in
/-- **The tool calls of a chunk**, in a run of `k` tools out of `m` that the upstream has named. Either
they go on with the run, and the reader follows, or they do not, and then the reader is stuck or waits
for a block that was skipped. -/
theorem convertToolCalls_reads (hnum : Numbered m ts) (hk : k ≤ m) (i : Nat) {maxOffset : Int}
    (hmax : maxOffset = ((k - 1 : Nat) : Int)) :
    (∃ k', k ≤ k' ∧ k' ≤ m + namedCount ts ∧ (ts ≠ [] → 1 ≤ k') ∧
      (ts.map Piece.tool).foldlM (ToolRun.next parallel) (.running k) = some (.running k') ∧
      (convertToolCalls base i maxOffset ts).2 = ((k' - 1 : Nat) : Int) ∧
      (k' = k ∨ parallel ∨ k' = 1) ∧
      (body (base + k) (toolBlocks base (List.range k))).readAll parallel
        (convertToolCalls base i maxOffset ts).1
        = some (.body (base + k') (toolBlocks base (List.range k')))) ∨
    ((ts.map Piece.tool).foldlM (ToolRun.next parallel) (.running k) = none ∧
      ((body (base + k) (toolBlocks base (List.range k))).readAll parallel
        (convertToolCalls base i maxOffset ts).1 = none ∨
      ∃ j : Nat, j < m + namedCount ts ∧ (j : Int) ≤ (convertToolCalls base i maxOffset ts).2 ∧
        (body (base + k) (toolBlocks base (List.range k))).readAll parallel
          (convertToolCalls base i maxOffset ts).1
          = some (.body (base + j) (toolBlocks base (List.range j))))) := by
  induction ts generalizing i maxOffset m k with
  | nil => exact .inl ⟨k, le_refl _, hk, fun h => absurd rfl h, rfl, hmax, .inl rfl, rfl⟩
  | cons t ts ih =>
    rw [convertToolCalls_cons, map_cons, List.foldlM_cons]
    rcases hnum with ⟨hindex, hname, hnum⟩ | ⟨⟨o, ho, hindex⟩, hname, hnum⟩
    · have hcount : namedCount (t :: ts) = namedCount ts + 1 := by simp [namedCount, hname]
      rw [hindex, hcount]
      simp only [getD_some]
      by_cases hturn : m = k ∧ (parallel ∨ k = 0)
      · obtain ⟨rfl, hpar⟩ := hturn
        have hread := read_newTool base hname hpar
        rw [readAll_append_of_eq_some hread, next_newTool hname hindex hpar]
        have hmax' : max maxOffset (m : Int) = ((m + 1 - 1 : Nat) : Int) := by omega
        have harith : m + 1 + namedCount ts = m + (namedCount ts + 1) := by omega
        rcases ih (m := m + 1) (k := m + 1) hnum (le_refl _) (i + 1) hmax' with
          ⟨k', hle, hle', -, hfold, hoff, hpar', hevents⟩ | ⟨hfold, hdead⟩
        · refine .inl ⟨k', by omega, by omega, fun _ => by omega, hfold, hoff, .inr ?_, hevents⟩
          rcases hpar' with rfl | hpar' | rfl
          · exact hpar.imp id fun h => by omega
          · exact .inl hpar'
          · exact .inr rfl
        · rw [harith] at hdead
          exact .inr ⟨hfold, hdead⟩
      · have hnot : m ≠ k ∨ ¬ (parallel ∨ k = 0) := not_and_or.mp hturn
        rw [next_skippedTool hname hindex hnot]
        refine .inr ⟨rfl, .inl (readAll_append_of_eq_none ?_ _)⟩
        refine read_skippedTool hname (hnot.imp (fun hmk => by omega) fun hpar => ?_)
        rw [not_or] at hpar
        refine ⟨fun hnil => hpar.2 ?_, hpar.1⟩
        simpa [toolBlocks] using hnil
    · have hcount : namedCount (t :: ts) = namedCount ts := by simp [namedCount, hname]
      rw [hindex, hcount]
      simp only [getD_some]
      by_cases hopen : o < k
      · rw [readAll_append_of_eq_some (read_openTool hname hopen),
          next_openTool hname hindex hopen]
        have hmax' : max maxOffset (o : Int) = ((k - 1 : Nat) : Int) := by omega
        rcases ih hnum hk (i + 1) hmax' with ⟨k', hle, hle', -, hrest⟩ | hdead
        · exact .inl ⟨k', hle, hle', fun _ => by omega, hrest⟩
        · exact .inr hdead
      · -- the tool was never started
        rw [next_lostTool hname hindex (not_lt.mp hopen)]
        refine .inr ⟨rfl, ?_⟩
        rcases read_unnamedTool parallel hname with hnone | hsome
        · exact .inl (readAll_append_of_eq_none hnone _)
        · rw [readAll_append_of_eq_some hsome]
          rcases convertToolCalls_doomed parallel hnum
              (show k < m by omega) (toolBlocks base (List.range k)) (i + 1)
              (max maxOffset (o : Int)) with hnone | hsome
          · exact .inl hnone
          · refine .inr ⟨k, by omega, ?_, hsome⟩
            have hle := le_convertToolCalls base ts (i + 1) (max maxOffset (o : Int))
            omega

/-- A run that is over leaves no number for a new tool. -/
theorem fold_over_eq_none (hm : 1 ≤ m) (hnum : Numbered m (t :: ts)) :
    ((t :: ts).map Piece.tool).foldlM (ToolRun.next parallel) (.running 0) = none := by
  rw [map_cons, List.foldlM_cons]
  rcases hnum with ⟨hindex, hname, -⟩ | ⟨⟨o, -, hindex⟩, hname, -⟩
  · rw [next_skippedTool hname hindex (.inl (by omega))]
    rfl
  · rw [next_lostTool hname hindex (Nat.zero_le o)]
    rfl

/-! ## One chunk -/

/-- The converter believes that a block is open which was skipped: its number is taken. -/
def Doomed (s : ConvertInfo) (m : Nat) (st : ReaderState) : Prop :=
  s.lastMessagesType = .tools ∧ ∃ (j : Nat) (opened : List (Int × BlockKind)),
    st = .body (s.toolCallBaseIndex + j) opened ∧ j < m ∧ (j : Int) ≤ s.toolCallMaxIndexOffset ∧
    s.toolCallBaseIndex + j ∉ opened.map Prod.fst

variable (parallel) in
/-- A doomed converter stops the block that was skipped. -/
theorem Doomed.read_stops (h : Doomed s m st) : st.readAll parallel s.stopOpenBlocks = none := by
  obtain ⟨htype, j, opened, rfl, -, hj, hnot⟩ := h
  have hstops : s.stopOpenBlocks = ((List.range (s.toolCallMaxIndexOffset + 1).toNat).map
      fun offset : Nat => s.toolCallBaseIndex + offset).map .contentBlockStop := by
    rw [stopOpenBlocks, htype, List.map_map]
    rfl
  rw [hstops]
  exact readAll_stops_eq_none
    (List.mem_map_of_mem (mem_range.mpr (show j < _ by omega))) hnot

/-- The reader has got stuck, or it never gets what it waits for. -/
def Lost (parallel : Bool) (st : ReaderState) (events : List ClaudeEvent) (s' : ConvertInfo)
    (m : Nat) : Prop :=
  st.readAll parallel events = none ∨
    ∃ st', st.readAll parallel events = some st' ∧ Doomed s' m st'

/-- The state in which the tool calls of a chunk are converted. -/
def ConvertInfo.openTools (s : ConvertInfo) : ConvertInfo :=
  if s.lastMessagesType = .tools then s
  else { s.advance with
    toolCallBaseIndex := s.advance.index, toolCallMaxIndexOffset := 0, lastMessagesType := .tools }

theorem laterContent_tools (htools : c.toolCalls ≠ []) :
    laterContent c s
      = ((if s.lastMessagesType = .tools then [] else s.stopOpenBlocks) ++
          (convertToolCalls s.openTools.toolCallBaseIndex 0 s.openTools.toolCallMaxIndexOffset
            c.toolCalls).1,
        { s.openTools with
          toolCallMaxIndexOffset := (convertToolCalls s.openTools.toolCallBaseIndex 0
            s.openTools.toolCallMaxIndexOffset c.toolCalls).2
          index := s.openTools.toolCallBaseIndex + (convertToolCalls s.openTools.toolCallBaseIndex 0
            s.openTools.toolCallMaxIndexOffset c.toolCalls).2 }) := by
  unfold laterContent openTools
  rw [if_pos htools]
  by_cases htype : s.lastMessagesType = .tools
  · simp [htype]
  · simp [htype]

theorem ConvertInfo.openTools_lastMessagesType (s : ConvertInfo) :
    s.openTools.lastMessagesType = .tools := by
  unfold openTools
  split
  · assumption
  · rfl

/-- The fields that only the handler writes. -/
def ConvertInfo.frame (s : ConvertInfo) : Nat × Option ChatUsage × Bool :=
  (s.sendResponseCount, s.usage, s.done)

theorem ConvertInfo.advance_frame (s : ConvertInfo) : s.advance.frame = s.frame := by
  unfold advance
  split <;> rfl

/-- The content of a chunk changes nothing that the handler writes. -/
theorem laterContent_frame (c : ChoiceDelta) (s : ConvertInfo) :
    (laterContent c s).2.frame = s.frame := by
  by_cases htools : c.toolCalls = []
  · unfold laterContent
    rw [if_neg (not_not.mpr htools)]
    split
    · split
      · rfl
      · exact s.advance_frame
    · split
      · split
        · rfl
        · exact s.advance_frame
      · rfl
  · rw [laterContent_tools htools]
    unfold openTools
    split
    · rfl
    · exact s.advance_frame

theorem laterContent_done (c : ChoiceDelta) (s : ConvertInfo) : (laterContent c s).2.done = s.done :=
  congrArg (fun f => f.2.2) (laterContent_frame c s)

theorem laterContent_count (c : ChoiceDelta) (s : ConvertInfo) :
    (laterContent c s).2.sendResponseCount = s.sendResponseCount :=
  congrArg Prod.fst (laterContent_frame c s)

theorem laterContent_usage (c : ChoiceDelta) (s : ConvertInfo) :
    (laterContent c s).2.usage = s.usage :=
  congrArg (fun f => f.2.1) (laterContent_frame c s)

section Equations

variable {d : ChatChunk} {choice : StreamChoice} {rest : List StreamChoice}

/-- A chunk without a finish reason. -/
theorem convertLater_content (hchoices : d.choices = choice :: rest) (hfin : choice.finish? = none)
    (s : ConvertInfo) : convertLater d s = laterContent choice.delta s := by
  simp [convertLater, hchoices, hfin]

/-- A chunk with a finish reason and without a usage. -/
theorem convertLater_passed {reason : String} (hchoices : d.choices = choice :: rest)
    (hfin : choice.finish? = some reason) (husage : d.usage = none) (s : ConvertInfo) :
    convertLater d s = ([], { s with finishReason := reason }) := by
  simp [convertLater, hchoices, hfin, husage]

/-- A chunk with a finish reason and a usage. -/
theorem convertLater_finish {reason : String} {u : ChatUsage} (hchoices : d.choices = choice :: rest)
    (hfin : choice.finish? = some reason) (husage : d.usage = some u) (s : ConvertInfo) :
    (convertLater d s).1
      = (laterContent choice.delta { s with finishReason := reason }).1 ++
        ((laterContent choice.delta { s with finishReason := reason }).2.finish
          (stopReasonOpenAI2Claude reason) (some u)).1 := by
  simp [convertLater, hchoices, hfin, husage]

end Equations

theorem convertLater_count (d : ChatChunk) (s : ConvertInfo) :
    (convertLater d s).2.sendResponseCount = s.sendResponseCount := by
  unfold convertLater
  split
  · split <;> rfl
  · split
    · exact laterContent_count ..
    · rfl
    · exact laterContent_count ..

/-- The reader after the tools of a run. -/
theorem reader_tools (htype : s'.lastMessagesType = .tools)
    (hmax : s'.toolCallMaxIndexOffset = ((k - 1 : Nat) : Int)) (hk : 1 ≤ k) :
    s'.reader = .body (s'.toolCallBaseIndex + k) (toolBlocks s'.toolCallBaseIndex (List.range k)) := by
  have hnext : s'.toolCallBaseIndex + s'.toolCallMaxIndexOffset + 1 = s'.toolCallBaseIndex + k := by
    omega
  have hlen : (s'.toolCallMaxIndexOffset + 1).toNat = k := by omega
  rw [reader, htype]
  rw [hnext, hlen]

/-- **One later chunk beside the reader.** -/
theorem InRun.convert (h : InRun parallel s r) (hnum : Numbered m c.toolCalls)
    (hcount : r.count ≤ m) :
    (∃ r', c.laterPieces.foldlM (ToolRun.next parallel) r = some r' ∧
      s.reader.readAll parallel (Prox.laterContent c s).1 = some (Prox.laterContent c s).2.reader ∧
      InRun parallel (Prox.laterContent c s).2 r' ∧ r'.count ≤ m + namedCount c.toolCalls) ∨
    (c.laterPieces.foldlM (ToolRun.next parallel) r = none ∧
      Lost parallel s.reader (Prox.laterContent c s).1 (Prox.laterContent c s).2
        (m + namedCount c.toolCalls)) := by
  by_cases htools : c.toolCalls = []
  · obtain ⟨r', hfold, hread, hrun, hle⟩ := h.laterContent htools
    exact .inl ⟨r', hfold, hread, hrun, by omega⟩
  · have hpieces : c.laterPieces = c.toolCalls.map .tool := if_pos htools
    rw [hpieces, laterContent_tools htools]
    set base := s.openTools.toolCallBaseIndex with hbase
    -- where the run is when the tool calls of the chunk begin
    obtain ⟨k, hk, hmax, hbegin, hpar, hfold⟩ : ∃ k : Nat, k ≤ m ∧
        s.openTools.toolCallMaxIndexOffset = ((k - 1 : Nat) : Int) ∧
        s.reader.readAll parallel (if s.lastMessagesType = .tools then [] else s.stopOpenBlocks)
          = some (.body (base + k) (toolBlocks base (List.range k))) ∧ (parallel ∨ k ≤ 1) ∧
        (c.toolCalls.map Piece.tool).foldlM (ToolRun.next parallel) r
          = (c.toolCalls.map Piece.tool).foldlM (ToolRun.next parallel) (.running k) := by
      by_cases htype : s.lastMessagesType = .tools
      · obtain ⟨k, rfl, hmax, -, hpar⟩ := h.tools htype
        have hopen : s.openTools = s := if_pos htype
        refine ⟨k + 1, hcount, by rw [hopen]; omega, ?_, hpar.imp id fun h => by omega, rfl⟩
        rw [if_pos htype, hbase, hopen]
        exact congrArg some (reader_tools htype (by omega) (Nat.le_add_left 1 k))
      · have hopen : s.openTools = { s.advance with
            toolCallBaseIndex := s.advance.index, toolCallMaxIndexOffset := 0
            lastMessagesType := .tools } := if_neg htype
        refine ⟨0, Nat.zero_le m, by rw [hopen]; rfl, ?_, .inr (Nat.zero_le 1), ?_⟩
        · rw [if_neg htype, s.read_stops, hbase, hopen]
          simp [toolBlocks]
        · obtain ⟨t, ts, hts⟩ := exists_cons_of_ne_nil htools
          rcases h.quiet htype with rfl | rfl
          · rw [hts]
            rfl
          · rw [hts] at hnum ⊢
            rw [fold_over_eq_none hcount hnum]
            rfl
    unfold Lost
    rw [hfold, readAll_append_of_eq_some hbegin]
    rcases convertToolCalls_reads parallel hnum hk 0 hmax with
      ⟨k', hle, hle', hone, hfold', hoff, hpar', hevents⟩ | ⟨hfold', hdead⟩
    · have hk' : 1 ≤ k' := hone htools
      refine .inl ⟨.running k', hfold', ?_, ⟨fun _ => ⟨k' - 1, ?_, hoff, ?_, ?_⟩, ?_⟩, hle'⟩
      · rw [hevents]
        refine congrArg some (Eq.symm (reader_tools ?_ ?_ hk'))
        · exact s.openTools_lastMessagesType
        · exact hoff
      · rw [Nat.sub_add_cancel hk']
      · rw [hoff]
      · rcases hpar with hpar | hpar
        · exact .inl hpar
        · rcases hpar' with rfl | hpar' | rfl
          · exact .inr (by omega)
          · exact .inl hpar'
          · exact .inr rfl
      · exact fun hne => absurd s.openTools_lastMessagesType hne
    · refine .inr ⟨hfold', hdead.imp id ?_⟩
      rintro ⟨j, hj, hjmax, hevents⟩
      refine ⟨_, hevents, s.openTools_lastMessagesType, j, _, rfl, hj, hjmax, fun hmem => ?_⟩
      obtain ⟨b, hb, hbj⟩ := List.mem_map.mp hmem
      obtain ⟨o, ho, rfl⟩ := List.mem_map.mp hb
      rw [mem_range] at ho
      dsimp only at hbj
      omega

variable (parallel) in
/-- A doomed converter stays doomed. -/
theorem Doomed.convert (h : Doomed s m st) (hnum : Numbered m c.toolCalls) :
    Lost parallel st (Prox.laterContent c s).1 (Prox.laterContent c s).2
      (m + namedCount c.toolCalls) := by
  have hstops := h.read_stops parallel
  by_cases htools : c.toolCalls = []
  · unfold Prox.laterContent
    rw [if_neg (not_not.mpr htools), htools]
    have hne : s.lastMessagesType ≠ .thinking ∧ s.lastMessagesType ≠ .text := by
      rw [h.1]
      exact ⟨nofun, nofun⟩
    split
    · rw [if_neg hne.1]
      dsimp only
      rw [append_assoc]
      exact .inl (readAll_append_of_eq_none hstops _)
    · split
      · rw [if_neg hne.2]
        dsimp only
        rw [append_assoc]
        exact .inl (readAll_append_of_eq_none hstops _)
      · exact .inr ⟨st, rfl, h⟩
  · obtain ⟨htype, j, opened, rfl, hj, hjmax, hnot⟩ := h
    have hopen : s.openTools = s := if_pos htype
    rw [laterContent_tools htools, if_pos htype, hopen]
    rcases convertToolCalls_doomed parallel hnum hj
      opened 0 s.toolCallMaxIndexOffset with hnone | hsome
    · exact .inl hnone
    · refine .inr ⟨_, hsome, htype, j, opened, rfl, by omega, ?_, hnot⟩
      exact Int.le_trans hjmax (le_convertToolCalls ..)

end Read

/-! ## The whole stream -/

variable {d : ChatChunk} {events : List ClaudeEvent}

section Stream

variable {parallel : Bool} {usage : ChatUsage}

variable (ds : List ChatChunk)

/-- After the end nothing is sent. -/
theorem oaiStream_done (hdone : s.done = true) :
    oaiStream usage s ds = [] := by
  induction ds generalizing s with
  | nil => rfl
  | cons d ds ih =>
    have hhandle : ∀ s' : ConvertInfo, s'.done = true → streamResponseOpenAI2Claude d s' = ([], s') :=
      fun s' hs' => if_pos hs'
    cases ds with
    | nil => exact congrArg Prod.fst (hhandle { s with usage := some usage } hdone)
    | cons d' ds =>
      have hnext : handleStreamFormat d s = ([], { s with
          sendResponseCount := s.sendResponseCount + 1, usage := d.usage.or s.usage }) :=
        hhandle _ hdone
      rw [oaiStream, hnext]
      exact ih hdone
      nofun

/-- A call that is not the first. -/
theorem streamResponseOpenAI2Claude_later (hdone : s.done = false)
    (hcount : s.sendResponseCount ≠ 1) : streamResponseOpenAI2Claude d s = convertLater d s := by
  rw [streamResponseOpenAI2Claude, if_neg (by simp [hdone]), if_neg hcount]

/-- A chunk in the middle of the stream. -/
theorem handleStreamFormat_later (hdone : s.done = false) (hcount : 1 ≤ s.sendResponseCount) :
    handleStreamFormat d s = convertLater d { s with
      sendResponseCount := s.sendResponseCount + 1, usage := d.usage.or s.usage } := by
  have hlater : s.sendResponseCount + 1 ≠ 1 := by omega
  exact streamResponseOpenAI2Claude_later hdone hlater

/-- The last chunk, unless it is the second. -/
theorem handleFinalResponse_later (hdone : s.done = false) (hcount : s.sendResponseCount ≠ 1) :
    (handleFinalResponse usage d s).1 = (convertLater d { s with usage := some usage }).1 := by
  have hlater := streamResponseOpenAI2Claude_later (d := d) (s := { s with usage := some usage })
    hdone hcount
  rw [← hlater]
  rfl

/-- The end of a lost stream cannot be read. -/
theorem Lost.read_finish (h : Lost parallel st events s' m) (stopReason : String)
    (u : Option ChatUsage) : st.readAll parallel (events ++ (s'.finish stopReason u).1) = none := by
  rcases h with hnone | ⟨st', hsome, hdoomed⟩
  · exact readAll_append_of_eq_none hnone _
  · rw [readAll_append_of_eq_some hsome, finish, append_assoc]
    exact readAll_append_of_eq_none (hdoomed.read_stops _) _

/-- A doomed reader has not got to the end. -/
theorem Doomed.ne_stopped (h : Doomed s m st) : st ≠ .stopped := by
  obtain ⟨-, j, opened, rfl, -⟩ := h
  nofun

theorem ConvertInfo.reader_ne_stopped (s : ConvertInfo) : s.reader ≠ .stopped := by
  unfold reader
  split <;> nofun

theorem Lost.ne_stopped (h : Lost parallel st events s' m) :
    st.readAll parallel events ≠ some .stopped := by
  rcases h with hnone | ⟨st', hsome, hdoomed⟩
  · rw [hnone]
    nofun
  · rw [hsome]
    exact fun h => hdoomed.ne_stopped (Option.some.inj h)

variable (parallel) in
/-- One more chunk of a doomed stream. -/
theorem Doomed.convertLater (h : Doomed s m st) (d : ChatChunk)
    (hnum : Numbered m d.delta.toolCalls) :
    Lost parallel st (convertLater d s).1 (convertLater d s).2 (m + namedCount d.delta.toolCalls) ∧
      ((convertLater d s).2.done = s.done ∨ st.readAll parallel (convertLater d s).1 = none) := by
  have hsame : ∀ reason, Doomed { s with finishReason := reason } m st := fun _ => h
  have hfinish : ∀ reason u, st.readAll parallel (s.finish reason u).1 = none := fun reason u =>
    readAll_append_of_eq_none
      (readAll_append_of_eq_none (h.read_stops _) _) _
  unfold Prox.convertLater
  cases hchoices : d.choices with
  | nil =>
    cases hu : d.usage.or s.usage with
    | none =>
      have hdelta : namedCount d.delta.toolCalls = 0 := by simp [delta, hchoices, namedCount]
      rw [hdelta]
      exact ⟨.inr ⟨st, rfl, h⟩, .inl rfl⟩
    | some u => exact ⟨.inl (hfinish _ _), .inr (hfinish _ _)⟩
  | cons choice rest =>
    have hdelta : d.delta = choice.delta := by simp [delta, hchoices]
    rw [hdelta] at hnum ⊢
    dsimp only
    cases hfin : choice.finish? with
    | none => exact ⟨h.convert _ hnum, .inl (laterContent_done ..)⟩
    | some reason =>
      cases hu : d.usage with
      | none =>
        obtain ⟨htype, j, opened, hst, hj, hrest⟩ := h
        exact ⟨.inr ⟨st, rfl, htype, j, opened, hst, by omega, hrest⟩, .inl rfl⟩
      | some u =>
        have hlost := ((hsame reason).convert parallel hnum).read_finish
          (stopReasonOpenAI2Claude reason) (some u)
        exact ⟨.inl hlost, .inr hlost⟩

/-- A doomed stream is never read to its end. -/
theorem Doomed.never (h : Doomed s m st) (hdone : s.done = false)
    (hcount : 2 ≤ s.sendResponseCount) (hnum : Numbered m (ds.flatMap fun d => d.delta.toolCalls)) :
    st.readAll parallel (oaiStream usage s ds) ≠ some .stopped := by
  induction ds generalizing s m st with
  | nil => exact fun hread => h.ne_stopped (Option.some.inj hread)
  | cons d ds ih =>
    rw [flatMap_cons, numbered_append] at hnum
    cases ds with
    | nil =>
      have hfinal : Doomed { s with usage := some usage } m st := h
      rw [oaiStream, handleFinalResponse_later hdone (by omega)]
      exact (hfinal.convertLater parallel d hnum.1).1.ne_stopped
    | cons d' ds =>
      rw [oaiStream, handleStreamFormat_later hdone (by omega)]
      · have hnext : Doomed { s with sendResponseCount := s.sendResponseCount + 1
                                     usage := d.usage.or s.usage } m st := h
        obtain ⟨hlost, hkept⟩ := hnext.convertLater parallel d hnum.1
        rcases hlost with hnone | ⟨st', hsome, hdoomed⟩
        · rw [readAll_append_of_eq_none hnone]
          nofun
        · rw [readAll_append_of_eq_some hsome]
          have hdone' := hkept.resolve_right (by rw [hsome]; nofun)
          refine ih hdoomed (hdone'.trans hdone) ?_ hnum.2
          rw [convertLater_count]
          exact Nat.le_succ_of_le hcount
      · nofun

/-- A chunk that is neither passed over nor the end. -/
theorem seenLater_cons (known : Bool) (ds : List ChatChunk) (hclosing : ¬ d.Closing known)
    (hpassed : ¬ (d.Finished ∧ d.usage = none)) :
    seenLater known (d :: ds) = d.delta.laterPieces ++ seenLater known ds := by
  rw [seenLater, if_neg hclosing, if_neg hpassed]

variable (parallel) in
/-- A closing chunk can be read to the end. -/
theorem read_closing (hchoices : d.choices = []) (husage : (d.usage.or s.usage).isSome) :
    s.reader.readAll parallel (convertLater d s).1 = some .stopped ∧
      (convertLater d s).2.done = true := by
  obtain ⟨u, hu⟩ := isSome_iff_exists.mp husage
  unfold convertLater
  rw [hchoices, hu]
  exact ⟨s.read_finish _ _, rfl⟩

/-- **The later chunks beside the reader.** -/
theorem oaiStream_reads_iff {r : ToolRun} (hne : ds ≠ [])
    (h : InRun parallel s r) (hdone : s.done = false) (hcount : 1 ≤ s.sendResponseCount)
    (hlength : 3 ≤ s.sendResponseCount + ds.length)
    (hnum : Numbered m (ds.flatMap fun d => d.delta.toolCalls)) (hrun : r.count ≤ m)
    (husage : ∀ d ∈ ds.dropLast, d.choices ≠ [] → d.usage = none) :
    s.reader.readAll parallel (oaiStream usage s ds) = some .stopped ↔
      Closes s.usage.isSome ds ∧
        ((seenLater s.usage.isSome ds).foldlM (ToolRun.next parallel) r).isSome := by
  induction ds generalizing s r m with
  | nil => exact absurd rfl hne
  | cons d ds ih =>
    rw [flatMap_cons, numbered_append] at hnum
    cases ds with
    | nil =>
      have hlast : s.sendResponseCount ≠ 1 := by
        rw [length_singleton] at hlength
        omega
      rw [oaiStream, handleFinalResponse_later hdone hlast]
      set s₁ : ConvertInfo := { s with usage := some usage } with hs₁
      have hreader : s.reader = s₁.reader := rfl
      have hfinal : InRun parallel s₁ r := ⟨h.tools, h.quiet⟩
      rw [hreader]
      cases hchoices : d.choices with
      | nil =>
        have hread := read_closing parallel (d := d) (s := s₁) hchoices (by simp [hs₁])
        have hseen : seenLater s.usage.isSome [d] = [] := by
          simp [seenLater, delta, hchoices, laterPieces, contentPieces, getReasoningContent,
              getContentString]
        rw [hseen]
        exact ⟨fun _ => ⟨.inl hchoices, rfl⟩, fun _ => hread.1⟩
      | cons choice rest =>
        have hdelta : d.delta = choice.delta := by simp [delta, hchoices]
        have hnil : d.choices ≠ [] := by rw [hchoices]; nofun
        have hclosing : ¬ d.Closing s.usage.isSome := fun hc => hnil hc.1
        have hfinished : d.Finished ↔ choice.finish?.isSome := by
          simp [Finished, hchoices]
        cases hfin : choice.finish? with
        | none =>
          have hopen : ¬ Closes s.usage.isSome [d] := by
            rintro (hc | ⟨hc, -⟩)
            · exact hnil hc
            · rw [hfinished, hfin] at hc
              cases hc
          refine iff_of_false ?_ fun hc => hopen hc.1
          rw [convertLater_content hchoices hfin]
          rcases hfinal.convert (hdelta ▸ hnum.1) hrun with ⟨r', -, hread, -⟩ | ⟨-, hlost⟩
          · rw [hread]
            exact fun heq => reader_ne_stopped _ (Option.some.inj heq)
          · exact hlost.ne_stopped
        | some reason =>
          cases hu : d.usage with
          | none =>
            rw [convertLater_passed hchoices hfin hu]
            refine iff_of_false (fun heq => ?_) ?_
            · exact s₁.reader_ne_stopped (Option.some.inj heq)
            · rintro ⟨hc | ⟨-, hc⟩, -⟩
              · exact hnil hc
              · rw [hu] at hc
                cases hc
          | some u =>
            have hcloses : Closes s.usage.isSome [d] :=
              .inr ⟨hfinished.mpr (by rw [hfin]; rfl), by rw [hu]; rfl⟩
            have hseen : seenLater s.usage.isSome [d] = choice.delta.laterPieces := by
              rw [seenLater_cons _ _ hclosing (fun hc => by rw [hu] at hc; cases hc.2), hdelta, seenLater,
                append_nil]
            have hreason : InRun parallel { s₁ with finishReason := reason } r := ⟨h.tools, h.quiet⟩
            have hreader : s₁.reader = reader { s₁ with finishReason := reason } := rfl
            rw [hseen, convertLater_finish hchoices hfin hu, hreader]
            rcases hreason.convert (hdelta ▸ hnum.1) hrun with ⟨r', hfold, hread, -⟩ | ⟨hfold, hlost⟩
            · rw [hfold, readAll_append_of_eq_some hread]
              exact iff_of_true (read_finish ..) ⟨hcloses, rfl⟩
            · rw [hfold, hlost.read_finish]
              exact iff_of_false nofun fun hc => by cases hc.2
    | cons d' ds =>
      have hmem : d ∈ (d :: d' :: ds).dropLast := by simp
      have hrest : ∀ e ∈ (d' :: ds).dropLast, e.choices ≠ [] → e.usage = none := fun e he =>
        husage e (by exact mem_cons_of_mem d he)
      have hlength' : 3 ≤ s.sendResponseCount + 1 + (d' :: ds).length := by
        simp only [length_cons] at hlength ⊢
        omega
      rw [oaiStream, handleStreamFormat_later hdone hcount]
      swap
      · nofun
      set s₁ : ConvertInfo := { s with
        sendResponseCount := s.sendResponseCount + 1, usage := d.usage.or s.usage } with hs₁
      have h₁ : InRun parallel s₁ r := ⟨h.tools, h.quiet⟩
      have hreader : s.reader = s₁.reader := rfl
      by_cases hnil : d.choices = []
      · have hdelta : d.delta = {} := by simp [delta, hnil]
        have hnamed : namedCount d.delta.toolCalls = 0 := by rw [hdelta]; rfl
        have hor : d.usage.or s₁.usage = d.usage.or s.usage := by
          rw [hs₁]
          cases d.usage <;> rfl
        by_cases hu : (d.usage.or s.usage).isSome
        · -- a chunk without choices closes the stream
          have hclosing : d.Closing s.usage.isSome := ⟨hnil, by simpa using hu⟩
          obtain ⟨hread, hdone'⟩ := read_closing parallel (s := s₁) hnil (hor ▸ hu)
          rw [hreader, readAll_append_of_eq_some hread, oaiStream_done _ hdone', seenLater,
            if_pos hclosing]
          exact iff_of_true rfl ⟨.inl hclosing, rfl⟩
        · have hclosing : ¬ d.Closing s.usage.isSome := fun hc => hu (by simpa using hc.2)
          have hnone : d.usage.or s.usage = none := not_isSome_iff_eq_none.mp hu
          have hcall : convertLater d s₁ = ([], s₁) := by
            simp [convertLater, hnil, hor, hnone]
          have hknown : s.usage = s₁.usage := (or_eq_none_iff.mp hnone).2.trans hnone.symm
          have hseen : seenLater s.usage.isSome (d :: d' :: ds)
              = seenLater s.usage.isSome (d' :: ds) := by
            rw [seenLater_cons _ _ hclosing (fun hc => by simp [Finished, hnil] at hc), hdelta]
            rfl
          have hcloses : Closes s.usage.isSome (d :: d' :: ds) ↔ Closes s.usage.isSome (d' :: ds) :=
            or_iff_right hclosing
          rw [hcall, hseen, hcloses, hknown]
          exact ih (by nofun) h₁ hdone (Nat.le_add_left ..) hlength' (by simpa [hnamed] using hnum.2)
            hrun hrest
      · have hnousage : d.usage = none := husage d hmem hnil
        have hknown : s.usage = s₁.usage := by rw [hs₁]; simp [hnousage]
        have hclosing : ¬ d.Closing s.usage.isSome := fun hc => hnil hc.1
        have hcloses : Closes s.usage.isSome (d :: d' :: ds) ↔ Closes s.usage.isSome (d' :: ds) :=
          or_iff_right hclosing
        obtain ⟨choice, rest, hchoices⟩ := exists_cons_of_ne_nil hnil
        have hdelta : d.delta = choice.delta := by simp [delta, hchoices]
        have hfinished : d.Finished ↔ choice.finish?.isSome := by
          simp [Finished, hchoices]
        rw [hcloses, hreader]
        cases hfin : choice.finish? with
        | none =>
          have hseen := seenLater_cons (s.usage.isSome) (d' :: ds) hclosing
            (fun hc => by rw [hfinished, hfin] at hc; cases hc.1)
          rw [hseen, foldlM_append, hdelta, convertLater_content hchoices hfin]
          rcases h₁.convert (hdelta ▸ hnum.1) hrun with ⟨r', hfold, hread, hrun', hcount'⟩ |
            ⟨hfold, hlost⟩
          · rw [hfold, readAll_append_of_eq_some hread]
            have hnext := ih (s := (laterContent choice.delta s₁).2) (by nofun) hrun'
              ((laterContent_done ..).trans hdone)
              (by rw [laterContent_count]; exact Nat.le_add_left ..)
              (by rw [laterContent_count]; exact hlength') hnum.2 (hdelta ▸ hcount') hrest
            rw [laterContent_usage, ← hknown] at hnext
            exact hnext
          · rw [hfold]
            refine iff_of_false ?_ fun hc => by cases hc.2
            rcases hlost with hnone | ⟨st', hsome, hdoomed⟩
            · rw [readAll_append_of_eq_none hnone]
              nofun
            · rw [readAll_append_of_eq_some hsome]
              refine hdoomed.never (d' :: ds) ((laterContent_done ..).trans hdone) ?_ (hdelta ▸ hnum.2)
              rw [laterContent_count]
              exact Nat.succ_le_succ hcount
        | some reason =>
          -- the chunk is passed over
          have hseen : seenLater s.usage.isSome (d :: d' :: ds)
              = seenLater s.usage.isSome (d' :: ds) := by
            rw [seenLater, if_neg hclosing, if_pos ⟨hfinished.mpr (by rw [hfin]; rfl), hnousage⟩]
          rw [hseen, convertLater_passed hchoices hfin hnousage, hknown]
          have hle : r.count ≤ m + namedCount d.delta.toolCalls := Nat.le_add_right_of_le hrun
          exact ih (s := { s₁ with finishReason := reason }) (by nofun) ⟨h.tools, h.quiet⟩ hdone
            (Nat.le_add_left ..) hlength' hnum.2 hle hrest

/-! ## The first chunk -/

/-- Before any text a first chunk begins its content like a later one. -/
theorem firstContent_eq (c : ChoiceDelta) (htext : s.lastMessagesType ≠ .text)
    (hthinking : s.lastMessagesType ≠ .thinking) :
    firstContent c s = laterContent { c with toolCalls := [] } s := by
  have hreasoning : getReasoningContent { c with toolCalls := [] }
    = c.getReasoningContent := rfl
  have hcontent : getContentString { c with toolCalls := [] } = c.getContentString := rfl
  simp [firstContent, laterContent, switchTo, hreasoning, hcontent, htext, hthinking,
      ne_eq, cons_append, nil_append]

variable (parallel) in
theorem firstToolCall_reads (hnum : Numbered 0 c.toolCalls) (htype : s.lastMessagesType = .none)
    (hindex : s.index = 0) :
    ∃ r, ((c.toolCalls.take 1).map Piece.tool).foldlM (ToolRun.next parallel) .idle = some r ∧
      s.reader.readAll parallel (firstToolCall c s).1 = some (firstToolCall c s).2.reader ∧
      InRun parallel (firstToolCall c s).2 r ∧ r.count ≤ namedCount c.toolCalls ∧
      (firstToolCall c s).2.lastMessagesType ≠ .text ∧
      (firstToolCall c s).2.lastMessagesType ≠ .thinking := by
  unfold firstToolCall
  cases htools : c.toolCalls with
  | nil =>
    refine ⟨.idle, rfl, rfl, ⟨fun h => ?_, fun _ => .inl rfl⟩, Nat.zero_le _, ?_, ?_⟩ <;> simp_all
  | cons t ts =>
    rw [htools] at hnum
    rcases hnum with ⟨hnumber, hname, -⟩ | ⟨⟨i, hi, -⟩, -⟩
    · have hnext := next_newTool hname hnumber (.inr rfl : parallel ∨ 0 = 0)
      have hread := read_newTool (k := 0) 0 hname (.inr rfl : parallel ∨ 0 = 0)
      have hcount : namedCount (t :: ts) = namedCount ts + 1 := by simp [namedCount, hname]
      refine ⟨.running 1, ?_, ?_, ⟨fun _ => ⟨0, rfl, rfl, hindex, .inr rfl⟩, nofun⟩, ?_, nofun, nofun⟩
      · change (running 0).next parallel (.tool t) >>= some = some (.running 1)
        rw [hnext]
        rfl
      · have hreader : s.reader = .body 0 [] := by rw [reader, htype, hindex]
        have hevents : toolEvents 0 (0 : Nat) t
            = .contentBlockStart 0 (.toolUse t.id t.name) ::
              if t.arguments ≠ "" then [.contentBlockDelta 0 (.inputJson t.arguments)] else [] := by
          simp [toolEvents, hname]
        rw [hevents] at hread
        rw [hreader]
        exact hread
      · rw [hcount]
        exact Nat.le_add_left 1 _
    · cases hi

/-- The fields that only the handler writes. -/
theorem firstContent_frame (c : ChoiceDelta) (htext : s.lastMessagesType ≠ .text)
    (hthinking : s.lastMessagesType ≠ .thinking) : (firstContent c s).2.frame = s.frame := by
  rw [firstContent_eq c htext hthinking]
  exact laterContent_frame ..

variable (parallel) in
/-- What a first chunk says, after the start of the message. -/
theorem firstChunk_reads (hnum : Numbered 0 c.toolCalls) (htype : s.lastMessagesType = .none)
    (hindex : s.index = 0) :
    ∃ r, c.firstPieces.foldlM (ToolRun.next parallel) .idle = some r ∧
      s.reader.readAll parallel
          ((firstToolCall c s).1 ++ (firstContent c (firstToolCall c s).2).1)
        = some (firstContent c (firstToolCall c s).2).2.reader ∧
      InRun parallel (firstContent c (firstToolCall c s).2).2 r ∧
      r.count ≤ namedCount c.toolCalls ∧
      (firstContent c (firstToolCall c s).2).2.frame = s.frame := by
  obtain ⟨r, hfold, hread, hrun, hcount, htext, hthinking⟩ :=
    firstToolCall_reads parallel hnum htype hindex
  obtain ⟨r', hfold', hread', hrun', hcount'⟩ := hrun.laterContent
    (c := { c with toolCalls := [] }) rfl
  rw [← firstContent_eq c htext hthinking] at hread' hrun'
  refine ⟨r', ?_, ?_, hrun', hcount'.trans hcount, ?_⟩
  · rw [firstPieces, foldlM_append, hfold]
    exact hfold'
  · rw [readAll_append_of_eq_some hread]
    exact hread'
  · rw [firstContent_frame c htext hthinking]
    unfold firstToolCall
    split <;> rfl

/-- The converter before the first chunk. -/
def ConvertInfo.initial (estimatePromptTokens : Int) : ConvertInfo := { estimatePromptTokens }

/-- The state in which the first chunk is converted. -/
def ConvertInfo.first (estimatePromptTokens : Int) (d : ChatChunk) : ConvertInfo :=
  { ConvertInfo.initial estimatePromptTokens with sendResponseCount := 1, usage := d.usage.or none }

variable (parallel) in
/-- The first chunk of several, when it does not finish. -/
theorem handleStreamFormat_first (hnum : Numbered 0 d.delta.toolCalls) (hfinished : ¬ d.Finished)
    (estimate : Int) :
    ∃ r, d.delta.firstPieces.foldlM (ToolRun.next parallel) .idle = some r ∧
      ReaderState.start.readAll parallel
          (handleStreamFormat d (initial estimate)).1
        = some (handleStreamFormat d (initial estimate)).2.reader ∧
      InRun parallel (handleStreamFormat d (initial estimate)).2 r ∧
      r.count ≤ namedCount d.delta.toolCalls ∧
      (handleStreamFormat d (initial estimate)).2.frame = (1, d.usage, false) := by
  have hcall : handleStreamFormat d (initial estimate)
    = convertFirst d (first estimate d) := rfl
  have hframe : (first estimate d).frame = (1, d.usage, false) := by
    simp [first, frame, initial]
  rw [hcall]
  cases hchoices : d.choices with
  | nil =>
    have hdelta : d.delta = {} := by simp [delta, hchoices]
    have hevents : convertFirst d (first estimate d)
        = ([.messageStart d.id d.model estimate], first estimate d) := by
      simp only [convertFirst, hchoices]
      rfl
    rw [hevents, hdelta]
    exact ⟨.idle, rfl, rfl, ⟨nofun, fun _ => .inl rfl⟩, Nat.zero_le _, hframe⟩
  | cons choice rest =>
    have hdelta : d.delta = choice.delta := by simp [delta, hchoices]
    have hfin : choice.finish? = none := by
      rw [← not_isSome_iff_eq_none]
      exact fun h => hfinished (by simpa [Finished, hchoices] using h)
    rw [hdelta] at hnum ⊢
    obtain ⟨r, hfold, hread, hrun, hcount, hframe'⟩ := firstChunk_reads parallel
      (s := first estimate d) hnum rfl rfl
    have hevents : convertFirst d (first estimate d)
        = (.messageStart d.id d.model estimate ::
            ((firstToolCall choice.delta (first estimate d)).1 ++
              (firstContent choice.delta
                (firstToolCall choice.delta (first estimate d)).2).1),
          (firstContent choice.delta
            (firstToolCall choice.delta (first estimate d)).2).2) := by
      simp only [convertFirst, hchoices, hfin]
      rfl
    rw [hevents]
    exact ⟨r, hfold, hread, hrun, hcount, hframe'.trans hframe⟩

/-- A first chunk that finishes ends the message without the `message_delta`. -/
theorem handleStreamFormat_finished (hnum : Numbered 0 d.delta.toolCalls) (hfinished : d.Finished)
    (husage : d.usage = none) (estimate : Int) :
    ReaderState.start.readAll parallel (handleStreamFormat d (initial estimate)).1
      = none := by
  have hcall : handleStreamFormat d (initial estimate)
    = convertFirst d (first estimate d) := rfl
  rw [hcall]
  cases hchoices : d.choices with
  | nil => simp [Finished, hchoices] at hfinished
  | cons choice rest =>
    have hdelta : d.delta = choice.delta := by simp [delta, hchoices]
    obtain ⟨reason, hfin⟩ : ∃ reason, choice.finish? = some reason := by
      rw [← isSome_iff_exists]
      simpa [Finished, hchoices] using hfinished
    rw [hdelta] at hnum
    obtain ⟨r, -, hread, -, -, hframe⟩ := firstChunk_reads parallel
      (s := first estimate d) hnum rfl rfl
    set s' := (firstContent choice.delta
      (firstToolCall choice.delta (first estimate d)).2).2 with hs'
    have hnousage : s'.usage = none := by
      have := congrArg (fun f => f.2.1) hframe
      simpa [frame, first, husage] using this
    have hevents : (convertFirst d (first estimate d)).1
        = .messageStart d.id d.model estimate ::
            (((firstToolCall choice.delta (first estimate d)).1 ++
              (firstContent choice.delta
                (firstToolCall choice.delta (first estimate d)).2).1) ++
              (s'.stopOpenBlocks ++ [.messageStop])) := by
      simp only [convertFirst, hchoices, hfin, husage, ← hs', hnousage, finish,
        or_none, map_none, toList_none, append_nil]
      rfl
    rw [hevents]
    change (first estimate d).reader.readAll parallel _ = none
    rw [readAll_append_of_eq_some hread, readAll_append_of_eq_some s'.read_stops]
    rfl

/-- Events of a message that has begun. -/
def ClaudeEvent.Begun (e : ClaudeEvent) : Prop := ∀ id model tokens, e ≠ .messageStart id model tokens

/-- Without a `message_start` nothing can be read. -/
theorem readAll_start_ne_stopped (h : ∀ e ∈ events, e.Begun) :
    ReaderState.start.readAll parallel events ≠ some .stopped := by
  cases events with
  | nil => nofun
  | cons e es =>
    cases e with
    | messageStart id model tokens => exact absurd rfl (h _ mem_cons_self id model tokens)
    | _ => nofun

theorem stopOpenBlocks_begun (s : ConvertInfo) : ∀ e ∈ s.stopOpenBlocks, e.Begun := by
  intro e he
  unfold stopOpenBlocks at he
  split at he
  · rw [mem_singleton.mp he]; nofun
  · rw [mem_singleton.mp he]; nofun
  · obtain ⟨o, -, rfl⟩ := List.mem_map.mp he
    nofun
  · cases he

theorem finish_begun (s : ConvertInfo) (stopReason : String) (u : Option ChatUsage) :
    ∀ e ∈ (s.finish stopReason u).1, e.Begun := by
  intro e he
  simp only [finish, mem_append, mem_toList, map_eq_some_iff,
    mem_singleton] at he
  rcases he with (he | ⟨_, -, rfl⟩) | rfl
  · exact stopOpenBlocks_begun s e he
  · nofun
  · nofun

theorem convertToolCalls_begun (base : Int) (ts : List ToolCallResponse) (i : Nat)
    (maxOffset : Int) : ∀ e ∈ (convertToolCalls base i maxOffset ts).1, e.Begun := by
  induction ts generalizing i maxOffset with
  | nil => nofun
  | cons t ts ih =>
    intro e he
    rw [convertToolCalls_cons] at he
    rcases mem_append.mp he with he | he
    · rcases mem_append.mp he with he | he <;> split at he
      · rw [mem_singleton.mp he]; nofun
      · cases he
      · rw [mem_singleton.mp he]; nofun
      · cases he
    · exact ih _ _ e he

theorem laterContent_begun (c : ChoiceDelta) (s : ConvertInfo) :
    ∀ e ∈ (laterContent c s).1, e.Begun := by
  by_cases htools : c.toolCalls = []
  · have hstart : ∀ (t : LastMessageType) (block : ClaudeBlock) (delta : ClaudeEvent), delta.Begun →
        ∀ e ∈ (if s.lastMessagesType = t then []
            else s.stopOpenBlocks ++ [.contentBlockStart s.advance.index block]) ++ [delta],
          e.Begun := by
      intro t block delta hdelta e he
      rcases mem_append.mp he with he | he
      · split at he
        · cases he
        · rcases mem_append.mp he with he | he
          · exact stopOpenBlocks_begun s e he
          · rw [mem_singleton.mp he]; nofun
      · rw [mem_singleton.mp he]
        exact hdelta
    unfold laterContent
    rw [if_neg (not_not.mpr htools)]
    split
    · exact hstart _ _ _ nofun
    · split
      · exact hstart _ _ _ nofun
      · nofun
  · rw [laterContent_tools htools]
    intro e he
    rcases mem_append.mp he with he | he
    · split at he
      · cases he
      · exact stopOpenBlocks_begun s e he
    · exact convertToolCalls_begun _ _ _ _ e he

theorem convertLater_begun (d : ChatChunk) (s : ConvertInfo) :
    ∀ e ∈ (convertLater d s).1, e.Begun := by
  unfold convertLater
  split
  · split
    · nofun
    · exact finish_begun _ _ _
  · split
    · exact laterContent_begun _ _
    · nofun
    · intro e he
      rcases mem_append.mp he with he | he
      · exact laterContent_begun _ _ e he
      · exact finish_begun _ _ _ e he

end Stream

/-- **A stream of chunks is converted into a well-formed stream exactly when it is convertible.** -/
theorem oaiStreamHandler_wellFormed_iff (parallel : Bool) (estimate : Int) (usage : ChatUsage)
    (ds : List ChatChunk) (hds : OpenAIProtocol ds) :
    WellFormed parallel (oaiStreamHandler estimate usage ds) ↔ Convertible parallel ds := by
  have htools := hds.tools
  unfold WellFormed
  match ds with
  | [] => exact iff_of_false nofun nofun
  | [d] =>
    -- the only chunk is not counted, and no `message_start` is sent
    refine iff_of_false (readAll_start_ne_stopped ?_) nofun
    change ∀ e ∈ (handleFinalResponse usage d (ConvertInfo.initial estimate)).1, e.Begun
    exact convertLater_begun _ _
  | d :: d' :: ds =>
    rw [flatMap_cons, numbered_append] at htools
    have hmem : d ∈ (d :: d' :: ds).dropLast := by simp
    have hevents : oaiStreamHandler estimate usage (d :: d' :: ds)
        = (handleStreamFormat d (ConvertInfo.initial estimate)).1 ++
          oaiStream usage (handleStreamFormat d (ConvertInfo.initial estimate)).2 (d' :: ds) := rfl
    rw [hevents]
    by_cases hfinished : d.Finished
    · have hnil : d.choices ≠ [] := by
        intro hnil
        simp [ChatChunk.Finished, hnil] at hfinished
      rw [ReaderState.readAll_append_of_eq_none
        (handleStreamFormat_finished htools.1 hfinished (hds.usage d hmem hnil) estimate)]
      refine iff_of_false nofun ?_
      cases ds with
      | nil => nofun
      | cons => exact fun hc => hc.1 hfinished
    · obtain ⟨r, hfold, hread, hrun, hcount, hframe⟩ :=
        handleStreamFormat_first parallel htools.1 hfinished estimate
      rw [ReaderState.readAll_append_of_eq_some hread]
      set s₁ := (handleStreamFormat d (ConvertInfo.initial estimate)).2 with hs₁
      obtain ⟨hsend, husage, hdone⟩ :
          s₁.sendResponseCount = 1 ∧ s₁.usage = d.usage ∧ s₁.done = false := by
        simpa [ConvertInfo.frame] using hframe
      cases ds with
      | nil =>
        -- the second chunk is the last one and is taken for the first
        refine iff_of_false ?_ nofun
        have hagain : ∃ events, oaiStream usage s₁ [d']
            = .messageStart d'.id d'.model s₁.estimatePromptTokens :: events := by
          have hfirst : streamResponseOpenAI2Claude d' { s₁ with usage := some usage }
              = convertFirst d' { s₁ with usage := some usage } := by
            rw [streamResponseOpenAI2Claude, if_neg (by simp [hdone]), if_pos hsend]
          simp only [oaiStream, handleFinalResponse]
          rw [hfirst]
          unfold convertFirst
          split
          · exact ⟨_, rfl⟩
          · dsimp only
            split <;> exact ⟨_, rfl⟩
        obtain ⟨events, hevents⟩ := hagain
        rw [hevents, ReaderState.readAll_cons]
        have hstuck : s₁.reader.read parallel (.messageStart d'.id d'.model s₁.estimatePromptTokens)
            = none := by
          unfold ConvertInfo.reader
          split <;> rfl
        rw [hstuck]
        nofun
      | cons d'' ds =>
        rw [oaiStream_reads_iff (d' :: d'' :: ds) (by nofun) hrun hdone hsend.ge
          (by simp only [length_cons]; omega) htools.2
          (hcount.trans (Nat.le_add_left _ _)) fun e he => hds.usage e (by
            exact mem_cons_of_mem d he), husage]
        have horder : ToolsInOrder parallel
            (d.delta.firstPieces ++ seenLater d.usage.isSome (d' :: d'' :: ds)) ↔
            ((seenLater d.usage.isSome (d' :: d'' :: ds)).foldlM (ToolRun.next parallel) r).isSome := by
          rw [ToolsInOrder, foldlM_append, hfold]
          rfl
        rw [← horder]
        exact ⟨fun h => ⟨hfinished, h⟩, fun h => h.2⟩

/-- A chunk with one choice. -/
def ChatChunk.single (delta : ChoiceDelta) (finishReason : Option String := none) : ChatChunk :=
  { choices := [{ delta, finishReason }] }

/-- A greeting, two tool calls and a usage at the end. -/
def greetingChunks : List ChatChunk :=
  [.single { content := some "" }, .single { content := some "Hi" },
   .single { toolCalls := [⟨some 0, "a", "f", ""⟩, ⟨some 1, "b", "g", "x"⟩] },
   .single { toolCalls := [⟨some 0, "", "", "y"⟩] }, .single {} (some "tool_calls"),
   { usage := some { promptTokens := 3, completionTokens := 1 } }]

/-- The greeting is converted into a well-formed stream. -/
theorem oaiStreamHandler_wellFormed_greeting :
    WellFormed true (oaiStreamHandler 3 { promptTokens := 3, completionTokens := 1 } greetingChunks) :=
  (oaiStreamHandler_wellFormed_iff true 3 { promptTokens := 3, completionTokens := 1 } greetingChunks
    ⟨.inl ⟨rfl, by decide, .inl ⟨rfl, by decide, .inr ⟨⟨0, by decide, rfl⟩, rfl, trivial⟩⟩⟩,
      by decide, by decide⟩).mpr (by decide)

/-- **An upstream that sends no usage.** The stream ends with its finish reason; neither the block nor
the message is closed. A stream of a single chunk is not even begun. -/
theorem oaiStreamHandler_not_wellFormed :
    OpenAIProtocol [.single { content := some "" }, .single { content := some "Hi" },
        .single {} (some "stop")] ∧
    oaiStreamHandler 3 { promptTokens := 3, completionTokens := 1 }
        [.single { content := some "" }, .single { content := some "Hi" }, .single {} (some "stop")]
      = [.messageStart "" "" 3, .contentBlockStart 0 .text, .contentBlockDelta 0 (.text "Hi")] ∧
    (∀ parallel, ¬ WellFormed parallel
      (oaiStreamHandler 3 { promptTokens := 3, completionTokens := 1 }
        [.single { content := some "" }, .single { content := some "Hi" },
          .single {} (some "stop")])) ∧
    OpenAIProtocol [.single { content := some "Hi" } (some "stop")] ∧
    ∀ parallel, ¬ WellFormed parallel
      (oaiStreamHandler 3 { promptTokens := 3, completionTokens := 1 }
        [.single { content := some "Hi" } (some "stop")]) := by
  refine ⟨⟨trivial, by decide, by decide⟩, by decide, by decide,
    ⟨trivial, by decide, by decide⟩, by decide⟩

end Prox
