import Prox.Relay.ClaudeStream

/-! # When the converted stream is well formed

A reader of a Claude stream expects a `message_start`, then content blocks with consecutive indices,
each opened, fed with deltas of its own kind and closed, then one `message_delta` and one
`message_stop`. The main result says for which streams of chunks the converter produces that: there
are at least three chunks, the first one does not finish, the stream is closed by a chunk without
choices or by a last chunk with a finish reason and a usage, and the tool calls the converter looks at
come in one run. -/

namespace Prox

open List

/-! ## The grammar -/

/-- The kind of a content block. -/
inductive BlockKind where
  | text
  | thinking
  | toolUse
  deriving DecidableEq

/-- The kind of a block. -/
def ClaudeBlock.kind : ClaudeBlock → BlockKind
  | .text => .text
  | .thinking => .thinking
  | .toolUse _ _ => .toolUse

/-- The kind of block a delta belongs to. -/
def ClaudeDelta.kind : ClaudeDelta → BlockKind
  | .text _ => .text
  | .thinking _ => .thinking
  | .inputJson _ => .toolUse

/-- How far a reader of a Claude stream has got. -/
inductive ReaderState where
  | start
  /-- The message has begun; the index of the next block and the blocks that are open. -/
  | body (next : Int) (opened : List (Int × BlockKind))
  /-- The `message_delta` has been read. -/
  | ending
  | stopped
  deriving DecidableEq

/-- Reads one event. `parallel` allows several tool blocks to be open at once; without it a block
must be closed before the next one begins. -/
def ReaderState.read (parallel : Bool) : ReaderState → ClaudeEvent → Option ReaderState
  | .start, .messageStart .. => some (.body 0 [])
  | .body next opened, .contentBlockStart index block =>
    if index = next ∧ (opened = [] ∨
        (parallel ∧ block.kind = .toolUse ∧ ∀ b ∈ opened, b.2 = .toolUse)) then
      some (.body (next + 1) (opened ++ [(index, block.kind)]))
    else none
  | .body next opened, .contentBlockDelta index delta =>
    if (index, delta.kind) ∈ opened then some (.body next opened) else none
  | .body next opened, .contentBlockStop index =>
    if index ∈ opened.map Prod.fst then
      some (.body next (opened.filter fun b => b.1 ≠ index))
    else none
  | .body _ [], .messageDelta .. => some .ending
  | .ending, .messageStop => some .stopped
  | _, _ => none

/-- Reads events one after the other. -/
def ReaderState.readAll (parallel : Bool) (r : ReaderState) (events : List ClaudeEvent) :
    Option ReaderState :=
  events.foldlM (ReaderState.read parallel) r

/-- The events are a whole Claude stream. -/
def WellFormed (parallel : Bool) (events : List ClaudeEvent) : Prop :=
  ReaderState.start.readAll parallel events = some .stopped
  deriving Decidable

section Read

variable {parallel : Bool} {r r' : ReaderState}

@[simp] theorem ReaderState.readAll_nil : r.readAll parallel [] = some r := rfl

theorem ReaderState.readAll_cons (e : ClaudeEvent) (es : List ClaudeEvent) :
    r.readAll parallel (e :: es) = r.read parallel e >>= fun r => r.readAll parallel es := rfl

theorem ReaderState.readAll_append (es es' : List ClaudeEvent) :
    r.readAll parallel (es ++ es')
      = r.readAll parallel es >>= fun r => r.readAll parallel es' := foldlM_append ..

/-- Reading goes on where it stopped. -/
theorem ReaderState.readAll_append_of_eq_some {es : List ClaudeEvent}
    (h : r.readAll parallel es = some r') (es' : List ClaudeEvent) :
    r.readAll parallel (es ++ es') = r'.readAll parallel es' := by
  rw [ReaderState.readAll_append, h]
  rfl

/-- What could not be read cannot be read on. -/
theorem ReaderState.readAll_append_of_eq_none {es : List ClaudeEvent}
    (h : r.readAll parallel es = none) (es' : List ClaudeEvent) :
    r.readAll parallel (es ++ es') = none := by
  rw [ReaderState.readAll_append, h]
  rfl

/-- A stop for a block that is not open cannot be read, whatever was stopped before. -/
theorem ReaderState.readAll_stops_eq_none {next : Int} {opened : List (Int × BlockKind)}
    {stops : List Int} {i : Int} (hi : i ∈ stops) (hnot : i ∉ opened.map Prod.fst) :
    (ReaderState.body next opened).readAll parallel (stops.map .contentBlockStop) = none := by
  induction stops generalizing opened with
  | nil => cases hi
  | cons j stops ih =>
    rw [map_cons, ReaderState.readAll_cons]
    dsimp only [ReaderState.read]
    split
    · next hj =>
      have hne : i ≠ j := fun h => hnot (h ▸ hj)
      refine ih ((mem_cons.mp hi).resolve_left hne) fun hmem => hnot ?_
      obtain ⟨b, hb, rfl⟩ := mem_map.mp hmem
      exact mem_map_of_mem (mem_of_mem_filter hb)
    · rfl

/-- The open tool blocks, by their offsets. -/
def toolBlocks (base : Int) (offsets : List Nat) : List (Int × BlockKind) :=
  offsets.map fun offset : Nat => (base + offset, .toolUse)

theorem ReaderState.readAll_stop_tools (base next : Int) {offsets : List Nat}
    (hnodup : offsets.Nodup) :
    (ReaderState.body next (toolBlocks base offsets)).readAll parallel
      (offsets.map fun offset : Nat => .contentBlockStop (base + offset)) = some (.body next []) := by
  induction offsets with
  | nil => rfl
  | cons o offsets ih =>
    obtain ⟨hnot, hnodup⟩ := nodup_cons.mp hnodup
    have hmem : base + o ∈ (toolBlocks base (o :: offsets)).map Prod.fst := by simp [toolBlocks]
    have hrest : (toolBlocks base (o :: offsets)).filter (fun b => b.1 ≠ base + o)
        = toolBlocks base offsets := by
      have hfirst : decide ((base + (o : Int), BlockKind.toolUse).1 ≠ base + o) = false := by simp
      unfold toolBlocks
      rw [map_cons, filter_cons, hfirst]
      refine filter_eq_self.mpr fun b hb => ?_
      obtain ⟨o', ho', rfl⟩ := mem_map.mp hb
      have hne : o' ≠ o := fun h => hnot (h ▸ ho')
      simp only [ne_eq, decide_eq_true_eq]
      omega
    rw [map_cons, ReaderState.readAll_cons]
    dsimp only [ReaderState.read]
    rw [if_pos hmem, hrest]
    exact ih hnodup

end Read

/-! ## What the converter looks at -/

/-- A piece of what a chunk says. -/
inductive Piece where
  | text (text : String)
  | thinking (thinking : String)
  | tool (toolCall : ToolCallResponse)

/-- The reasoning of a delta, or else its text. -/
def ChoiceDelta.contentPieces (c : ChoiceDelta) : List Piece :=
  if c.getReasoningContent ≠ "" then [.thinking c.getReasoningContent]
  else if c.getContentString ≠ "" then [.text c.getContentString]
  else []

/-- What is looked at in a first chunk: one tool call, and the content. -/
def ChoiceDelta.firstPieces (c : ChoiceDelta) : List Piece :=
  (c.toolCalls.take 1).map .tool ++ c.contentPieces

/-- What is looked at in a later chunk: the tool calls, or else the content. -/
def ChoiceDelta.laterPieces (c : ChoiceDelta) : List Piece :=
  if c.toolCalls ≠ [] then c.toolCalls.map .tool else c.contentPieces

namespace ChatChunk

/-- The delta of the first choice. -/
def delta (d : ChatChunk) : ChoiceDelta := (d.choices.head?.map StreamChoice.delta).getD {}

/-- The first choice has a finish reason. -/
def Finished (d : ChatChunk) : Prop := (d.choices.head?.bind StreamChoice.finish?).isSome
  deriving Decidable

/-- A chunk without choices that closes the stream, since it brings the usage or it is `known`. -/
def Closing (known : Bool) (d : ChatChunk) : Prop := d.choices = [] ∧ (d.usage.isSome ∨ known)
  deriving Decidable

end ChatChunk

/-- The pieces of the later chunks, up to the one that closes the stream. A chunk with a finish reason
and without a usage is passed over. -/
def seenLater (known : Bool) : List ChatChunk → List Piece
  | [] => []
  | d :: ds =>
    if d.Closing known then []
    else if d.Finished ∧ d.usage = none then seenLater known ds
    else d.delta.laterPieces ++ seenLater known ds

/-- One of the later chunks closes the stream: one without choices, or the last one, with a finish
reason and a usage. -/
def Closes (known : Bool) : List ChatChunk → Prop
  | [] => False
  | [d] => d.choices = [] ∨ (d.Finished ∧ d.usage.isSome)
  | d :: ds => d.Closing known ∨ Closes known ds

instance decidableCloses (known : Bool) : (ds : List ChatChunk) → Decidable (Closes known ds)
  | [] => inferInstanceAs (Decidable False)
  | [_] => inferInstanceAs (Decidable (_ ∨ _))
  | _ :: d :: ds =>
    have := decidableCloses known (d :: ds)
    inferInstanceAs (Decidable (_ ∨ Closes known (d :: ds)))

/-- The tool calls so far: none yet, a run with `count` tools, or a run that is over. -/
inductive ToolRun where
  | idle
  | running (count : Nat)
  | over
  deriving DecidableEq

namespace ToolRun

/-- A tool call in a run of `count` tools: a new one has a name and the next number, and the other
deltas belong to the tools before. -/
def call (parallel : Bool) (count : Nat) (t : ToolCallResponse) : Option ToolRun :=
  if t.name ≠ "" then
    if t.index = some (count : Int) ∧ (parallel ∨ count = 0) then some (.running (count + 1))
    else none
  else if t.index ∈ (List.range count).map (fun i : Nat => some (i : Int)) then
    some (.running count)
  else none

/-- The next piece. -/
def next (parallel : Bool) : ToolRun → Piece → Option ToolRun
  | .idle, .tool t => call parallel 0 t
  | .running count, .tool t => call parallel count t
  | .over, .tool _ => none
  | .running _, _ => some .over
  | r, _ => some r

end ToolRun

/-- The tool calls come in one run, in order. -/
def ToolsInOrder (parallel : Bool) (pieces : List Piece) : Prop :=
  (pieces.foldlM (ToolRun.next parallel) .idle).isSome
  deriving Decidable

/-- The streams that are converted into a well-formed one. -/
def Convertible (parallel : Bool) : List ChatChunk → Prop
  | d :: d' :: d'' :: ds =>
    ¬ d.Finished ∧ Closes d.usage.isSome (d' :: d'' :: ds) ∧
      ToolsInOrder parallel (d.delta.firstPieces ++ seenLater d.usage.isSome (d' :: d'' :: ds))
  | _ => False

instance (parallel : Bool) : (ds : List ChatChunk) → Decidable (Convertible parallel ds)
  | [] => inferInstanceAs (Decidable False)
  | [_] => inferInstanceAs (Decidable False)
  | [_, _] => inferInstanceAs (Decidable False)
  | _ :: _ :: _ :: _ => inferInstanceAs (Decidable (_ ∧ _))

/-! ## The protocol of the upstream -/

/-- The deltas of the tool calls, after those of `count` tools: a new tool has the next number and a
name, and the name comes only once. -/
def Numbered : Nat → List ToolCallResponse → Prop
  | _, [] => True
  | count, t :: ts =>
    (t.index = some (count : Int) ∧ t.name ≠ "" ∧ Numbered (count + 1) ts) ∨
      ((∃ i < count, t.index = some ((i : Nat) : Int)) ∧ t.name = "" ∧ Numbered count ts)

/-- What an upstream promises. -/
structure OpenAIProtocol (ds : List ChatChunk) : Prop where
  tools : Numbered 0 (ds.flatMap fun d => d.delta.toolCalls)
  /-- At most one chunk has a finish reason. -/
  finish : (ds.filter fun d => d.Finished).length ≤ 1
  /-- The usage comes with the last chunk or in chunks without choices. -/
  usage : ∀ d ∈ ds.dropLast, d.choices ≠ [] → d.usage = none

end Prox
