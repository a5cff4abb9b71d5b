import Prox.Relay.OpenAIStream

/-! # Reasoning shown as content

With think-to-content enabled `sendStreamData` writes the reasoning of a stream into its content,
between two markers. The specification is a list of pieces with the markers put in: one before the
first reasoning and one before the first content after it. The content that is sent is that list run
together exactly when no chunk brings reasoning and content at once; of such a chunk the content is
lost. -/

namespace Prox

open ChatChunk List

/-! ## Pieces and markers -/

/-- A piece of what a model says. -/
inductive ShownPiece where
  | reasoning (text : String)
  | content (text : String)

/-- A part of the content that a client sees. -/
inductive Shown where
  | opening
  | closing
  | piece (p : ShownPiece)

/-- The text of a piece. -/
def ShownPiece.text : ShownPiece → String
  | .reasoning text => text
  | .content text => text

/-- The text of a part. -/
def Shown.text : Shown → String
  | .opening => "<think>\n"
  | .closing => "\n</think>\n"
  | .piece p => p.text

/-- Where a stream stands. -/
inductive ThinkingSection where
  | before
  | inside
  | after

/-- The pieces with the markers put in. -/
def withMarkers : ThinkingSection → List ShownPiece → List Shown
  | _, [] => []
  | .before, .reasoning r :: rest => .opening :: .piece (.reasoning r) :: withMarkers .inside rest
  | .inside, .content c :: rest => .closing :: .piece (.content c) :: withMarkers .after rest
  | s, p :: rest => .piece p :: withMarkers s rest

/-- The content that a client should see. -/
def markedText (s : ThinkingSection) (ps : List ShownPiece) : String :=
  concat ((withMarkers s ps).map (·.text))

/-- The pieces of a chunk. -/
def ChatChunk.pieces (d : ChatChunk) : List ShownPiece :=
  (if d.reasoning = "" then [] else [.reasoning d.reasoning]) ++
    (if d.content = "" then [] else [.content d.content])

/-- Whether a chunk brings reasoning and content at once. -/
def ChatChunk.Mixed (d : ChatChunk) : Prop := d.reasoning ≠ "" ∧ d.content ≠ ""
  deriving Decidable

/-! ## What is sent -/

/-- The content of what is written to a client. -/
def ClientData.content : ClientData → String
  | .object d => d.content
  | _ => ""

/-- `sendStreamData` for one chunk after the other; a chunk that cannot be read is skipped. -/
def sendAll (env : StreamEnv) (forceFormat : Bool) :
    List String → ThinkingContentInfo → List ClientData
  | [], _ => []
  | data :: rest, t =>
    match sendStreamData env forceFormat true data t with
    | .error _ => sendAll env forceFormat rest t
    | .ok (out, t) => out ++ sendAll env forceFormat rest t

/-- The flags in a section. -/
def ThinkingSection.info : ThinkingSection → ThinkingContentInfo
  | .before => {}
  | .inside => { isFirstThinkingContent := false, hasSentThinkingContent := true }
  | .after =>
    { isFirstThinkingContent := false, sendLastThinkingContent := true, hasSentThinkingContent := true }

/-- The text that a chunk of one choice makes, and the section after it. -/
def ThinkingSection.shows (r c : String) : ThinkingSection → String × ThinkingSection
  | .before => if r = "" then (c, .before) else ("<think>\n" ++ r, .inside)
  | .inside => if c = "" then (r, .inside) else ("\n</think>\n" ++ if r = "" then c else r, .after)
  | .after => (if r = "" then c else r, .after)

/-- The texts that chunks of one choice make. -/
def shownText : ThinkingSection → List ChatChunk → String
  | _, [] => ""
  | s, d :: rest =>
    (s.shows d.reasoning d.content).1 ++ shownText (s.shows d.reasoning d.content).2 rest

theorem getContentString_thinkToContent (silent : Bool) (c : StreamChoice) :
    (c.thinkToContent silent).delta.getContentString =
      if c.delta.getReasoningContent = "" then c.delta.getContentString
      else c.delta.getReasoningContent := by
  unfold StreamChoice.thinkToContent
  split_ifs <;> first | rfl | contradiction

section Single

variable {d : ChatChunk} {choice : StreamChoice} (hd : d.choices = [choice])

include hd

theorem content_single : d.content = choice.delta.getContentString := by
  simp [content, hd, concat]

theorem reasoning_single : d.reasoning = choice.delta.getReasoningContent := by
  simp [reasoning, hd, concat]

theorem hasContent_single : d.hasContent = decide (d.content ≠ "") := by
  simp [hasContent, content_single hd, hd]

theorem hasThinkingContent_single : d.hasThinkingContent = decide (d.reasoning ≠ "") := by
  simp [hasThinkingContent, reasoning_single hd, hd]

theorem content_showText (text : String) : (d.showText text).content = text := by
  simp [content, showText, ChoiceDelta.showText, ChoiceDelta.getContentString, hd,
    concat]

theorem content_thinkToContent (silent : Bool) :
    ({ d with choices := d.choices.map (·.thinkToContent silent) } : ChatChunk).content =
      if d.reasoning = "" then d.content else d.reasoning := by
  rw [content_single hd, reasoning_single hd, ← getContentString_thinkToContent silent]
  simp [content, hd, concat]

/-- One call for a chunk of one choice, with the flags of a section. -/
theorem sendThinking_single (s : ThinkingSection) :
    concat ((sendThinking d s.info).1.map (·.content)) = (s.shows d.reasoning d.content).1 ∧
      (sendThinking d s.info).2 = (s.shows d.reasoning d.content).2.info := by
  have hne : d.choices ≠ [] := by simp [hd]
  cases s with
  | before =>
    by_cases hr : d.reasoning = ""
    · -- nothing was thought yet, so the content goes out as it is
      simp [sendThinking, ThinkingSection.info, ThinkingSection.shows, hasThinkingContent_single hd,
        hr, hne, concat, ClientData.content, content_thinkToContent hd]
    · simp [sendThinking, ThinkingSection.info, ThinkingSection.shows, hasThinkingContent_single hd,
        hr, concat, ClientData.content, content_showText hd]
  | inside =>
    by_cases hc : d.content = "" <;>
      simp [sendThinking, ThinkingSection.info, ThinkingSection.shows, hasContent_single hd, hc, hne,
        concat, ClientData.content, content_thinkToContent hd, content_showText hd]
  | after =>
    simp [sendThinking, ThinkingSection.info, ThinkingSection.shows, hne, concat, ClientData.content,
      content_thinkToContent hd]

end Single

/-- Data that decode to a chunk of one choice. -/
def StreamEnv.DecodesSingle (env : StreamEnv) (data : String) (d : ChatChunk) : Prop :=
  data ≠ "" ∧ env.unmarshal data = .ok d ∧ d.choices.length = 1

/-- The content that is sent for chunks of one choice. -/
theorem sendAll_content (env : StreamEnv) (forceFormat : Bool) {datas : List String}
    {chunks : List ChatChunk} (h : List.Forall₂ env.DecodesSingle datas chunks)
    (s : ThinkingSection) :
    concat ((sendAll env forceFormat datas s.info).map (·.content)) = shownText s chunks := by
  induction h generalizing s with
  | nil => rfl
  | @cons data d rest chunks hd _ ih =>
    obtain ⟨hne, hok, hlen⟩ := hd
    obtain ⟨choice, hchoice⟩ := length_eq_one_iff.mp hlen
    obtain ⟨hout, hinfo⟩ := sendThinking_single hchoice s
    have hsend : sendStreamData env forceFormat true data s.info = .ok (sendThinking d s.info) := by
      simp [sendStreamData, hne, hok, bind, Except.bind, pure, Except.pure]
    simp only [sendAll, hsend, map_append, concat_append, hout, hinfo, ih]
    rfl

/-! ## Unmixed chunks -/

@[simp] theorem markedText_nil (s : ThinkingSection) : markedText s [] = "" := by
  cases s <;> rfl

/-- A chunk that brings one thing at a time is shown as it should be. -/
theorem markedText_unmixed (s : ThinkingSection) {d : ChatChunk} (hd : ¬ d.Mixed)
    (rest : List ShownPiece) :
    markedText s (d.pieces ++ rest) = (s.shows d.reasoning d.content).1 ++
      markedText (s.shows d.reasoning d.content).2 rest := by
  by_cases hr : d.reasoning = "" <;> by_cases hc : d.content = "" <;> cases s <;>
    simp_all [Mixed, pieces, ThinkingSection.shows, markedText, withMarkers,
      concat, Shown.text, ShownPiece.text, String.append_assoc]

/-- Chunks that bring one thing at a time are shown as they should be. -/
theorem shownText_unmixed {chunks : List ChatChunk} (h : ∀ d ∈ chunks, ¬ d.Mixed)
    (s : ThinkingSection) : shownText s chunks = markedText s (chunks.flatMap (·.pieces)) := by
  induction chunks generalizing s with
  | nil => simp [shownText]
  | cons d rest ih =>
    rw [flatMap_cons, markedText_unmixed s (h d (mem_cons_self ..)), shownText,
      ih fun d' hd' => h d' (mem_cons_of_mem _ hd')]

/-! ## Mixed chunks -/

/-- The section that is sent is the section that should be, or the closing marker is still owed. -/
inductive ThinkingSection.Owes : ThinkingSection → ThinkingSection → Nat → Prop
  | same (s : ThinkingSection) : Owes s s 0
  | closing : Owes .inside .after Shown.closing.text.length

/-- A mixed chunk is shown too short, even with the marker that is owed for it. -/
theorem mixed_shorter {s t : ThinkingSection} {n : Nat} (h : s.Owes t n) {d : ChatChunk}
    (hd : d.Mixed) (rest : List ShownPiece) :
    ∃ t' m, (s.shows d.reasoning d.content).2.Owes t' m ∧
      (s.shows d.reasoning d.content).1.length + 1 + (markedText t' rest).length + m ≤
        (markedText t (d.pieces ++ rest)).length + n := by
  obtain ⟨hr, hc⟩ := hd
  have hlen : 0 < d.content.length := Nat.pos_of_ne_zero fun h0 => hc (String.length_eq_zero_iff.mp h0)
  have hpieces : d.pieces = [.reasoning d.reasoning, .content d.content] := by
    simp [pieces, hr, hc]
  cases h with
  | same s =>
    cases s with
    | before =>
      refine ⟨.after, _, by simpa [ThinkingSection.shows, hr] using .closing, ?_⟩
      simp [ThinkingSection.shows, hr, hpieces, markedText, withMarkers, concat, Shown.text, ShownPiece.text]
      omega
    | inside =>
      refine ⟨.after, 0, by simpa [ThinkingSection.shows, hc] using .same _, ?_⟩
      simp [ThinkingSection.shows, hr, hc, hpieces, markedText, withMarkers, concat, Shown.text,
        ShownPiece.text]
      omega
    | after =>
      refine ⟨.after, 0, .same _, ?_⟩
      simp [ThinkingSection.shows, hr, hpieces, markedText, withMarkers, concat, Shown.text, ShownPiece.text]
      omega
  | closing =>
    refine ⟨.after, 0, by simpa [ThinkingSection.shows, hc] using .same _, ?_⟩
    simp [ThinkingSection.shows, hr, hc, hpieces, markedText, withMarkers, concat, Shown.text,
      ShownPiece.text]
    omega

/-- An unmixed chunk is not shown longer than it should be and than what is owed. -/
theorem unmixed_no_longer {s t : ThinkingSection} {n : Nat} (h : s.Owes t n) {d : ChatChunk}
    (hd : ¬ d.Mixed) (rest : List ShownPiece) :
    ∃ t' m, (s.shows d.reasoning d.content).2.Owes t' m ∧
      (s.shows d.reasoning d.content).1.length + (markedText t' rest).length + m ≤
        (markedText t (d.pieces ++ rest)).length + n := by
  rw [markedText_unmixed t hd, String.length_append]
  cases h with
  | same s => exact ⟨_, 0, .same _, le_rfl⟩
  | closing =>
    by_cases hc : d.content = ""
    · refine ⟨.after, _, by simpa [ThinkingSection.shows, hc] using .closing, ?_⟩
      by_cases hr : d.reasoning = "" <;> simp [ThinkingSection.shows, hr, hc]
    · have hr : d.reasoning = "" := by_contra fun hr => hd ⟨hr, hc⟩
      refine ⟨.after, 0, by simpa [ThinkingSection.shows, hc] using .same _, ?_⟩
      simp [ThinkingSection.shows, hr, hc, Shown.text]
      omega

/-- Every mixed chunk makes what is shown shorter than what should be. -/
theorem shownText_length (chunks : List ChatChunk) {s t : ThinkingSection} {n : Nat}
    (h : s.Owes t n) :
    (shownText s chunks).length + chunks.countP (·.Mixed) ≤
      (markedText t (chunks.flatMap (·.pieces))).length + n := by
  induction chunks generalizing s t n with
  | nil => simp [shownText]
  | cons d rest ih =>
    rw [flatMap_cons, shownText, String.length_append, countP_cons]
    by_cases hd : d.Mixed
    · obtain ⟨t', m, howes, hle⟩ := mixed_shorter h hd (rest.flatMap (·.pieces))
      have hrest := ih howes
      simp only [hd, decide_true, if_true]
      omega
    · obtain ⟨t', m, howes, hle⟩ := unmixed_no_longer h hd (rest.flatMap (·.pieces))
      have hrest := ih howes
      simp only [hd, decide_false, Bool.false_eq_true, if_false]
      omega

/-- For chunks of one choice the content that is sent is their reasoning and content, each once and in
order, with the markers put in, if and only if no chunk brings reasoning and content at once. -/
theorem thinking_shown_iff (env : StreamEnv) (forceFormat : Bool) (datas : List String)
    (chunks : List ChatChunk) (h : List.Forall₂ env.DecodesSingle datas chunks) :
    concat ((sendAll env forceFormat datas {}).map (·.content)) =
        markedText .before (chunks.flatMap (·.pieces)) ↔
      ∀ d ∈ chunks, ¬ d.Mixed := by
  have hsent := sendAll_content env forceFormat h .before
  rw [show ThinkingSection.before.info = {} from rfl] at hsent
  rw [hsent]
  refine ⟨fun heq => ?_, fun hunmixed => shownText_unmixed hunmixed .before⟩
  have hle := shownText_length chunks (.same .before)
  have hcount : chunks.countP (·.Mixed) = 0 := by rw [heq] at hle; omega
  simpa using hcount

/-- A decoder that knows four chunks of one choice. -/
def sampleThinkingEnv : StreamEnv where
  unmarshal data :=
    if data = "think" then
      .ok { choices := [{ delta := { reasoningContent := some "Two and two." } }] }
    else if data = "say" then .ok { choices := [{ delta := { content := some "Four" } }] }
    else if data = "both" then
      .ok { choices := [{ delta := { reasoningContent := some "Sure.", content := some "Four" } }] }
    else .ok { choices := [{ finishReason := some "stop" }] }
  unmarshalUsage _ := .ok none
  responseText2Usage _ _ := ⟨0, 0, 0, 0, 0, 0⟩
  applyUsagePostProcessing usage _ := usage

/-- A stream that thinks, answers and stops. -/
def sampleThinkingChunks : List ChatChunk :=
  [{ choices := [{ delta := { reasoningContent := some "Two and two." } }] },
    { choices := [{ delta := { content := some "Four" } }] },
    { choices := [{ finishReason := some "stop" }] }]

theorem thinking_shown_sample :
    List.Forall₂ sampleThinkingEnv.DecodesSingle ["think", "say", "stop"] sampleThinkingChunks ∧
      (concat ((sendAll sampleThinkingEnv false ["think", "say", "stop"] {}).map (·.content)) =
          markedText .before (sampleThinkingChunks.flatMap (·.pieces)) ↔
        ∀ d ∈ sampleThinkingChunks, ¬ d.Mixed) := by
  have h : List.Forall₂ sampleThinkingEnv.DecodesSingle ["think", "say", "stop"]
      sampleThinkingChunks :=
    .cons ⟨by decide, by decide, rfl⟩ (.cons ⟨by decide, by decide, rfl⟩
      (.cons ⟨by decide, by decide, rfl⟩ .nil))
  exact ⟨h, thinking_shown_iff sampleThinkingEnv false _ _ h⟩

/-- The content of a chunk that brings reasoning too is not sent. -/
theorem content_of_mixed_chunk_lost :
    sampleThinkingEnv.unmarshal "both" = .ok
        { choices := [{ delta := { reasoningContent := some "Sure.", content := some "Four" } }] } ∧
      (sendAll sampleThinkingEnv false ["both", "stop"] {}).map (·.content) =
        ["<think>\nSure.", ""] ∧
      markedText .before [.reasoning "Sure.", .content "Four"] = "<think>\nSure.\n</think>\nFour" := by
  decide

end Prox
