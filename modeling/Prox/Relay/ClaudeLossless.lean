import Prox.Relay.ClaudeContent

/-! # Which streams are converted without loss

The events of a stream say what is looked at in its chunks, and the tool blocks get the arguments that
come before the next text. What is passed over is compared with this by length: a concatenation that
leaves pieces out is the whole one exactly when those pieces are empty. -/

namespace Prox

open ChatChunk ChoiceDelta ConvertInfo List Option Piece

/-! ## What is lost -/

variable (f : Piece → Option String)

/-- The pieces that are looked at are at most as long as all. -/
theorem length_concat_shownOf (ps : List (Bool × Piece)) :
    (concat (shownOf f ps)).length ≤ (concat (allOf f ps)).length := by
  induction ps with
  | nil => exact Nat.le_refl 0
  | cons p ps ih =>
    obtain ⟨shown, p⟩ := p
    simp only [shownOf, allOf, filterMap_cons] at ih ⊢
    cases hf : f p with
    | none => cases shown <;> simpa using ih
    | some x =>
      cases shown with
      | false =>
        change _ ≤ (x ++ concat (List.filterMap _ ps)).length
        rw [String.length_append]
        exact Nat.le_add_left_of_le ih
      | true =>
        change (x ++ concat (List.filterMap _ ps)).length ≤ (x ++ concat (List.filterMap _ ps)).length
        rw [String.length_append, String.length_append]
        exact Nat.add_le_add_left ih _

/-- **Nothing is lost exactly when what is passed over is empty.** -/
theorem concat_shownOf_eq_iff (ps : List (Bool × Piece)) :
    concat (shownOf f ps) = concat (allOf f ps) ↔
      ∀ p ∈ ps, p.1 = false → ∀ x, f p.2 = some x → x = "" := by
  induction ps with
  | nil => exact iff_of_true rfl nofun
  | cons p ps ih =>
    have hlength := length_concat_shownOf f ps
    obtain ⟨shown, p⟩ := p
    rw [forall_mem_cons, ← ih]
    have hhidden : shownOf f ((false, p) :: ps) = shownOf f ps := rfl
    cases hf : f p with
    | none =>
      have hshown : shownOf f ((shown, p) :: ps) = shownOf f ps := by
        cases shown <;> simp [shownOf, hf]
      have hall : allOf f ((shown, p) :: ps) = allOf f ps := by simp [allOf, hf]
      rw [hshown, hall]
      simp
    | some x =>
      have hall : concat (allOf f ((shown, p) :: ps)) = x ++ concat (allOf f ps) := by
        simp [allOf, hf, concat]
      cases shown with
      | false =>
        rw [hhidden, hall]
        constructor
        · intro h
          have hx : x = "" := by
            have hlen := congrArg String.length h
            rw [String.length_append] at hlen
            exact String.length_eq_zero_iff.mp (by omega)
          subst hx
          refine ⟨fun _ y hy => ?_, h.trans String.empty_append⟩
          exact (Option.some.inj hy).symm
        · rintro ⟨hempty, h⟩
          rw [hempty rfl x rfl, h, String.empty_append]
      | true =>
        have hshown : concat (shownOf f ((true, p) :: ps)) = x ++ concat (shownOf f ps) := by
          simp [shownOf, hf, concat]
        rw [hshown, hall]
        simp

variable (index : Option Int)

theorem argumentsOf_cons (t : ToolCallResponse) (ts : List ToolCallResponse) :
    argumentsOf index (t :: ts)
      = if t.index = index then t.arguments ++ argumentsOf index ts else argumentsOf index ts := by
  by_cases ht : t.index = index
  · simp [argumentsOf, ht, concat]
  · simp [argumentsOf, ht]

theorem argumentsOf_eq_empty_iff (ps : List (Bool × Piece)) :
    argumentsOf index (allOf tool? ps) = "" ↔ NoArguments index ps := by
  induction ps with
  | nil => exact iff_of_true rfl nofun
  | cons p ps ih =>
    obtain ⟨shown, p⟩ := p
    unfold NoArguments at ih ⊢
    rw [forall_mem_cons, ← ih]
    cases p with
    | text x =>
      change argumentsOf index (allOf tool? ps) = "" ↔ _
      simp
    | thinking x =>
      change argumentsOf index (allOf tool? ps) = "" ↔ _
      simp
    | tool t =>
      change argumentsOf index (t :: allOf tool? ps) = "" ↔ _
      rw [argumentsOf_cons]
      by_cases ht : t.index = index
      · simp [ht]
      · simp [ht]

/-- What is looked at goes on past an empty piece, and ends with any other. -/
theorem runArguments_quiet {p : Piece} {x : String} (hp : p = .text x ∨ p = .thinking x)
    (index : Option Int) (shown : Bool) (ps : List (Bool × Piece)) :
    runArguments index ((shown, p) :: ps)
        = (if shown = true ∧ x ≠ "" then "" else runArguments index ps) ∧
      (ArgumentsKept index ((shown, p) :: ps) ↔
        if shown = true ∧ x ≠ "" then NoArguments index ps else ArgumentsKept index ps) ∧
      allOf tool? ((shown, p) :: ps) = allOf tool? ps := by
  rcases hp with rfl | rfl <;> cases shown <;> simp [runArguments, ArgumentsKept, allOf, tool?]

/-- What reaches a tool block is at most what there is. -/
theorem length_runArguments (ps : List (Bool × Piece)) :
    (runArguments index ps).length ≤ (argumentsOf index (allOf tool? ps)).length := by
  induction ps with
  | nil => exact Nat.le_refl 0
  | cons p ps ih =>
    obtain ⟨shown, p⟩ := p
    have hquiet : ∀ x, p = .text x ∨ p = .thinking x →
        (runArguments index ((shown, p) :: ps)).length
          ≤ (argumentsOf index (allOf tool? ((shown, p) :: ps))).length := by
      intro x hp
      obtain ⟨hrun, -, hall⟩ := runArguments_quiet hp index shown ps
      rw [hrun, hall]
      split
      · exact Nat.zero_le _
      · exact ih
    cases p with
    | text x => exact hquiet x (.inl rfl)
    | thinking x => exact hquiet x (.inr rfl)
    | tool t =>
      change _ ≤ (argumentsOf index (t :: allOf tool? ps)).length
      rw [argumentsOf_cons]
      cases shown with
      | false =>
        split
        · rw [String.length_append]
          exact Nat.le_add_left_of_le ih
        · exact ih
      | true =>
        rw [runArguments]
        split
        · rw [String.length_append, String.length_append]
          exact Nat.add_le_add_left ih _
        · exact ih

/-- **The arguments of a tool call that was started.** -/
theorem runArguments_eq_iff (ps : List (Bool × Piece)) :
    runArguments index ps = argumentsOf index (allOf tool? ps) ↔ ArgumentsKept index ps := by
  induction ps with
  | nil => exact iff_of_true rfl trivial
  | cons p ps ih =>
    have hlength := length_runArguments index ps
    obtain ⟨shown, p⟩ := p
    have hquiet : ∀ x, p = .text x ∨ p = .thinking x →
        (runArguments index ((shown, p) :: ps)
            = argumentsOf index (allOf tool? ((shown, p) :: ps)) ↔
          ArgumentsKept index ((shown, p) :: ps)) := by
      intro x hp
      obtain ⟨hrun, hkept, hall⟩ := runArguments_quiet hp index shown ps
      rw [hrun, hkept, hall]
      split
      · rw [← argumentsOf_eq_empty_iff]
        exact eq_comm
      · exact ih
    cases p with
    | text x => exact hquiet x (.inl rfl)
    | thinking x => exact hquiet x (.inr rfl)
    | tool t =>
      change _ = argumentsOf index (t :: allOf tool? ps) ↔
        (shown = false → t.index = index → t.arguments = "") ∧ ArgumentsKept index ps
      rw [argumentsOf_cons, ← ih]
      by_cases ht : t.index = index
      · rw [if_pos ht]
        cases shown with
        | false =>
          rw [runArguments]
          constructor
          · intro h
            have hempty : t.arguments = "" := by
              have hlen := congrArg String.length h
              rw [String.length_append] at hlen
              exact String.length_eq_zero_iff.mp (by omega)
            refine ⟨fun _ _ => hempty, ?_⟩
            rw [h, hempty, String.empty_append]
          · rintro ⟨hempty, h⟩
            rw [hempty rfl ht, h, String.empty_append]
        | true =>
          rw [runArguments, if_pos ht]
          simp
      · cases shown with
        | false => simp [runArguments, ht]
        | true => simp [runArguments, ht]

variable {m : Nat} {ts : List ToolCallResponse}

/-- A later tool has another number. -/
theorem Numbered.index_ne {i : Nat} (h : Numbered m ts) (hi : i < m) :
    ∀ t ∈ ts, t.name ≠ "" → t.index ≠ some (i : Int) := by
  induction ts generalizing m with
  | nil => nofun
  | cons t ts ih =>
    rw [forall_mem_cons]
    rcases h with ⟨hindex, hname, h⟩ | ⟨-, hname, h⟩
    · refine ⟨fun _ => ?_, ih h (Nat.lt_succ_of_lt hi)⟩
      rw [hindex, ne_eq, Option.some.injEq]
      omega
    · exact ⟨fun hne => absurd hname hne, ih h hi⟩

/-- The deltas of one tool say nothing about the other tools. -/
theorem toolCallsOf_cons {t : ToolCallResponse} (h : Numbered m (t :: ts)) :
    toolCallsOf (t :: ts)
      = if t.name ≠ "" then (t.id, t.name, t.arguments ++ argumentsOf t.index ts) :: toolCallsOf ts
        else toolCallsOf ts := by
  have hother : ∀ t' ∈ ts, t'.name ≠ "" → t.index ≠ t'.index := by
    intro t' ht' hname'
    rcases h with ⟨hindex, -, h⟩ | ⟨⟨o, ho, hindex⟩, -, h⟩
    · rw [hindex]
      exact (h.index_ne (Nat.lt_succ_self m) t' ht' hname').symm
    · rw [hindex]
      exact (h.index_ne ho t' ht' hname').symm
  have hrest : ((ts.filter fun t => t.name ≠ "").map
      fun t' => (t'.id, t'.name, argumentsOf t'.index (t :: ts))) = toolCallsOf ts := by
    refine map_congr_left fun t' ht' => ?_
    obtain ⟨hmem, hname⟩ := mem_filter.mp ht'
    rw [argumentsOf_cons, if_neg (hother t' hmem (by simpa using hname))]
  by_cases hname : t.name = ""
  · rw [if_neg (not_not.mpr hname), ← hrest, toolCallsOf, filter_cons_of_neg (by simp [hname])]
  · rw [if_pos hname, ← hrest, toolCallsOf, filter_cons_of_pos (by simp [hname]), map_cons,
      argumentsOf_cons, if_pos rfl]

/-- The numbering of the rest. -/
theorem Numbered.tail {t : ToolCallResponse} (h : Numbered m (t :: ts)) : ∃ m', Numbered m' ts := by
  rcases h with ⟨-, -, h⟩ | ⟨-, -, h⟩
  · exact ⟨m + 1, h⟩
  · exact ⟨m, h⟩

variable {ps : List (Bool × Piece)}

/-- At most the tools that are named are started. -/
theorem length_startedTools (hnum : Numbered m (allOf tool? ps)) :
    (startedTools ps).length ≤ (toolCallsOf (allOf tool? ps)).length := by
  induction ps generalizing m with
  | nil => exact Nat.le_refl 0
  | cons p ps ih =>
    obtain ⟨shown, p⟩ := p
    cases p with
    | text x | thinking x => cases shown <;> exact ih hnum
    | tool t =>
      have hall : allOf tool? ((shown, .tool t) :: ps) = t :: allOf tool? ps := rfl
      rw [hall] at hnum ⊢
      obtain ⟨m', hnum'⟩ := hnum.tail
      have hle := ih hnum'
      rw [toolCallsOf_cons hnum]
      cases shown with
      | false =>
        rw [startedTools]
        · split
          · exact Nat.le_succ_of_le hle
          · exact hle
        · nofun
      | true =>
        rw [startedTools]
        split
        · exact Nat.succ_le_succ hle
        · exact hle

/-- **The tool calls that are kept.** -/
theorem startedTools_eq_iff (hnum : Numbered m (allOf tool? ps)) :
    startedTools ps = toolCallsOf (allOf tool? ps) ↔ ToolsKept ps := by
  induction ps generalizing m with
  | nil => exact iff_of_true rfl trivial
  | cons p ps ih =>
    obtain ⟨shown, p⟩ := p
    cases p with
    | text x | thinking x => cases shown <;> exact ih hnum
    | tool t =>
      have hall : allOf tool? ((shown, .tool t) :: ps) = t :: allOf tool? ps := rfl
      rw [hall] at hnum ⊢
      obtain ⟨m', hnum'⟩ := hnum.tail
      have hle := length_startedTools hnum'
      have hkept : ToolsKept ((shown, .tool t) :: ps) ↔
        (t.name ≠ "" → shown = true ∧ ArgumentsKept t.index ps) ∧ ToolsKept ps := Iff.rfl
      rw [hkept, toolCallsOf_cons hnum, ← ih hnum']
      by_cases hname : t.name = ""
      · have hrest : startedTools ((shown, .tool t) :: ps) = startedTools ps := by
          cases shown with
          | false => rfl
          | true => exact if_neg (not_not.mpr hname)
        rw [hrest]
        simp [hname]
      · rw [if_pos hname]
        cases shown with
        | false =>
          -- a tool that is not started is missing
          refine iff_of_false (fun h => ?_) fun h => nomatch (h.1 hname).1
          have hrest : startedTools ((false, .tool t) :: ps) = startedTools ps := rfl
          rw [hrest] at h
          rw [h, length_cons] at hle
          omega
        | true =>
          have hnew : startedTools ((true, .tool t) :: ps)
              = (t.id, t.name, t.arguments ++ runArguments t.index ps) :: startedTools ps :=
            if_pos hname
          rw [hnew, List.cons.injEq, Prod.mk.injEq, Prod.mk.injEq, String.append_right_inj,
            runArguments_eq_iff]
          simp [hname]

/-! ## The whole stream -/

/-- The state with other values in the fields that say nothing about the blocks. -/
def ConvertInfo.withFrame (s : ConvertInfo) (count : Nat) (usage : Option ChatUsage)
    (finishReason : String) : ConvertInfo :=
  { s with sendResponseCount := count, usage, finishReason, done := false }

/-- The content of a chunk depends only on the blocks. -/
theorem laterContent_withFrame (c : ChoiceDelta) (s : ConvertInfo) (count : Nat)
    (usage : Option ChatUsage) (finishReason : String) :
    laterContent c (s.withFrame count usage finishReason)
      = ((laterContent c s).1, (laterContent c s).2.withFrame count usage finishReason) := by
  have hadvance : (s.withFrame count usage finishReason).advance
      = s.advance.withFrame count usage finishReason := by
    obtain ⟨_, _, type, _⟩ := s
    cases type <;> rfl
  have hstops : (s.withFrame count usage finishReason).stopOpenBlocks = s.stopOpenBlocks := rfl
  have htype : (s.withFrame count usage finishReason).lastMessagesType = s.lastMessagesType := rfl
  unfold laterContent
  rw [hadvance, htype]
  by_cases htools : c.toolCalls = []
  · simp only [htools, ne_eq, not_true, if_false]
    by_cases hreasoning : c.getReasoningContent = ""
    · simp only [hreasoning, not_true, if_false]
      by_cases hcontent : c.getContentString = ""
      · simp [hcontent]
      · simp only [hcontent, not_false_eq_true, if_true]
        split <;> rfl
    · simp only [hreasoning, not_false_eq_true, if_true]
      split <;> rfl
  · simp only [htools, ne_eq, not_false_eq_true, if_true]
    split <;> rfl

variable {s : ConvertInfo} {c : ChoiceDelta}

section Stream

variable {usage : ChatUsage}

/-- A chunk that closes the stream. -/
def ChatChunk.Last (known : Bool) (d : ChatChunk) : Prop :=
  d.Closing known ∨ (d.Finished ∧ d.usage.isSome)
  deriving Decidable

variable {d : ChatChunk} {u : Option ChatUsage}

/-- A chunk without choices has nothing to say. -/
theorem runMarks_noChoices (hchoices : d.choices = []) (s : ConvertInfo) :
    runMarks s d.delta.laterMarks = ([], s) := by
  have hdelta : d.delta = {} := by simp [delta, hchoices]
  rw [hdelta]
  rfl

/-- A later chunk that closes the stream. -/
theorem convertLater_last (hindex : ∀ t ∈ d.delta.toolCalls, t.index.isSome)
    (hlast : d.Last u.isSome) (s : ConvertInfo) (count : Nat) (finishReason : String) :
    said (convertLater d (s.withFrame count u finishReason)).1
        = said (runMarks s d.delta.laterMarks).1 ∧
      (convertLater d (s.withFrame count u finishReason)).2.done = true := by
  rcases hlast with ⟨hchoices, hknown⟩ | ⟨hfinished, husage⟩
  · obtain ⟨v, hv⟩ : ∃ v, d.usage.or u = some v := by
      rw [← isSome_iff_exists]
      simpa using hknown
    have hor : d.usage.or (s.withFrame count u finishReason).usage = some v := hv
    rw [runMarks_noChoices hchoices]
    simp only [convertLater, hchoices, hor]
    exact ⟨said_finish _ _ _, rfl⟩
  · obtain ⟨choice, rest, hchoices⟩ : ∃ choice rest, d.choices = choice :: rest := by
      refine exists_cons_of_ne_nil fun hnil => ?_
      simp [Finished, hnil] at hfinished
    have hdelta : d.delta = choice.delta := by simp [delta, hchoices]
    obtain ⟨reason, hreason⟩ : ∃ reason, choice.finish? = some reason := by
      rw [← isSome_iff_exists]
      simpa [Finished, hchoices] using hfinished
    obtain ⟨v, hv⟩ := isSome_iff_exists.mp husage
    have hframe : ({ s.withFrame count u finishReason with finishReason := reason } : ConvertInfo)
      = s.withFrame count u reason := rfl
    rw [hdelta] at hindex ⊢
    rw [← laterContent_runMarks _ hindex s]
    simp only [convertLater, hchoices, hreason, hv, hframe, laterContent_withFrame]
    rw [said_append, said_finish, append_nil]
    exact ⟨rfl, rfl⟩

/-- A later chunk with a finish reason and without a usage. -/
theorem convertLater_finished (hfinished : d.Finished) (hlast : ¬ d.Last u.isSome)
    (s : ConvertInfo) (count : Nat) (finishReason : String) :
    ∃ reason, convertLater d (s.withFrame count u finishReason)
      = ([], s.withFrame count u reason) := by
  obtain ⟨choice, rest, hchoices⟩ : ∃ choice rest, d.choices = choice :: rest := by
    refine exists_cons_of_ne_nil fun hnil => ?_
    simp [Finished, hnil] at hfinished
  obtain ⟨reason, hreason⟩ : ∃ reason, choice.finish? = some reason := by
    rw [← isSome_iff_exists]
    simpa [Finished, hchoices] using hfinished
  have husage : d.usage = none := by
    rw [← not_isSome_iff_eq_none]
    exact fun h => hlast (.inr ⟨hfinished, h⟩)
  exact ⟨reason, convertLater_passed hchoices hreason husage _⟩

/-- A later chunk that goes on. -/
theorem convertLater_open (hindex : ∀ t ∈ d.delta.toolCalls, t.index.isSome)
    (hfinished : ¬ d.Finished) (hlast : ¬ d.Last u.isSome) (s : ConvertInfo) (count : Nat)
    (finishReason : String) :
    convertLater d (s.withFrame count u finishReason)
      = ((runMarks s d.delta.laterMarks).1,
        (runMarks s d.delta.laterMarks).2.withFrame count u finishReason) := by
  cases hchoices : d.choices with
  | nil =>
    have hnone : d.usage.or u = none := by
      rw [← not_isSome_iff_eq_none]
      exact fun h => hlast (.inl ⟨hchoices, by simpa using h⟩)
    have hor : d.usage.or (s.withFrame count u finishReason).usage = none := hnone
    rw [runMarks_noChoices hchoices]
    simp [convertLater, hchoices, hor]
  | cons choice rest =>
    have hdelta : d.delta = choice.delta := by simp [delta, hchoices]
    have hfin : choice.finish? = none := by
      rw [← not_isSome_iff_eq_none]
      exact fun h => hfinished (by simpa [Finished, hchoices] using h)
    rw [hdelta] at hindex ⊢
    rw [convertLater_content hchoices hfin, laterContent_withFrame, laterContent_runMarks _ hindex]

/-- The usage of a chunk makes itself known. -/
theorem last_or (u : Option ChatUsage) : d.Last (d.usage.or u).isSome ↔ d.Last u.isSome := by
  unfold Last Closing
  cases hu : d.usage <;> simp

/-- **The later chunks say what is looked at in them.** -/
theorem said_oaiStream (ds : List ChatChunk) {count : Nat} {finishReason : String}
    (hfirst : ds.length ≤ 1 ∨ 1 ≤ count) (htwo : count + ds.length ≠ 2)
    (hindex : ∀ d ∈ ds, ∀ t ∈ d.delta.toolCalls, t.index.isSome) :
    said (oaiStream usage (s.withFrame count u finishReason) ds)
      = said (runMarks s (marksLater u.isSome ds)).1 := by
  induction ds generalizing s count u finishReason with
  | nil => rfl
  | cons d ds ih =>
    have hmarks : marksLater u.isSome (d :: ds)
        = if d.Last u.isSome then d.delta.laterMarks ++ ds.flatMap fun d => d.delta.hiddenMarks
          else if d.Finished then d.delta.hiddenMarks ++ marksLater u.isSome ds
          else d.delta.laterMarks ++ marksLater (u.isSome || d.usage.isSome) ds := rfl
    obtain ⟨hd, hds⟩ := forall_mem_cons.mp hindex
    rw [hmarks]
    cases ds with
    | nil =>
      have hcount : count ≠ 1 := by
        rw [length_singleton] at htwo
        omega
      have hcall : oaiStream usage (s.withFrame count u finishReason) [d]
          = (convertLater d (s.withFrame count (some usage) finishReason)).1 :=
        handleFinalResponse_later rfl hcount
      simp only [hcall, flatMap_nil, marksLater, append_nil]
      by_cases hlast : d.Last (some usage).isSome
      · -- at the end the usage is known in any case
        rw [(convertLater_last hd hlast s count finishReason).1]
        split
        · rfl
        · next hopen =>
          have hfinished : ¬ d.Finished := fun hf => hopen (.inr ⟨hf, hlast.elim
            (fun hc => by simp [Finished, hc.1] at hf) fun h => h.2⟩)
          rw [if_neg hfinished]
      · have hopen : ¬ d.Last u.isSome := fun h => hlast (h.imp (fun hc => ⟨hc.1, .inr rfl⟩) id)
        rw [if_neg hopen]
        by_cases hfinished : d.Finished
        · obtain ⟨reason, hpassed⟩ := convertLater_finished hfinished hlast s count finishReason
          rw [hpassed, if_pos hfinished, runMarks_hidden s d.delta.hiddenMarks_hidden]
        · rw [convertLater_open hd hfinished hlast, if_neg hfinished]
    | cons d' ds =>
      have hcount : 1 ≤ count := by
        simp only [length_cons] at hfirst
        omega
      have hcall : oaiStream usage (s.withFrame count u finishReason) (d :: d' :: ds)
          = (convertLater d (s.withFrame (count + 1) (d.usage.or u) finishReason)).1 ++
            oaiStream usage
              (convertLater d (s.withFrame (count + 1) (d.usage.or u) finishReason)).2
              (d' :: ds) := by
        have hnext : handleStreamFormat d (s.withFrame count u finishReason)
          = convertLater d (s.withFrame (count + 1) (d.usage.or u) finishReason) :=
          handleStreamFormat_later rfl hcount
        rw [oaiStream, hnext]
        rintro ⟨⟩
      have hsum : count + 1 + (d' :: ds).length ≠ 2 := by
        simp only [length_cons] at htwo ⊢
        omega
      rw [hcall, said_append]
      by_cases hlast : d.Last u.isSome
      · obtain ⟨hsaid, hdone⟩ := convertLater_last hd ((last_or u).mpr hlast) s (count + 1)
          finishReason
        rw [hsaid, oaiStream_done _ hdone, if_pos hlast, runMarks_append, runMarks_hiddenMarks,
          said_append]
      · have hopen : ¬ d.Last (d.usage.or u).isSome := fun h => hlast ((last_or u).mp h)
        rw [if_neg hlast]
        by_cases hfinished : d.Finished
        · obtain ⟨reason, hpassed⟩ := convertLater_finished hfinished hopen s (count + 1)
            finishReason
          have husage : d.usage.or u = u := by
            cases hu : d.usage with
            | none => rfl
            | some v => exact absurd (.inr ⟨hfinished, by rw [hu]; rfl⟩) hlast
          have hrest : said (oaiStream usage (s.withFrame (count + 1) u reason) (d' :: ds))
              = said (runMarks s (marksLater u.isSome (d' :: ds))).1 :=
            ih (.inr (Nat.le_add_left 1 count)) hsum hds
          rw [hpassed, if_pos hfinished, runMarks_append, runMarks_hidden s
            d.delta.hiddenMarks_hidden, husage, hrest]
          rfl
        · have hknown : (u.isSome || d.usage.isSome) = (d.usage.or u).isSome := by
            cases d.usage <;> cases u <;> rfl
          rw [convertLater_open hd hfinished hopen, if_neg hfinished, runMarks_append, said_append,
            hknown]
          exact congrArg _ (ih (.inr (Nat.le_add_left 1 count)) hsum hds)

/-! ## The first chunk -/

/-- What a first chunk says after the start of the message. -/
def firstEvents (c : ChoiceDelta) (s : ConvertInfo) : List ClaudeEvent × ConvertInfo :=
  ((firstToolCall c s).1 ++ (firstContent c (firstToolCall c s).2).1,
    (firstContent c (firstToolCall c s).2).2)

theorem convertFirst_cases (d : ChatChunk) (s : ConvertInfo) :
    said (convertFirst d s).1 = said (firstEvents d.delta s).1 ∧
      (d.Finished → (convertFirst d s).2.done = true) ∧
      (¬ d.Finished → (convertFirst d s).2 = (firstEvents d.delta s).2) := by
  cases hchoices : d.choices with
  | nil =>
    have hdelta : d.delta = {} := by simp [delta, hchoices]
    have hcall : convertFirst d s = ([.messageStart d.id d.model s.estimatePromptTokens], s) := by
      simp [convertFirst, hchoices]
    rw [hdelta, hcall]
    refine ⟨rfl, fun hf => ?_, fun _ => rfl⟩
    simp [Finished, hchoices] at hf
  | cons choice rest =>
    have hdelta : d.delta = choice.delta := by simp [delta, hchoices]
    have hfinished : d.Finished ↔ choice.finish?.isSome := by simp [Finished, hchoices]
    rw [hdelta, hfinished]
    cases hfin : choice.finish? with
    | none =>
      have hcall : convertFirst d s = (.messageStart d.id d.model s.estimatePromptTokens ::
          (firstEvents choice.delta s).1, (firstEvents choice.delta s).2) := by
        simp only [convertFirst, hchoices, hfin]
        rfl
      rw [hcall]
      exact ⟨rfl, (fun hs => by cases hs), fun _ => rfl⟩
    | some reason =>
      refine ⟨?_, fun _ => ?_, fun h => absurd rfl h⟩
      · simp only [convertFirst, hchoices, hfin]
        rw [said_append, said_finish, append_nil]
        rfl
      · simp only [convertFirst, hchoices, hfin]
        rfl

/-- The pieces of the content. -/
def ChoiceDelta.contentMarks (c : ChoiceDelta) : List (Bool × Piece) :=
  [(true, .thinking c.getReasoningContent),
    (decide (c.getReasoningContent = ""), .text c.getContentString)]

/-- The content of a first chunk; a block may be started once more. -/
theorem said_firstContent (c : ChoiceDelta) (s : ConvertInfo) :
    said (firstContent c s).1 = said (runMarks s c.contentMarks).1 ∧
      (firstContent c s).2 = (runMarks s c.contentMarks).2 := by
  unfold firstContent ChoiceDelta.contentMarks
  by_cases hreasoning : c.getReasoningContent = ""
  · rw [if_neg (not_not.mpr hreasoning), hreasoning, decide_eq_true rfl]
    simp only [runMarks, (stepPiece_empty s).2, nil_append, append_nil]
    by_cases hcontent : c.getContentString = ""
    · rw [hcontent]
      exact ⟨rfl, rfl⟩
    · obtain ⟨hsaid, hstate⟩ := stepPiece_text s hcontent
      rw [if_pos hcontent, hsaid, hstate]
      unfold ConvertInfo.switchTo ConvertInfo.continue
      by_cases htype : s.lastMessagesType = .text
      · simp only [htype, if_true]
        exact ⟨rfl, trivial⟩
      · simp only [htype, if_false]
        rw [said_append, said_stops]
        exact ⟨rfl, trivial⟩
  · obtain ⟨hsaid, hstate⟩ := stepPiece_thinking s hreasoning
    rw [if_pos hreasoning, decide_eq_false hreasoning]
    simp only [runMarks, append_nil]
    rw [hsaid, hstate]
    unfold ConvertInfo.switchTo ConvertInfo.continue
    by_cases htype : s.lastMessagesType = .thinking
    · simp only [htype, if_true]
      exact ⟨rfl, trivial⟩
    · simp only [htype, if_false]
      rw [said_append, said_stops]
      exact ⟨rfl, trivial⟩

/-- The pieces of the tool calls of a first chunk. -/
def ChoiceDelta.firstToolMarks (c : ChoiceDelta) : List (Bool × Piece) :=
  (c.toolCalls.take 1).map (fun t => (true, .tool t)) ++
    (c.toolCalls.drop 1).map fun t => (false, .tool t)

theorem ChoiceDelta.firstMarks_eq (c : ChoiceDelta) :
    c.firstMarks = c.firstToolMarks ++ c.contentMarks := rfl

/-- The tool call of the first chunk of all. -/
theorem said_firstToolCall (hnum : Numbered 0 c.toolCalls) (htype : s.lastMessagesType = .none)
    (hindex : s.index = 0) :
    said (firstToolCall c s).1 = said (runMarks s c.firstToolMarks).1 ∧
      (firstToolCall c s).2 = (runMarks s c.firstToolMarks).2 := by
  unfold firstToolCall firstToolMarks
  cases htools : c.toolCalls with
  | nil => exact ⟨rfl, rfl⟩
  | cons t ts =>
    rw [htools] at hnum
    rcases hnum with ⟨hnumber, hname, -⟩ | ⟨⟨i, hi, -⟩, -⟩
    · have hhidden : ∀ p ∈ ts.map fun t => (false, tool t), p.1 = false := by
        intro p hp
        obtain ⟨t', -, rfl⟩ := List.mem_map.mp hp
        rfl
      have hrun : ∀ s', runMarks s' (ts.map fun t => (false, tool t)) = ([], s') :=
        fun s' => runMarks_hidden s' hhidden
      have hopen : s.openTools
          = { s with lastMessagesType := .tools, toolCallBaseIndex := 0, toolCallMaxIndexOffset := 0 } := by
        have hadvance : s.advance = s := by rw [advance, htype]
        unfold openTools
        rw [if_neg (by rw [htype]; rintro ⟨⟩), hadvance]
        simp [hindex]
      simp only [take_succ_cons, take_zero, drop_succ_cons, drop_zero,
        map_cons, map_nil, singleton_append, runMarks, hrun, append_nil]
      rw [said_stepPiece_tool s hnumber, stepPiece_tool s hnumber, hopen, toolEvents]
      refine ⟨?_, ?_⟩
      · split <;> rfl
      · unfold afterTool
        rw [hopen]
        obtain ⟨_, _, _, _⟩ := s
        cases hindex
        rfl
    · cases hi

/-- **The first chunk of all says what is looked at in it.** -/
theorem said_firstEvents (hnum : Numbered 0 c.toolCalls) (htype : s.lastMessagesType = .none)
    (hindex : s.index = 0) :
    said (firstEvents c s).1 = said (runMarks s c.firstMarks).1 ∧
      (firstEvents c s).2 = (runMarks s c.firstMarks).2 := by
  obtain ⟨htool, hstate⟩ := said_firstToolCall hnum htype hindex
  obtain ⟨hcontent, hstate'⟩ := said_firstContent c (firstToolCall c s).2
  rw [firstEvents, firstMarks_eq, runMarks_append, said_append, said_append, htool,
    hcontent, hstate', hstate]
  exact ⟨rfl, rfl⟩

theorem stepPiece_withFrame (s : ConvertInfo) (p : Piece) (count : Nat) (u : Option ChatUsage)
    (finishReason : String) :
    stepPiece (s.withFrame count u finishReason) p
      = ((stepPiece s p).1, (stepPiece s p).2.withFrame count u finishReason) := by
  cases p <;> exact laterContent_withFrame ..

theorem runMarks_withFrame (s : ConvertInfo) (ps : List (Bool × Piece)) (count : Nat)
    (u : Option ChatUsage) (finishReason : String) :
    runMarks (s.withFrame count u finishReason) ps
      = ((runMarks s ps).1, (runMarks s ps).2.withFrame count u finishReason) := by
  induction ps generalizing s with
  | nil => rfl
  | cons p ps ih =>
    obtain ⟨_ | _, p⟩ := p
    · exact ih s
    · simp [runMarks, stepPiece_withFrame, ih]

/-- The first of several chunks. -/
theorem handleStreamFormat_initial (hnum : Numbered 0 d.delta.toolCalls) (estimate : Int) :
    said (handleStreamFormat d (initial estimate)).1
        = said (runMarks (initial estimate) d.delta.firstMarks).1 ∧
      (d.Finished → (handleStreamFormat d (initial estimate)).2.done = true) ∧
      (¬ d.Finished → (handleStreamFormat d (initial estimate)).2
        = (runMarks (initial estimate) d.delta.firstMarks).2.withFrame 1 d.usage "") := by
  have hor : d.usage.or none = d.usage := by simp
  have hcall : handleStreamFormat d (initial estimate)
      = convertFirst d ((initial estimate).withFrame 1 d.usage "") := by
    rw [← hor]
    rfl
  obtain ⟨hsaid, hdone, hopen⟩ :=
    convertFirst_cases d ((initial estimate).withFrame 1 d.usage "")
  obtain ⟨hevents, hstate⟩ : said (firstEvents d.delta
        ((initial estimate).withFrame 1 d.usage "")).1 = _ ∧ _ :=
    said_firstEvents hnum rfl rfl
  rw [runMarks_withFrame] at hevents hstate
  rw [hcall]
  exact ⟨hsaid.trans hevents, hdone, fun h => (hopen h).trans hstate⟩

end Stream

/-! ## All pieces -/

/-- Everything a delta says. -/
def ChoiceDelta.pieces (c : ChoiceDelta) : List Piece :=
  c.toolCalls.map .tool ++ [.thinking c.getReasoningContent, .text c.getContentString]

theorem ChoiceDelta.map_snd_hiddenMarks (c : ChoiceDelta) : c.hiddenMarks.map Prod.snd = c.pieces := by
  simp [hiddenMarks, pieces]

theorem ChoiceDelta.map_snd_laterMarks (c : ChoiceDelta) : c.laterMarks.map Prod.snd = c.pieces := by
  simp [laterMarks, pieces]

theorem ChoiceDelta.map_snd_firstMarks (c : ChoiceDelta) : c.firstMarks.map Prod.snd = c.pieces := by
  cases htools : c.toolCalls with
  | nil => simp [firstMarks, pieces, htools]
  | cons t ts => simp [firstMarks, pieces, htools]

theorem map_snd_hidden (ds : List ChatChunk) :
    (ds.flatMap fun d => d.delta.hiddenMarks).map Prod.snd = ds.flatMap fun d => d.delta.pieces := by
  rw [map_flatMap]
  exact flatMap_congr fun d _ => d.delta.map_snd_hiddenMarks

theorem map_snd_marksLater (ds : List ChatChunk) (known : Bool) :
    (marksLater known ds).map Prod.snd = ds.flatMap fun d => d.delta.pieces := by
  induction ds generalizing known with
  | nil => rfl
  | cons d ds ih =>
    rw [marksLater, flatMap_cons]
    split
    · rw [map_append, map_snd_laterMarks, map_snd_hidden]
    · split
      · rw [map_append, map_snd_hiddenMarks, ih]
      · rw [map_append, map_snd_laterMarks, ih]

/-- Every piece of every chunk is marked. -/
theorem map_snd_marks (ds : List ChatChunk) :
    (marks ds).map Prod.snd = ds.flatMap fun d => d.delta.pieces := by
  match ds with
  | [] => rfl
  | [d] => exact map_snd_marksLater [d] false
  | [d, d'] =>
    rw [marks, map_append, map_snd_firstMarks, flatMap_cons, flatMap_cons,
      flatMap_nil, append_nil]
    split
    · rw [map_snd_hiddenMarks]
    · rw [map_snd_firstMarks]
  | d :: d' :: d'' :: ds =>
    have hrest : marks (d :: d' :: d'' :: ds) = d.delta.firstMarks ++
        if d.Finished then (d' :: d'' :: ds).flatMap fun d => d.delta.hiddenMarks
        else marksLater d.usage.isSome (d' :: d'' :: ds) := rfl
    have hsplit : (d :: d' :: d'' :: ds).flatMap (fun d => d.delta.pieces)
      = d.delta.pieces ++ (d' :: d'' :: ds).flatMap fun d => d.delta.pieces := rfl
    rw [hrest, map_append, map_snd_firstMarks, hsplit]
    split
    · rw [map_snd_hidden]
    · rw [map_snd_marksLater]

theorem allOf_marks {β : Type} (f : Piece → Option β) (ds : List ChatChunk) :
    allOf f (marks ds) = ds.flatMap fun d => d.delta.pieces.filterMap f := by
  have hmap : allOf f (marks ds) = ((marks ds).map Prod.snd).filterMap f :=
    (filterMap_map ..).symm
  rw [hmap, map_snd_marks, filterMap_flatMap]

variable {es : List ClaudeEvent}

section Single

variable {ds : List ChatChunk}

/-- A chunk with at most one choice says what its delta says. -/
theorem ChatChunk.single_says {d : ChatChunk} (h : d.choices.length ≤ 1) :
    d.content = d.delta.getContentString ∧ d.reasoning = d.delta.getReasoningContent ∧
      d.toolDeltas = d.delta.toolCalls := by
  unfold content reasoning toolDeltas delta
  match hchoices : d.choices with
  | [] => exact ⟨rfl, rfl, rfl⟩
  | [choice] =>
    refine ⟨?_, ?_, ?_⟩
    · exact String.append_empty
    · exact String.append_empty
    · exact append_nil _
  | _ :: _ :: _ =>
    rw [hchoices] at h
    simp only [length_cons] at h
    omega

theorem filterMap_pieces (c : ChoiceDelta) :
    c.pieces.filterMap Piece.text? = [c.getContentString] ∧
      c.pieces.filterMap thinking? = [c.getReasoningContent] ∧
      c.pieces.filterMap tool? = c.toolCalls := by
  unfold pieces
  rw [filterMap_append, filterMap_append, filterMap_append, filterMap_map,
    filterMap_map, filterMap_map]
  have hnone : ∀ (f : ToolCallResponse → Option String), (∀ t, f t = none) →
      c.toolCalls.filterMap f = [] := fun f hf => filterMap_eq_nil_iff.mpr fun t _ => hf t
  refine ⟨?_, ?_, ?_⟩
  · rw [hnone (Piece.text? ∘ tool) fun _ => rfl]
    rfl
  · rw [hnone (thinking? ∘ tool) fun _ => rfl]
    rfl
  · change c.toolCalls.filterMap some ++ [] = c.toolCalls
    rw [filterMap_some, append_nil]

/-- What the chunks say is what their pieces say. -/
theorem allOf_marks_single (hsingle : ∀ d ∈ ds, d.choices.length ≤ 1) :
    concat (allOf Piece.text? (marks ds)) = concat (ds.map content) ∧
      concat (allOf thinking? (marks ds)) = concat (ds.map reasoning) ∧
      allOf tool? (marks ds) = ds.flatMap toolDeltas := by
  have hmap : ∀ (f : Piece → Option String) (g : ChatChunk → String),
      (∀ d ∈ ds, d.delta.pieces.filterMap f = [g d]) → allOf f (marks ds) = ds.map g := by
    intro f g h
    rw [allOf_marks, map_eq_flatMap]
    exact flatMap_congr h
  refine ⟨congrArg concat (hmap _ _ fun d hd => ?_), congrArg concat (hmap _ _ fun d hd => ?_), ?_⟩
  · rw [(filterMap_pieces d.delta).1, ( single_says (hsingle d hd)).1]
  · rw [(filterMap_pieces d.delta).2.1, ( single_says (hsingle d hd)).2.1]
  · rw [allOf_marks]
    refine flatMap_congr fun d hd => ?_
    rw [(filterMap_pieces d.delta).2.2, ( single_says (hsingle d hd)).2.2]

/-- What is passed over of the text and of the thinking. -/
theorem contentKept_iff (ps : List (Bool × Piece)) :
    ContentKept ps ↔
      (∀ p ∈ ps, p.1 = false → ∀ x, p.2.text? = some x → x = "") ∧
      ∀ p ∈ ps, p.1 = false → ∀ x, p.2.thinking? = some x → x = "" := by
  have htext : ∀ (p : Piece) (x : String), p.text? = some x ↔ p = .text x := by
    intro p x
    cases p <;> simp [Piece.text?]
  have hthinking : ∀ (p : Piece) (x : String), p.thinking? = some x ↔ p = .thinking x := by
    intro p x
    cases p <;> simp [thinking?]
  simp only [htext, hthinking]
  constructor
  · intro h
    exact ⟨fun p hp hs x hx => h p hp hs x (.inl hx), fun p hp hs x hx => h p hp hs x (.inr hx)⟩
  · rintro ⟨h, h'⟩ p hp hs x (hx | hx)
    · exact h p hp hs x hx
    · exact h' p hp hs x hx

theorem Numbered.indexed (h : Numbered m ts) : ∀ t ∈ ts, t.index.isSome := by
  induction ts generalizing m with
  | nil => nofun
  | cons t ts ih =>
    rw [forall_mem_cons]
    rcases h with ⟨hindex, -, h⟩ | ⟨⟨o, -, hindex⟩, -, h⟩
    · exact ⟨by rw [hindex]; rfl, ih h⟩
    · exact ⟨by rw [hindex]; rfl, ih h⟩

/-- Events that say what the pieces say which are looked at. -/
structure Says (es : List ClaudeEvent) (ps : List (Bool × Piece)) : Prop where
  text : textOf es = concat (shownOf Piece.text? ps)
  thinking : thinkingOf es = concat (shownOf Piece.thinking? ps)
  tools : toolUses es = startedTools ps
  blocks : ((toolStarts es).map Prod.fst).Nodup

/-- **Such events preserve the chunks exactly when nothing is passed over that says something.** -/
theorem Says.preserves_iff (h : Says es (marks ds)) (hsingle : ∀ d ∈ ds, d.choices.length ≤ 1)
    (hnum : Numbered 0 (ds.flatMap toolDeltas)) :
    Preserves ds es ↔ ContentKept (marks ds) ∧ ToolsKept (marks ds) := by
  obtain ⟨htext, hthinking, htools⟩ := allOf_marks_single hsingle
  rw [← htools] at hnum
  rw [contentKept_iff, ← concat_shownOf_eq_iff, ← concat_shownOf_eq_iff, ← startedTools_eq_iff hnum,
    ← h.text, ← h.thinking, ← h.tools, htext, hthinking, htools]
  constructor
  · rintro ⟨h₁, h₂, h₃, -⟩
    exact ⟨⟨h₁, h₂⟩, h₃⟩
  · rintro ⟨⟨h₁, h₂⟩, h₃⟩
    exact ⟨h₁, h₂, h₃, h.blocks⟩

theorem says_runMarks (hnum : Numbered m (allOf tool? ps)) (s : ConvertInfo)
    (hsaid : said es = said (runMarks s ps).1) : Says es ps := by
  have hindexed : Indexed ps := fun p hp t ht =>
    hnum.indexed t (mem_filterMap.mpr ⟨p, hp, by rw [ht]; rfl⟩)
  obtain ⟨huses, hnodup⟩ := toolUses_runMarks hnum s
  refine ⟨?_, ?_, ?_, ?_⟩
  · rw [← textOf_said, hsaid, textOf_said, textOf_runMarks hindexed]
  · rw [← thinkingOf_said, hsaid, thinkingOf_said, thinkingOf_runMarks hindexed]
  · rw [← toolUses_said, hsaid, toolUses_said, huses]
  · rw [← toolStarts_said, hsaid, toolStarts_said]
    exact hnodup

end Single

/-! ## Two chunks -/

section TwoChunks

variable {d d' : ChatChunk}

theorem shownOf_append {β : Type} (f : Piece → Option β) (ps qs : List (Bool × Piece)) :
    shownOf f (ps ++ qs) = shownOf f ps ++ shownOf f qs := filterMap_append

/-- Pieces without tool calls. -/
def NoTools (ps : List (Bool × Piece)) : Prop := allOf Piece.tool? ps = []

theorem NoTools.tail {p : Bool × Piece} (h : NoTools (p :: ps)) :
    (∀ t, p.2 ≠ .tool t) ∧ NoTools ps := by
  unfold NoTools allOf at *
  rw [filterMap_eq_nil_iff, forall_mem_cons] at h
  refine ⟨fun t ht => ?_, filterMap_eq_nil_iff.mpr h.2⟩
  rw [ht] at h
  cases h.1

/-- Without tool calls no block is started. -/
theorem startedTools_append_of_noTools (h : NoTools ps) (qs : List (Bool × Piece)) :
    startedTools (ps ++ qs) = startedTools qs := by
  induction ps with
  | nil => rfl
  | cons p ps ih =>
    obtain ⟨hne, hrest⟩ := h.tail
    obtain ⟨shown, p⟩ := p
    rw [← ih hrest]
    cases p with
    | tool t => exact absurd rfl (hne t)
    | text x => cases shown <;> rfl
    | thinking x => cases shown <;> rfl

/-- Without tool calls the reader of tool blocks gets nothing. -/
theorem runMarks_noTools (h : NoTools ps) (s : ConvertInfo) :
    toolStarts (runMarks s ps).1 = [] ∧ ∀ b, jsonOf (runMarks s ps).1 b = "" := by
  induction ps generalizing s with
  | nil => exact ⟨rfl, fun _ => rfl⟩
  | cons p ps ih =>
    obtain ⟨hne, hrest⟩ := h.tail
    have hquiet : ∀ x, p.2 = .text x ∨ p.2 = .thinking x →
        toolStarts (runMarks s (p :: ps)).1 = [] ∧ ∀ b, jsonOf (runMarks s (p :: ps)).1 b = "" := by
      intro x hp
      by_cases hx : x = ""
      · subst hx
        rw [runMarks_passed (.inr hp)]
        exact ih hrest s
      · obtain ⟨shown, p⟩ := p
        cases shown with
        | false => exact ih hrest s
        | true =>
          obtain ⟨hstarts, hjson, -⟩ := stepPiece_quiet hp hx s
          obtain ⟨hstarts', hjson'⟩ := ih hrest (stepPiece s p).2
          refine ⟨?_, fun b => ?_⟩
          · rw [runMarks, toolStarts_append, hstarts, hstarts']
            rfl
          · rw [runMarks, jsonOf_append, hjson, hjson']
            rfl
    cases hp : p.2 with
    | tool t => exact absurd hp (hne t)
    | text x => exact hquiet x (.inl hp)
    | thinking x => exact hquiet x (.inr hp)

/-- Events without tool blocks at the end. -/
theorem toolUses_append_quiet {es' : List ClaudeEvent} (hstarts : toolStarts es' = [])
    (hjson : ∀ b, jsonOf es' b = "") : toolUses (es ++ es') = toolUses es := by
  rw [toolUses, toolStarts_append, hstarts, append_nil]
  refine map_congr_left fun b _ => ?_
  rw [jsonOf_append, hjson, String.append_empty]

theorem ChoiceDelta.noTools_contentMarks (c : ChoiceDelta) : NoTools c.contentMarks := rfl

/-- After a first tool call only content comes. -/
theorem startedTools_firstMarks (c : ChoiceDelta) :
    startedTools c.firstMarks = startedTools c.firstToolMarks := by
  have hhidden : ∀ (ts : List ToolCallResponse) (qs : List (Bool × Piece)) (index : Option Int),
      runArguments index ((ts.map fun t => (false, tool t)) ++ qs) = runArguments index qs ∧
        startedTools ((ts.map fun t => (false, tool t)) ++ qs) = startedTools qs := by
    intro ts qs index
    induction ts with
    | nil => exact ⟨rfl, rfl⟩
    | cons t ts ih => exact ih
  have hcontent : ∀ index, runArguments index c.contentMarks = "" := by
    intro index
    by_cases hr : c.getReasoningContent = ""
    · by_cases hc : c.getContentString = ""
      · simp [contentMarks, runArguments, hr, hc]
      · simp [contentMarks, runArguments, hr, hc]
    · simp [contentMarks, runArguments, hr]
  have hquiet : startedTools c.contentMarks = [] := by
    have h := startedTools_append_of_noTools c.noTools_contentMarks []
    exact h
  rw [firstMarks_eq]
  unfold firstToolMarks
  cases c.toolCalls with
  | nil => exact hquiet
  | cons t ts =>
    have hrest := hhidden ts c.contentMarks t.index
    have hnil := hhidden ts [] t.index
    rw [append_nil] at hnil
    simp only [take_succ_cons, take_zero, drop_succ_cons, drop_zero,
      map_cons, map_nil, cons_append, nil_append, startedTools, hrest.1, hrest.2,
      hnil.1, hnil.2, hcontent, hquiet]
    rfl

/-- The second of two chunks, when only it has tool calls. -/
theorem says_secondTool (hnum : Numbered 0 d'.delta.toolCalls) (hnone : d.delta.toolCalls = [])
    (estimate : Int) (s : ConvertInfo)
    (hsaid : said es = said ((runMarks (initial estimate) d.delta.firstMarks).1 ++
      (firstEvents d'.delta s).1)) : Says es (d.delta.firstMarks ++ d'.delta.firstMarks) := by
  -- the first tool is put in block 0, wherever the converter is
  have htool : said (firstToolCall d'.delta s).1
      = said (runMarks (initial estimate) d'.delta.firstToolMarks).1 := by
    rw [← (said_firstToolCall hnum rfl rfl).1]
    unfold firstToolCall
    split <;> rfl
  have hcontent := (said_firstContent d'.delta (firstToolCall d'.delta s).2).1
  set e₁ := (runMarks (initial estimate) d.delta.firstMarks).1 with he₁
  set e₂ := (runMarks (initial estimate) d'.delta.firstToolMarks).1 with he₂
  set e₃ := (runMarks (firstToolCall d'.delta s).2 d'.delta.contentMarks).1 with he₃
  have hall : said es = said (e₁ ++ (e₂ ++ e₃)) := by
    rw [hsaid, firstEvents, said_append, said_append, htool, hcontent, said_append, said_append]
  have hnoTools : NoTools d.delta.firstMarks := by
    rw [firstMarks_eq, firstToolMarks, hnone]
    rfl
  have htools : allOf tool? d'.delta.firstToolMarks = d'.delta.toolCalls := by
    unfold firstToolMarks
    cases d'.delta.toolCalls with
    | nil => rfl
    | cons t ts =>
      have hhidden : allOf tool? (ts.map fun t => (false, tool t)) = ts := by
        rw [allOf, filterMap_map]
        exact filterMap_some
      exact congrArg (List.cons t) hhidden
  have hnum₁ : Numbered 0 (allOf tool? d.delta.firstMarks) := by
    rw [hnoTools]
    trivial
  have hnum₂ : Numbered 0 (allOf tool? d'.delta.firstToolMarks) := by
    rw [htools]
    exact hnum
  have hsays₁ : Says e₁ d.delta.firstMarks := says_runMarks hnum₁ _ rfl
  have hsays₂ : Says e₂ d'.delta.firstToolMarks := says_runMarks hnum₂ _ rfl
  have hsays₃ : Says e₃ d'.delta.contentMarks :=
    says_runMarks (show Numbered 0 (allOf tool? d'.delta.contentMarks) from trivial) _ rfl
  obtain ⟨hstarts₁, hjson₁⟩ := runMarks_noTools hnoTools (initial estimate)
  obtain ⟨hstarts₃, hjson₃⟩ :=
    runMarks_noTools d'.delta.noTools_contentMarks (firstToolCall d'.delta s).2
  refine ⟨?_, ?_, ?_, ?_⟩
  · rw [← textOf_said, hall, textOf_said, textOf_append, textOf_append, hsays₁.text, hsays₂.text,
      hsays₃.text, firstMarks_eq d'.delta, shownOf_append, shownOf_append, concat_append,
      concat_append]
  · rw [← thinkingOf_said, hall, thinkingOf_said, thinkingOf_append, thinkingOf_append,
      hsays₁.thinking, hsays₂.thinking, hsays₃.thinking, firstMarks_eq d'.delta,
      shownOf_append, shownOf_append, concat_append, concat_append]
  · rw [← toolUses_said, hall, toolUses_said, toolUses_append hstarts₁ (fun b _ => hjson₁ b),
      toolUses_append_quiet hstarts₃ hjson₃, hsays₂.tools,
      startedTools_append_of_noTools hnoTools, startedTools_firstMarks]
  · rw [← toolStarts_said, hall, toolStarts_said, toolStarts_append, toolStarts_append, hstarts₁,
      hstarts₃, append_nil]
    exact hsays₂.blocks

/-- A first chunk with tool calls starts the block 0. -/
theorem zero_mem_toolStarts (hne : c.toolCalls ≠ []) (s : ConvertInfo) :
    0 ∈ (toolStarts (firstEvents c s).1).map Prod.fst := by
  obtain ⟨t, ts, hts⟩ := exists_cons_of_ne_nil hne
  have hstart : toolStarts (firstToolCall c s).1 = [(0, t.id, t.name)] := by
    unfold firstToolCall
    rw [hts]
    dsimp only
    split <;> rfl
  rw [firstEvents, toolStarts_append, hstart]
  exact mem_cons_self

/-- The second of two chunks is taken for the first. -/
theorem oaiStream_second {usage : ChatUsage} {u : Option ChatUsage} (s : ConvertInfo) :
    said (oaiStream usage (s.withFrame 1 u "") [d'])
      = said (firstEvents d'.delta (s.withFrame 1 (some usage) "")).1 := by
  have hcall : (handleFinalResponse usage d' (s.withFrame 1 u "")).1
    = (convertFirst d' (s.withFrame 1 (some usage) "")).1 := rfl
  exact (convertFirst_cases d' _).1

end TwoChunks

/-! ## The result -/

/-- **A stream says what is looked at in its chunks**, but for two chunks that both have tool
calls. -/
theorem says_oaiStreamHandler (estimate : Int) (usage : ChatUsage) (ds : List ChatChunk)
    (hnum : Numbered 0 (ds.flatMap fun d => d.delta.toolCalls)) (htwo : ¬ TwoToolChunks ds) :
    Says (oaiStreamHandler estimate usage ds) (marks ds) := by
  have hall : Numbered 0 (allOf tool? (marks ds)) := by
    rw [allOf_marks]
    simpa only [filterMap_pieces] using hnum
  have hindex : ∀ d ∈ ds, ∀ t ∈ d.delta.toolCalls, t.index.isSome := fun d hd t ht =>
    hnum.indexed t (mem_flatMap.mpr ⟨d, hd, ht⟩)
  match ds with
  | [] => exact says_runMarks hall (initial estimate) rfl
  | [d] =>
    have hcall : said (oaiStream usage ((initial estimate).withFrame 0 none "") [d])
        = said (runMarks (initial estimate) (marksLater false [d])).1 :=
      said_oaiStream [d] (.inl (Nat.le_refl 1)) nofun hindex
    exact says_runMarks hall (initial estimate) hcall
  | d :: d' :: ds =>
    rw [flatMap_cons, numbered_append] at hnum
    obtain ⟨hsaid, hdone, hopen⟩ := handleStreamFormat_initial hnum.1 estimate
    have hevents : said (oaiStreamHandler estimate usage (d :: d' :: ds))
        = said (runMarks (initial estimate) d.delta.firstMarks).1 ++
          said (oaiStream usage (handleStreamFormat d (initial estimate)).2
            (d' :: ds)) := by
      rw [← hsaid, ← said_append]
      rfl
    by_cases hfinished : d.Finished
    · -- after a first chunk that finishes nothing is sent
      have hmarks : marks (d :: d' :: ds)
          = d.delta.firstMarks ++ (d' :: ds).flatMap fun d => d.delta.hiddenMarks := by
        cases ds with
        | nil => simp [marks, hfinished]
        | cons d'' ds => simp [marks, hfinished]
      refine says_runMarks hall (initial estimate) ?_
      rw [hevents, oaiStream_done _ (hdone hfinished), hmarks, runMarks_append, runMarks_hiddenMarks,
        said_append]
    · rw [hopen hfinished] at hevents
      cases ds with
      | nil =>
        have hmarks : marks [d, d'] = d.delta.firstMarks ++ d'.delta.firstMarks := by
          simp [marks, hfinished]
        rw [oaiStream_second] at hevents
        by_cases htools : d'.delta.toolCalls = []
        · refine says_runMarks hall (initial estimate) ?_
          have hfirst : ∀ s, firstEvents d'.delta s = firstContent d'.delta s := by
            intro s
            simp [firstEvents, firstToolCall, htools]
          have hcontent : d'.delta.firstMarks = d'.delta.contentMarks := by
            simp [firstMarks_eq, firstToolMarks, htools]
          rw [hevents, hmarks, runMarks_append, said_append, hfirst, (said_firstContent _ _).1,
            runMarks_withFrame, hcontent]
        · have hnone : d.delta.toolCalls = [] := by
            by_contra hne
            exact htwo ⟨hfinished, hne, htools⟩
          rw [hmarks]
          have hzero : Numbered 0 d'.delta.toolCalls := by
            simpa [hnone, namedCount] using hnum.2
          rw [← said_append] at hevents
          exact says_secondTool hzero hnone estimate _ hevents
      | cons d'' ds =>
        have hmarks : marks (d :: d' :: d'' :: ds)
            = d.delta.firstMarks ++ marksLater d.usage.isSome (d' :: d'' :: ds) := by
          simp [marks, hfinished]
        refine says_runMarks hall (initial estimate) ?_
        rw [hevents, hmarks, runMarks_append, said_append]
        refine congrArg _ (said_oaiStream (d' :: d'' :: ds) (.inr (Nat.le_refl 1)) ?_ ?_)
        · simp only [length_cons]
          omega
        · exact fun e he => hindex e (mem_cons_of_mem d he)

theorem TwoToolChunks.eq_pair {ds : List ChatChunk} (h : TwoToolChunks ds) :
    ∃ d d', ds = [d, d'] := by
  match ds, h with
  | [d, d'], _ => exact ⟨d, d', rfl⟩

/-- Two chunks with tool calls start one block twice. -/
theorem not_nodup_twoToolChunks {d d' : ChatChunk} (h : TwoToolChunks [d, d']) (estimate : Int)
    (usage : ChatUsage) (hnum : Numbered 0 d.delta.toolCalls) :
    ¬ ((toolStarts (oaiStreamHandler estimate usage [d, d'])).map Prod.fst).Nodup := by
  obtain ⟨hfinished, htools, htools'⟩ := h
  obtain ⟨hsaid, -, hopen⟩ := handleStreamFormat_initial hnum estimate
  obtain ⟨hfirst, -⟩ : said (firstEvents d.delta (initial estimate)).1 = _ ∧ _ :=
    said_firstEvents hnum rfl rfl
  have hevents : said (oaiStreamHandler estimate usage [d, d'])
      = said ((firstEvents d.delta (initial estimate)).1 ++ (firstEvents d'.delta
          ((runMarks (initial estimate) d.delta.firstMarks).2.withFrame 1
            (some usage) "")).1) := by
    have hcall : oaiStreamHandler estimate usage [d, d']
        = (handleStreamFormat d (initial estimate)).1 ++
          oaiStream usage (handleStreamFormat d (initial estimate)).2 [d'] := rfl
    rw [hcall, said_append, said_append, hsaid, hfirst, hopen hfinished, oaiStream_second]
  rw [← toolStarts_said, hevents, toolStarts_said, toolStarts_append, map_append,
    nodup_append]
  rintro ⟨-, -, hdisjoint⟩
  exact hdisjoint 0 (zero_mem_toolStarts htools _) 0 (zero_mem_toolStarts htools' _) rfl

/-- **The conversion loses and repeats nothing exactly when the converter looks at everything that
says something**: for chunks with one choice at most, whose tool calls are numbered. -/
theorem oaiStreamHandler_preserves_iff (estimate : Int) (usage : ChatUsage) (ds : List ChatChunk)
    (hsingle : ∀ d ∈ ds, d.choices.length ≤ 1)
    (hnum : Numbered 0 (ds.flatMap ChatChunk.toolDeltas)) :
    Preserves ds (oaiStreamHandler estimate usage ds) ↔ Lossless ds := by
  have hdelta : ds.flatMap ChatChunk.toolDeltas = ds.flatMap fun d => d.delta.toolCalls :=
    flatMap_congr fun d hd => (ChatChunk.single_says (hsingle d hd)).2.2
  by_cases htwo : TwoToolChunks ds
  · refine iff_of_false (fun h => ?_) fun h => h.blocks htwo
    obtain ⟨d, d', rfl⟩ := htwo.eq_pair
    rw [hdelta, flatMap_cons, numbered_append] at hnum
    exact not_nodup_twoToolChunks htwo estimate usage hnum.1 h.blocks
  · rw [(says_oaiStreamHandler estimate usage ds (hdelta ▸ hnum) htwo).preserves_iff hsingle hnum]
    constructor
    · rintro ⟨hcontent, htools⟩
      exact ⟨hcontent, htools, htwo⟩
    · rintro ⟨hcontent, htools, -⟩
      exact ⟨hcontent, htools⟩

/-- The greeting loses nothing. -/
theorem oaiStreamHandler_preserves_greeting :
    Preserves greetingChunks
      (oaiStreamHandler 3 { promptTokens := 3, completionTokens := 1 } greetingChunks) :=
  (oaiStreamHandler_preserves_iff 3 { promptTokens := 3, completionTokens := 1 } greetingChunks
    (by decide)
    (.inl ⟨rfl, by decide, .inl ⟨rfl, by decide, .inr ⟨⟨0, by decide, rfl⟩, rfl, trivial⟩⟩⟩)).mpr
    { content := by decide, tools := by decide, blocks := nofun }

/-- **Lost text.** The last piece of the answer comes with the finish reason, and no usage does. -/
theorem oaiStreamHandler_not_preserves :
    textOf (oaiStreamHandler 3 { promptTokens := 3, completionTokens := 1 }
      [.single { content := some "Hello" }, .single { content := some ", wor" },
        .single { content := some "ld" } (some "stop")]) = "Hello, wor" ∧
    ¬ Preserves [.single { content := some "Hello" }, .single { content := some ", wor" },
        .single { content := some "ld" } (some "stop")]
      (oaiStreamHandler 3 { promptTokens := 3, completionTokens := 1 }
        [.single { content := some "Hello" }, .single { content := some ", wor" },
          .single { content := some "ld" } (some "stop")]) := by
  have htext : textOf (oaiStreamHandler 3 { promptTokens := 3, completionTokens := 1 }
      [.single { content := some "Hello" }, .single { content := some ", wor" },
        .single { content := some "ld" } (some "stop")]) = "Hello, wor" := by decide
  refine ⟨htext, fun h => ?_⟩
  have hall := h.text
  exact absurd hall (by decide)

end Prox
