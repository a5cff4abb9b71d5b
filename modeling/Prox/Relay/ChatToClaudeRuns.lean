import Mathlib.Data.List.SplitBy
import Prox.Relay.ChatToClaude

/-! # Messages that are put together

The first pass makes one message of every run of messages that merge. The message of a run has the calls of
the last one, and a text that joins those of all, less the quotes that stand where two are put together. -/

namespace Prox

open List OpenAIMessage

variable {s : String} {ts : List String}

section ChatToClaude

variable {V : Type}

/-! ## Texts put together -/

/-- The quotes in a text. -/
def quotes (s : String) : List Char := s.toList.filter (· = '"')

/-- A text put together with the texts behind it. -/
def joinedTexts (s : String) (ts : List String) : String :=
  ts.foldl (fun last text => trimChar '"' (last ++ " " ++ text)) s

/-- Of two texts, the quotes before the first and behind the second are lost. -/
theorem toList_trimChar_join (s t : String) :
    (trimChar '"' (s ++ " " ++ t)).toList
      = s.toList.dropWhile (· = '"') ++ ' ' :: t.toList.rdropWhile (· = '"') := by
  -- the blank between them is no quote, and stops the trimming on both sides
  have hdrop : ∀ l r : List Char, (l ++ ' ' :: r).dropWhile (· = '"') = l.dropWhile (· = '"') ++ ' ' :: r := by
    intro l r
    induction l with
    | nil => rfl
    | cons c cs ih =>
      by_cases hc : c = '"'
      · simpa [hc] using ih
      · simp [hc]
  have hrdrop : ∀ l r : List Char,
      (l ++ ' ' :: r).rdropWhile (· = '"') = l ++ ' ' :: r.rdropWhile (· = '"') := by
    intro l r
    rw [List.rdropWhile, reverse_append, reverse_cons, append_assoc]
    show ((r.reverse ++ ' ' :: l.reverse).dropWhile _).reverse = _
    rw [hdrop]
    simp [List.rdropWhile]
  rw [trimChar, String.toList_ofList, String.toList_append, String.toList_append, append_assoc]
  show ((s.toList ++ ' ' :: t.toList).dropWhile _).rdropWhile _ = _
  rw [hdrop, hrdrop]

/-- The quotes before a text, and those behind. -/
theorem filter_eq_takeWhile_append (l : List Char) :
    l.filter (· = '"') = l.takeWhile (· = '"') ++ (l.dropWhile (· = '"')).filter (· = '"') := by
  conv_lhs => rw [← takeWhile_append_dropWhile (p := (· = '"')) (l := l), List.filter_append]
  rw [List.filter_eq_self.mpr fun _ hc => List.mem_takeWhile_imp (p := (· = '"')) hc]

/-- Two texts that are put together keep their quotes unless the first begins or the second ends with
one. -/
theorem quotes_join (s t : String) :
    (quotes (trimChar '"' (s ++ " " ++ t))).Sublist (quotes s ++ quotes t) ∧
    (quotes (trimChar '"' (s ++ " " ++ t)) = quotes s ++ quotes t ↔
      s.toList.head? ≠ some '"' ∧ t.toList.getLast? ≠ some '"') := by
  have hjoin : quotes (trimChar '"' (s ++ " " ++ t))
      = (s.toList.dropWhile (· = '"')).filter (· = '"') ++
        (t.toList.rdropWhile (· = '"')).filter (· = '"') := by
    rw [quotes, toList_trimChar_join, List.filter_append]
    rfl
  have hs : ((s.toList.dropWhile (· = '"')).filter (· = '"')).Sublist (quotes s) :=
    (List.dropWhile_sublist _).filter _
  have ht : ((t.toList.rdropWhile (· = '"')).filter (· = '"')).Sublist (quotes t) :=
    (List.rdropWhile_prefix _ _).sublist.filter _
  have hs' : (s.toList.dropWhile (· = '"')).filter (· = '"') = quotes s ↔ s.toList.head? ≠ some '"' := by
    rw [quotes, filter_eq_takeWhile_append s.toList]
    cases s.toList with
    | nil => simp
    | cons c cs => by_cases hc : c = '"' <;> simp
  have ht' : (t.toList.rdropWhile (· = '"')).filter (· = '"') = quotes t ↔
      t.toList.getLast? ≠ some '"' := by
    have hrev : quotes t = (t.toList.reverse.filter (· = '"')).reverse := by
      rw [List.filter_reverse, List.reverse_reverse, quotes]
    rw [hrev, List.rdropWhile, List.filter_reverse, List.reverse_inj, filter_eq_takeWhile_append
        t.toList.reverse, ← List.head?_reverse]
    cases t.toList.reverse with
    | nil => simp
    | cons c cs => by_cases hc : c = '"' <;> simp
  rw [hjoin, ← hs', ← ht']
  refine ⟨hs.append ht, fun h => ?_, fun h => by rw [h.1, h.2]⟩
  have hlen := congrArg List.length h
  rw [length_append, length_append] at hlen
  have h1 := hs.length_le
  have h2 := ht.length_le
  exact ⟨hs.eq_of_length (by omega), ht.eq_of_length (by omega)⟩

/-- What is put together does not begin with a quote. -/
theorem head_trimChar_join (s t : String) :
    (trimChar '"' (s ++ " " ++ t)).toList.head? ≠ some '"' := by
  rw [toList_trimChar_join]
  intro h
  cases hdrop : s.toList.dropWhile (· = '"') with
  | nil =>
    rw [hdrop] at h
    cases h
  | cons c cs =>
    rw [hdrop] at h
    have hhead := List.head_dropWhile_not (· = '"') (l := s.toList) (by simp [hdrop])
    simp only [hdrop, head_cons] at hhead
    cases h
    cases hhead

/-- Texts without quotes at their ends are only joined. -/
theorem trimChar_join {t : String} (hs : s.toList.head? ≠ some '"')
    (ht : t.toList.getLast? ≠ some '"') : trimChar '"' (s ++ " " ++ t) = s ++ " " ++ t := by
  have hdrop : ∀ l : List Char, l.head? ≠ some '"' → l.dropWhile (· = '"') = l := by
    intro l hl
    cases l with
    | nil => rfl
    | cons c cs => exact List.dropWhile_cons_of_neg (by simpa using hl)
  rw [← String.toList_inj, toList_trimChar_join, hdrop _ hs, List.rdropWhile,
    hdrop _ (by rwa [List.head?_reverse]), List.reverse_reverse, String.toList_append, String.toList_append,
    List.append_assoc]
  rfl

theorem quotes_append (s t : String) : quotes (s ++ t) = quotes s ++ quotes t := by
  rw [quotes, String.toList_append, List.filter_append]
  rfl

/-- **Texts that are put together** keep their quotes unless the first begins or another one ends with a
quote. -/
theorem quotes_joinTexts (s : String) (ts : List String) :
    (quotes (joinedTexts s ts)).Sublist (quotes s ++ ts.flatMap quotes) ∧
    (quotes (joinedTexts s ts) = quotes s ++ ts.flatMap quotes ↔
      ts = [] ∨ s.toList.head? ≠ some '"' ∧ ∀ t ∈ ts, t.toList.getLast? ≠ some '"') := by
  induction ts generalizing s with
  | nil => simp [joinedTexts]
  | cons t ts ih =>
    obtain ⟨hsub, heq⟩ := ih (trimChar '"' (s ++ " " ++ t))
    obtain ⟨hsub', heq'⟩ := quotes_join s t
    have hjoin : joinedTexts s (t :: ts) = joinedTexts (trimChar '"' (s ++ " " ++ t)) ts := rfl
    rw [hjoin, List.flatMap_cons, ← List.append_assoc]
    refine ⟨hsub.trans (hsub'.append_right _), ?_⟩
    constructor
    · intro h
      -- the first step has lost none, or the lengths would differ
      have hfirst : quotes (trimChar '"' (s ++ " " ++ t)) = quotes s ++ quotes t := by
        refine hsub'.eq_of_length ?_
        have hlen := congrArg List.length h
        have h1 := hsub.length_le
        have h2 := hsub'.length_le
        rw [length_append] at hlen h1
        omega
      rw [← hfirst] at h
      obtain ⟨hs, ht⟩ := heq'.mp hfirst
      refine .inr ⟨hs, forall_mem_cons.mpr ⟨ht, ?_⟩⟩
      rcases heq.mp h with rfl | ⟨-, hts⟩
      · exact fun t h => nomatch h
      · exact hts
    · rintro (h | ⟨hs, hts⟩)
      · cases h
      · obtain ⟨ht, hts⟩ := forall_mem_cons.mp hts
        rw [← heq'.mpr ⟨hs, ht⟩]
        exact heq.mpr (.inr ⟨head_trimChar_join s t, hts⟩)

/-- What joins texts has their quotes. -/
theorem Joins.quotes_eq (h : Joins ts s) : quotes s = ts.flatMap quotes := by
  induction ts generalizing s with
  | nil => rcases h with rfl | rfl <;> decide
  | cons t ts ih =>
    obtain ⟨gap, rest, rfl, hgap, hrest⟩ := h
    rw [quotes_append, quotes_append, ih hrest, flatMap_cons]
    have hnone : quotes gap = [] := by rcases hgap with rfl | rfl | rfl <;> decide
    rw [hnone, nil_append]

theorem joins_self (t : String) : Joins [t] t :=
  ⟨"", "", by rw [String.append_empty, String.empty_append], .inl rfl, .inl rfl⟩

/-- One more text behind a blank. -/
theorem Joins.append (h : Joins ts s) (t : String) : Joins (ts ++ [t]) (s ++ " " ++ t) := by
  induction ts generalizing s with
  | nil =>
    refine ⟨s ++ " ", "", by rw [String.append_empty], ?_, .inl rfl⟩
    rcases h with rfl | rfl
    · exact .inr (.inl rfl)
    · exact .inr (.inr rfl)
  | cons u ts ih =>
    obtain ⟨gap, rest, rfl, hgap, hrest⟩ := h
    exact ⟨gap, rest ++ " " ++ t, by simp [String.append_assoc], hgap, ih hrest⟩

/-- Texts without quotes at their ends, put together. -/
theorem Joins.joinedTexts {us : List String} (h : Joins us s) (hs : s.toList.head? ≠ some '"')
    (hts : ∀ t ∈ ts, t.toList.getLast? ≠ some '"') : Joins (us ++ ts) (joinedTexts s ts) := by
  induction ts generalizing us s with
  | nil => rwa [append_nil]
  | cons t ts ih =>
    obtain ⟨ht, hts⟩ := forall_mem_cons.mp hts
    have hjoin : Joins (us ++ [t]) (trimChar '"' (s ++ " " ++ t)) := by
      rw [trimChar_join hs ht]
      exact h.append t
    have hall := ih hjoin (head_trimChar_join s t) hts
    rwa [List.append_assoc] at hall

/-! ## The first pass over a run -/

/-- What the first pass makes of a message, behind the last one. -/
def formatted (lastMessage message : OpenAIMessage V) : OpenAIMessage V :=
  { fmtMessage message with
    content := ((mergedText lastMessage message).elim message.content .string).orPlaceholder }

/-- What the first pass makes of a run of messages that are put together. -/
def formattedRun (run : List (OpenAIMessage V)) : OpenAIMessage V :=
  run.foldl formatted { role := "tool" }

@[simp] theorem formatted_role (l m : OpenAIMessage V) : (formatted l m).role = m.role := rfl

@[simp] theorem formatted_calls (l m : OpenAIMessage V) : (formatted l m).calls = m.calls := by
  unfold calls formatted fmtMessage
  by_cases h : m.role = "assistant" <;> simp [h]

/-- One message of the first pass: it replaces the last one, or stands behind it. -/
theorem formatMessage_eq (s : FormatState V) (m : OpenAIMessage V) :
    formatMessage s m = ⟨(if (mergedText s.lastMessage m).isSome then s.formatMessages.dropLast
      else s.formatMessages) ++ [formatted s.lastMessage m], formatted s.lastMessage m⟩ := by
  unfold formatMessage formatted
  cases mergedText s.lastMessage m <;> rfl

/-- A message behind what was made of the one before is put together with it when the two merge. -/
theorem isSome_mergedText (l a b : OpenAIMessage V) :
    (mergedText (formatted l a) b).isSome = merges a b := by
  have hcontent : (∃ text, (formatted l a).content = .string text) ↔ ∀ v, a.content ≠ .value v := by
    show (∃ text, AnyContent.orPlaceholder _ = .string text) ↔ _
    cases hmerged : mergedText l a with
    | none => cases ha : a.content <;> simp [AnyContent.orPlaceholder]
    | some text =>
      -- only a text is put together with another
      unfold mergedText at hmerged
      split at hmerged
      · split at hmerged
        · next ha => simp [ha, AnyContent.orPlaceholder]
        · cases hmerged
      · cases hmerged
  unfold mergedText merges
  rw [formatted_role]
  by_cases hrole : a.role = b.role ∧ a.role ≠ "tool"
  · rw [if_pos hrole]
    have hb : b.role ≠ "tool" := hrole.1 ▸ hrole.2
    cases ha : a.content with
    | value v =>
      have hnone : ∀ text, (formatted l a).content ≠ .string text := by
        intro text htext
        exact hcontent.mp ⟨text, htext⟩ v ha
      split
      · next htext _ => exact absurd htext (hnone _)
      · simp
    | null | string text =>
      obtain ⟨text, htext⟩ := hcontent.mpr (by simp [ha])
      cases hbc : b.content <;> simp [htext, hrole.1, hb]
  · by_cases h : a.role = b.role
    · have hb : b.role = "tool" := by
        by_contra hne
        exact hrole ⟨h, h ▸ hne⟩
      simp [hb]
    · simp [h]

theorem mergedText_tool (m : OpenAIMessage V) : mergedText { role := "tool" } m = none :=
  if_neg fun h => h.2 rfl

variable {a m : OpenAIMessage V}

/-- The first message of a run is not put together with anything. -/
theorem formatted_eq_of_none {l : OpenAIMessage V} (h : mergedText l m = none) :
    formatted l m = formatted { role := "tool" } m := by
  rw [formatted, formatted, h, mergedText_tool]

variable {run rest : List (OpenAIMessage V)}

/-- The messages behind the first one of a run all go into the last place. -/
theorem foldl_formatMessage_chain {l : OpenAIMessage V}
    (hchain : (a :: rest).IsChain fun x y => merges x y) (pre : List (OpenAIMessage V)) :
    rest.foldl formatMessage ⟨pre ++ [formatted l a], formatted l a⟩
      = ⟨pre ++ [rest.foldl formatted (formatted l a)], rest.foldl formatted (formatted l a)⟩ := by
  induction rest generalizing l a with
  | nil => rfl
  | cons b rest ih =>
    obtain ⟨hab, hrest⟩ := List.isChain_cons_cons.mp hchain
    rw [List.foldl_cons, formatMessage_eq, isSome_mergedText, if_pos hab, List.dropLast_concat]
    exact ih hrest

/-- **One run.** The first pass makes one message of it. -/
theorem foldl_formatMessage_run {s : FormatState V} (hfirst : mergedText s.lastMessage a = none)
    (hchain : (a :: rest).IsChain fun x y => merges x y) :
    (a :: rest).foldl formatMessage s
      = ⟨s.formatMessages ++ [formattedRun (a :: rest)], formattedRun (a :: rest)⟩ := by
  rw [List.foldl_cons, formatMessage_eq, hfirst, formatted_eq_of_none hfirst,
      foldl_formatMessage_chain hchain]
  rfl

/-- What is made of a run is made of its last message. -/
theorem exists_formattedRun_eq (hrun : run ≠ []) :
    ∃ l, formattedRun run = formatted l (run.getLast hrun) := by
  refine ⟨run.dropLast.foldl formatted { role := "tool" }, ?_⟩
  conv_lhs => rw [← List.dropLast_append_getLast hrun]
  rw [formattedRun, List.foldl_append]
  rfl

/-- The first pass makes one message of each run. -/
theorem foldl_formatMessage_runs {runs : List (List (OpenAIMessage V))} (hne : [] ∉ runs)
    (hchain : ∀ run ∈ runs, run.IsChain fun x y => merges x y)
    (hruns : runs.IsChain fun x y => ∃ hx hy, merges (x.getLast hx) (y.head hy) = false)
    {s : FormatState V} (hfirst : ∀ run ∈ runs.head?, ∀ a ∈ run.head?, mergedText s.lastMessage a = none) :
    (runs.flatten.foldl formatMessage s).formatMessages = s.formatMessages ++ runs.map formattedRun := by
  induction runs generalizing s with
  | nil => simp
  | cons run runs ih =>
    rw [List.mem_cons, not_or] at hne
    obtain ⟨hrun, hne⟩ := hne
    obtain ⟨hchain, hchains⟩ := List.forall_mem_cons.mp hchain
    cases run with
    | nil => exact absurd rfl hrun
    | cons a rest =>
      rw [List.flatten_cons, List.foldl_append,
        foldl_formatMessage_run (hfirst _ rfl a rfl) hchain, ih hne hchains hruns.tail]
      · simp
      · intro next hnext b hb
        -- the run ends where its last message and the next do not merge
        obtain ⟨hx, hy, hmerges⟩ := (List.isChain_cons.mp hruns).1 next hnext
        obtain ⟨l, hl⟩ : ∃ l, formattedRun (a :: rest) = formatted l _ := exists_formattedRun_eq hx
        have hb' : next.head hy = b := by
          rw [List.head?_eq_some_head hy] at hb
          exact Option.some.inj hb
        rw [hl, ← Option.not_isSome_iff_eq_none, isSome_mergedText, ← hb', hmerges]
        exact Bool.false_ne_true

/-- **The first pass.** -/
theorem formatMessages_eq (messages : List (OpenAIMessage V)) :
    formatMessages messages = (messages.splitBy merges).map formattedRun := by
  conv_lhs => rw [← List.flatten_splitBy merges messages]
  refine foldl_formatMessage_runs (List.nil_notMem_splitBy _ _) (fun _ => List.isChain_of_mem_splitBy)
    (List.isChain_getLast_head_splitBy _ _) ?_
  intro run _ a _
  exact mergedText_tool a

/-! ## What a run keeps -/

theorem merges_iff {b : OpenAIMessage V} :
    merges a b = true ↔ a.role = b.role ∧ b.role ≠ "tool" ∧ (∀ v, a.content ≠ .value v) ∧
      ∃ text, b.content = .string text := by
  unfold merges
  cases a.content <;> cases b.content <;> simp

/-- The messages behind the first one of a run have its role and a text. -/
theorem of_mem_chain (hchain : (a :: rest).IsChain fun x y => merges x y) (hm : m ∈ rest) :
    m.role = a.role ∧ m.role ≠ "tool" ∧ ∃ text, m.content = .string text := by
  induction rest generalizing a with
  | nil => cases hm
  | cons b rest ih =>
    obtain ⟨hab, hrest⟩ := List.isChain_cons_cons.mp hchain
    obtain ⟨hrole, htool, -, htext⟩ := merges_iff.mp hab
    rcases List.mem_cons.mp hm with rfl | hm
    · exact ⟨hrole.symm, htool, htext⟩
    · obtain ⟨hrole', h⟩ := ih hrest hm
      exact ⟨hrole'.trans hrole.symm, h⟩

/-- The first message of a longer run is no tool's and has no list of parts. -/
theorem head_of_chain (hchain : (a :: rest).IsChain fun x y => merges x y) (hne : rest ≠ []) :
    a.role ≠ "tool" ∧ ∀ v, a.content ≠ .value v := by
  cases rest with
  | nil => exact absurd rfl hne
  | cons b rest =>
    obtain ⟨hrole, htool, hvalue, -⟩ := merges_iff.mp (List.isChain_cons_cons.mp hchain).1
    exact ⟨hrole ▸ htool, hvalue⟩

theorem formattedRun_role (hchain : run.IsChain fun x y => merges x y) (hm : m ∈ run) :
    (formattedRun run).role = m.role := by
  have hne : run ≠ [] := List.ne_nil_of_mem hm
  obtain ⟨l, hl⟩ := exists_formattedRun_eq hne
  rw [hl, formatted_role]
  cases run with
  | nil => cases hm
  | cons a rest =>
    have hrole : ∀ x ∈ a :: rest, x.role = a.role := by
      intro x hx
      rcases List.mem_cons.mp hx with rfl | hx
      · rfl
      · exact (of_mem_chain hchain hx).1
    rw [hrole _ (List.getLast_mem hne), hrole m hm]

/-- A run keeps the calls of its last message. -/
theorem formattedRun_calls (hne : run ≠ []) :
    ((formattedRun run).calls).Sublist (run.flatMap calls) ∧
    ((formattedRun run).calls = run.flatMap calls ↔ ∀ m ∈ run.dropLast, m.calls = []) := by
  obtain ⟨l, hl⟩ := exists_formattedRun_eq hne
  have hsplit : run.flatMap calls
      = run.dropLast.flatMap calls ++ (run.getLast hne).calls := by
    conv_lhs => rw [← List.dropLast_append_getLast hne]
    simp
  rw [hl, formatted_calls, hsplit, List.self_eq_append_left, List.flatMap_eq_nil_iff]
  exact ⟨List.sublist_append_right _ _, Iff.rfl⟩

/-- The texts of a run of texts are joined. -/
theorem content_foldl_formatted {p : OpenAIMessage V} (hp : p.content = .string s)
    (htool : p.role ≠ "tool") (hrole : ∀ m ∈ rest, m.role = p.role)
    (hts : rest.map (·.content) = ts.map .string) :
    (rest.foldl formatted p).content = .string (joinedTexts s ts) := by
  induction rest generalizing p s ts with
  | nil =>
    obtain rfl := List.map_eq_nil_iff.mp hts.symm
    exact hp
  | cons b rest ih =>
    obtain ⟨hb, hrest⟩ := List.forall_mem_cons.mp hrole
    cases ts with
    | nil => cases hts
    | cons t ts =>
      obtain ⟨hbt, hts⟩ := List.cons.inj hts
      dsimp only at hbt
      have hmerged : mergedText p b = some (trimChar '"' (s ++ " " ++ t)) := by
        rw [mergedText, if_pos ⟨hb.symm, htool⟩, hp, hbt]
      -- the blank between the texts stays, so the text is no empty one
      have hne : trimChar '"' (s ++ " " ++ t) ≠ "" := by
        intro h
        have hlist := toList_trimChar_join s t
        rw [h] at hlist
        simp at hlist
      have hcontent : (formatted p b).content = .string (trimChar '"' (s ++ " " ++ t)) := by
        show AnyContent.orPlaceholder _ = _
        rw [hmerged]
        show AnyContent.string _ = _
        rw [if_neg hne]
      exact ih (s := trimChar '"' (s ++ " " ++ t)) hcontent (by rw [formatted_role, hb]; exact htool)
        (fun m hm => (hrest m hm).trans hb.symm) hts

variable (env : ChatToClaudeEnv V)

/-- The texts of a content with a placeholder join those without. -/
theorem exists_groups_orPlaceholder (c : AnyContent V) :
    ∃ groups : List (List String), groups.flatten = c.texts env ∧
      List.Forall₂ Joins groups (c.orPlaceholder.texts env) := by
  cases c with
  | null => exact ⟨[[]], rfl, .cons (.inr rfl) .nil⟩
  | string text =>
    refine ⟨[[text]], rfl, .cons ?_ .nil⟩
    by_cases h : text = ""
    · rw [h]
      exact ⟨"", "...", by decide, .inl rfl, .inr rfl⟩
    · rw [if_neg h]
      exact joins_self text
  | value v =>
    refine ⟨((AnyContent.value v).texts env).map ([·]), List.flatMap_def.symm.trans (List.flatMap_singleton' _), ?_⟩
    rw [List.forall₂_map_left_iff]
    exact List.forall₂_same.mpr fun t _ => joins_self t

/-- Texts that join others have their quotes. -/
theorem quotes_of_groups {groups : List (List String)} {texts : List String}
    (h : List.Forall₂ Joins groups texts) : texts.flatMap quotes = groups.flatten.flatMap quotes := by
  induction h with
  | nil => rfl
  | cons h _ ih => rw [List.flatMap_cons, List.flatten_cons, List.flatMap_append, ih, h.quotes_eq]

/-- The texts of a longer run of the user or the assistant: one text that joins those of the messages. -/
theorem formattedRun_texts
    (hchain : (a :: rest).IsChain fun x y => merges x y) (hne : rest ≠ [])
    (hrole : a.role = "user" ∨ a.role = "assistant") :
    ∃ s ts, Joins (a.texts env) s ∧ rest.flatMap (texts env) = ts ∧
      (formattedRun (a :: rest)).texts env = [joinedTexts s ts] ∧ ts ≠ [] ∧
      (a.content.opensQuoted = false ↔ s.toList.head? ≠ some '"') ∧
      ((∀ m ∈ rest, m.content.closesQuoted = false) ↔ ∀ t ∈ ts, t.toList.getLast? ≠ some '"') := by
  obtain ⟨htool, hvalue⟩ := head_of_chain hchain hne
  have hmem := fun m (hm : m ∈ rest) => of_mem_chain hchain hm
  -- the texts of the others, one for each
  obtain ⟨ts, hts⟩ : ∃ ts : List String, rest.map (·.content) = ts.map .string := by
    clear hchain hne
    induction rest with
    | nil => exact ⟨[], rfl⟩
    | cons b rest ih =>
      obtain ⟨⟨-, -, text, htext⟩, hmem⟩ := List.forall_mem_cons.mp hmem
      obtain ⟨ts, hts⟩ := ih hmem
      exact ⟨text :: ts, by rw [List.map_cons, hts, htext, List.map_cons]⟩
  have hrest : rest.flatMap (texts env) = ts ∧
      ((∀ m ∈ rest, m.content.closesQuoted = false) ↔ ∀ t ∈ ts, t.toList.getLast? ≠ some '"') := by
    clear hchain hne
    induction rest generalizing ts with
    | nil =>
      obtain rfl := map_eq_nil_iff.mp hts.symm
      simp
    | cons b rest ih =>
      cases ts with
      | nil => cases hts
      | cons t ts =>
        obtain ⟨⟨hb, -, -⟩, hmem⟩ := forall_mem_cons.mp hmem
        obtain ⟨hbt, hts⟩ := List.cons.inj hts
        dsimp only at hbt
        obtain ⟨h1, h2⟩ := ih hmem ts hts
        rw [flatMap_cons, h1, OpenAIMessage.texts, if_pos (by rwa [hb]), forall_mem_cons,
            forall_mem_cons, h2, hbt]
        exact ⟨rfl, and_congr_left fun _ => decide_eq_false_iff_not⟩
  have hfirst : ∃ s, a.content.orPlaceholder = .string s ∧ Joins (a.texts env) s ∧
      (a.content.opensQuoted = false ↔ s.toList.head? ≠ some '"') := by
    rw [texts, if_pos hrole]
    cases ha : a.content with
    | null => exact ⟨"...", rfl, .inr rfl, iff_of_true rfl (by decide)⟩
    | string text =>
      refine ⟨_, rfl, ?_⟩
      by_cases h : text = ""
      · rw [h]
        exact ⟨⟨"", "...", by decide, .inl rfl, .inr rfl⟩,
          iff_of_true (by simp [AnyContent.opensQuoted]) (by decide)⟩
      · rw [if_neg h]
        exact ⟨joins_self text, decide_eq_false_iff_not⟩
    | value v => exact absurd ha (hvalue v)
  obtain ⟨s, hs, hjoins, hopens⟩ := hfirst
  refine ⟨s, ts, hjoins, hrest.1, ?_, ?_, hopens, hrest.2⟩
  · have ha : (formatted { role := "tool" } a).content = .string s := by
      show AnyContent.orPlaceholder _ = _
      rw [mergedText_tool]
      exact hs
    have hcontent : (formattedRun (a :: rest)).content = .string (joinedTexts s ts) := by
      show (rest.foldl formatted (formatted { role := "tool" } a)).content = _
      exact content_foldl_formatted ha htool (fun m hm => (hmem m hm).1) hts
    rw [texts, formattedRun_role hchain (List.mem_cons_self ..), if_pos hrole, hcontent]
    rfl
  · rintro rfl
    exact hne (List.map_eq_nil_iff.mp hts)

/-- The roles that a Claude request has a place for. -/
def knownRoles : List String := ["system", "user", "assistant", "tool"]

/-- A run whose texts have no quotes at the ends where they are put together. -/
def QuotesInside (a : OpenAIMessage V) (rest : List (OpenAIMessage V)) : Prop :=
  rest ≠ [] → a.role ≠ "system" →
    a.content.opensQuoted = false ∧ ∀ m ∈ rest, m.content.closesQuoted = false

/-- Messages that are not of the user or the assistant have no texts. -/
theorem OpenAIMessage.texts_eq_nil
    (h : ¬ (m.role = "user" ∨ m.role = "assistant")) : m.texts env = [] :=
  if_neg h

/-- The text of a run joins those of its messages, if their quotes are inside. -/
theorem exists_groups_run
    (hchain : (a :: rest).IsChain fun x y => merges x y) (hquotes : QuotesInside a rest) :
    ∃ groups : List (List String), groups.flatten = (a :: rest).flatMap (texts env) ∧
      List.Forall₂ Joins groups ((formattedRun (a :: rest)).texts env) := by
  have hrun := formattedRun_role hchain (List.mem_cons_self ..)
  by_cases hspeaks : a.role = "user" ∨ a.role = "assistant"
  · by_cases hne : rest = []
    · subst hne
      obtain ⟨groups, hflat, hjoins⟩ := exists_groups_orPlaceholder env a.content
      refine ⟨groups, ?_, ?_⟩
      · rw [hflat, List.flatMap_singleton, texts, if_pos hspeaks]
      · rw [texts, if_pos (hrun ▸ hspeaks)]
        show List.Forall₂ Joins groups (((mergedText { role := "tool" } a).elim a.content
          AnyContent.string).orPlaceholder.texts env)
        rw [mergedText_tool]
        exact hjoins
    · obtain ⟨s, ts, hjoins, hts, htexts, -, hopens, hcloses⟩ := formattedRun_texts env hchain hne hspeaks
      have hsystem : a.role ≠ "system" := by
        rintro h
        rw [h] at hspeaks
        revert hspeaks
        decide
      obtain ⟨h1, h2⟩ := hquotes hne hsystem
      refine ⟨[(a :: rest).flatMap (texts env)], by simp, ?_⟩
      rw [htexts, List.flatMap_cons, hts]
      exact .cons (hjoins.joinedTexts (hopens.mp h1) (hcloses.mp h2)) .nil
  · -- a run of the system or of a tool has no texts
    refine ⟨[], ?_, ?_⟩
    · refine (List.flatMap_eq_nil_iff.mpr fun m hm => texts_eq_nil env ?_).symm
      rwa [← formattedRun_role hchain hm, hrun]
    · rw [texts_eq_nil env (by rwa [hrun])]
      exact .nil

/-- **The quotes of a run** are all there exactly when they are inside. -/
theorem run_quotes (hchain : (a :: rest).IsChain fun x y => merges x y)
    (hrole : a.role ∈ knownRoles) :
    (((formattedRun (a :: rest)).texts env).flatMap quotes).Sublist
        (((a :: rest).flatMap (texts env)).flatMap quotes) ∧
    (((formattedRun (a :: rest)).texts env).flatMap quotes
        = ((a :: rest).flatMap (texts env)).flatMap quotes ↔ QuotesInside a rest) := by
  have hkept : QuotesInside a rest → ((formattedRun (a :: rest)).texts env).flatMap quotes
        = ((a :: rest).flatMap (texts env)).flatMap quotes := by
    intro h
    obtain ⟨groups, hflat, hjoins⟩ := exists_groups_run env hchain h
    rw [quotes_of_groups hjoins, hflat]
  by_cases hlong : rest ≠ [] ∧ a.role ≠ "system"
  · obtain ⟨hne, hsystem⟩ := hlong
    have hspeaks : a.role = "user" ∨ a.role = "assistant" := by
      simpa [knownRoles, hsystem, (head_of_chain hchain hne).1] using hrole
    obtain ⟨s, ts, hjoins, hts, htexts, hnil, hopens, hcloses⟩ :=
      formattedRun_texts env hchain hne hspeaks
    obtain ⟨hsub, heq⟩ := quotes_joinTexts s ts
    have hall : ((a :: rest).flatMap (texts env)).flatMap quotes
        = quotes s ++ ts.flatMap quotes := by
      rw [flatMap_cons, hts, flatMap_append, ← hjoins.quotes_eq]
    rw [htexts, flatMap_singleton, hall, heq]
    refine ⟨hsub, ?_⟩
    rw [← hopens, ← hcloses]
    constructor
    · rintro (h | h) - -
      · exact absurd h hnil
      · exact h
    · exact fun h => .inr (h hne hsystem)
  · have hinside : QuotesInside a rest := fun hne hsystem => absurd ⟨hne, hsystem⟩ hlong
    rw [hkept hinside]
    exact ⟨List.Sublist.refl _, iff_of_true rfl hinside⟩

end ChatToClaude

end Prox
