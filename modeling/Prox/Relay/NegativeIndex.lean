import Mathlib.Data.List.Induction
import Prox.Lib.Go

/-! # Negative indices in the paths of an override

The embedding of `processNegativeIndex` in `relay/common/override.go`: the indices `-k` of a path are
counted from the end of the arrays they stand in. The array of an index is looked up under the text of
the original path before the first place where the index's text stands, and the number found is put at
the first place where the text stands in the path so far. For a path with one negative index these are
the right array and the right place; for a path with several they are right only when the condition of
`negative_indices_resolved` holds.

The lookup of a path in the document is a parameter. -/

namespace Prox

open List

/-! ## Texts -/

/-- `strings.Split(s, sep)[0]`. -/
def beforeFirst (sep : List Char) : List Char → List Char
  | [] => []
  | c :: cs => if sep.isPrefixOf (c :: cs) then [] else c :: beforeFirst sep cs

/-- `strings.Replace(s, old, new, 1)`. -/
def replaceFirst (old new : List Char) : List Char → List Char
  | [] => []
  | c :: cs =>
    if old.isPrefixOf (c :: cs) then new ++ (c :: cs).drop old.length
    else c :: replaceFirst old new cs

/-- What `-\d+` matches at the beginning of a text. -/
def indexAt : List Char → Option (List Char)
  | '-' :: cs =>
    let digits := cs.takeWhile Char.isDigit
    if digits = [] then none else some ('-' :: digits)
  | _ => none

/-- What `\.(-\d+)` captures in a text; a match holds no other dot, so the search goes on behind the dot
of a match. -/
def negativeIndexMatches : List Char → List (List Char)
  | [] => []
  | c :: cs => (if c = '.' then (indexAt cs).toList else []) ++ negativeIndexMatches cs

/-! ## Documents -/

/-- A JSON document. -/
inductive Json where
  | scalar
  | array (items : List Json)
  | object (members : List (String × Json))

/-- The length of an array. -/
def Json.length? : Json → Option Nat
  | .array items => some items.length
  | _ => none

/-! ## The function -/

/-- The path that the array of an index is looked up under. -/
def indexArrayPath (path negIndex : List Char) : List Char :=
  let arrayPath := beforeFirst negIndex path
  if arrayPath.getLast? = some '.' then arrayPath.dropLast else arrayPath

/-- The index from the front, if it lies in the array that is looked up. An index out of the range of an
`int` is read as the least one, which lies before every array too. -/
def actualIndex (getBytes : String → Option Json) (path negIndex : List Char) : Option Nat :=
  let index : Int := -(Nat.ofDigitChars 10 negIndex.tail 0 : Int)
  match (getBytes (String.ofList (indexArrayPath path negIndex))).bind Json.length? with
  | none => none
  | some length =>
    let actualIndex := length + index
    if 0 ≤ actualIndex ∧ actualIndex < length then some actualIndex.toNat else none

/-- `processNegativeIndex`. -/
def processNegativeIndex (getBytes : String → Option Json) (path : String) : String :=
  String.ofList ((negativeIndexMatches path.toList).foldl (fun result negIndex =>
    match actualIndex getBytes path.toList negIndex with
    | none => result
    | some i => replaceFirst ('.' :: negIndex) ('.' :: Nat.toDigits 10 i) result) path.toList)

/-! ## Paths -/

/-- A key or an index from the front: a text without a dot that does not begin like a negative index. -/
structure PathName where
  text : String
  plain : text ≠ "" ∧ '.' ∉ text.toList ∧ text.toList.head? ≠ some '-'

/-- A segment of a path. -/
inductive PathSegment where
  | name (n : PathName)
  | negative (k : Nat) (pos : 0 < k)

/-- The text of an index. -/
def negativeText (k : Nat) : List Char := '-' :: Nat.toDigits 10 k

/-- The text of a segment. -/
def PathSegment.chars : PathSegment → List Char
  | .name n => n.text.toList
  | .negative k _ => negativeText k

/-- The texts, a dot before each. -/
def dotted (texts : List (List Char)) : List Char := texts.flatMap ('.' :: ·)

/-- The texts with a dot between them. -/
def joinPath : List (List Char) → List Char
  | [] => []
  | s :: rest => s ++ dotted rest

/-- The position of the element `k` from the end. -/
def elementFromEnd (k : Nat) (j : Option Json) : Option Nat :=
  match j.bind Json.length? with
  | none => none
  | some length => if k ≤ length then some (length - k) else none

/-- An index from the front, or the negative index as it is. -/
def indexText (k : Nat) : Option Nat → List Char
  | none => negativeText k
  | some i => Nat.toDigits 10 i

/-- What a segment is rewritten to after these. -/
def resolveSegment (getBytes : String → Option Json) (before : List (List Char)) :
    PathSegment → List Char
  | .name n => n.text.toList
  | .negative k _ => indexText k (elementFromEnd k (getBytes (String.ofList (joinPath before))))

/-- A path with every negative index resolved in the array at the resolved path before it. -/
def resolvePath (getBytes : String → Option Json) (segments : List PathSegment) :
    List (List Char) :=
  segments.foldl (fun before s => before ++ [resolveSegment getBytes before s]) []

/-! ## Reading a path -/

theorem dot_not_mem_toDigits (n : Nat) : '.' ∉ Nat.toDigits 10 n := fun h =>
  absurd (Nat.isDigit_of_mem_toDigits (by decide) (by decide) h) (by decide)

theorem head?_toDigits_ne (n : Nat) : (Nat.toDigits 10 n).head? ≠ some '-' := fun h =>
  absurd (Nat.isDigit_of_mem_toDigits (by decide) (by decide) (List.mem_of_head? h)) (by decide)

theorem dot_not_mem_negativeText (k : Nat) : '.' ∉ negativeText k := by
  simp [negativeText, dot_not_mem_toDigits]

theorem PathSegment.dot_not_mem_chars (s : PathSegment) : '.' ∉ s.chars := by
  cases s with
  | name n => exact n.plain.2.1
  | negative k pos => exact dot_not_mem_negativeText k

variable {s t : List Char}

@[simp] theorem dotted_nil : dotted [] = [] := rfl

@[simp] theorem dotted_cons (s : List Char) (rest : List (List Char)) :
    dotted (s :: rest) = '.' :: (s ++ dotted rest) := rfl

/-- A text is only found at the beginning of a segment when the segment begins with it. -/
theorem isPrefix_append_dotted {u : List Char} (ht : '.' ∉ t) (rest : List (List Char)) :
    t <+: u ++ dotted rest ↔ t <+: u := by
  refine ⟨fun h => ?_, fun h => h.trans (prefix_append ..)⟩
  rcases prefix_or_prefix_of_prefix h (prefix_append u _) with h' | ⟨w, rfl⟩
  · exact h'
  · have hw : w <+: dotted rest := (prefix_append_right_inj u).mp h
    cases rest with
    | nil => simp [prefix_nil.mp hw]
    | cons v rest =>
      cases w with
      | nil => simp
      | cons c w =>
        -- the text would go on with the dot behind the segment
        obtain ⟨rfl, -⟩ := cons_prefix_cons.mp (dotted_cons v rest ▸ hw)
        simp at ht

/-- No match begins inside a text without dots. -/
theorem negativeIndexMatches_append (hs : '.' ∉ s) (l : List Char) :
    negativeIndexMatches (s ++ l) = negativeIndexMatches l := by
  induction s with
  | nil => rfl
  | cons c s ih =>
    rw [mem_cons, not_or] at hs
    rw [cons_append, negativeIndexMatches, if_neg fun h => hs.1 h.symm, ih hs.2]
    rfl

/-- The text of a negative index is captured whole; that of a name not at all. -/
theorem indexAt_chars (s : PathSegment) (rest : List (List Char)) :
    indexAt (s.chars ++ dotted rest) =
      match s with
      | .name _ => none
      | .negative k _ => some (negativeText k) := by
  cases s with
  | name n =>
    obtain ⟨hne, -, hhead⟩ := n.plain
    show indexAt (n.text.toList ++ dotted rest) = none
    cases hl : n.text.toList with
    | nil => exact absurd (String.toList_eq_nil_iff.mp hl) hne
    | cons c cs =>
      rw [hl, List.head?_cons, ne_eq, Option.some.injEq] at hhead
      rw [indexAt]
      exact fun cs' h => hhead (List.cons.inj h).1
  | negative k pos =>
    have hdigits : (Nat.toDigits 10 k ++ dotted rest).takeWhile Char.isDigit = Nat.toDigits 10 k := by
      rw [takeWhile_append_of_pos fun c hc =>
        Nat.isDigit_of_mem_toDigits (by decide) (by decide) hc]
      cases rest <;> simp
    show indexAt ('-' :: (Nat.toDigits 10 k ++ dotted rest)) = some (negativeText k)
    simp [indexAt, hdigits, negativeText]

/-- The negative indices of the segments. -/
def negatives (segments : List PathSegment) : List Nat :=
  segments.filterMap fun
    | .name _ => none
    | .negative k _ => some k

variable (segments : List PathSegment)

/-- The function finds the negative indices behind the first segment. -/
theorem negativeIndexMatches_dotted :
    negativeIndexMatches (dotted (segments.map (·.chars))) =
      (negatives segments).map negativeText := by
  induction segments with
  | nil => rfl
  | cons s rest ih =>
    rw [map_cons, dotted_cons, negativeIndexMatches, negativeIndexMatches_append
        s.dot_not_mem_chars, ih, indexAt_chars]
    cases s <;> rfl

theorem negativeIndexMatches_joinPath :
    negativeIndexMatches (joinPath (segments.map (·.chars))) =
      (negatives segments.tail).map negativeText := by
  cases segments with
  | nil => rfl
  | cons s rest =>
    rw [map_cons, joinPath, negativeIndexMatches_append s.dot_not_mem_chars,
      negativeIndexMatches_dotted, tail_cons]

/-! ## Replacing a segment -/

/-- The first text that begins with `t`, rewritten. -/
def rewriteFirst (t new : List Char) : List (List Char) → List (List Char)
  | [] => []
  | u :: rest =>
    if t.isPrefixOf u then (new ++ u.drop t.length) :: rest else u :: rewriteFirst t new rest

/-- Nothing is replaced inside a text without dots. -/
theorem replaceFirst_append (hs : '.' ∉ s) (t new l : List Char) :
    replaceFirst ('.' :: t) new (s ++ l) = s ++ replaceFirst ('.' :: t) new l := by
  induction s with
  | nil => rfl
  | cons c s ih =>
    rw [mem_cons, not_or] at hs
    have hc : List.isPrefixOf ('.' :: t) (c :: (s ++ l)) = false := by
      simp [List.isPrefixOf, hs.1]
    rw [cons_append, replaceFirst, hc, ih hs.2]
    rfl

variable {texts : List (List Char)}

/-- What is replaced is the first segment that begins with the text. -/
theorem replaceFirst_dotted (ht : '.' ∉ t) (new : List Char) (h : ∀ u ∈ texts, '.' ∉ u) :
    replaceFirst ('.' :: t) ('.' :: new) (dotted texts) = dotted (rewriteFirst t new texts) := by
  induction texts with
  | nil => rfl
  | cons u rest ih =>
    have hhit : List.isPrefixOf ('.' :: t) ('.' :: (u ++ dotted rest)) = t.isPrefixOf u := by
      rw [Bool.eq_iff_iff, isPrefixOf_iff_prefix, cons_prefix_cons,
          isPrefix_append_dotted ht]
      simp
    rw [dotted_cons, replaceFirst, hhit, rewriteFirst]
    split_ifs with hu
    · obtain ⟨w, rfl⟩ := isPrefixOf_iff_prefix.mp hu
      simp
    · rw [replaceFirst_append (h u (mem_cons_self ..)),
        ih fun v hv => h v (mem_cons_of_mem _ hv), dotted_cons]

theorem dot_not_mem_rewriteFirst {new : List Char} (hnew : '.' ∉ new) (h : ∀ u ∈ texts, '.' ∉ u) :
    ∀ u ∈ rewriteFirst t new texts, '.' ∉ u := by
  induction texts with
  | nil => simp [rewriteFirst]
  | cons v rest ih =>
    intro u hu
    have hv := h v (mem_cons_self ..)
    have hrest := fun u hu => h u (mem_cons_of_mem _ hu)
    rw [rewriteFirst] at hu
    split_ifs at hu with hp
    · rcases mem_cons.mp hu with rfl | hu
      · rw [mem_append, not_or]
        exact ⟨hnew, fun hmem => hv (mem_of_mem_drop hmem)⟩
      · exact hrest u hu
    · rcases mem_cons.mp hu with rfl | hu
      · exact hv
      · exact ih hrest u hu

/-- Texts that do not begin with `t` are passed by, and `t` itself is rewritten. -/
theorem rewriteFirst_append {passed : List (List Char)} (h : ∀ u ∈ passed, ¬ t <+: u)
    (new : List Char) (rest : List (List Char)) :
    rewriteFirst t new (passed ++ t :: rest) = passed ++ new :: rest := by
  induction passed with
  | nil => simp [rewriteFirst]
  | cons u passed ih =>
    have hu : t.isPrefixOf u = false := by
      rw [Bool.eq_false_iff, ne_eq, isPrefixOf_iff_prefix]
      exact h u (mem_cons_self ..)
    rw [cons_append, rewriteFirst, hu, ih fun v hv => h v (mem_cons_of_mem _ hv)]
    rfl

/-! ## The function on segments -/

/-- One step of the function on the segments behind the first, where `look` is what is found for an
index. -/
def rewriteStep (look : Nat → Option Nat) (texts : List (List Char)) (k : Nat) :
    List (List Char) :=
  match look k with
  | none => texts
  | some i => rewriteFirst (negativeText k) (Nat.toDigits 10 i) texts

variable (look : Nat → Option Nat)

/-- The steps of the function are steps on the segments behind the first. -/
theorem foldl_replaceFirst (hs : '.' ∉ s) (ks : List Nat)
    (h : ∀ u ∈ texts, '.' ∉ u) :
    (ks.foldl (fun result k =>
      match look k with
      | none => result
      | some i => replaceFirst ('.' :: negativeText k) ('.' :: Nat.toDigits 10 i) result)
      (s ++ dotted texts)) = s ++ dotted (ks.foldl (rewriteStep look) texts) := by
  induction ks generalizing texts with
  | nil => rfl
  | cons k ks ih =>
    rw [foldl_cons, foldl_cons, rewriteStep]
    cases look k with
    | none => exact ih h
    | some i =>
      show ks.foldl _ (replaceFirst ('.' :: negativeText k) ('.' :: Nat.toDigits 10 i)
        (s ++ dotted texts)) = _
      rw [replaceFirst_append hs, replaceFirst_dotted (dot_not_mem_negativeText k) _ h]
      exact ih (dot_not_mem_rewriteFirst (dot_not_mem_toDigits i) h)

/-- What the function should make of a segment behind the first, given what it finds. -/
def lookedText (look : Nat → Option Nat) : PathSegment → List Char
  | .name n => n.text.toList
  | .negative k _ => indexText k (look k)

/-- No negative index that stays as it is begins with the text of a later one that is rewritten. -/
def Placed (look : Nat → Option Nat) (segments : List PathSegment) : Prop :=
  ∀ before k hk between m hm after,
    segments = before ++ .negative k hk :: (between ++ .negative m hm :: after) →
      negativeText m <+: negativeText k → look k = none → look m = none

theorem head?_of_negativeText_isPrefix {k : Nat} {u : List Char} (h : negativeText k <+: u) :
    u.head? = some '-' := by
  obtain ⟨w, rfl⟩ := h
  rfl

/-- Step by step, every segment comes to what was found for it. -/
theorem foldl_rewriteStep (done rest : List PathSegment)
    (h : Placed look (done ++ rest)) :
    (negatives rest).foldl (rewriteStep look) (done.map (lookedText look) ++ rest.map (·.chars)) =
      (done ++ rest).map (lookedText look) := by
  induction rest generalizing done with
  | nil => simp [negatives]
  | cons s rest ih =>
    have hdone : done ++ s :: rest = (done ++ [s]) ++ rest := by simp
    have hnext := ih (done ++ [s]) (hdone ▸ h)
    rw [map_append, append_assoc] at hnext
    rw [hdone]
    refine Eq.trans ?_ hnext
    cases s with
    | name n => rfl
    | negative k pos =>
      show (negatives rest).foldl (rewriteStep look) (rewriteStep look _ k) = _
      congr 1
      rw [rewriteStep]
      show _ = done.map (lookedText look) ++ indexText k (look k) :: rest.map (·.chars)
      cases hlook : look k with
      | none => rfl
      | some i =>
        refine rewriteFirst_append (fun u hu => ?_) _ _
        -- nothing before the index begins with its text
        obtain ⟨q, hq, rfl⟩ := mem_map.mp hu
        intro hpre
        have hhead := head?_of_negativeText_isPrefix hpre
        cases q with
        | name n => exact n.plain.2.2 hhead
        | negative m hm =>
          rw [lookedText] at hhead hpre
          cases hm' : look m with
          | some j => exact head?_toDigits_ne j (by simpa [hm', indexText] using hhead)
          | none =>
            obtain ⟨before, between, rfl⟩ := append_of_mem hq
            have hnone := h before m hm between k pos rest (by simp)
              (by simpa [hm', indexText] using hpre) hm'
            rw [hlook] at hnone
            contradiction

/-! ## When the paths agree -/

/-- A path as a text. -/
def pathText (segments : List PathSegment) : String :=
  String.ofList (joinPath (segments.map (·.chars)))

/-- The position in the array at the path's text before the first place where the index's text
stands. -/
def lookedUp (getBytes : String → Option Json) (segments : List PathSegment) (k : Nat) : Option Nat :=
  elementFromEnd k
    (getBytes (String.ofList (indexArrayPath (pathText segments).toList (negativeText k))))

variable (getBytes : String → Option Json)

/-- This position is what the function finds. -/
theorem actualIndex_eq_lookedUp (segments : List PathSegment)
    {k : Nat} (hk : 0 < k) :
    actualIndex getBytes (pathText segments).toList (negativeText k) =
      lookedUp getBytes segments k := by
  have hdigits : Nat.ofDigitChars 10 (negativeText k).tail 0 = k := Nat.ofDigitChars_ten_toDigits
  rw [actualIndex, lookedUp, elementFromEnd, hdigits]
  generalize Option.bind _ Json.length? = found
  cases found with
  | none => rfl
  | some length =>
    show (if 0 ≤ (length : Int) + -(k : Int) ∧ (length : Int) + -(k : Int) < length then
        some ((length : Int) + -(k : Int)).toNat else none) =
      if k ≤ length then some (length - k) else none
    by_cases h : k ≤ length
    · rw [if_pos h, if_pos (by omega)]
      congr 1
      omega
    · rw [if_neg h, if_neg (by omega)]

theorem pos_of_mem_negatives {segments : List PathSegment} {k : Nat} (h : k ∈ negatives segments) :
    0 < k := by
  obtain ⟨s, -, hs⟩ := mem_filterMap.mp h
  cases s with
  | name n => simp at hs
  | negative m hm => exact Option.some.inj hs ▸ hm

/-- The path with what was found in place of the indices behind the first segment. -/
def lookedPath (look : Nat → Option Nat) : List PathSegment → List (List Char)
  | [] => []
  | s :: rest => s.chars :: rest.map (lookedText look)

/-- The function puts what it finds for every index into its place. -/
theorem processNegativeIndex_of_placed
    (segments : List PathSegment) (h : Placed (lookedUp getBytes segments) segments.tail) :
    processNegativeIndex getBytes (pathText segments) =
      String.ofList (joinPath (lookedPath (lookedUp getBytes segments) segments)) := by
  have hfold : processNegativeIndex getBytes (pathText segments) =
      String.ofList ((negatives segments.tail).foldl (fun result k =>
        match lookedUp getBytes segments k with
        | none => result
        | some i => replaceFirst ('.' :: negativeText k) ('.' :: Nat.toDigits 10 i) result)
        (joinPath (segments.map (·.chars)))) := by
    rw [processNegativeIndex, pathText, String.toList_ofList, negativeIndexMatches_joinPath,
      foldl_map]
    congr 1
    refine foldl_ext _ _ _ fun result k hk => ?_
    have hfound := actualIndex_eq_lookedUp getBytes segments (pos_of_mem_negatives hk)
    rw [pathText, String.toList_ofList] at hfound
    rw [hfound]
  cases segments with
  | nil => rfl
  | cons s rest =>
    rw [hfold]
    have hsteps := foldl_rewriteStep (lookedUp getBytes (s :: rest)) [] rest h
    rw [map_nil, nil_append] at hsteps
    rw [tail_cons, map_cons, joinPath, foldl_replaceFirst _ s.dot_not_mem_chars]
    · rw [hsteps]
      rfl
    · intro u hu
      obtain ⟨q, -, rfl⟩ := mem_map.mp hu
      exact q.dot_not_mem_chars

/-- For every index the array that is looked up and the array at the resolved path before it give the
same position; an index that begins the path is not looked up. -/
def FindsResolved (getBytes : String → Option Json) (look : Nat → Option Nat)
    (segments : List PathSegment) : Prop :=
  ∀ before k hk after, segments = before ++ .negative k hk :: after →
    (if before = [] then none else look k) =
      elementFromEnd k (getBytes (String.ofList (joinPath (resolvePath getBytes before))))

theorem indexText_inj {k : Nat} {a b : Option Nat} : indexText k a = indexText k b ↔ a = b := by
  refine ⟨fun h => ?_, fun h => h ▸ rfl⟩
  have hdigits : ∀ i, Nat.toDigits 10 i ≠ negativeText k := fun i hi =>
    head?_toDigits_ne i (hi ▸ rfl)
  cases a <;> cases b
  · rfl
  · exact absurd h.symm (hdigits _)
  · exact absurd h (hdigits _)
  · exact congrArg some (toDigits_append_inj (s := []) (t := []) (by simp) (by simp)
      (by simpa [indexText] using h)).1

theorem resolvePath_concat (segments : List PathSegment)
    (s : PathSegment) :
    resolvePath getBytes (segments ++ [s]) =
      resolvePath getBytes segments ++ [resolveSegment getBytes (resolvePath getBytes segments) s] := by
  simp [resolvePath]

theorem lookedPath_concat (segments : List PathSegment) (s : PathSegment) :
    lookedPath look (segments ++ [s]) = lookedPath look segments ++
      [lookedText (fun k => if segments = [] then none else look k) s] := by
  cases segments with
  | nil => cases s <;> rfl
  | cons q rest => simp [lookedPath]

theorem findsResolved_concat {getBytes : String → Option Json} {look : Nat → Option Nat}
    {segments : List PathSegment} {s : PathSegment} :
    FindsResolved getBytes look (segments ++ [s]) ↔ FindsResolved getBytes look segments ∧
      lookedText (fun k => if segments = [] then none else look k) s =
        resolveSegment getBytes (resolvePath getBytes segments) s := by
  constructor
  · intro h
    refine ⟨fun before k hk after heq => h before k hk (after ++ [s]) (by simp [heq]), ?_⟩
    cases s with
    | name n => rfl
    | negative k hk => exact indexText_inj.mpr (h segments k hk [] rfl)
  · rintro ⟨h, hs⟩ before k hk after heq
    rcases eq_nil_or_concat after with rfl | ⟨after, q, rfl⟩
    · obtain ⟨rfl, hlast⟩ := append_inj' heq rfl
      obtain rfl := singleton_inj.mp hlast
      exact indexText_inj.mp hs
    · rw [concat_eq_append, ← cons_append, ← append_assoc] at heq
      exact h before k hk after (append_inj' heq rfl).1

/-- What is found makes the resolved path exactly when every index finds the right thing. -/
theorem lookedPath_eq_iff (look : Nat → Option Nat)
    (segments : List PathSegment) :
    lookedPath look segments = resolvePath getBytes segments ↔
      FindsResolved getBytes look segments := by
  induction segments using List.reverseRecOn with
  | nil => exact iff_of_true rfl fun before k hk after h => by simp at h
  | append_singleton segments s ih =>
    rw [lookedPath_concat, resolvePath_concat, findsResolved_concat, ← ih]
    refine ⟨fun h => ?_, fun ⟨hpath, hs⟩ => by rw [hpath, hs]⟩
    obtain ⟨hpath, hs⟩ := append_inj' h rfl
    exact ⟨hpath, singleton_inj.mp hs⟩

/-- A joined path can be split again. -/
theorem splitChars_append_dotted (hs : '.' ∉ s) {rest : List (List Char)} (h : ∀ u ∈ rest, '.' ∉ u) :
    splitChars '.' (s ++ dotted rest) = s :: rest := by
  induction rest generalizing s with
  | nil =>
    rw [dotted_nil, append_nil]
    induction s with
    | nil => rfl
    | cons c s ih =>
      rw [mem_cons, not_or] at hs
      rw [splitChars, if_neg fun hc => hs.1 hc.symm, ih hs.2]
  | cons u rest ihrest =>
    have htail := ihrest (h u (mem_cons_self ..)) fun v hv => h v (mem_cons_of_mem _ hv)
    induction s with
    | nil => rw [nil_append, dotted_cons, splitChars, if_pos rfl, htail]
    | cons c s ih =>
      rw [mem_cons, not_or] at hs
      rw [cons_append, splitChars, if_neg fun hc => hs.1 hc.symm, ih hs.2]

theorem joinPath_inj {xs ys : List (List Char)} (hx : ∀ u ∈ xs, '.' ∉ u) (hy : ∀ u ∈ ys, '.' ∉ u)
    (hlen : xs.length = ys.length) (h : joinPath xs = joinPath ys) : xs = ys := by
  cases xs with
  | nil => exact (length_eq_zero_iff.mp hlen.symm).symm
  | cons s xs =>
    cases ys with
    | nil => simp at hlen
    | cons t ys =>
      rw [forall_mem_cons] at hx hy
      rw [← splitChars_append_dotted hx.1 hx.2, ← splitChars_append_dotted hy.1 hy.2]
      exact congrArg (splitChars '.') h

theorem dot_not_mem_indexText (k : Nat) (i : Option Nat) : '.' ∉ indexText k i := by
  cases i with
  | none => exact dot_not_mem_negativeText k
  | some i => exact dot_not_mem_toDigits i

theorem dot_not_mem_lookedPath (segments : List PathSegment) :
    ∀ u ∈ lookedPath look segments, '.' ∉ u := by
  cases segments with
  | nil => simp [lookedPath]
  | cons s rest =>
    refine forall_mem_cons.mpr ⟨s.dot_not_mem_chars, fun u hu => ?_⟩
    obtain ⟨q, -, rfl⟩ := mem_map.mp hu
    cases q with
    | name n => exact n.plain.2.1
    | negative k hk => exact dot_not_mem_indexText k _

theorem length_resolvePath (segments : List PathSegment) :
    (resolvePath getBytes segments).length = segments.length := by
  induction segments using List.reverseRecOn with
  | nil => rfl
  | append_singleton segments s ih => simp [resolvePath_concat, ih]

theorem dot_not_mem_resolvePath (segments : List PathSegment) :
    ∀ u ∈ resolvePath getBytes segments, '.' ∉ u := by
  induction segments using List.reverseRecOn with
  | nil => simp [resolvePath]
  | append_singleton segments s ih =>
    rw [resolvePath_concat]
    intro u hu
    rcases mem_append.mp hu with hu | hu
    · exact ih u hu
    · obtain rfl := mem_singleton.mp hu
      cases s with
      | name n => exact n.plain.2.1
      | negative k hk => exact dot_not_mem_indexText k _

/-- The right path as a text. -/
def resolvedText (getBytes : String → Option Json) (segments : List PathSegment) : String :=
  String.ofList (joinPath (resolvePath getBytes segments))

/-- The function rewrites every negative index to the position in the array at the resolved path before
it, for any number of them, when it looks up arrays that give these positions and no index that stays
begins with the text of a later one that is rewritten. Where the latter holds the former is also
necessary. -/
theorem negative_indices_resolved (getBytes : String → Option Json) (segments : List PathSegment) :
    (Placed (lookedUp getBytes segments) segments.tail ∧
        FindsResolved getBytes (lookedUp getBytes segments) segments →
      processNegativeIndex getBytes (pathText segments) = resolvedText getBytes segments) ∧
    (Placed (lookedUp getBytes segments) segments.tail →
      processNegativeIndex getBytes (pathText segments) = resolvedText getBytes segments →
      FindsResolved getBytes (lookedUp getBytes segments) segments) := by
  constructor
  · rintro ⟨hplaced, hfinds⟩
    rw [processNegativeIndex_of_placed getBytes segments hplaced,
      (lookedPath_eq_iff ..).mpr hfinds, resolvedText]
  · intro hplaced h
    rw [processNegativeIndex_of_placed getBytes segments hplaced, resolvedText, String.ofList_inj] at h
    refine (lookedPath_eq_iff ..).mp (joinPath_inj (dot_not_mem_lookedPath _ segments)
      (dot_not_mem_resolvePath getBytes segments) ?_ h)
    rw [length_resolvePath]
    cases segments <;> simp [lookedPath]

/-- The value at a path of keys and positions. -/
def Json.walk : List String → Json → Option Json
  | [], j => some j
  | s :: rest, .array items =>
    if s.toList.all Char.isDigit then
      (items[Nat.ofDigitChars 10 s.toList 0]?).bind (Json.walk rest)
    else none
  | s :: rest, .object members => (members.lookup s).bind (Json.walk rest)
  | _ :: _, .scalar => none

/-- The lookup of a path of keys and positions; nothing is at the empty path. -/
def Json.get (j : Json) (path : String) : Option Json :=
  if path = "" then none else Json.walk (splitOn '.' path) j

/-- A list of one message with three parts. -/
def sampleMessages : Json :=
  .object [("messages", .array [.object [("content", .array [.scalar, .scalar, .scalar])]])]

/-- The last part of the last message: the second index is looked up in the messages too. -/
theorem second_index_looked_up_in_first_array :
    resolvedText sampleMessages.get
        [.name ⟨"messages", by decide⟩, .negative 1 (by decide), .name ⟨"content", by decide⟩,
          .negative 1 (by decide)] = "messages.0.content.2" ∧
      processNegativeIndex sampleMessages.get "messages.-1.content.-1" = "messages.0.content.0" := by
  decide

end Prox
