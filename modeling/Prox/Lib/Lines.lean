import Prox.Lib.Go
import Mathlib.Data.List.DropRight

/-! # Lists written as lines

A list of texts is written by joining it with a separator and read back by trimming separators at both ends
and splitting. What is read is what was written exactly when no text holds the separator and neither end is
empty. -/

namespace Prox

open List

section Split

variable {α : Type} [DecidableEq α] {sep : α} {cs w : List α} {ls : List (List α)}

/-- The separators at both ends are cut off. -/
def trimEnds (sep : α) (cs : List α) : List α := (cs.dropWhile (· = sep)).rdropWhile (· = sep)

theorem trimEnds_eq_self_iff : trimEnds sep cs = cs ↔ cs.head? ≠ some sep ∧ cs.getLast? ≠ some sep := by
  constructor
  · intro h
    have hsuffix : cs.dropWhile (· = sep) = cs := by
      refine (dropWhile_suffix _).eq_of_length_le ?_
      calc cs.length = (trimEnds sep cs).length := by rw [h]
        _ ≤ (cs.dropWhile (· = sep)).length := ( rdropWhile_prefix _ _).length_le
    rw [trimEnds, hsuffix, rdropWhile_eq_self_iff] at h
    constructor
    · cases cs with
      | nil => simp
      | cons c cs =>
        intro hhead
        obtain rfl : c = sep := by simpa using hhead
        have := congrArg List.length hsuffix
        have := (dropWhile_suffix (· = c) (l := cs)).length_le
        simp at *
        omega
    · intro hlast
      obtain ⟨front, rfl⟩ := List.getLast?_eq_some_iff.mp hlast
      exact h (by simp) (by simp)
  · rintro ⟨hhead, hlast⟩
    have hdrop : cs.dropWhile (· = sep) = cs := by
      cases cs with
      | nil => rfl
      | cons c cs => exact dropWhile_cons_of_neg (by simpa using hhead)
    rw [trimEnds, hdrop, rdropWhile_eq_self_iff]
    intro hne hsep
    rw [List.getLast?_eq_some_getLast hne] at hlast
    exact hlast (by simpa using hsep)

theorem not_mem_of_mem_splitOn (h : w ∈ cs.splitOn sep) : sep ∉ w := by
  induction cs generalizing w with
  | nil =>
    obtain rfl : w = [] := by simpa using h
    exact not_mem_nil
  | cons c cs ih =>
    rw [splitOn_cons_eq_if_modifyHead] at h
    split at h
    · rcases mem_cons.mp h with rfl | h
      · exact not_mem_nil
      · exact ih h
    · next hc =>
      obtain ⟨first, rest, hsplit⟩ := exists_cons_of_ne_nil (List.splitOn_ne_nil sep cs)
      rw [hsplit] at h
      rcases mem_cons.mp h with rfl | h
      · have hfirst : sep ∉ first := ih (by rw [hsplit]; exact mem_cons_self)
        have hne : c ≠ sep := by simpa using hc
        simp [hfirst, hne.symm]
      · exact ih (by rw [hsplit]; exact mem_cons_of_mem _ h)

omit [DecidableEq α] in
/-- The first entry of a joined list, when the first list is not empty. -/
theorem head?_intercalate {l : List α} (h : l ≠ []) : ([sep].intercalate (l :: ls)).head? = l.head? := by
  cases ls with
  | nil => rw [intercalate_singleton]
  | cons l' ls => rw [intercalate_cons_cons, append_assoc, List.head?_append_of_ne_nil _ h]

omit [DecidableEq α] in
/-- A list joined to others comes behind a separator. -/
theorem intercalate_concat (h : ls ≠ []) (l : List α) :
    [sep].intercalate (ls ++ [l]) = [sep].intercalate ls ++ sep :: l := by
  induction ls with
  | nil => exact absurd rfl h
  | cons l' ls ih =>
    cases ls with
    | nil => simp
    | cons l'' ls =>
      rw [cons_append, cons_append, intercalate_cons_cons, ← cons_append, ih (by simp),
        intercalate_cons_cons, append_assoc, append_assoc, append_assoc]

omit [DecidableEq α] in
/-- The last entry of a joined list, when the last list is not empty. -/
theorem getLast?_intercalate {l : List α} (h : l ≠ []) :
    ([sep].intercalate (ls ++ [l])).getLast? = l.getLast? := by
  obtain ⟨front, c, rfl⟩ : ∃ front c, l = front ++ [c] := by
    rcases eq_nil_or_concat l with rfl | ⟨front, c, rfl⟩
    · exact absurd rfl h
    · exact ⟨front, c, concat_eq_append⟩
  by_cases hls : ls = []
  · rw [hls, nil_append, intercalate_singleton]
  · rw [intercalate_concat hls, ← cons_append, ← append_assoc, List.getLast?_concat,
      List.getLast?_concat]

/-- A joined list is read back exactly when no part holds the separator and neither end is empty. -/
theorem splitOn_trimEnds_intercalate_iff (hls : ls ≠ []) :
    (trimEnds sep ([sep].intercalate ls)).splitOn sep = ls ↔
      (∀ l ∈ ls, sep ∉ l) ∧ (ls = [[]] ∨ ls.head? ≠ some [] ∧ ls.getLast? ≠ some []) := by
  constructor
  · intro h
    have hself : trimEnds sep ([sep].intercalate ls) = [sep].intercalate ls :=
      calc trimEnds sep ([sep].intercalate ls)
          = [sep].intercalate ((trimEnds sep ([sep].intercalate ls)).splitOn sep) :=
            (intercalate_splitOn _).symm
        _ = [sep].intercalate ls := by rw [h]
    refine ⟨fun l hl => not_mem_of_mem_splitOn (h ▸ hl), ?_⟩
    rw [or_iff_not_imp_left]
    intro hblank
    obtain ⟨hhead, hlast⟩ := trimEnds_eq_self_iff.mp hself
    constructor
    · intro hempty
      obtain ⟨rest, rfl⟩ := List.head?_eq_some_iff.mp hempty
      obtain ⟨l', rest', rfl⟩ := exists_cons_of_ne_nil (l := rest) (by rintro rfl; exact hblank rfl)
      simp [intercalate_cons_cons] at hhead
    · intro hempty
      obtain ⟨front, rfl⟩ := List.getLast?_eq_some_iff.mp hempty
      have hfront : front ≠ [] := by
        rintro rfl
        exact hblank rfl
      rw [intercalate_concat hfront] at hlast
      exact hlast (by simp)
  · rintro ⟨hsep, rfl | ⟨hhead, hlast⟩⟩
    · simp [trimEnds]
    · -- the ends of the joined list are those of the lists at its ends
      obtain ⟨l, rest, rfl⟩ := exists_cons_of_ne_nil hls
      obtain ⟨front, l', hfront⟩ : ∃ front l', l :: rest = front ++ [l'] := by
        rcases eq_nil_or_concat (l :: rest) with hnil | ⟨front, l', hconcat⟩
        · cases hnil
        · exact ⟨front, l', hconcat.trans concat_eq_append⟩
      have hl : l ≠ [] := by simpa using hhead
      have hl' : l' ≠ [] := by
        rw [hfront] at hlast
        simpa using hlast
      have hself : trimEnds sep ([sep].intercalate (l :: rest)) = [sep].intercalate (l :: rest) := by
        refine trimEnds_eq_self_iff.mpr ⟨?_, ?_⟩
        · rw [head?_intercalate hl]
          exact fun h => hsep l mem_cons_self (List.mem_of_mem_head? h)
        · rw [hfront, getLast?_intercalate hl']
          exact fun h => hsep l' (by rw [hfront]; simp) (List.mem_of_mem_getLast? h)
      rw [hself]
      exact splitOn_intercalate sep hsep hls

end Split

section Texts

variable {texts : List String}

theorem splitChars_eq_splitOn (sep : Char) (cs : List Char) : splitChars sep cs = cs.splitOn sep := by
  induction cs with
  | nil => rfl
  | cons c cs ih =>
    rw [splitChars, splitOn_cons_eq_if_modifyHead, ih]
    by_cases hc : c = sep
    · simp [hc]
    · obtain ⟨first, rest, hsplit⟩ := exists_cons_of_ne_nil (List.splitOn_ne_nil sep cs)
      simp [hc, hsplit]

/-- Joined texts are read back exactly when no text holds the separator and neither end is empty. -/
theorem splitOn_trimChar_intercalate_iff (sep : Char) (htexts : texts ≠ []) :
    splitOn sep (trimChar sep ((String.singleton sep).intercalate texts)) = texts ↔
      (∀ t ∈ texts, sep ∉ t.toList) ∧ (texts = [""] ∨ texts.head? ≠ some "" ∧ texts.getLast? ≠ some "") := by
  have hinj : Function.Injective String.toList := fun s t h => String.toList_inj.mp h
  have hne : texts.map String.toList ≠ [] := by simpa using htexts
  have hread : splitOn sep (trimChar sep ((String.singleton sep).intercalate texts)) = texts ↔
      (trimEnds sep ([sep].intercalate (texts.map String.toList))).splitOn sep = texts.map String.toList := by
    rw [splitOn, splitChars_eq_splitOn, trimChar, String.toList_intercalate, ←
        (map_injective_iff.mpr hinj).eq_iff]
    simp [trimEnds]
  have hblank : ∀ o : Option String, o.map String.toList = some [] ↔ o = some "" := fun o => by
    rw [← (Option.map_injective hinj).eq_iff]
    rfl
  rw [hread, splitOn_trimEnds_intercalate_iff hne, List.head?_map, List.getLast?_map, ne_eq, hblank, ne_eq, hblank]
  refine and_congr (by simp) (or_congr ?_ Iff.rfl)
  rw [← (map_injective_iff.mpr hinj).eq_iff]
  rfl

end Texts

end Prox
