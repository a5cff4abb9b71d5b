import Prox.Lib.Go
import Mathlib.Algebra.Order.BigOperators.Group.List
import Mathlib.Data.List.Dedup

/-! # Weighted choice

Drawing one of several items with integer weights: the weights are added up, a number below the sum
is drawn, and the items are passed over until their weights exceed it. The arithmetic is that of
`int64`; as long as the sum stays in range the draw hits an item of positive weight, and every such
item is hit by some draw. -/

namespace Prox

open List

variable {α : Type}

/-! ## Sums -/

/-- Adds up weights as `int64`. -/
def sumInt64 (w : α → Int) (items : List α) : Int :=
  items.foldl (fun sum a => wrapInt64 (sum + w a)) 0

variable {w : α → Int} {items : List α}

theorem sum_weights_nonneg (hw : ∀ a ∈ items, 0 ≤ w a) : 0 ≤ (items.map w).sum := by
  refine sum_nonneg fun x hx => ?_
  obtain ⟨a, ha, rfl⟩ := mem_map.mp hx
  exact hw a ha

theorem foldl_wrapInt64 (hw : ∀ a ∈ items, 0 ≤ w a) {start : Int} (hstart : 0 ≤ start)
    (hsum : start + (items.map w).sum < 2 ^ 63) :
    items.foldl (fun sum a => wrapInt64 (sum + w a)) start = start + (items.map w).sum := by
  induction items generalizing start with
  | nil => simp
  | cons a items ih =>
    obtain ⟨ha, hitems⟩ := forall_mem_cons.mp hw
    have hnonneg := sum_weights_nonneg hitems
    rw [map_cons, sum_cons] at hsum ⊢
    rw [foldl_cons, wrapInt64_of_range (by omega) (by omega),
      ih hitems (by omega) (by omega), add_assoc]

/-- A sum of non-negative weights in range does not wrap. -/
theorem sumInt64_eq (hw : ∀ a ∈ items, 0 ≤ w a) (hsum : (items.map w).sum < 2 ^ 63) :
    sumInt64 w items = (items.map w).sum := by
  rw [sumInt64, foldl_wrapInt64 hw le_rfl (by omega), zero_add]

/-! ## Draws -/

/-- Passes over items until their weights exceed `r`. -/
def pickWeighted (w : α → Int) : Int → List α → Option α
  | _, [] => none
  | r, a :: items =>
    if wrapInt64 (r - w a) < 0 then some a else pickWeighted w (wrapInt64 (r - w a)) items

/-- A number below the sum hits an item of positive weight. -/
theorem exists_pickWeighted (hw : ∀ a ∈ items, 0 ≤ w a) (hsum : (items.map w).sum < 2 ^ 63)
    {r : Int} (hr : 0 ≤ r) (hlt : r < (items.map w).sum) :
    ∃ a ∈ items, 0 < w a ∧ pickWeighted w r items = some a := by
  induction items generalizing r with
  | nil =>
    rw [map_nil, sum_nil] at hlt
    omega
  | cons a items ih =>
    obtain ⟨ha, hitems⟩ := forall_mem_cons.mp hw
    have hnonneg := sum_weights_nonneg hitems
    rw [map_cons, sum_cons] at hsum hlt
    rw [pickWeighted, wrapInt64_of_range (by omega) (by omega)]
    split
    · next hneg => exact ⟨a, mem_cons_self, by omega, rfl⟩
    · next hneg =>
      obtain ⟨b, hb, hpos, hpick⟩ := ih hitems (by omega) (by omega : 0 ≤ r - w a) (by omega)
      exact ⟨b, mem_cons_of_mem _ hb, hpos, hpick⟩

/-- Every item of positive weight is hit by some number below the sum. -/
theorem pickWeighted_surjective (hw : ∀ a ∈ items, 0 ≤ w a) (hsum : (items.map w).sum < 2 ^ 63)
    {a : α} (ha : a ∈ items) (hpos : 0 < w a) :
    ∃ r, 0 ≤ r ∧ r < (items.map w).sum ∧ pickWeighted w r items = some a := by
  induction items with
  | nil => cases ha
  | cons b items ih =>
    obtain ⟨hb, hitems⟩ := forall_mem_cons.mp hw
    have hnonneg := sum_weights_nonneg hitems
    rw [map_cons, sum_cons] at hsum ⊢
    rcases mem_cons.mp ha with rfl | ha
    · refine ⟨0, le_rfl, by omega, ?_⟩
      rw [pickWeighted, wrapInt64_of_range (by omega) (by omega), if_pos (by omega)]
    · obtain ⟨r, hr, hlt, hpick⟩ := ih hitems (by omega) ha
      refine ⟨w b + r, by omega, by omega, ?_⟩
      rw [pickWeighted, wrapInt64_of_range (by omega) (by omega), if_neg (by omega),
        show w b + r - w b = r by omega]
      exact hpick

/-! ## First occurrences -/

section Distinct

variable [DecidableEq α]

/-- The values of a list in the order in which they first occur. -/
def firstOccurrences : List α → List α
  | [] => []
  | a :: l => a :: (firstOccurrences l).filter (· ≠ a)

@[simp] theorem mem_firstOccurrences {l : List α} {a : α} : a ∈ firstOccurrences l ↔ a ∈ l := by
  induction l with
  | nil => rfl
  | cons b l ih =>
    rw [firstOccurrences, mem_cons, mem_filter, ih]
    by_cases hab : a = b <;> simp [hab]

theorem nodup_firstOccurrences (l : List α) : (firstOccurrences l).Nodup := by
  induction l with
  | nil => exact nodup_nil
  | cons a l ih =>
    refine nodup_cons.mpr ⟨fun h => ?_, ih.sublist filter_sublist⟩
    exact of_decide_eq_true (mem_filter.mp h).2 rfl

/-- A list without repetitions is the list of its first occurrences. -/
theorem firstOccurrences_of_nodup {l : List α} (h : l.Nodup) : firstOccurrences l = l := by
  induction l with
  | nil => rfl
  | cons a l ih =>
    obtain ⟨ha, hl⟩ := nodup_cons.mp h
    rw [firstOccurrences, ih hl, filter_eq_self.mpr]
    intro b hb
    exact decide_eq_true fun heq => ha (heq ▸ hb)

/-- Dropping repetitions keeps the order. -/
theorem firstOccurrences_sublist (l : List α) : (firstOccurrences l).Sublist l := by
  induction l with
  | nil => exact List.Sublist.refl _
  | cons a l ih => exact (filter_sublist.trans ih).cons_cons a

end Distinct

end Prox
