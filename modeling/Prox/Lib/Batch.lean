import Mathlib.Data.List.Sort
import Mathlib.Order.Basic

/-! # Jobs that work in batches

A maintenance job repeats a batch until one is not full. Such a loop need not end: `repeatBatches`
takes a number of rounds and answers `none` when it is still running after them. The batches take
their rows from a sorted selection, so there is also the rule that sorting, which is stable, commutes
with taking rows out. `chunks` cuts a list that is written with several statements. -/

namespace Prox

open List

variable {σ E : Type}

/-- Repeats a batch until it fails, finds nothing or is not full. A batch returns how many rows it
has worked on. -/
def repeatBatches (limit : Nat) (batch : σ → (Nat × Option E) × σ) :
    Nat → σ → Option (Option E × σ)
  | 0, _ => none
  | fuel + 1, s =>
    match batch s with
    | ((_, some e), s) => some (some e, s)
    | ((n, none), s) =>
      if n = 0 then some (none, s)
      else if n < limit then some (none, s)
      else repeatBatches limit batch fuel s

section

variable {limit : Nat} {batch : σ → (Nat × Option E) × σ} {s s' : σ} {n : Nat}

/-- A batch that fails ends the loop. -/
theorem repeatBatches_error {e : E} (h : batch s = ((n, some e), s')) (fuel : Nat) :
    repeatBatches limit batch (fuel + 1) s = some (some e, s') := by
  rw [repeatBatches, h]

/-- A batch that is not full ends the loop. -/
theorem repeatBatches_last (h : batch s = ((n, none), s')) (hn : n < limit) (fuel : Nat) :
    repeatBatches limit batch (fuel + 1) s = some (none, s') := by
  rw [repeatBatches, h]
  simp [hn]

/-- After a full batch the loop goes on. -/
theorem repeatBatches_next (h : batch s = ((n, none), s')) (hn : limit ≤ n) (hlimit : 0 < limit)
    (fuel : Nat) :
    repeatBatches limit batch (fuel + 1) s = repeatBatches limit batch fuel s' := by
  rw [repeatBatches, h]
  simp [show n ≠ 0 by omega, show ¬ n < limit by omega]

/-- One round: the loop ends with an error or a batch that is not full, or it goes on. -/
theorem repeatBatches_cases (batch : σ → (Nat × Option E) × σ) (hlimit : 0 < limit) (s : σ) :
    (∀ fuel, repeatBatches limit batch (fuel + 1) s = some ((batch s).1.2, (batch s).2)) ∨
    ((batch s).1.2 = none ∧
      ∀ fuel, repeatBatches limit batch (fuel + 1) s = repeatBatches limit batch fuel (batch s).2) := by
  rcases hb : batch s with ⟨⟨n, _ | e⟩, s'⟩
  · by_cases hn : n < limit
    · exact .inl fun fuel => repeatBatches_last hb hn fuel
    · exact .inr ⟨rfl, fun fuel => repeatBatches_next hb (by omega) hlimit fuel⟩
  · exact .inl fun fuel => repeatBatches_error hb fuel

/-- More rounds do not change a result. -/
theorem repeatBatches_mono (hlimit : 0 < limit) {fuel fuel' : Nat} {r : Option E × σ}
    (hle : fuel ≤ fuel') (h : repeatBatches limit batch fuel s = some r) :
    repeatBatches limit batch fuel' s = some r := by
  induction fuel generalizing fuel' s with
  | zero => cases h
  | succ fuel ih =>
    obtain ⟨fuel', rfl⟩ : ∃ k, fuel' = k + 1 := ⟨fuel' - 1, by omega⟩
    rcases repeatBatches_cases batch hlimit s with hlast | ⟨-, hnext⟩
    · rw [hlast] at h ⊢
      exact h
    · rw [hnext] at h ⊢
      exact ih (by omega) h

/-- The loop has one result. -/
theorem repeatBatches_unique (hlimit : 0 < limit) {fuel fuel' : Nat} {r r' : Option E × σ}
    (h : repeatBatches limit batch fuel s = some r)
    (h' : repeatBatches limit batch fuel' s = some r') : r = r' := by
  have hmax := repeatBatches_mono hlimit (Nat.le_max_left fuel fuel') h
  have hmax' := repeatBatches_mono hlimit (Nat.le_max_right fuel fuel') h'
  exact Option.mem_unique hmax hmax'

/-- The invariant rule: what every successful batch keeps holds when the loop returns. -/
theorem repeatBatches_keeps (hlimit : 0 < limit) {I : σ → Prop}
    (hbatch : ∀ s, I s → (batch s).1.2 = none → I (batch s).2) {fuel : Nat} (hs : I s)
    (h : repeatBatches limit batch fuel s = some (none, s')) : I s' := by
  induction fuel generalizing s with
  | zero => cases h
  | succ fuel ih =>
    rcases repeatBatches_cases batch hlimit s with hlast | ⟨hok, hnext⟩
    · obtain ⟨hok, rfl⟩ := Prod.mk.inj (Option.some.inj ((hlast fuel).symm.trans h))
      exact hbatch s hs hok
    · rw [hnext] at h
      exact ih (hbatch s hs hok) h

end

/-! ## Stable sorting -/

section Stable

variable {α : Type} {r : α → α → Prop} [DecidableRel r]

/-- What comes before all rows is inserted in front. -/
theorem orderedInsert_of_forall {a : α} {l : List α} (h : ∀ b ∈ l, r a b) :
    l.orderedInsert r a = a :: l := by
  cases l with
  | nil => rfl
  | cons b l => rw [orderedInsert_cons, if_pos (h b mem_cons_self)]

variable (htrans : ∀ a b c, r a b → r b c → r a c)

include htrans

/-- Taking rows out of an insertion. -/
theorem filter_orderedInsert (p : α → Bool) (a : α)
    {l : List α} (hl : l.Pairwise r) :
    (l.orderedInsert r a).filter p
      = if p a then (l.filter p).orderedInsert r a else l.filter p := by
  induction l with
  | nil => cases hp : p a <;> simp [hp]
  | cons b l ih =>
    rw [pairwise_cons] at hl
    rw [orderedInsert_cons]
    by_cases hab : r a b
    · -- everything behind `b` comes after `a` as well, whether or not `b` stays
      have hall : ∀ c ∈ (b :: l).filter p, r a c := by
        intro c hc
        rcases mem_cons.mp (mem_of_mem_filter hc) with rfl | hc
        · exact hab
        · exact htrans a b c hab (hl.1 c hc)
      rw [if_pos hab, filter_cons, orderedInsert_of_forall hall]
    · rw [if_neg hab, filter_cons, ih hl.2]
      by_cases hp : p a <;> by_cases hb : p b <;> simp [hp, hb, hab]

/-- **Sorting commutes with taking rows out.** -/
theorem filter_insertionSort (htotal : ∀ a b, r a b ∨ r b a)
    (p : α → Bool) (l : List α) :
    (l.insertionSort r).filter p = (l.filter p).insertionSort r := by
  have : Std.Total r := ⟨htotal⟩
  have : IsTrans α r := ⟨htrans⟩
  induction l with
  | nil => rfl
  | cons a l ih =>
    rw [insertionSort_cons, filter_orderedInsert htrans p a (pairwise_insertionSort r l), ih,
      filter_cons]
    split
    · rw [insertionSort_cons]
    · rfl

/-- The row that a sorted query returns first comes before all the others. -/
theorem head?_insertionSort
    (htotal : ∀ a b, r a b ∨ r b a) {l : List α} {m : α}
    (h : (l.insertionSort r).head? = some m) : m ∈ l ∧ ∀ x ∈ l, r m x := by
  have : Std.Total r := ⟨htotal⟩
  have : IsTrans α r := ⟨htrans⟩
  have hsorted := pairwise_insertionSort r l
  have hperm := perm_insertionSort r l
  cases hl : l.insertionSort r with
  | nil => rw [hl] at h; cases h
  | cons a rest =>
    rw [hl, List.head?_cons, Option.some.injEq] at h
    subst h
    rw [hl] at hsorted hperm
    refine ⟨hperm.mem_iff.mp mem_cons_self, fun x hx => ?_⟩
    rcases mem_cons.mp (hperm.mem_iff.mpr hx) with rfl | hx
    · exact (htotal x x).elim id id
    · exact (pairwise_cons.mp hsorted).1 x hx

end Stable

/-! ## Chunks -/

section Chunks

variable {α : Type}

/-- At most `rounds` chunks of `n` rows, taken off the front. -/
def chunksWithin (n : Nat) : Nat → List α → List (List α)
  | 0, _ => []
  | rounds + 1, rows =>
    match rows with
    | [] => []
    | row :: rows => (row :: rows).take n :: chunksWithin n rounds ((row :: rows).drop n)

/-- The rows in chunks of `n`; only the last chunk may be shorter. -/
def chunks (n : Nat) (rows : List α) : List (List α) := chunksWithin n rows.length rows

theorem flatten_chunksWithin {n : Nat} (hn : 0 < n) {rounds : Nat} {rows : List α}
    (h : rows.length ≤ rounds) : (chunksWithin n rounds rows).flatten = rows := by
  induction rounds generalizing rows with
  | zero => rw [length_eq_zero_iff.mp (Nat.le_zero.mp h)]; rfl
  | succ rounds ih =>
    cases rows with
    | nil => rfl
    | cons row rows =>
      have hdrop : ((row :: rows).drop n).length ≤ rounds := by
        rw [length_drop]
        omega
      rw [chunksWithin, flatten_cons, ih hdrop, take_append_drop]

/-- Chunking keeps the rows and their order. -/
theorem flatten_chunks {n : Nat} (hn : 0 < n) (rows : List α) : (chunks n rows).flatten = rows :=
  flatten_chunksWithin hn le_rfl

theorem mem_of_mem_chunks {n : Nat} (hn : 0 < n) {rows chunk : List α} (hc : chunk ∈ chunks n rows)
    {row : α} (hrow : row ∈ chunk) : row ∈ rows := by
  rw [← flatten_chunks hn rows]
  exact mem_flatten_of_mem hc hrow

end Chunks

/-! ## Counting -/

/-- Rows that meet one of two conditions that exclude each other. -/
theorem countP_add_countP {α : Type} {p q r : α → Bool} (hr : ∀ a, r a = (p a || q a))
    (hdisjoint : ∀ a, p a = true → q a = true → False) (rows : List α) :
    rows.countP p + rows.countP q = rows.countP r := by
  induction rows with
  | nil => rfl
  | cons a rows ih =>
    cases hp : p a <;> cases hq : q a <;> simp_all <;> omega

/-! ## Rows that a job passes over -/

section LeftOver

variable {α : Type}

/-- What is left of a queue when a job takes batches of `k` rows off its front, works off those that
meet `p`, leaves the others where they are, and stops at the first batch with one of these. -/
def leftOver (k : Nat) (p : α → Bool) (rows : List α) : List α :=
  if _h : 0 < k ∧ k ≤ (rows.take k).countP p then leftOver k p (rows.drop k)
  else (rows.take k).filter (fun a => !p a) ++ rows.drop k
termination_by rows.length
decreasing_by
  have hcount : (rows.take k).countP p ≤ (rows.take k).length := countP_le_length
  rw [length_take] at hcount
  rw [length_drop]
  omega

/-- **When a job leaves nothing behind that it could have worked off**: no such row stands in a later
batch than a row that is passed over. -/
theorem forall_leftOver_iff {k : Nat} (hk : 0 < k) (p : α → Bool) (rows : List α) :
    (∀ a ∈ leftOver k p rows, p a = false) ↔
      ∀ i j a b, rows[i]? = some a → rows[j]? = some b → i / k < j / k → p a = false →
        p b = false := by
  induction rows using leftOver.induct k p with
  | case1 rows h ih =>
    -- a full batch: nothing in it is passed over, and the rest is shifted by one batch
    obtain ⟨-, hfull⟩ := h
    have hcount : (rows.take k).countP p ≤ (rows.take k).length := countP_le_length
    have hlen : k ≤ rows.length := by
      rw [length_take] at hcount
      omega
    have hall : ∀ a ∈ rows.take k, p a = true := by
      refine countP_eq_length.mp (le_antisymm hcount ?_)
      rw [length_take, min_eq_left hlen]
      exact hfull
    rw [leftOver, dif_pos ⟨hk, hfull⟩, ih]
    simp only [List.getElem?_drop]
    constructor
    · intro h i j a b ha hb hij hp
      have hik : k ≤ i := by
        by_contra hlt
        have hmem : a ∈ rows.take k := by
          rw [mem_iff_getElem?]
          exact ⟨i, by rw [List.getElem?_take_of_lt (by omega)]; exact ha⟩
        exact absurd ((hall a hmem).symm.trans hp) nofun
      have hjk : k ≤ j := by
        by_contra hlt
        rw [Nat.div_eq_of_lt (by omega : j < k)] at hij
        exact Nat.not_lt_zero _ hij
      obtain ⟨i, rfl⟩ := Nat.exists_eq_add_of_le hik
      obtain ⟨j, rfl⟩ := Nat.exists_eq_add_of_le hjk
      refine h i j a b ha hb ?_ hp
      rw [Nat.add_div_left _ hk, Nat.add_div_left _ hk] at hij
      omega
    · intro h i j a b ha hb hij hp
      refine h (k + i) (k + j) a b ha hb ?_ hp
      rw [Nat.add_div_left _ hk, Nat.add_div_left _ hk]
      omega
  | case2 rows h =>
    rw [leftOver, dif_neg h]
    constructor
    · intro hleft i j a b ha hb hij hp
      have hjk : k ≤ j := by
        by_contra hlt
        rw [Nat.div_eq_of_lt (by omega : j < k)] at hij
        exact Nat.not_lt_zero _ hij
      refine hleft b (mem_append_right _ ?_)
      obtain ⟨j, rfl⟩ := Nat.exists_eq_add_of_le hjk
      rw [mem_iff_getElem?]
      exact ⟨j, by rw [List.getElem?_drop]; exact hb⟩
    · intro hblocks b hb
      rcases mem_append.mp hb with hb | hb
      · simpa using (mem_filter.mp hb).2
      · -- the batch is not full, so it has a row that is passed over, or it is the whole queue
        obtain ⟨j, hj⟩ := mem_iff_getElem?.mp hb
        rw [List.getElem?_drop] at hj
        have hlen : k ≤ rows.length := by
          have := (List.getElem?_eq_some_iff.mp hj).1
          omega
        have hnot : ¬ ∀ a ∈ rows.take k, p a = true := by
          intro hall
          rw [countP_eq_length.mpr hall, length_take, min_eq_left hlen] at h
          exact h ⟨hk, le_rfl⟩
        obtain ⟨a, ha, hp⟩ : ∃ a ∈ rows.take k, p a ≠ true := by
          by_contra hno
          exact hnot fun a ha => by_contra fun hp => hno ⟨a, ha, hp⟩
        obtain ⟨i, hi⟩ := mem_iff_getElem?.mp ha
        have hik : i < k := by
          have := (List.getElem?_eq_some_iff.mp hi).1
          rw [length_take] at this
          omega
        rw [List.getElem?_take_of_lt hik] at hi
        refine hblocks i (k + j) a b hi hj ?_ (by simpa using hp)
        rw [Nat.div_eq_of_lt hik, Nat.add_div_left _ hk]
        exact Nat.succ_pos _

end LeftOver

end Prox
