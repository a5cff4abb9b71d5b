import Mathlib.Algebra.Order.BigOperators.Group.List
import Mathlib.Data.List.Nodup
import Mathlib.Data.List.Sort
import Mathlib.Tactic.Linarith

/-! # Tables with a primary key and a unique index

A relational table as the list of its rows in insertion order. The two constraints the database
enforces, distinct positive primary keys and a unique index, are fields of `Table`, so that a state
that breaks them cannot be built. The statements are the ones an ORM issues: `create` (an `INSERT`
that a unique index may refuse), `updateWhere` (an `UPDATE … WHERE` with its number of affected
rows) and lookups by either key. Each has one lemma saying how it changes the two lookups, and
`total` adds up a column over the rows of a selection. -/

namespace Prox

open List Option

/-- A record that is stored as a table row: its primary key and its unique index. -/
class Row (α : Type) (κ : outParam Type) where
  /-- The primary key column. -/
  id : α → Int
  /-- The value under the unique index. -/
  key : α → κ

/-- A table of `α` rows; no two rows share a primary key or a unique key. -/
structure Table (α : Type) {κ : Type} [Row α κ] where
  /-- The rows, oldest first. -/
  rows : List α
  /-- Primary keys are positive, so that `0` can stand for a missing reference. -/
  id_pos : ∀ r ∈ rows, 0 < Row.id r
  /-- Primary keys are distinct. -/
  id_nodup : (rows.map Row.id).Nodup
  /-- The unique index holds. -/
  key_nodup : (rows.map Row.key).Nodup

/-- A column assignment: a map on rows that touches neither key. -/
structure Patch (α : Type) {κ : Type} [Row α κ] where
  /-- The row after the assignment. -/
  apply : α → α
  /-- The primary key is kept. -/
  id_apply : ∀ r, Row.id (apply r) = Row.id r
  /-- The unique key is kept. -/
  key_apply : ∀ r, Row.key (apply r) = Row.key r

namespace Table

variable {α κ : Type} [Row α κ]
variable {t t' : Table α}

/-- Two tables with the same rows are equal. -/
@[ext] theorem ext (h : t.rows = t'.rows) : t = t' := by
  cases t; cases t'; cases h; rfl

/-- The table without rows. -/
def empty : Table α := ⟨[], by simp, by simp, by simp⟩

@[simp] theorem rows_empty : (empty : Table α).rows = [] := rfl

/-- The next value of the auto-increment column. -/
def nextId (t : Table α) : Int := (t.rows.map Row.id).foldr max 0 + 1

theorem le_foldr_max {l : List Int} {a : Int} (h : a ∈ l) : a ≤ l.foldr max 0 := by
  induction l with
  | nil => cases h
  | cons b l ih =>
    rcases mem_cons.mp h with rfl | h
    · exact le_max_left _ _
    · exact (ih h).trans (le_max_right _ _)

theorem foldr_max_nonneg (l : List Int) : 0 ≤ l.foldr max 0 := by
  induction l with
  | nil => rfl
  | cons b l ih => exact ih.trans (le_max_right _ _)

theorem nextId_pos (t : Table α) : 0 < t.nextId := by
  have := foldr_max_nonneg (t.rows.map Row.id)
  rw [nextId]; omega

variable {r x : α}

/-- Every stored primary key is below the next one. -/
theorem id_lt_nextId (h : r ∈ t.rows) : Row.id r < t.nextId := by
  have := le_foldr_max (List.mem_map_of_mem (f := Row.id) h)
  rw [nextId]; omega

/-- `SELECT … WHERE key = k`, at most one row. -/
def byKey [DecidableEq κ] (t : Table α) (k : κ) : Option α := t.rows.find? (fun r => Row.key r = k)

/-- `SELECT … WHERE id = i`, at most one row. -/
def byId (t : Table α) (i : Int) : Option α := t.rows.find? (fun r => Row.id r = i)

/-- A row that an injective column identifies is the one `find?` returns. -/
theorem find?_eq_some_iff_of_nodup {β : Type} [DecidableEq β] {f : α → β} {l : List α}
    (h : (l.map f).Nodup) {b : β} : l.find? (fun x => f x = b) = some r ↔ r ∈ l ∧ f r = b := by
  induction l with
  | nil => simp
  | cons x l ih =>
    rw [map_cons, nodup_cons] at h
    by_cases hx : f x = b
    · have hnot : ∀ y ∈ l, f y ≠ b := fun y hy hyb =>
        h.1 (List.mem_map.mpr ⟨y, hy, hyb.trans hx.symm⟩)
      simp only [List.find?_cons, hx, decide_true, Option.some.injEq, mem_cons]
      constructor
      · rintro rfl; exact ⟨.inl rfl, hx⟩
      · rintro ⟨rfl | hr, hb⟩
        · rfl
        · exact absurd hb (hnot r hr)
    · simp only [List.find?_cons, hx, decide_false, mem_cons, ih h.2]
      constructor
      · rintro ⟨hr, hb⟩; exact ⟨.inr hr, hb⟩
      · rintro ⟨rfl | hr, hb⟩
        · exact absurd hb hx
        · exact ⟨hr, hb⟩

section Lookup

variable [DecidableEq κ]

theorem byKey_eq_some {t : Table α} {k : κ} {r : α} :
    t.byKey k = some r ↔ r ∈ t.rows ∧ Row.key r = k :=
  find?_eq_some_iff_of_nodup t.key_nodup

theorem byKey_eq_none {t : Table α} {k : κ} :
    t.byKey k = none ↔ ∀ r ∈ t.rows, Row.key r ≠ k := by
  simp [byKey]

end Lookup

theorem byId_eq_some {i : Int} : t.byId i = some r ↔ r ∈ t.rows ∧ Row.id r = i :=
  find?_eq_some_iff_of_nodup t.id_nodup

/-- A primary key determines its row. -/
theorem eq_of_id_eq {r' : α} (h : r ∈ t.rows) (h' : r' ∈ t.rows) (hid : Row.id r = Row.id r') :
    r = r' := by
  have h₁ := byId_eq_some.mpr ⟨h, rfl⟩
  have h₂ := byId_eq_some.mpr ⟨h', hid.symm⟩
  rw [h₁] at h₂
  exact Option.some.inj h₂

/-- A unique key determines its row. -/
theorem eq_of_key_eq {r' : α} (h : r ∈ t.rows) (h' : r' ∈ t.rows) (hkey : Row.key r = Row.key r') :
    r = r' :=
  inj_on_of_nodup_map t.key_nodup h h' hkey

/-! ## `INSERT` -/

section Create

variable [DecidableEq κ]

/-- `INSERT`: appends the row, or returns `none` when a unique constraint refuses it. -/
def create (t : Table α) (r : α) : Option (Table α) :=
  if h : 0 < Row.id r ∧ (∀ x ∈ t.rows, Row.id x ≠ Row.id r) ∧ (∀ x ∈ t.rows, Row.key x ≠ Row.key r)
  then some
    { rows := t.rows ++ [r]
      id_pos := by
        intro x hx
        rcases mem_append.mp hx with hx | hx
        · exact t.id_pos x hx
        · rw [mem_singleton.mp hx]; exact h.1
      id_nodup := by
        rw [map_append, nodup_append]
        refine ⟨t.id_nodup, nodup_singleton _, fun a ha b hb => ?_⟩
        obtain ⟨x, hx, rfl⟩ := List.mem_map.mp ha
        rw [mem_singleton.mp hb]
        exact h.2.1 x hx
      key_nodup := by
        rw [map_append, nodup_append]
        refine ⟨t.key_nodup, nodup_singleton _, fun a ha b hb => ?_⟩
        obtain ⟨x, hx, rfl⟩ := List.mem_map.mp ha
        rw [mem_singleton.mp hb]
        exact h.2.2 x hx }
  else none

/-- `INSERT … ON CONFLICT DO NOTHING`: the table afterwards and the number of rows inserted. -/
def insertIgnore (t : Table α) (r : α) : Table α × Nat :=
  match t.create r with
  | none => (t, 0)
  | some t' => (t', 1)

/-- An ignored insertion leaves the table alone, a performed one is an `INSERT`. -/
theorem insertIgnore_cases (t : Table α) (r : α) :
    (t.create r = none ∧ t.insertIgnore r = (t, 0)) ∨
      ∃ t', t.create r = some t' ∧ t.insertIgnore r = (t', 1) := by
  unfold insertIgnore
  cases h : t.create r with
  | none => exact .inl ⟨rfl, rfl⟩
  | some t' => exact .inr ⟨t', rfl, rfl⟩

theorem rows_of_create (h : t.create r = some t') : t'.rows = t.rows ++ [r] := by
  unfold create at h
  split at h
  · cases h; rfl
  · cases h

theorem mem_of_create (h : t.create r = some t') {x : α} :
    x ∈ t'.rows ↔ x ∈ t.rows ∨ x = r := by
  rw [rows_of_create h, mem_append, mem_singleton]

/-- An inserted row had a free unique key. -/
theorem byKey_none_of_create (h : t.create r = some t') : t.byKey (Row.key r) = none := by
  unfold create at h
  split at h
  · next hc => exact byKey_eq_none.mpr hc.2.2
  · cases h

/-- A row with the next auto-increment key is refused only by the unique index. -/
theorem create_eq_none (hid : Row.id r = t.nextId) :
    t.create r = none ↔ ∃ x, t.byKey (Row.key r) = some x := by
  have hpos : 0 < Row.id r := hid ▸ nextId_pos t
  have hne : ∀ x ∈ t.rows, Row.id x ≠ Row.id r := fun x hx => by
    have := id_lt_nextId hx
    omega
  have hiff : t.create r = none ↔ ¬ ∀ x ∈ t.rows, Row.key x ≠ Row.key r := by
    unfold create
    split
    · next hc => simpa using hc.2.2
    · next hc => simpa using fun hk => hc ⟨hpos, hne, hk⟩
  rw [hiff, ← byKey_eq_none, ← isSome_iff_exists, isSome_iff_ne_none]

/-- A row with the next auto-increment key and a free unique key is inserted. -/
theorem exists_create (hid : Row.id r = t.nextId) (hkey : t.byKey (Row.key r) = none) :
    ∃ t', t.create r = some t' := by
  rw [← ne_none_iff_exists', ne_eq, create_eq_none hid, hkey]
  rintro ⟨x, hx⟩
  cases hx

theorem byKey_of_create (h : t.create r = some t') (k : κ) :
    t'.byKey k = if Row.key r = k then some r else t.byKey k := by
  have hnone := byKey_none_of_create h
  unfold byKey at hnone ⊢
  rw [rows_of_create h]
  by_cases hk : Row.key r = k
  · rw [hk] at hnone
    simp [hnone, hk]
  · simp [hk]

/-- A row found before an insertion is found after it. -/
theorem byKey_create_of_some (h : t.create r = some t') {k : κ} {x : α} (hx : t.byKey k = some x) :
    t'.byKey k = some x := by
  have hne : Row.key r ≠ k := by
    rintro rfl
    rw [byKey_none_of_create h] at hx
    cases hx
  exact (byKey_of_create h k).trans ((if_neg hne).trans hx)

/-- A taken key is not inserted again. -/
theorem insertIgnore_of_byKey {x : α} (hx : t.byKey (Row.key r) = some x) :
    t.insertIgnore r = (t, 0) := by
  rcases insertIgnore_cases t r with ⟨-, heq⟩ | ⟨t', hcreate, -⟩
  · exact heq
  · rw [byKey_none_of_create hcreate] at hx
    cases hx

/-- Whether or not it inserts, an insertion that may be ignored leaves its key taken. -/
theorem exists_byKey_insertIgnore (t : Table α) {r : α} (hid : Row.id r = t.nextId) :
    ∃ x, (t.insertIgnore r).1.byKey (Row.key r) = some x := by
  rcases insertIgnore_cases t r with ⟨hnone, heq⟩ | ⟨t', hcreate, heq⟩
  · rw [heq]
    exact (create_eq_none hid).mp hnone
  · rw [heq]
    exact ⟨r, (byKey_of_create hcreate _).trans (if_pos rfl)⟩

/-- The row found under the key of an insertion that may be ignored was there, or it is the new one; other
keys find what they did. -/
theorem byKey_insertIgnore {x : α} (h : (t.insertIgnore r).1.byKey (Row.key r) = some x) :
    (t.byKey (Row.key r) = some x ∨ t.byKey (Row.key r) = none ∧ x = r) ∧
      ∀ k ≠ Row.key r, (t.insertIgnore r).1.byKey k = t.byKey k := by
  rcases insertIgnore_cases t r with ⟨-, heq⟩ | ⟨t', hcreate, heq⟩
  · rw [heq] at h ⊢
    exact ⟨.inl h, fun _ _ => rfl⟩
  · rw [heq] at h ⊢
    refine ⟨.inr ⟨byKey_none_of_create hcreate, ?_⟩, fun k hk => ?_⟩
    · rw [byKey_of_create hcreate, if_pos rfl] at h
      exact (Option.some.inj h).symm
    · rw [byKey_of_create hcreate, if_neg (Ne.symm hk)]

theorem byId_of_create (h : t.create r = some t') {i : Int} (hi : i ≠ Row.id r) :
    t'.byId i = t.byId i := by
  unfold byId
  rw [rows_of_create h]
  simp [hi.symm]

end Create

/-! ## `SELECT … ORDER BY … LIMIT` -/

/-- `SELECT … WHERE p ORDER BY r LIMIT n`. -/
def page (t : Table α) (p : α → Bool) (r : α → α → Prop) [DecidableRel r] (n : Nat) : List α :=
  ((t.rows.filter p).insertionSort r).take n

/-- In a list where the earlier are related to the later and not the other way round, an element is among the
first exactly when few are related to it. -/
theorem mem_take_iff_countP_lt {β : Type} (lt : β → β → Prop) [DecidableRel lt] {l : List β} {n : Nat} {x : β}
    (hl : l.Pairwise fun a b => lt a b ∧ ¬ lt b a) (hirrefl : ∀ a ∈ l, ¬ lt a a) :
    x ∈ l.take n ↔ x ∈ l ∧ l.countP (fun a => lt a x) < n := by
  induction l generalizing n with
  | nil => simp
  | cons a l ih =>
    obtain ⟨ha, hl⟩ := pairwise_cons.mp hl
    obtain ⟨hirrefl_a, hirrefl⟩ := forall_mem_cons.mp hirrefl
    cases n with
    | zero => simp
    | succ n =>
      rw [take_succ_cons, mem_cons, ih hl hirrefl]
      by_cases hx : x = a
      · -- the first element has none before it
        subst hx
        have hnone : l.countP (fun b => lt b x) = 0 := countP_eq_zero.mpr fun b hb => by
          simpa using (ha b hb).2
        simp [hnone, hirrefl_a]
      · by_cases hmem : x ∈ l
        · simp [hx, (ha x hmem).1]
        · simp [hx, hmem]

variable {p q : α → Bool}

/-- A row is on a page exactly when it is selected and few of the selected rows come before it. -/
theorem mem_page {r : α → α → Prop} [DecidableRel r] [Std.Total r] [IsTrans α r]
    (hanti : ∀ x ∈ t.rows, ∀ y ∈ t.rows, r x y → r y x → Row.id x = Row.id y) {n : Nat} :
    x ∈ t.page p r n ↔
      (x ∈ t.rows ∧ p x) ∧ t.rows.countP (fun y => p y ∧ r y x ∧ Row.id y ≠ Row.id x) < n := by
  unfold page
  have hperm := perm_insertionSort r (t.rows.filter p)
  have hsub : ∀ y ∈ (t.rows.filter p).insertionSort r, y ∈ t.rows := fun y hy =>
    (mem_filter.mp (hperm.mem_iff.mp hy)).1
  have hnodup : ((t.rows.filter p).insertionSort r).Pairwise (Row.id · ≠ Row.id ·) := by
    have hids : ((t.rows.filter p).map Row.id).Nodup := t.id_nodup.sublist (filter_sublist.map _)
    exact (pairwise_map.mp ((hperm.map Row.id).nodup_iff.mpr hids))
  have hsorted : ((t.rows.filter p).insertionSort r).Pairwise
      fun a b => (r a b ∧ Row.id a ≠ Row.id b) ∧ ¬ (r b a ∧ Row.id b ≠ Row.id a) := by
    refine ((pairwise_insertionSort r _).and hnodup).imp_of_mem fun {a b} ha hb hab => ⟨hab, fun hba => ?_⟩
    exact hab.2 (hanti a (hsub a ha) b (hsub b hb) hab.1 hba.1)
  rw [mem_take_iff_countP_lt (fun a b => r a b ∧ Row.id a ≠ Row.id b) hsorted (fun a _ h => h.2 rfl),
    hperm.countP_eq, countP_filter, hperm.mem_iff, mem_filter]
  refine and_congr_right fun _ => ?_
  rw [countP_congr fun y _ => ?_]
  simp [and_comm]

/-! ## `DELETE … WHERE` -/

/-- `DELETE … WHERE p`. -/
def deleteWhere (t : Table α) (p : α → Bool) : Table α :=
  ⟨t.rows.filter (fun r => !p r),
    fun r hr => t.id_pos r (mem_of_mem_filter hr),
    t.id_nodup.sublist (filter_sublist.map _),
    t.key_nodup.sublist (filter_sublist.map _)⟩

@[simp] theorem rows_deleteWhere (t : Table α) (p : α → Bool) :
    (t.deleteWhere p).rows = t.rows.filter (fun r => !p r) := rfl

theorem mem_deleteWhere : r ∈ (t.deleteWhere p).rows ↔ r ∈ t.rows ∧ p r = false := by
  rw [rows_deleteWhere, mem_filter, Bool.not_eq_true']

/-- The deletion of the row under a key leaves the other keys alone. -/
theorem byKey_deleteWhere_key [DecidableEq κ] (t : Table α) (k₀ k : κ) :
    (t.deleteWhere (Row.key · = k₀)).byKey k = if k = k₀ then none else t.byKey k := by
  split
  · next h =>
    refine byKey_eq_none.mpr fun r hr => ?_
    rw [h]
    exact of_decide_eq_false (mem_deleteWhere.mp hr).2
  · next h =>
    refine Option.ext fun r => ?_
    rw [byKey_eq_some, byKey_eq_some, mem_deleteWhere, and_assoc]
    refine and_congr_right fun _ => ⟨And.right, fun hk => ⟨?_, hk⟩⟩
    rw [hk]
    exact decide_eq_false h

/-! ## `UPDATE … WHERE` -/

/-- `UPDATE … SET f WHERE p`: the table afterwards and the number of rows the condition matched. -/
def updateWhere (t : Table α) (p : α → Bool) (f : Patch α) : Table α × Nat :=
  (⟨t.rows.map (fun r => if p r then f.apply r else r),
    by
      intro x hx
      obtain ⟨r, hr, rfl⟩ := List.mem_map.mp hx
      split
      · rw [f.id_apply]; exact t.id_pos r hr
      · exact t.id_pos r hr,
    by
      rw [List.map_map]
      have : (Row.id ∘ fun r => if p r then f.apply r else r) = (Row.id : α → Int) := by
        funext r; simp only [Function.comp]; split <;> simp [f.id_apply]
      rw [this]; exact t.id_nodup,
    by
      rw [List.map_map]
      have : (Row.key ∘ fun r => if p r then f.apply r else r) = (Row.key : α → κ) := by
        funext r; simp only [Function.comp]; split <;> simp [f.key_apply]
      rw [this]; exact t.key_nodup⟩,
   t.rows.countP p)

variable {f : Patch α}

@[simp] theorem rows_updateWhere :
    (t.updateWhere p f).1.rows = t.rows.map (fun r => if p r then f.apply r else r) := rfl

theorem byKey_updateWhere [DecidableEq κ] (k : κ) :
    (t.updateWhere p f).1.byKey k = (t.byKey k).map (fun r => if p r then f.apply r else r) := by
  unfold byKey
  rw [rows_updateWhere, List.find?_map]
  congr 2
  funext r
  simp only [Function.comp]
  split <;> simp [f.key_apply]

/-- An update of the row under a key changes what that key finds. -/
theorem byKey_updateWhere_key [DecidableEq κ] (k₀ k : κ) :
    (t.updateWhere (Row.key · = k₀) f).1.byKey k
      = if k = k₀ then (t.byKey k).map f.apply else t.byKey k := by
  rw [byKey_updateWhere]
  cases hrow : t.byKey k with
  | none => simp
  | some r =>
    have hkey : Row.key r = k := (byKey_eq_some.mp hrow).2
    simp only [map_some, hkey, decide_eq_true_eq]
    split <;> rfl

/-- An update keeps every key where it is. -/
theorem exists_byKey_updateWhere [DecidableEq κ] {k : κ} (hx : t.byKey k = some x) :
    ∃ y, (t.updateWhere p f).1.byKey k = some y ∧ Row.id y = Row.id x := by
  refine ⟨if p x then f.apply x else x, ?_, ?_⟩
  · rw [byKey_updateWhere, hx, map_some]
  · split <;> simp [f.id_apply]

theorem byId_updateWhere (i : Int) :
    (t.updateWhere p f).1.byId i = (t.byId i).map (fun r => if p r then f.apply r else r) := by
  unfold byId
  rw [rows_updateWhere, List.find?_map]
  congr 2
  funext r
  simp only [Function.comp]
  split <;> simp [f.id_apply]

/-- An update moves no auto-increment key. -/
@[simp] theorem nextId_updateWhere : (t.updateWhere p f).1.nextId = t.nextId := by
  have hids : (t.updateWhere p f).1.rows.map Row.id = t.rows.map Row.id := by
    rw [rows_updateWhere, List.map_map]
    refine map_congr_left fun r _ => ?_
    simp only [Function.comp]
    split <;> simp [f.id_apply]
  rw [nextId, hids, nextId]

/-- Only the rows of the table matter to a condition. -/
theorem updateWhere_congr {p' : α → Bool} (h : ∀ r ∈ t.rows, p r = p' r) :
    t.updateWhere p f = t.updateWhere p' f := by
  refine Prod.ext (Table.ext ?_) ?_
  · refine map_congr_left fun r hr => ?_
    rw [h r hr]
  · exact countP_congr fun r hr => by rw [h r hr]

/-- An update that matches no row changes nothing. -/
theorem updateWhere_of_rowsAffected_eq_zero (h : (t.updateWhere p f).2 = 0) :
    (t.updateWhere p f).1 = t := by
  have hnot : ∀ r ∈ t.rows, ¬ p r = true := countP_eq_zero.mp h
  refine Table.ext ((map_congr_left fun r hr => ?_).trans (List.map_id' t.rows))
  rw [if_neg (hnot r hr)]

/-- An assignment of what the rows already hold changes nothing. -/
theorem updateWhere_self (h : ∀ r ∈ t.rows, p r = true → f.apply r = r) :
    (t.updateWhere p f).1 = t := by
  refine Table.ext ((map_congr_left fun r hr => ?_).trans (List.map_id' t.rows))
  split
  · next hp => exact h r hr hp
  · rfl

/-- An assignment to the row with a key changes nothing if it does not change that row. -/
theorem updateWhere_byId_self {i : Int} (h : ∀ r ∈ t.byId i, f.apply r = r) :
    (t.updateWhere (fun r => Row.id r = i) f).1 = t :=
  updateWhere_self fun r hr hid => h r (byId_eq_some.mpr ⟨hr, of_decide_eq_true hid⟩)

/-- An update that matches a row matches a stored one. -/
theorem exists_of_rowsAffected_ne_zero (h : (t.updateWhere p f).2 ≠ 0) :
    ∃ r ∈ t.rows, p r = true := by
  have hpos : 0 < t.rows.countP p := Nat.pos_of_ne_zero h
  exact countP_pos_iff.mp hpos

/-- A condition on the row that a primary key selects can be dropped when that row meets it. -/
theorem updateWhere_and (hr : r ∈ t.rows) {c : α → Prop} [DecidablePred c] (hc : c r) :
    t.updateWhere (fun x => Row.id x = Row.id r ∧ c x) f
      = t.updateWhere (fun x => Row.id x = Row.id r) f := by
  refine updateWhere_congr fun x hx => ?_
  by_cases hxr : Row.id x = Row.id r
  · simp [eq_of_id_eq hx hr hxr, hc]
  · simp [hxr]

/-- An update that matches one stored row replaces that row and no other. -/
theorem byKey_updateWhere_single [DecidableEq κ] (hr : r ∈ t.rows) (hp : p r = true)
    (honly : ∀ x, p x = true → Row.id x = Row.id r) (k : κ) :
    (t.updateWhere p f).1.byKey k = if Row.key r = k then some (f.apply r) else t.byKey k := by
  rw [byKey_updateWhere]
  by_cases hk : Row.key r = k
  · rw [if_pos hk, byKey_eq_some.mpr ⟨hr, hk⟩, map_some, if_pos hp]
  · rw [if_neg hk]
    cases hx : t.byKey k with
    | none => rfl
    | some x =>
      obtain ⟨hxm, hxk⟩ := byKey_eq_some.mp hx
      have hpx : ¬ p x = true := fun h => by
        have := eq_of_id_eq hxm hr (honly x h)
        exact hk (this ▸ hxk)
      rw [map_some, if_neg hpx]

/-- Assigning columns of the row just inserted is inserting the assigned row. -/
theorem create_updateWhere [DecidableEq κ] (h : t.create r = some t') (f : Patch α)
    (hp : ∀ x, p x = true ↔ Row.id x = Row.id r) :
    t.create (f.apply r) = some (t'.updateWhere p f).1 := by
  have hrows := rows_of_create h
  unfold create at h ⊢
  split at h
  · next hc =>
    rw [dif_pos (by simpa only [f.id_apply, f.key_apply] using hc)]
    refine congrArg some (Table.ext ?_)
    rw [rows_updateWhere, hrows, map_append, map_singleton, if_pos ((hp r).mpr rfl)]
    refine congrArg (· ++ [f.apply r]) ?_
    refine (List.map_id' t.rows).symm.trans (map_congr_left fun x hx => ?_)
    rw [if_neg fun h => hc.2.1 x hx ((hp x).mp h)]
  · cases h

/-- A condition that pins down the primary key of a stored row and holds of it matches one row. -/
theorem rowsAffected_eq_one (hr : r ∈ t.rows) (hp : p r = true)
    (honly : ∀ x, p x = true → Row.id x = Row.id r) : (t.updateWhere p f).2 = 1 := by
  show t.rows.countP p = 1
  have hcount : t.rows.countP p = (t.rows.map Row.id).count (Row.id r) := by
    rw [List.count, countP_map]
    refine countP_congr fun x hx => ?_
    constructor
    · intro h; simpa using honly x h
    · intro h
      rw [eq_of_id_eq hx hr (by simpa using h)]; exact hp
  rw [hcount]
  exact count_eq_one_of_mem t.id_nodup (List.mem_map_of_mem hr)

/-! ## Aggregates -/

/-- `SELECT COALESCE(SUM(w), 0) … WHERE p`. -/
def total (t : Table α) (p : α → Bool) (w : α → Int) : Int := ((t.rows.filter p).map w).sum

@[simp] theorem total_empty (p : α → Bool) (w : α → Int) : (empty : Table α).total p w = 0 := rfl

theorem total_of_rows_nil (h : t.rows = []) (p : α → Bool) (w : α → Int) : t.total p w = 0 := by
  simp [total, h]

/-- An insertion adds the new row's value when the selection includes it. -/
theorem total_of_create [DecidableEq κ] (h : t.create r = some t') (q : α → Bool) (w : α → Int) :
    t'.total q w = t.total q w + if q r then w r else 0 := by
  unfold total
  rw [rows_of_create h, filter_append, map_append]
  cases hq : q r <;> simp [hq]

/-- An assignment that keeps the selection and the summed column keeps the sum. -/
theorem total_updateWhere {w : α → Int} (hq : ∀ r, q (f.apply r) = q r)
    (hw : ∀ r, w (f.apply r) = w r) : (t.updateWhere p f).1.total q w = t.total q w := by
  unfold total
  rw [rows_updateWhere]
  induction t.rows with
  | nil => rfl
  | cons r l ih =>
    by_cases hp : p r <;> cases hqr : q r <;> simp [hp, hq, hw, hqr, ih]

/-- Only the rows of the table matter to a selection. -/
theorem total_congr {q' : α → Bool} (w : α → Int) (h : ∀ r ∈ t.rows, q r = q' r) :
    t.total q w = t.total q' w := by
  unfold total
  rw [filter_congr h]

/-- A non-negative column sums to at least each of its entries. -/
theorem le_total {w : α → Int} (hw : ∀ r ∈ t.rows, 0 ≤ w r) (hr : r ∈ t.rows) (hq : q r = true) :
    w r ≤ t.total q w := by
  refine single_le_sum ?_ _ (List.mem_map_of_mem (mem_filter.mpr ⟨hr, hq⟩))
  intro x hx
  obtain ⟨y, hy, rfl⟩ := List.mem_map.mp hx
  exact hw y (mem_filter.mp hy).1

/-- Assigning columns of one row exchanges its contribution to a sum. -/
theorem total_updateWhere_id {f : Patch α} (q : α → Bool) (w : α → Int) (hr : r ∈ t.rows)
    (hp : ∀ x, p x = true ↔ Row.id x = Row.id r) :
    (t.updateWhere p f).1.total q w
      = t.total q w - (if q r then w r else 0) + (if q (f.apply r) then w (f.apply r) else 0) := by
  obtain ⟨before, after, hsplit⟩ := append_of_mem hr
  have hnodup := t.id_nodup
  rw [hsplit, map_append, nodup_append] at hnodup
  obtain ⟨-, hafter, hdisj⟩ := hnodup
  -- the rows around `r` have other primary keys and are kept
  have hkeep : ∀ l : List α, (∀ x ∈ l, Row.id x ≠ Row.id r) →
      l.map (fun x => if p x then f.apply x else x) = l := by
    intro l hl
    refine (map_congr_left fun x hx => ?_).trans (List.map_id' l)
    rw [if_neg fun h => hl x hx ((hp x).mp h)]
  have hbefore' := hkeep before fun x hx h =>
    hdisj _ (List.mem_map_of_mem hx) _ mem_cons_self h
  have hafter' := hkeep after fun x hx h =>
    (nodup_cons.mp hafter).1 (h ▸ List.mem_map_of_mem hx)
  unfold total
  rw [rows_updateWhere, hsplit, map_append, map_cons, hbefore', hafter',
    if_pos ((hp r).mpr rfl)]
  by_cases hq : q r <;> by_cases hq' : q (f.apply r) <;> simp [hq, hq'] <;> omega

/-- A selection that no row meets sums to zero. -/
theorem total_eq_zero (w : α → Int) (h : ∀ r ∈ t.rows, q r = false) : t.total q w = 0 := by
  unfold total
  rw [filter_eq_nil_iff.mpr (fun r hr => by simp [h r hr])]
  rfl

/-- A column that is zero on a selection sums to zero. -/
theorem total_eq_zero_of_weight (q : α → Bool) (w : α → Int)
    (h : ∀ r ∈ t.rows, q r = true → w r = 0) : t.total q w = 0 := by
  refine sum_eq_zero fun x hx => ?_
  obtain ⟨r, hr, rfl⟩ := List.mem_map.mp hx
  exact h r (mem_filter.mp hr).1 (mem_filter.mp hr).2

/-- An inserted row has a new primary key. -/
theorem id_ne_of_create [DecidableEq κ] (h : t.create r = some t') (hx : x ∈ t.rows) :
    Row.id x ≠ Row.id r := by
  intro heq
  have hnodup := t'.id_nodup
  rw [rows_of_create h, map_append, nodup_append] at hnodup
  exact hnodup.2.2 _ (List.mem_map_of_mem hx) _ (mem_singleton.mpr rfl) heq

end Table

end Prox
