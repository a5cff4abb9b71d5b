import Mathlib.Data.List.Nodup

/-! # Derived tables

A table whose rows are derived from the rows of another one and kept up to date by hand. Which rows
belong to which is a relation, `Derivation.Derives`, and every derived row names the base row it
belongs to. `MirrorsOn P` says that the derived table is right for the owners in `P`: a change of the
base table shrinks `P` by the rows it writes, and each statement on the derived table gives owners
back. `insertAll` is the `INSERT … ON CONFLICT DO NOTHING` such tables are filled with. -/

namespace Prox

open List

/-! ## Mirrors -/

/-- How the rows `ι` of a derived table follow from the rows `β` of a base table. -/
structure Derivation (β ι κ : Type) where
  /-- The primary key of a base row. -/
  id : β → κ
  /-- The base row a derived row belongs to. -/
  owner : ι → κ
  /-- The derived rows of a base row. -/
  Derives : ι → β → Prop
  /-- A derived row names its base row. -/
  owner_eq : ∀ a b, Derives a b → owner a = id b

namespace Derivation

variable {β ι κ : Type} {d : Derivation β ι κ} {P Q : κ → Prop} {base base' : List β}
  {index index' : List ι}

/-- The derived table is right for the owners in `P`: it holds their derived rows and no others. -/
def MirrorsOn (d : Derivation β ι κ) (P : κ → Prop) (base : List β) (index : List ι) : Prop :=
  ∀ a, P (d.owner a) → (a ∈ index ↔ ∃ b ∈ base, d.Derives a b)

/-- The derived table is right. -/
def Mirrors (d : Derivation β ι κ) (base : List β) (index : List ι) : Prop :=
  ∀ a, a ∈ index ↔ ∃ b ∈ base, d.Derives a b

theorem MirrorsOn.mono (h : d.MirrorsOn P base index) (hQ : ∀ k, Q k → P k) :
    d.MirrorsOn Q base index :=
  fun a ha => h a (hQ _ ha)

/-- A mirror that is right for every owner is right. -/
theorem MirrorsOn.mirrors (h : d.MirrorsOn P base index) (hP : ∀ k, P k) : d.Mirrors base index :=
  fun a => h a (hP _)

/-- A right mirror is right for some owners. -/
theorem Mirrors.on (h : d.Mirrors base index) (P : κ → Prop) : d.MirrorsOn P base index :=
  fun a _ => h a

/-- A change of other base rows does not matter. -/
theorem MirrorsOn.base_change (h : d.MirrorsOn P base index)
    (hbase : ∀ b, P (d.id b) → (b ∈ base' ↔ b ∈ base)) : d.MirrorsOn P base' index := by
  intro a ha
  rw [h a ha]
  refine exists_congr fun b => and_congr_left fun hab => ?_
  rw [hbase b (d.owner_eq a b hab ▸ ha)]

/-- Writing the derived rows of one base row anew gives this row back. -/
theorem MirrorsOn.rebuild (h : d.MirrorsOn P base index) {b : β} (hb : b ∈ base)
    (honly : ∀ b' ∈ base, d.id b' = d.id b → b' = b)
    (hindex : ∀ a, a ∈ index' ↔ (a ∈ index ∧ d.owner a ≠ d.id b) ∨ d.Derives a b) :
    d.MirrorsOn (fun k => P k ∨ k = d.id b) base index' := by
  intro a ha
  rw [hindex]
  by_cases hown : d.owner a = d.id b
  · -- a row of the rebuilt owner is there because it was just written
    constructor
    · rintro (⟨-, hne⟩ | hab)
      · exact absurd hown hne
      · exact ⟨b, hb, hab⟩
    · rintro ⟨b', hb', hab⟩
      rw [honly b' hb' ((d.owner_eq a b' hab).symm.trans hown)] at hab
      exact .inr hab
  · rw [h a (ha.resolve_right hown)]
    constructor
    · rintro (⟨hmem, -⟩ | hab)
      · exact hmem
      · exact absurd (d.owner_eq a b hab) hown
    · exact fun hmem => .inl ⟨hmem, hown⟩

/-- Dropping the derived rows of base rows that are gone gives these owners back. -/
theorem MirrorsOn.delete (h : d.MirrorsOn P base index) {D : κ → Prop}
    (hbase : ∀ b ∈ base, ¬ D (d.id b))
    (hindex : ∀ a, a ∈ index' ↔ a ∈ index ∧ ¬ D (d.owner a)) :
    d.MirrorsOn (fun k => P k ∨ D k) base index' := by
  intro a ha
  rw [hindex]
  by_cases hown : D (d.owner a)
  · refine iff_of_false (fun h => h.2 hown) ?_
    rintro ⟨b, hb, hab⟩
    exact hbase b hb (d.owner_eq a b hab ▸ hown)
  · rw [h a (ha.resolve_right hown), and_iff_left hown]

/-- The same assignment on both tables keeps the mirror right. -/
theorem Mirrors.map (h : d.Mirrors base index) {f : β → β} {g : ι → ι}
    (hfg : ∀ b ∈ base, ∀ a, d.Derives a (f b) ↔ ∃ a', d.Derives a' b ∧ g a' = a) :
    d.Mirrors (base.map f) (index.map g) := by
  intro a
  simp only [mem_map]
  constructor
  · rintro ⟨a', ha', rfl⟩
    obtain ⟨b, hb, hab⟩ := (h a').mp ha'
    exact ⟨f b, ⟨b, hb, rfl⟩, (hfg b hb _).mpr ⟨a', hab, rfl⟩⟩
  · rintro ⟨_, ⟨b, hb, rfl⟩, hab⟩
    obtain ⟨a', hab', rfl⟩ := (hfg b hb a).mp hab
    exact ⟨a', (h a').mpr ⟨b, hb, hab'⟩, rfl⟩

end Derivation

/-! ## `INSERT … ON CONFLICT DO NOTHING` -/

section Insert

variable {ι π : Type} [DecidableEq π] (key : ι → π)

/-- Inserts a row unless its key is taken. -/
def insertNew (table : List ι) (row : ι) : List ι :=
  if key row ∈ table.map key then table else table ++ [row]

/-- Inserts rows one after the other, those whose key is taken excepted. -/
def insertAll (table rows : List ι) : List ι := rows.foldl (insertNew key) table

variable {key} {table rows : List ι} {a : ι}

theorem insertAll_append (table rows rows' : List ι) :
    insertAll key table (rows ++ rows') = insertAll key (insertAll key table rows) rows' :=
  foldl_append

/-- Keys stay unique. -/
theorem nodup_insertAll (h : (table.map key).Nodup) : ((insertAll key table rows).map key).Nodup := by
  induction rows generalizing table with
  | nil => exact h
  | cons row rows ih =>
    refine ih ?_
    unfold insertNew
    split
    · exact h
    · next hnew =>
      rw [map_append]
      exact nodup_append.mpr ⟨h, nodup_singleton _, fun x hx y hy hxy =>
        hnew (mem_singleton.mp hy ▸ hxy ▸ hx)⟩

/-- An insertion keeps what is there. -/
theorem mem_insertNew_of_mem (row : ι) (h : a ∈ table) : a ∈ insertNew key table row := by
  unfold insertNew
  split
  · exact h
  · exact mem_append_left _ h

theorem mem_insertAll_of_mem (h : a ∈ table) : a ∈ insertAll key table rows := by
  induction rows generalizing table with
  | nil => exact h
  | cons row rows ih => exact ih (mem_insertNew_of_mem row h)

/-- Nothing else gets in. -/
theorem mem_of_mem_insertAll (h : a ∈ insertAll key table rows) : a ∈ table ∨ a ∈ rows := by
  induction rows generalizing table with
  | nil => exact .inl h
  | cons row rows ih =>
    rcases ih h with hmem | hmem
    · unfold insertNew at hmem
      split at hmem
      · exact .inl hmem
      · rcases mem_append.mp hmem with hmem | hmem
        · exact .inl hmem
        · exact .inr (mem_singleton.mp hmem ▸ mem_cons_self)
    · exact .inr (mem_cons_of_mem _ hmem)

/-- After an insertion every inserted key is taken. -/
theorem exists_key_insertAll (h : a ∈ rows) : ∃ b ∈ insertAll key table rows, key b = key a := by
  induction rows generalizing table with
  | nil => cases h
  | cons row rows ih =>
    rcases mem_cons.mp h with rfl | h
    · have htaken : key a ∈ (insertNew key table a).map key := by
        unfold insertNew
        split
        · assumption
        · exact mem_map_of_mem (mem_append_right _ (mem_singleton_self a))
      obtain ⟨b, hb, hkey⟩ := mem_map.mp htaken
      exact ⟨b, (mem_insertAll_of_mem hb : b ∈ insertAll key (insertNew key table a) rows), hkey⟩
    · exact ih h

/-- Where equal keys mean equal rows, an insertion adds its rows. -/
theorem mem_insertAll (h : ∀ a ∈ rows, ∀ b, b ∈ table ∨ b ∈ rows → key b = key a → b = a) :
    a ∈ insertAll key table rows ↔ a ∈ table ∨ a ∈ rows := by
  refine ⟨mem_of_mem_insertAll, fun hmem => hmem.elim mem_insertAll_of_mem fun hrow => ?_⟩
  obtain ⟨b, hb, hkey⟩ : ∃ b ∈ insertAll key table rows, key b = key a := exists_key_insertAll hrow
  exact h a hrow b (mem_of_mem_insertAll hb) hkey ▸ hb

end Insert

end Prox
