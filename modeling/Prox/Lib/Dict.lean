import Mathlib.Data.List.Nodup

/-! # Dictionaries in insertion order

A dictionary as Python has it: keys are distinct, an assignment keeps the position of a key that is there
and appends one that is not, and an iteration goes through the keys in that order. -/

namespace Prox

open List

/-- A dictionary; no two entries have one key. -/
structure Dict (κ β : Type) where
  entries : List (κ × β)
  nodup : (entries.map Prod.fst).Nodup

namespace Dict

variable {κ β : Type} [DecidableEq κ]

/-- The dictionary without entries. -/
def empty : Dict κ β := ⟨[], nodup_nil⟩

/-- `d.get(k)`. -/
def get (d : Dict κ β) (k : κ) : Option β := (d.entries.find? (·.1 = k)).map Prod.snd

/-- The entries after an assignment. -/
def assign (k : κ) (v : β) : List (κ × β) → List (κ × β)
  | [] => [(k, v)]
  | e :: es => if e.1 = k then (k, v) :: es else e :: assign k v es

theorem fst_mem_assign {k k' : κ} {v : β} {es : List (κ × β)} (h : k' ∈ (assign k v es).map Prod.fst) :
    k' = k ∨ k' ∈ es.map Prod.fst := by
  induction es with
  | nil => exact .inl (by simpa [assign] using h)
  | cons e es ih =>
    rw [assign] at h
    split at h
    · next he =>
      subst he
      exact .inr h
    · rcases mem_cons.mp h with rfl | h
      · exact .inr mem_cons_self
      · exact (ih h).imp_right (mem_cons_of_mem _)

theorem nodup_assign (k : κ) (v : β) {es : List (κ × β)} (h : (es.map Prod.fst).Nodup) :
    ((assign k v es).map Prod.fst).Nodup := by
  induction es with
  | nil => exact nodup_singleton k
  | cons e es ih =>
    rw [map_cons, nodup_cons] at h
    rw [assign]
    split
    · next he =>
      subst he
      exact nodup_cons.mpr h
    · next he =>
      refine nodup_cons.mpr ⟨fun hmem => ?_, ih h.2⟩
      exact (fst_mem_assign hmem).elim he h.1

/-- `d[k] = v`. -/
def set (d : Dict κ β) (k : κ) (v : β) : Dict κ β := ⟨assign k v d.entries, nodup_assign k v d.nodup⟩

/-- The entries that satisfy a condition. -/
def filter (d : Dict κ β) (p : κ × β → Bool) : Dict κ β :=
  ⟨d.entries.filter p, d.nodup.sublist (filter_sublist.map _)⟩

/-- `d.pop(k, None)`. -/
def pop (d : Dict κ β) (k : κ) : Dict κ β := d.filter (·.1 ≠ k)

variable {d : Dict κ β} {k k' : κ} {v : β}

@[simp] theorem get_empty : (empty : Dict κ β).get k = none := rfl

theorem find?_assign (es : List (κ × β)) (k k' : κ) (v : β) :
    ((assign k v es).find? (·.1 = k')).map Prod.snd
      = if k = k' then some v else (es.find? (·.1 = k')).map Prod.snd := by
  induction es with
  | nil => by_cases h : k = k' <;> simp [assign, h]
  | cons e es ih =>
    rw [assign]
    by_cases he : e.1 = k
    · rw [if_pos he]
      by_cases hk : k = k'
      · simp [hk]
      · simp [hk, he]
    · rw [if_neg he]
      by_cases he' : e.1 = k'
      · have hk : k ≠ k' := fun h => he (he'.trans h.symm)
        simp [he', hk]
      · simp [he', ih]

/-- A key has the value assigned last. -/
theorem get_set : (d.set k v).get k' = if k = k' then some v else d.get k' :=
  find?_assign d.entries k k' v

theorem find?_eq_some {es : List (κ × β)} (hnodup : (es.map Prod.fst).Nodup) :
    (es.find? (·.1 = k)).map Prod.snd = some v ↔ (k, v) ∈ es := by
  induction es with
  | nil => simp
  | cons e es ih =>
    rw [map_cons, nodup_cons] at hnodup
    by_cases he : e.1 = k
    · have hnot : (k, v) ∉ es := fun h => hnodup.1 (he ▸ mem_map_of_mem h)
      rw [List.find?_cons_of_pos (by simpa using he), Option.map_some, Option.some.injEq, mem_cons]
      constructor
      · rintro rfl
        exact .inl (by rw [← he])
      · rintro (h | h)
        · rw [← h]
        · exact absurd h hnot
    · rw [List.find?_cons_of_neg (by simpa using he), mem_cons]
      refine (ih hnodup.2).trans ⟨.inr, fun h => h.resolve_left fun h => he ?_⟩
      rw [← h]

/-- The value of a key is its entry's. -/
theorem get_eq_some : d.get k = some v ↔ (k, v) ∈ d.entries := find?_eq_some d.nodup

/-- What a filtered dictionary has is in the dictionary and satisfies the condition. -/
theorem get_filter {p : κ × β → Bool} : (d.filter p).get k = some v ↔ d.get k = some v ∧ p (k, v) = true := by
  rw [get_eq_some, get_eq_some, filter, mem_filter]

/-- A popped key is gone, the others stay. -/
theorem get_pop : (d.pop k).get k' = if k = k' then none else d.get k' := by
  by_cases hk : k = k'
  · subst hk
    rw [if_pos rfl, Option.eq_none_iff_forall_ne_some]
    intro v h
    have := (get_filter.mp h).2
    simp at this
  · rw [if_neg hk]
    refine Option.ext fun v => ?_
    rw [pop, get_filter]
    exact and_iff_left (decide_eq_true (Ne.symm hk))

end Dict

end Prox
