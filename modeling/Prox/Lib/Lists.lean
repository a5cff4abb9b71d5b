import Mathlib.Data.List.Forall2

/-! # Lists run together

Facts about the lists that a function makes of the elements of a list, run together, and about the
elements of a list beside those before them. -/

namespace Prox

open List

/-! ## Elements and those before them -/

/-- The elements of a list, each with those before it. -/
def withEarlier {α : Type} (earlier : List α) : List α → List (List α × α)
  | [] => []
  | x :: rest => (earlier, x) :: withEarlier (earlier ++ [x]) rest

theorem mem_withEarlier {α : Type} {earlier xs pre : List α} {x : α} :
    (pre, x) ∈ withEarlier earlier xs ↔ ∃ u v, xs = u ++ x :: v ∧ pre = earlier ++ u := by
  induction xs generalizing earlier with
  | nil => simp [withEarlier]
  | cons y rest ih =>
    rw [withEarlier, mem_cons, ih]
    constructor
    · rintro (h | ⟨u, v, rfl, rfl⟩)
      · obtain ⟨rfl, rfl⟩ := Prod.mk.inj h
        exact ⟨[], rest, rfl, by simp⟩
      · exact ⟨y :: u, v, rfl, by simp⟩
    · rintro ⟨u, v, h, rfl⟩
      cases u with
      | nil =>
        obtain ⟨rfl, rfl⟩ := List.cons.inj h
        exact .inl (by simp)
      | cons z u =>
        obtain ⟨rfl, rfl⟩ := List.cons.inj h
        exact .inr ⟨u, v, rfl, by simp⟩

theorem map_snd_withEarlier {α : Type} (earlier xs : List α) :
    (withEarlier earlier xs).map (·.2) = xs := by
  induction xs generalizing earlier with
  | nil => rfl
  | cons x rest ih => simp [withEarlier, ih]

theorem mem_of_mem_withEarlier {α : Type} {earlier xs : List α} {e : List α × α}
    (h : e ∈ withEarlier earlier xs) : e.2 ∈ xs := by
  rw [← map_snd_withEarlier earlier xs]
  exact mem_map_of_mem h

/-- A condition on the elements alone selects as many of them with those before them. -/
theorem length_filter_withEarlier {α : Type} (p : α → Bool) (earlier xs : List α) :
    ((withEarlier earlier xs).filter fun e => p e.2).length = (xs.filter p).length := by
  conv_rhs => rw [← map_snd_withEarlier earlier xs, filter_map, length_map]
  rfl

@[simp] theorem length_withEarlier {α : Type} (earlier xs : List α) :
    (withEarlier earlier xs).length = xs.length := by
  conv_rhs => rw [← map_snd_withEarlier earlier xs, length_map]

theorem withEarlier_append {α : Type} (earlier xs ys : List α) :
    withEarlier earlier (xs ++ ys) = withEarlier earlier xs ++ withEarlier (earlier ++ xs) ys := by
  induction xs generalizing earlier with
  | nil => rw [append_nil]; rfl
  | cons x rest ih => simp [withEarlier, ih]

/-! ## Lists run together -/

/-- An element of the lists that are run together stands in one of them. -/
theorem exists_of_flatMap_eq {α β : Type} {f : α → List β} {xs : List α} {u v : List β} {y : β}
    (h : xs.flatMap f = u ++ y :: v) :
    ∃ before x after w w', xs = before ++ x :: after ∧ f x = w ++ y :: w' ∧
      u = before.flatMap f ++ w := by
  induction xs generalizing u with
  | nil => simp at h
  | cons x rest ih =>
    rw [flatMap_cons, append_eq_append_iff] at h
    rcases h with ⟨u', rfl, h⟩ | ⟨w', hx, h⟩
    · obtain ⟨before, z, after, w, w', rfl, hz, rfl⟩ := ih h
      exact ⟨x :: before, z, after, w, w', rfl, hz, by simp⟩
    · cases w' with
      | nil =>
        obtain ⟨before, z, after, w, w', rfl, hz, hu⟩ := ih (u := []) h.symm
        refine ⟨x :: before, z, after, w, w', rfl, hz, ?_⟩
        rw [append_nil] at hx
        rw [flatMap_cons, append_assoc, ← hu, append_nil, hx]
      | cons y' w' =>
        obtain ⟨rfl, -⟩ := List.cons.inj h
        exact ⟨[], x, rest, u, w', rfl, hx, by simp⟩

/-- Lists that are parts of others are so together. -/
theorem flatMap_sublist_flatMap {α β : Type} {f g : α → List β} {xs : List α}
    (hsub : ∀ x ∈ xs, (f x).Sublist (g x)) : (xs.flatMap f).Sublist (xs.flatMap g) := by
  induction xs with
  | nil => exact .slnil
  | cons x rest ih =>
    obtain ⟨hx, hrest⟩ := forall_mem_cons.mp hsub
    exact hx.append (ih hrest)

/-- Of lists that are parts of others, each is all of its own when together they are all. -/
theorem flatMap_eq_flatMap_iff {α β : Type} {f g : α → List β} {xs : List α}
    (hsub : ∀ x ∈ xs, (f x).Sublist (g x)) :
    xs.flatMap f = xs.flatMap g ↔ ∀ x ∈ xs, f x = g x := by
  induction xs with
  | nil => simp
  | cons x rest ih =>
    obtain ⟨hx, hrest⟩ := forall_mem_cons.mp hsub
    have hall := flatMap_sublist_flatMap hrest
    rw [flatMap_cons, flatMap_cons, forall_mem_cons, ← ih hrest]
    constructor
    · intro h
      have hlen := congrArg List.length h
      rw [length_append, length_append] at hlen
      have h1 := hx.length_le
      have h2 := hall.length_le
      exact ⟨hx.eq_of_length (by omega), hall.eq_of_length (by omega)⟩
    · rintro ⟨h1, h2⟩
      rw [h1, h2]

/-! ## Related lists -/

theorem exists_of_forall₂ {α β : Type} {R : α → β → Prop} {xs : List α} {ys : List β}
    (h : List.Forall₂ R xs ys) {x : α} (hx : x ∈ xs) : ∃ y ∈ ys, R x y := by
  induction h with
  | nil => cases hx
  | @cons a b _ _ hab _ ih =>
    rcases mem_cons.mp hx with rfl | hx
    · exact ⟨b, mem_cons_self .., hab⟩
    · obtain ⟨y, hy, hxy⟩ := ih hx
      exact ⟨y, mem_cons_of_mem _ hy, hxy⟩

/-- Lists in two parts of the same lengths are related exactly when the parts are. -/
theorem forall₂_append_iff {α β : Type} {R : α → β → Prop} {xs xs' : List α} {ys ys' : List β}
    (hlen : xs.length = ys.length) :
    List.Forall₂ R (xs ++ xs') (ys ++ ys') ↔ List.Forall₂ R xs ys ∧ List.Forall₂ R xs' ys' := by
  induction xs generalizing ys with
  | nil =>
    obtain rfl := length_eq_zero_iff.mp hlen.symm
    simp
  | cons x xs ih =>
    cases ys with
    | nil => simp at hlen
    | cons y ys =>
      simp [ih (Nat.succ.inj hlen), and_assoc]

end Prox
