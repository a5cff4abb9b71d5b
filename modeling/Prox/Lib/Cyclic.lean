import Mathlib.Data.List.Rotate

/-! # Round robin

A server of `n` positions looks from a starting position, cyclically, for the first position that passes a
test, and starts the next search behind it. As many searches as there are passing positions find each of them
once, from whatever position the first one starts. -/

namespace Prox

open List

/-- The positions below `n` in cyclic order from `start`. -/
def cyclic (n start : Nat) : List Nat := (List.range n).map fun i => (start + i) % n

/-- The positions that `k` searches find, the first from `start`. -/
def roundRobin (n : Nat) (p : Nat → Bool) : Nat → Nat → List Nat
  | 0, _ => []
  | k + 1, start =>
    match (cyclic n start).find? p with
    | none => []
    | some x => x :: roundRobin n p k ((x + 1) % n)

variable {n k start x : Nat} {p : Nat → Bool}

theorem cyclic_eq_rotate (n start : Nat) : cyclic n start = (List.range n).rotate start := by
  apply ext_getElem
  · simp [cyclic]
  · intro i hi hi'
    simp [cyclic, Nat.add_comm]

/-- Every position comes once. -/
theorem cyclic_perm (n start : Nat) : (cyclic n start).Perm (List.range n) := by
  rw [cyclic_eq_rotate]
  exact rotate_perm _ _

theorem cyclic_mod (n start : Nat) : cyclic n (start % n) = cyclic n start := by
  simp [cyclic]

/-- A search passes over positions that fail; the next one starts with what is behind the position found and
comes to that position last. -/
theorem cyclic_find? (h : (cyclic n start).find? p = some x) :
    ∃ before behind, cyclic n start = before ++ x :: behind ∧ (∀ y ∈ before, p y = false) ∧
      p x = true ∧ cyclic n (x + 1) = behind ++ (before ++ [x]) := by
  obtain ⟨hx, before, behind, hsplit, hbefore⟩ := List.find?_eq_some_iff_append.mp h
  refine ⟨before, behind, hsplit, fun y hy => by simpa using hbefore y hy, hx, ?_⟩
  have hat : x = (start + before.length) % n := by
    have hget : (cyclic n start)[before.length]? = some x := by simp [hsplit]
    obtain ⟨hlen, hget⟩ := List.getElem?_eq_some_iff.mp hget
    rw [← hget]
    simp [cyclic]
  have hrotated : (cyclic n start).rotate (before.length + 1) = behind ++ (before ++ [x]) := by
    have happ : cyclic n start = (before ++ [x]) ++ behind := by simp [hsplit]
    have hlen : before.length + 1 = (before ++ [x]).length := by simp
    rw [happ, hlen, rotate_append_length_eq]
  calc cyclic n (x + 1)
      = cyclic n ((x + 1) % n) := (cyclic_mod n _).symm
    _ = cyclic n ((start + before.length + 1) % n) := by rw [hat, Nat.mod_add_mod]
    _ = cyclic n (start + (before.length + 1)) := by rw [cyclic_mod, Nat.add_assoc]
    _ = (cyclic n start).rotate (before.length + 1) := by
      rw [cyclic_eq_rotate, cyclic_eq_rotate, rotate_rotate]
    _ = behind ++ (before ++ [x]) := hrotated

/-- No more searches than there are passing positions find those in cyclic order. -/
theorem roundRobin_eq_take (h : k ≤ ((cyclic n start).filter p).length) :
    roundRobin n p k start = ((cyclic n start).filter p).take k := by
  induction k generalizing start with
  | zero => rfl
  | succ k ih =>
    unfold roundRobin
    split
    case h_1 hfind =>
      -- no position passes, so none is asked for
      have hnone : (cyclic n start).filter p = [] := by
        simpa [filter_eq_nil_iff, List.find?_eq_none] using hfind
      simp [hnone] at h
    case h_2 x hfind =>
      obtain ⟨before, behind, hsplit, hbefore, hx, hnext⟩ := cyclic_find? hfind
      have hnil : before.filter p = [] := filter_eq_nil_iff.mpr fun y hy => by simp [hbefore y hy]
      have hnow : (cyclic n start).filter p = x :: behind.filter p := by simp [hsplit, hnil, hx]
      have hthen : (cyclic n ((x + 1) % n)).filter p = behind.filter p ++ [x] := by
        simp [cyclic_mod, hnext, hnil, hx]
      have hk : k ≤ (behind.filter p).length := by
        rw [hnow, length_cons] at h
        omega
      rw [hnow, take_succ_cons, ih (by rw [hthen, length_append]; omega), hthen,
        take_append_of_le_length hk]

/-- As many searches as there are passing positions find each of them once. -/
theorem roundRobin_perm (n start : Nat) (p : Nat → Bool) :
    (roundRobin n p ((List.range n).filter p).length start).Perm ((List.range n).filter p) := by
  have hperm : ((cyclic n start).filter p).Perm ((List.range n).filter p) := (cyclic_perm n start).filter p
  rw [roundRobin_eq_take hperm.length_eq.ge, ← hperm.length_eq, take_length]
  exact hperm

end Prox
