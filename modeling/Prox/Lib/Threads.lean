import Mathlib.Algebra.BigOperators.Group.List.Basic
import Mathlib.Algebra.Ring.Int.Defs

/-! # Threads over a shared state

A pool of threads interleaves: a step of the pool is a step of one of its threads, which reads and writes
the shared state atomically, or a new thread. What a step of a thread keeps, the pool keeps. -/

namespace Prox

open List

variable {σ τ : Type}

/-- Threads over a shared state. -/
structure Pool (σ τ : Type) where
  shared : σ
  threads : List τ

namespace Pool

/-- The pool with a thread more. -/
def spawn (p : Pool σ τ) (t : τ) : Pool σ τ := { p with threads := p.threads ++ [t] }

/-- The thread at a position makes a step; nothing happens when there is none. -/
def stepAt (f : τ → σ → τ × σ) (p : Pool σ τ) (i : Nat) : Pool σ τ :=
  match p.threads[i]? with
  | none => p
  | some t => ⟨(f t p.shared).2, p.threads.set i (f t p.shared).1⟩

/-- The sum of a measure over the threads. -/
def total (g : τ → Int) (p : Pool σ τ) : Int := (p.threads.map g).sum

variable {f : τ → σ → τ × σ} {p : Pool σ τ} {i : Nat} {t : τ}

@[simp] theorem shared_spawn : (p.spawn t).shared = p.shared := rfl

@[simp] theorem threads_spawn : (p.spawn t).threads = p.threads ++ [t] := rfl

/-- Without a thread at the position, nothing happens. -/
theorem stepAt_of_none (h : p.threads[i]? = none) : p.stepAt f i = p := by
  simp [stepAt, h]

/-- The thread at the position and the shared state after a step. -/
theorem stepAt_of_some (h : p.threads[i]? = some t) :
    p.stepAt f i = ⟨(f t p.shared).2, p.threads.set i (f t p.shared).1⟩ := by
  simp [stepAt, h]

/-- What holds of the pool and after a step of every thread holds after a step of the pool. -/
theorem stepAt_elim {P : Pool σ τ → Prop} (hnone : p.threads[i]? = none → P p)
    (hsome : ∀ t, p.threads[i]? = some t →
      P ⟨(f t p.shared).2, p.threads.set i (f t p.shared).1⟩) : P (p.stepAt f i) := by
  cases h : p.threads[i]? with
  | none => rw [stepAt_of_none h]; exact hnone h
  | some t => rw [stepAt_of_some h]; exact hsome t h

variable {ts : List τ}

/-- A sum of numbers none of which is positive is not positive. -/
theorem sum_map_nonpos {g : τ → Int} (h : ∀ t ∈ ts, g t ≤ 0) : (ts.map g).sum ≤ 0 := by
  induction ts with
  | nil => exact Int.le_refl 0
  | cons t ts ih =>
    have ht := h t mem_cons_self
    have hts := ih fun t' ht' => h t' (mem_cons_of_mem _ ht')
    rw [map_cons, sum_cons]
    omega

/-- A new thread adds its measure. -/
theorem total_spawn (g : τ → Int) : (p.spawn t).total g = p.total g + g t := by
  simp [total]

/-- A step changes the sum by what it changes of its thread. -/
theorem sum_map_set (g : τ → Int) (h : ts[i]? = some t) (t' : τ) :
    ((ts.set i t').map g).sum = (ts.map g).sum - g t + g t' := by
  obtain ⟨hi, ht⟩ := List.getElem?_eq_some_iff.mp h
  rw [map_set, sum_set', dif_pos (by simpa using hi), getElem_map, ht]
  omega

variable {P b : τ → Prop}

/-- What a thread satisfies after its step and the others satisfied before, all satisfy. -/
theorem forall_mem_set (hts : ∀ t ∈ ts, P t) {t' : τ} (ht' : P t') : ∀ t ∈ ts.set i t', P t := by
  intro t ht
  rcases mem_or_eq_of_mem_set ht with hmem | rfl
  · exact hts t hmem
  · exact ht'

/-- What the other threads satisfied before a step and its thread satisfies after it, all satisfy. -/
theorem forall_mem_set_of_others {t' : τ} (hts : ∀ j t, j ≠ i → ts[j]? = some t → P t) (ht' : P t') :
    ∀ t ∈ ts.set i t', P t := by
  intro t ht
  obtain ⟨j, hj⟩ := mem_iff_getElem?.mp ht
  rw [List.getElem?_set] at hj
  split at hj
  · split at hj
    · exact Option.some.inj hj ▸ ht'
    · cases hj
  · next hij => exact hts j t (Ne.symm hij) hj

/-- At most one thread is of a kind. -/
def Exclusive (b : τ → Prop) (ts : List τ) : Prop :=
  ∀ (i j : Nat) (t t' : τ), ts[i]? = some t → ts[j]? = some t' → b t → b t' → i = j

theorem exclusive_nil : Exclusive b [] := by
  intro i j t t' hi
  simp at hi

/-- At most one thread is of a kind after one of them, or one while there was none, has become so. -/
theorem Exclusive.set {t' : τ} (h : Exclusive b ts) (ht : ts[i]? = some t)
    (hb : b t' → b t ∨ ∀ x ∈ ts, ¬ b x) : Exclusive b (ts.set i t') := by
  -- a thread of the kind was of the kind before, or it is the one that has become so
  have hold : ∀ (j : Nat) (x : τ), (ts.set i t')[j]? = some x → b x →
      (∃ y, ts[j]? = some y ∧ b y) ∨ (j = i ∧ ∀ x ∈ ts, ¬ b x) := by
    intro j x hj hx
    rw [List.getElem?_set] at hj
    split at hj
    · next hij =>
      subst hij
      split at hj
      · cases hj
        exact (hb hx).imp (fun hbt => ⟨t, ht, hbt⟩) fun hnone => ⟨rfl, hnone⟩
      · cases hj
    · exact .inl ⟨x, hj, hx⟩
  intro j k x y hj hk hx hy
  rcases hold j x hj hx with ⟨x', hx', hbx⟩ | ⟨rfl, hnone⟩ <;>
    rcases hold k y hk hy with ⟨y', hy', hby⟩ | ⟨rfl, hnone'⟩
  · exact h j k x' y' hx' hy' hbx hby
  · exact absurd hbx (hnone' x' (mem_of_getElem? hx'))
  · exact absurd hby (hnone y' (mem_of_getElem? hy'))
  · rfl

/-- A new thread that is not of a kind leaves at most one of the kind. -/
theorem Exclusive.append (h : Exclusive b ts) (ht : ¬ b t) : Exclusive b (ts ++ [t]) := by
  have hold : ∀ (j : Nat) (x : τ), (ts ++ [t])[j]? = some x → b x → ts[j]? = some x := by
    intro j x hj hx
    rcases Nat.lt_or_ge j ts.length with hlt | hge
    · rwa [List.getElem?_append_left hlt] at hj
    · rw [List.getElem?_append_right hge] at hj
      obtain rfl : x = t := by
        cases hn : j - ts.length with
        | zero =>
          rw [hn] at hj
          exact (Option.some.inj hj).symm
        | succ n =>
          rw [hn] at hj
          cases hj
      exact absurd hx ht
  intro j k x y hj hk hx hy
  exact h j k x y (hold j x hj hx) (hold k y hk hy) hx hy

/-- What every step of a thread keeps of the threads, a step of the pool keeps. -/
theorem forall_stepAt (hp : ∀ t ∈ p.threads, P t) (hf : ∀ t, P t → P (f t p.shared).1) :
    ∀ t ∈ (p.stepAt f i).threads, P t :=
  stepAt_elim (P := fun q => ∀ t ∈ q.threads, P t) (fun _ => hp) fun t ht =>
    forall_mem_set hp (hf t (hp t (mem_of_getElem? ht)))

/-- What holds of all threads and of a new one holds of all threads with the new one. -/
theorem forall_spawn (hp : ∀ t ∈ p.threads, P t) (ht : P t) : ∀ t' ∈ (p.spawn t).threads, P t' := by
  intro t' ht'
  rcases mem_append.mp ht' with hmem | hmem
  · exact hp t' hmem
  · rw [mem_singleton] at hmem
    exact hmem ▸ ht

/-- A measure of the shared state and the threads together: a step of the pool changes it by what the
step of its thread changes. -/
theorem measure_stepAt (m : σ → Int) (g : τ → Int) (h : p.threads[i]? = some t) :
    m (p.stepAt f i).shared + (p.stepAt f i).total g
      = m p.shared + p.total g + (m (f t p.shared).2 - m p.shared + (g (f t p.shared).1 - g t)) := by
  rw [stepAt_of_some h]
  simp only [total]
  rw [sum_map_set g h]
  omega

end Pool

end Prox
