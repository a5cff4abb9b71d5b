import Mathlib.Data.List.Basic

/-! # Windows of time

How many of a list of times lie in a window, and the bound on all windows of one length that a rate limit
promises. A time that is not before the others keeps the bound when few of them are recent. -/

namespace Prox

open List

/-- How many of the times are in the `d` seconds from `w` on. -/
def inWindow (w d : Int) (times : List Int) : Int := times.countP fun t => w ≤ t ∧ t < w + d

/-- How many of the times are in the `d` seconds up to `now`. -/
def recent (now d : Int) (times : List Int) : Int := times.countP fun t => now - d < t ∧ t ≤ now

/-- No window of `d` seconds has more than `m` of the times. -/
def WindowBounded (m d : Int) (times : List Int) : Prop := ∀ w, inWindow w d times ≤ m

variable {m d now w : Int} {times times' : List Int}

theorem windowBounded_nil (hm : 0 ≤ m) : WindowBounded m d [] := fun _ => hm

theorem recent_append : recent now d (times ++ times') = recent now d times + recent now d times' := by
  simp [recent]

theorem recent_le_length : recent now d times ≤ times.length := by
  have := countP_le_length (p := fun t => decide (now - d < t ∧ t ≤ now)) (l := times)
  rw [recent]
  omega

theorem recent_eq_zero (h : ∀ t ∈ times, t + d ≤ now) : recent now d times = 0 := by
  have hzero : times.countP (fun t => decide (now - d < t ∧ t ≤ now)) = 0 := by
    refine countP_eq_zero.mpr fun t ht hrecent => ?_
    have := h t ht
    have := of_decide_eq_true hrecent
    omega
  simp only [recent, hzero]
  rfl

/-- Times that are all recent count in full. -/
theorem recent_eq_length (h : ∀ t ∈ times, now - d < t ∧ t ≤ now) : recent now d times = times.length := by
  have hall : times.countP (fun t => decide (now - d < t ∧ t ≤ now)) = times.length :=
    countP_eq_length.mpr fun t ht => decide_eq_true (h t ht)
  simp only [recent, hall]

/-- A new time keeps the bound when fewer than `m` of the earlier ones are recent. -/
theorem WindowBounded.cons (h : WindowBounded m d times) (hle : ∀ t ∈ times, t ≤ now)
    (hrecent : recent now d times < m) : WindowBounded m d (now :: times) := by
  intro w
  by_cases hw : w ≤ now ∧ now < w + d
  · -- what else is in the window is recent
    have hsub : times.countP (fun t => decide (w ≤ t ∧ t < w + d))
        ≤ times.countP (fun t => decide (now - d < t ∧ t ≤ now)) := by
      refine countP_mono_left fun t ht hin => decide_eq_true ?_
      have := hle t ht
      have := of_decide_eq_true hin
      omega
    rw [recent] at hrecent
    rw [inWindow, countP_cons, if_pos (decide_eq_true hw)]
    omega
  · have := h w
    rw [inWindow] at this ⊢
    rw [countP_cons, if_neg (by simpa using hw)]
    omega

/-- A window that holds more times than `m` breaks the bound. -/
theorem not_windowBounded (h : ∀ t ∈ times, w ≤ t ∧ t < w + d) (hlen : m < times.length) :
    ¬ WindowBounded m d times := by
  intro hbounded
  have hall : times.countP (fun t => decide (w ≤ t ∧ t < w + d)) = times.length :=
    countP_eq_length.mpr fun t ht => decide_eq_true (h t ht)
  have := hbounded w
  simp only [inWindow, hall] at this
  omega

end Prox
