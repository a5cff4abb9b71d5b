import Mathlib.Data.List.Count
import Prox.Lib.Run

/-! # Fenced leases

The history of leases on the runs of a job: who took a run over with which fencing token, which token a
successful claim returned, and which completions and failures went through. A history is fenced when a
fencing token is returned once, only the latest owner finishes a run, and nothing follows a completion.
The histories here have the newest event first. -/

namespace Prox

open List

/-- What happens to the lease of a run. -/
inductive LeaseEvent (κ : Type) where
  /-- An owner takes the run over, or is the first to have it. -/
  | took (run : κ) (owner : String) (token : Int)
  /-- A claim returns that it has the run, with a token. -/
  | returned (run : κ) (token : Int)
  /-- The run is completed by the holder of a token. -/
  | completed (run : κ) (owner : String) (token : Int)
  /-- The run is given up by the holder of a token. -/
  | failed (run : κ) (owner : String) (token : Int)
  deriving DecidableEq

variable {κ : Type}

/-- The run an event is about. -/
def LeaseEvent.run : LeaseEvent κ → κ
  | .took run _ _ | .returned run _ | .completed run _ _ | .failed run _ _ => run

/-- A completion of the run is in the history. -/
def Completed (run : κ) (past : List (LeaseEvent κ)) : Prop :=
  ∃ owner token, LeaseEvent.completed run owner token ∈ past

section Completed

variable {run run' : κ} {owner : String} {token : Int} {past : List (LeaseEvent κ)}

@[simp] theorem not_completed_nil : ¬ Completed run ([] : List (LeaseEvent κ)) := by
  rintro ⟨_, _, h⟩
  cases h

@[simp] theorem completed_took : Completed run (.took run' owner token :: past) ↔ Completed run past := by
  simp [Completed]

@[simp] theorem completed_returned : Completed run (.returned run' token :: past) ↔ Completed run past := by
  simp [Completed]

@[simp] theorem completed_failed :
    Completed run (.failed run' owner token :: past) ↔ Completed run past := by
  simp [Completed]

@[simp] theorem completed_completed :
    Completed run (.completed run' owner token :: past) ↔ run' = run ∨ Completed run past := by
  simp only [Completed, mem_cons, LeaseEvent.completed.injEq]
  constructor
  · rintro ⟨o, t, ⟨h, -, -⟩ | h⟩
    · exact .inl h.symm
    · exact .inr ⟨o, t, h⟩
  · rintro (h | ⟨o, t, h⟩)
    · exact ⟨owner, token, .inl ⟨h.symm, rfl, rfl⟩⟩
    · exact ⟨o, t, .inr h⟩

end Completed

variable [DecidableEq κ]

/-- Owner and token of the latest takeover of a run. -/
def holder (run : κ) : List (LeaseEvent κ) → Option (String × Int)
  | [] => none
  | .took run' owner token :: past => if run' = run then some (owner, token) else holder run past
  | _ :: past => holder run past

/-- A completion or a failure goes through only for the owner and the token of the latest takeover, and
not after a completion. -/
def LeaseEvent.WriteFenced (past : List (LeaseEvent κ)) : LeaseEvent κ → Prop
  | .completed run owner token | .failed run owner token =>
    holder run past = some (owner, token) ∧ ¬ Completed run past
  | _ => True

/-- A claim returns a token that none returned before, and not after a completion. -/
def LeaseEvent.ClaimFenced (past : List (LeaseEvent κ)) : LeaseEvent κ → Prop
  | .returned run token => .returned run token ∉ past ∧ ¬ Completed run past
  | _ => True

/-- How often a run was taken over with a token. -/
def takeovers (run : κ) (token : Int) (past : List (LeaseEvent κ)) : Int :=
  past.countP fun
    | .took run' _ token' => run' = run ∧ token' = token
    | _ => false

/-- How often a token of a run was returned. -/
def returns (run : κ) (token : Int) (past : List (LeaseEvent κ)) : Int :=
  past.count (.returned run token)

section History

variable {run run' : κ} {owner : String} {token token' : Int} {past : List (LeaseEvent κ)}

@[simp] theorem takeovers_nil : takeovers run token ([] : List (LeaseEvent κ)) = 0 := rfl

@[simp] theorem takeovers_took : takeovers run token (.took run' owner token' :: past)
    = takeovers run token past + if run' = run ∧ token' = token then 1 else 0 := by
  by_cases h : run' = run ∧ token' = token <;> simp [takeovers, h]

@[simp] theorem takeovers_returned :
    takeovers run token (.returned run' token' :: past) = takeovers run token past := by
  simp [takeovers]

@[simp] theorem takeovers_completed :
    takeovers run token (.completed run' owner token' :: past) = takeovers run token past := by
  simp [takeovers]

@[simp] theorem takeovers_failed :
    takeovers run token (.failed run' owner token' :: past) = takeovers run token past := by
  simp [takeovers]

@[simp] theorem returns_nil : returns run token ([] : List (LeaseEvent κ)) = 0 := rfl

@[simp] theorem returns_returned : returns run token (.returned run' token' :: past)
    = returns run token past + if run' = run ∧ token' = token then 1 else 0 := by
  by_cases h : run' = run ∧ token' = token <;> simp [returns, h]

@[simp] theorem returns_took :
    returns run token (.took run' owner token' :: past) = returns run token past := by
  simp [returns]

@[simp] theorem returns_completed :
    returns run token (.completed run' owner token' :: past) = returns run token past := by
  simp [returns]

@[simp] theorem returns_failed :
    returns run token (.failed run' owner token' :: past) = returns run token past := by
  simp [returns]

/-- A token was not returned when it was returned no time. -/
theorem not_mem_of_returns (h : returns run token past ≤ 0) : .returned run token ∉ past := by
  have : past.count (.returned run token) = 0 := by
    rw [returns] at h
    omega
  exact count_eq_zero.mp this

/-- A token that no takeover has is taken no time. -/
theorem takeovers_eq_zero (h : ∀ owner, .took run owner token ∉ past) : takeovers run token past = 0 := by
  have : past.countP (fun
    | .took run' _ token' => decide (run' = run ∧ token' = token)
    | _ => false) = 0 := by
    refine countP_eq_zero.mpr fun e he hrun => ?_
    cases e with
    | took run' owner token' =>
      obtain ⟨rfl, rfl⟩ := of_decide_eq_true hrun
      exact h owner he
    | returned | completed | failed => cases hrun
  simp only [takeovers, this]
  rfl

end History

end Prox
