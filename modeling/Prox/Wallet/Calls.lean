import Prox.Wallet.Maintenance

/-! # Runs of the wallet

The calls other components make on the ledger, one constructor per exported operation, and the step
function that executes one call. An event also carries the faults the database raises during the
call, so a list of events is one interleaving of calls, replays and failures. Since a sweep is a
sequence of refund transactions, a sweep that is interleaved with other calls is a list of such
refund calls. -/

namespace Prox

/-- A call of the ledger's interface. -/
inductive Call where
  | reserve (requestID : String) (userID quota : Int) (sourceType : String) (now : Int)
  | resize (requestID : String) (userID targetQuota now : Int)
  | settle (requestID : String) (userID actualQuota : Int) (sourceType : String)
  | refund (requestID : String) (userID : Int) (remark : String)
  | refundExpired (now limit : Int)
  | applyMutation (mutation : UserQuotaMutation)
  | setBalance (userID targetQuota : Int) (requestID sourceType remark : String)

/-- The error a call returns and the tables after it; `faults n` is the fault of its `n`-th
transaction. -/
def Call.exec (faults : Nat → Option Err) (w : Wallet) : Call → Option Err × Wallet
  | .reserve requestID userID quota sourceType now =>
    outcome (reserveUserQuota (faults 0) requestID userID quota sourceType now w)
  | .resize requestID userID targetQuota now =>
    outcome (resizeUserQuotaReservation (faults 0) requestID userID targetQuota now w)
  | .settle requestID userID actualQuota sourceType =>
    outcome (settleUserQuotaReservation (faults 0) requestID userID actualQuota sourceType w)
  | .refund requestID userID remark =>
    outcome (refundUserQuotaReservation (faults 0) requestID userID remark w)
  | .refundExpired now limit =>
    ((refundExpiredUserQuotaReservations faults now limit w).1.2,
      (refundExpiredUserQuotaReservations faults now limit w).2)
  | .applyMutation mutation =>
    outcome (applyUserQuotaMutation (faults 0) mutation w)
  | .setBalance userID targetQuota requestID sourceType remark =>
    outcome (setUserQuotaBalance (faults 0) userID targetQuota requestID sourceType remark w)

/-- The request id a reservation call names, once normalised. -/
def Call.requestId : Call → Option String
  | .reserve requestID .. => (normalizeUserQuotaRequest requestID).toOption
  | .resize requestID .. => (normalizeUserQuotaRequest requestID).toOption
  | .settle requestID .. => (normalizeUserQuotaRequest requestID).toOption
  | .refund requestID .. => (normalizeUserQuotaRequest requestID).toOption
  | .refundExpired .. => none
  | .applyMutation _ => none
  | .setBalance .. => none

/-- The calls on reservations: every call but the direct balance changes. -/
def Call.onReservations : Call → Bool
  | .applyMutation _ => false
  | .setBalance .. => false
  | _ => true

/-- One call together with the faults it meets. -/
structure Event where
  call : Call
  faults : Nat → Option Err

/-- A call that meets no fault. -/
def Call.faultless (c : Call) : Event := ⟨c, fun _ => none⟩

/-- The tables after an event. -/
def Wallet.step (w : Wallet) (e : Event) : Wallet := (e.call.exec e.faults w).2

/-- A wallet before its first ledger call: covered balances, no holds and an empty journal. -/
structure Wallet.Fresh (w : Wallet) : Prop where
  covered : ∀ u ∈ w.users.rows, 0 ≤ u.quota
  no_reservations : w.reservations.rows = []
  no_transactions : w.transactions.rows = []

section Posted

variable {allowed : Option String → Prop} (fault : Option Err) (w : Wallet)

theorem applyUserQuotaMutation_posted (hallowed : allowed none) (mutation : UserQuotaMutation) :
    Posted allowed w (applyUserQuotaMutation fault mutation w).2 :=
  transaction_keeps (P := Posted allowed w) (.refl w)
    fun _ _ h => .of_or hallowed (applyUserQuotaMutationTx_effect h)

theorem setUserQuotaBalance_posted (hallowed : allowed none) (userID targetQuota : Int)
    (requestID sourceType remark : String) :
    Posted allowed w
      (setUserQuotaBalance fault userID targetQuota requestID sourceType remark w).2 := by
  refine checked_keeps (P := Posted allowed w) (.refl w) fun args _ => ?_
  refine transaction_keeps (P := Posted allowed w) (.refl w) ?_
  rintro ⟨⟩ w' h
  exact .of_or hallowed (setUserQuotaBalanceTx_effect h)

end Posted

/-- **Every call posts ledger effects and nothing else**, and a call on reservations only posts
effects on reservations. -/
theorem Call.exec_posted (c : Call) (faults : Nat → Option Err) (w : Wallet) :
    Posted (fun request => c.onReservations → request ≠ none) w (c.exec faults w).2 := by
  cases c with
  | reserve requestID userID quota sourceType now =>
    rw [Call.exec, outcome_snd]
    exact (reserveUserQuota_outcome _ requestID userID w quota sourceType now).posted (by simp)
  | resize requestID userID targetQuota now =>
    rw [Call.exec, outcome_snd]
    exact (resizeUserQuotaReservation_outcome _ requestID userID w targetQuota now).posted (by simp)
  | settle requestID userID actualQuota sourceType =>
    rw [Call.exec, outcome_snd]
    exact (settleUserQuotaReservation_outcome _ requestID userID w actualQuota sourceType).posted
      (by simp)
  | refund requestID userID remark =>
    rw [Call.exec, outcome_snd]
    exact (refundUserQuotaReservation_outcome _ requestID userID w remark).posted (by simp)
  | refundExpired now limit =>
    exact refundExpiredUserQuotaReservations_posted (by simp) faults now limit w
  | applyMutation mutation =>
    exact applyUserQuotaMutation_posted _ w (by simp [Call.onReservations]) mutation
  | setBalance userID targetQuota requestID sourceType remark =>
    exact setUserQuotaBalance_posted _ w (by simp [Call.onReservations]) userID targetQuota
      requestID sourceType remark

/-- The invariant rule of the wallet: what every effect keeps, every run keeps. -/
theorem Wallet.run_keeps {I : Wallet → Prop}
    (hstep : ∀ request a b, I a → Effect request a b → I b) {w : Wallet} (hw : I w)
    (events : List Event) : I (run Wallet.step w events) :=
  Prox.run_keeps (fun w e hinv => (e.call.exec_posted e.faults w).keeps
    (fun request a b _ => hstep request a b) hinv) hw events

/-- The invariant rule for runs of calls on reservations. -/
theorem Wallet.run_keeps_onReservations {I : Wallet → Prop}
    (hstep : ∀ k a b, I a → Effect (some k) a b → I b) {w : Wallet} (hw : I w)
    {events : List Event} (hevents : ∀ e ∈ events, e.call.onReservations) :
    I (run Wallet.step w events) := by
  induction events generalizing w with
  | nil => exact hw
  | cons e events ih =>
    obtain ⟨he, hevents⟩ := List.forall_mem_cons.mp hevents
    refine ih ((e.call.exec_posted e.faults w).keeps ?_ hw) hevents
    intro request a b hallowed hinv heff
    obtain ⟨k, rfl⟩ := Option.ne_none_iff_exists'.mp (hallowed he)
    exact hstep k a b hinv heff

end Prox
