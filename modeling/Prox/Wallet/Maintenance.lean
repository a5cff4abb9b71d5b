import Mathlib.Data.List.Sort
import Mathlib.Logic.Relation
import Prox.Wallet.Effect

/-! # Wallet maintenance

The embedding of `model/user_quota_maintenance.go`: the sweep that refunds expired holds, the repair
of historical overdrafts and the reconciliation report. The sweep and the repair are sequences of
ledger transactions; `Posted` is the relation "reached by ledger effects", and both are shown to stay
inside it. -/

namespace Prox

/-! ## Expired holds -/

/-- `status = 'active' AND expires_at > 0 AND expires_at <= now`. -/
def UserQuotaReservation.expired (now : Int) (r : UserQuotaReservation) : Bool :=
  r.status = .active ∧ 0 < r.expiresAt ∧ r.expiresAt ≤ now

/-- `ORDER BY expires_at ASC, id ASC`. -/
def UserQuotaReservation.expiresBefore (a b : UserQuotaReservation) : Prop :=
  a.expiresAt < b.expiresAt ∨ (a.expiresAt = b.expiresAt ∧ a.id ≤ b.id)
  deriving Decidable

/-- `LIMIT` with the default that replaces a non-positive value. -/
def limitOr (default limit : Int) : Nat := (if limit ≤ 0 then default else limit).toNat

/-- The rows a sweep selects. -/
def selectExpired (w : Wallet) (now limit : Int) : List UserQuotaReservation :=
  ((w.reservations.rows.filter (UserQuotaReservation.expired now)).insertionSort
    UserQuotaReservation.expiresBefore).take (limitOr 100 limit)

/-- The loop of the sweep: one refund transaction per selected row. A row that another writer moved
on in the meantime is skipped, any other error ends the sweep. `faults n` is the fault of the `n`-th
transaction of the call; the result is the number of refunds and the error. -/
def refundSelected (faults : Nat → Option Err) :
    Nat → List UserQuotaReservation → Wallet → (Nat × Option Err) × Wallet
  | _, [], w => ((0, none), w)
  | n, row :: rows, w =>
    match refundUserQuotaReservation (faults n) row.requestId row.userId
        "expired wallet reservation refunded" w with
    | (.ok (), w) =>
      let ((refunded, err), w) := refundSelected faults (n + 1) rows w
      ((refunded + 1, err), w)
    | (.error e, w) =>
      if e.is .userQuotaReservationState then refundSelected faults (n + 1) rows w
      else ((0, some e), w)

/-- Refunds the holds that expired before `now`, at most `limit` of them. -/
def refundExpiredUserQuotaReservations (faults : Nat → Option Err) (now limit : Int) (w : Wallet) :
    (Nat × Option Err) × Wallet :=
  match faults 0 with
  | some e => ((0, some e), w)
  | none => refundSelected faults 1 (selectExpired w now limit) w

/-! ## Repair of overdrafts -/

/-- `quota = 0`. -/
def User.clearQuota : Patch User :=
  ⟨fun u => { u with quota := 0 }, fun _ => rfl, fun _ => rfl⟩

/-- `SELECT id, quota FROM users WHERE quota < 0 ORDER BY id LIMIT …`. -/
def selectNegative (w : Wallet) (limit : Int) : List User :=
  ((w.users.rows.filter (fun u => u.quota < 0)).insertionSort (fun a b => a.id ≤ b.id)).take
    (limitOr 1000 limit)

/-- The loop of the repair: forgive the overdraft and record the correction. -/
def repairSelected (repairID : String) : List User → Wallet → Except Err (Nat × Wallet)
  | [], w => pure (0, w)
  | user :: users, w => do
    let update := w.users.updateWhere
      (fun u => u.id = user.id ∧ u.quota = user.quota ∧ u.quota < 0) User.clearQuota
    if update.2 = 0 then repairSelected repairID users w else do
    let w ← createUserQuotaTransactionTx { w with users := update.1 }
      { id := w.transactions.nextId, userId := user.id, requestId := repairID,
        sourceType := "negative_balance_repair", transactionType := "repair",
        deltaQuota := -user.quota, balanceBefore := user.quota, balanceAfter := 0,
        idempotencyKey := s!"{repairID}:{user.id}",
        remark := "historical negative wallet balance repaired after conditional debit rollout" }
    let (repaired, w) ← repairSelected repairID users w
    return (repaired + 1, w)

/-- Lifts overdrawn balances to zero, at most `limit` of them in one transaction. -/
def repairNegativeUserQuotas (fault : Option Err) (repairID : String) (limit : Int) :
    Wallet → Except Err Nat × Wallet :=
  checked (do
    let repairID := trimSpace repairID
    failIf (repairID = "" ∨ 128 < byteLen repairID)
      (.text "repair id must contain 1 to 128 characters")
    return repairID)
  fun repairID => transaction fault (fun w => repairSelected repairID (selectNegative w limit) w)

/-! ## Reconciliation -/

/-- The report of a reconciliation. -/
structure UserQuotaReconciliationReport where
  negativeUsers : Nat
  activeReservations : Nat
  expiredActiveReservations : Nat
  orphanReservations : Nat
  reservationLedgerMismatches : Nat

/-- The sum a reservation's journal entries must have, by its status. -/
def UserQuotaReservation.expectedDelta (r : UserQuotaReservation) : Int :=
  match r.status with
  | .active => -r.reservedQuota
  | .settled => -r.settledQuota
  | .refunded => 0

/-- Compares the reservations with the users and the journal. -/
def reconcileUserQuotaAccounting (now : Int) (w : Wallet) : UserQuotaReconciliationReport where
  negativeUsers := w.users.rows.countP (fun u => u.quota < 0)
  activeReservations := w.reservations.rows.countP (fun r => r.status = .active)
  expiredActiveReservations := w.reservations.rows.countP (UserQuotaReservation.expired now)
  orphanReservations := w.reservations.rows.countP (fun r => (w.users.byId r.userId).isNone)
  reservationLedgerMismatches := w.reservations.rows.countP (fun r =>
    w.transactions.total (fun t => 0 < t.reservationId ∧ t.reservationId = r.id)
      UserQuotaTransaction.deltaQuota ≠ r.expectedDelta)

/-! ## Sequences of effects -/

/-- `Posted allowed w w'`: finitely many ledger effects, each on an allowed request, lead from `w` to
`w'`. -/
def Posted (allowed : Option String → Prop) : Wallet → Wallet → Prop :=
  Relation.ReflTransGen (fun w w' => ∃ request, allowed request ∧ Effect request w w')

namespace Posted

variable {allowed : Option String → Prop} {w w' : Wallet}

theorem refl (w : Wallet) : Posted allowed w w := Relation.ReflTransGen.refl

theorem of_effect {request : Option String} (ha : allowed request) (h : Effect request w w') :
    Posted allowed w w' := Relation.ReflTransGen.single ⟨request, ha, h⟩

/-- The shape in which the effect lemmas come. -/
theorem of_or {request : Option String} (ha : allowed request) (h : w' = w ∨ Effect request w w') :
    Posted allowed w w' := by
  rcases h with rfl | h
  · exact refl w'
  · exact of_effect ha h

theorem trans {w'' : Wallet} (h : Posted allowed w w') (h' : Posted allowed w' w'') :
    Posted allowed w w'' := Relation.ReflTransGen.trans h h'

/-- The invariant rule: what every allowed effect keeps, every sequence of them keeps. -/
theorem keeps {I : Wallet → Prop}
    (hstep : ∀ request a b, allowed request → I a → Effect request a b → I b)
    (h : Posted allowed w w') (hw : I w) : I w' := by
  induction h with
  | refl => exact hw
  | tail _ hstep' ih =>
    obtain ⟨request, ha, heff⟩ := hstep'
    exact hstep request _ _ ha ih heff

end Posted

/-- A call on a reservation posts at most one effect. -/
theorem ReservationOutcome.posted {allowed : Option String → Prop} {requestID : String}
    {Q : UserQuotaReservation → Prop} {w : Wallet} {result : Except Err Unit × Wallet}
    (h : ReservationOutcome requestID Q w result) (hallowed : ∀ k, allowed (some k)) :
    Posted allowed w result.2 := by
  obtain ⟨e, rfl⟩ | ⟨k, w', -, rfl, heff, -⟩ := h
  · exact .refl w
  · exact .of_or (hallowed k) heff

/-- The sweep is a sequence of refunds. -/
theorem refundSelected_posted {allowed : Option String → Prop} (hallowed : ∀ k, allowed (some k))
    (faults : Nat → Option Err) (n : Nat) (rows : List UserQuotaReservation) (w : Wallet) :
    Posted allowed w (refundSelected faults n rows w).2 := by
  induction rows generalizing n w with
  | nil => exact .refl w
  | cons row rows ih =>
    have hone := (refundUserQuotaReservation_outcome (faults n) row.requestId row.userId w
      "expired wallet reservation refunded").posted hallowed
    unfold refundSelected
    split
    · next w₁ heq =>
      rw [heq] at hone
      exact hone.trans (ih (n + 1) w₁)
    · next e w₁ heq =>
      rw [heq] at hone
      split
      · exact hone.trans (ih (n + 1) w₁)
      · exact hone

theorem refundExpiredUserQuotaReservations_posted {allowed : Option String → Prop}
    (hallowed : ∀ k, allowed (some k)) (faults : Nat → Option Err) (now limit : Int) (w : Wallet) :
    Posted allowed w (refundExpiredUserQuotaReservations faults now limit w).2 := by
  unfold refundExpiredUserQuotaReservations
  split
  · exact .refl w
  · exact refundSelected_posted hallowed faults 1 _ w

/-- Each repaired user is one direct posting of the forgiven amount. -/
theorem repairSelected_posted {repairID : String} {users : List User} {w w' : Wallet} {n : Nat}
    (h : repairSelected repairID users w = .ok (n, w')) : Posted (· = none) w w' := by
  induction users generalizing w n with
  | nil =>
    simp only [repairSelected, pure_eq_ok, Prod.mk.injEq] at h
    rw [h.2]
    exact .refl w'
  | cons user users ih =>
    simp only [repairSelected] at h
    split at h
    · exact ih h
    · next hrows =>
      simp only [ok_iff, Prod.mk.injEq, Prod.exists] at h
      obtain ⟨w₁, hpost, n', w₂, hrest, rfl, rfl⟩ := h
      refine Posted.trans ?_ (ih hrest)
      obtain ⟨ts, hts, rfl⟩ := createUserQuotaTransactionTx_eq_ok.mp hpost
      -- some row matched, and by its primary key it is the selected user
      obtain ⟨u, hu, hmatch⟩ := List.countP_pos_iff.mp (Nat.pos_of_ne_zero hrows)
      obtain ⟨hid, hquota, hneg⟩ := of_decide_eq_true hmatch
      have hbyId : w.users.byId user.id = some u := Table.byId_eq_some.mpr ⟨hu, hid⟩
      refine .of_effect rfl (.direct _ rfl ⟨⟨u, hbyId, fun h => absurd h (by omega)⟩, ?_, hts⟩ rfl rfl)
      refine Table.ext (List.map_congr_left fun x hx => ?_)
      by_cases hxid : x.id = user.id
      · obtain rfl : x = u := Table.eq_of_id_eq hx hu (hxid.trans hid.symm)
        simp [hquota, hquota ▸ hneg, User.clearQuota, User.addQuota]
      · simp [hxid]

theorem repairNegativeUserQuotas_posted (fault : Option Err) (repairID : String) (limit : Int)
    (w : Wallet) : Posted (· = none) w (repairNegativeUserQuotas fault repairID limit w).2 :=
  checked_keeps (Posted.refl w) fun _ _ => transaction_keeps (Posted.refl w)
    fun _ _ h => repairSelected_posted h

end Prox
