import Prox.Model.Journal

/-! # A top-up order is credited once

Six calls complete a top-up order and one closes it. Each of them is a transaction that locks the order by
its trade number, so they come one after the other; what they share is the state machine `pending` →
`success`, `failed` or `expired`. The order moves to `success` together with the one journal entry of its
credit, whose key names the order, and a terminal order is never touched again. -/

namespace Prox

open Option

/-! ## The calls on one order -/

/-- The journal key of the credit of an order. -/
def TopUp.creditKey (t : TopUp) : String := trimSpace s!"topup:{t.id}"

/-- The journal has the credit of the order. -/
def PaymentDB.Credited (db : PaymentDB) (t : TopUp) : Prop :=
  ∃ r, db.wallet.transactions.byKey t.creditKey = some r

/-- A payment call with what it reads from outside and the fault its transaction meets, if any. -/
structure PaymentEvent where
  env : PaymentEnv
  fault : Option Err
  call : PaymentCall

/-- The tables after a call. -/
def PaymentDB.step (db : PaymentDB) (e : PaymentEvent) : PaymentDB := (e.call.exec e.env e.fault db).2

/-- A completion of the order with this trade number, or a call that closes it; no order is closed as
successful. -/
def PaymentCall.OnOrder (tradeNo : String) : PaymentCall → Prop
  | .recharge referenceId _ | .rechargeCreem referenceId _ => referenceId = tradeNo
  | .rechargeWaffo tradeNo' | .rechargeWaffoPancake tradeNo' | .rechargeEpay tradeNo' _
  | .manualComplete tradeNo' => tradeNo' = tradeNo
  | .updatePending tradeNo' _ targetStatus => tradeNo' = tradeNo ∧ targetStatus ≠ .success
  | .redeem .. => False

/-- The provider that a call insists on. -/
def PaymentCall.provider : PaymentCall → Option String
  | .recharge .. => some "stripe"
  | .rechargeCreem .. => some "creem"
  | .rechargeWaffo .. => some "waffo"
  | .rechargeWaffoPancake .. => some "waffo_pancake"
  | .rechargeEpay .. => some "epay"
  | .manualComplete .. => none
  | .updatePending _ expectedPaymentProvider _ =>
    if expectedPaymentProvider = "" then none else some expectedPaymentProvider
  | .redeem .. => none

/-! ## What a call does to the order -/

/-- The credit of an order: one journal entry under its key, and the balance it records. -/
structure TopUp.CreditedBy (t : TopUp) (r : UserQuotaTransaction) (w w' : Wallet) : Prop where
  user : r.userId = t.userId
  quota_pos : 0 < r.deltaQuota
  key : r.idempotencyKey = t.creditKey
  journal : w.transactions.create r = some w'.transactions
  balance : ∀ i, w'.balance i = (w.balance i).map (· + if t.userId = i then r.deltaQuota else 0)

/-- A call completes a pending order and credits it, closes it, or changes nothing. -/
inductive OrderMove (tradeNo : String) (t : TopUp) (db db' : PaymentDB) : Prop
  | unchanged (h : db' = db)
  | closed (t' : TopUp) (hpending : t.status = .pending) (hid : t'.id = t.id)
      (huser : t'.userId = t.userId) (hstatus : t'.status ≠ .success)
      (hrow : db'.topUps.byKey tradeNo = some t') (hwallet : db'.wallet = db.wallet)
  | completed (t' : TopUp) (r : UserQuotaTransaction) (hpending : t.status = .pending)
      (hid : t'.id = t.id) (hstatus : t'.status = .success)
      (hrow : db'.topUps.byKey tradeNo = some t') (hcredit : t.CreditedBy r db.wallet db'.wallet)

variable {provider sourceType : String}

section Moves

variable {env : PaymentEnv} {db db' : PaymentDB} {tradeNo : String} {t : TopUp} {w w' : Wallet}

/-- A credit whose key is free is posted. -/
theorem creditTopUpQuotaTx_credited {quota : Int}
    (hfree : ¬ ∃ r, w.transactions.byKey t.creditKey = some r)
    (h : creditTopUpQuotaTx w t quota sourceType = .ok w') : ∃ r, t.CreditedBy r w w' := by
  simp only [creditTopUpQuotaTx, ok_iff, Prod.exists] at h
  obtain ⟨-, hquota, applied, w₁, happly, rfl⟩ := h
  rcases applyUserQuotaMutationTx_cases happly
    with ⟨-, -, r, hr, -⟩ | ⟨-, -, r, hpost, -, hkey, huser, hdelta⟩
  · exact absurd ⟨r, hr⟩ hfree
  · refine ⟨r, huser, ?_, hkey, hpost.journal, fun i => ?_⟩
    · have hquota' : r.deltaQuota = quota := hdelta
      omega
    · rw [hpost.balance, huser]

/-- What precedes a credit may change other columns of the user. -/
theorem TopUp.CreditedBy.of_sameQuotas {r : UserQuotaTransaction} {w₁ : Wallet}
    (h : t.CreditedBy r w₁ w') (hsame : SameQuotas w w₁) : t.CreditedBy r w w' where
  user := h.user
  quota_pos := h.quota_pos
  key := h.key
  journal := hsame.journal ▸ h.journal
  balance i := by rw [h.balance, hsame.balance]

/-- The row of an order after columns of it are assigned. -/
theorem byKey_updateTopUp (ht : db.topUps.byKey tradeNo = some t) (patch : Patch TopUp) :
    (db.topUps.updateWhere (fun x => x.id = t.id) patch).1.byKey tradeNo = some (patch.apply t) := by
  rw [Table.byKey_updateWhere, ht, map_some, if_pos (decide_eq_true rfl)]

/-- A pending order that is credited and saved is completed. -/
theorem OrderMove.of_credit {now : Int} {method : String} {quota : Int}
    (ht : db.topUps.byKey tradeNo = some t) (hfree : ¬ db.Credited t)
    (hpending : t.status = .pending) {w₁ : Wallet} (hsame : SameQuotas db.wallet w₁)
    (hcredit : creditTopUpQuotaTx w₁ t quota sourceType = .ok w') :
    OrderMove tradeNo t db { db.complete t now method with wallet := w' } := by
  have hfree' : ¬ ∃ r, w₁.transactions.byKey t.creditKey = some r := by
    rw [hsame.journal]
    exact hfree
  obtain ⟨r, hr⟩ := creditTopUpQuotaTx_credited hfree' hcredit
  exact .completed (t := t) { t with paymentMethod := method, completeTime := now, status := .success } r
    hpending rfl rfl (byKey_updateTopUp ht _) (hr.of_sameQuotas hsame)

/-- A completion of an order without a credit is a move of it. -/
theorem CompletesOrder.move {provider : Option String} (h : CompletesOrder tradeNo provider db db')
    (ht : db.topUps.byKey tradeNo = some t) (hfree : t.status = .pending → ¬ db.Credited t) :
    OrderMove tradeNo t db db' ∧ ∀ p, provider = some p → t.paymentProvider = p := by
  obtain ⟨t', ht', hprovider, h⟩ := h
  obtain rfl : t' = t := mem_unique ht' ht
  refine ⟨?_, hprovider⟩
  cases h with
  | again => exact .unchanged rfl
  | once hpending hsame hcredit => exact .of_credit ht (hfree hpending) hpending hsame hcredit

theorem updatePendingTopUpStatusTx_move {target : TopUpStatus} (htarget : target ≠ .success)
    (ht : db.topUps.byKey tradeNo = some t)
    (h : updatePendingTopUpStatusTx tradeNo provider target db = .ok ((), db')) :
    OrderMove tradeNo t db db' ∧ (provider ≠ "" → t.paymentProvider = provider) ∧
      t.status = .pending := by
  simp only [updatePendingTopUpStatusTx, ok_iff, Prod.mk.injEq, true_and, lockTopUpTx_eq_ok,
      not_and, not_not] at h
  obtain ⟨t', ht', hprovider, hpending, rfl⟩ := h
  obtain rfl : t' = t := mem_unique ht' ht
  exact ⟨.closed (t := t') { t' with status := target } hpending rfl rfl htarget (byKey_updateTopUp ht _)
    rfl, hprovider, hpending⟩

/-- An operation that is checked, transactional and perhaps reports another error: it fails and changes
nothing, or its body was committed. -/
theorem exec_cases {args : Except Err Unit} {fault : Option Err}
    {body : PaymentDB → Except Err (Unit × PaymentDB)} {r : Option Err × PaymentDB}
    (h : r = outcome (checked args (fun _ => transaction fault body) db) ∨
      ∃ e, r = outcome (checked args (fun _ => reportAs e (transaction fault body)) db)) :
    (r.1 ≠ none ∧ r.2 = db) ∨ r.1 = none ∧ body db = .ok ((), r.2) := by
  have hcases := checked_transaction_cases args fault (fun _ => body) db
  rcases h with rfl | ⟨e, rfl⟩
  · rcases hcases with ⟨err, heq⟩ | ⟨⟨⟩, ⟨⟩, db', -, hbody, heq⟩
    · rw [heq]
      exact .inl ⟨by simp, rfl⟩
    · rw [heq]
      exact .inr ⟨rfl, hbody⟩
  · cases args with
    | error err => exact .inl ⟨by simp [checked], rfl⟩
    | ok u =>
      rw [checked_ok rfl]
      rcases transaction_cases fault body db with ⟨err, heq⟩ | ⟨⟨⟩, db', hbody, heq⟩
      · rw [reportAs, heq]
        exact .inl ⟨by simp, rfl⟩
      · rw [reportAs, heq]
        exact .inr ⟨rfl, hbody⟩

/-- **Step lemma**: a call on the order fails without effect, or the provider is right and it makes a move
of the order. -/
theorem PaymentCall.exec_move (env : PaymentEnv) {c : PaymentCall} (hon : c.OnOrder tradeNo) (fault : Option Err)
    (ht : db.topUps.byKey tradeNo = some t) (hfree : t.status = .pending → ¬ db.Credited t) :
    ((c.exec env fault db).1 ≠ none ∧ (c.exec env fault db).2 = db) ∨
      (c.exec env fault db).1 = none ∧ OrderMove tradeNo t db (c.exec env fault db).2 ∧
        ∀ p, c.provider = some p → t.paymentProvider = p := by
  cases c with
  | recharge referenceId customerId =>
    obtain rfl : referenceId = tradeNo := hon
    exact (exec_cases (.inr ⟨_, rfl⟩)).imp_right fun ⟨hok, hbody⟩ =>
      ⟨hok, (rechargeOnceTx_completes storeStripeCustomer_sameQuotas hbody).move ht hfree⟩
  | rechargeCreem referenceId customerEmail =>
    obtain rfl : referenceId = tradeNo := hon
    exact (exec_cases (.inr ⟨_, rfl⟩)).imp_right fun ⟨hok, hbody⟩ =>
      ⟨hok, (rechargeOnceTx_completes storeCustomerEmail_sameQuotas hbody).move ht hfree⟩
  | rechargeWaffo tradeNo' | rechargeWaffoPancake tradeNo' =>
    obtain rfl : tradeNo' = tradeNo := hon
    exact (exec_cases (.inr ⟨_, rfl⟩)).imp_right fun ⟨hok, hbody⟩ =>
      ⟨hok, (rechargeIdempotentTx_completes hbody).move ht hfree⟩
  | rechargeEpay tradeNo' paymentMethod =>
    obtain rfl : tradeNo' = tradeNo := hon
    exact (exec_cases (.inl rfl)).imp_right fun ⟨hok, hbody⟩ =>
      ⟨hok, (rechargeEpayTx_completes hbody).move ht hfree⟩
  | manualComplete tradeNo' =>
    obtain rfl : tradeNo' = tradeNo := hon
    exact (exec_cases (.inl rfl)).imp_right fun ⟨hok, hbody⟩ =>
      ⟨hok, (manualCompleteTopUpTx_completes hbody).move ht hfree⟩
  | updatePending tradeNo' provider target =>
    obtain ⟨rfl, htarget⟩ := hon
    refine (exec_cases (.inl rfl)).imp_right fun ⟨hok, hbody⟩ => ⟨hok, ?_⟩
    obtain ⟨hmove, hprovider, -⟩ := updatePendingTopUpStatusTx_move htarget ht hbody
    refine ⟨hmove, fun p hp => ?_⟩
    rw [PaymentCall.provider] at hp
    split at hp
    · cases hp
    · next hne => exact (hprovider hne).trans (Option.some.inj hp)
  | redeem => exact hon.elim

end Moves

/-! ## Runs -/

section Runs

variable {db : PaymentDB} {tradeNo : String} {t t' : TopUp} {r : UserQuotaTransaction} {w w' : Wallet}

theorem creditKey_congr (hid : t'.id = t.id) : t'.creditKey = t.creditKey := by
  rw [TopUp.creditKey, TopUp.creditKey, hid]

/-- A credit is found under the key of its order. -/
theorem TopUp.CreditedBy.found (h : t.CreditedBy r w w') :
    w'.transactions.byKey t.creditKey = some r :=
  (Table.byKey_of_create h.journal _).trans (if_pos h.key)

theorem TopUp.CreditedBy.congr (h : t'.CreditedBy r w w') (hid : t'.id = t.id)
    (huser : t'.userId = t.userId) : t.CreditedBy r w w' where
  user := h.user.trans huser
  quota_pos := h.quota_pos
  key := h.key.trans (creditKey_congr hid)
  journal := h.journal
  balance i := by rw [h.balance, huser]

/-- **A terminal order is left alone**, and so is the wallet. -/
theorem run_of_terminal {events : List PaymentEvent} (ht : db.topUps.byKey tradeNo = some t)
    (hterminal : t.status ≠ .pending) (hon : ∀ e ∈ events, e.call.OnOrder tradeNo) :
    run PaymentDB.step db events = db := by
  induction events with
  | nil => rfl
  | cons e es ih =>
    obtain ⟨he, hes⟩ := List.forall_mem_cons.mp hon
    have hstep : db.step e = db := by
      rcases PaymentCall.exec_move e.env he e.fault ht fun h => absurd h hterminal
        with ⟨-, hsame⟩ | ⟨-, hmove, -⟩
      · exact hsame
      · cases hmove with
        | unchanged hsame => exact hsame
        | closed _ hpending => exact absurd hpending hterminal
        | completed _ _ hpending => exact absurd hpending hterminal
    rw [run_cons, hstep, ih hes]

/-- **Run lemma**: a run leaves the wallet alone or credits the pending order once, and the status says
which. -/
theorem run_order {events : List PaymentEvent} (ht : db.topUps.byKey tradeNo = some t)
    (hcredited : t.status = .success ↔ db.Credited t) (hon : ∀ e ∈ events, e.call.OnOrder tradeNo) :
    (∃ t', (run PaymentDB.step db events).topUps.byKey tradeNo = some t' ∧ t'.id = t.id ∧
      (t'.status = .success ↔ (run PaymentDB.step db events).Credited t)) ∧
    ((run PaymentDB.step db events).wallet = db.wallet ∨
      t.status = .pending ∧ ∃ r, t.CreditedBy r db.wallet (run PaymentDB.step db events).wallet) := by
  induction events generalizing db t with
  | nil => exact ⟨⟨t, ht, rfl, hcredited⟩, .inl rfl⟩
  | cons e es ih =>
    obtain ⟨he, hes⟩ := List.forall_mem_cons.mp hon
    have hfree : t.status = .pending → ¬ db.Credited t := fun hpending hcred => by
      have := hcredited.mpr hcred
      rw [hpending] at this
      cases this
    rcases PaymentCall.exec_move e.env he e.fault ht hfree with ⟨-, hsame⟩ | ⟨-, hmove, -⟩
    · have hstep : db.step e = db := hsame
      rw [run_cons, hstep]
      exact ih ht hcredited hes
    · cases hmove with
      | unchanged hsame =>
        have hstep : db.step e = db := hsame
        rw [run_cons, hstep]
        exact ih ht hcredited hes
      | closed t' hpending hid huser hstatus hrow hwallet =>
        -- neither successful nor credited
        have hcredited' : t'.status = .success ↔ (db.step e).Credited t' := by
          refine iff_of_false hstatus ?_
          rw [PaymentDB.Credited, PaymentDB.step, hwallet, creditKey_congr hid]
          exact hfree hpending
        obtain ⟨⟨t'', hrow'', hid'', hiff⟩, hrest⟩ :=
          ih (show (db.step e).topUps.byKey tradeNo = some t' from hrow) hcredited' hes
        rw [PaymentDB.Credited, creditKey_congr hid] at hiff
        rw [PaymentDB.step, hwallet] at hrest
        refine ⟨⟨t'', hrow'', hid''.trans hid, hiff⟩, hrest.imp_right fun ⟨_, r, hr⟩ => ?_⟩
        exact ⟨hpending, r, hr.congr hid huser⟩
      | completed t' r hpending hid hstatus hrow hcredit =>
        -- the rest of the run finds a terminal order
        have hterminal : t'.status ≠ .pending := by
          rw [hstatus]
          decide
        have hrun : run PaymentDB.step (db.step e) es = db.step e := run_of_terminal hrow hterminal hes
        rw [run_cons, hrun]
        exact ⟨⟨t', hrow, hid, iff_of_true hstatus ⟨r, hcredit.found⟩⟩, .inr ⟨hpending, r, hcredit⟩⟩

end Runs

/-- **A paid order is credited at most once.** From an order that is successful exactly when the journal
has its credit, in every sequence of completions and closings on its trade number, with faults: it stays
successful exactly when it is credited, a terminal order and its wallet never change, the wallet is left
alone or gets one credit, and a call that fails, as one of the wrong provider does, changes nothing. -/
theorem topUp_credited_once (db : PaymentDB) (tradeNo : String) (t : TopUp)
    (ht : db.topUps.byKey tradeNo = some t) (hcredited : t.status = .success ↔ db.Credited t)
    (events : List PaymentEvent) (hon : ∀ e ∈ events, e.call.OnOrder tradeNo) :
    (∃ t', (run PaymentDB.step db events).topUps.byKey tradeNo = some t' ∧ t'.id = t.id ∧
      (t'.status = .success ↔ (run PaymentDB.step db events).Credited t)) ∧
    (t.status ≠ .pending → run PaymentDB.step db events = db) ∧
    ((run PaymentDB.step db events).wallet = db.wallet ∨
      t.status = .pending ∧ ∃ r, t.CreditedBy r db.wallet (run PaymentDB.step db events).wallet) ∧
    ∀ (env : PaymentEnv) (fault : Option Err) (c : PaymentCall), c.OnOrder tradeNo →
      ((c.exec env fault db).1 ≠ none → (c.exec env fault db).2 = db) ∧
      ∀ p, c.provider = some p → t.paymentProvider ≠ p → (c.exec env fault db).1 ≠ none := by
  obtain ⟨hstatus, hwallet⟩ := run_order ht hcredited hon
  refine ⟨hstatus, fun hterminal => run_of_terminal ht hterminal hon, hwallet, fun env fault c hc => ?_⟩
  have hfree : t.status = .pending → ¬ db.Credited t := fun hpending hcred => by
    have := hcredited.mpr hcred
    rw [hpending] at this
    cases this
  rcases PaymentCall.exec_move env hc fault ht hfree with ⟨herr, hsame⟩ | ⟨hok, -, hprovider⟩
  · exact ⟨fun _ => hsame, fun _ _ _ => herr⟩
  · exact ⟨fun herr => absurd hok herr, fun p hp hne => absurd (hprovider p hp) hne⟩

/-- A pending order for three currency units. -/
def pendingOrder : TopUp where
  id := 1
  userId := 1
  amount := 3
  money := 3
  tradeNo := "trade"
  paymentMethod := "alipay"
  paymentProvider := "epay"
  status := .pending

/-- A user with five units of quota and the order. -/
def pendingOrderDB : PaymentDB where
  wallet := .ofUser 5 ""
  topUps := ⟨[pendingOrder], by decide, by decide, by decide⟩
  redemptions := .empty

/-- The webhook comes twice, an administrator completes the order, too, and then it expires. -/
def orderEvents : List PaymentEvent :=
  [⟨⟨100, 10⟩, none, .rechargeEpay "trade" ""⟩, ⟨⟨101, 10⟩, none, .rechargeEpay "trade" ""⟩,
    ⟨⟨102, 10⟩, none, .manualComplete "trade"⟩, ⟨⟨103, 10⟩, none, .updatePending "trade" "" .expired⟩]

theorem topUp_credited_once_epay :
    (run PaymentDB.step pendingOrderDB orderEvents).wallet.balance 1 = some 35 ∧
    ((run PaymentDB.step pendingOrderDB orderEvents).wallet = pendingOrderDB.wallet ∨
      pendingOrder.status = .pending ∧ ∃ r, pendingOrder.CreditedBy r pendingOrderDB.wallet
        (run PaymentDB.step pendingOrderDB orderEvents).wallet) := by
  have hrow : pendingOrderDB.topUps.byKey "trade" = some pendingOrder := by decide
  have hcredited : pendingOrder.status = .success ↔ pendingOrderDB.Credited pendingOrder :=
    iff_of_false (by decide) fun ⟨_, hr⟩ => by cases hr
  exact ⟨by decide +kernel, (topUp_credited_once pendingOrderDB "trade" pendingOrder hrow hcredited
    orderEvents (by simp [orderEvents, PaymentCall.OnOrder])).2.2.1⟩

/-- A call that closes a pending order as successful leaves it so without a credit. -/
theorem topUp_success_without_credit :
    ((PaymentCall.updatePending "trade" "" .success).exec ⟨100, 10⟩ none pendingOrderDB).1 = none ∧
    (((PaymentCall.updatePending "trade" "" .success).exec ⟨100, 10⟩ none pendingOrderDB).2.topUps.byKey
      "trade").map TopUp.status = some .success ∧
    ((PaymentCall.updatePending "trade" "" .success).exec ⟨100, 10⟩ none pendingOrderDB).2.wallet.balance 1
      = some 5 := by
  decide

end Prox
