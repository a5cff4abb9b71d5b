import Prox.Reward.Grant
import Prox.Subscription.Purchase
import Prox.Wallet.Accounting

/-! # Recoverability of balances from the wallet journal

All writers of `users.quota` in the model layer over one database: the ledger calls, the repair of
overdrafts, the reward payouts, the payments and the purchase of a subscription. `Recorded` says that
a change of the balances is matched, user by user, by entries appended to the wallet journal. Every
writer satisfies it but one: a purchase debits the wallet and writes no journal entry, so that a
balance is recoverable from the journal exactly up to the first purchase that costs something. -/

namespace Prox

open List Option

/-! ## One database, all writers -/

/-- The tables of the model layer that take part in a change of a balance. -/
structure Database where
  wallet : Wallet
  budget : Budget
  topUps : Table TopUp
  redemptions : Table Redemption
  subscriptions : SubscriptionDB
  orders : Table SubscriptionOrder

namespace Database

/-- The part a payout works on. -/
def reward (db : Database) : RewardDB := ⟨db.wallet, db.budget⟩

/-- The part a payment works on. -/
def payment (db : Database) : PaymentDB := ⟨db.wallet, db.topUps, db.redemptions⟩

/-- The part a purchase works on. -/
def purchase (db : Database) : PurchaseDB := ⟨db.wallet, db.subscriptions, db.orders⟩

end Database

/-- The operations that change balances. -/
inductive QuotaCall where
  | ledger (call : Call)
  | repairNegative (repairID : String) (limit : Int)
  | reward (call : RewardCall)
  | payment (call : PaymentCall)
  | purchase (userId planId : Int)

/-- One operation with everything it reads from outside the database. -/
structure QuotaEvent where
  call : QuotaCall
  reward : RewardEnv
  payment : PaymentEnv
  purchase : PurchaseEnv

/-- The faults of the transactions of an operation. -/
def QuotaEvent.faults (e : QuotaEvent) : Nat → Option Err := e.purchase.billing.faults

/-- The database after an operation. -/
def Database.step (db : Database) (e : QuotaEvent) : Database :=
  match e.call with
  | .ledger call => { db with wallet := (call.exec e.faults db.wallet).2 }
  | .repairNegative repairID limit =>
    { db with wallet := (repairNegativeUserQuotas (e.faults 0) repairID limit db.wallet).2 }
  | .reward call =>
    let r := (transaction (e.faults 0) (call.tx e.reward) db.reward).2
    { db with wallet := r.wallet, budget := r.budget }
  | .payment call =>
    let r := (call.exec e.payment (e.faults 0) db.payment).2
    { db with wallet := r.wallet, topUps := r.topUps, redemptions := r.redemptions }
  | .purchase userId planId =>
    let r := (purchaseSubscriptionWithBalance e.purchase userId planId db.purchase).2
    { db with wallet := r.wallet, subscriptions := r.subscriptions, orders := r.orders }

/-! ## Recorded changes -/

/-- **The journal explains the balances**: it only grew, and each user's balance moved by the sum of
the user's new entries. -/
structure Recorded (w w' : Wallet) : Prop where
  balance : ∀ i, w'.balance i = (w.balance i).map (· + (w'.journalOf i - w.journalOf i))
  journal : w.transactions.rows <+: w'.transactions.rows

/-- Neither balances nor journal moved; other columns of a user may have. -/
structure SameQuotas (w w' : Wallet) : Prop where
  balance : ∀ i, w'.balance i = w.balance i
  journal : w'.transactions = w.transactions

theorem SameQuotas.refl (w : Wallet) : SameQuotas w w := ⟨fun _ => rfl, rfl⟩

variable {w w' : Wallet}

theorem SameQuotas.journalOf (h : SameQuotas w w') (i : Int) : w'.journalOf i = w.journalOf i := by
  rw [Wallet.journalOf, Wallet.journalOf, h.journal]

namespace Recorded

variable {w'' : Wallet}

theorem refl (w : Wallet) : Recorded w w where
  balance i := by simp
  journal := prefix_rfl

theorem trans (h : Recorded w w') (h' : Recorded w' w'') : Recorded w w'' where
  balance i := by
    rw [h'.balance, h.balance, Option.map_map]
    congr 1
    funext b
    simp only [Function.comp]
    omega
  journal := h.journal.trans h'.journal

/-- A posting is recorded by its own entry. -/
theorem of_posting {t : UserQuotaTransaction} (h : Posting w w' t) : Recorded w w' where
  balance i := by
    rw [h.balance, h.journalOf]
    congr 1
    funext b
    omega
  journal := by
    rw [Table.rows_of_create h.journal]
    exact prefix_append _ _

/-- A change that moves neither balances nor journal is recorded by no entry. -/
theorem of_sameQuotas (h : SameQuotas w w') : Recorded w w' where
  balance i := by
    rw [h.balance, h.journalOf]
    simp
  journal := h.journal ▸ prefix_rfl

/-- Ledger effects are recorded. -/
theorem of_posted {allowed : Option String → Prop} (h : Posted allowed w w') : Recorded w w' := by
  refine h.keeps (I := Recorded w) ?_ (refl w)
  intro request a b _ ha heff
  obtain ⟨t, hpost⟩ := heff.posting
  exact ha.trans (of_posting hpost)

theorem of_mutation {m : UserQuotaMutation} {applied : Bool}
    (h : applyUserQuotaMutationTx w m = .ok (applied, w')) : Recorded w w' :=
  have hposted : Posted (fun _ => True) w w' :=
    Posted.of_or trivial (applyUserQuotaMutationTx_effect h)
  of_posted hposted

end Recorded

/-- Assigning a column other than the quota leaves balances and journal alone. -/
theorem SameQuotas.updateUser (w : Wallet) (id : Int) {patch : Patch User}
    (hpatch : ∀ u, (patch.apply u).quota = u.quota) : SameQuotas w (w.updateUser id patch) where
  balance i := by
    rw [Wallet.balance, Wallet.updateUser, Table.byId_updateWhere, Option.map_map]
    congr 1
    funext u
    simp only [Function.comp]
    split
    · exact hpatch u
    · rfl
  journal := rfl

/-! ## Payments -/

variable {provider sourceType tradeNo : String}

section Payments

variable {env : PaymentEnv} {db db' : PaymentDB}

theorem creditTopUpQuotaTx_recorded {topUp : TopUp} {quota : Int}
    (h : creditTopUpQuotaTx w topUp quota sourceType = .ok w') : Recorded w w' := by
  simp only [creditTopUpQuotaTx, ok_iff, Prod.exists] at h
  obtain ⟨-, -, applied, w₁, happly, rfl⟩ := h
  exact .of_mutation happly

/-- The locked order is the one of the trade number. -/
theorem lockTopUpTx_eq_ok {t : TopUp} {missing : Err} :
    lockTopUpTx db tradeNo missing = .ok t ↔ db.topUps.byKey tradeNo = some t := by
  unfold lockTopUpTx
  split
  · next hnone => simp [hnone]
  · next found => simp [found, pure_eq_ok]

/-- A completion leaves a completed order alone, and saves and credits a pending one. -/
inductive Completes (db : PaymentDB) (t : TopUp) : PaymentDB → Prop
  | again : Completes db t db
  | once {now quota : Int} {method sourceType : String} {w₁ w' : Wallet} (hpending : t.status = .pending)
      (hsame : SameQuotas db.wallet w₁) (hcredit : creditTopUpQuotaTx w₁ t quota sourceType = .ok w') :
      Completes db t { db.complete t now method with wallet := w' }

/-- A completion of the order with the trade number, by the provider if one is given. -/
def CompletesOrder (tradeNo : String) (provider : Option String) (db db' : PaymentDB) : Prop :=
  ∃ t, db.topUps.byKey tradeNo = some t ∧ (∀ p, provider = some p → t.paymentProvider = p) ∧ Completes db t db'

/-- What the three completions that can be repeated do with the locked order. -/
theorem Completes.of_body {t : TopUp} {e e' : Err} {now quota : Int} {method : String}
    (h : (if t.status = .success then return ((), db) else do
      failIf (t.status ≠ .pending) e
      failIf (quota ≤ 0) e'
      let wallet ← creditTopUpQuotaTx db.wallet t quota sourceType
      return ((), { db.complete t now method with wallet })) = Except.ok ((), db')) : Completes db t db' := by
  rcases ite_eq_iff.mp h with ⟨-, h⟩ | ⟨-, h⟩
  · cases h
    exact .again
  · simp only [ok_iff, Prod.mk.injEq, true_and, not_not] at h
    obtain ⟨hpending, -, w₁, hw₁, rfl⟩ := h
    exact .once hpending (.refl _) hw₁

theorem rechargeOnceTx_completes {quotaOf : TopUp → Int} {profile : TopUp → Wallet → Except Err Wallet}
    (hprofile : ∀ t w w', profile t w = .ok w' → SameQuotas w w')
    (h : rechargeOnceTx env provider sourceType quotaOf profile tradeNo db = .ok ((), db')) :
    CompletesOrder tradeNo (some provider) db db' := by
  simp only [rechargeOnceTx, ok_iff, Prod.mk.injEq, true_and, lockTopUpTx_eq_ok, not_not] at h
  obtain ⟨t, ht, hprovider, hpending, -, w₁, hw₁, w₂, hw₂, rfl⟩ := h
  exact ⟨t, ht, fun _ hp => hprovider.trans (Option.some.inj hp), .once hpending (hprofile _ _ _ hw₁) hw₂⟩

theorem storeStripeCustomer_sameQuotas {customerId : String} (topUp : TopUp) (w w' : Wallet)
    (h : storeStripeCustomer customerId topUp w = .ok w') : SameQuotas w w' := by
  cases h
  exact .updateUser w _ fun _ => rfl

theorem storeCustomerEmail_sameQuotas {customerEmail : String} (topUp : TopUp) (w w' : Wallet)
    (h : storeCustomerEmail customerEmail topUp w = .ok w') : SameQuotas w w' := by
  simp only [storeCustomerEmail] at h
  split at h
  · cases h
    exact .refl _
  · split at h
    · cases h
    · rw [pure_eq_ok] at h
      split at h <;> subst h
      · exact .updateUser w _ fun _ => rfl
      · exact .refl _

theorem rechargeIdempotentTx_completes
    (h : rechargeIdempotentTx env provider sourceType tradeNo db = .ok ((), db')) :
    CompletesOrder tradeNo (some provider) db db' := by
  simp only [rechargeIdempotentTx, ok_iff, lockTopUpTx_eq_ok, not_not] at h
  obtain ⟨t, ht, hprovider, h⟩ := h
  exact ⟨t, ht, fun _ hp => hprovider.trans (Option.some.inj hp), .of_body h⟩

theorem rechargeEpayTx_completes {paymentMethod : String}
    (h : rechargeEpayTx env tradeNo paymentMethod db = .ok ((), db')) :
    CompletesOrder tradeNo (some "epay") db db' := by
  simp only [rechargeEpayTx, ok_iff, lockTopUpTx_eq_ok, not_not] at h
  obtain ⟨t, ht, hprovider, h⟩ := h
  exact ⟨t, ht, fun _ hp => hprovider.trans (Option.some.inj hp), .of_body h⟩

theorem manualCompleteTopUpTx_completes (h : manualCompleteTopUpTx env tradeNo db = .ok ((), db')) :
    CompletesOrder tradeNo none db db' := by
  simp only [manualCompleteTopUpTx, bind_eq_ok, lockTopUpTx_eq_ok] at h
  obtain ⟨t, ht, h⟩ := h
  exact ⟨t, ht, (fun _ hp => by cases hp), .of_body h⟩

theorem CompletesOrder.recorded {provider : Option String} (h : CompletesOrder tradeNo provider db db') :
    Recorded db.wallet db'.wallet := by
  obtain ⟨t, -, -, h⟩ := h
  cases h with
  | again => exact .refl _
  | once _ hsame hcredit => exact (Recorded.of_sameQuotas hsame).trans (creditTopUpQuotaTx_recorded hcredit)

theorem updatePendingTopUpStatusTx_recorded {status : TopUpStatus}
    (h : updatePendingTopUpStatusTx tradeNo provider status db = .ok ((), db')) :
    Recorded db.wallet db'.wallet := by
  simp only [updatePendingTopUpStatusTx, ok_iff, Prod.mk.injEq, true_and] at h
  obtain ⟨topUp, -, -, -, rfl⟩ := h
  exact .refl _

theorem redeemTx_recorded {key : String} {userId quota : Int}
    (h : redeemTx env key userId db = .ok (quota, db')) : Recorded db.wallet db'.wallet := by
  simp only [redeemTx] at h
  split at h
  · cases h
  · simp only [ok_iff, Prod.exists, Prod.mk.injEq] at h
    obtain ⟨-, -, -, applied, w₁, happly, -, rfl⟩ := h
    exact .of_mutation happly

theorem checked_transaction_recorded {α β : Type} {args : Except Err α} {fault : Option Err}
    {body : PaymentDB → Except Err (β × PaymentDB)} {db : PaymentDB}
    (hbody : ∀ b db', body db = .ok (b, db') → Recorded db.wallet db'.wallet) :
    Recorded db.wallet (checked args (fun _ => transaction fault body) db).2.wallet :=
  checked_transaction_keeps (P := fun db' : PaymentDB => Recorded db.wallet db'.wallet) (.refl _)
    fun _ => hbody

/-- The same when its error is reported as another one. -/
theorem checked_reportAs_recorded {α β : Type} {args : Except Err α} {e : Err}
    {fault : Option Err} {body : PaymentDB → Except Err (β × PaymentDB)} {db : PaymentDB}
    (hbody : ∀ b db', body db = .ok (b, db') → Recorded db.wallet db'.wallet) :
    Recorded db.wallet
      (checked args (fun _ => reportAs e (transaction fault body)) db).2.wallet := by
  refine checked_keeps (P := fun db' : PaymentDB => Recorded db.wallet db'.wallet) (.refl _) ?_
  intro _ _
  rw [reportAs_snd]
  exact transaction_keeps (P := fun db' : PaymentDB => Recorded db.wallet db'.wallet) (.refl _) hbody

/-- **Payments are recorded.** -/
theorem PaymentCall.exec_recorded (c : PaymentCall) (env : PaymentEnv) (fault : Option Err)
    (db : PaymentDB) : Recorded db.wallet (c.exec env fault db).2.wallet := by
  cases c with
  | recharge referenceId customerId =>
    exact checked_reportAs_recorded fun _ _ h =>
      (rechargeOnceTx_completes storeStripeCustomer_sameQuotas h).recorded
  | rechargeCreem referenceId customerEmail =>
    exact checked_reportAs_recorded fun _ _ h =>
      (rechargeOnceTx_completes storeCustomerEmail_sameQuotas h).recorded
  | rechargeWaffo tradeNo =>
    exact checked_reportAs_recorded fun _ _ h => (rechargeIdempotentTx_completes h).recorded
  | rechargeWaffoPancake tradeNo =>
    exact checked_reportAs_recorded fun _ _ h => (rechargeIdempotentTx_completes h).recorded
  | rechargeEpay tradeNo paymentMethod =>
    exact checked_transaction_recorded fun _ _ h => (rechargeEpayTx_completes h).recorded
  | manualComplete tradeNo =>
    exact checked_transaction_recorded fun _ _ h => (manualCompleteTopUpTx_completes h).recorded
  | updatePending tradeNo provider status =>
    exact checked_transaction_recorded fun _ _ h => updatePendingTopUpStatusTx_recorded h
  | redeem key userId => exact checked_reportAs_recorded fun _ _ h => redeemTx_recorded h

end Payments

/-! ## Purchases -/

variable {plan : SubscriptionPlan}

section Purchases

variable {env : PurchaseEnv} {db db' : PurchaseDB} {userId planId : Int}

/-- The checks of a purchase of `plan` for the quota `q`: the plan is on sale for balance payment,
the user can pay, the purchase limit is not reached, the duration makes sense, and the trade number
is new. -/
structure PurchasePasses (env : PurchaseEnv) (db : PurchaseDB) (userId planId : Int)
    (plan : SubscriptionPlan) (q : Int) : Prop where
  userId_pos : 0 < userId
  planId_pos : 0 < planId
  found : env.billing.plans planId = some plan
  plan_id : plan.id ≠ 0
  enabled : plan.enabled = true
  price_nonneg : 0 ≤ plan.priceAmount
  balancePay : plan.allowBalancePay ≠ some false
  quota : calcSubscriptionBalanceQuota env.quotaPerUnit plan.priceAmount = .ok q
  affordable : 0 < q → ∃ u, db.wallet.users.byId userId = some u ∧ q ≤ u.quota
  limit : ¬ (0 < plan.maxPurchasePerUser ∧ plan.maxPurchasePerUser ≤
    db.subscriptions.subs.rows.countP (fun s => s.userId = userId ∧ s.planId = plan.id))
  duration : ∃ endUnix, calcPlanEndTime env.billing.loc env.billing.now plan = .ok endUnix
  tradeNo : db.orders.byKey env.tradeNo = none

/-- The wallet after the debit of a purchase. -/
def chargedWallet (w : Wallet) (userId q : Int) : Wallet :=
  if 0 < q then w.addQuota userId (-q) else w

theorem debitPurchaseTx_eq_ok {q : Int} :
    debitPurchaseTx w userId q = .ok w' ↔
      (0 < q → 0 < userId ∧ ∃ u, w.users.byId userId = some u ∧ q ≤ u.quota) ∧
        chargedWallet w userId q = w' := by
  unfold debitPurchaseTx chargedWallet
  by_cases hq : 0 < q
  · simp only [if_pos hq]
    cases hd : debitUserQuotaTx w userId q with
    | error e =>
      refine iff_of_false (by simp) ?_
      rintro ⟨haff, -⟩
      obtain ⟨hi, u, hu, hle⟩ := haff hq
      have hok := debitUserQuotaTx_eq_ok.mpr ⟨hi, hq.le, u, hu, .inr hle, rfl, rfl, rfl⟩
      rw [hd] at hok
      cases hok
    | ok r =>
      obtain ⟨⟨b, a⟩, w₁⟩ := r
      obtain ⟨hi, -, u, hu, hcov, -, -, rfl⟩ := debitUserQuotaTx_eq_ok.mp hd
      rw [pure_eq_ok]
      exact ⟨fun h => ⟨fun _ => ⟨hi, u, hu, hcov.resolve_left hq.ne'⟩, h⟩, fun h => h.2⟩
  · simp [hq, pure_eq_ok]

/-- A created subscription changes at most the group of its user. -/
theorem createUserSubscriptionFromPlanTx_eq_ok {senv : SubscriptionEnv} {source : String} :
    (∃ db', createUserSubscriptionFromPlanTx senv userId plan source db = .ok db') ↔
      plan.id ≠ 0 ∧ 0 < userId ∧
      ¬ (0 < plan.maxPurchasePerUser ∧ plan.maxPurchasePerUser ≤
        db.subscriptions.subs.rows.countP (fun s => s.userId = userId ∧ s.planId = plan.id)) ∧
      ∃ endUnix, calcPlanEndTime senv.loc senv.now plan = .ok endUnix := by
  simp only [createUserSubscriptionFromPlanTx, ok_iff, not_le]
  constructor
  · rintro ⟨db', hplan, huser, hlimit, endUnix, hend, -⟩
    exact ⟨hplan, huser, hlimit, endUnix, hend⟩
  · rintro ⟨hplan, huser, hlimit, endUnix, hend⟩
    -- the row has the next id and no other unique column, so the insert succeeds
    obtain ⟨subs, hsubs⟩ := Table.exists_create (t := db.subscriptions.subs)
      (r := plan.instantiate senv db.subscriptions.subs.nextId userId source
        (getUserGroupByIdTx db.wallet userId) endUnix) rfl
      (Table.byKey_eq_none.mpr fun x hx => (Table.id_lt_nextId hx).ne)
    exact ⟨_, hplan, huser, hlimit, endUnix, hend, by rw [hsubs]; rfl⟩

theorem createUserSubscriptionFromPlanTx_sameQuotas {senv : SubscriptionEnv} {source : String}
    (h : createUserSubscriptionFromPlanTx senv userId plan source db = .ok db') :
    SameQuotas db.wallet db'.wallet ∧ db'.orders = db.orders := by
  simp only [createUserSubscriptionFromPlanTx, ok_iff] at h
  obtain ⟨-, -, -, endUnix, -, h⟩ := h
  split at h
  · cases h
  · rw [pure_eq_ok] at h
    subst h
    refine ⟨?_, rfl⟩
    split
    · exact .updateUser _ _ fun _ => rfl
    · exact .refl _

/-- **What a purchase does**: it commits exactly when its checks pass, and then it moves the wallet
by the debit alone. -/
theorem purchaseSubscriptionWithBalanceTx_passes
    (h : purchaseSubscriptionWithBalanceTx env userId planId db = .ok ((), db')) :
    ∃ plan q, PurchasePasses env db userId planId plan q ∧
      SameQuotas (chargedWallet db.wallet userId q) db'.wallet := by
  simp only [purchaseSubscriptionWithBalanceTx, getSubscriptionPlanById, ok_iff,
      debitPurchaseTx_eq_ok, not_lt, Bool.not_eq_false] at h
  obtain ⟨plan, ⟨hplanId, hfound⟩, henabled, hprice, hpay, q, hq, w₁, ⟨haff, rfl⟩, db₁, hcreate, h⟩ := h
  have hfound' : env.billing.plans planId = some plan := by
    split at hfound
    · cases hfound
    · next p hp =>
      cases hfound
      exact hp
  obtain ⟨hplan, huser, hlimit, hend⟩ := createUserSubscriptionFromPlanTx_eq_ok.mp ⟨_, hcreate⟩
  obtain ⟨hsame, horders⟩ := createUserSubscriptionFromPlanTx_sameQuotas hcreate
  split at h
  · cases h
  · next orders hinsert =>
    cases h
    have htrade := Table.byKey_none_of_create hinsert
    rw [horders] at htrade
    exact ⟨plan, q, ⟨huser, by omega, hfound', hplan, henabled, hprice, hpay, hq,
      fun hpos => (haff hpos).2, hlimit, hend, htrade⟩, hsame⟩

/-- A purchase whose checks pass commits. -/
theorem PurchasePasses.commits {q : Int} (h : PurchasePasses env db userId planId plan q) :
    ∃ db', purchaseSubscriptionWithBalanceTx env userId planId db = .ok ((), db') := by
  have hfound : getSubscriptionPlanById env.billing.plans planId = .ok plan := by
    simp only [getSubscriptionPlanById, bind_eq_ok, failIf_eq_ok, exists_const, h.found]
    exact ⟨by have := h.planId_pos; omega, rfl⟩
  have hdebit : debitPurchaseTx db.wallet userId q = .ok (chargedWallet db.wallet userId q) :=
    debitPurchaseTx_eq_ok.mpr ⟨fun hq => ⟨h.userId_pos, h.affordable hq⟩, rfl⟩
  obtain ⟨db₁, hcreate⟩ : ∃ db₁, createUserSubscriptionFromPlanTx env.billing userId plan "balance"
      { db with wallet := chargedWallet db.wallet userId q } = .ok db₁ :=
    createUserSubscriptionFromPlanTx_eq_ok.mpr ⟨h.plan_id, h.userId_pos, h.limit, h.duration⟩
  have horders := (createUserSubscriptionFromPlanTx_sameQuotas hcreate).2
  obtain ⟨orders, hcreated⟩ := Table.exists_create (t := db₁.orders)
    (r := balanceOrder env db₁.orders.nextId userId plan q) rfl (by rw [horders]; exact h.tradeNo)
  refine ⟨{ db₁ with orders }, ?_⟩
  simp only [purchaseSubscriptionWithBalanceTx, bind_eq_ok, failIf_eq_ok, exists_const]
  refine ⟨plan, hfound, by simp [h.enabled], not_lt.mpr h.price_nonneg, h.balancePay, q, h.quota, _,
    hdebit, db₁, hcreate, ?_⟩
  rw [hcreated]
  rfl

end Purchases

/-! ## All writers -/

/-- A debited wallet is not explained by an unchanged journal. -/
theorem not_recorded_of_charged {i q : Int} {u : User} (hq : 0 < q) (hu : w.users.byId i = some u)
    (h : SameQuotas (chargedWallet w i q) w') : ¬ Recorded w w' := by
  intro hrec
  have hjournal : w'.journalOf i = w.journalOf i := by
    rw [h.journalOf, chargedWallet, if_pos hq]
    rfl
  have hbefore : w.balance i = some u.quota := by rw [Wallet.balance, hu]; rfl
  have hafter : w'.balance i = some (u.quota - q) := by
    have huid : u.id = i := (Table.byId_eq_some.mp hu).2
    rw [h.balance, chargedWallet, if_pos hq, Wallet.balance, Wallet.byId_addQuota, hu]
    simp [huid, sub_eq_add_neg]
  have hmoved := hrec.balance i
  rw [hbefore, hafter, map_some, Option.some.injEq] at hmoved
  omega

/-- An uncharged wallet is the wallet itself. -/
theorem recorded_of_uncharged {i q : Int} (hq : ¬ 0 < q) (h : SameQuotas (chargedWallet w i q) w') :
    Recorded w w' := by
  rw [chargedWallet, if_neg hq] at h
  exact .of_sameQuotas h

/-- The operation is a purchase that meets no fault, passes its checks and costs something. -/
def Database.PaysUnrecorded (db : Database) (e : QuotaEvent) : Prop :=
  ∃ userId planId, e.call = .purchase userId planId ∧ e.faults 0 = none ∧
    ∃ plan q, PurchasePasses e.purchase db.purchase userId planId plan q ∧ 0 < q

/-- A purchase leaves everything alone, or it meets no fault, passes its checks and moves the wallet
by its debit. -/
theorem purchaseSubscriptionWithBalance_cases (env : PurchaseEnv) (userId planId : Int)
    (db : PurchaseDB) :
    (purchaseSubscriptionWithBalance env userId planId db).2 = db ∨
      (env.billing.faults 0 = none ∧ ∃ plan q, PurchasePasses env db userId planId plan q ∧
        SameQuotas (chargedWallet db.wallet userId q)
          (purchaseSubscriptionWithBalance env userId planId db).2.wallet) := by
  unfold purchaseSubscriptionWithBalance
  cases hfault : env.billing.faults 0 with
  | some e => exact .inl (checked_transaction_fault _ e _ db)
  | none =>
    rcases checked_transaction_cases (failIf (userId ≤ 0 ∨ planId ≤ 0) _) none
      (fun _ => purchaseSubscriptionWithBalanceTx env userId planId) db
      with ⟨e, he⟩ | ⟨⟨⟩, ⟨⟩, db', -, hbody, he⟩
    · exact .inl (by rw [he])
    · rw [he]
      exact .inr ⟨rfl, purchaseSubscriptionWithBalanceTx_passes hbody⟩

/-- Without a fault a purchase whose checks pass is committed. -/
theorem PurchasePasses.charged {env : PurchaseEnv} {db : PurchaseDB} {userId planId q : Int}
    (h : PurchasePasses env db userId planId plan q) (hfault : env.billing.faults 0 = none) :
    SameQuotas (chargedWallet db.wallet userId q)
      (purchaseSubscriptionWithBalance env userId planId db).2.wallet := by
  obtain ⟨db', hbody⟩ := h.commits
  have hargs : failIf (userId ≤ 0 ∨ planId ≤ 0) (GoError.text "invalid userId or planId" : Err)
      = .ok () := by
    rw [failIf_eq_ok]
    have := h.userId_pos
    have := h.planId_pos
    omega
  rw [purchaseSubscriptionWithBalance, checked_ok hargs, hfault, transaction_ok hbody]
  -- the plan and the price are functions of the call, so the committed debit is this one
  obtain ⟨plan', q', h', hsame⟩ := purchaseSubscriptionWithBalanceTx_passes hbody
  obtain rfl : plan = plan' := mem_unique h.found h'.found
  obtain rfl : q = q' := Except.ok.inj (h.quota.symm.trans h'.quota)
  exact hsame

/-- **Which operations are recorded**: all but the purchases that cost something. -/
theorem Database.step_recorded_iff (db : Database) (e : QuotaEvent) :
    Recorded db.wallet (db.step e).wallet ↔ ¬ db.PaysUnrecorded e := by
  obtain ⟨call, reward, payment, purchase⟩ := e
  cases call with
  | ledger call =>
    refine iff_of_true (.of_posted (call.exec_posted _ db.wallet)) ?_
    rintro ⟨_, _, hcall, -⟩
    cases hcall
  | repairNegative repairID limit =>
    refine iff_of_true (.of_posted (repairNegativeUserQuotas_posted _ repairID limit db.wallet)) ?_
    rintro ⟨_, _, hcall, -⟩
    cases hcall
  | reward call =>
    refine iff_of_true ?_ ?_
    · exact transaction_keeps (P := fun r : RewardDB => Recorded db.wallet r.wallet) (.refl _)
        fun _ _ h => .of_posted (RewardCall.tx_paid h)
    · rintro ⟨_, _, hcall, -⟩
      cases hcall
  | payment call =>
    refine iff_of_true (call.exec_recorded payment _ db.payment) ?_
    rintro ⟨_, _, hcall, -⟩
    cases hcall
  | purchase userId planId =>
    constructor
    · rintro hrec ⟨_, _, hcall, hfault, plan, q, hpasses, hq⟩
      cases hcall
      obtain ⟨u, hu, -⟩ := hpasses.affordable hq
      exact not_recorded_of_charged hq hu (hpasses.charged hfault) hrec
    · intro hfree
      rcases purchaseSubscriptionWithBalance_cases purchase userId planId db.purchase
        with hsame | ⟨hfault, plan, q, hpasses, hcharged⟩
      · have hwallet : (Database.step db ⟨.purchase userId planId, reward, payment, purchase⟩).wallet
            = db.wallet := congrArg PurchaseDB.wallet hsame
        rw [hwallet]
        exact .refl _
      · have hq : ¬ 0 < q := fun hq =>
          hfree ⟨userId, planId, rfl, hfault, plan, q, hpasses, hq⟩
        exact recorded_of_uncharged hq hcharged

/-- **Recoverability of balances.** An operation of the model layer appends journal entries that add
up, user by user, to the change of the balance exactly when it is not a purchase that goes through
and costs something; so in every run without such a purchase, in every state it reaches, each balance
is the initial balance plus the user's new journal entries, and no entry is ever changed or lost. -/
theorem quota_writers_recorded (db : Database) :
    (∀ e, Recorded db.wallet (db.step e).wallet ↔ ¬ db.PaysUnrecorded e) ∧
    ∀ events, Along Database.step (fun db e => ¬ db.PaysUnrecorded e) db events →
      Recorded db.wallet (run Database.step db events).wallet := by
  refine ⟨db.step_recorded_iff, fun events halong => ?_⟩
  refine run_keeps_along (I := fun db' : Database => Recorded db.wallet db'.wallet) ?_ (.refl _)
    halong
  intro db' e hinv hfree
  exact hinv.trans ((db'.step_recorded_iff e).mpr hfree)

/-! ## A purchase -/

/-- A database with one user, one enabled redemption code of 50 and nothing else. -/
def Database.sample (quota : Int) : Database where
  wallet := .single quota
  budget := ⟨.empty, .empty, .empty, .empty⟩
  topUps := .empty
  redemptions := ⟨[{ id := 1, key := "gift", quota := 50 }], by simp [Row.id], by simp, by simp⟩
  subscriptions := ⟨.empty, .empty, .empty, fun _ => 0⟩
  orders := .empty

/-- An operation at time 0 in UTC, with the default of 500000 quota per unit and one plan for a
price of 1 unit. -/
def QuotaCall.atStart (call : QuotaCall) : QuotaEvent where
  call
  reward :=
    { setting := ⟨"", false, false, false, 0, 0, 0, 0, 0, 0, 0⟩, budgetDate := "1970-01-01",
      canonicalSiteID := id, metadata := fun _ => {}, sha256Hex := id }
  payment := ⟨0, 500000⟩
  purchase :=
    { billing := ⟨0, .fixed 0, fun id => if id = 1 then some { id := 1, priceAmount := 1 } else none,
        fun _ => none⟩
      quotaPerUnit := 500000, tradeNo := "SUBBALUSR1NO" }

/-- A redemption and an administrator's mutation keep the balance recoverable. -/
theorem quota_writers_recorded_sample :
    Along Database.step (fun db e => ¬ db.PaysUnrecorded e) (.sample 100)
      [(QuotaCall.payment (.redeem "gift" 1)).atStart,
        (QuotaCall.ledger (.reserve "a" 1 30 "" 0)).atStart] ∧
    (run Database.step (.sample 100) [(QuotaCall.payment (.redeem "gift" 1)).atStart,
      (QuotaCall.ledger (.reserve "a" 1 30 "" 0)).atStart]).wallet.balance 1 = some 120 ∧
    Recorded (Database.sample 100).wallet
      (run Database.step (.sample 100) [(QuotaCall.payment (.redeem "gift" 1)).atStart,
        (QuotaCall.ledger (.reserve "a" 1 30 "" 0)).atStart]).wallet := by
  have halong : Along Database.step (fun db e => ¬ db.PaysUnrecorded e) (.sample 100)
      [(QuotaCall.payment (.redeem "gift" 1)).atStart,
        (QuotaCall.ledger (.reserve "a" 1 30 "" 0)).atStart] := by
    refine ⟨?_, ?_, trivial⟩ <;>
    · rintro ⟨_, _, hcall, -⟩
      cases hcall
  exact ⟨halong, by decide +kernel, (quota_writers_recorded (.sample 100)).2 _ halong⟩

/-- **A purchase leaves no trace in the wallet journal**: it takes 500000 from a balance of 600000
and the journal stays empty. -/
theorem purchase_not_recorded :
    ((Database.sample 600000).step (QuotaCall.purchase 1 1).atStart).wallet.balance 1
      = some 100000 ∧
    ((Database.sample 600000).step (QuotaCall.purchase 1 1).atStart).wallet.journalOf 1 = 0 ∧
    ¬ ∀ (db : Database) (e : QuotaEvent), Recorded db.wallet (db.step e).wallet := by
  have hbalance : ((Database.sample 600000).step (QuotaCall.purchase 1 1).atStart).wallet.balance 1
      = some 100000 := by decide +kernel
  have hjournal : ((Database.sample 600000).step (QuotaCall.purchase 1 1).atStart).wallet.journalOf 1
      = 0 := by decide +kernel
  refine ⟨hbalance, hjournal, fun hall => ?_⟩
  have hmoved := (hall (.sample 600000) (QuotaCall.purchase 1 1).atStart).balance 1
  revert hmoved
  decide +kernel

end Prox
