import Prox.Payment.CreditOnce

/-! # Every completion of an order credits the same

`ManualCompleteTopUp` stands in for the completion that the webhook of the payment provider missed. Both
compute the quota of the order on their own, from its amount or from its money. What a completion does to
a pending order follows from that quota alone: an order without one is rejected for its amount, and any
other is credited with it, if its user exists. So two completions agree exactly when their quotas do. -/

namespace Prox

open Option

/-! ## The completions of the providers -/

/-- The payment providers. -/
inductive PaymentProvider where
  | stripe
  | creem
  | waffo
  | waffoPancake
  | epay
  deriving DecidableEq

namespace PaymentProvider

/-- The `payment_provider` column of an order of the provider. -/
def name : PaymentProvider → String
  | stripe => "stripe"
  | creem => "creem"
  | waffo => "waffo"
  | waffoPancake => "waffo_pancake"
  | epay => "epay"

/-- The transaction of the provider's own completion; `detail` is what the webhook tells besides the trade
number: the customer of Stripe, the email address of Creem, the payment method of Epay. -/
def completeTx (env : PaymentEnv) (tradeNo detail : String) :
    PaymentProvider → PaymentDB → Except Err (Unit × PaymentDB)
  | stripe => rechargeTx env tradeNo detail
  | creem => rechargeCreemTx env tradeNo detail
  | waffo => rechargeWaffoTx env tradeNo
  | waffoPancake => rechargeWaffoPancakeTx env tradeNo
  | epay => rechargeEpayTx env tradeNo detail

/-- The quota by which the provider's own completion counts an order. -/
def quotaOf (env : PaymentEnv) (t : TopUp) : PaymentProvider → Int
  | stripe => quotaOfMoney env t
  | creem => t.amount
  | waffo | waffoPancake | epay => quotaOfAmount env t

end PaymentProvider

/-! ## What a completion credits -/

/-- The error of an order whose quota is not positive. -/
def invalidQuota : Err := .text "无效的充值额度"

/-- The quota that a completion credited to the user of the order, if it completed it. -/
def creditedQuota (db : PaymentDB) (t : TopUp) : Except Err (Unit × PaymentDB) → Option Int
  | .error _ => none
  | .ok (_, db') =>
    some ((db'.wallet.balance t.userId).getD 0 - (db.wallet.balance t.userId).getD 0)

/-- Two completions credit the same quota, and one rejects the order for its amount exactly when the other
does. -/
def CreditAlike (db : PaymentDB) (t : TopUp) (r r' : Except Err (Unit × PaymentDB)) : Prop :=
  creditedQuota db t r = creditedQuota db t r' ∧ (r = .error invalidQuota ↔ r' = .error invalidQuota)

/-- A completion counts the order as `quota`: it rejects what is not positive, and credits anything else to
the user, who may be missing. -/
structure CountsAs (db : PaymentDB) (t : TopUp) (quota : Int) (r : Except Err (Unit × PaymentDB)) : Prop where
  rejected : quota ≤ 0 → r = .error invalidQuota
  accepted : 0 < quota →
    r ≠ .error invalidQuota ∧ creditedQuota db t r = (db.wallet.balance t.userId).map fun _ => quota

/-- Two completions that count an order agree when they count it alike. -/
theorem creditAlike_iff {db : PaymentDB} {t : TopUp} {q q' : Int} {r r' : Except Err (Unit × PaymentDB)}
    (h : CountsAs db t q r) (h' : CountsAs db t q' r') :
    CreditAlike db t r r' ↔ q = q' ∨ q ≤ 0 ∧ q' ≤ 0 ∨
      0 < q ∧ 0 < q' ∧ db.wallet.balance t.userId = none := by
  unfold CreditAlike
  rcases le_or_gt q 0 with hq | hq <;> rcases le_or_gt q' 0 with hq' | hq'
  · rw [h.rejected hq, h'.rejected hq']
    exact iff_of_true ⟨rfl, Iff.rfl⟩ (.inr (.inl ⟨hq, hq'⟩))
  · refine iff_of_false (fun hboth => (h'.accepted hq').1 (hboth.2.mp (h.rejected hq))) ?_
    omega
  · refine iff_of_false (fun hboth => (h.accepted hq).1 (hboth.2.mpr (h'.rejected hq'))) ?_
    omega
  · obtain ⟨hne, hcredited⟩ := h.accepted hq
    obtain ⟨hne', hcredited'⟩ := h'.accepted hq'
    rw [hcredited, hcredited']
    have hreject : r = .error invalidQuota ↔ r' = .error invalidQuota := iff_of_false hne hne'
    cases db.wallet.balance t.userId with
    | none => exact iff_of_true ⟨rfl, hreject⟩ (.inr (.inr ⟨hq, hq', rfl⟩))
    | some b =>
      simp only [map_some, Option.some.injEq, hreject, and_true]
      exact ⟨.inl, fun hcases => by rcases hcases with heq | hneg | ⟨-, -, hnone⟩ <;> first | omega | cases hnone⟩

/-! ## What follows the amount -/

section Credit

variable {w w₁ : Wallet} {t : TopUp} {db : PaymentDB} {quota : Int} {sourceType : String}

/-- The key of an order is not trimmed and is short enough for the journal. -/
theorem creditKey_accepted (hpos : 0 < t.id) (hlt : t.id < 2 ^ 63) :
    t.creditKey = s!"topup:{t.id}" ∧ t.creditKey ≠ "" ∧ byteLen t.creditKey ≤ 128 := by
  obtain ⟨htrim, hne⟩ := trimSpace_label_append (s := "topup:") (by decide +kernel) (by decide) t.id
  have hkey : t.creditKey = "topup:" ++ toString t.id := htrim
  have hlen := byteLen_toString_le hpos hlt
  have hlabel : byteLen "topup:" = 6 := by decide
  rw [hkey]
  refine ⟨rfl, hne, ?_⟩
  simp only [byteLen] at hlen hlabel ⊢
  rw [String.utf8ByteSize_append]
  omega

/-- The mutation of a credit passes its checks. -/
theorem normalizeUserQuotaMutation_credit (hpos : 0 < t.id) (hlt : t.id < 2 ^ 63) (huser : 0 < t.userId)
    (hsource : ∃ s, normalizeUserQuotaSource sourceType = .ok s) (delta : Int) (remark : String) :
    ∃ m, normalizeUserQuotaMutation
      { userID := t.userId, deltaQuota := delta, requestID := s!"topup:{t.id}", sourceType,
        transactionType := "topup_credit", idempotencyKey := s!"topup:{t.id}", remark } = .ok m := by
  obtain ⟨-, hne, hlen⟩ := creditKey_accepted hpos hlt
  obtain ⟨s, hs⟩ := hsource
  have hrequest : normalizeUserQuotaRequest s!"topup:{t.id}" = .ok t.creditKey := by
    simp only [normalizeUserQuotaRequest, ok_iff]
    exact ⟨not_or.mpr ⟨hne, not_lt.mpr hlen⟩, rfl⟩
  have htype : ¬ (trimSpace "topup_credit" = "" ∨ 32 < byteLen (trimSpace "topup_credit")) := by decide +kernel
  have hkey : ¬ (t.creditKey = "" ∨ 191 < byteLen t.creditKey) := not_or.mpr ⟨hne, by omega⟩
  simp only [normalizeUserQuotaMutation, ok_iff]
  exact ⟨_, not_le.mpr huser, _, hrequest, _, hs, htype, hkey, rfl⟩

/-- A credit whose key is free raises the balance of its user by the quota. -/
theorem creditTopUpQuotaTx_balance {w' : Wallet} (hfree : ¬ ∃ r, w.transactions.byKey t.creditKey = some r)
    (h : creditTopUpQuotaTx w t quota sourceType = .ok w') :
    w'.balance t.userId = (w.balance t.userId).map (· + quota) := by
  simp only [creditTopUpQuotaTx, ok_iff, Prod.exists] at h
  obtain ⟨-, -, applied, w₁, happly, rfl⟩ := h
  rcases applyUserQuotaMutationTx_cases happly with ⟨-, -, r, hr, -⟩ | ⟨-, -, r, hpost, -, -, huser, hdelta⟩
  · exact absurd ⟨r, hr⟩ hfree
  · rw [hpost.balance, if_pos huser, hdelta]

/-- A credit whose key is free is posted to the balance of its user, or the user is missing. -/
theorem creditTopUpQuotaTx_posted (hpos : 0 < t.id) (hlt : t.id < 2 ^ 63) (hquota : 0 < quota)
    (hsource : ∃ s, normalizeUserQuotaSource sourceType = .ok s)
    (hfree : ¬ ∃ r, w.transactions.byKey t.creditKey = some r) :
    (∃ b, w.balance t.userId = some b ∧ ∃ w', creditTopUpQuotaTx w t quota sourceType = .ok w' ∧
      w'.balance t.userId = some (b + quota)) ∨
    w.balance t.userId = none ∧ ∃ e, creditTopUpQuotaTx w t quota sourceType = .error e ∧ e ≠ invalidQuota := by
  have hfree' : w.transactions.byKey t.creditKey = none := by
    rw [eq_none_iff_forall_ne_some]
    exact fun r hr => hfree ⟨r, hr⟩
  cases huser : w.users.byId t.userId with
  | some u =>
    have hid : 0 < t.userId := by
      obtain ⟨hmem, hid⟩ := Table.byId_eq_some.mp huser
      exact hid ▸ w.users.id_pos u hmem
    obtain ⟨w', happly⟩ := applyUserQuotaMutationTx_credits (w := w) huser hquota
      (normalizeUserQuotaMutation_credit hpos hlt hid hsource quota s!"topup trade {t.tradeNo}") hfree'
    have hcredit : creditTopUpQuotaTx w t quota sourceType = .ok w' := by
      simp only [creditTopUpQuotaTx, ok_iff, Prod.exists]
      exact ⟨by omega, by omega, true, w', happly, rfl⟩
    have hbalance : w.balance t.userId = some u.quota := by rw [Wallet.balance, huser, map_some]
    refine .inl ⟨u.quota, hbalance, w', hcredit, ?_⟩
    rw [creditTopUpQuotaTx_balance hfree hcredit, hbalance, map_some]
  | none =>
    refine .inr ⟨by rw [Wallet.balance, huser, map_none], ?_⟩
    by_cases hid : 0 < t.userId
    · obtain ⟨m, hm⟩ := normalizeUserQuotaMutation_credit hpos hlt hid hsource quota
        s!"topup trade {t.tradeNo}"
      have happly := applyUserQuotaMutationTx_missing (w := w) huser hquota ⟨m, hm⟩ hfree'
      refine ⟨.sentinel .recordNotFound, ?_, by decide⟩
      simp only [creditTopUpQuotaTx, bind_eq_error, failIf_eq_error, ok_iff]
      exact .inr ⟨by omega, .inr ⟨by omega, .inl happly⟩⟩
    · refine ⟨.text "invalid topup credit context", ?_, by decide⟩
      simp only [creditTopUpQuotaTx, bind_eq_error, failIf_eq_error]
      exact .inl ⟨.inr (not_lt.mp hid), trivial⟩

/-- **A completion is told by its quota**: after the check of the quota and the profile of the user only the
credit is left, which posts the quota or finds its user missing. -/
theorem CountsAs.of_credit (sourceType : String) (profile : Except Err Wallet) (db' : PaymentDB)
    {r : Except Err (Unit × PaymentDB)} (hpos : 0 < t.id) (hlt : t.id < 2 ^ 63)
    (hfree : ¬ db.Credited t)
    (hsource : ∃ s, normalizeUserQuotaSource sourceType = .ok s)
    (hprofile : (∃ w₁, profile = .ok w₁ ∧ SameQuotas db.wallet w₁) ∨
      profile = .error (.sentinel .recordNotFound) ∧ db.wallet.balance t.userId = none)
    (hreject : quota ≤ 0 → r = .error invalidQuota)
    (haccept : 0 < quota → r = (do
      let w₁ ← profile
      let wallet ← creditTopUpQuotaTx w₁ t quota sourceType
      return ((), { db' with wallet }))) : CountsAs db t quota r := by
  refine ⟨hreject, fun hquota => ?_⟩
  rw [haccept hquota]
  rcases hprofile with ⟨w₁, rfl, hsame⟩ | ⟨rfl, hmissing⟩
  · have hfree₁ : ¬ ∃ r, w₁.transactions.byKey t.creditKey = some r := by
      rw [hsame.journal]
      exact hfree
    rw [← hsame.balance]
    rcases creditTopUpQuotaTx_posted hpos hlt hquota hsource hfree₁
      with ⟨b, hb, w', hw', hb'⟩ | ⟨hmissing, e, he, hne⟩
    · simp only [hw', bind, Except.bind, pure, Except.pure, creditedQuota, hb', ← hsame.balance, hb]
      simp
    · simp only [he, bind, Except.bind, creditedQuota, hmissing]
      simpa using hne
  · simp [bind, Except.bind, creditedQuota, hmissing, invalidQuota]

end Credit

/-! ## The completions count the order -/

section Completions

variable (env : PaymentEnv) {db : PaymentDB} {tradeNo : String} {t : TopUp}

theorem storeStripeCustomer_ok (customerId : String) (t : TopUp) (w : Wallet) :
    ∃ w₁, storeStripeCustomer customerId t w = .ok w₁ ∧ SameQuotas w w₁ :=
  ⟨_, rfl, storeStripeCustomer_sameQuotas t w _ rfl⟩

/-- Only a missing user keeps the email address from being stored. -/
theorem storeCustomerEmail_cases (customerEmail : String) (t : TopUp) (w : Wallet) :
    (∃ w₁, storeCustomerEmail customerEmail t w = .ok w₁ ∧ SameQuotas w w₁) ∨
      storeCustomerEmail customerEmail t w = .error (.sentinel .recordNotFound) ∧ w.balance t.userId = none := by
  cases h : storeCustomerEmail customerEmail t w with
  | ok w₁ => exact .inl ⟨w₁, rfl, storeCustomerEmail_sameQuotas t w w₁ h⟩
  | error e =>
    simp only [storeCustomerEmail] at h
    split at h
    · cases h
    · split at h
      · next hnone =>
        cases h
        exact .inr ⟨rfl, by rw [Wallet.balance, hnone, map_none]⟩
      · cases h

variable (ht : db.topUps.byKey tradeNo = some t) (hpending : t.status = .pending) (hid : t.id < 2 ^ 63)
  (hfree : ¬ db.Credited t)
include ht hpending hid hfree

theorem rechargeOnceTx_countsAs (quotaOf : TopUp → Int) {provider sourceType : String}
    {profile : TopUp → Wallet → Except Err Wallet}
    (hsource : ∃ s, normalizeUserQuotaSource sourceType = .ok s)
    (hprofile : (∃ w₁, profile t db.wallet = .ok w₁ ∧ SameQuotas db.wallet w₁) ∨
      profile t db.wallet = .error (.sentinel .recordNotFound) ∧ db.wallet.balance t.userId = none)
    (hprovider : t.paymentProvider = provider) :
    CountsAs db t (quotaOf t) (rechargeOnceTx env provider sourceType quotaOf profile tradeNo db) := by
  have hpos : 0 < t.id := db.topUps.id_pos t (Table.byKey_eq_some.mp ht).1
  have hlock : ∀ e, lockTopUpTx db tradeNo e = .ok t := fun e => lockTopUpTx_eq_ok.mpr ht
  refine .of_credit sourceType _ (db.complete t env.now t.paymentMethod) hpos hid hfree hsource hprofile
    (fun hquota => ?_) fun hquota => ?_
  · simp [rechargeOnceTx, hlock, hprovider, hpending, hquota, failIf, bind, Except.bind, invalidQuota]
  · simp [rechargeOnceTx, hlock, hprovider, hpending, not_le.mpr hquota, failIf, bind, Except.bind,
      pure, PaymentDB.complete]

theorem rechargeIdempotentTx_countsAs {provider sourceType : String}
    (hsource : ∃ s, normalizeUserQuotaSource sourceType = .ok s) (hprovider : t.paymentProvider = provider) :
    CountsAs db t (quotaOfAmount env t) (rechargeIdempotentTx env provider sourceType tradeNo db) := by
  have hpos : 0 < t.id := db.topUps.id_pos t (Table.byKey_eq_some.mp ht).1
  have hlock : ∀ e, lockTopUpTx db tradeNo e = .ok t := fun e => lockTopUpTx_eq_ok.mpr ht
  refine .of_credit sourceType (.ok db.wallet) (db.complete t env.now t.paymentMethod) hpos hid hfree
    hsource (.inl ⟨_, rfl, .refl _⟩) (fun hquota => ?_) fun hquota => ?_
  · simp [rechargeIdempotentTx, hlock, hprovider, hpending, hquota, failIf, bind, Except.bind, invalidQuota]
  · simp [rechargeIdempotentTx, hlock, hprovider, hpending, not_le.mpr hquota, failIf, bind,
      Except.bind, pure, PaymentDB.complete]

theorem rechargeEpayTx_countsAs {paymentMethod : String} (hprovider : t.paymentProvider = "epay") :
    CountsAs db t (quotaOfAmount env t) (rechargeEpayTx env tradeNo paymentMethod db) := by
  have hpos : 0 < t.id := db.topUps.id_pos t (Table.byKey_eq_some.mp ht).1
  have hlock : ∀ e, lockTopUpTx db tradeNo e = .ok t := fun e => lockTopUpTx_eq_ok.mpr ht
  have hsource : ∃ s, normalizeUserQuotaSource "topup_epay" = .ok s := ⟨_, rfl⟩
  refine .of_credit "topup_epay" (.ok db.wallet)
    (db.complete t env.now (if paymentMethod = "" then t.paymentMethod else paymentMethod))
    hpos hid hfree hsource (.inl ⟨_, rfl, .refl _⟩) (fun hquota => ?_)
    fun hquota => ?_
  · simp [rechargeEpayTx, hlock, hprovider, hpending, hquota, failIf, bind, Except.bind, invalidQuota]
  · simp [rechargeEpayTx, hlock, hprovider, hpending, not_le.mpr hquota, failIf, bind, Except.bind,
      pure]

/-- The manual completion counts a Stripe order by its money and any other by its amount. -/
theorem manualCompleteTopUpTx_countsAs :
    CountsAs db t (if t.paymentProvider = "stripe" then quotaOfMoney env t else quotaOfAmount env t)
      (manualCompleteTopUpTx env tradeNo db) := by
  have hpos : 0 < t.id := db.topUps.id_pos t (Table.byKey_eq_some.mp ht).1
  have hlock : ∀ e, lockTopUpTx db tradeNo e = .ok t := fun e => lockTopUpTx_eq_ok.mpr ht
  have hsource : ∃ s, normalizeUserQuotaSource "topup_admin" = .ok s := ⟨_, rfl⟩
  refine .of_credit "topup_admin" (.ok db.wallet) (db.complete t env.now t.paymentMethod) hpos hid hfree hsource
    (.inl ⟨_, rfl, .refl _⟩) (fun hquota => ?_)
    fun hquota => ?_
  · simp [manualCompleteTopUpTx, hlock, hpending, hquota, failIf, bind, Except.bind, invalidQuota]
  · simp [manualCompleteTopUpTx, hlock, hpending, not_le.mpr hquota, failIf, bind, Except.bind,
      pure, PaymentDB.complete]

/-- The completion of a provider counts the order as the provider does. -/
theorem PaymentProvider.completeTx_countsAs (p : PaymentProvider) (detail : String)
    (hprovider : t.paymentProvider = p.name) :
    CountsAs db t (p.quotaOf env t) (p.completeTx env tradeNo detail db) := by
  cases p with
  | stripe =>
    have hsource : ∃ s, normalizeUserQuotaSource "topup_stripe" = .ok s := ⟨_, rfl⟩
    exact rechargeOnceTx_countsAs env ht hpending hid hfree (quotaOfMoney env) hsource
      (.inl (storeStripeCustomer_ok detail t _)) hprovider
  | creem =>
    have hsource : ∃ s, normalizeUserQuotaSource "topup_creem" = .ok s := ⟨_, rfl⟩
    exact rechargeOnceTx_countsAs env ht hpending hid hfree TopUp.amount hsource
      (storeCustomerEmail_cases detail t _) hprovider
  | waffo =>
    have hsource : ∃ s, normalizeUserQuotaSource "topup_waffo" = .ok s := ⟨_, rfl⟩
    exact rechargeIdempotentTx_countsAs env ht hpending hid hfree hsource hprovider
  | waffoPancake =>
    have hsource : ∃ s, normalizeUserQuotaSource "topup_waffo_pancake" = .ok s := ⟨_, rfl⟩
    exact rechargeIdempotentTx_countsAs env ht hpending hid hfree hsource hprovider
  | epay => exact rechargeEpayTx_countsAs env ht hpending hid hfree hprovider

end Completions

/-- The manual completion counts an order as its provider does, but for Creem, whose amount is no number of
currency units. -/
theorem PaymentProvider.quotaOf_eq {env : PaymentEnv} {t : TopUp} {p : PaymentProvider}
    (hprovider : t.paymentProvider = p.name) :
    (if t.paymentProvider = "stripe" then quotaOfMoney env t else quotaOfAmount env t)
      = if p = creem then quotaOfAmount env t else p.quotaOf env t := by
  rw [hprovider]
  cases p <;> rfl

/-- **A manual completion credits what the webhook would have credited**, exactly for the orders of every
provider but Creem and for those Creem orders whose amount is the quota of as many currency units; otherwise
only if both find the amount invalid, or the user missing. -/
theorem manualComplete_creditAlike_iff (env : PaymentEnv) (db : PaymentDB) (tradeNo detail : String) (t : TopUp)
    (p : PaymentProvider) (ht : db.topUps.byKey tradeNo = some t) (hpending : t.status = .pending)
    (hprovider : t.paymentProvider = p.name) (hid : t.id < 2 ^ 63) (hfree : ¬ db.Credited t) :
    CreditAlike db t (p.completeTx env tradeNo detail db) (manualCompleteTopUpTx env tradeNo db) ↔
      p ≠ .creem ∨ decimalIntPart (t.amount * env.quotaPerUnit) = t.amount ∨
        t.amount ≤ 0 ∧ decimalIntPart (t.amount * env.quotaPerUnit) ≤ 0 ∨
        0 < t.amount ∧ 0 < decimalIntPart (t.amount * env.quotaPerUnit) ∧
          db.wallet.balance t.userId = none := by
  have hown := p.completeTx_countsAs env ht hpending hid hfree detail hprovider
  have hmanual := manualCompleteTopUpTx_countsAs env ht hpending hid hfree
  rw [PaymentProvider.quotaOf_eq hprovider] at hmanual
  rw [creditAlike_iff hown hmanual]
  by_cases hp : p = .creem
  · subst hp
    simp only [if_pos, PaymentProvider.quotaOf, quotaOfAmount, ne_eq, not_true_eq_false, false_or]
    rw [eq_comm]
  · rw [if_neg hp]
    exact iff_of_true (.inl rfl) (.inl hp)

theorem manualComplete_creditAlike_epay :
    CreditAlike pendingOrderDB pendingOrder
      (PaymentProvider.epay.completeTx ⟨100, 10⟩ "trade" "" pendingOrderDB)
      (manualCompleteTopUpTx ⟨100, 10⟩ "trade" pendingOrderDB) :=
  (manualComplete_creditAlike_iff ⟨100, 10⟩ pendingOrderDB "trade" "" pendingOrder .epay (by decide) rfl rfl
    (by decide) fun ⟨_, hr⟩ => by cases hr).mpr (.inl (by decide))

/-- A pending Creem order for thirty quota. -/
def creemOrder : TopUp := { pendingOrder with amount := 30, paymentProvider := "creem" }

/-- The user of the order and the Creem order. -/
def creemOrderDB : PaymentDB := { pendingOrderDB with topUps := ⟨[creemOrder], by decide, by decide, by decide⟩ }

/-- Creem credits the thirty that were paid for, an administrator three hundred. -/
theorem manualComplete_creem_multiplied :
    creditedQuota creemOrderDB creemOrder (PaymentProvider.creem.completeTx ⟨100, 10⟩ "trade" "" creemOrderDB)
      = some 30 ∧
    creditedQuota creemOrderDB creemOrder (manualCompleteTopUpTx ⟨100, 10⟩ "trade" creemOrderDB) = some 300 ∧
    ¬ CreditAlike creemOrderDB creemOrder
      (PaymentProvider.creem.completeTx ⟨100, 10⟩ "trade" "" creemOrderDB)
      (manualCompleteTopUpTx ⟨100, 10⟩ "trade" creemOrderDB) := by
  have hown : creditedQuota creemOrderDB creemOrder
      (PaymentProvider.creem.completeTx ⟨100, 10⟩ "trade" "" creemOrderDB) = some 30 := by decide +kernel
  have hmanual : creditedQuota creemOrderDB creemOrder
      (manualCompleteTopUpTx ⟨100, 10⟩ "trade" creemOrderDB) = some 300 := by decide +kernel
  refine ⟨hown, hmanual, fun h => ?_⟩
  rw [CreditAlike, hmanual] at h
  exact absurd h.1 (by decide +kernel)

end Prox
