import Prox.Wallet.Calls

/-! # Payments into a wallet

The embedding of the order completions of `model/topup.go` and of `Redeem` in `model/redemption.go`.
An order or a code is completed and its quota is credited in one transaction, and the credit is a
direct mutation of the wallet ledger whose idempotency key names the row. Money columns are the
decimals the code converts them to before it computes with them. -/

namespace Prox

/-! ## Rows -/

/-- The `status` column of a top-up order. -/
inductive TopUpStatus where
  | pending
  | success
  | failed
  | expired
  deriving DecidableEq

/-- A top-up order. -/
structure TopUp where
  id : Int
  userId : Int
  amount : Int
  money : Rat
  tradeNo : String
  paymentMethod : String
  paymentProvider : String
  completeTime : Int := 0
  status : TopUpStatus
  deriving DecidableEq

instance : Row TopUp String := ⟨TopUp.id, TopUp.tradeNo⟩

/-- The `status` column of a redemption code. -/
inductive RedemptionStatus where
  | enabled
  | disabled
  | used
  deriving DecidableEq

/-- A redemption code; `deleted` is the soft-delete mark that lookups skip. -/
structure Redemption where
  id : Int
  key : String
  status : RedemptionStatus := .enabled
  quota : Int
  redeemedTime : Int := 0
  usedUserId : Int := 0
  expiredTime : Int := 0
  deleted : Bool := false

instance : Row Redemption String := ⟨Redemption.id, Redemption.key⟩

/-- The wallet with the orders and codes that pay into it. -/
structure PaymentDB where
  wallet : Wallet
  topUps : Table TopUp
  redemptions : Table Redemption

/-- What a completion reads from outside: the clock and the configured quota per currency unit. -/
structure PaymentEnv where
  now : Int
  quotaPerUnit : Rat

/-! ## Column assignments -/

/-- The columns a completion writes. -/
def TopUp.complete (now : Int) (paymentMethod : String) : Patch TopUp :=
  ⟨fun t => { t with paymentMethod, completeTime := now, status := .success },
    fun _ => rfl, fun _ => rfl⟩

/-- `status = s`. -/
def TopUp.setStatus (s : TopUpStatus) : Patch TopUp :=
  ⟨fun t => { t with status := s }, fun _ => rfl, fun _ => rfl⟩

/-- The columns a redemption writes. -/
def Redemption.redeem (now userId : Int) : Patch Redemption :=
  ⟨fun r => { r with redeemedTime := now, status := .used, usedUserId := userId },
    fun _ => rfl, fun _ => rfl⟩

/-- `stripe_customer = c`. -/
def User.setStripeCustomer (c : String) : Patch User :=
  ⟨fun u => { u with stripeCustomer := c }, fun _ => rfl, fun _ => rfl⟩

/-- `email = e`. -/
def User.setEmail (e : String) : Patch User :=
  ⟨fun u => { u with email := e }, fun _ => rfl, fun _ => rfl⟩

/-- `UPDATE users SET … WHERE id = ?`. -/
def Wallet.updateUser (w : Wallet) (id : Int) (patch : Patch User) : Wallet :=
  { w with users := (w.users.updateWhere (fun u => u.id = id) patch).1 }

/-- `Save` of a completed order. -/
def PaymentDB.complete (db : PaymentDB) (topUp : TopUp) (now : Int) (paymentMethod : String) :
    PaymentDB :=
  { db with topUps := (db.topUps.updateWhere (fun t => t.id = topUp.id)
      (TopUp.complete now paymentMethod)).1 }

/-! ## Amounts -/

/-- `decimal.IntPart`: the integer part, rounded towards zero, as an `int64`. -/
def decimalIntPart (d : Rat) : Int := wrapInt64 (d.num.tdiv d.den)

/-- The quota of an order whose `money` is a number of currency units. -/
def quotaOfMoney (env : PaymentEnv) (t : TopUp) : Int := decimalIntPart (t.money * env.quotaPerUnit)

/-- The quota of an order whose `amount` is a number of currency units. -/
def quotaOfAmount (env : PaymentEnv) (t : TopUp) : Int :=
  decimalIntPart (t.amount * env.quotaPerUnit)

/-! ## Completions -/

/-- `SELECT … WHERE trade_no = ? FOR UPDATE`. -/
def lockTopUpTx (db : PaymentDB) (tradeNo : String) (missing : Err) : Except Err TopUp :=
  match db.topUps.byKey tradeNo with
  | none => throw missing
  | some topUp => pure topUp

/-- Credits a completed order once. -/
def creditTopUpQuotaTx (w : Wallet) (topUp : TopUp) (quota : Int) (sourceType : String) :
    Except Err Wallet := do
  failIf (topUp.id ≤ 0 ∨ topUp.userId ≤ 0) (.text "invalid topup credit context")
  failIf (quota ≤ 0) (.text "invalid topup quota")
  let requestID := s!"topup:{topUp.id}"
  let (_, w) ← applyUserQuotaMutationTx w
    { userID := topUp.userId, deltaQuota := quota, requestID, sourceType,
      transactionType := "topup_credit", idempotencyKey := requestID,
      remark := s!"topup trade {topUp.tradeNo}" }
  return w

/-- The common shape of the two card completions: only a pending order passes; `profile` is what the
provider tells about the customer. -/
def rechargeOnceTx (env : PaymentEnv) (provider sourceType : String) (quotaOf : TopUp → Int)
    (profile : TopUp → Wallet → Except Err Wallet) (referenceId : String) (db : PaymentDB) :
    Except Err (Unit × PaymentDB) := do
  let topUp ← lockTopUpTx db referenceId (.text "充值订单不存在")
  failIf (topUp.paymentProvider ≠ provider) (.sentinel .paymentMethodMismatch)
  failIf (topUp.status ≠ .pending) (.text "充值订单状态错误")
  let db := db.complete topUp env.now topUp.paymentMethod
  let quota := quotaOf topUp
  failIf (quota ≤ 0) (.text "无效的充值额度")
  let wallet ← profile topUp db.wallet
  let wallet ← creditTopUpQuotaTx wallet topUp quota sourceType
  return ((), { db with wallet })

/-- The Stripe customer of the user is stored. -/
def storeStripeCustomer (customerId : String) (topUp : TopUp) (w : Wallet) : Except Err Wallet :=
  pure (w.updateUser topUp.userId (User.setStripeCustomer customerId))

/-- A user without an email address gets the one of the payment. -/
def storeCustomerEmail (customerEmail : String) (topUp : TopUp) (w : Wallet) :
    Except Err Wallet :=
  if customerEmail = "" then pure w else
  match w.users.byId topUp.userId with
  | none => throw (.sentinel .recordNotFound)
  | some user =>
    pure (if user.email = "" then w.updateUser topUp.userId (User.setEmail customerEmail) else w)

/-- The transaction of `Recharge`. -/
def rechargeTx (env : PaymentEnv) (referenceId customerId : String) :
    PaymentDB → Except Err (Unit × PaymentDB) :=
  rechargeOnceTx env "stripe" "topup_stripe" (quotaOfMoney env) (storeStripeCustomer customerId)
    referenceId

/-- The transaction of `RechargeCreem`; the amount of such an order is the quota itself. -/
def rechargeCreemTx (env : PaymentEnv) (referenceId customerEmail : String) :
    PaymentDB → Except Err (Unit × PaymentDB) :=
  rechargeOnceTx env "creem" "topup_creem" TopUp.amount (storeCustomerEmail customerEmail)
    referenceId

/-- The common shape of the two Waffo completions: a completed order is accepted without effect. -/
def rechargeIdempotentTx (env : PaymentEnv) (provider sourceType tradeNo : String)
    (db : PaymentDB) : Except Err (Unit × PaymentDB) := do
  let topUp ← lockTopUpTx db tradeNo (.text "充值订单不存在")
  failIf (topUp.paymentProvider ≠ provider) (.sentinel .paymentMethodMismatch)
  if topUp.status = .success then return ((), db) else
  failIf (topUp.status ≠ .pending) (.text "充值订单状态错误")
  let quotaToAdd := quotaOfAmount env topUp
  failIf (quotaToAdd ≤ 0) (.text "无效的充值额度")
  let db := db.complete topUp env.now topUp.paymentMethod
  let wallet ← creditTopUpQuotaTx db.wallet topUp quotaToAdd sourceType
  return ((), { db with wallet })

/-- The transaction of `RechargeWaffo`. -/
def rechargeWaffoTx (env : PaymentEnv) (tradeNo : String) :
    PaymentDB → Except Err (Unit × PaymentDB) :=
  rechargeIdempotentTx env "waffo" "topup_waffo" tradeNo

/-- The transaction of `RechargeWaffoPancake`. -/
def rechargeWaffoPancakeTx (env : PaymentEnv) (tradeNo : String) :
    PaymentDB → Except Err (Unit × PaymentDB) :=
  rechargeIdempotentTx env "waffo_pancake" "topup_waffo_pancake" tradeNo

/-- The transaction of `RechargeEpay`: the credit comes before the order is saved, and the order
takes over the payment method that was really used. -/
def rechargeEpayTx (env : PaymentEnv) (tradeNo paymentMethod : String) (db : PaymentDB) :
    Except Err (Unit × PaymentDB) := do
  let topUp ← lockTopUpTx db tradeNo (.sentinel .topUpNotFound)
  failIf (topUp.paymentProvider ≠ "epay") (.sentinel .paymentMethodMismatch)
  if topUp.status = .success then return ((), db) else
  failIf (topUp.status ≠ .pending) (.sentinel .topUpStatusInvalid)
  let quotaToAdd := quotaOfAmount env topUp
  failIf (quotaToAdd ≤ 0) (.text "无效的充值额度")
  let wallet ← creditTopUpQuotaTx db.wallet topUp quotaToAdd "topup_epay"
  let method := if paymentMethod = "" then topUp.paymentMethod else paymentMethod
  return ((), { db.complete topUp env.now method with wallet })

/-- The transaction of `ManualCompleteTopUp`: every provider, with Stripe orders counted by money. -/
def manualCompleteTopUpTx (env : PaymentEnv) (tradeNo : String) (db : PaymentDB) :
    Except Err (Unit × PaymentDB) := do
  let topUp ← lockTopUpTx db tradeNo (.text "充值订单不存在")
  if topUp.status = .success then return ((), db) else
  failIf (topUp.status ≠ .pending) (.text "订单状态不是待支付，无法补单")
  let quotaToAdd :=
    if topUp.paymentProvider = "stripe" then quotaOfMoney env topUp else quotaOfAmount env topUp
  failIf (quotaToAdd ≤ 0) (.text "无效的充值额度")
  let db := db.complete topUp env.now topUp.paymentMethod
  let wallet ← creditTopUpQuotaTx db.wallet topUp quotaToAdd "topup_admin"
  return ((), { db with wallet })

/-- The transaction of `UpdatePendingTopUpStatus`. -/
def updatePendingTopUpStatusTx (tradeNo expectedPaymentProvider : String)
    (targetStatus : TopUpStatus) (db : PaymentDB) : Except Err (Unit × PaymentDB) := do
  let topUp ← lockTopUpTx db tradeNo (.sentinel .topUpNotFound)
  failIf (expectedPaymentProvider ≠ "" ∧ topUp.paymentProvider ≠ expectedPaymentProvider)
    (.sentinel .paymentMethodMismatch)
  failIf (topUp.status ≠ .pending) (.sentinel .topUpStatusInvalid)
  return ((), { db with topUps := (db.topUps.updateWhere (fun t => t.id = topUp.id)
    (TopUp.setStatus targetStatus)).1 })

/-- The transaction of `Redeem`; returns the quota of the code. -/
def redeemTx (env : PaymentEnv) (key : String) (userId : Int) (db : PaymentDB) :
    Except Err (Int × PaymentDB) :=
  match db.redemptions.byKey key with
  | none => throw (.text "无效的兑换码")
  | some redemption => do
    failIf (redemption.deleted = true) (.text "无效的兑换码")
    failIf (redemption.status ≠ .enabled) (.text "该兑换码已被使用")
    failIf (redemption.expiredTime ≠ 0 ∧ redemption.expiredTime < env.now) (.text "该兑换码已过期")
    let idempotencyKey := s!"redemption:{redemption.id}"
    let (_, wallet) ← applyUserQuotaMutationTx db.wallet
      { userID := userId, deltaQuota := redemption.quota, requestID := idempotencyKey,
        sourceType := "redemption", transactionType := "redemption_credit", idempotencyKey,
        remark := s!"redemption code {redemption.id}" }
    return (redemption.quota, { db with
      wallet
      redemptions := (db.redemptions.updateWhere (fun r => r.id = redemption.id)
        (Redemption.redeem env.now userId)).1 })

/-! ## Calls -/

/-- The payment operations. -/
inductive PaymentCall where
  | recharge (referenceId customerId : String)
  | rechargeCreem (referenceId customerEmail : String)
  | rechargeWaffo (tradeNo : String)
  | rechargeWaffoPancake (tradeNo : String)
  | rechargeEpay (tradeNo paymentMethod : String)
  | manualComplete (tradeNo : String)
  | updatePending (tradeNo expectedPaymentProvider : String) (targetStatus : TopUpStatus)
  | redeem (key : String) (userId : Int)

/-- The check every completion starts with. -/
def requireTradeNo (tradeNo message : String) : Except Err Unit := failIf (tradeNo = "") (.text message)

/-- The error a call returns and the tables after it. -/
def PaymentCall.exec (env : PaymentEnv) (fault : Option Err) (db : PaymentDB) :
    PaymentCall → Option Err × PaymentDB
  | .recharge referenceId customerId =>
    outcome (checked (requireTradeNo referenceId "未提供支付单号") (fun _ =>
      reportAs (.text "充值失败，请稍后重试")
        (transaction fault (rechargeTx env referenceId customerId))) db)
  | .rechargeCreem referenceId customerEmail =>
    outcome (checked (requireTradeNo referenceId "未提供支付单号") (fun _ =>
      reportAs (.text "充值失败，请稍后重试")
        (transaction fault (rechargeCreemTx env referenceId customerEmail))) db)
  | .rechargeWaffo tradeNo =>
    outcome (checked (requireTradeNo tradeNo "未提供支付单号") (fun _ =>
      reportAs (.text "充值失败，请稍后重试") (transaction fault (rechargeWaffoTx env tradeNo))) db)
  | .rechargeWaffoPancake tradeNo =>
    outcome (checked (requireTradeNo tradeNo "未提供支付单号") (fun _ =>
      reportAs (.text "充值失败，请稍后重试")
        (transaction fault (rechargeWaffoPancakeTx env tradeNo))) db)
  | .rechargeEpay tradeNo paymentMethod =>
    outcome (checked (requireTradeNo tradeNo "未提供支付单号") (fun _ =>
      transaction fault (rechargeEpayTx env tradeNo paymentMethod)) db)
  | .manualComplete tradeNo =>
    outcome (checked (requireTradeNo tradeNo "未提供订单号") (fun _ =>
      transaction fault (manualCompleteTopUpTx env tradeNo)) db)
  | .updatePending tradeNo expectedPaymentProvider targetStatus =>
    outcome (checked (requireTradeNo tradeNo "未提供支付单号") (fun _ =>
      transaction fault (updatePendingTopUpStatusTx tradeNo expectedPaymentProvider targetStatus)) db)
  | .redeem key userId =>
    outcome (checked (do
      failIf (key = "") (.text "未提供兑换码")
      failIf (userId = 0) (.text "无效的 user id")) (fun _ =>
      reportAs (.sentinel .redeemFailed) (transaction fault (redeemTx env key userId))) db)

end Prox
