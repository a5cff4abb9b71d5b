import Prox.Payment.TopUp
import Prox.Subscription.Quota

/-! # Buying a subscription with the wallet

The embedding of `PurchaseSubscriptionWithBalance` and of `CreateUserSubscriptionFromPlanTx` in
`model/subscription.go`: the price is converted to quota and debited, the subscription is created
from the plan, and an order records the purchase, all in one transaction. -/

namespace Prox

/-- An order of a subscription. -/
structure SubscriptionOrder where
  id : Int
  userId : Int
  planId : Int
  money : Rat
  tradeNo : String
  paymentMethod : String
  paymentProvider : String
  status : TopUpStatus
  providerPayload : String

instance : Row SubscriptionOrder String := ⟨SubscriptionOrder.id, SubscriptionOrder.tradeNo⟩

/-- The tables of a purchase. -/
structure PurchaseDB where
  wallet : Wallet
  subscriptions : SubscriptionDB
  orders : Table SubscriptionOrder

/-- What a purchase reads from outside: the environment of subscription billing, the configured
quota per currency unit and the trade number drawn for the order. -/
structure PurchaseEnv where
  billing : SubscriptionEnv
  quotaPerUnit : Rat
  tradeNo : String

/-- `group = g`. -/
def User.setGroup (g : String) : Patch User :=
  ⟨fun u => { u with group := g }, fun _ => rfl, fun _ => rfl⟩

/-! ## Creating a subscription -/

/-- The end of a subscription that starts now. -/
def calcPlanEndTime (loc : Location) (start : Int) (plan : SubscriptionPlan) : Except Err Int :=
  if plan.durationValue ≤ 0 ∧ plan.durationUnit ≠ "custom" then
    throw (.text "duration_value must be > 0")
  else if plan.durationUnit = "year" then pure (loc.addDate start (12 * plan.durationValue) 0)
  else if plan.durationUnit = "month" then pure (loc.addDate start plan.durationValue 0)
  else if plan.durationUnit = "day" then
    pure (start + durationSeconds (plan.durationValue * 24 * 3600))
  else if plan.durationUnit = "hour" then pure (start + durationSeconds (plan.durationValue * 3600))
  else if plan.durationUnit = "custom" then
    if plan.customSeconds ≤ 0 then throw (.text "custom_seconds must be > 0")
    else pure (start + durationSeconds plan.customSeconds)
  else throw (.text ("invalid duration_unit: " ++ plan.durationUnit))

/-- The group of a user; a missing user has none. -/
def getUserGroupByIdTx (w : Wallet) (userId : Int) : String :=
  ((w.users.byId userId).map User.group).getD ""

/-- Whether a plan moves a user of group `currentGroup` to another group. -/
def SubscriptionPlan.upgrades (plan : SubscriptionPlan) (currentGroup : String) : Bool :=
  trimSpace plan.upgradeGroup ≠ "" ∧ currentGroup ≠ trimSpace plan.upgradeGroup

/-- The row of a new subscription. -/
def SubscriptionPlan.instantiate (plan : SubscriptionPlan) (env : SubscriptionEnv)
    (id userId : Int) (source currentGroup : String) (endUnix : Int) : UserSubscription :=
  let nextReset := calcNextResetTime env.loc env.now plan endUnix
  { id, userId, planId := plan.id, amountTotal := plan.totalAmount, startTime := env.now,
    endTime := endUnix, source, lastResetTime := if 0 < nextReset then env.now else 0,
    nextResetTime := nextReset, upgradeGroup := trimSpace plan.upgradeGroup,
    prevUserGroup := if plan.upgrades currentGroup then currentGroup else "" }

/-- Creates a subscription from a plan and moves the user to the group the plan grants. -/
def createUserSubscriptionFromPlanTx (env : SubscriptionEnv) (userId : Int)
    (plan : SubscriptionPlan) (source : String) (db : PurchaseDB) : Except Err PurchaseDB := do
  failIf (plan.id = 0) (.text "invalid plan")
  failIf (userId ≤ 0) (.text "invalid user id")
  failIf (0 < plan.maxPurchasePerUser ∧ plan.maxPurchasePerUser ≤
      db.subscriptions.subs.rows.countP (fun s => s.userId = userId ∧ s.planId = plan.id))
    (.text "已达到该套餐购买上限")
  let endUnix ← calcPlanEndTime env.loc env.now plan
  let currentGroup := getUserGroupByIdTx db.wallet userId
  let wallet :=
    if plan.upgrades currentGroup then
      db.wallet.updateUser userId (User.setGroup (trimSpace plan.upgradeGroup))
    else db.wallet
  match db.subscriptions.subs.create
      (plan.instantiate env db.subscriptions.subs.nextId userId source currentGroup endUnix) with
  | none => throw (.sentinel .duplicatedKey)
  | some subs => pure { db with wallet, subscriptions := { db.subscriptions with subs } }

/-! ## Purchase -/

/-- `decimal.Ceil().IntPart()`. -/
def decimalCeil (d : Rat) : Int := wrapInt64 d.ceil

/-- The quota a price costs, rounded up. -/
def calcSubscriptionBalanceQuota (quotaPerUnit priceAmount : Rat) : Except Err Int :=
  if priceAmount ≤ 0 then pure 0
  else if quotaPerUnit ≤ 0 then throw (.text "额度单位配置错误")
  else pure (decimalCeil (priceAmount * quotaPerUnit))

/-- The debit of a purchase; a missing balance is reported in the user's language. -/
def debitPurchaseTx (w : Wallet) (userId requiredQuota : Int) : Except Err Wallet :=
  if 0 < requiredQuota then
    match debitUserQuotaTx w userId requiredQuota with
    | .ok (_, w) => pure w
    | .error e => throw (if e.is .userQuotaInsufficient then .text "余额不足" else e)
  else pure w

/-- The order that records a purchase. -/
def balanceOrder (env : PurchaseEnv) (id userId : Int) (plan : SubscriptionPlan)
    (requiredQuota : Int) : SubscriptionOrder :=
  { id, userId, planId := plan.id, money := plan.priceAmount, tradeNo := env.tradeNo,
    paymentMethod := "balance", paymentProvider := "balance", status := .success,
    providerPayload := s!"charged_quota={requiredQuota}" }

/-- The transaction of `PurchaseSubscriptionWithBalance`. -/
def purchaseSubscriptionWithBalanceTx (env : PurchaseEnv) (userId planId : Int)
    (db : PurchaseDB) : Except Err (Unit × PurchaseDB) := do
  let plan ← getSubscriptionPlanById env.billing.plans planId
  failIf (plan.enabled = false) (.text "套餐未启用")
  failIf (plan.priceAmount < 0) (.text "套餐价格不能为负数")
  failIf (plan.allowBalancePay = some false) (.text "该套餐不允许使用余额兑换")
  let requiredQuota ← calcSubscriptionBalanceQuota env.quotaPerUnit plan.priceAmount
  let wallet ← debitPurchaseTx db.wallet userId requiredQuota
  let db ← createUserSubscriptionFromPlanTx env.billing userId plan "balance" { db with wallet }
  match db.orders.create (balanceOrder env db.orders.nextId userId plan requiredQuota) with
  | none => throw (.sentinel .duplicatedKey)
  | some orders => pure ((), { db with orders })

/-- Buys a subscription with the wallet balance. -/
def purchaseSubscriptionWithBalance (env : PurchaseEnv) (userId planId : Int) :
    PurchaseDB → Except Err Unit × PurchaseDB :=
  checked (failIf (userId ≤ 0 ∨ planId ≤ 0) (.text "invalid userId or planId"))
    fun _ => transaction (env.billing.faults 0) (purchaseSubscriptionWithBalanceTx env userId planId)

end Prox
