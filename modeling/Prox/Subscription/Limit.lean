import Mathlib.Logic.Function.Basic
import Prox.Subscription.Purchase
import Prox.Wallet.Effect

/-! # The purchase limit of a plan

`CreateUserSubscriptionFromPlanTx` in `model/subscription.go` counts the subscriptions a user has of a
plan and inserts one more when the limit allows it. Its three callers run in transactions of their own:
`CompleteSubscriptionOrder` locks the order, `PurchaseSubscriptionWithBalance` locks the user when the
plan costs something, and `AdminBindSubscription` locks nothing. The model takes the transactions
apart into the statements that matter, under read-committed isolation: a transaction sees what others
have committed and writes what it has to write when it commits, and a statement that needs a row lock
waits until no other transaction holds it.

The main result says when the limit holds for every interleaving: no transaction may count while
another one for the same user and plan is between its count and its commit, unless a row lock already
excludes it. -/

namespace Prox

open List

/-! ## Transactions -/

/-- A row that a transaction has locked. -/
inductive RowLock where
  | order (tradeNo : String)
  | user (userId : Int)
  deriving DecidableEq

/-- The calls that create a subscription. -/
inductive SubscribeCall where
  | complete (tradeNo providerPayload expectedPaymentProvider actualPaymentMethod : String)
  | bind (userId planId : Int)
  | purchase (userId planId : Int)

/-- How far a transaction has got. -/
inductive SubscriptionStage where
  /-- The plan is known and the first row is locked. -/
  | opened
  /-- The limit has been checked. -/
  | counted
  /-- The subscription is inserted, for a user of this group and until this time. -/
  | inserted (currentGroup : String) (endUnix : Int)

/-- An open transaction. -/
structure SubscriptionTx where
  call : SubscribeCall
  env : PurchaseEnv
  userId : Int
  plan : SubscriptionPlan
  source : String
  requiredQuota : Int
  locks : List RowLock
  stage : SubscriptionStage := .opened

/-- The tables of a purchase, with the top-ups that a completed order is recorded in. -/
structure SubscriptionStore extends PurchaseDB where
  topUps : Table TopUp

/-! ## Statements -/

/-- The beginning of a transaction: the plan, and the row that the caller locks. A call may also be
over at once without an error. -/
def SubscribeCall.openTx (call : SubscribeCall) (env : PurchaseEnv) (db : SubscriptionStore) :
    Except Err (Option SubscriptionTx) :=
  match call with
  | .complete tradeNo _ expectedPaymentProvider _ => do
    failIf (tradeNo = "") (.text "tradeNo is empty")
    match db.orders.byKey tradeNo with
    | none => throw (.text "subscription order not found")
    | some order =>
      failIf (expectedPaymentProvider ≠ "" ∧ order.paymentProvider ≠ expectedPaymentProvider)
        (.sentinel .paymentMethodMismatch)
      if order.status = .success then return none else
      failIf (order.status ≠ .pending) (.text "subscription order status invalid")
      let plan ← getSubscriptionPlanById env.billing.plans order.planId
      return some { call, env, userId := order.userId, plan, source := "order", requiredQuota := 0
                    locks := [.order tradeNo] }
  | .bind userId planId => do
    failIf (userId ≤ 0 ∨ planId ≤ 0) (.text "invalid userId or planId")
    let plan ← getSubscriptionPlanById env.billing.plans planId
    return some { call, env, userId, plan, source := "admin", requiredQuota := 0, locks := [] }
  | .purchase userId planId => do
    failIf (userId ≤ 0 ∨ planId ≤ 0) (.text "invalid userId or planId")
    let plan ← getSubscriptionPlanById env.billing.plans planId
    failIf (plan.enabled = false) (.text "套餐未启用")
    failIf (plan.priceAmount < 0) (.text "套餐价格不能为负数")
    failIf (plan.allowBalancePay = some false) (.text "该套餐不允许使用余额兑换")
    let requiredQuota ← calcSubscriptionBalanceQuota env.quotaPerUnit plan.priceAmount
    let _ ← debitPurchaseTx db.wallet userId requiredQuota
    return some { call, env, userId, plan, source := "balance", requiredQuota
                  locks := if 0 < requiredQuota then [.user userId] else [] }

/-- The count of `CreateUserSubscriptionFromPlanTx`, on what is committed. -/
def SubscriptionTx.countTx (tx : SubscriptionTx) (db : SubscriptionStore) : Except Err Unit := do
  failIf (tx.plan.id = 0) (.text "invalid plan")
  failIf (tx.userId ≤ 0) (.text "invalid user id")
  failIf (0 < tx.plan.maxPurchasePerUser ∧ tx.plan.maxPurchasePerUser ≤
      db.subscriptions.subs.rows.countP (fun s => s.userId = tx.userId ∧ s.planId = tx.plan.id))
    (.text "已达到该套餐购买上限")

/-- The insert of `CreateUserSubscriptionFromPlanTx`; the update of the user's group locks the user. -/
def SubscriptionTx.insertTx (tx : SubscriptionTx) (db : SubscriptionStore) :
    Except Err SubscriptionTx := do
  let endUnix ← calcPlanEndTime tx.env.billing.loc tx.env.billing.now tx.plan
  let currentGroup := getUserGroupByIdTx db.wallet tx.userId
  let locks := if tx.plan.upgrades currentGroup then .user tx.userId :: tx.locks else tx.locks
  return { tx with locks, stage := .inserted currentGroup endUnix }

/-- The columns that the completion of an order writes. -/
def SubscriptionOrder.complete (providerPayload actualPaymentMethod : String) :
    Patch SubscriptionOrder :=
  ⟨fun o =>
    { o with
      status := .success
      providerPayload := if providerPayload ≠ "" then providerPayload else o.providerPayload
      paymentMethod := if actualPaymentMethod ≠ "" then actualPaymentMethod else o.paymentMethod },
    fun _ => rfl, fun _ => rfl⟩

/-- The columns of a top-up that an order of a subscription overwrites. -/
def TopUp.ofOrder (order : SubscriptionOrder) (now : Int) : Patch TopUp :=
  ⟨fun t =>
    { t with
      money := order.money
      paymentMethod := if t.paymentMethod = "" then order.paymentMethod else t.paymentMethod
      completeTime := now
      status := .success },
    fun _ => rfl, fun _ => rfl⟩

/-- Records a completed order among the top-ups. -/
def upsertSubscriptionTopUpTx (order : SubscriptionOrder) (now : Int) (topUps : Table TopUp) :
    Except Err (Table TopUp) :=
  match topUps.byKey order.tradeNo with
  | none =>
    match topUps.create { id := topUps.nextId, userId := order.userId, amount := 0
                          money := order.money, tradeNo := order.tradeNo
                          paymentMethod := order.paymentMethod, paymentProvider := ""
                          completeTime := now, status := .success } with
    | none => throw (.sentinel .duplicatedKey)
    | some topUps => pure topUps
  | some topUp =>
    if topUp.paymentMethod ≠ "" ∧ topUp.paymentMethod ≠ order.paymentMethod then
      throw (.sentinel .paymentMethodMismatch)
    else pure (topUps.updateWhere (fun t => t.tradeNo = order.tradeNo) (TopUp.ofOrder order now)).1

/-- What the caller writes after the subscription is created. -/
def SubscriptionTx.finishTx (tx : SubscriptionTx) (db : SubscriptionStore) :
    Except Err SubscriptionStore :=
  match tx.call with
  | .complete tradeNo providerPayload _ actualPaymentMethod =>
    match db.orders.byKey tradeNo with
    | none => throw (.text "subscription order not found")
    | some order => do
      let topUps ← upsertSubscriptionTopUpTx order tx.env.billing.now db.topUps
      let orders := (db.orders.updateWhere (fun o => o.tradeNo = tradeNo)
        (SubscriptionOrder.complete providerPayload actualPaymentMethod)).1
      return { db with orders, topUps }
  | .bind _ _ => pure db
  | .purchase userId _ =>
    match db.orders.create
        (balanceOrder tx.env db.orders.nextId userId tx.plan tx.requiredQuota) with
    | none => throw (.sentinel .duplicatedKey)
    | some orders => pure { db with orders }

/-- All that a transaction writes. The rows it updates are locked from their update on, so that it
makes no difference that they are written at the end. -/
def SubscriptionTx.writes (tx : SubscriptionTx) (currentGroup : String) (endUnix : Int)
    (db : SubscriptionStore) : Except Err SubscriptionStore := do
  let wallet ← debitPurchaseTx db.wallet tx.userId tx.requiredQuota
  let wallet :=
    if tx.plan.upgrades currentGroup then
      wallet.updateUser tx.userId (User.setGroup (trimSpace tx.plan.upgradeGroup))
    else wallet
  match db.subscriptions.subs.create (tx.plan.instantiate tx.env.billing
      db.subscriptions.subs.nextId tx.userId tx.source currentGroup endUnix) with
  | none => throw (.sentinel .duplicatedKey)
  | some subs => tx.finishTx { db with wallet, subscriptions := { db.subscriptions with subs } }

/-! ## The system -/

/-- The committed tables, the plans and the open transactions of `n` connections. -/
structure LimitSystem (n : Nat) where
  db : SubscriptionStore
  plans : Int → Option SubscriptionPlan
  txs : Fin n → Option SubscriptionTx

/-- A statement on one of the connections; any transaction may fail at any time. -/
inductive LimitEvent (n : Nat) where
  | open (i : Fin n) (call : SubscribeCall) (env : PurchaseEnv)
  | count (i : Fin n)
  | insert (i : Fin n)
  | commit (i : Fin n)
  | rollback (i : Fin n)

/-- The environment of a call, with the plans of the system. -/
def PurchaseEnv.withPlans (env : PurchaseEnv) (plans : Int → Option SubscriptionPlan) :
    PurchaseEnv :=
  { env with billing := { env.billing with plans } }

namespace LimitSystem

variable {n : Nat}

/-- The system with another transaction on connection `i`. -/
def setTx (s : LimitSystem n) (i : Fin n) (tx : Option SubscriptionTx) : LimitSystem n :=
  { s with txs := Function.update s.txs i tx }

/-- No other transaction holds one of these locks. -/
def Free (s : LimitSystem n) (i : Fin n) (locks : List RowLock) : Prop :=
  ∀ j, j ≠ i → ∀ tx ∈ s.txs j, ∀ lock ∈ locks, lock ∉ tx.locks
  deriving Decidable

/-- One statement. A statement that is not next in its transaction, or that waits for a lock, leaves
the system as it is. -/
def step (s : LimitSystem n) : LimitEvent n → LimitSystem n
  | .open i call env =>
    match s.txs i, call.openTx (env.withPlans s.plans) s.db with
    | none, .ok (some tx) => if s.Free i tx.locks then s.setTx i (some tx) else s
    | _, _ => s
  | .count i =>
    match s.txs i with
    | some tx =>
      match tx.stage, tx.countTx s.db with
      | .opened, .ok _ => s.setTx i (some { tx with stage := .counted })
      | .opened, .error _ => s.setTx i none
      | _, _ => s
    | none => s
  | .insert i =>
    match s.txs i with
    | some tx =>
      match tx.stage, tx.insertTx s.db with
      | .counted, .ok tx' => if s.Free i tx'.locks then s.setTx i (some tx') else s
      | .counted, .error _ => s.setTx i none
      | _, _ => s
    | none => s
  | .commit i =>
    match s.txs i with
    | some tx =>
      match tx.stage with
      | .inserted currentGroup endUnix =>
        match tx.writes currentGroup endUnix s.db with
        | .ok db => { s.setTx i none with db }
        | .error _ => s.setTx i none
      | _ => s
    | none => s
  | .rollback i => s.setTx i none

end LimitSystem

/-! ## What a statement does -/

variable {tx : SubscriptionTx} {db : SubscriptionStore}

section Steps

variable {n : Nat} {s : LimitSystem n}

/-- The subscriptions a user has of a plan. -/
def SubscriptionStore.owned (db : SubscriptionStore) (userId planId : Int) : Nat :=
  db.subscriptions.subs.rows.countP (fun s => s.userId = userId ∧ s.planId = planId)

/-- The transaction is between its count and its commit. -/
def SubscriptionTx.InFlight (tx : SubscriptionTx) (userId planId : Int) : Prop :=
  tx.userId = userId ∧ tx.plan.id = planId ∧ tx.stage ≠ .opened

/-- Everything that a statement can change. -/
theorem LimitSystem.step_cases (s : LimitSystem n) (e : LimitEvent n) :
    s.step e = s ∨ (∃ i, s.step e = s.setTx i none) ∨
    (∃ i call env tx, e = .open i call env ∧ s.txs i = none ∧
      call.openTx (env.withPlans s.plans) s.db = .ok (some tx) ∧ s.Free i tx.locks ∧
      s.step e = s.setTx i (some tx)) ∨
    (∃ i tx, e = .count i ∧ s.txs i = some tx ∧ tx.stage = .opened ∧ tx.countTx s.db = .ok () ∧
      s.step e = s.setTx i (some { tx with stage := .counted })) ∨
    (∃ i tx tx', s.txs i = some tx ∧ tx.stage = .counted ∧ tx.insertTx s.db = .ok tx' ∧
      s.Free i tx'.locks ∧ s.step e = s.setTx i (some tx')) ∨
    (∃ i tx currentGroup endUnix db, s.txs i = some tx ∧
      tx.stage = .inserted currentGroup endUnix ∧ tx.writes currentGroup endUnix s.db = .ok db ∧
      s.step e = { s.setTx i none with db }) := by
  cases e with
  | «open» i call env =>
    dsimp only [LimitSystem.step]
    split
    · next tx hnone hopen =>
      split
      · next hfree => exact .inr (.inr (.inl ⟨i, call, env, tx, rfl, hnone, hopen, hfree, rfl⟩))
      · exact .inl rfl
    · exact .inl rfl
  | count i =>
    dsimp only [LimitSystem.step]
    split
    · next tx htx =>
      split
      · next hstage hcount =>
        exact .inr (.inr (.inr (.inl ⟨i, tx, rfl, htx, hstage, hcount, rfl⟩)))
      · exact .inr (.inl ⟨i, rfl⟩)
      · exact .inl rfl
    · exact .inl rfl
  | insert i =>
    dsimp only [LimitSystem.step]
    split
    · next tx htx =>
      split
      · next tx' hstage hinsert =>
        split
        · next hfree =>
          exact .inr (.inr (.inr (.inr (.inl ⟨i, tx, tx', htx, hstage, hinsert, hfree, rfl⟩))))
        · exact .inl rfl
      · exact .inr (.inl ⟨i, rfl⟩)
      · exact .inl rfl
    · exact .inl rfl
  | commit i =>
    dsimp only [LimitSystem.step]
    split
    · next tx htx =>
      split
      · next currentGroup endUnix hstage =>
        split
        · next db hwrites =>
          exact .inr (.inr (.inr (.inr (.inr ⟨i, tx, currentGroup, endUnix, db, htx, hstage,
            hwrites, rfl⟩))))
        · exact .inr (.inl ⟨i, rfl⟩)
      · exact .inl rfl
    · exact .inl rfl
  | rollback i => exact .inr (.inl ⟨i, rfl⟩)

/-- The order that a call completes. -/
def SubscribeCall.tradeNo? : SubscribeCall → Option String
  | .complete tradeNo .. => some tradeNo
  | _ => none

/-- The transaction holds the lock that its call takes. -/
def SubscriptionTx.Locked (tx : SubscriptionTx) : Prop :=
  (0 < tx.requiredQuota → RowLock.user tx.userId ∈ tx.locks) ∧
    ∀ tradeNo ∈ tx.call.tradeNo?, RowLock.order tradeNo ∈ tx.locks

/-- Two calls that lock the same row first: both are paid with the balance of the same user, or they
complete the same order. -/
def SubscriptionTx.Excludes (tx tx' : SubscriptionTx) : Prop :=
  (0 < tx.requiredQuota ∧ 0 < tx'.requiredQuota ∧ tx.userId = tx'.userId) ∨
    ∃ tradeNo ∈ tx.call.tradeNo?, tradeNo ∈ tx'.call.tradeNo?

/-- Calls that lock the same row have a lock in common. -/
theorem SubscriptionTx.Excludes.exists_lock {tx' : SubscriptionTx} (h : tx.Excludes tx')
    (hlocked : tx.Locked) (hlocked' : tx'.Locked) : ∃ lock ∈ tx.locks, lock ∈ tx'.locks := by
  rcases h with ⟨hpaid, hpaid', huser⟩ | ⟨tradeNo, horder, horder'⟩
  · exact ⟨_, hlocked.1 hpaid, huser ▸ hlocked'.1 hpaid'⟩
  · exact ⟨_, hlocked.2 tradeNo horder, hlocked'.2 tradeNo horder'⟩

/-- A plan is read from the table of plans. -/
theorem getSubscriptionPlanById_eq_ok {plans : Int → Option SubscriptionPlan} {id : Int}
    {plan : SubscriptionPlan} (h : getSubscriptionPlanById plans id = .ok plan) :
    plans id = some plan := by
  obtain ⟨-, -, h⟩ := bind_eq_ok.mp h
  split at h
  · cases h
  · next hplan =>
    cases h
    exact hplan

/-- An opened transaction holds its lock and works with a plan of the table. -/
theorem SubscribeCall.openTx_eq_ok {call : SubscribeCall} {env : PurchaseEnv}
    (h : call.openTx env db = .ok (some tx)) :
    tx.stage = .opened ∧ tx.Locked ∧ ∃ planId, env.billing.plans planId = some tx.plan := by
  cases call with
  | complete tradeNo providerPayload expectedPaymentProvider actualPaymentMethod =>
    obtain ⟨-, -, h⟩ := bind_eq_ok.mp h
    split at h
    · cases h
    · next order horder =>
      obtain ⟨-, -, h⟩ := bind_eq_ok.mp h
      split at h
      · cases h
      · obtain ⟨-, -, h⟩ := bind_eq_ok.mp h
        obtain ⟨plan, hplan, h⟩ := bind_eq_ok.mp h
        cases h
        refine ⟨rfl, ⟨fun hpaid => absurd hpaid (lt_irrefl 0), fun t ht => ?_⟩, order.planId,
          getSubscriptionPlanById_eq_ok hplan⟩
        cases ht
        exact mem_singleton_self _
  | bind userId planId =>
    obtain ⟨-, -, h⟩ := bind_eq_ok.mp h
    obtain ⟨plan, hplan, h⟩ := bind_eq_ok.mp h
    cases h
    exact ⟨rfl, ⟨fun hpaid => absurd hpaid (lt_irrefl 0), (fun _ ht => by cases ht)⟩, planId,
      getSubscriptionPlanById_eq_ok hplan⟩
  | purchase userId planId =>
    simp only [SubscribeCall.openTx, ok_iff] at h
    obtain ⟨-, plan, hplan, -, -, -, requiredQuota, -, _, -, h⟩ := h
    cases h
    refine ⟨rfl, ⟨fun hpaid => ?_, (fun _ ht => by cases ht)⟩, planId,
      getSubscriptionPlanById_eq_ok hplan⟩
    rw [if_pos hpaid]
    exact mem_singleton_self _

/-- The count lets a transaction pass while there is room. -/
theorem SubscriptionTx.countTx_eq_ok {u : Unit} (h : tx.countTx db = .ok u)
    (hlimit : 0 < tx.plan.maxPurchasePerUser) :
    (db.owned tx.userId tx.plan.id : Int) < tx.plan.maxPurchasePerUser := by
  simp only [SubscriptionTx.countTx, ok_iff] at h
  by_contra hfull
  exact h.2.2 ⟨hlimit, not_lt.mp hfull⟩

/-- What the caller writes afterwards concerns no subscription. -/
theorem SubscriptionTx.finishTx_subscriptions {db' : SubscriptionStore}
    (h : tx.finishTx db = .ok db') : db'.subscriptions = db.subscriptions := by
  unfold SubscriptionTx.finishTx at h
  split at h
  · split at h
    · cases h
    · obtain ⟨topUps, -, h⟩ := bind_eq_ok.mp h
      cases h
      rfl
  · cases h
    rfl
  · split at h
    · cases h
    · cases h
      rfl

/-- A transaction that commits adds one subscription. -/
theorem SubscriptionTx.writes_owned {currentGroup : String} {endUnix : Int}
    {db' : SubscriptionStore} (h : tx.writes currentGroup endUnix db = .ok db')
    (userId planId : Int) :
    db'.owned userId planId
      = db.owned userId planId + if tx.userId = userId ∧ tx.plan.id = planId then 1 else 0 := by
  obtain ⟨wallet, -, h⟩ := bind_eq_ok.mp h
  dsimp only at h
  split at h
  · cases h
  · next subs hcreate =>
    have hsubs := SubscriptionTx.finishTx_subscriptions h
    unfold SubscriptionStore.owned
    rw [hsubs, Table.rows_of_create hcreate, countP_append, countP_singleton]
    by_cases hmine : tx.userId = userId ∧ tx.plan.id = planId
    · rw [if_pos hmine]
      exact congrArg _ (if_pos (decide_eq_true hmine))
    · rw [if_neg hmine]
      exact congrArg _ (if_neg fun hc => hmine (of_decide_eq_true hc))

/-- An inserted row leaves the call, its user and its plan as they were. -/
theorem SubscriptionTx.insertTx_eq_ok {tx' : SubscriptionTx} (h : tx.insertTx db = .ok tx') :
    ∃ currentGroup endUnix locks, (∀ lock ∈ tx.locks, lock ∈ locks) ∧
      tx' = { tx with locks, stage := .inserted currentGroup endUnix } := by
  obtain ⟨endUnix, -, h⟩ := bind_eq_ok.mp h
  cases h
  refine ⟨_, _, _, fun lock hlock => ?_, rfl⟩
  split
  · exact mem_cons_of_mem _ hlock
  · exact hlock

end Steps

/-! ## The invariant -/

/-- What holds of the transactions for one user and one plan. -/
structure LimitInv {n : Nat} (userId : Int) (plan : SubscriptionPlan) (s : LimitSystem n) :
    Prop where
  /-- A primary key determines its plan. -/
  plans : ∀ planId p, s.plans planId = some p → p.id = plan.id → p = plan
  /-- Row locks are exclusive. -/
  locks : ∀ i j, i ≠ j → ∀ tx ∈ s.txs i, ∀ tx' ∈ s.txs j, ∀ lock ∈ tx.locks, lock ∉ tx'.locks
  locked : ∀ i, ∀ tx ∈ s.txs i, tx.Locked
  samePlan : ∀ i, ∀ tx ∈ s.txs i, tx.plan.id = plan.id → tx.plan = plan
  /-- At most one transaction is between its count and its commit. -/
  alone : ∀ i j, ∀ tx ∈ s.txs i, ∀ tx' ∈ s.txs j,
    tx.InFlight userId plan.id → tx'.InFlight userId plan.id → i = j
  /-- What it has counted still leaves room. -/
  room : ∀ i, ∀ tx ∈ s.txs i, tx.InFlight userId plan.id →
    (s.db.owned userId plan.id : Int) < plan.maxPurchasePerUser
  limit : (s.db.owned userId plan.id : Int) ≤ plan.maxPurchasePerUser

section Invariant

variable {n : Nat} {s : LimitSystem n} {userId : Int} {plan : SubscriptionPlan}

theorem LimitSystem.setTx_self (s : LimitSystem n) (i : Fin n) (tx : Option SubscriptionTx) :
    (s.setTx i tx).txs i = tx := Function.update_self ..

theorem LimitSystem.setTx_of_ne (s : LimitSystem n) {i j : Fin n} (h : j ≠ i)
    (tx : Option SubscriptionTx) : (s.setTx i tx).txs j = s.txs j := Function.update_of_ne h ..

/-- The transactions that stay when one is over. -/
theorem LimitSystem.mem_of_mem_setTx_none {i j : Fin n} (h : tx ∈ (s.setTx i none).txs j) :
    j ≠ i ∧ tx ∈ s.txs j := by
  by_cases hji : j = i
  · subst hji
    rw [LimitSystem.setTx_self] at h
    cases h
  · rw [LimitSystem.setTx_of_ne s hji] at h
    exact ⟨hji, h⟩

/-- A transaction that is over leaves the others as they are. -/
theorem LimitInv.close (h : LimitInv userId plan s) (i : Fin n) :
    LimitInv userId plan (s.setTx i none) where
  plans := h.plans
  locks := fun j k hjk tx htx tx' htx' =>
    h.locks j k hjk tx (LimitSystem.mem_of_mem_setTx_none htx).2 tx'
      (LimitSystem.mem_of_mem_setTx_none htx').2
  locked := fun j tx htx => h.locked j tx (LimitSystem.mem_of_mem_setTx_none htx).2
  samePlan := fun j tx htx => h.samePlan j tx (LimitSystem.mem_of_mem_setTx_none htx).2
  alone := fun j k tx htx tx' htx' =>
    h.alone j k tx (LimitSystem.mem_of_mem_setTx_none htx).2 tx'
      (LimitSystem.mem_of_mem_setTx_none htx').2
  room := fun j tx htx => h.room j tx (LimitSystem.mem_of_mem_setTx_none htx).2
  limit := h.limit

/-- A transaction may take a step that takes only free locks, and that enters the critical part only
when nobody else is in it and there is room. -/
theorem LimitInv.set (h : LimitInv userId plan s) {i : Fin n} (hfree : s.Free i tx.locks)
    (hlocked : tx.Locked) (hplan : tx.plan.id = plan.id → tx.plan = plan)
    (halone : tx.InFlight userId plan.id → ∀ j, j ≠ i → ∀ tx' ∈ s.txs j,
      ¬ tx'.InFlight userId plan.id) (hroom : tx.InFlight userId plan.id →
      (s.db.owned userId plan.id : Int) < plan.maxPurchasePerUser) :
    LimitInv userId plan (s.setTx i (some tx)) := by
  have hmem : ∀ j, ∀ t ∈ (s.setTx i (some tx)).txs j, (j = i ∧ t = tx) ∨ (j ≠ i ∧ t ∈ s.txs j) := by
    intro j t ht
    by_cases hji : j = i
    · subst hji
      rw [LimitSystem.setTx_self] at ht
      exact .inl ⟨rfl, (Option.mem_some_iff.mp ht).symm⟩
    · rw [LimitSystem.setTx_of_ne s hji] at ht
      exact .inr ⟨hji, ht⟩
  refine ⟨h.plans, ?_, ?_, ?_, ?_, ?_, h.limit⟩
  · intro j k hjk t ht t' ht' lock hlock
    rcases hmem j t ht with ⟨rfl, rfl⟩ | ⟨hj, htj⟩ <;>
      rcases hmem k t' ht' with ⟨rfl, rfl⟩ | ⟨hk, htk⟩
    · exact absurd rfl hjk
    · exact hfree k hk t' htk lock hlock
    · exact fun hlock' => hfree j hj t htj lock hlock' hlock
    · exact h.locks j k hjk t htj t' htk lock hlock
  · intro j t ht
    rcases hmem j t ht with ⟨-, rfl⟩ | ⟨-, ht⟩
    · exact hlocked
    · exact h.locked j t ht
  · intro j t ht
    rcases hmem j t ht with ⟨-, rfl⟩ | ⟨-, ht⟩
    · exact hplan
    · exact h.samePlan j t ht
  · intro j k t ht t' ht' hin hin'
    rcases hmem j t ht with ⟨rfl, rfl⟩ | ⟨hj, htj⟩ <;>
      rcases hmem k t' ht' with ⟨rfl, rfl⟩ | ⟨hk, htk⟩
    · rfl
    · exact absurd hin' (halone hin k hk t' htk)
    · exact absurd hin (halone hin' j hj t htj)
    · exact h.alone j k t htj t' htk hin hin'
  · intro j t ht hin
    rcases hmem j t ht with ⟨-, rfl⟩ | ⟨-, ht⟩
    · exact hroom hin
    · exact h.room j t ht hin

/-- A transaction that commits takes the room it has counted. -/
theorem LimitInv.commit (h : LimitInv userId plan s) {i : Fin n} (htx : s.txs i = some tx)
    {currentGroup : String} {endUnix : Int} (hstage : tx.stage = .inserted currentGroup endUnix)
    (hwrites : tx.writes currentGroup endUnix s.db = .ok db) :
    LimitInv userId plan { s.setTx i none with db } := by
  have hclose := h.close i
  have howned := SubscriptionTx.writes_owned hwrites userId plan.id
  by_cases hmine : tx.userId = userId ∧ tx.plan.id = plan.id
  · have hin : tx.InFlight userId plan.id := ⟨hmine.1, hmine.2, by rw [hstage]; nofun⟩
    have hroom := h.room i tx htx hin
    rw [if_pos hmine] at howned
    refine ⟨hclose.plans, hclose.locks, hclose.locked, hclose.samePlan, hclose.alone, ?_, ?_⟩
    · -- nobody else is in the critical part
      intro j t ht hin'
      obtain ⟨hne, ht⟩ := LimitSystem.mem_of_mem_setTx_none ht
      exact absurd (h.alone j i t ht tx htx hin' hin) hne
    · change ((db.owned userId plan.id : Nat) : Int) ≤ _
      omega
  · rw [if_neg hmine] at howned
    refine ⟨hclose.plans, hclose.locks, hclose.locked, hclose.samePlan, hclose.alone, ?_, ?_⟩
    · intro j t ht hin
      rw [howned]
      exact hclose.room j t ht hin
    · rw [howned]
      exact h.limit

/-- What keeps the counts of a user and a plan apart: a transaction counts only while no other one for
them is between its count and its commit. Calls that lock the same row need no care. -/
def LimitEvent.Apart (userId planId : Int) (s : LimitSystem n) : LimitEvent n → Prop
  | .count i => ∀ tx ∈ s.txs i, tx.userId = userId → tx.plan.id = planId →
    ∀ j, j ≠ i → ∀ tx' ∈ s.txs j, tx'.InFlight userId planId → tx.Excludes tx'
  | _ => True

/-- One statement keeps the invariant. -/
theorem LimitInv.step (hlimit : 0 < plan.maxPurchasePerUser) (h : LimitInv userId plan s)
    {e : LimitEvent n} (he : e.Apart userId plan.id s) : LimitInv userId plan (s.step e) := by
  rcases s.step_cases e with hsame | ⟨i, hclose⟩ | ⟨i, call, env, tx, -, -, hopen, hfree, hstep⟩ |
    ⟨i, tx, rfl, htx, hstage, hcount, hstep⟩ | ⟨i, tx, tx', htx, hstage, hinsert, hfree, hstep⟩ |
    ⟨i, tx, currentGroup, endUnix, db, htx, hstage, hwrites, hstep⟩
  · rw [hsame]
    exact h
  · rw [hclose]
    exact h.close i
  · rw [hstep]
    obtain ⟨hstage, hlocked, planId, hplan⟩ := SubscribeCall.openTx_eq_ok hopen
    exact h.set hfree hlocked (h.plans planId tx.plan hplan) (fun hin => absurd hstage hin.2.2)
      (fun hin => absurd hstage hin.2.2)
  · rw [hstep]
    have hfree : s.Free i tx.locks := fun j hj t ht => h.locks i j (Ne.symm hj) tx htx t ht
    refine h.set hfree (h.locked i tx htx) (h.samePlan i tx htx) ?_ ?_
    · -- a transaction in the critical part would hold a lock that this one holds
      intro hin j hj t ht hin'
      have hexcludes := he tx htx hin.1 hin.2.1 j hj t ht hin'
      obtain ⟨lock, hlock, hlock'⟩ := hexcludes.exists_lock (h.locked i tx htx) (h.locked j t ht)
      exact hfree j hj t ht lock hlock hlock'
    · intro hin
      have hplan : tx.plan = plan := h.samePlan i tx htx hin.2.1
      have huser : tx.userId = userId := hin.1
      have hroom := SubscriptionTx.countTx_eq_ok hcount (hplan ▸ hlimit)
      rwa [hplan, huser] at hroom
  · rw [hstep]
    obtain ⟨currentGroup, endUnix, locks, hkept, rfl⟩ := SubscriptionTx.insertTx_eq_ok hinsert
    have hlocked := h.locked i tx htx
    have hin : ∀ hin' : tx.userId = userId ∧ tx.plan.id = plan.id, tx.InFlight userId plan.id :=
      fun hin' => ⟨hin'.1, hin'.2, by rw [hstage]; nofun⟩
    refine h.set hfree ?_ (h.samePlan i tx htx) ?_ ?_
    · exact ⟨fun hpaid => hkept _ (hlocked.1 hpaid), fun t ht => hkept _ (hlocked.2 t ht)⟩
    · intro hin' j hj t ht hin''
      exact hj (h.alone j i t ht tx htx hin'' (hin ⟨hin'.1, hin'.2.1⟩))
    · exact fun hin' => h.room i tx htx (hin ⟨hin'.1, hin'.2.1⟩)
  · rw [hstep]
    exact h.commit htx hstage hwrites

end Invariant

/-- **The limit of a plan holds in every interleaving that keeps the counts apart.** -/
theorem purchase_limit {n : Nat} (s : LimitSystem n) (userId : Int) (plan : SubscriptionPlan)
    (hlimit : 0 < plan.maxPurchasePerUser) (hplan : s.plans plan.id = some plan)
    (hkey : ∀ planId p, s.plans planId = some p → p.id = planId)
    (hidle : ∀ i, s.txs i = none)
    (hstart : (s.db.owned userId plan.id : Int) ≤ plan.maxPurchasePerUser)
    (es : List (LimitEvent n))
    (hapart : Along LimitSystem.step (fun s e => e.Apart userId plan.id s) s es) :
    ((run LimitSystem.step s es).db.owned userId plan.id : Int) ≤ plan.maxPurchasePerUser := by
  have hidle' : ∀ i, ∀ tx ∈ s.txs i, False := fun i tx htx => by
    rw [hidle i] at htx
    cases htx
  have hinit : LimitInv userId plan s :=
    { plans := fun planId p hp hid => by
        have hsame : planId = plan.id := (hkey planId p hp).symm.trans hid
        rw [hsame, hplan] at hp
        exact (Option.some.inj hp).symm
      locks := fun i _ _ tx htx => (hidle' i tx htx).elim
      locked := fun i tx htx => (hidle' i tx htx).elim
      samePlan := fun i tx htx => (hidle' i tx htx).elim
      alone := fun i _ tx htx => (hidle' i tx htx).elim
      room := fun i tx htx => (hidle' i tx htx).elim
      limit := hstart }
  exact (run_keeps_along (I := LimitInv userId plan) (fun _ _ h he => h.step hlimit he) hinit
    hapart).limit

/-- A plan that each user may have once. -/
def SubscriptionPlan.once : SubscriptionPlan := { id := 1, maxPurchasePerUser := 1 }

/-- One user, the plan, and two connections. -/
def LimitSystem.sample : LimitSystem 2 where
  db :=
    { wallet := .ofUser 0 "default"
      subscriptions := ⟨.empty, .empty, .empty, fun _ => 0⟩
      orders := .empty
      topUps := .empty }
  plans := fun id => if id = 1 then some .once else none
  txs := fun _ => none

/-- The start of the epoch, without faults. -/
def PurchaseEnv.sample : PurchaseEnv :=
  ⟨⟨0, Location.fixed 0, fun _ => none, fun _ => none⟩, 500000, "trade"⟩

/-- The administrator binds the plan twice, one after the other: the second time is refused. -/
theorem purchase_limit_in_turn :
    ((run LimitSystem.step .sample
      [.open 0 (.bind 1 1) .sample, .count 0, .insert 0, .commit 0,
       .open 1 (.bind 1 1) .sample, .count 1, .insert 1, .commit 1]).db.owned 1 1 : Int) ≤ 1 := by
  refine purchase_limit .sample 1 .once (by decide) rfl (fun planId p hp => ?_) (fun _ => rfl)
    (by decide) _ ?_
  · dsimp only [LimitSystem.sample] at hp
    split at hp
    · next hid => cases hp; exact hid.symm
    · cases hp
  · refine ⟨trivial, ?_, trivial, trivial, trivial, ?_, trivial, trivial, trivial⟩
    · intro tx _ _ _ j hj tx' htx'
      obtain rfl : j = 1 := by omega
      cases htx'
    · intro tx _ _ _ j hj tx' htx'
      obtain rfl : j = 0 := by omega
      have hdone : (run LimitSystem.step LimitSystem.sample [.open 0 (.bind 1 1) .sample, .count 0,
        .insert 0, .commit 0, .open 1 (.bind 1 1) .sample]).txs 0 = none := by rfl
      cases hdone.symm.trans htx'

/-- **Two transactions that count before either commits.** Both see no subscription, both insert one,
and the user owns two subscriptions of a plan with the limit one. -/
theorem purchase_limit_overlap :
    ((run LimitSystem.step .sample
      [.open 0 (.bind 1 1) .sample, .open 1 (.bind 1 1) .sample, .count 0, .count 1,
       .insert 0, .insert 1, .commit 0, .commit 1]).db.owned 1 1 = 2) ∧
    LimitSystem.sample.plans 1 = some .once ∧ SubscriptionPlan.once.maxPurchasePerUser = 1 := by
  refine ⟨by decide +kernel, rfl, rfl⟩

end Prox
