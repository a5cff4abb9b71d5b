import Mathlib.Data.List.Sort
import Prox.Lib.Run
import Prox.Lib.Table
import Prox.Lib.Time
import Prox.Model.Errors

/-! # Subscription quota

The embedding of the quota part of `model/subscription.go`: pre-consumption of a request from the
first active subscription that covers it, resizing, settling and refunding that hold, the idempotent
direct mutation, and the periodic reset of the counter `AmountUsed`. Every change of the counter by
a mutation writes one row of the subscription journal with the delta that was really applied. -/

namespace Prox

/-! ## Rows -/

/-- The `status` column of a subscription. -/
inductive SubscriptionStatus where
  | active
  | expired
  | cancelled
  deriving DecidableEq

/-- A plan. Units and periods are the stored texts; `allowBalancePay` is a nullable column. -/
structure SubscriptionPlan where
  id : Int
  priceAmount : Rat := 0
  durationUnit : String := "month"
  durationValue : Int := 1
  customSeconds : Int := 0
  enabled : Bool := true
  allowBalancePay : Option Bool := some true
  maxPurchasePerUser : Int := 0
  upgradeGroup : String := ""
  totalAmount : Int := 0
  quotaResetPeriod : String := "never"
  quotaResetCustomSeconds : Int := 0

/-- A subscription of a user; `amountTotal ≤ 0` means unlimited. -/
structure UserSubscription where
  id : Int
  userId : Int
  planId : Int
  amountTotal : Int
  amountUsed : Int := 0
  startTime : Int
  endTime : Int
  status : SubscriptionStatus := .active
  source : String := ""
  lastResetTime : Int := 0
  nextResetTime : Int := 0
  upgradeGroup : String := ""
  prevUserGroup : String := ""
  deriving DecidableEq

instance : Row UserSubscription Int := ⟨UserSubscription.id, UserSubscription.id⟩

/-- The `status` column of a pre-consumption. -/
inductive PreConsumeStatus where
  | pending
  | consumed
  | settled
  | refunded
  deriving DecidableEq

/-- The stored text of a status. -/
def PreConsumeStatus.text : PreConsumeStatus → String
  | .pending => "pending"
  | .consumed => "consumed"
  | .settled => "settled"
  | .refunded => "refunded"

/-- The durable hold of a subscription-funded request. -/
structure SubscriptionPreConsumeRecord where
  id : Int
  requestId : String
  userId : Int
  userSubscriptionId : Int := 0
  preConsumed : Int
  status : PreConsumeStatus
  version : Int := 1

instance : Row SubscriptionPreConsumeRecord String :=
  ⟨SubscriptionPreConsumeRecord.id, SubscriptionPreConsumeRecord.requestId⟩

/-- One entry of the subscription journal: the requested delta and the one that was applied. -/
structure SubscriptionQuotaTransaction where
  id : Int
  userSubscriptionId : Int
  userId : Int
  requestId : String
  transactionType : String
  requestedDeltaQuota : Int
  deltaQuota : Int
  amountUsedBefore : Int
  amountUsedAfter : Int
  idempotencyKey : String
  deriving DecidableEq

instance : Row SubscriptionQuotaTransaction String :=
  ⟨SubscriptionQuotaTransaction.id, SubscriptionQuotaTransaction.idempotencyKey⟩

/-- The tables of subscription billing. `resetMark` is ghost state that no function reads: for each
subscription, how many journal rows there were when its counter was last reset. -/
structure SubscriptionDB where
  subs : Table UserSubscription
  records : Table SubscriptionPreConsumeRecord
  journal : Table SubscriptionQuotaTransaction
  resetMark : Int → Nat

/-- What a call reads from outside these tables: the clock, the server's time zone, the plan a
lookup by id returns (from the plan cache or the plan table) and the faults of its transactions. -/
structure SubscriptionEnv where
  now : Int
  loc : Location
  plans : Int → Option SubscriptionPlan
  faults : Nat → Option Err

/-! ## Column assignments -/

namespace UserSubscription

/-- `amount_used = a`. -/
def setAmountUsed (a : Int) : Patch UserSubscription :=
  ⟨fun s => { s with amountUsed := a }, fun _ => rfl, fun _ => rfl⟩

/-- The columns written when only the reset schedule is initialised. -/
def schedule (last next : Int) : Patch UserSubscription :=
  ⟨fun s => { s with lastResetTime := last, nextResetTime := next }, fun _ => rfl, fun _ => rfl⟩

/-- The columns a reset writes. -/
def reset (last next : Int) : Patch UserSubscription :=
  ⟨fun s => { s with amountUsed := 0, lastResetTime := last, nextResetTime := next },
    fun _ => rfl, fun _ => rfl⟩

end UserSubscription

namespace SubscriptionPreConsumeRecord

/-- The columns written when a claimed record gets its subscription. -/
def consume (userSubscriptionId : Int) : Patch SubscriptionPreConsumeRecord :=
  ⟨fun r => { r with userSubscriptionId, status := .consumed }, fun _ => rfl, fun _ => rfl⟩

/-- The columns a resize writes. -/
def resize (targetQuota version : Int) : Patch SubscriptionPreConsumeRecord :=
  ⟨fun r => { r with preConsumed := targetQuota, version }, fun _ => rfl, fun _ => rfl⟩

/-- The columns a settlement writes. -/
def settle (actualQuota version : Int) : Patch SubscriptionPreConsumeRecord :=
  ⟨fun r => { r with preConsumed := actualQuota, status := .settled, version },
    fun _ => rfl, fun _ => rfl⟩

/-- The columns a refund writes. -/
def refund (version : Int) : Patch SubscriptionPreConsumeRecord :=
  ⟨fun r => { r with status := .refunded, version }, fun _ => rfl, fun _ => rfl⟩

end SubscriptionPreConsumeRecord

/-! ## Reset schedule -/

/-- The reset periods a plan can name. -/
inductive ResetPeriod where
  | never
  | daily
  | weekly
  | monthly
  | custom
  deriving DecidableEq

/-- `NormalizeResetPeriod`: everything unknown means never. -/
def normalizeResetPeriod (period : String) : ResetPeriod :=
  let period := trimSpace period
  if period = "daily" then .daily
  else if period = "weekly" then .weekly
  else if period = "monthly" then .monthly
  else if period = "custom" then .custom
  else .never

/-- The reset after `base`, or 0 for none. -/
def calcNextResetTime (loc : Location) (base : Int) (plan : SubscriptionPlan) (endUnix : Int) : Int :=
  let c := loc.civil base
  let next? : Option Int :=
    match normalizeResetPeriod plan.quotaResetPeriod with
    | .never => none
    | .daily => some (loc.addDate (loc.dateUnix c.year c.month c.day 0) 0 1)
    | .weekly =>
      let weekday := weekdayOfDays (loc.days base)
      let weekday := if weekday = 0 then 7 else weekday
      some (loc.addDate (loc.dateUnix c.year c.month c.day 0) 0 (8 - weekday))
    | .monthly => some (loc.addDate (loc.dateUnix c.year c.month 1 0) 1 0)
    | .custom =>
      if plan.quotaResetCustomSeconds ≤ 0 then none
      else some (base + durationSeconds plan.quotaResetCustomSeconds)
  match next? with
  | none => 0
  | some next => if 0 < endUnix ∧ endUnix < next then 0 else next

/-- The loop that advances the schedule past `now`: the last base, the reset after it, and whether a
reset was due. `none` means that it is still running after `fuel` rounds. -/
def advanceReset (loc : Location) (plan : SubscriptionPlan) (endUnix now : Int) :
    Nat → Int → Int → Bool → Option (Int × Int × Bool)
  | 0, _, _, _ => none
  | fuel + 1, base, next, advanced =>
    if 0 < next ∧ next ≤ now then
      advanceReset loc plan endUnix now fuel next (calcNextResetTime loc next plan endUnix) true
    else some (base, next, advanced)

/-- Resets the counter when a reset is due; returns the row as it is then. The loop's state is a
number in `1 … now` while it runs, so after `now` rounds it repeats itself: it never returns. -/
def maybeResetUserSubscriptionWithPlanTx (loc : Location) (db : SubscriptionDB)
    (sub : UserSubscription) (plan : SubscriptionPlan) (now : Int) :
    Except Err (UserSubscription × SubscriptionDB) :=
  if 0 < sub.nextResetTime ∧ now < sub.nextResetTime then pure (sub, db)
  else if normalizeResetPeriod plan.quotaResetPeriod = .never then pure (sub, db)
  else
    let baseUnix := if sub.lastResetTime ≤ 0 then sub.startTime else sub.lastResetTime
    match advanceReset loc plan sub.endTime now (now.toNat + 2) baseUnix
        (calcNextResetTime loc baseUnix plan sub.endTime) false with
    | none => throw .diverges
    | some (base, next, false) =>
      if sub.nextResetTime = 0 ∧ 0 < next then
        pure ((UserSubscription.schedule base next).apply sub,
          { db with subs := (db.subs.updateWhere (fun s => s.id = sub.id)
              (UserSubscription.schedule base next)).1 })
      else pure (sub, db)
    | some (base, next, true) =>
      pure ((UserSubscription.reset base next).apply sub,
        { db with
          subs := (db.subs.updateWhere (fun s => s.id = sub.id) (UserSubscription.reset base next)).1
          resetMark := Function.update db.resetMark sub.id db.journal.rows.length })

/-- The plan of a subscription, as the cache or the table has it. -/
def getSubscriptionPlanById (plans : Int → Option SubscriptionPlan) (id : Int) :
    Except Err SubscriptionPlan := do
  failIf (id ≤ 0) (.text "invalid plan id")
  match plans id with
  | none => throw (.sentinel .recordNotFound)
  | some plan => pure plan

/-! ## Mutations of the counter -/

/-- The rows of a subscription, locked. -/
def lockUserSubscriptionTx (db : SubscriptionDB) (id : Int) : Except Err UserSubscription :=
  match db.subs.byId id with
  | none => throw (.sentinel .recordNotFound)
  | some sub => pure sub

/-- `AmountUsed` after a requested delta: 64-bit addition, clamped at zero. -/
def amountUsedAfter (used requested : Int) : Int :=
  let after := wrapInt64 (used + requested)
  if after < 0 then 0 else after

/-- Applies one delta to a subscription exactly once per idempotency key. -/
def applySubscriptionQuotaMutationTx (db : SubscriptionDB) (userSubscriptionID delta : Int)
    (requestID transactionType idempotencyKey : String) : Except Err (Bool × SubscriptionDB) := do
  failIf (userSubscriptionID ≤ 0 ∨ delta = 0)
    (.text "subscription id must be positive and delta must be non-zero")
  let requestID := trimSpace requestID
  failIf (requestID = "" ∨ 128 < byteLen requestID)
    (.text "subscription request id must contain 1 to 128 characters")
  let transactionType := trimSpace transactionType
  failIf (transactionType = "" ∨ 32 < byteLen transactionType)
    (.text "subscription transaction type must contain 1 to 32 characters")
  let idempotencyKey := trimSpace idempotencyKey
  failIf (idempotencyKey = "" ∨ 191 < byteLen idempotencyKey)
    (.text "subscription idempotency key must contain 1 to 191 characters")
  let subscription ← lockUserSubscriptionTx db userSubscriptionID
  match db.journal.byKey idempotencyKey with
  | some replay => do
    let replayRequestedDelta :=
      if replay.requestedDeltaQuota = 0 then replay.deltaQuota else replay.requestedDeltaQuota
    failIf (¬ (replay.userSubscriptionId = userSubscriptionID ∧ replay.requestId = requestID ∧
        replay.transactionType = transactionType ∧ replayRequestedDelta = delta))
      (.wrap .subscriptionQuotaMutationConflict s!"idempotency_key={idempotencyKey}")
    return (false, db)
  | none => do
    let after := amountUsedAfter subscription.amountUsed delta
    let applied := after - subscription.amountUsed
    failIf (0 < subscription.amountTotal ∧ subscription.amountTotal < after)
      (.wrap .subscriptionQuotaInsufficient s!"used={after} total={subscription.amountTotal}")
    let update := db.subs.updateWhere
      (fun s => s.id = subscription.id ∧ s.amountUsed = subscription.amountUsed)
      (UserSubscription.setAmountUsed after)
    failIf (applied ≠ 0 ∧ update.2 ≠ 1) (.text "subscription quota changed concurrently")
    let subs := if applied ≠ 0 then update.1 else db.subs
    match db.journal.create
        { id := db.journal.nextId, userSubscriptionId := subscription.id,
          userId := subscription.userId, requestId := requestID, transactionType,
          requestedDeltaQuota := delta, deltaQuota := applied,
          amountUsedBefore := subscription.amountUsed, amountUsedAfter := after,
          idempotencyKey } with
    | none => throw (.sentinel .duplicatedKey)
    | some journal => pure (true, { db with subs, journal })

/-- Applies one delta in a transaction of its own; the flag says whether it was applied now. -/
def postConsumeUserSubscriptionDeltaIdempotent (fault : Option Err) (userSubscriptionID delta : Int)
    (requestID transactionType idempotencyKey : String) (db : SubscriptionDB) :
    Except Err Bool × SubscriptionDB :=
  transaction fault (fun db => applySubscriptionQuotaMutationTx db userSubscriptionID delta requestID
    transactionType idempotencyKey) db

/-! ## Pre-consumption -/

/-- The request ids these operations accept, trimmed. -/
def normalizeSubscriptionRequest (requestId : String) : Except Err String := do
  let requestId := trimSpace requestId
  failIf (requestId = "" ∨ 128 < byteLen requestId)
    (.text "requestId must contain 1 to 128 characters")
  return requestId

/-- `SELECT … WHERE request_id = ? FOR UPDATE`. -/
def lockSubscriptionPreConsumeRecordTx (db : SubscriptionDB) (requestID : String) :
    Except Err SubscriptionPreConsumeRecord :=
  match db.records.byKey requestID with
  | none => throw (.sentinel .recordNotFound)
  | some record => pure record

/-- `UPDATE … WHERE id = ? AND status = ? AND version = ?` on a record. -/
def updateRecordTx (db : SubscriptionDB) (record : SubscriptionPreConsumeRecord)
    (status : PreConsumeStatus) (patch : Patch SubscriptionPreConsumeRecord) (err : Err) :
    Except Err SubscriptionDB := do
  let update := db.records.updateWhere
    (fun r => r.id = record.id ∧ r.status = status ∧ r.version = record.version) patch
  failIf (update.2 ≠ 1) err
  return { db with records := update.1 }

/-- What a pre-consumption reports. -/
structure SubscriptionPreConsumeResult where
  userSubscriptionId : Int
  preConsumed : Int
  amountTotal : Int
  amountUsedBefore : Int
  amountUsedAfter : Int
  deriving DecidableEq

/-- `ORDER BY end_time ASC, id ASC`. -/
def UserSubscription.endsBefore (a b : UserSubscription) : Prop :=
  a.endTime < b.endTime ∨ (a.endTime = b.endTime ∧ a.id ≤ b.id)
  deriving Decidable

/-- The active subscriptions of a user, the one that ends first in front. -/
def selectActiveSubscriptions (db : SubscriptionDB) (userId now : Int) : List UserSubscription :=
  (db.subs.rows.filter (fun s => s.userId = userId ∧ s.status = .active ∧ now < s.endTime)).insertionSort
    UserSubscription.endsBefore

/-- The loop over the candidates: reset what is due, skip what does not cover the amount, and
consume from the first that does. -/
def preConsumeFrom (env : SubscriptionEnv) (record : SubscriptionPreConsumeRecord) (amount : Int) :
    List UserSubscription → SubscriptionDB →
      Except Err (SubscriptionPreConsumeResult × SubscriptionDB)
  | [], _ => throw (.wrap .subscriptionQuotaInsufficient s!"need={amount}")
  | candidate :: rest, db => do
    let plan ← getSubscriptionPlanById env.plans candidate.planId
    let (sub, db) ← maybeResetUserSubscriptionWithPlanTx env.loc db candidate plan env.now
    if 0 < sub.amountTotal ∧ sub.amountTotal - sub.amountUsed < amount then
      preConsumeFrom env record amount rest db
    else do
    let (_, db) ← applySubscriptionQuotaMutationTx db sub.id amount record.requestId "preconsume"
      ("subscription:" ++ record.requestId ++ ":preconsume")
    let db ← updateRecordTx db record .pending (SubscriptionPreConsumeRecord.consume sub.id)
      (.wrap .subscriptionPreConsumeState s!"failed to finalize request_id={record.requestId}")
    return ({ userSubscriptionId := sub.id, preConsumed := amount, amountTotal := sub.amountTotal,
              amountUsedBefore := sub.amountUsed,
              amountUsedAfter := wrapInt64 (sub.amountUsed + amount) }, db)

/-- The branch of a pre-consumption whose request id is already taken. -/
def replayPreConsume (db : SubscriptionDB) (requestId : String) (userId amount : Int) :
    Except Err (SubscriptionPreConsumeResult × SubscriptionDB) := do
  let existing ← lockSubscriptionPreConsumeRecordTx db requestId
  failIf (existing.userId ≠ userId ∨ existing.preConsumed ≠ amount)
    (.wrap .subscriptionPreConsumeConflict s!"request_id={requestId}")
  failIf (existing.status = .refunded)
    (.wrap .subscriptionPreConsumeState s!"status=refunded request_id={requestId}")
  failIf (existing.status ≠ .consumed ∧ existing.status ≠ .settled)
    (.wrap .subscriptionPreConsumeState s!"status={existing.status.text} request_id={requestId}")
  let subscription ← lockUserSubscriptionTx db existing.userSubscriptionId
  return ({ userSubscriptionId := subscription.id, preConsumed := existing.preConsumed,
            amountTotal := subscription.amountTotal, amountUsedBefore := subscription.amountUsed,
            amountUsedAfter := subscription.amountUsed }, db)

/-- The transaction of `PreConsumeUserSubscription`: the record claims the request id, then a
subscription is found for it. -/
def preConsumeUserSubscriptionTx (env : SubscriptionEnv) (requestId : String) (userId amount : Int)
    (db : SubscriptionDB) : Except Err (SubscriptionPreConsumeResult × SubscriptionDB) :=
  let record : SubscriptionPreConsumeRecord :=
    { id := db.records.nextId, requestId, userId, preConsumed := amount, status := .pending }
  match db.records.create record with
  | none => replayPreConsume db requestId userId amount
  | some records => do
    let subs := selectActiveSubscriptions db userId env.now
    failIf (subs = []) (.sentinel .noActiveSubscription)
    preConsumeFrom env record amount subs { db with records }

/-- Pre-consumes from any active subscription of the user. -/
def preConsumeUserSubscription (env : SubscriptionEnv) (requestId : String) (userId amount : Int) :
    SubscriptionDB → Except Err SubscriptionPreConsumeResult × SubscriptionDB :=
  checked (do
    failIf (userId ≤ 0) (.text "invalid userId")
    let requestId ← normalizeSubscriptionRequest requestId
    failIf (amount ≤ 0) (.text "amount must be > 0")
    return requestId)
  fun requestId =>
    transaction (env.faults 0) (preConsumeUserSubscriptionTx env requestId userId amount)

/-! ## Moving a hold on -/

/-- The transaction of `ResizeSubscriptionPreConsume`. -/
def resizeSubscriptionPreConsumeTx (requestID : String) (userID userSubscriptionID targetQuota : Int)
    (db : SubscriptionDB) : Except Err (Unit × SubscriptionDB) := do
  let record ← lockSubscriptionPreConsumeRecordTx db requestID
  failIf (record.userId ≠ userID ∨ record.userSubscriptionId ≠ userSubscriptionID)
    (.wrap .subscriptionPreConsumeConflict s!"request_id={requestID}")
  failIf (record.status ≠ .consumed)
    (.wrap .subscriptionPreConsumeState s!"status={record.status.text} request_id={requestID}")
  if record.preConsumed = targetQuota then return ((), db) else
  let nextVersion := (if record.version < 1 then 1 else record.version) + 1
  let (_, db) ← applySubscriptionQuotaMutationTx db userSubscriptionID
    (targetQuota - record.preConsumed) requestID "preconsume_resize"
    s!"subscription:{requestID}:resize:{nextVersion}"
  let db ← updateRecordTx db record .consumed
    (SubscriptionPreConsumeRecord.resize targetQuota nextVersion)
    (.wrap .subscriptionPreConsumeState s!"concurrent resize request_id={requestID}")
  return ((), db)

/-- Changes the hold of an in-flight request to an absolute target. -/
def resizeSubscriptionPreConsume (fault : Option Err) (requestID : String)
    (userID userSubscriptionID targetQuota : Int) : SubscriptionDB → Except Err Unit × SubscriptionDB :=
  checked (do
    let requestID ← normalizeSubscriptionRequest requestID
    failIf (userID ≤ 0 ∨ userSubscriptionID ≤ 0 ∨ targetQuota < 0)
      (.text "invalid subscription pre-consume resize arguments")
    return requestID)
  fun requestID => transaction fault
    (resizeSubscriptionPreConsumeTx requestID userID userSubscriptionID targetQuota)

/-- The transaction of `SettleSubscriptionPreConsume`. -/
def settleSubscriptionPreConsumeTx (requestID : String) (userID userSubscriptionID actualQuota : Int)
    (db : SubscriptionDB) : Except Err (Unit × SubscriptionDB) := do
  let record ← lockSubscriptionPreConsumeRecordTx db requestID
  failIf (record.userId ≠ userID ∨ record.userSubscriptionId ≠ userSubscriptionID)
    (.wrap .subscriptionPreConsumeConflict s!"request_id={requestID}")
  if record.status = .settled then do
    failIf (record.preConsumed ≠ actualQuota) (.wrap .subscriptionPreConsumeConflict
      s!"settled={record.preConsumed} requested={actualQuota} request_id={requestID}")
    return ((), db)
  else do
  failIf (record.status ≠ .consumed)
    (.wrap .subscriptionPreConsumeState s!"status={record.status.text} request_id={requestID}")
  let delta := actualQuota - record.preConsumed
  let db ← (if delta ≠ 0 then do
      let (_, db) ← applySubscriptionQuotaMutationTx db userSubscriptionID delta requestID
        "preconsume_settle" ("subscription:" ++ requestID ++ ":settle")
      pure db
    else pure db)
  let version := if record.version < 1 then 1 else record.version
  let db ← updateRecordTx db record .consumed
    (SubscriptionPreConsumeRecord.settle actualQuota (version + 1))
    (.wrap .subscriptionPreConsumeState s!"concurrent settlement request_id={requestID}")
  return ((), db)

/-- Commits the absolute quota charged by a request and closes its hold. -/
def settleSubscriptionPreConsume (fault : Option Err) (requestID : String)
    (userID userSubscriptionID actualQuota : Int) : SubscriptionDB → Except Err Unit × SubscriptionDB :=
  checked (do
    let requestID ← normalizeSubscriptionRequest requestID
    failIf (userID ≤ 0 ∨ userSubscriptionID ≤ 0 ∨ actualQuota < 0)
      (.text "invalid subscription pre-consume settlement arguments")
    return requestID)
  fun requestID => transaction fault
    (settleSubscriptionPreConsumeTx requestID userID userSubscriptionID actualQuota)

/-- The transaction of `RefundSubscriptionPreConsume`. -/
def refundSubscriptionPreConsumeTx (requestId : String) (db : SubscriptionDB) :
    Except Err (Unit × SubscriptionDB) := do
  let record ← lockSubscriptionPreConsumeRecordTx db requestId
  if record.status = .refunded then return ((), db) else
  failIf (record.status ≠ .consumed)
    (.wrap .subscriptionPreConsumeState s!"status={record.status.text} request_id={requestId}")
  let db ← (if 0 < record.preConsumed then do
      let (_, db) ← applySubscriptionQuotaMutationTx db record.userSubscriptionId
        (-record.preConsumed) requestId "preconsume_refund" ("subscription:" ++ requestId ++ ":refund")
      pure db
    else pure db)
  return ((), { db with
    records := (db.records.updateWhere (fun r => r.id = record.id)
      (SubscriptionPreConsumeRecord.refund (record.version + 1))).1 })

/-- Returns the hold of a request. -/
def refundSubscriptionPreConsume (fault : Option Err) (requestId : String) :
    SubscriptionDB → Except Err Unit × SubscriptionDB :=
  checked (normalizeSubscriptionRequest requestId)
    fun requestId => transaction fault (refundSubscriptionPreConsumeTx requestId)

/-! ## The reset job -/

/-- The subscriptions whose reset is due. -/
def selectDueSubscriptions (db : SubscriptionDB) (now limit : Int) : List UserSubscription :=
  ((db.subs.rows.filter (fun s => 0 < s.nextResetTime ∧ s.nextResetTime ≤ now ∧ s.status = .active)
    ).insertionSort (fun a b => a.nextResetTime ≤ b.nextResetTime)).take
    (if limit ≤ 0 then 200 else limit.toNat)

/-- The transaction that resets one due subscription; it counts unless the row is no longer due. -/
def resetDueTx (env : SubscriptionEnv) (plan : SubscriptionPlan) (id : Int) (db : SubscriptionDB) :
    Except Err (Nat × SubscriptionDB) :=
  match db.subs.byId id with
  | none => pure (0, db)
  | some locked =>
    if 0 < locked.nextResetTime ∧ locked.nextResetTime ≤ env.now then do
      let (_, db) ← maybeResetUserSubscriptionWithPlanTx env.loc db locked plan env.now
      return (1, db)
    else pure (0, db)

/-- The loop of the reset job. A subscription without a plan is skipped, a failing transaction ends
the pass. -/
def resetSelected (env : SubscriptionEnv) :
    Nat → List UserSubscription → SubscriptionDB → (Nat × Option Err) × SubscriptionDB
  | _, [], db => ((0, none), db)
  | n, sub :: rest, db =>
    match getSubscriptionPlanById env.plans sub.planId with
    | .error _ => resetSelected env n rest db
    | .ok plan =>
      match transaction (env.faults n) (resetDueTx env plan sub.id) db with
      | (.error e, db) => ((0, some e), db)
      | (.ok count, db) =>
        let ((counts, err), db) := resetSelected env (n + 1) rest db
        ((count + counts, err), db)

/-- Resets subscriptions whose reset time has passed. -/
def resetDueSubscriptions (env : SubscriptionEnv) (limit : Int) (db : SubscriptionDB) :
    (Nat × Option Err) × SubscriptionDB :=
  match env.faults 0 with
  | some e => ((0, some e), db)
  | none => resetSelected env 1 (selectDueSubscriptions db env.now limit) db

end Prox
