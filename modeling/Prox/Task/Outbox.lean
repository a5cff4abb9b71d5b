import Mathlib.Logic.Function.Basic
import Prox.Subscription.Quota
import Prox.Wallet.Ledger

/-! # The task billing outbox

The embedding of `model/task_billing_operation.go` and of the worker loop in
`service/task_billing_operation.go`. A `TaskBillingOperation` is one row of a durable outbox: the
adjustment an asynchronous task still owes. Workers claim the row with a lease and carry out its
side effects one transaction at a time (the funding source, the token, the usage counters, the
billing log), marking each; any worker may die between two transactions, and another one takes over
when the lease has run out.

The system of one operation is `OutboxSystem`: the database, the workers with their private copies
and positions, and as ghost state the trace of the side effects that were really applied. -/

namespace Prox

/-! ## Rows -/

/-- The `type` column of a log. -/
inductive LogType where
  | unknown
  | topup
  | consume
  | manage
  | system
  | error
  | refund
  | login
  deriving DecidableEq

/-- The columns of an operation that are written once, when it is created. -/
structure TaskBilling where
  id : Int
  operationKey : String
  taskKind : String
  taskRecordId : Int
  taskId : String
  operation : String
  userId : Int
  tokenId : Int
  channelId : Int
  subscriptionId : Int
  billingSource : String
  group : String
  modelName : String
  reason : String
  preConsumedQuota : Int
  actualQuota : Int
  fundingDelta : Int
  usageDelta : Int
  logType : LogType
  logQuota : Int
  logOther : String
  deriving DecidableEq

/-- The `status` column of an operation. -/
inductive OperationStatus where
  | pending
  | processing
  | completed
  deriving DecidableEq

/-- A row of the outbox. -/
structure TaskBillingOperation extends TaskBilling where
  fundingApplied : Bool := false
  tokenApplied : Bool := false
  tokenCacheInvalidated : Bool := false
  usageApplied : Bool := false
  logApplied : Bool := false
  status : OperationStatus := .pending
  leaseToken : String := ""
  leaseUntil : Int := 0
  nextAttemptAt : Int := 0
  attemptCount : Int := 0
  lastError : String := ""
  completedAt : Int := 0
  deriving DecidableEq

instance : Row TaskBillingOperation String :=
  ⟨fun o => o.id, fun o => o.operationKey⟩

/-- An API token. -/
structure Token where
  id : Int
  remainQuota : Int
  usedQuota : Int := 0

instance : Row Token Int := ⟨Token.id, Token.id⟩

/-- An upstream channel. -/
structure Channel where
  id : Int
  usedQuota : Int := 0

instance : Row Channel Int := ⟨Channel.id, Channel.id⟩

/-- A billing log with an idempotency key. -/
structure BillingLog where
  id : Int
  userId : Int
  logType : LogType
  content : String
  channelId : Int
  modelName : String
  quota : Int
  tokenId : Int
  group : String
  other : String
  idempotencyKey : String
  deriving DecidableEq

instance : Row BillingLog String := ⟨BillingLog.id, BillingLog.idempotencyKey⟩

/-- The row of one operation and the tables its side effects go to. -/
structure Outbox where
  operation : TaskBillingOperation
  wallet : Wallet
  subscriptions : SubscriptionDB
  tokens : Table Token
  channels : Table Channel
  logs : Table BillingLog

/-! ## Creation -/

/-- The checks and defaults of a new operation: steps that have nothing to do are born applied. -/
def normalizeTaskBillingOperation (c : TaskBilling) : Except Err TaskBillingOperation := do
  let operationKey := trimSpace c.operationKey
  failIf (operationKey = "" ∨ 128 < byteLen operationKey)
    (.text "task billing operation key is invalid")
  failIf (trimSpace c.taskKind = "" ∨ trimSpace c.operation = "")
    (.text "task billing operation identity is incomplete")
  failIf (c.userId ≤ 0 ∨ c.fundingDelta = 0) (.text "task billing operation mutation is invalid")
  return { c with
    operationKey
    tokenApplied := c.tokenId ≤ 0
    tokenCacheInvalidated := c.tokenId ≤ 0
    usageApplied := c.usageDelta = 0 }

/-! ## Column assignments -/

namespace TaskBillingOperation

/-- The columns a claim writes. -/
def claim (o : TaskBillingOperation) (now leaseSeconds : Int) (leaseToken : String) :
    TaskBillingOperation :=
  { o with status := .processing, leaseToken, leaseUntil := now + leaseSeconds,
           attemptCount := o.attemptCount + 1, lastError := "" }

/-- The columns a completion writes. -/
def complete (o : TaskBillingOperation) (now : Int) : TaskBillingOperation :=
  { o with status := .completed, completedAt := now, leaseToken := "", leaseUntil := 0,
           nextAttemptAt := 0, lastError := "" }

/-- The columns a retry writes. -/
def retryAt (o : TaskBillingOperation) (nextAttemptAt : Int) (message : String) :
    TaskBillingOperation :=
  { o with status := .pending, leaseToken := "", leaseUntil := 0, nextAttemptAt,
           lastError := message }

end TaskBillingOperation

/-- `remain_quota = remain_quota - d, used_quota = used_quota + d`. -/
def Token.charge (d : Int) : Patch Token :=
  ⟨fun t => { t with remainQuota := t.remainQuota - d, usedQuota := t.usedQuota + d },
    fun _ => rfl, fun _ => rfl⟩

/-- `CASE WHEN used_quota + d < 0 THEN 0 ELSE used_quota + d END`. -/
def nonNegativeQuota (used d : Int) : Int := if used + d < 0 then 0 else used + d

/-- The usage counter of a user. -/
def User.addUsage (d : Int) : Patch User :=
  ⟨fun u => { u with usedQuota := nonNegativeQuota u.usedQuota d }, fun _ => rfl, fun _ => rfl⟩

/-- The usage counter of a channel. -/
def Channel.addUsage (d : Int) : Patch Channel :=
  ⟨fun c => { c with usedQuota := nonNegativeQuota c.usedQuota d }, fun _ => rfl, fun _ => rfl⟩

/-! ## The transactions of a worker -/

/-- What a transaction reads from outside: the clock, the fault it meets and whether consumption
logs are kept. -/
structure OutboxEnv where
  now : Int
  fault : Option Err
  logConsumeEnabled : Bool

/-- The lease a step renews. -/
def leaseRenewal (now : Int) : Int := now + 30

/-- Claims the operation when it is open, not leased and due; returns the claimed copy. -/
def claimTaskBillingOperation (operationKey : String) (now leaseSeconds : Int) (leaseToken : String)
    (db : Outbox) : Option TaskBillingOperation × Outbox :=
  let leaseSeconds := if leaseSeconds ≤ 0 then 30 else leaseSeconds
  if db.operation.operationKey = operationKey ∧ db.operation.completedAt = 0 ∧
      db.operation.leaseUntil ≤ now ∧ db.operation.nextAttemptAt ≤ now then
    let operation := db.operation.claim now leaseSeconds leaseToken
    (some operation, { db with operation })
  else (none, db)

/-- The columns `MarkTaskBillingOperationStep` accepts. -/
inductive StepColumn where
  | fundingApplied
  | tokenCacheInvalidated
  | logApplied

/-- `column = true, lease_until = …`. -/
def TaskBillingOperation.mark (o : TaskBillingOperation) (leaseUntil : Int) :
    StepColumn → TaskBillingOperation
  | .fundingApplied => { o with fundingApplied := true, leaseUntil }
  | .tokenCacheInvalidated => { o with tokenCacheInvalidated := true, leaseUntil }
  | .logApplied => { o with logApplied := true, leaseUntil }

/-- Marks a step, provided the lease is still held. -/
def markTaskBillingOperationStep (env : OutboxEnv) (leaseToken : String) (column : StepColumn) :
    Outbox → Except Err Unit × Outbox :=
  transaction env.fault fun db => do
    failIf (¬ (db.operation.leaseToken = leaseToken ∧ db.operation.completedAt = 0))
      (.sentinel .taskBillingOperationLeaseLost)
    return ((), { db with operation := db.operation.mark (leaseRenewal env.now) column })

/-- `SELECT … FOR UPDATE` of the operation, provided the lease is still held. -/
def loadLeasedTaskBillingOperationTx (leaseToken : String) (db : Outbox) :
    Except Err TaskBillingOperation := do
  failIf (db.operation.completedAt ≠ 0 ∨ db.operation.leaseToken ≠ leaseToken)
    (.sentinel .taskBillingOperationLeaseLost)
  return db.operation

/-- Changes the token and marks the step in one transaction. The flag is ghost: whether the token
was charged now. -/
def applyTaskBillingTokenStep (env : OutboxEnv) (leaseToken : String) :
    Outbox → Except Err Bool × Outbox :=
  transaction env.fault fun db => do
    let operation ← loadLeasedTaskBillingOperationTx leaseToken db
    if operation.tokenApplied then return (false, db) else
    let charges := 0 < operation.tokenId ∧ operation.fundingDelta ≠ 0
    let tokens :=
      if charges then
        (db.tokens.updateWhere (fun t => t.id = operation.tokenId)
          (Token.charge operation.fundingDelta)).1
      else db.tokens
    return (decide charges, { db with
      tokens
      operation := { db.operation with tokenApplied := true, leaseUntil := leaseRenewal env.now } })

/-- Changes the usage counters and marks the step in one transaction. The flag is ghost: whether the
counters were changed now. -/
def applyTaskBillingUsageStep (env : OutboxEnv) (leaseToken : String) :
    Outbox → Except Err Bool × Outbox :=
  transaction env.fault fun db => do
    let operation ← loadLeasedTaskBillingOperationTx leaseToken db
    if operation.usageApplied then return (false, db) else
    let users :=
      if operation.usageDelta ≠ 0 then
        (db.wallet.users.updateWhere (fun u => u.id = operation.userId)
          (User.addUsage operation.usageDelta)).1
      else db.wallet.users
    let channels :=
      if operation.usageDelta ≠ 0 ∧ 0 < operation.channelId then
        (db.channels.updateWhere (fun c => c.id = operation.channelId)
          (Channel.addUsage operation.usageDelta)).1
      else db.channels
    return (decide (operation.usageDelta ≠ 0), { db with
      wallet := { db.wallet with users }
      channels
      operation := { db.operation with usageApplied := true, leaseUntil := leaseRenewal env.now } })

/-- Completes the operation when the lease is still held and every step is marked. -/
def completeTaskBillingOperation (env : OutboxEnv) (leaseToken : String) :
    Outbox → Except Err Unit × Outbox :=
  transaction env.fault fun db => do
    let o := db.operation
    failIf (¬ (o.leaseToken = leaseToken ∧ o.completedAt = 0 ∧ o.fundingApplied = true ∧
        o.tokenApplied = true ∧ o.tokenCacheInvalidated = true ∧ o.usageApplied = true ∧
        o.logApplied = true))
      (.sentinel .taskBillingOperationLeaseLost)
    return ((), { db with operation := o.complete env.now })

/-- The loop that doubles the delay: `for i := 1; i < attempts && delay < 300; i++`. -/
def retryDelay : Nat → Int → Int
  | 0, delay => delay
  | rounds + 1, delay => if delay < 300 then retryDelay rounds (delay * 2) else delay

/-- Gives the operation back, to be tried again after a delay that grows with the attempts. -/
def retryTaskBillingOperation (env : OutboxEnv) (leaseToken message : String) :
    Outbox → Except Err Unit × Outbox :=
  transaction env.fault fun db => do
    let delay := retryDelay (db.operation.attemptCount - 1).toNat 5
    let delay := if 300 < delay then 300 else delay
    failIf (¬ (db.operation.leaseToken = leaseToken ∧ db.operation.completedAt = 0))
      (.sentinel .taskBillingOperationLeaseLost)
    return ((), { db with operation := db.operation.retryAt (env.now + delay) message })

/-- Whether an operation is funded by a subscription. -/
def TaskBilling.onSubscription (b : TaskBilling) : Bool :=
  b.billingSource = "subscription" ∧ 0 < b.subscriptionId

/-- The adjustment of the funding source, a mutation whose idempotency key is the operation's; the
flag says whether it was applied now. -/
def applyTaskBillingFunding (env : OutboxEnv) (operation : TaskBillingOperation) (db : Outbox) :
    Except Err Bool × Outbox :=
  if operation.onSubscription then
    let r := postConsumeUserSubscriptionDeltaIdempotent env.fault operation.subscriptionId
      operation.fundingDelta operation.operationKey ("task_" ++ operation.operation)
      operation.operationKey db.subscriptions
    (r.1, { db with subscriptions := r.2 })
  else
    let r := applyUserQuotaMutation env.fault
      { userID := operation.userId, deltaQuota := -operation.fundingDelta,
        requestID := operation.operationKey, sourceType := "task_billing",
        transactionType := "task_" ++ operation.operation,
        idempotencyKey := operation.operationKey,
        remark := "asynchronous task billing adjustment" } db.wallet
    (r.1, { db with wallet := r.2 })

/-- The log of an operation. -/
def TaskBillingOperation.logRow (o : TaskBillingOperation) (id : Int) (idempotencyKey : String) :
    BillingLog :=
  { id, userId := o.userId, logType := o.logType, content := o.reason, channelId := o.channelId,
    modelName := o.modelName, quota := o.logQuota, tokenId := o.tokenId, group := o.group,
    other := o.logOther, idempotencyKey }

/-- The billing log, inserted at most once per key; a consumption log is dropped when consumption
logs are switched off. The flag says whether it was inserted now. -/
def recordTaskBillingLogIdempotent (env : OutboxEnv) (operation : TaskBillingOperation) :
    Outbox → Except Err Bool × Outbox :=
  transaction env.fault fun db => do
    let idempotencyKey := trimSpace operation.operationKey
    failIf (idempotencyKey = "") (.text "task billing log idempotency key is empty")
    if operation.logType = .consume ∧ env.logConsumeEnabled = false then return (false, db) else
    let insert := db.logs.insertIgnore (operation.logRow db.logs.nextId idempotencyKey)
    return (decide (0 < insert.2), { db with logs := insert.1 })

/-! ## The worker loop -/

/-- Where a worker stands in `processClaimedTaskBillingOperation`: the transaction it does next.
`invalidate` deletes a cache entry and touches no table. -/
inductive Stage where
  | funding
  | markFunding
  | token
  | invalidate
  | markInvalidated
  | usage
  | log
  | markLog
  | complete
  | retry (message : String)

namespace TaskBillingOperation

/-- The stage after the usage step, by the flags of the claimed copy. -/
def afterUsage (o : TaskBillingOperation) : Stage := if o.logApplied then .complete else .log

/-- The stage after the cache step. -/
def afterInvalidation (o : TaskBillingOperation) : Stage :=
  if o.usageApplied then o.afterUsage else .usage

/-- The stage after the token step. -/
def afterToken (o : TaskBillingOperation) : Stage :=
  if o.tokenCacheInvalidated then o.afterInvalidation else .invalidate

/-- The stage after the funding step. -/
def afterFunding (o : TaskBillingOperation) : Stage :=
  if o.tokenApplied then o.afterToken else .token

/-- The first stage of a claimed operation. -/
def firstStage (o : TaskBillingOperation) : Stage :=
  if o.fundingApplied then o.afterFunding else .funding

end TaskBillingOperation

/-- A worker: idle, or working on its copy of the operation. -/
inductive Worker where
  | idle
  | busy (operation : TaskBillingOperation) (stage : Stage)

/-- A side effect of an operation. -/
inductive SideEffect where
  | funding (delta : Int)
  | token (delta : Int)
  | usage (delta : Int)
  | log (quota : Int)
  deriving DecidableEq

/-- The trace after a transaction with a side effect: it grows when the effect was applied. -/
def traced (trace : List SideEffect) (effect : SideEffect) : Except Err Bool → List SideEffect
  | .ok true => trace ++ [effect]
  | _ => trace

/-- The database of one operation, its workers, and the ghost trace of applied side effects. -/
structure OutboxSystem where
  db : Outbox
  workers : Nat → Worker
  trace : List SideEffect

namespace OutboxSystem

/-- Worker `i` becomes `w`. -/
def setWorker (s : OutboxSystem) (i : Nat) (w : Worker) : OutboxSystem :=
  { s with workers := Function.update s.workers i w }

/-- Worker `i` finished a transaction without side effect: go on, or retry after an error. -/
def proceed (s : OutboxSystem) (i : Nat) (o : TaskBillingOperation) (next : Worker)
    (r : Except Err Unit × Outbox) : OutboxSystem :=
  { s with db := r.2 }.setWorker i (match r.1 with
    | .ok _ => next
    | .error e => .busy o (.retry e.message))

/-- Worker `i` finished the transaction of a side effect. -/
def perform (s : OutboxSystem) (i : Nat) (o : TaskBillingOperation) (next : Stage) (what : String)
    (effect : SideEffect) (r : Except Err Bool × Outbox) : OutboxSystem :=
  { s with db := r.2, trace := traced s.trace effect r.1 }.setWorker i (match r.1 with
    | .ok _ => .busy o next
    | .error e => .busy o (.retry (what ++ ": " ++ e.message)))

/-- One transaction of worker `i`. -/
def advance (env : OutboxEnv) (i : Nat) (s : OutboxSystem) : OutboxSystem :=
  match s.workers i with
  | .idle => s
  | .busy o .funding =>
    s.perform i o .markFunding "apply funding" (.funding o.fundingDelta)
      (applyTaskBillingFunding env o s.db)
  | .busy o .markFunding =>
    s.proceed i o (.busy o o.afterFunding)
      (markTaskBillingOperationStep env o.leaseToken .fundingApplied s.db)
  | .busy o .token =>
    s.perform i o o.afterToken "apply token quota" (.token o.fundingDelta)
      (applyTaskBillingTokenStep env o.leaseToken s.db)
  | .busy o .invalidate => s.setWorker i (.busy o .markInvalidated)
  | .busy o .markInvalidated =>
    s.proceed i o (.busy o o.afterInvalidation)
      (markTaskBillingOperationStep env o.leaseToken .tokenCacheInvalidated s.db)
  | .busy o .usage =>
    s.perform i o o.afterUsage "apply usage totals" (.usage o.usageDelta)
      (applyTaskBillingUsageStep env o.leaseToken s.db)
  | .busy o .log =>
    s.perform i o .markLog "record billing log" (.log o.logQuota)
      (recordTaskBillingLogIdempotent env o s.db)
  | .busy o .markLog =>
    s.proceed i o (.busy o .complete)
      (markTaskBillingOperationStep env o.leaseToken .logApplied s.db)
  | .busy o .complete => s.proceed i o .idle (completeTaskBillingOperation env o.leaseToken s.db)
  | .busy o (.retry message) =>
    { s with db := (retryTaskBillingOperation env o.leaseToken message s.db).2 }.setWorker i .idle

end OutboxSystem

/-! ## Interleavings -/

/-- What can happen next. -/
inductive OutboxEvent where
  /-- Worker `i` tries to claim the operation with a freshly drawn token. -/
  | claim (i : Nat) (operationKey : String) (now leaseSeconds : Int) (leaseToken : String)
  /-- Worker `i` does its next transaction. -/
  | advance (i : Nat) (env : OutboxEnv)
  /-- Worker `i` meets an error outside a transaction, such as a failing cache, and will retry. -/
  | fail (i : Nat) (message : String)
  /-- Worker `i` dies. -/
  | crash (i : Nat)
  /-- Anything else in the database changes, but no row of this operation. -/
  | background (db : Outbox)

/-- The rows of an operation are the same in both databases. -/
def Outbox.agreesOn (db db' : Outbox) (key : String) : Bool :=
  db'.operation = db.operation ∧
    db'.wallet.transactions.byKey key = db.wallet.transactions.byKey key ∧
    db'.subscriptions.journal.byKey key = db.subscriptions.journal.byKey key ∧
    db'.logs.byKey key = db.logs.byKey key

/-- The system after an event. -/
def OutboxSystem.step (s : OutboxSystem) : OutboxEvent → OutboxSystem
  | .claim i operationKey now leaseSeconds leaseToken =>
    match claimTaskBillingOperation operationKey now leaseSeconds leaseToken s.db with
    | (some o, db) => { s with db }.setWorker i (.busy o o.firstStage)
    | (none, _) => s
  | .advance i env => s.advance env i
  | .fail i message =>
    match s.workers i with
    | .idle => s
    | .busy o _ => s.setWorker i (.busy o (.retry message))
  | .crash i => s.setWorker i .idle
  | .background db => if s.db.agreesOn db s.db.operation.operationKey then { s with db } else s

end Prox
