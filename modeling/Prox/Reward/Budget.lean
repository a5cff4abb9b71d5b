import Prox.Lib.Run
import Prox.Lib.Table
import Prox.Model.Errors

/-! # Reward budgets and the operations fund

The embedding of `model/ops_fund.go` and of the budget half of `model/reward_ledger.go`. A reward is
paid out of two sources at once: the daily pool of its kind, which caps what a site gives away on one
business date, and the operations fund, which is the money itself. This module has the tables, the
daily reset of pools and fund, and the reservation of a reward; nothing in it touches a wallet.

Columns that no function reads (`status`, timestamps) are left out. What the functions read from
outside the database is collected in `RewardEnv`. -/

namespace Prox

/-! ## Rows -/

/-- The capacity of one kind of reward on one business date. -/
structure AgentBudgetPool where
  id : Int
  siteId : String
  poolType : String
  budgetDate : String
  totalQuota : Int
  usedQuota : Int := 0
  frozenQuota : Int := 0
  deriving DecidableEq

instance : Row AgentBudgetPool (String × String × String) :=
  ⟨AgentBudgetPool.id, fun p => (p.siteId, p.poolType, p.budgetDate)⟩

/-- What a pool can still give: neither used nor promised. -/
def AgentBudgetPool.available (p : AgentBudgetPool) : Int :=
  p.totalQuota - p.usedQuota - p.frozenQuota

/-- One entry of the budget journal. -/
structure AgentBudgetTransaction where
  id : Int
  siteId : String
  poolId : Int
  poolType : String
  userId : Int := 0
  actionId : Int := 0
  sourceType : String
  transactionType : String
  quota : Int
  balanceAfter : Int
  settlementId : String := ""
  mutationIndex : Int := 0
  idempotencyKey : String
  remark : String
  metadataJson : String := ""

instance : Row AgentBudgetTransaction String :=
  ⟨AgentBudgetTransaction.id, AgentBudgetTransaction.idempotencyKey⟩

/-- The operations fund of a site. -/
structure OpsFundAccount where
  id : Int
  siteId : String
  fundType : String
  balanceQuota : Int := 0
  deriving DecidableEq

instance : Row OpsFundAccount (String × String) :=
  ⟨OpsFundAccount.id, fun a => (a.siteId, a.fundType)⟩

/-- One entry of the fund's journal: positive for income, negative for a payout. -/
structure OpsFundLedger where
  id : Int
  siteId : String
  fundAccountId : Int
  deltaQuota : Int
  balanceAfter : Int
  sourceType : String
  sourcePoolType : String := ""
  userId : Int := 0
  actionId : Int := 0
  settlementId : String := ""
  mutationIndex : Int := 0
  idempotencyKey : String
  remark : String
  metadataJson : String := ""

instance : Row OpsFundLedger String := ⟨OpsFundLedger.id, OpsFundLedger.idempotencyKey⟩

/-- The tables of the reward budget. -/
structure Budget where
  pools : Table AgentBudgetPool
  transactions : Table AgentBudgetTransaction
  funds : Table OpsFundAccount
  ledger : Table OpsFundLedger

/-! ## Column assignments -/

namespace AgentBudgetPool

/-- `used_quota = used_quota + q`. -/
def addUsed (q : Int) : Patch AgentBudgetPool :=
  ⟨fun p => { p with usedQuota := p.usedQuota + q }, fun _ => rfl, fun _ => rfl⟩

/-- `frozen_quota = frozen_quota + q`. -/
def addFrozen (q : Int) : Patch AgentBudgetPool :=
  ⟨fun p => { p with frozenQuota := p.frozenQuota + q }, fun _ => rfl, fun _ => rfl⟩

/-- `used_quota = used_quota + q, frozen_quota = frozen_quota - q`. -/
def consumeFrozen (q : Int) : Patch AgentBudgetPool :=
  ⟨fun p => { p with usedQuota := p.usedQuota + q, frozenQuota := p.frozenQuota - q },
    fun _ => rfl, fun _ => rfl⟩

/-- `total_quota = total_quota + q`. -/
def addTotal (q : Int) : Patch AgentBudgetPool :=
  ⟨fun p => { p with totalQuota := p.totalQuota + q }, fun _ => rfl, fun _ => rfl⟩

end AgentBudgetPool

/-- `balance_quota = b`. -/
def OpsFundAccount.setBalance (b : Int) : Patch OpsFundAccount :=
  ⟨fun a => { a with balanceQuota := b }, fun _ => rfl, fun _ => rfl⟩

/-- `balance_after = b`. -/
def OpsFundLedger.setBalanceAfter (b : Int) : Patch OpsFundLedger :=
  ⟨fun l => { l with balanceAfter := b }, fun _ => rfl, fun _ => rfl⟩

namespace Budget

/-- `UPDATE agent_budget_pools SET … WHERE id = ?`. -/
def updatePool (b : Budget) (id : Int) (patch : Patch AgentBudgetPool) : Budget :=
  { b with pools := (b.pools.updateWhere (fun p => p.id = id) patch).1 }

/-- `UPDATE ops_fund_accounts SET balance_quota = ? WHERE id = ?`. -/
def setFund (b : Budget) (id balance : Int) : Budget :=
  { b with funds := (b.funds.updateWhere (fun a => a.id = id) (OpsFundAccount.setBalance balance)).1 }

end Budget

/-! ## What the functions read from outside -/

/-- The agent settings that concern rewards. -/
structure AgentSetting where
  siteID : String
  budgetEnabled : Bool
  dailyBudgetResetEnabled : Bool
  dailyFundResetEnabled : Bool
  dailyBudgetQuota : Int
  growthBudgetQuota : Int
  activityBudgetQuota : Int
  gameBudgetQuota : Int
  opsCompBudgetQuota : Int
  communityBudgetQuota : Int
  opsFundDailyTargetQuota : Int

/-- The replay fields found in a metadata document: the first non-blank settlement name and the
first numeric mutation index and action id. -/
structure ReplayMetadata where
  settlementId : String := ""
  mutationIndex : Option Int := none
  actionId : Option Int := none

/-- The settings, the business date of the call, and the functions that depend on the process
environment, on the JSON decoder and on SHA-256. -/
structure RewardEnv where
  setting : AgentSetting
  budgetDate : String
  canonicalSiteID : String → String
  metadata : String → ReplayMetadata
  sha256Hex : String → String

/-- The configured quota of a pool; an unknown type gets the daily one. -/
def currentAgentPoolQuota (env : RewardEnv) (poolType : String) : Int :=
  let poolType := trimSpace poolType
  if poolType = "growth" then env.setting.growthBudgetQuota
  else if poolType = "activity" then env.setting.activityBudgetQuota
  else if poolType = "game" then env.setting.gameBudgetQuota
  else if poolType = "ops_comp" then env.setting.opsCompBudgetQuota
  else if poolType = "community" then env.setting.communityBudgetQuota
  else env.setting.dailyBudgetQuota

/-- Site, date and configured quota of the pool of this call. -/
def currentAgentBudgetPoolMeta (env : RewardEnv) (poolType : String) : String × String × Int :=
  let poolType := trimSpace poolType
  let poolType := if poolType = "" then "daily" else poolType
  (env.canonicalSiteID env.setting.siteID, env.budgetDate, currentAgentPoolQuota env poolType)

/-- Long keys are shortened to a prefix and a digest, so that they fit the settlement column. -/
def stableQuotaReplaySettlementID (env : RewardEnv) (idempotencyKey : String) : String :=
  let key := trimSpace idempotencyKey
  if key = "" then ""
  else if byteLen key ≤ 64 then key
  else bytePrefix 47 key ++ "-" ++ bytePrefix 16 (env.sha256Hex key)

/-- `if len(s) > 64 { s = s[:64] }`. -/
def cutSettlementID (settlementID : String) : String :=
  if 64 < byteLen settlementID then bytePrefix 64 settlementID else settlementID

/-- Settlement id, mutation index and action id of a call, from its metadata or its key. -/
def quotaReplayFieldsFromMetadata (env : RewardEnv) (idempotencyKey metadataJson : String)
    (defaultMutationIndex : Int) : String × Int × Int :=
  let fields : ReplayMetadata :=
    if trimSpace metadataJson = "" then {} else env.metadata metadataJson
  let settlementID :=
    if fields.settlementId = "" then stableQuotaReplaySettlementID env idempotencyKey
    else fields.settlementId
  let mutationIndex := fields.mutationIndex.getD defaultMutationIndex
  (cutSettlementID settlementID, if mutationIndex < 0 then 0 else mutationIndex,
    fields.actionId.getD 0)

/-! ## Pools and fund -/

/-- `SELECT … FOR UPDATE` of a pool. -/
def lockAgentBudgetPoolTx (b : Budget) (siteID poolType budgetDate : String) :
    Except Err AgentBudgetPool :=
  match b.pools.byKey (siteID, trimSpace poolType, budgetDate) with
  | none => throw (.sentinel .recordNotFound)
  | some pool => pure pool

/-- Creates the pool of a date with its configured capacity unless it is there. -/
def ensureAgentBudgetPoolTx (b : Budget) (siteID poolType budgetDate : String) (totalQuota : Int) :
    Except Err Budget := do
  let poolType := trimSpace poolType
  let poolType := if poolType = "" then "daily" else poolType
  let b := { b with pools := (b.pools.insertIgnore
    { id := b.pools.nextId, siteId := trimSpace siteID, poolType,
      budgetDate := trimSpace budgetDate, totalQuota }).1 }
  match b.pools.byKey (trimSpace siteID, poolType, trimSpace budgetDate) with
  | none => throw (.sentinel .recordNotFound)
  | some _ => pure b

/-- Creates the fund account of a site unless it is there, and locks it. -/
def ensureOpsFundAccountTx (b : Budget) (siteID fundType : String) :
    Except Err (OpsFundAccount × Budget) :=
  let fundType := trimSpace fundType
  let fundType := if fundType = "" then "operations" else fundType
  let b := { b with funds := (b.funds.insertIgnore
    { id := b.funds.nextId, siteId := trimSpace siteID, fundType }).1 }
  match b.funds.byKey (trimSpace siteID, fundType) with
  | none => throw (.sentinel .recordNotFound)
  | some fund => pure (fund, b)

/-- Claims the idempotency key of a budget transaction; a used key must belong to the same one. -/
def claimAgentBudgetTransactionTx (b : Budget) (txn : AgentBudgetTransaction) :
    Except Err (Bool × Budget) :=
  match b.transactions.create txn with
  | some transactions => pure (true, { b with transactions })
  | none =>
    match b.transactions.byKey txn.idempotencyKey with
    | none => throw (.sentinel .recordNotFound)
    | some existing => do
      failIf (existing.siteId ≠ txn.siteId ∨ existing.poolId ≠ txn.poolId ∨
          existing.poolType ≠ txn.poolType ∨ existing.userId ≠ txn.userId ∨
          existing.actionId ≠ txn.actionId ∨ existing.sourceType ≠ txn.sourceType ∨
          existing.transactionType ≠ txn.transactionType ∨ existing.quota ≠ txn.quota ∨
          existing.settlementId ≠ txn.settlementId ∨ existing.mutationIndex ≠ txn.mutationIndex)
        (.wrap .budgetAdjustmentIdempotencyConflict s!"idempotency_key={txn.idempotencyKey}")
      return (false, b)

/-! ## Restoring capacity -/

/-- The pool types that exist; the empty type passes, too. -/
def validOpsPoolType (poolType : String) : Except Err Unit :=
  failIf (trimSpace poolType ∉
      ["", "daily", "growth", "activity", "game", "ops_comp", "community"])
    (.text ("unknown pool type: " ++ poolType))

/-- The sources an adjustment can name. -/
def validBudgetRestoreSource (sourceType : String) : Except Err String := do
  let sourceType := trimSpace sourceType
  failIf (sourceType ∉ ["admin_budget_restore", "admin_budget_settings", "daily_budget_reset",
      "daily_fund_reset"])
    (.text ("unsupported budget restore source: " ++ sourceType))
  return sourceType

/-- A used adjustment key must belong to the same adjustment. -/
def replayBudgetPoolAdjustmentTx (b : Budget) (replay : AgentBudgetTransaction)
    (siteID poolType budgetDate sourceType transactionType : String) (targetAvailable : Int)
    (exact : Bool) : Except Err AgentBudgetPool :=
  match b.pools.byKey (siteID, trimSpace poolType, budgetDate) with
  | none => throw (.sentinel .budgetAdjustmentIdempotencyConflict)
  | some pool => do
    failIf (replay.poolId ≠ pool.id ∨ replay.siteId ≠ siteID ∨ replay.poolType ≠ poolType ∨
        replay.sourceType ≠ sourceType ∨ replay.transactionType ≠ transactionType ∨
        (exact = true ∧ replay.balanceAfter ≠ targetAvailable))
      (.sentinel .budgetAdjustmentIdempotencyConflict)
    return pool

/-- Changes the total of a pool so that it can still give `targetAvailable`, exactly or at least. -/
def adjustBudgetPoolAvailableCapacityTx (env : RewardEnv) (b : Budget)
    (siteID poolType budgetDate : String) (targetAvailable : Int)
    (idempotencyKey remark sourceType : String) (exact : Bool) :
    Except Err (AgentBudgetPool × Budget) := do
  let siteID := env.canonicalSiteID siteID
  let poolType := trimSpace poolType
  let budgetDate := trimSpace budgetDate
  let idempotencyKey := trimSpace idempotencyKey
  validOpsPoolType poolType
  failIf (poolType = "") (.text "a concrete budget pool is required")
  let sourceType ← validBudgetRestoreSource sourceType
  failIf (budgetDate = "" ∨ targetAvailable < 0 ∨ idempotencyKey = "" ∨
      (exact = false ∧ targetAvailable = 0))
    (.text
      "budget date, non-negative target available quota, and idempotency key are required")
  let transactionType := if exact then "capacity_set" else "capacity_restore"
  match b.transactions.byKey idempotencyKey with
  | some replay => do
    let pool ← replayBudgetPoolAdjustmentTx b replay siteID poolType budgetDate sourceType
      transactionType targetAvailable exact
    return (pool, b)
  | none => do
    let b := { b with pools := (b.pools.insertIgnore
      { id := b.pools.nextId, siteId := siteID, poolType, budgetDate,
        totalQuota := targetAvailable }).1 }
    let pool ← lockAgentBudgetPoolTx b siteID poolType budgetDate
    let increase := targetAvailable - pool.available
    let increase := if exact = false ∧ increase < 0 then 0 else increase
    let insert := b.transactions.insertIgnore
      { id := b.transactions.nextId, siteId := pool.siteId, poolId := pool.id,
        poolType := pool.poolType, transactionType, sourceType, quota := increase,
        balanceAfter := pool.available + increase, idempotencyKey, remark := trimSpace remark }
    let b := { b with transactions := insert.1 }
    if insert.2 = 0 then
      match b.transactions.byKey idempotencyKey with
      | none => throw (.sentinel .recordNotFound)
      | some replay => do
        let pool ← replayBudgetPoolAdjustmentTx b replay siteID poolType budgetDate sourceType
          transactionType targetAvailable exact
        return (pool, b)
    else do
    let b := if increase ≠ 0 then b.updatePool pool.id (AgentBudgetPool.addTotal increase) else b
    let pool ← lockAgentBudgetPoolTx b siteID poolType budgetDate
    return (pool, b)

/-- `RestoreBudgetPoolCapacityWithSourceTx`: an adjustment that never lowers a pool. -/
def restoreBudgetPoolCapacityWithSourceTx (env : RewardEnv) (b : Budget)
    (siteID poolType budgetDate : String) (targetAvailable : Int)
    (idempotencyKey remark sourceType : String) : Except Err (AgentBudgetPool × Budget) :=
  adjustBudgetPoolAvailableCapacityTx env b siteID poolType budgetDate targetAvailable
    idempotencyKey remark sourceType false

/-- `SetBudgetPoolAvailableCapacityTx`: an adjustment that sets what a pool can still give. -/
def setBudgetPoolAvailableCapacityTx (env : RewardEnv) (b : Budget)
    (siteID poolType budgetDate : String) (targetAvailable : Int)
    (idempotencyKey remark : String) : Except Err (AgentBudgetPool × Budget) :=
  adjustBudgetPoolAvailableCapacityTx env b siteID poolType budgetDate targetAvailable
    idempotencyKey remark "admin_budget_settings" true

/-- Raises the fund of a site to a minimum; a used key changes nothing. -/
def ensureOpsFundMinimumWithSourceTx (env : RewardEnv) (b : Budget) (siteID : String)
    (minimumBalance : Int) (idempotencyKey remark sourceType : String) :
    Except Err (OpsFundAccount × Budget) := do
  let siteID := env.canonicalSiteID siteID
  let idempotencyKey := trimSpace idempotencyKey
  let sourceType ← validBudgetRestoreSource sourceType
  failIf (minimumBalance ≤ 0 ∨ idempotencyKey = "")
    (.text "minimum balance and idempotency key are required")
  match b.ledger.byKey idempotencyKey with
  | some _ => ensureOpsFundAccountTx b siteID "operations"
  | none => do
    let (fund, b) ← ensureOpsFundAccountTx b siteID "operations"
    let delta := minimumBalance - fund.balanceQuota
    let delta := if delta < 0 then 0 else delta
    let newBalance := fund.balanceQuota + delta
    let insert := b.ledger.insertIgnore
      { id := b.ledger.nextId, siteId := siteID, fundAccountId := fund.id, deltaQuota := delta,
        balanceAfter := newBalance, sourceType, idempotencyKey, remark := trimSpace remark }
    let b := { b with ledger := insert.1 }
    let b := if insert.2 = 1 ∧ 0 < delta then b.setFund fund.id newBalance else b
    ensureOpsFundAccountTx b siteID "operations"

/-! ## The daily reset -/

/-- `agentDailyBudgetPoolTypes`. -/
def agentDailyBudgetPoolTypes : List String :=
  ["daily", "growth", "activity", "game", "ops_comp", "community"]

/-- The request id of the automatic reset of a site and date. -/
def agentDailyBudgetResetRequestID (env : RewardEnv) (siteID budgetDate : String) : String :=
  stableQuotaReplaySettlementID env
    ("daily-budget-reset:" ++ env.canonicalSiteID siteID ++ ":" ++ trimSpace budgetDate)

/-- The balance the fund is raised to: the configured one, or the sum of the positive pool targets. -/
def configuredOpsFundDailyTarget (env : RewardEnv) : Int :=
  if 0 < env.setting.opsFundDailyTargetQuota then env.setting.opsFundDailyTargetQuota
  else ((agentDailyBudgetPoolTypes.map (currentAgentPoolQuota env)).filter (0 < ·)).sum

/-- The loop over the pools of the daily reset. -/
def restoreDailyPoolsTx (env : RewardEnv) (siteID budgetDate requestID remark : String) :
    List String → Budget → Except Err Budget
  | [], b => pure b
  | poolType :: poolTypes, b =>
    let target := currentAgentPoolQuota env poolType
    if target ≤ 0 then restoreDailyPoolsTx env siteID budgetDate requestID remark poolTypes b
    else do
      let (_, b) ← restoreBudgetPoolCapacityWithSourceTx env b siteID poolType budgetDate target
        (requestID ++ ":pool:" ++ poolType) remark "daily_budget_reset"
      restoreDailyPoolsTx env siteID budgetDate requestID remark poolTypes b

/-- The configured resets of pools and fund; the keys make each act once per request id. -/
def ensureOpsDailyBudgetCapacityForDateTx (env : RewardEnv) (b : Budget)
    (siteID budgetDate requestID remark : String) : Except Err Budget := do
  let siteID := env.canonicalSiteID siteID
  let budgetDate := trimSpace budgetDate
  let requestID := trimSpace requestID
  failIf (budgetDate = "" ∨ requestID = "") (.text "budget date and request id are required")
  if env.setting.budgetEnabled = false ∨ (env.setting.dailyBudgetResetEnabled = false ∧
      env.setting.dailyFundResetEnabled = false) then return b else
  let b ← (if env.setting.dailyBudgetResetEnabled then
      restoreDailyPoolsTx env siteID budgetDate requestID remark agentDailyBudgetPoolTypes b
    else pure b)
  let minimum := configuredOpsFundDailyTarget env
  if env.setting.dailyFundResetEnabled = true ∧ 0 < minimum then do
    let (_, b) ← ensureOpsFundMinimumWithSourceTx env b siteID minimum (requestID ++ ":fund") remark
      "daily_fund_reset"
    return b
  else return b

/-- The reset that every payout makes sure of first. -/
def ensureCurrentAgentDailyBudgetFundingTx (env : RewardEnv) (b : Budget)
    (siteID budgetDate : String) : Except Err Budget :=
  ensureOpsDailyBudgetCapacityForDateTx env b siteID budgetDate
    (agentDailyBudgetResetRequestID env siteID budgetDate) "automatic daily reward budget reset"

/-! ## Reservations -/

/-- The arguments every payout checks first; returns the trimmed key. -/
def rewardArguments (userId quota : Int) (idempotencyKey : String) : Except Err String := do
  failIf (userId ≤ 0) (.text "user id is empty")
  failIf (quota ≤ 0) (.text "quota must be positive")
  let idempotencyKey := trimSpace idempotencyKey
  failIf (idempotencyKey = "") (.text "idempotency key is empty")
  return idempotencyKey

/-- Promises a reward: it is frozen in the pool and already paid by the fund. -/
def reserveQuotaFromBudgetPoolWithSourceTx (env : RewardEnv) (b : Budget) (userId : Int)
    (poolType : String) (quota : Int) (idempotencyKey remark sourceType : String) :
    Except Err Budget := do
  let idempotencyKey ← rewardArguments userId quota idempotencyKey
  let sourceType := trimSpace sourceType
  let sourceType := if sourceType = "" then "reserve" else sourceType
  let (siteID, budgetDate, totalQuota) := currentAgentBudgetPoolMeta env poolType
  let b ← ensureCurrentAgentDailyBudgetFundingTx env b siteID budgetDate
  let b ← ensureAgentBudgetPoolTx b siteID poolType budgetDate totalQuota
  let pool ← lockAgentBudgetPoolTx b siteID poolType budgetDate
  let (settlementId, mutationIndex, actionId) :=
    quotaReplayFieldsFromMetadata env idempotencyKey "" 0
  let (claimed, b) ← claimAgentBudgetTransactionTx b
    { id := b.transactions.nextId, siteId := pool.siteId, poolId := pool.id,
      poolType := pool.poolType, userId, actionId, sourceType, transactionType := "reserve", quota,
      balanceAfter := pool.available - quota, settlementId, mutationIndex, idempotencyKey,
      remark := trimSpace remark }
  if claimed = false then return b else
  failIf (pool.available < quota) (.wrap .budgetPoolQuotaInsufficient
    s!"available={pool.available} required={quota} pool={pool.poolType} site={pool.siteId} date={pool.budgetDate}")
  let b := b.updatePool pool.id (AgentBudgetPool.addFrozen quota)
  let (fund, b) ← ensureOpsFundAccountTx b siteID "operations"
  failIf (fund.balanceQuota < quota) (.text "ops fund insufficient for reserve")
  let balance := fund.balanceQuota - quota
  let b := b.setFund fund.id balance
  return { b with ledger := (b.ledger.insertIgnore
    { id := b.ledger.nextId, siteId := siteID, fundAccountId := fund.id, deltaQuota := -quota,
      balanceAfter := balance, sourceType, sourcePoolType := poolType, userId, actionId,
      settlementId, mutationIndex, idempotencyKey := idempotencyKey ++ "_fund",
      remark := "reserve: " ++ trimSpace remark }).1 }

/-- `CASE WHEN transaction_type = 'reserve' THEN quota ELSE -quota END`. -/
def AgentBudgetTransaction.reservedDelta (t : AgentBudgetTransaction) : Int :=
  if t.transactionType = "reserve" then t.quota else -t.quota

/-- Reserves what is missing of a user's promised reward in today's pool. -/
def ensureUserReservedQuotaTx (env : RewardEnv) (b : Budget) (userId : Int) (poolType : String)
    (quota : Int) (idempotencyKey remark : String) : Except Err Budget := do
  failIf (userId ≤ 0 ∨ quota ≤ 0) (.text "user id and quota must be positive")
  let (siteID, budgetDate, totalQuota) := currentAgentBudgetPoolMeta env poolType
  let b ← ensureAgentBudgetPoolTx b siteID poolType budgetDate totalQuota
  let pool ← lockAgentBudgetPoolTx b siteID poolType budgetDate
  let reserved := b.transactions.total
    (fun t => t.poolId = pool.id ∧ t.userId = userId ∧
      t.transactionType ∈ ["reserve", "consume_frozen"]) AgentBudgetTransaction.reservedDelta
  let missing := quota - reserved
  if missing ≤ 0 then return b else
  reserveQuotaFromBudgetPoolWithSourceTx env b userId poolType missing (trimSpace idempotencyKey)
    (trimSpace remark) "legacy_invite_reserve_repair"

end Prox
