import Prox.Reward.Budget
import Prox.Wallet.Maintenance

/-! # Payouts of the reward ledger

The operations of `model/reward_ledger.go` and `model/ops_fund.go` that move money between the
operations fund and a wallet: a grant, the payout of a reserved reward, and the signed mutation with
its batch form. Each of them claims an entry of the budget journal first and changes the wallet only
through `applyUserQuotaMutationTx`, so that a payout is a direct posting of the wallet ledger. -/

namespace Prox

/-- The wallet and the reward budget, which a payout changes in one transaction. -/
structure RewardDB where
  wallet : Wallet
  budget : Budget

/-- Grants a reward out of a pool and the fund. -/
def grantQuotaFromBudgetPoolWithSourceTx (env : RewardEnv) (userId : Int) (poolType : String)
    (quota : Int) (idempotencyKey remark sourceType metadataJson : String) (db : RewardDB) :
    Except Err (Unit × RewardDB) := do
  let idempotencyKey ← rewardArguments userId quota idempotencyKey
  let (siteID, budgetDate, totalQuota) := currentAgentBudgetPoolMeta env poolType
  let b ← ensureCurrentAgentDailyBudgetFundingTx env db.budget siteID budgetDate
  let b ← ensureAgentBudgetPoolTx b siteID poolType budgetDate totalQuota
  let pool ← lockAgentBudgetPoolTx b siteID poolType budgetDate
  let (fund, b) ← ensureOpsFundAccountTx b siteID "operations"
  let sourceType := trimSpace sourceType
  let sourceType := if sourceType = "" then "reward_grant" else sourceType
  let (settlementId, mutationIndex, actionId) :=
    quotaReplayFieldsFromMetadata env idempotencyKey metadataJson 0
  let (claimed, b) ← claimAgentBudgetTransactionTx b
    { id := b.transactions.nextId, siteId := pool.siteId, poolId := pool.id,
      poolType := pool.poolType, userId, actionId, sourceType, transactionType := "grant", quota,
      balanceAfter := pool.available - quota, settlementId, mutationIndex, idempotencyKey,
      remark := trimSpace remark, metadataJson := trimSpace metadataJson }
  if claimed = false then return ((), { db with budget := b }) else
  failIf (pool.available < quota) (.wrap .budgetPoolQuotaInsufficient
    s!"available={pool.available} required={quota} pool={pool.poolType} site={pool.siteId} date={pool.budgetDate}")
  failIf (fund.balanceQuota < quota) (.wrap .opsFundQuotaInsufficient
    s!"balance={fund.balanceQuota} required={quota} site={siteID} pool={trimSpace poolType}")
  let b := b.updatePool pool.id (AgentBudgetPool.addUsed quota)
  let (_, wallet) ← applyUserQuotaMutationTx db.wallet
    { userID := userId, deltaQuota := quota, requestID := idempotencyKey, sourceType,
      transactionType := "budget_grant", idempotencyKey := "user:" ++ idempotencyKey,
      remark := trimSpace remark }
  let newBal := fund.balanceQuota - quota
  let b := b.setFund fund.id newBal
  let b := { b with ledger := (b.ledger.insertIgnore
    { id := b.ledger.nextId, siteId := siteID, fundAccountId := fund.id, deltaQuota := -quota,
      balanceAfter := newBal, sourceType, sourcePoolType := trimSpace poolType, userId, actionId,
      settlementId, mutationIndex, idempotencyKey, remark := trimSpace remark,
      metadataJson := trimSpace metadataJson }).1 }
  return ((), ⟨wallet, b⟩)

/-- The transaction of a reservation, as seen from wallet and budget together. -/
def reserveRewardTx (env : RewardEnv) (userId : Int) (poolType : String) (quota : Int)
    (idempotencyKey remark sourceType : String) (db : RewardDB) :
    Except Err (Unit × RewardDB) := do
  let b ← reserveQuotaFromBudgetPoolWithSourceTx env db.budget userId poolType quota idempotencyKey
    remark sourceType
  return ((), { db with budget := b })

/-- Pays out a reserved reward; the fund was debited by the reservation. -/
def consumeReservedQuotaFromBudgetPoolTx (env : RewardEnv) (userId : Int) (poolType : String)
    (quota : Int) (idempotencyKey remark : String) (db : RewardDB) :
    Except Err (Unit × RewardDB) := do
  let idempotencyKey ← rewardArguments userId quota idempotencyKey
  let (siteID, budgetDate, totalQuota) := currentAgentBudgetPoolMeta env poolType
  let b ← ensureAgentBudgetPoolTx db.budget siteID poolType budgetDate totalQuota
  let pool ← lockAgentBudgetPoolTx b siteID poolType budgetDate
  let (settlementId, mutationIndex, actionId) :=
    quotaReplayFieldsFromMetadata env idempotencyKey "" 0
  let (claimed, b) ← claimAgentBudgetTransactionTx b
    { id := b.transactions.nextId, siteId := pool.siteId, poolId := pool.id,
      poolType := pool.poolType, userId, actionId, sourceType := "consume_frozen",
      transactionType := "consume_frozen", quota, balanceAfter := pool.available, settlementId,
      mutationIndex, idempotencyKey, remark := trimSpace remark }
  if claimed = false then return ((), { db with budget := b }) else
  let insufficient : Err := .text
    s!"budget pool reserved quota insufficient: frozen={pool.frozenQuota} required={quota} pool={pool.poolType} site={pool.siteId} date={pool.budgetDate}"
  failIf (pool.frozenQuota < quota) insufficient
  let update := b.pools.updateWhere (fun p => p.id = pool.id ∧ quota ≤ p.frozenQuota)
    (AgentBudgetPool.consumeFrozen quota)
  failIf (update.2 = 0) insufficient
  let (_, wallet) ← applyUserQuotaMutationTx db.wallet
    { userID := userId, deltaQuota := quota, requestID := idempotencyKey,
      sourceType := "consume_frozen", transactionType := "budget_consume",
      idempotencyKey := "user:" ++ idempotencyKey, remark := trimSpace remark }
  return ((), ⟨wallet, { b with pools := update.1 }⟩)

/-- The signed mutation: a positive delta is paid by pool and fund, a negative one goes to the
fund. -/
def applyQuotaMutationTx (env : RewardEnv) (siteID : String) (userID delta : Int)
    (poolType sourceType idempotencyKey remark : String) (actionId : Int) (settlementID : String)
    (mutationIndex : Int) (metadataJson : String) (db : RewardDB) :
    Except Err (Unit × RewardDB) := do
  failIf (userID ≤ 0) (.text "user id is empty")
  failIf (delta = 0) (.text "delta must be non-zero")
  validOpsPoolType poolType
  let idempotencyKey := trimSpace idempotencyKey
  failIf (idempotencyKey = "") (.text "idempotency key is empty")
  let poolType := trimSpace poolType
  let sourceType := trimSpace sourceType
  let sourceType :=
    if sourceType = "" then (if delta < 0 then "game_stake" else "reward_grant") else sourceType
  let settlementID := trimSpace settlementID
  let settlementId := cutSettlementID
    (if settlementID = "" then stableQuotaReplaySettlementID env idempotencyKey else settlementID)
  let mutationIndex := if mutationIndex < 0 then 0 else mutationIndex
  let (_, budgetDate, totalQuota) := currentAgentBudgetPoolMeta env poolType
  let b ← (if 0 < delta then ensureCurrentAgentDailyBudgetFundingTx env db.budget siteID budgetDate
    else pure db.budget)
  let b ← ensureAgentBudgetPoolTx b siteID poolType budgetDate totalQuota
  let pool ← lockAgentBudgetPoolTx b siteID poolType budgetDate
  let (fund, b) ← ensureOpsFundAccountTx b siteID "operations"
  let (claimed, b) ← claimAgentBudgetTransactionTx b
    { id := b.transactions.nextId, siteId := pool.siteId, poolId := pool.id,
      poolType := pool.poolType, userId := userID, actionId, sourceType,
      transactionType := if 0 < delta then "grant" else "charge", quota := delta,
      balanceAfter := if 0 < delta then pool.available - delta else pool.available, settlementId,
      mutationIndex, idempotencyKey, remark := trimSpace remark,
      metadataJson := trimSpace metadataJson }
  if claimed = false then return ((), { db with budget := b }) else
  let ledger : OpsFundLedger :=
    { id := b.ledger.nextId, siteId := siteID, fundAccountId := fund.id, deltaQuota := -delta,
      balanceAfter := fund.balanceQuota, sourceType, sourcePoolType := poolType, userId := userID,
      actionId, settlementId, mutationIndex, idempotencyKey, remark, metadataJson }
  let insert := b.ledger.insertIgnore ledger
  let b := { b with ledger := insert.1 }
  -- a fund entry of the same key: the budget entry stays, nothing is paid
  if insert.2 = 0 then return ((), { db with budget := b }) else
  failIf (0 < delta ∧ pool.available < delta) (.text "budget pool quota insufficient (daily cap)")
  failIf (0 < delta ∧ fund.balanceQuota < delta) (.text "ops fund insufficient")
  let (_, wallet) ← applyUserQuotaMutationTx db.wallet
    { userID, deltaQuota := delta, requestID := idempotencyKey, sourceType,
      transactionType := if 0 < delta then "ops_grant" else "ops_charge",
      idempotencyKey := "user:" ++ idempotencyKey, remark := trimSpace remark }
  let b := if 0 < delta then b.updatePool pool.id (AgentBudgetPool.addUsed delta) else b
  let newBal := fund.balanceQuota - delta
  let b := b.setFund fund.id newBal
  return ((), ⟨wallet, { b with ledger := (b.ledger.updateWhere (fun l => l.id = ledger.id)
    (OpsFundLedger.setBalanceAfter newBal)).1 }⟩)

/-- One mutation of a settlement batch. -/
structure QuotaMutation where
  userID : Int
  delta : Int
  poolType : String
  sourceType : String
  idempotencyKey : String
  remark : String
  actionID : Int
  metadataJson : String

/-- The key of the `i`-th mutation of a batch: its own, or one made of its coordinates. -/
def QuotaMutation.key (m : QuotaMutation) (settlementID : String) (i : Nat) : String :=
  let key := trimSpace m.idempotencyKey
  if key = "" then
    "-".intercalate [trimSpace settlementID, toString i, trimSpace m.sourceType,
      trimSpace m.poolType, toString m.userID]
  else key

/-- The loop of a settlement batch, from mutation `i` on. -/
def applyQuotaSettlementFromTx (env : RewardEnv) (siteID settlementID : String) :
    Nat → List QuotaMutation → RewardDB → Except Err (Unit × RewardDB)
  | _, [], db => pure ((), db)
  | i, m :: ms, db => do
    let (_, db) ← applyQuotaMutationTx env siteID m.userID m.delta m.poolType m.sourceType
      (m.key settlementID i) m.remark m.actionID settlementID i m.metadataJson db
    applyQuotaSettlementFromTx env siteID settlementID (i + 1) ms db

/-- All mutations of a settlement, or none of them. -/
def applyQuotaSettlementBatchTx (env : RewardEnv) (siteID settlementID : String)
    (mutations : List QuotaMutation) (db : RewardDB) : Except Err (Unit × RewardDB) :=
  applyQuotaSettlementFromTx env siteID settlementID 0 mutations db

/-! ## Calls -/

/-- The payouts other components ask for. -/
inductive RewardCall where
  | grant (userId : Int) (poolType : String) (quota : Int)
      (idempotencyKey remark sourceType metadataJson : String)
  | reserve (userId : Int) (poolType : String) (quota : Int)
      (idempotencyKey remark sourceType : String)
  | consumeReserved (userId : Int) (poolType : String) (quota : Int)
      (idempotencyKey remark : String)
  | mutate (siteID : String) (userID delta : Int)
      (poolType sourceType idempotencyKey remark : String) (actionID : Int)
      (settlementID : String) (mutationIndex : Int) (metadataJson : String)
  | settleBatch (siteID settlementID : String) (mutations : List QuotaMutation)

/-- The body of a call's transaction. -/
def RewardCall.tx (env : RewardEnv) : RewardCall → RewardDB → Except Err (Unit × RewardDB)
  | .grant userId poolType quota idempotencyKey remark sourceType metadataJson =>
    grantQuotaFromBudgetPoolWithSourceTx env userId poolType quota idempotencyKey remark sourceType
      metadataJson
  | .reserve userId poolType quota idempotencyKey remark sourceType =>
    reserveRewardTx env userId poolType quota idempotencyKey remark sourceType
  | .consumeReserved userId poolType quota idempotencyKey remark =>
    consumeReservedQuotaFromBudgetPoolTx env userId poolType quota idempotencyKey remark
  | .mutate siteID userID delta poolType sourceType idempotencyKey remark actionID settlementID
      mutationIndex metadataJson =>
    applyQuotaMutationTx env siteID userID delta poolType sourceType idempotencyKey remark actionID
      settlementID mutationIndex metadataJson
  | .settleBatch siteID settlementID mutations =>
    applyQuotaSettlementBatchTx env siteID settlementID mutations

/-! ## Payouts are postings -/

/-- What a payout does to the wallet. -/
abbrev RewardDB.Paid (db db' : RewardDB) : Prop := Posted (· = none) db.wallet db'.wallet

variable {env : RewardEnv} {db db' : RewardDB}

theorem grantQuotaFromBudgetPoolWithSourceTx_paid {userId quota : Int}
    {poolType key remark sourceType metadataJson : String}
    (h : grantQuotaFromBudgetPoolWithSourceTx env userId poolType quota key remark sourceType
      metadataJson db = .ok ((), db')) : db.Paid db' := by
  simp only [grantQuotaFromBudgetPoolWithSourceTx, bind_eq_ok, Prod.exists] at h
  obtain ⟨key, -, b, -, b, -, pool, -, fund, b, -, claimed, b, -, h⟩ := h
  split at h
  · cases h
    exact .refl _
  · simp only [ok_iff, Prod.exists] at h
    obtain ⟨-, -, applied, wallet, happly, h⟩ := h
    cases h
    exact .of_or rfl (applyUserQuotaMutationTx_effect happly)

theorem consumeReservedQuotaFromBudgetPoolTx_paid {userId quota : Int}
    {poolType key remark : String}
    (h : consumeReservedQuotaFromBudgetPoolTx env userId poolType quota key remark db
      = .ok ((), db')) : db.Paid db' := by
  simp only [consumeReservedQuotaFromBudgetPoolTx, bind_eq_ok, Prod.exists] at h
  obtain ⟨key, -, b, -, pool, -, claimed, b, -, h⟩ := h
  split at h
  · cases h
    exact .refl _
  · simp only [ok_iff, Prod.exists] at h
    obtain ⟨-, -, applied, wallet, happly, h⟩ := h
    cases h
    exact .of_or rfl (applyUserQuotaMutationTx_effect happly)

theorem applyQuotaMutationTx_paid {userID delta actionID mutationIndex : Int}
    {siteID poolType sourceType key remark settlementID metadataJson : String}
    (h : applyQuotaMutationTx env siteID userID delta poolType sourceType key remark actionID
      settlementID mutationIndex metadataJson db = .ok ((), db')) : db.Paid db' := by
  simp only [applyQuotaMutationTx, ok_iff, Prod.exists] at h
  obtain ⟨-, -, _, -, -, b, -, b, -, pool, -, fund, b, -, claimed, b, -, h⟩ := h
  rcases ite_eq_iff.mp h with ⟨-, h⟩ | ⟨-, h⟩
  · cases h
    exact .refl _
  · rcases ite_eq_iff.mp h with ⟨-, h⟩ | ⟨-, h⟩
    · cases h
      exact .refl _
    · simp only [ok_iff, Prod.exists] at h
      obtain ⟨-, -, applied, wallet, happly, h⟩ := h
      cases h
      exact .of_or rfl (applyUserQuotaMutationTx_effect happly)

/-- A batch is a sequence of payouts. -/
theorem applyQuotaSettlementFromTx_paid {siteID settlementID : String} {i : Nat}
    {mutations : List QuotaMutation}
    (h : applyQuotaSettlementFromTx env siteID settlementID i mutations db = .ok ((), db')) :
    db.Paid db' := by
  induction mutations generalizing i db with
  | nil =>
    cases h
    exact .refl _
  | cons m ms ih =>
    simp only [applyQuotaSettlementFromTx, bind_eq_ok, Prod.exists] at h
    obtain ⟨⟨⟩, db₁, hm, hms⟩ := h
    exact (applyQuotaMutationTx_paid hm).trans (ih hms)

/-- **A payout touches a wallet only by direct postings of the ledger.** -/
theorem RewardCall.tx_paid {c : RewardCall} (h : c.tx env db = .ok ((), db')) : db.Paid db' := by
  cases c with
  | grant => exact grantQuotaFromBudgetPoolWithSourceTx_paid h
  | reserve =>
    simp only [RewardCall.tx, reserveRewardTx, ok_iff, Prod.mk.injEq, true_and] at h
    obtain ⟨b, -, rfl⟩ := h
    exact .refl _
  | consumeReserved => exact consumeReservedQuotaFromBudgetPoolTx_paid h
  | mutate => exact applyQuotaMutationTx_paid h
  | settleBatch => exact applyQuotaSettlementFromTx_paid h

end Prox
