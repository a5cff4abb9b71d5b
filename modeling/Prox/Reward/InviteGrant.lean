import Prox.Lib.InPlace
import Prox.Reward.Reset

/-! # Grants in a transaction of the caller

`GrantQuotaFromBudgetPoolWithSourceTx` runs in the transaction of its caller. The other callers give its
error on and roll back; the invitation rewards of the chat drop it and commit, and so keep what the grant wrote before
it failed. `grantInPlace` is the grant with its writes; where it succeeds it is the grant of the reward
ledger, and where it fails it has prepared pools and fund, entered its claim or credited nobody, but debited
no one. -/

namespace Prox

open InPlace

attribute [local irreducible] trimSpace

/-! ## The writes of a grant -/

/-- A computation on the budget, as one on wallet and budget. -/
def onBudgetInPlace {α : Type} (x : Budget → Except Err α × Budget) (db : RewardDB) :
    Except Err α × RewardDB :=
  ((x db.budget).1, { db with budget := (x db.budget).2 })

/-- A computation on the wallet, as one on wallet and budget. -/
def onWalletInPlace {α : Type} (x : Wallet → Except Err α × Wallet) (db : RewardDB) :
    Except Err α × RewardDB :=
  ((x db.wallet).1, { db with wallet := (x db.wallet).2 })

/-- The loop over the pools of the daily reset. The errors of an adjustment come before its writes. -/
def restoreDailyPoolsInPlace (env : RewardEnv) (siteID budgetDate requestID remark : String) :
    List String → Budget → Except Err Unit × Budget
  | [] => InPlace.done (.ok ())
  | poolType :: poolTypes =>
    let target := currentAgentPoolQuota env poolType
    if target ≤ 0 then restoreDailyPoolsInPlace env siteID budgetDate requestID remark poolTypes
    else andThen (statement fun b => do
        let (_, b) ← restoreBudgetPoolCapacityWithSourceTx env b siteID poolType budgetDate target
          (requestID ++ ":pool:" ++ poolType) remark "daily_budget_reset"
        return ((), b))
      fun _ => restoreDailyPoolsInPlace env siteID budgetDate requestID remark poolTypes

/-- `EnsureOpsDailyBudgetCapacityForDateTx`. -/
def ensureOpsDailyBudgetCapacityInPlace (env : RewardEnv) (siteID budgetDate requestID remark : String) :
    Budget → Except Err Unit × Budget :=
  let siteID := env.canonicalSiteID siteID
  let budgetDate := trimSpace budgetDate
  let requestID := trimSpace requestID
  if budgetDate = "" ∨ requestID = "" then
    InPlace.done (.error (.text "budget date and request id are required"))
  else if env.setting.budgetEnabled = false ∨ (env.setting.dailyBudgetResetEnabled = false ∧
      env.setting.dailyFundResetEnabled = false) then InPlace.done (.ok ())
  else
    andThen
      (if env.setting.dailyBudgetResetEnabled then
        restoreDailyPoolsInPlace env siteID budgetDate requestID remark agentDailyBudgetPoolTypes
      else InPlace.done (.ok ()))
      fun _ =>
        let minimum := configuredOpsFundDailyTarget env
        if env.setting.dailyFundResetEnabled = true ∧ 0 < minimum then
          statement fun b => do
            let (_, b) ← ensureOpsFundMinimumWithSourceTx env b siteID minimum (requestID ++ ":fund") remark
              "daily_fund_reset"
            return ((), b)
        else InPlace.done (.ok ())

/-- `ensureCurrentAgentDailyBudgetFundingTx`. -/
def ensureCurrentAgentDailyBudgetFundingInPlace (env : RewardEnv) (siteID budgetDate : String) :
    Budget → Except Err Unit × Budget :=
  ensureOpsDailyBudgetCapacityInPlace env siteID budgetDate
    (agentDailyBudgetResetRequestID env siteID budgetDate) "automatic daily reward budget reset"

/-- `ApplyUserQuotaMutationTx`: when the balance cannot be moved, the journal keeps the entry. -/
def applyUserQuotaMutationInPlace (mutation : UserQuotaMutation) (w : Wallet) : Except Err Bool × Wallet :=
  match normalizeUserQuotaMutation mutation with
  | .error e => (.error e, w)
  | .ok mutation =>
    let journal : UserQuotaTransaction :=
      { id := w.transactions.nextId, userId := mutation.userID, requestId := mutation.requestID,
        sourceType := mutation.sourceType, transactionType := mutation.transactionType,
        deltaQuota := mutation.deltaQuota, idempotencyKey := mutation.idempotencyKey,
        remark := mutation.remark }
    match w.transactions.create journal with
    | none =>
      match w.transactions.byKey mutation.idempotencyKey with
      | none => (.error (.sentinel .recordNotFound), w)
      | some existing => ((validateUserQuotaMutationReplay existing mutation).map fun _ => false, w)
    | some transactions =>
      andThen (statement fun w => moveUserQuotaTx w mutation.userID mutation.deltaQuota)
        (fun (before, after) => statement fun w => do
          let finalize := w.transactions.updateWhere (fun t => t.id = journal.id)
            (UserQuotaTransaction.setBalances before after)
          failIf (finalize.2 ≠ 1) (.text
            s!"finalize wallet journal affected {finalize.2} rows: idempotency_key={mutation.idempotencyKey}")
          return (true, { w with transactions := finalize.1 }))
        { w with transactions }

/-- The pool and the fund of a grant, made sure of and locked. -/
def prepareGrantInPlace (env : RewardEnv) (poolType : String) :
    Budget → Except Err (AgentBudgetPool × OpsFundAccount) × Budget :=
  let (siteID, budgetDate, totalQuota) := currentAgentBudgetPoolMeta env poolType
  andThen (ensureCurrentAgentDailyBudgetFundingInPlace env siteID budgetDate) fun _ =>
  andThen (statement fun b => do
    let b ← ensureAgentBudgetPoolTx b siteID poolType budgetDate totalQuota
    return ((), b)) fun _ =>
  andThen (statement fun b => do
    let pool ← lockAgentBudgetPoolTx b siteID poolType budgetDate
    return (pool, b)) fun pool =>
  statement fun b => do
    let (fund, b) ← ensureOpsFundAccountTx b siteID "operations"
    return ((pool, fund), b)

/-- A grant before its claim is entered. -/
structure GrantClaim where
  userId : Int
  poolType : String
  quota : Int
  idempotencyKey : String
  remark : String
  sourceType : String
  metadataJson : String

namespace GrantClaim

variable (env : RewardEnv) (g : GrantClaim)

/-- `sourceType` of the entries. -/
def source : String := if trimSpace g.sourceType = "" then "reward_grant" else trimSpace g.sourceType

/-- `settlementID`, `mutationIndex` and `actionID` of the entries. -/
def replayFields : String × Int × Int := quotaReplayFieldsFromMetadata env g.idempotencyKey g.metadataJson 0

/-- The entry of the budget journal. -/
def entry (pool : AgentBudgetPool) (id : Int) : AgentBudgetTransaction :=
  { id, siteId := pool.siteId, poolId := pool.id, poolType := pool.poolType, userId := g.userId,
    actionId := (g.replayFields env).2.2, sourceType := g.source, transactionType := "grant",
    quota := g.quota, balanceAfter := pool.available - g.quota, settlementId := (g.replayFields env).1,
    mutationIndex := (g.replayFields env).2.1, idempotencyKey := g.idempotencyKey,
    remark := trimSpace g.remark, metadataJson := trimSpace g.metadataJson }

/-- The mutation of the wallet. -/
def mutation : UserQuotaMutation :=
  { userID := g.userId, deltaQuota := g.quota, requestID := g.idempotencyKey, sourceType := g.source,
    transactionType := "budget_grant", idempotencyKey := "user:" ++ g.idempotencyKey,
    remark := trimSpace g.remark }

/-- The entry of the fund's journal. -/
def fundEntry (siteID : String) (fund : OpsFundAccount) (id : Int) : OpsFundLedger :=
  { id, siteId := siteID, fundAccountId := fund.id, deltaQuota := -g.quota,
    balanceAfter := fund.balanceQuota - g.quota, sourceType := g.source,
    sourcePoolType := trimSpace g.poolType, userId := g.userId, actionId := (g.replayFields env).2.2,
    settlementId := (g.replayFields env).1, mutationIndex := (g.replayFields env).2.1,
    idempotencyKey := g.idempotencyKey, remark := trimSpace g.remark,
    metadataJson := trimSpace g.metadataJson }

/-- What a grant does once its claim is entered. -/
def payInPlace (pool : AgentBudgetPool) (fund : OpsFundAccount) (db : RewardDB) :
    Except Err Unit × RewardDB :=
  let siteID := env.canonicalSiteID env.setting.siteID
  if pool.available < g.quota then
    (.error (.wrap .budgetPoolQuotaInsufficient
      s!"available={pool.available} required={g.quota} pool={pool.poolType} site={pool.siteId} date={pool.budgetDate}"),
      db)
  else if fund.balanceQuota < g.quota then
    (.error (.wrap .opsFundQuotaInsufficient
      s!"balance={fund.balanceQuota} required={g.quota} site={siteID} pool={trimSpace g.poolType}"), db)
  else
    andThen (onBudgetInPlace fun b => (.ok (), b.updatePool pool.id (AgentBudgetPool.addUsed g.quota)))
      (fun _ => andThen (onWalletInPlace (applyUserQuotaMutationInPlace g.mutation)) fun _ =>
        onBudgetInPlace fun b =>
          let b := b.setFund fund.id (fund.balanceQuota - g.quota)
          (.ok (), { b with ledger := (b.ledger.insertIgnore (g.fundEntry env siteID fund b.ledger.nextId)).1 }))
      db

end GrantClaim

/-- `GrantQuotaFromBudgetPoolWithSourceTx` with its writes. -/
def grantInPlace (env : RewardEnv) (g : GrantClaim) (db : RewardDB) : Except Err Unit × RewardDB :=
  match rewardArguments g.userId g.quota g.idempotencyKey with
  | .error e => (.error e, db)
  | .ok idempotencyKey =>
    let g := { g with idempotencyKey }
    andThen (onBudgetInPlace (prepareGrantInPlace env g.poolType))
      (fun locked => andThen
        (onBudgetInPlace (statement fun b =>
          claimAgentBudgetTransactionTx b (g.entry env locked.1 b.transactions.nextId)))
        fun claimed =>
          if claimed = false then InPlace.done (.ok ()) else g.payInPlace env locked.1 locked.2)
      db

/-! ## Agreement with the reward ledger -/

section Agreement

variable {α : Type} {env : RewardEnv}

theorem InPlace.Unrolled.onBudget {x : Budget → Except Err α × Budget} {body : Budget → Except Err (α × Budget)}
    (h : Unrolled x body) :
    Unrolled (onBudgetInPlace x) fun db : RewardDB => do
      let (a, b) ← body db.budget
      return (a, { db with budget := b }) := by
  intro db
  constructor
  · intro a db' hok
    obtain ⟨⟨a', b⟩, hbody, hok⟩ := bind_eq_ok.mp hok
    cases hok
    rw [onBudgetInPlace, (h db.budget).1 a b hbody]
  · intro e herror
    rcases bind_eq_error.mp herror with hbody | ⟨_, -, hok⟩
    · obtain ⟨b, hb⟩ := (h db.budget).2 e hbody
      exact ⟨_, by rw [onBudgetInPlace, hb]⟩
    · cases hok

theorem restoreDailyPoolsInPlace_unrolled (siteID budgetDate requestID remark : String)
    (poolTypes : List String) :
    Unrolled (restoreDailyPoolsInPlace env siteID budgetDate requestID remark poolTypes) fun b => do
      let b ← restoreDailyPoolsTx env siteID budgetDate requestID remark poolTypes b
      return ((), b) := by
  induction poolTypes with
  | nil => exact .done (.ok ())
  | cons poolType poolTypes ih =>
    unfold restoreDailyPoolsInPlace
    dsimp only
    split
    · next hskip =>
      refine ih.congr fun b => ?_
      rw [restoreDailyPoolsTx]
      simp [if_pos hskip]
    · next hpos =>
      refine (Unrolled.andThen (.statement _) fun _ => ih).congr fun b => ?_
      rw [restoreDailyPoolsTx]
      simp [if_neg hpos]

theorem ensureOpsDailyBudgetCapacityInPlace_unrolled (siteID budgetDate requestID remark : String) :
    Unrolled (ensureOpsDailyBudgetCapacityInPlace env siteID budgetDate requestID remark) fun b => do
      let b ← ensureOpsDailyBudgetCapacityForDateTx env b siteID budgetDate requestID remark
      return ((), b) := by
  unfold ensureOpsDailyBudgetCapacityInPlace ensureOpsDailyBudgetCapacityForDateTx
  by_cases hargs : trimSpace budgetDate = "" ∨ trimSpace requestID = ""
  · simp only [if_pos hargs, failIf]
    exact Unrolled.done _
  by_cases hoff : env.setting.budgetEnabled = false ∨
      (env.setting.dailyBudgetResetEnabled = false ∧ env.setting.dailyFundResetEnabled = false)
  · simp only [if_neg hargs, if_pos hoff, failIf]
    exact Unrolled.done _
  have hpools : Unrolled
      (if env.setting.dailyBudgetResetEnabled then
        restoreDailyPoolsInPlace env (env.canonicalSiteID siteID) (trimSpace budgetDate) (trimSpace requestID) remark
          agentDailyBudgetPoolTypes
      else InPlace.done (.ok ())) fun b => do
        let b ← (if env.setting.dailyBudgetResetEnabled then
            restoreDailyPoolsTx env (env.canonicalSiteID siteID) (trimSpace budgetDate) (trimSpace requestID) remark
              agentDailyBudgetPoolTypes b
          else Pure.pure b)
        return ((), b) := by
    split
    · exact restoreDailyPoolsInPlace_unrolled _ _ _ _ _
    · exact .done (.ok ())
  simp only [if_neg hargs, if_neg hoff, failIf]
  by_cases hfund : env.setting.dailyFundResetEnabled = true ∧ 0 < configuredOpsFundDailyTarget env
  · simp only [if_pos hfund]
    refine (hpools.andThen fun _ => .statement _).congr fun b => ?_
    simp only [bind_assoc, pure_bind]
    rfl
  · simp only [if_neg hfund]
    refine (hpools.andThen fun _ => .done (.ok ())).congr fun b => ?_
    simp only [bind_assoc, pure_bind]
    rfl

theorem applyUserQuotaMutationInPlace_unrolled (m : UserQuotaMutation) :
    Unrolled (applyUserQuotaMutationInPlace m) fun w => applyUserQuotaMutationTx w m := by
  intro w
  unfold applyUserQuotaMutationInPlace applyUserQuotaMutationTx
  cases normalizeUserQuotaMutation m with
  | error e => exact .error e w
  | ok m =>
    simp only [bind, Except.bind]
    generalize w.transactions.create _ = created
    cases created with
    | none =>
      cases w.transactions.byKey m.idempotencyKey with
      | none => exact .error _ w
      | some existing =>
        dsimp only
        cases validateUserQuotaMutationReplay existing m with
        | error e => exact .error e w
        | ok _ => exact .ok false w
    | some transactions =>
      exact Unrolled.andThen (.statement fun w => moveUserQuotaTx w m.userID m.deltaQuota)
        (fun _ => .statement _) { w with transactions }

/-- The body of the preparation of a grant. -/
def prepareGrantTx (env : RewardEnv) (poolType : String) (b : Budget) :
    Except Err ((AgentBudgetPool × OpsFundAccount) × Budget) := do
  let (siteID, budgetDate, totalQuota) := currentAgentBudgetPoolMeta env poolType
  let b ← ensureCurrentAgentDailyBudgetFundingTx env b siteID budgetDate
  let b ← ensureAgentBudgetPoolTx b siteID poolType budgetDate totalQuota
  let pool ← lockAgentBudgetPoolTx b siteID poolType budgetDate
  let (fund, b) ← ensureOpsFundAccountTx b siteID "operations"
  return ((pool, fund), b)

theorem prepareGrantInPlace_unrolled (env : RewardEnv) (poolType : String) :
    Unrolled (prepareGrantInPlace env poolType) (prepareGrantTx env poolType) := by
  refine ((ensureOpsDailyBudgetCapacityInPlace_unrolled _ _ _ _).andThen fun _ => (Unrolled.statement _).andThen
    fun _ => (Unrolled.statement _).andThen fun pool => .statement _).congr fun b => ?_
  simp [prepareGrantTx, currentAgentBudgetPoolMeta, ensureCurrentAgentDailyBudgetFundingTx]

/-- The body of what follows the claim. -/
def GrantClaim.payTx (env : RewardEnv) (g : GrantClaim) (pool : AgentBudgetPool) (fund : OpsFundAccount)
    (db : RewardDB) : Except Err (Unit × RewardDB) := do
  let siteID := env.canonicalSiteID env.setting.siteID
  failIf (pool.available < g.quota) (.wrap .budgetPoolQuotaInsufficient
    s!"available={pool.available} required={g.quota} pool={pool.poolType} site={pool.siteId} date={pool.budgetDate}")
  failIf (fund.balanceQuota < g.quota) (.wrap .opsFundQuotaInsufficient
    s!"balance={fund.balanceQuota} required={g.quota} site={siteID} pool={trimSpace g.poolType}")
  let b := db.budget.updatePool pool.id (AgentBudgetPool.addUsed g.quota)
  let (_, wallet) ← applyUserQuotaMutationTx db.wallet g.mutation
  let b := b.setFund fund.id (fund.balanceQuota - g.quota)
  return ((), ⟨wallet, { b with
    ledger := (b.ledger.insertIgnore (g.fundEntry env siteID fund b.ledger.nextId)).1 }⟩)

theorem GrantClaim.payInPlace_unrolled (g : GrantClaim) (pool : AgentBudgetPool) (fund : OpsFundAccount) :
    Unrolled (g.payInPlace env pool fund) (g.payTx env pool fund) := by
  intro db
  unfold GrantClaim.payInPlace GrantClaim.payTx
  by_cases hpool : pool.available < g.quota
  · simp only [if_pos hpool, failIf]
    exact .error _ db
  by_cases hfund : fund.balanceQuota < g.quota
  · simp only [if_neg hpool, if_pos hfund, failIf]
    exact .error _ db
  simp only [if_neg hpool, if_neg hfund, failIf]
  -- the pool is updated before the wallet, and keeps its update when the wallet refuses
  rcases hwallet : applyUserQuotaMutationTx db.wallet g.mutation with e | ⟨applied, w⟩
  · obtain ⟨w, hw⟩ := (applyUserQuotaMutationInPlace_unrolled g.mutation db.wallet).2 e hwallet
    simp only [andThen, onBudgetInPlace, onWalletInPlace, hw]
    exact .error e _
  · have hw := (applyUserQuotaMutationInPlace_unrolled g.mutation db.wallet).1 applied w hwallet
    simp only [andThen, onBudgetInPlace, onWalletInPlace, hw]
    exact .ok () _

/-- The grant of the reward ledger, in three parts. -/
theorem grantQuotaFromBudgetPoolWithSourceTx_eq (g : GrantClaim) (db : RewardDB) :
    grantQuotaFromBudgetPoolWithSourceTx env g.userId g.poolType g.quota g.idempotencyKey g.remark g.sourceType
        g.metadataJson db = (do
      let idempotencyKey ← rewardArguments g.userId g.quota g.idempotencyKey
      let g := { g with idempotencyKey }
      let ((pool, fund), b) ← prepareGrantTx env g.poolType db.budget
      let (claimed, b) ← claimAgentBudgetTransactionTx b (g.entry env pool b.transactions.nextId)
      if claimed = false then return ((), { db with budget := b })
      else g.payTx env pool fund { db with budget := b }) := by
  simp only [grantQuotaFromBudgetPoolWithSourceTx, prepareGrantTx, bind_assoc, pure_bind]
  rfl

/-- **A grant in place is the grant of the reward ledger**, in all but its writes before a failure. -/
theorem grantInPlace_unrolled (g : GrantClaim) :
    Unrolled (grantInPlace env g) (grantQuotaFromBudgetPoolWithSourceTx env g.userId g.poolType g.quota
      g.idempotencyKey g.remark g.sourceType g.metadataJson) := by
  intro db
  rw [grantQuotaFromBudgetPoolWithSourceTx_eq]
  unfold grantInPlace
  cases rewardArguments g.userId g.quota g.idempotencyKey with
  | error e => exact .error e db
  | ok idempotencyKey =>
    have hrest : ∀ (pool : AgentBudgetPool) (fund : OpsFundAccount) (claimed : Bool), Unrolled
        (if claimed = false then InPlace.done (.ok ())
          else GrantClaim.payInPlace env { g with idempotencyKey } pool fund)
        fun db => if claimed = false then return ((), db)
          else GrantClaim.payTx env { g with idempotencyKey } pool fund db := by
      intro pool fund claimed
      cases claimed with
      | false => exact .done (.ok ())
      | true => exact GrantClaim.payInPlace_unrolled _ pool fund
    have hclaimed := fun locked : AgentBudgetPool × OpsFundAccount =>
      (Unrolled.statement fun b => claimAgentBudgetTransactionTx b
        (GrantClaim.entry env { g with idempotencyKey } locked.1 b.transactions.nextId)).onBudget.andThen
        fun claimed => hrest locked.1 locked.2 claimed
    have hgrant := (prepareGrantInPlace_unrolled env g.poolType).onBudget.andThen hclaimed db
    simp only [bind_assoc, pure_bind] at hgrant
    exact hgrant

end Agreement

/-! ## What a grant leaves behind -/

section Prepare

variable {env : RewardEnv} {b : Budget}

theorem restoreDailyPoolsInPlace_prepared {siteID budgetDate requestID remark : String}
    {poolTypes : List String} (hsub : ∀ t ∈ poolTypes, t ∈ agentDailyBudgetPoolTypes) :
    Prepared (resetAllowance env requestID) b
      (restoreDailyPoolsInPlace env siteID budgetDate (trimSpace requestID) remark poolTypes b).2 := by
  induction poolTypes generalizing b with
  | nil => exact .refl b
  | cons poolType poolTypes ih =>
    obtain ⟨hmem, hsub⟩ := List.forall_mem_cons.mp hsub
    unfold restoreDailyPoolsInPlace
    dsimp only
    split
    · exact ih hsub
    · refine andThen_rel (R := Prepared (resetAllowance env requestID)) (fun _ _ _ h h' => h.trans h')
        (statement_rel (R := Prepared (resetAllowance env requestID)) (.refl b) fun _ b' h => ?_)
        fun _ b' => ih hsub
      obtain ⟨⟨pool, b₁⟩, hrestore, hb⟩ := bind_eq_ok.mp h
      cases hb
      exact (adjustBudgetPoolAvailableCapacityTx_prepared (A := resetAllowance env requestID) hrestore
        (fun _ => ⟨(currentAgentPoolQuota_trimSpace env poolType).symm, by omega⟩)
        ⟨poolType, hmem, rfl⟩).1

theorem ensureOpsDailyBudgetCapacityInPlace_prepared {siteID budgetDate requestID remark : String} :
    Prepared (resetAllowance env requestID) b
      (ensureOpsDailyBudgetCapacityInPlace env siteID budgetDate requestID remark b).2 := by
  unfold ensureOpsDailyBudgetCapacityInPlace
  dsimp only
  split
  · exact .refl b
  split
  · exact .refl b
  refine andThen_rel (R := Prepared (resetAllowance env requestID)) (fun _ _ _ h h' => h.trans h') ?_
    fun _ b' => ?_
  · split
    · exact restoreDailyPoolsInPlace_prepared fun _ ht => ht
    · exact .refl b
  · split
    · refine statement_rel (R := Prepared (resetAllowance env requestID)) (.refl b') fun _ b'' h => ?_
      obtain ⟨⟨fund, b₁⟩, hminimum, hb⟩ := bind_eq_ok.mp h
      cases hb
      exact (ensureOpsFundMinimumWithSourceTx_prepared hminimum rfl).1
    · exact .refl b'

/-- What a grant may do before it enters its claim. -/
def grantAllowance (env : RewardEnv) (poolType : String) : Allowance :=
  payoutAllowance env (env.canonicalSiteID env.setting.siteID) poolType

/-- **A grant that fails before its claim has prepared** pools and fund, and nothing else. -/
theorem prepareGrantInPlace_prepared (poolType : String) :
    Prepared (grantAllowance env poolType) b (prepareGrantInPlace env poolType b).2 := by
  have hstatement : ∀ {α : Type} (body : Budget → Except Err (α × Budget)) (b : Budget),
      (∀ a b', body b = .ok (a, b') → Prepared (grantAllowance env poolType) b b') →
      Prepared (grantAllowance env poolType) b (statement body b).2 := fun body b h =>
    statement_rel (R := Prepared (grantAllowance env poolType)) (.refl b) h
  have hthen : ∀ {α β : Type} {x : Budget → Except Err α × Budget} {f : α → Budget → Except Err β × Budget}
      {b : Budget}, Prepared (grantAllowance env poolType) b (x b).2 →
      (∀ a b', Prepared (grantAllowance env poolType) b' (f a b').2) →
      Prepared (grantAllowance env poolType) b (andThen x f b).2 := fun hx hf =>
    andThen_rel (R := Prepared (grantAllowance env poolType)) (fun _ _ _ h h' => h.trans h') hx hf
  refine hthen ?_ fun _ b => hthen (hstatement _ b fun _ b' h => ?_) fun _ b =>
    hthen (hstatement _ b fun _ b' h => ?_) fun _ b => hstatement _ b fun _ b' h => ?_
  · exact ensureOpsDailyBudgetCapacityInPlace_prepared.mono (fun _ _ hp => Or.inl hp) (fun _ hk => hk)
      fun _ hk => hk
  · obtain ⟨b₁, hpool, hb⟩ := bind_eq_ok.mp h
    cases hb
    exact prepared_of_pool hpool
  · obtain ⟨_, -, hb⟩ := bind_eq_ok.mp h
    cases hb
    exact .refl b
  · obtain ⟨⟨fund, b₁⟩, hfund, hb⟩ := bind_eq_ok.mp h
    cases hb
    exact (ensureOpsFundAccountTx_prepared hfund).1

/-- The preparation fails, or it locks a pool and a fund. -/
theorem prepareGrantInPlace_cases (env : RewardEnv) (poolType : String) (b : Budget) :
    (∃ e b', prepareGrantInPlace env poolType b = (.error e, b') ∧ Prepared (grantAllowance env poolType) b b') ∨
      ∃ pool fund b', prepareGrantInPlace env poolType b = (.ok (pool, fund), b') ∧
        prepareGrantTx env poolType b = .ok ((pool, fund), b') ∧ Prepared (grantAllowance env poolType) b b' := by
  have hprepared : Prepared (grantAllowance env poolType) b (prepareGrantInPlace env poolType b).2 :=
    prepareGrantInPlace_prepared poolType
  rcases h : prepareGrantInPlace env poolType b with ⟨e | ⟨pool, fund⟩, b'⟩
  · rw [h] at hprepared
    exact .inl ⟨e, b', rfl, hprepared⟩
  · rw [h] at hprepared
    exact .inr ⟨pool, fund, b', rfl, (prepareGrantInPlace_unrolled env poolType).ok.mpr h, hprepared⟩

end Prepare

section Grant

variable {env : RewardEnv} {g : GrantClaim} {db : RewardDB}

/-- Pool and fund, as the preparation leaves them, suffice for the grant. -/
def GrantClaim.Funded (env : RewardEnv) (g : GrantClaim) (db : RewardDB) : Prop :=
  match prepareGrantTx env g.poolType db.budget with
  | .error _ => True
  | .ok ((pool, fund), _) => g.quota ≤ pool.available ∧ g.quota ≤ fund.balanceQuota

instance (env : RewardEnv) (g : GrantClaim) (db : RewardDB) : Decidable (g.Funded env db) := by
  unfold GrantClaim.Funded
  split <;> infer_instance

/-- The arguments of a grant are good, and it finds no trace of an earlier one under its key. -/
structure GrantClaim.Fresh (env : RewardEnv) (g : GrantClaim) (db : RewardDB) : Prop where
  user_pos : 0 < g.userId
  quota_pos : 0 < g.quota
  key_trimmed : trimSpace g.idempotencyKey = g.idempotencyKey
  key_ne : g.idempotencyKey ≠ ""
  claim : db.budget.transactions.byKey g.idempotencyKey = none
  fund : db.budget.ledger.byKey g.idempotencyKey = none
  wallet : db.wallet.transactions.byKey (trimSpace ("user:" ++ g.idempotencyKey)) = none
  adjust : ¬ (grantAllowance env g.poolType).adjustKey g.idempotencyKey
  raise : ¬ (grantAllowance env g.poolType).raiseKey g.idempotencyKey

/-- The wallet takes the credit: the user exists and the texts of the mutation fit. -/
def GrantClaim.Creditable (g : GrantClaim) (db : RewardDB) : Prop :=
  (db.wallet.users.byId g.userId).isSome ∧ byteLen g.idempotencyKey ≤ 128 ∧ byteLen g.source ≤ 64
  deriving Decidable

/-- What is left of a grant under a new key: it fails and has prepared at most, or it has paid. -/
inductive GrantClaim.Result (env : RewardEnv) (g : GrantClaim) (db : RewardDB) :
    Except Err Unit × RewardDB → Prop
  | failed {e e' : Err} (hfails : prepareGrantTx env g.poolType db.budget = .error e')
      (hprepared : Prepared (grantAllowance env g.poolType) db.budget
        (prepareGrantInPlace env g.poolType db.budget).2) :
      GrantClaim.Result env g db
        (.error e, { db with budget := (prepareGrantInPlace env g.poolType db.budget).2 })
  | paid {pool : AgentBudgetPool} {fund : OpsFundAccount} {b : Budget} {w : Wallet}
      {transactions : Table AgentBudgetTransaction} {ledger : Table OpsFundLedger}
      (hprepare : prepareGrantTx env g.poolType db.budget = .ok ((pool, fund), b))
      (hprepared : Prepared (grantAllowance env g.poolType) db.budget b)
      (hclaim : b.transactions.create (g.entry env pool b.transactions.nextId) = some transactions)
      (hwallet : applyUserQuotaMutationTx db.wallet g.mutation = .ok (true, w))
      (hledger : b.ledger.create (g.fundEntry env (env.canonicalSiteID env.setting.siteID) fund b.ledger.nextId)
        = some ledger) :
      GrantClaim.Result env g db (.ok (), ⟨w,
        { ({ b with transactions }.updatePool pool.id (AgentBudgetPool.addUsed g.quota)).setFund fund.id
            (fund.balanceQuota - g.quota) with ledger }⟩)

/-- The normalisation accepts the mutation of a grant. -/
theorem GrantClaim.mutation_normal (h : g.Fresh env db) (hcredit : g.Creditable db) :
    ∃ m, normalizeUserQuotaMutation g.mutation = .ok m := by
  obtain ⟨-, hlength, hsource⟩ := hcredit
  have huser := h.user_pos
  have hkey : trimSpace ("user:" ++ g.idempotencyKey) = "user:" ++ g.idempotencyKey :=
    trimSpace_append (by decide +kernel) h.key_trimmed (by decide) h.key_ne
  have hkeyLength : byteLen ("user:" ++ g.idempotencyKey) ≤ 191 := by
    have hfive : byteLen "user:" = 5 := by decide
    have hsum : byteLen ("user:" ++ g.idempotencyKey) = byteLen "user:" + byteLen g.idempotencyKey := by
      simp [byteLen]
    omega
  have hrequest : normalizeUserQuotaRequest g.idempotencyKey = .ok g.idempotencyKey := by
    simp only [normalizeUserQuotaRequest, failIf_bind_eq_ok, h.key_trimmed, pure_eq_ok, and_true, not_or]
    exact ⟨h.key_ne, by omega⟩
  have htrimmed : trimSpace g.source = g.source := by
    unfold GrantClaim.source
    split
    · decide +kernel
    · exact trimSpace_trimSpace _
  have hsourceOk : normalizeUserQuotaSource g.source
      = .ok (if g.source = "" then "api_billing" else g.source) := by
    simp only [normalizeUserQuotaSource, htrimmed]
    split
    · rfl
    · rw [failIf, if_neg (by omega)]
      rfl
  have htype : trimSpace "budget_grant" = "budget_grant" := by decide +kernel
  refine ⟨{ g.mutation with
    sourceType := if g.source = "" then "api_billing" else g.source, remark := trimSpace g.mutation.remark }, ?_⟩
  unfold normalizeUserQuotaMutation GrantClaim.mutation
  dsimp only
  rw [failIf, if_neg (by omega), hrequest, hsourceOk, hkey]
  simp only [bind, Except.bind]
  rw [htype, failIf, if_neg (by decide +kernel), failIf, if_neg]
  · rfl
  · rintro (hempty | hlong)
    · exact absurd (String.append_eq_empty_iff.mp hempty).1 (by decide)
    · omega

/-- **A funded grant under a new key** does not fail after its claim. -/
theorem grantInPlace_result (h : g.Fresh env db) (hfunded : g.Funded env db) (hcredit : g.Creditable db) :
    GrantClaim.Result env g db (grantInPlace env g db) := by
  have harguments : rewardArguments g.userId g.quota g.idempotencyKey = .ok g.idempotencyKey := by
    have huser := h.user_pos
    have hquota := h.quota_pos
    simp only [rewardArguments, failIf_bind_eq_ok, h.key_trimmed, pure_eq_ok, and_true]
    exact ⟨by omega, by omega, h.key_ne⟩
  rcases prepareGrantInPlace_cases env g.poolType db.budget with ⟨e, b, hprepare, hprepared⟩ |
    ⟨pool, fund, b, hprepare, htx, hprepared⟩
  · -- nothing is claimed yet
    have hgrant : grantInPlace env g db
        = (.error e, { db with budget := (prepareGrantInPlace env g.poolType db.budget).2 }) := by
      simp only [grantInPlace, harguments]
      exact andThen_error (by simp [onBudgetInPlace, hprepare])
    rw [hgrant]
    cases htx : prepareGrantTx env g.poolType db.budget with
    | error e' =>
      exact .failed htx (prepareGrantInPlace_prepared g.poolType)
    | ok r =>
      have hok := (prepareGrantInPlace_unrolled env g.poolType).ok.mp htx
      rw [hprepare] at hok
      cases hok
  · rw [GrantClaim.Funded, htx] at hfunded
    -- the claim is new, the wallet takes the credit, and so the grant of the reward ledger succeeds
    have hnew : b.transactions.byKey g.idempotencyKey = none :=
      (hprepared.transactions_byKey h.adjust).trans h.claim
    obtain ⟨transactions, hclaim⟩ := Table.exists_create (t := b.transactions)
      (r := g.entry env pool b.transactions.nextId) rfl hnew
    obtain ⟨u, hu⟩ := Option.isSome_iff_exists.mp hcredit.1
    obtain ⟨w', hwallet⟩ := applyUserQuotaMutationTx_credits (w := db.wallet) (m := g.mutation) hu h.quota_pos
      (g.mutation_normal h hcredit) h.wallet
    -- nor has the fund's journal an entry under the key
    have hfree : b.ledger.byKey g.idempotencyKey = none := (hprepared.ledger_byKey h.raise).trans h.fund
    obtain ⟨ledger, hledger⟩ := Table.exists_create (t := b.ledger)
      (r := g.fundEntry env (env.canonicalSiteID env.setting.siteID) fund b.ledger.nextId) rfl hfree
    have hclaimed : claimAgentBudgetTransactionTx b (g.entry env pool b.transactions.nextId)
        = .ok (true, { b with transactions }) := by
      simp only [claimAgentBudgetTransactionTx, hclaim]
      rfl
    have hpay : g.payTx env pool fund { db with budget := { b with transactions } } = .ok ((), ⟨w',
        { ({ b with transactions }.updatePool pool.id (AgentBudgetPool.addUsed g.quota)).setFund fund.id
            (fund.balanceQuota - g.quota) with ledger }⟩) := by
      have hinsert : (b.ledger.insertIgnore
          (g.fundEntry env (env.canonicalSiteID env.setting.siteID) fund b.ledger.nextId)).1 = ledger := by
        simp [Table.insertIgnore, hledger]
      unfold GrantClaim.payTx
      dsimp only
      rw [failIf, if_neg (by omega), failIf, if_neg (by omega), hwallet, ← hinsert]
      rfl
    have hgrant : grantQuotaFromBudgetPoolWithSourceTx env g.userId g.poolType g.quota g.idempotencyKey
        g.remark g.sourceType g.metadataJson db = .ok ((), ⟨w',
          { ({ b with transactions }.updatePool pool.id (AgentBudgetPool.addUsed g.quota)).setFund fund.id
              (fund.balanceQuota - g.quota) with ledger }⟩) := by
      rw [grantQuotaFromBudgetPoolWithSourceTx_eq, harguments]
      simp only [bind, Except.bind, htx, hclaimed]
      exact hpay
    rw [(grantInPlace_unrolled g).ok.mp hgrant]
    exact .paid htx hprepared hclaim hwallet hledger

end Grant

end Prox
