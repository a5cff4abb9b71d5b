import Prox.Reward.Reset

/-! # The automatic reset acts once a day

Every payout runs the reset of the day first, inside its own transaction. This module follows the totals of
the pools and the fund through a run: they change in the first reset that is committed and in no later one,
because that reset leaves its journal keys behind. `Traced` is the shape of such a run: stretches that keep
all totals, with the committed resets between them. -/

namespace Prox

open AgentBudgetPool Budget List Table

/-! ## The resets of a run -/

/-- The reset that a payout runs first, as the budgets before and after it. -/
def resetPhase (env : RewardEnv) (siteID : String) (b : Budget) : List (Budget × Budget) :=
  match ensureCurrentAgentDailyBudgetFundingTx env b siteID env.budgetDate with
  | .ok b' => [(b, b')]
  | .error _ => []

/-- The resets of a settlement batch, from mutation `i` on: each positive mutation runs one. -/
def batchResets (env : RewardEnv) (siteID settlementID : String) :
    Nat → List QuotaMutation → RewardDB → List (Budget × Budget)
  | _, [], _ => []
  | i, m :: ms, db =>
    (if 0 < m.delta then resetPhase env siteID db.budget else []) ++
      match applyQuotaMutationTx env siteID m.userID m.delta m.poolType m.sourceType
        (m.key settlementID i) m.remark m.actionID settlementID i m.metadataJson db with
      | .ok (_, db) => batchResets env siteID settlementID (i + 1) ms db
      | .error _ => []

/-- The resets that an operation runs. -/
def RewardOp.resets (env : RewardEnv) (op : RewardOp) (db : RewardDB) : List (Budget × Budget) :=
  match op with
  | .call (.grant ..) | .call (.reserve ..) =>
    resetPhase env (env.canonicalSiteID env.setting.siteID) db.budget
  | .call (.mutate siteID _ delta ..) =>
    if 0 < delta then resetPhase env siteID db.budget else []
  | .call (.settleBatch siteID settlementID mutations) =>
    batchResets env siteID settlementID 0 mutations db
  | .dailyReset siteID budgetDate requestID remark =>
    match ensureOpsDailyBudgetCapacityForDateTx env db.budget siteID budgetDate requestID remark with
    | .ok b => [(db.budget, b)]
    | .error _ => []
  | _ => []

/-- The resets of a run that are committed: an operation that fails takes its resets with it. -/
def committedResets : RewardDB → List RewardEvent → List (Budget × Budget)
  | _, [] => []
  | db, e :: es =>
    (match (transaction e.fault (e.op.tx e.env) db).1 with
      | .ok _ => e.op.resets e.env db
      | .error _ => []) ++ committedResets (db.step e) es

/-- A payout or an automatic reset of the site `site` on the date of the environment. -/
def RewardOp.OnSite (env : RewardEnv) (site : String) : RewardOp → Prop
  | .call (.grant ..) | .call (.reserve ..) | .call (.consumeReserved ..) =>
    env.canonicalSiteID (env.canonicalSiteID env.setting.siteID) = site
  | .call (.mutate siteID ..) | .call (.settleBatch siteID ..) => env.canonicalSiteID siteID = site
  | .dailyReset siteID budgetDate requestID _ =>
    env.canonicalSiteID siteID = site ∧ trimSpace budgetDate = trimSpace env.budgetDate ∧
      requestID = agentDailyBudgetResetRequestID env siteID budgetDate
  | _ => False

/-! ## What a reset does -/

/-- The pool of a type is reset every day. -/
def RewardEnv.ResetsPool (env : RewardEnv) (poolType : String) : Prop :=
  env.setting.budgetEnabled = true ∧ env.setting.dailyBudgetResetEnabled = true ∧
    poolType ∈ agentDailyBudgetPoolTypes ∧ 0 < currentAgentPoolQuota env poolType

/-- The fund is reset every day. -/
def RewardEnv.ResetsFund (env : RewardEnv) : Prop :=
  env.setting.budgetEnabled = true ∧ env.setting.dailyFundResetEnabled = true ∧
    0 < configuredOpsFundDailyTarget env

/-- The request id of the automatic reset of a site. -/
def dailyRequestID (env : RewardEnv) (site : String) : String :=
  trimSpace (stableQuotaReplaySettlementID env
    ("daily-budget-reset:" ++ site ++ ":" ++ trimSpace env.budgetDate))

/-- The pool that the reset of a site restores. -/
def dailyPool (env : RewardEnv) (site poolType : String) : String × String × String :=
  (env.canonicalSiteID site, poolType, trimSpace env.budgetDate)

/-- The fund account that the reset of a site raises. -/
def dailyFund (env : RewardEnv) (site : String) : String × String :=
  (trimSpace (env.canonicalSiteID site), "operations")

/-- A pool, missing or not, is brought to the target: it is created with it, or its total is raised so that
it can give the target again; a pool that can give more stays as it is. -/
def RestoredTo (target : Int) : Option AgentBudgetPool → Option AgentBudgetPool → Prop
  | none, some p' => p'.available = target
  | some p, some p' =>
    p' = { p with totalQuota := p.totalQuota + max 0 (target - p.available) }
  | _, none => False

/-- What one reset does: under a free key it restores a pool or raises the fund and takes the key, under a
taken key it does nothing. -/
structure DayReset (env : RewardEnv) (site : String) (b b' : Budget) : Prop where
  transactions : ∀ {k r}, b.transactions.byKey k = some r → b'.transactions.byKey k = some r
  ledger : ∀ {k l}, b.ledger.byKey k = some l → b'.ledger.byKey k = some l
  /-- The keys are taken afterwards. -/
  poolKeys : ∀ t, env.ResetsPool t →
    ∃ r, b'.transactions.byKey (poolResetKey (dailyRequestID env site) t) = some r
  fundKey : env.ResetsFund →
    ∃ l, b'.ledger.byKey (trimSpace (dailyRequestID env site ++ ":fund")) = some l
  /-- A pool changes only under its free key, and then it is restored. -/
  restored : ∀ t, env.ResetsPool t →
    b.transactions.byKey (poolResetKey (dailyRequestID env site) t) = none →
      RestoredTo (currentAgentPoolQuota env t) (b.pools.byKey (dailyPool env site t))
        (b'.pools.byKey (dailyPool env site t))
  pools : ∀ k, (∀ t, env.ResetsPool t →
    b.transactions.byKey (poolResetKey (dailyRequestID env site) t) = none →
      k ≠ dailyPool env site t) → b'.pools.byKey k = b.pools.byKey k
  /-- The fund changes only under its free key, and then it is raised. -/
  raised : env.ResetsFund → b.ledger.byKey (trimSpace (dailyRequestID env site ++ ":fund")) = none →
    ∃ a', b'.funds.byKey (dailyFund env site) = some a' ∧
      a'.balanceQuota = max (configuredOpsFundDailyTarget env)
        (((b.funds.byKey (dailyFund env site)).map OpsFundAccount.balanceQuota).getD 0)
  funds : ∀ {k a}, b.funds.byKey k = some a → (k = dailyFund env site → env.ResetsFund →
    ∃ l, b.ledger.byKey (trimSpace (dailyRequestID env site ++ ":fund")) = some l) →
      b'.funds.byKey k = some a

/-! ## One restore -/

variable {budgetDate key metadataJson poolType remark requestID siteID source settlementID : String}
  {fund : OpsFundAccount}

section Restore

variable {env : RewardEnv} {b b' : Budget}

/-- What the restore of one pool does. -/
structure Restores (pool : String × String × String) (key : String) (target : Int) (b b' : Budget) :
    Prop where
  transactions : ∀ {k r}, b.transactions.byKey k = some r → b'.transactions.byKey k = some r
  otherKeys : ∀ k ≠ key, b'.transactions.byKey k = b.transactions.byKey k
  taken : ∃ r, b'.transactions.byKey key = some r
  restored : b.transactions.byKey key = none →
    RestoredTo target (b.pools.byKey pool) (b'.pools.byKey pool)
  replayed : b.transactions.byKey key ≠ none → b' = b
  otherPools : ∀ k ≠ pool, b'.pools.byKey k = b.pools.byKey k
  funds : b'.funds = b.funds
  ledger : b'.ledger = b.ledger

/-- **One restore**: under its free key it restores its pool and takes the key. -/
theorem restoreBudgetPoolCapacity_restores {target : Int} {pool : AgentBudgetPool}
    (h : restoreBudgetPoolCapacityWithSourceTx env b siteID poolType budgetDate target key remark source
      = .ok (pool, b')) :
    Restores (env.canonicalSiteID siteID, trimSpace poolType, trimSpace budgetDate) (trimSpace key)
      target b b' := by
  simp only [restoreBudgetPoolCapacityWithSourceTx, adjustBudgetPoolAvailableCapacityTx, bind_eq_ok,
    failIf_eq_ok, exists_const] at h
  obtain ⟨-, -, -, source', -, -, h⟩ := h
  cases hreplay : b.transactions.byKey (trimSpace key) with
  | some replay =>
    -- the key is taken: nothing is written
    simp only [hreplay] at h
    obtain rfl := replay_eq_ok h
    exact ⟨id, fun _ _ => rfl, ⟨replay, hreplay⟩, fun hnone => absurd (hreplay.symm.trans hnone) (by simp),
      fun _ => rfl, fun _ _ => rfl, rfl, rfl⟩
  | none =>
    simp only [hreplay, true_and, Bool.false_eq_true, if_false] at h
    obtain ⟨p, hlock, h⟩ := bind_eq_ok.mp h
    rw [lockAgentBudgetPoolTx_eq_ok, trimSpace_trimSpace] at hlock
    obtain ⟨hp, hothers⟩ := byKey_insertIgnore (t := b.pools) (x := p)
      (r := { id := b.pools.nextId, siteId := env.canonicalSiteID siteID,
              poolType := trimSpace poolType, budgetDate := trimSpace budgetDate,
              totalQuota := target }) hlock
    have hmem := (byKey_eq_some.mp hlock).1
    generalize (b.pools.insertIgnore
      { id := b.pools.nextId, siteId := env.canonicalSiteID siteID, poolType := trimSpace poolType,
        budgetDate := trimSpace budgetDate, totalQuota := target }).1 = pools at h hlock hothers hmem
    have hincrease : (if target - p.available < 0 then 0 else target - p.available)
        = max 0 (target - p.available) := by
      split <;> omega
    simp only [hincrease] at h
    rcases insertIgnore_cases b.transactions
        { id := b.transactions.nextId, siteId := p.siteId, poolId := p.id, poolType := p.poolType,
          sourceType := source', transactionType := "capacity_restore",
          quota := max 0 (target - p.available),
          balanceAfter := p.available + max 0 (target - p.available),
          idempotencyKey := trimSpace key, remark := trimSpace remark }
      with ⟨hnone, -⟩ | ⟨transactions, hcreate, heq⟩
    · obtain ⟨x, hx⟩ := (create_eq_none rfl).mp hnone
      exact absurd (hreplay.symm.trans hx) (by simp)
    · rw [heq, if_neg Nat.one_ne_zero] at h
      simp only [bind_eq_ok, pure_eq_ok, Prod.mk.injEq] at h
      obtain ⟨_, -, -, rfl⟩ := h
      -- raising the total by nothing is raising it, too
      have hraised : ∀ c : Budget, (if max 0 (target - p.available) ≠ 0 then
          c.updatePool p.id (addTotal (max 0 (target - p.available))) else c)
            = c.updatePool p.id (addTotal (max 0 (target - p.available))) := by
        intro c
        by_cases hzero : max 0 (target - p.available) = 0
        · rw [hzero, if_neg (not_not.mpr rfl), updatePool_addTotal_zero]
        · rw [if_pos hzero]
      rw [hraised]
      have hpkey := (byKey_eq_some.mp hlock).2
      have hpools : ∀ k, (updatePool { b with pools, transactions } p.id (addTotal
          (max 0 (target - p.available)))).pools.byKey k = if Row.key p = k then
            some { p with totalQuota := p.totalQuota + max 0 (target - p.available) }
          else pools.byKey k :=
        byKey_updateWhere_single hmem (decide_eq_true rfl) fun x hx => of_decide_eq_true hx
      refine ⟨byKey_create_of_some hcreate, fun k hk => ?_, ?_, fun _ => ?_,
        fun hne => absurd hreplay hne, fun k hk => ?_, rfl, rfl⟩
      · exact (byKey_of_create hcreate k).trans (if_neg (Ne.symm hk))
      · exact ⟨_, (byKey_of_create hcreate _).trans (if_pos rfl)⟩
      · rw [hpools, if_pos hpkey]
        rcases hp with hp | ⟨hnone, rfl⟩
        · rw [show b.pools.byKey (env.canonicalSiteID siteID, trimSpace poolType, trimSpace budgetDate)
            = some p from hp]
          rfl
        · rw [show b.pools.byKey (env.canonicalSiteID siteID, trimSpace poolType, trimSpace budgetDate)
            = none from hnone]
          simp only [RestoredTo, available]
          omega
      · rw [hpools, if_neg fun heq : Row.key p = k => hk (heq.symm.trans hpkey)]
        exact hothers k hk

/-- What the loop of the daily reset does to the pools and the journal. -/
structure RestoresAll (env : RewardEnv) (siteID budgetDate requestID : String) (ts : List String)
    (b b' : Budget) : Prop where
  transactions : ∀ {k r}, b.transactions.byKey k = some r → b'.transactions.byKey k = some r
  taken : ∀ t ∈ ts, 0 < currentAgentPoolQuota env t →
    ∃ r, b'.transactions.byKey (poolResetKey requestID t) = some r
  restored : ∀ t ∈ ts, 0 < currentAgentPoolQuota env t →
    b.transactions.byKey (poolResetKey requestID t) = none →
      RestoredTo (currentAgentPoolQuota env t) (b.pools.byKey (env.canonicalSiteID siteID, t, budgetDate))
        (b'.pools.byKey (env.canonicalSiteID siteID, t, budgetDate))
  pools : ∀ k, (∀ t ∈ ts, 0 < currentAgentPoolQuota env t →
    b.transactions.byKey (poolResetKey requestID t) = none →
      k ≠ (env.canonicalSiteID siteID, t, budgetDate)) → b'.pools.byKey k = b.pools.byKey k
  otherKeys : ∀ k, (∀ t ∈ ts, k ≠ poolResetKey requestID t) →
    b'.transactions.byKey k = b.transactions.byKey k
  funds : b'.funds = b.funds
  ledger : b'.ledger = b.ledger

/-- **The loop**: every enabled pool is restored under its own key. -/
theorem restoreDailyPoolsTx_restores {ts : List String}
    (hsub : ∀ t ∈ ts, t ∈ agentDailyBudgetPoolTypes) (hnodup : ts.Nodup)
    (htrim : trimSpace requestID = requestID) (hne : requestID ≠ "")
    (hdate : trimSpace budgetDate = budgetDate)
    (h : restoreDailyPoolsTx env siteID budgetDate requestID remark ts b = .ok b') :
    RestoresAll env siteID budgetDate requestID ts b b' := by
  induction ts generalizing b with
  | nil =>
    cases h
    exact ⟨id, fun _ ht => absurd ht not_mem_nil, fun _ ht => absurd ht not_mem_nil,
      fun _ _ => rfl, fun _ _ => rfl, rfl, rfl⟩
  | cons t ts ih =>
    obtain ⟨hmem, hsub⟩ := forall_mem_cons.mp hsub
    obtain ⟨hnot, hnodup⟩ := nodup_cons.mp hnodup
    rw [restoreDailyPoolsTx] at h
    split at h
    · next hle =>
      -- the pool is disabled
      obtain ⟨htr, htaken, hrestored, hpools, hkeys, hfunds, hledger⟩ := ih hsub hnodup h
      refine ⟨htr, fun t' ht' hpos => ?_, fun t' ht' hpos => ?_, fun k hk => ?_, fun k hk => ?_, hfunds,
        hledger⟩
      · rcases mem_cons.mp ht' with rfl | ht'
        · exact absurd hpos (by omega)
        · exact htaken t' ht' hpos
      · rcases mem_cons.mp ht' with rfl | ht'
        · exact absurd hpos (by omega)
        · exact hrestored t' ht' hpos
      · exact hpools k fun t' ht' => hk t' (mem_cons_of_mem _ ht')
      · exact hkeys k fun t' ht' => hk t' (mem_cons_of_mem _ ht')
    · next hpos =>
      have hpos : 0 < currentAgentPoolQuota env t := by omega
      simp only [bind_eq_ok, Prod.exists] at h
      obtain ⟨pool, b₁, hrestore, h⟩ := h
      have hone := restoreBudgetPoolCapacity_restores hrestore
      rw [(agentDailyBudgetPoolTypes_valid t hmem).2.2, hdate] at hone
      change Restores _ (poolResetKey requestID t) _ _ _ at hone
      have hrest := ih hsub hnodup h
      -- the other pools and keys are as before the first restore
      have hkey : ∀ t' ∈ ts, b₁.transactions.byKey (poolResetKey requestID t')
          = b.transactions.byKey (poolResetKey requestID t') := fun t' ht' =>
        hone.otherKeys _ fun heq => hnot (poolResetKey_inj htrim hne (hsub t' ht') hmem heq ▸ ht')
      have hpool : ∀ t' ∈ ts, (env.canonicalSiteID siteID, t', budgetDate)
          ≠ (env.canonicalSiteID siteID, t, budgetDate) := by
        intro t' ht' heq
        simp only [Prod.mk.injEq, and_true, true_and] at heq
        exact hnot (heq ▸ ht')
      have hfirst : b'.pools.byKey (env.canonicalSiteID siteID, t, budgetDate)
          = b₁.pools.byKey (env.canonicalSiteID siteID, t, budgetDate) :=
        hrest.pools _ fun t' ht' _ _ => (hpool t' ht').symm
      refine ⟨fun hr => hrest.transactions (hone.transactions hr), fun t' ht' hpos' => ?_,
        fun t' ht' hpos' hfree => ?_, fun k hk => ?_, fun k hk => ?_, hrest.funds.trans hone.funds,
        hrest.ledger.trans hone.ledger⟩
      · rcases mem_cons.mp ht' with rfl | ht'
        · obtain ⟨r, hr⟩ := hone.taken
          exact ⟨r, hrest.transactions hr⟩
        · exact hrest.taken t' ht' hpos'
      · rcases mem_cons.mp ht' with rfl | ht'
        · rw [hfirst]
          exact hone.restored hfree
        · have hafter := hrest.restored t' ht' hpos' ((hkey t' ht').trans hfree)
          rwa [hone.otherPools _ (hpool t' ht')] at hafter
      · rw [hrest.pools k fun t' ht' hpos' hfree =>
          hk t' (mem_cons_of_mem _ ht') hpos' ((hkey t' ht').symm.trans hfree)]
        cases hfree : b.transactions.byKey (poolResetKey requestID t) with
        | none => exact hone.otherPools k (hk t mem_cons_self hpos hfree)
        | some r => rw [hone.replayed (by simp [hfree])]
      · rw [hrest.otherKeys k fun t' ht' => hk t' (mem_cons_of_mem _ ht')]
        exact hone.otherKeys k (hk t mem_cons_self)

/-- A fund account that was opened unless it was there. -/
theorem ensureOpsFundAccountTx_byKey {fundType : String}
    (hop : trimSpace fundType = fundType ∧ fundType ≠ "")
    (h : ensureOpsFundAccountTx b siteID fundType = .ok (fund, b')) :
    b'.funds.byKey (trimSpace siteID, fundType) = some fund ∧
      fund.balanceQuota
        = ((b.funds.byKey (trimSpace siteID, fundType)).map OpsFundAccount.balanceQuota).getD 0 ∧
      (∀ {k a}, b.funds.byKey k = some a → b'.funds.byKey k = some a) ∧
      b' = { b with funds := b'.funds } := by
  unfold ensureOpsFundAccountTx at h
  simp only [hop.1, if_neg hop.2] at h
  split at h
  · cases h
  · next found =>
    cases h
    obtain ⟨hcases, hothers⟩ := byKey_insertIgnore (t := b.funds) (x := fund)
      (r := { id := b.funds.nextId, siteId := trimSpace siteID, fundType }) found
    refine ⟨found, ?_, fun {k a} ha => ?_, rfl⟩
    · rcases hcases with hcases | ⟨hnone, rfl⟩
      · rw [show b.funds.byKey (trimSpace siteID, fundType) = some fund from hcases]
        rfl
      · rw [show b.funds.byKey (trimSpace siteID, fundType) = none from hnone]
        rfl
    · by_cases hk : k = (trimSpace siteID, fundType)
      · subst hk
        rcases hcases with hcases | ⟨hnone, -⟩
        · obtain rfl : fund = a := Option.mem_unique hcases ha
          exact found
        · exact absurd (hnone.symm.trans ha) (by simp)
      · exact (hothers k hk).trans ha

/-- What raising the fund to a minimum does. -/
structure Raises (account : String × String) (key : String) (minimum : Int) (b b' : Budget) : Prop where
  ledger : ∀ {k l}, b.ledger.byKey k = some l → b'.ledger.byKey k = some l
  taken : ∃ l, b'.ledger.byKey key = some l
  raised : b.ledger.byKey key = none → ∃ a', b'.funds.byKey account = some a' ∧
    a'.balanceQuota
      = max minimum (((b.funds.byKey account).map OpsFundAccount.balanceQuota).getD 0)
  funds : ∀ {k a}, b.funds.byKey k = some a →
    (k = account → ∃ l, b.ledger.byKey key = some l) → b'.funds.byKey k = some a
  pools : b'.pools = b.pools
  transactions : b'.transactions = b.transactions

/-- **The fund**: under its free key it is raised, and the key is taken. -/
theorem ensureOpsFundMinimum_raises {minimum : Int}
    (h : ensureOpsFundMinimumWithSourceTx env b siteID minimum key remark source = .ok (fund, b')) :
    Raises (trimSpace (env.canonicalSiteID siteID), "operations") (trimSpace key) minimum b b' := by
  have hop : trimSpace "operations" = "operations" ∧ "operations" ≠ "" := by decide +kernel
  simp only [ensureOpsFundMinimumWithSourceTx, ok_iff] at h
  obtain ⟨source', -, -, h⟩ := h
  cases hreplay : b.ledger.byKey (trimSpace key) with
  | some l =>
    simp only [hreplay] at h
    obtain ⟨-, -, hkeep, heq⟩ := ensureOpsFundAccountTx_byKey hop h
    have hledger : b'.ledger = b.ledger := by rw [heq]
    have hpools : b'.pools = b.pools := by rw [heq]
    have htransactions : b'.transactions = b.transactions := by rw [heq]
    exact ⟨fun hl => hledger ▸ hl, ⟨l, hledger ▸ hreplay⟩, fun hnone => absurd (hreplay.symm.trans hnone)
      (by simp), fun ha _ => hkeep ha, hpools, htransactions⟩
  | none =>
    simp only [hreplay, bind_eq_ok, Prod.exists] at h
    obtain ⟨a, b₁, hopen, h⟩ := h
    obtain ⟨hfound, hbalance, hkeep, heq⟩ := ensureOpsFundAccountTx_byKey hop hopen
    have hledger : b₁.ledger = b.ledger := by rw [heq]
    have hpools : b₁.pools = b.pools := by rw [heq]
    have htransactions : b₁.transactions = b.transactions := by rw [heq]
    have hmem := (byKey_eq_some.mp hfound).1
    have hdelta : (if minimum - a.balanceQuota < 0 then 0 else minimum - a.balanceQuota)
        = max 0 (minimum - a.balanceQuota) := by
      split <;> omega
    have hnew : a.balanceQuota + max 0 (minimum - a.balanceQuota) = max minimum a.balanceQuota := by omega
    simp only [hdelta, hnew] at h
    rcases insertIgnore_cases b₁.ledger
        { id := b₁.ledger.nextId, siteId := env.canonicalSiteID siteID, fundAccountId := a.id,
          deltaQuota := max 0 (minimum - a.balanceQuota), balanceAfter := max minimum a.balanceQuota,
          sourceType := source', idempotencyKey := trimSpace key, remark := trimSpace remark }
      with ⟨hnone, -⟩ | ⟨ledger, hcreate, heq'⟩
    · obtain ⟨x, hx⟩ := (create_eq_none rfl).mp hnone
      rw [hledger] at hx
      exact absurd (hreplay.symm.trans hx) (by simp)
    · rw [heq'] at h
      -- setting the balance it has is setting it, too
      have hset : (if 1 = 1 ∧ 0 < max 0 (minimum - a.balanceQuota) then
          setFund { b₁ with ledger } a.id (max minimum a.balanceQuota) else { b₁ with ledger })
            = setFund { b₁ with ledger } a.id (max minimum a.balanceQuota) := by
        by_cases hpos : 0 < max 0 (minimum - a.balanceQuota)
        · rw [if_pos ⟨rfl, hpos⟩]
        · rw [if_neg fun h => hpos h.2, show max minimum a.balanceQuota = a.balanceQuota by omega]
          exact (setFund_self (b := { b₁ with ledger }) hmem).symm
      rw [hset] at h
      obtain ⟨-, -, hkeep', heq''⟩ := ensureOpsFundAccountTx_byKey hop h
      have hfunds : ∀ k, (setFund { b₁ with ledger } a.id (max minimum a.balanceQuota)).funds.byKey k
          = if Row.key a = k then some { a with balanceQuota := max minimum a.balanceQuota }
            else b₁.funds.byKey k :=
        byKey_updateWhere_single hmem (decide_eq_true rfl) fun x hx => of_decide_eq_true hx
      have hakey := (byKey_eq_some.mp hfound).2
      rw [heq'']
      refine ⟨fun {k l} hl => ?_, ?_, fun _ => ?_, fun {k c} hc hk => ?_, hpools, htransactions⟩
      · exact byKey_create_of_some hcreate (hledger ▸ hl)
      · exact ⟨_, (byKey_of_create hcreate _).trans (if_pos rfl)⟩
      · refine ⟨_, hkeep' ((hfunds _).trans (if_pos hakey)), ?_⟩
        rw [← hbalance]
      · have hne : Row.key a ≠ k := by
          rintro rfl
          obtain ⟨l, hl⟩ := hk hakey
          exact absurd (hreplay.symm.trans hl) (by simp)
        exact hkeep' ((hfunds k).trans ((if_neg hne).trans (hkeep hc)))

end Restore

/-! ## One reset -/

section Reset

variable {env : RewardEnv} {site : String} {b b' : Budget}

theorem dailyRequestID_ne_empty (env : RewardEnv) (siteID : String) :
    dailyRequestID env (env.canonicalSiteID siteID) ≠ "" :=
  agentDailyBudgetResetRequestID_ne_empty env siteID env.budgetDate

/-- A loop that restores the pools of the day makes the pool half of a reset. -/
theorem RestoresAll.dayReset_pools {date : String}
    (h : RestoresAll env site date (dailyRequestID env site) agentDailyBudgetPoolTypes b b')
    (hdate : date = trimSpace env.budgetDate) (hon : env.setting.budgetEnabled = true)
    (hreset : env.setting.dailyBudgetResetEnabled = true) :
    (∀ t, env.ResetsPool t →
      ∃ r, b'.transactions.byKey (poolResetKey (dailyRequestID env site) t) = some r) ∧
    (∀ t, env.ResetsPool t →
      b.transactions.byKey (poolResetKey (dailyRequestID env site) t) = none →
        RestoredTo (currentAgentPoolQuota env t) (b.pools.byKey (dailyPool env site t))
          (b'.pools.byKey (dailyPool env site t))) ∧
    ∀ k, (∀ t, env.ResetsPool t →
      b.transactions.byKey (poolResetKey (dailyRequestID env site) t) = none →
        k ≠ dailyPool env site t) → b'.pools.byKey k = b.pools.byKey k := by
  subst hdate
  refine ⟨fun t ht => h.taken t ht.2.2.1 ht.2.2.2, fun t ht => h.restored t ht.2.2.1 ht.2.2.2,
    fun k hk => h.pools k fun t ht hpos => hk t ⟨hon, hreset, ht, hpos⟩⟩

/-- **One reset** of the day, whoever runs it. -/
theorem ensureOpsDailyBudgetCapacityForDateTx_dayReset (hsite : env.canonicalSiteID siteID = site)
    (hdate : trimSpace budgetDate = trimSpace env.budgetDate)
    (hid : trimSpace requestID = dailyRequestID env site)
    (h : ensureOpsDailyBudgetCapacityForDateTx env b siteID budgetDate requestID remark = .ok b') :
    DayReset env site b b' := by
  simp only [ensureOpsDailyBudgetCapacityForDateTx, failIf_bind_eq_ok, hsite, hdate, hid] at h
  obtain ⟨-, h⟩ := h
  split at h
  · next hoff =>
    -- nothing is to be reset
    cases h
    have hpool : ∀ t, ¬ env.ResetsPool t := fun t ht => by
      rcases hoff with hoff | ⟨hoff, -⟩
      · exact absurd (hoff.symm.trans ht.1) (by decide)
      · exact absurd (hoff.symm.trans ht.2.1) (by decide)
    have hfund : ¬ env.ResetsFund := fun hf => by
      rcases hoff with hoff | ⟨-, hoff⟩
      · exact absurd (hoff.symm.trans hf.1) (by decide)
      · exact absurd (hoff.symm.trans hf.2.1) (by decide)
    exact ⟨id, id, fun t ht => absurd ht (hpool t), fun hf => absurd hf hfund,
      fun t ht => absurd ht (hpool t), fun _ _ => rfl, fun hf => absurd hf hfund, fun ha _ => ha⟩
  · next hoff =>
    have hon : env.setting.budgetEnabled = true := by
      by_contra hfalse
      exact hoff (.inl (by simpa using hfalse))
    obtain ⟨b₁, hpools, h⟩ := bind_eq_ok.mp h
    -- the pools
    have hfirst : (∀ {k r}, b.transactions.byKey k = some r → b₁.transactions.byKey k = some r) ∧
        b₁.funds = b.funds ∧ b₁.ledger = b.ledger ∧
        (∀ t, env.ResetsPool t →
          ∃ r, b₁.transactions.byKey (poolResetKey (dailyRequestID env site) t) = some r) ∧
        (∀ t, env.ResetsPool t →
          b.transactions.byKey (poolResetKey (dailyRequestID env site) t) = none →
            RestoredTo (currentAgentPoolQuota env t) (b.pools.byKey (dailyPool env site t))
              (b₁.pools.byKey (dailyPool env site t))) ∧
        ∀ k, (∀ t, env.ResetsPool t →
          b.transactions.byKey (poolResetKey (dailyRequestID env site) t) = none →
            k ≠ dailyPool env site t) → b₁.pools.byKey k = b.pools.byKey k := by
      split at hpools
      · next hreset =>
        have hall := restoreDailyPoolsTx_restores (fun _ ht => ht) (by decide)
          (trimSpace_trimSpace _) (hsite ▸ dailyRequestID_ne_empty env siteID) (trimSpace_trimSpace _)
          hpools
        exact ⟨hall.transactions, hall.funds, hall.ledger, hall.dayReset_pools rfl hon hreset⟩
      · next hreset =>
        cases hpools
        have hpool : ∀ t, ¬ env.ResetsPool t := fun t ht => hreset ht.2.1
        exact ⟨id, rfl, rfl, fun t ht => absurd ht (hpool t), fun t ht => absurd ht (hpool t),
          fun _ _ => rfl⟩
    obtain ⟨htransactions, hfunds, hledger, htaken, hrestored, hothers⟩ := hfirst
    -- the fund
    split at h
    · simp only [ok_iff, Prod.exists] at h
      obtain ⟨fund, b₂, hminimum, rfl⟩ := h
      have hraises := ensureOpsFundMinimum_raises hminimum
      have hpools' := hraises.pools
      have htransactions' := hraises.transactions
      refine ⟨fun hr => ?_, fun hl => hraises.ledger (hledger ▸ hl), fun t ht => ?_, fun _ => hraises.taken,
        fun t ht hfree => ?_, fun k hk => ?_, fun _ hfree => ?_, fun {k a} ha hk => ?_⟩
      · rw [htransactions']
        exact htransactions hr
      · rw [htransactions']
        exact htaken t ht
      · rw [hpools']
        exact hrestored t ht hfree
      · rw [hpools']
        exact hothers k hk
      · have hraised := hraises.raised (hledger ▸ hfree)
        rwa [hfunds] at hraised
      · refine hraises.funds (hfunds ▸ ha) fun hacc => ?_
        rw [hledger]
        exact hk hacc ⟨hon, by assumption⟩
    · next hfund =>
      cases h
      have hfund' : ¬ env.ResetsFund := fun hf => hfund hf.2
      exact ⟨htransactions, fun hl => hledger ▸ hl, htaken, fun hf => absurd hf hfund', hrestored, hothers,
        fun hf => absurd hf hfund', fun ha _ => hfunds ▸ ha⟩

end Reset

/-! ## Between the resets -/

/-- Pools keep their totals, entries stay in the journals. -/
structure Budget.Keeps (b b' : Budget) : Prop where
  totals : ∀ {k p}, b.pools.byKey k = some p →
    ∃ p', b'.pools.byKey k = some p' ∧ p'.totalQuota = p.totalQuota
  transactions : ∀ {k r}, b.transactions.byKey k = some r → b'.transactions.byKey k = some r
  ledger : ∀ {k l}, b.ledger.byKey k = some l → ∃ l', b'.ledger.byKey k = some l'

namespace Budget.Keeps

variable {b c c' d : Budget}

theorem refl (b : Budget) : b.Keeps b := ⟨fun h => ⟨_, h, rfl⟩, id, fun h => ⟨_, h⟩⟩

theorem trans (h : b.Keeps c) (h' : c.Keeps d) : b.Keeps d where
  totals hp := by
    obtain ⟨p', hp', htotal⟩ := h.totals hp
    obtain ⟨p'', hp'', htotal'⟩ := h'.totals hp'
    exact ⟨p'', hp'', htotal'.trans htotal⟩
  transactions hr := h'.transactions (h.transactions hr)
  ledger hl := by
    obtain ⟨l', hl'⟩ := h.ledger hl
    exact h'.ledger hl'

/-- A pool is created unless it is there. -/
theorem insertPool (b : Budget) (p : AgentBudgetPool) :
    b.Keeps { b with pools := (b.pools.insertIgnore p).1 } := by
  refine ⟨fun {k q} hq => ⟨q, ?_, rfl⟩, id, fun h => ⟨_, h⟩⟩
  rcases insertIgnore_cases b.pools p with ⟨-, heq⟩ | ⟨pools, hcreate, heq⟩
  · rw [heq]
    exact hq
  · rw [heq]
    exact byKey_create_of_some hcreate hq

/-- Used and frozen quota of a pool are assigned. -/
theorem updatePools (b : Budget) (q : AgentBudgetPool → Bool) {f : Patch AgentBudgetPool}
    (hf : ∀ p, (f.apply p).totalQuota = p.totalQuota) :
    b.Keeps { b with pools := (b.pools.updateWhere q f).1 } := by
  refine ⟨fun {k p} hp => ⟨if q p then f.apply p else p, ?_, ?_⟩, id, fun h => ⟨_, h⟩⟩
  · rw [byKey_updateWhere, hp, Option.map_some]
  · split
    · exact hf p
    · rfl

theorem setFunds (b : Budget) (funds : Table OpsFundAccount) : b.Keeps { b with funds } :=
  ⟨fun h => ⟨_, h, rfl⟩, id, fun h => ⟨_, h⟩⟩

/-- An entry is written to the fund's journal unless its key is taken. -/
theorem insertEntry (b : Budget) (l : OpsFundLedger) :
    b.Keeps { b with ledger := (b.ledger.insertIgnore l).1 } := by
  refine ⟨fun h => ⟨_, h, rfl⟩, id, fun {k x} hx => ⟨x, ?_⟩⟩
  rcases insertIgnore_cases b.ledger l with ⟨-, heq⟩ | ⟨ledger, hcreate, heq⟩
  · rw [heq]
    exact hx
  · rw [heq]
    exact byKey_create_of_some hcreate hx

/-- Columns of the fund's journal are assigned. -/
theorem updateEntries (b : Budget) (q : OpsFundLedger → Bool) (f : Patch OpsFundLedger) :
    b.Keeps { b with ledger := (b.ledger.updateWhere q f).1 } :=
  ⟨fun h => ⟨_, h, rfl⟩, id, fun hx => (exists_byKey_updateWhere hx).imp fun _ h => h.1⟩

theorem of_claim {t : AgentBudgetTransaction} {claimed : Bool}
    (h : claimAgentBudgetTransactionTx b t = .ok (claimed, c)) : b.Keeps c := by
  rcases claimAgentBudgetTransactionTx_cases h with ⟨-, rfl, -⟩ | ⟨-, transactions, hcreate, rfl⟩
  · exact refl c
  · exact ⟨fun h => ⟨_, h, rfl⟩, byKey_create_of_some hcreate, fun h => ⟨_, h⟩⟩

theorem of_pool {totalQuota : Int}
    (h : ensureAgentBudgetPoolTx b siteID poolType budgetDate totalQuota = .ok c) : b.Keeps c := by
  simp only [ensureAgentBudgetPoolTx] at h
  split at h
  · cases h
  · cases h
    exact insertPool b _

theorem of_fund {fundType : String} (h : ensureOpsFundAccountTx b siteID fundType = .ok (fund, c)) :
    b.Keeps c := by
  obtain ⟨funds, rfl, -⟩ :=
    ensureOpsFundAccountTx_opened (A := ⟨fun _ _ => True, fun _ => True, fun _ => True⟩) h
  exact setFunds b funds

end Budget.Keeps

variable {quota userId : Int}

section Payouts

variable {env : RewardEnv} {db db' : RewardDB}

/-- After its reset, a grant keeps all totals. -/
theorem grantQuotaFromBudgetPoolWithSourceTx_keeps
    (h : grantQuotaFromBudgetPoolWithSourceTx env userId poolType quota key remark source metadataJson db
      = .ok ((), db')) :
    ∃ b, ensureCurrentAgentDailyBudgetFundingTx env db.budget
        (env.canonicalSiteID env.setting.siteID) env.budgetDate = .ok b ∧ b.Keeps db'.budget := by
  simp only [grantQuotaFromBudgetPoolWithSourceTx, bind_eq_ok, Prod.exists] at h
  obtain ⟨_, -, b, hreset, b₁, hpool, p, -, a, b₂, hfund, claimed, b₃, hclaim, h⟩ := h
  have hkeeps := ((Keeps.of_pool hpool).trans (.of_fund hfund)).trans (.of_claim hclaim)
  refine ⟨b, hreset, hkeeps.trans ?_⟩
  split at h
  · cases h
    exact .refl _
  · simp only [ok_iff, Prod.exists] at h
    obtain ⟨-, -, applied, wallet, -, h⟩ := h
    cases h
    exact ((Keeps.updatePools b₃ _ fun _ => rfl).trans (.setFunds _ _)).trans (.insertEntry _ _)

/-- After its reset, a reservation keeps all totals. -/
theorem reserveQuotaFromBudgetPoolWithSourceTx_keeps {b b' : Budget}
    (h : reserveQuotaFromBudgetPoolWithSourceTx env b userId poolType quota key remark source = .ok b') :
    ∃ c, ensureCurrentAgentDailyBudgetFundingTx env b
        (env.canonicalSiteID env.setting.siteID) env.budgetDate = .ok c ∧ c.Keeps b' := by
  simp only [reserveQuotaFromBudgetPoolWithSourceTx, currentAgentBudgetPoolMeta, bind_eq_ok,
    Prod.exists] at h
  obtain ⟨_, -, c, hreset, b₁, hpool, p, -, claimed, b₂, hclaim, h⟩ := h
  refine ⟨c, hreset, ((Keeps.of_pool hpool).trans (.of_claim hclaim)).trans ?_⟩
  split at h
  · cases h
    exact .refl _
  · simp only [ok_iff, Prod.exists] at h
    obtain ⟨-, a, b₃, hfund, -, rfl⟩ := h
    have hfrozen := Keeps.updatePools b₂ (fun x => x.id = p.id)
      (f := addFrozen quota) fun _ => rfl
    exact ((hfrozen.trans (.of_fund hfund)).trans (.setFunds _ _)).trans (.insertEntry _ _)

/-- The payout of a reservation runs no reset and keeps all totals. -/
theorem consumeReservedQuotaFromBudgetPoolTx_keeps
    (h : consumeReservedQuotaFromBudgetPoolTx env userId poolType quota key remark db = .ok ((), db')) :
    db.budget.Keeps db'.budget := by
  simp only [consumeReservedQuotaFromBudgetPoolTx, bind_eq_ok, Prod.exists] at h
  obtain ⟨_, -, b₁, hpool, p, -, claimed, b₂, hclaim, h⟩ := h
  refine ((Keeps.of_pool hpool).trans (.of_claim hclaim)).trans ?_
  split at h
  · cases h
    exact .refl _
  · simp only [ok_iff, Prod.exists] at h
    obtain ⟨-, -, applied, wallet, -, h⟩ := h
    cases h
    exact .updatePools b₂ _ fun _ => rfl

/-- A positive mutation runs a reset and keeps all totals after it; a negative one keeps them anyway. -/
theorem applyQuotaMutationTx_keeps {userID delta actionID mutationIndex : Int}
    (h : applyQuotaMutationTx env siteID userID delta poolType source key remark actionID settlementID
      mutationIndex metadataJson db = .ok ((), db')) :
    ∃ b, (if 0 < delta then
        ensureCurrentAgentDailyBudgetFundingTx env db.budget siteID env.budgetDate
      else pure db.budget) = .ok b ∧ b.Keeps db'.budget := by
  simp only [applyQuotaMutationTx, currentAgentBudgetPoolMeta, ok_iff, Prod.exists] at h
  obtain ⟨-, -, _, -, -, b, hreset, b₁, hpool, p, -, a, b₂, hfund, claimed, b₃, hclaim, h⟩ := h
  have hkeeps := ((Keeps.of_pool hpool).trans (.of_fund hfund)).trans (.of_claim hclaim)
  refine ⟨b, hreset, hkeeps.trans ?_⟩
  rcases ite_eq_iff.mp h with ⟨-, h⟩ | ⟨-, h⟩
  · cases h
    exact .refl _
  · have hentry := Keeps.insertEntry b₃
    rcases ite_eq_iff.mp h with ⟨-, h⟩ | ⟨-, h⟩
    · cases h
      exact hentry _
    · simp only [ok_iff, Prod.exists] at h
      obtain ⟨-, -, applied, wallet, -, h⟩ := h
      cases h
      have hused : ∀ c : Budget,
          c.Keeps (if 0 < delta then c.updatePool p.id (addUsed delta) else c) := by
        intro c
        split
        · exact .updatePools c _ fun _ => rfl
        · exact .refl c
      exact (hentry _).trans ((hused _).trans ((Keeps.setFunds _ _).trans (.updateEntries _ _ _)))

end Payouts

/-! ## Runs -/

/-- Stretches that keep all totals, with resets between them. -/
def Traced (env : RewardEnv) (site : String) : Budget → List (Budget × Budget) → Budget → Prop
  | b, [], b' => b.Keeps b'
  | b, r :: rs, b' => b.Keeps r.1 ∧ DayReset env site r.1 r.2 ∧ Traced env site r.2 rs b'

section Runs

variable {env : RewardEnv} {site : String} {b b₁ b' : Budget} {db db' : RewardDB}

-- `Traced` matches on the resets: nothing below needs them computed.
attribute [local irreducible] ensureOpsDailyBudgetCapacityForDateTx

theorem Traced.keeps_append {rs : List (Budget × Budget)} (h : b.Keeps b₁) (h' : Traced env site b₁ rs b') :
    Traced env site b rs b' := by
  cases rs with
  | nil => exact h.trans h'
  | cons r rs => exact ⟨h.trans h'.1, h'.2⟩

theorem Traced.append {rs rs' : List (Budget × Budget)} (h : Traced env site b rs b₁)
    (h' : Traced env site b₁ rs' b') : Traced env site b (rs ++ rs') b' := by
  induction rs generalizing b with
  | nil => exact keeps_append h h'
  | cons r rs ih => exact ⟨h.1, h.2.1, ih h.2.2⟩

section

variable (hsite : env.canonicalSiteID siteID = site)

include hsite

/-- The reset of a payout, and what keeps the totals after it. -/
theorem traced_resetPhase
    (h : ensureCurrentAgentDailyBudgetFundingTx env b siteID env.budgetDate = .ok b₁)
    (hkeeps : b₁.Keeps b') : Traced env site b (resetPhase env siteID b) b' := by
  rw [resetPhase, h]
  refine ⟨.refl b, ensureOpsDailyBudgetCapacityForDateTx_dayReset hsite rfl ?_ h, hkeeps⟩
  rw [agentDailyBudgetResetRequestID, hsite, dailyRequestID]

theorem traced_mutation {userID delta actionID mutationIndex : Int}
    (h : applyQuotaMutationTx env siteID userID delta poolType source key remark actionID settlementID
      mutationIndex metadataJson db = .ok ((), db')) :
    Traced env site db.budget (if 0 < delta then resetPhase env siteID db.budget else []) db'.budget := by
  obtain ⟨b, hreset, hkeeps⟩ := applyQuotaMutationTx_keeps h
  by_cases hpos : 0 < delta
  · rw [if_pos hpos] at hreset ⊢
    exact traced_resetPhase hsite hreset hkeeps
  · rw [if_neg hpos] at hreset ⊢
    cases hreset
    exact hkeeps

theorem traced_batch {i : Nat} {mutations : List QuotaMutation}
    (h : applyQuotaSettlementFromTx env siteID settlementID i mutations db = .ok ((), db')) :
    Traced env site db.budget (batchResets env siteID settlementID i mutations db) db'.budget := by
  induction mutations generalizing i db with
  | nil =>
    cases h
    exact .refl _
  | cons m ms ih =>
    simp only [applyQuotaSettlementFromTx, bind_eq_ok, Prod.exists] at h
    obtain ⟨⟨⟩, db₁, hm, hms⟩ := h
    rw [batchResets, hm]
    exact (traced_mutation hsite hm).append (ih hms)

/-- A reset that is called for itself. -/
theorem traced_dailyReset
    (hdate : trimSpace budgetDate = trimSpace env.budgetDate)
    (hid : trimSpace requestID = dailyRequestID env site)
    (h : (RewardOp.dailyReset siteID budgetDate requestID remark).tx env db = .ok ((), db')) :
    Traced env site db.budget ((RewardOp.dailyReset siteID budgetDate requestID remark).resets env db)
      db'.budget := by
  simp only [RewardOp.tx, onBudget, bind_eq_ok, pure_eq_ok, Prod.mk.injEq, true_and, Prod.exists] at h
  obtain ⟨_, _, ⟨b', hb, rfl⟩, rfl⟩ := h
  rw [RewardOp.resets, hb]
  exact ⟨.refl _, ensureOpsDailyBudgetCapacityForDateTx_dayReset hsite hdate hid hb, .refl _⟩

end

/-- **Step lemma**: an operation on the site is traced by its resets. -/
theorem RewardOp.traced {op : RewardOp} (hsite : op.OnSite env site) (h : op.tx env db = .ok ((), db')) :
    Traced env site db.budget (op.resets env db) db'.budget := by
  cases op with
  | call c =>
    cases c with
    | grant =>
      obtain ⟨b, hreset, hkeeps⟩ := grantQuotaFromBudgetPoolWithSourceTx_keeps h
      exact traced_resetPhase hsite hreset hkeeps
    | reserve userId poolType quota key remark source =>
      simp only [RewardOp.tx, RewardCall.tx, reserveRewardTx, ok_iff, Prod.mk.injEq, true_and] at h
      obtain ⟨b', hreserve, rfl⟩ := h
      obtain ⟨b, hreset, hkeeps⟩ := reserveQuotaFromBudgetPoolWithSourceTx_keeps hreserve
      exact traced_resetPhase hsite hreset hkeeps
    | consumeReserved => exact consumeReservedQuotaFromBudgetPoolTx_keeps h
    | mutate => exact traced_mutation hsite h
    | settleBatch => exact traced_batch hsite h
  | dailyReset siteID budgetDate requestID remark =>
    obtain ⟨hsite, hdate, hid⟩ := hsite
    have hrequest : trimSpace requestID = dailyRequestID env site := by
      rw [hid, agentDailyBudgetResetRequestID, hsite, hdate, dailyRequestID]
    exact traced_dailyReset hsite hdate hrequest h
  | ensureFundMinimum => exact hsite.elim
  | restoreCapacity => exact hsite.elim
  | setAvailableCapacity => exact hsite.elim

/-- **Run lemma**: a run on the site is traced by its committed resets. -/
theorem traced_run (db : RewardDB) {events : List RewardEvent} (henv : ∀ e ∈ events, e.env = env)
    (hsite : ∀ e ∈ events, e.op.OnSite env site) :
    Traced env site db.budget (committedResets db events) (run RewardDB.step db events).budget := by
  induction events generalizing db with
  | nil => exact .refl _
  | cons e es ih =>
    obtain ⟨he, henv⟩ := forall_mem_cons.mp henv
    obtain ⟨hop, hsite⟩ := forall_mem_cons.mp hsite
    rw [committedResets, run_cons]
    refine Traced.append ?_ (ih _ henv hsite)
    rw [RewardDB.step, he]
    rcases transaction_cases e.fault (e.op.tx env) db with ⟨err, heq⟩ | ⟨⟨⟩, db', hok, heq⟩
    · -- rolled back, with its resets
      rw [heq]
      exact .refl _
    · rw [heq]
      exact RewardOp.traced hop hok

/-- The keys of the day are taken. -/
structure Budget.ResetDone (env : RewardEnv) (site : String) (b : Budget) : Prop where
  pools : ∀ t, env.ResetsPool t →
    ∃ r, b.transactions.byKey (poolResetKey (dailyRequestID env site) t) = some r
  fund : env.ResetsFund → ∃ l, b.ledger.byKey (trimSpace (dailyRequestID env site ++ ":fund")) = some l

/-- A reset that changes no pool and no fund account. -/
structure UntouchedDay (r : Budget × Budget) : Prop where
  pools : ∀ k, r.2.pools.byKey k = r.1.pools.byKey k
  funds : ∀ {k a}, r.1.funds.byKey k = some a → r.2.funds.byKey k = some a

theorem DayReset.done (h : DayReset env site b b') : b'.ResetDone env site := ⟨h.poolKeys, h.fundKey⟩

theorem Budget.Keeps.done (h : b.Keeps b') (hb : b.ResetDone env site) : b'.ResetDone env site where
  pools t ht := (hb.pools t ht).imp fun _ hr => h.transactions hr
  fund hf := by
    obtain ⟨l, hl⟩ := hb.fund hf
    exact h.ledger hl

/-- Where the keys are taken, a reset finds nothing to do. -/
theorem DayReset.untouched (h : DayReset env site b b') (hb : b.ResetDone env site) :
    UntouchedDay (b, b') where
  pools k := h.pools k fun t ht hfree => by
    obtain ⟨r, hr⟩ := hb.pools t ht
    exact absurd (hfree.symm.trans hr) (by simp)
  funds ha := h.funds ha fun _ hf => hb.fund hf

/-- After the first reset of a trace nothing changes the totals. -/
theorem Traced.untouched {rs : List (Budget × Budget)} (h : Traced env site b rs b')
    (hb : b.ResetDone env site) : (∀ r ∈ rs, UntouchedDay r) ∧ b.Keeps b' := by
  induction rs generalizing b with
  | nil => exact ⟨fun _ hr => absurd hr not_mem_nil, h⟩
  | cons r rs ih =>
    obtain ⟨hkeeps, hreset, hrest⟩ := h
    have huntouched := hreset.untouched (hkeeps.done hb)
    obtain ⟨hrs, hkeeps'⟩ := ih hrest hreset.done
    have hreset' : r.1.Keeps r.2 :=
      ⟨fun {k p} hp => ⟨p, (huntouched.pools k).trans hp, rfl⟩, hreset.transactions,
        fun hl => ⟨_, hreset.ledger hl⟩⟩
    exact ⟨forall_mem_cons.mpr ⟨huntouched, hrs⟩, (hkeeps.trans hreset').trans hkeeps'⟩

/-- **The automatic reset acts once.** In every run of payouts and automatic resets on one site and date
under fixed settings, only the first committed reset changes a pool or the fund: under a free key it brings
a pool to its target, or leaves one that can give more, and raises the fund to its target. Every later one
changes nothing, and before and after it no total changes either. -/
theorem daily_reset_once (env : RewardEnv) (site : String) (db : RewardDB) (events : List RewardEvent)
    (henv : ∀ e ∈ events, e.env = env) (hsite : ∀ e ∈ events, e.op.OnSite env site) :
    (committedResets db events = [] → db.budget.Keeps (run RewardDB.step db events).budget) ∧
    ∀ r rs, committedResets db events = r :: rs →
      db.budget.Keeps r.1 ∧ DayReset env site r.1 r.2 ∧ (∀ r' ∈ rs, UntouchedDay r') ∧
        r.2.Keeps (run RewardDB.step db events).budget := by
  have htraced := traced_run db henv hsite
  constructor
  · intro hnone
    rw [hnone] at htraced
    exact htraced
  · intro r rs hresets
    rw [hresets] at htraced
    obtain ⟨hbefore, hreset, hafter⟩ := htraced
    exact ⟨hbefore, hreset, Traced.untouched hafter hreset.done⟩

end Runs

/-- An environment in which the reset gives a hundred to the pool of activities, and to the fund. -/
def resetRewardEnv : RewardEnv where
  setting :=
    { siteID := "site", budgetEnabled := true, dailyBudgetResetEnabled := true,
      dailyFundResetEnabled := true, dailyBudgetQuota := 0, growthBudgetQuota := 0,
      activityBudgetQuota := 100, gameBudgetQuota := 0, opsCompBudgetQuota := 0,
      communityBudgetQuota := 0, opsFundDailyTargetQuota := 0 }
  budgetDate := "2026-06-21"
  canonicalSiteID := id
  metadata _ := {}
  sha256Hex := id

/-- A grant that seeds the pool, one that exceeds it and is rolled back, and a reset for itself. -/
def resetEvents : List RewardEvent :=
  [⟨resetRewardEnv, none, .call (.grant 1 "activity" 60 "first" "" "" "")⟩,
    ⟨resetRewardEnv, none, .call (.grant 1 "activity" 60 "second" "" "" "")⟩,
    ⟨resetRewardEnv, none, .dailyReset "site" "2026-06-21"
      (agentDailyBudgetResetRequestID resetRewardEnv "site" "2026-06-21") ""⟩]

/-- The pool of activities has given sixty of a hundred, and the second reset gives none of it back. -/
theorem daily_reset_once_activity :
    ((committedResets plainRewardDB resetEvents).length = 2 ∧
      ((run RewardDB.step plainRewardDB resetEvents).budget.pools.byKey
        ("site", "activity", "2026-06-21")).map AgentBudgetPool.available = some 40) ∧
    ∀ r rs, committedResets plainRewardDB resetEvents = r :: rs →
      plainRewardDB.budget.Keeps r.1 ∧ DayReset resetRewardEnv "site" r.1 r.2 ∧ (∀ r' ∈ rs, UntouchedDay r') ∧
        r.2.Keeps (run RewardDB.step plainRewardDB resetEvents).budget :=
  ⟨by decide +kernel, (daily_reset_once resetRewardEnv "site" plainRewardDB resetEvents
    (by simp [resetEvents]) (by simp [resetEvents, RewardOp.OnSite, resetRewardEnv])).2⟩

end Prox
