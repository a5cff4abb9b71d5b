import Prox.Reward.Calls

/-! # What stays in a reward budget, and when its daily reset succeeds

Two facts that hold whatever else happens to the budget. No operation removes an entry of the journal, a
pool or a fund (`Budget.Extends`), so what a payout claimed once can be found later. And the automatic
reset, which most payouts run first, fails only where one of its own journal keys was taken by somebody
else (`Budget.ResetClear`). -/

namespace Prox

open List Option Table

attribute [local irreducible] trimSpace

/-! ## What stays in a budget -/

/-- Entries stay in the journal, pools and funds keep their rows. -/
structure Budget.Extends (b b' : Budget) : Prop where
  transactions : ∀ {k r}, b.transactions.byKey k = some r → b'.transactions.byKey k = some r
  pools : ∀ {k p}, b.pools.byKey k = some p → ∃ p', b'.pools.byKey k = some p' ∧ p'.id = p.id
  funds : ∀ {k a}, b.funds.byKey k = some a → ∃ a', b'.funds.byKey k = some a'

variable {budgetDate poolType remark requestID siteID : String}

namespace Budget.Extends

variable {A : Allowance} {booked : Prop} {b b' b'' : Budget}

theorem refl (b : Budget) : b.Extends b := ⟨id, fun h => ⟨_, h, rfl⟩, fun h => ⟨_, h⟩⟩

theorem trans (h : b.Extends b') (h' : b'.Extends b'') : b.Extends b'' where
  transactions hr := h'.transactions (h.transactions hr)
  pools hp := by
    obtain ⟨p', hp', hid⟩ := h.pools hp
    obtain ⟨p'', hp'', hid'⟩ := h'.pools hp'
    exact ⟨p'', hp'', hid'.trans hid⟩
  funds ha := by
    obtain ⟨a', ha'⟩ := h.funds ha
    exact h'.funds ha'

theorem of_move (h : BudgetMove A b b') : b.Extends b' := by
  cases h with
  | poolOpened hcreate =>
    exact { refl b with pools := fun hp => ⟨_, byKey_create_of_some hcreate hp, rfl⟩ }
  | fundOpened hcreate =>
    exact { refl b with funds := fun ha => ⟨_, byKey_create_of_some hcreate ha⟩ }
  | adjusted hp hcreate =>
    exact
      { transactions := byKey_create_of_some hcreate
        pools := exists_byKey_updateWhere
        funds := (refl b).funds }
  | raised =>
    exact
      { refl b with
        funds := fun ha => (exists_byKey_updateWhere ha).imp fun _ h => h.1 }

theorem of_prepared (h : Prepared A b b') : b.Extends b' :=
  h.keeps (I := b.Extends) (fun _ _ hb hmove => hb.trans (of_move hmove)) (refl b)

/-- An allowance that permits every preparation. -/
def anything : Allowance := ⟨fun _ _ => True, fun _ => True, fun _ => True⟩

theorem of_pool {totalQuota : Int}
    (h : ensureAgentBudgetPoolTx b siteID poolType budgetDate totalQuota = .ok b') : b.Extends b' :=
  of_prepared (ensureAgentBudgetPoolTx_prepared (A := anything) h trivial).1

theorem of_fund {fundType : String} {fund : OpsFundAccount}
    (h : ensureOpsFundAccountTx b siteID fundType = .ok (fund, b')) : b.Extends b' :=
  of_prepared (ensureOpsFundAccountTx_prepared (A := anything) h).1

theorem of_reset {env : RewardEnv}
    (h : ensureCurrentAgentDailyBudgetFundingTx env b siteID budgetDate = .ok b') : b.Extends b' :=
  of_prepared (ensureOpsDailyBudgetCapacityForDateTx_prepared h)

theorem of_fundMove {t : AgentBudgetTransaction} {f : Int} (h : FundMove booked b t f b') :
    ∀ {k a}, b.funds.byKey k = some a → ∃ a', b'.funds.byKey k = some a' := by
  intro k a ha
  have hset : ∀ id balance, ∃ a', (b.setFund id balance).funds.byKey k = some a' := fun _ _ =>
    (exists_byKey_updateWhere ha).imp fun _ h => h.1
  cases h with
  | untouched => exact ⟨a, ha⟩
  | entered => exact hset _ _
  | skipped => exact hset _ _

theorem of_payout {db db' : RewardDB} {t : AgentBudgetTransaction} {u f d : Int}
    (h : Payout booked db db' t u f d) : db.budget.Extends db'.budget where
  transactions := byKey_create_of_some h.claim
  pools hp := by
    rw [h.pools]
    exact exists_byKey_updateWhere hp
  funds ha := by
    obtain ⟨b, hmove, hfunds, -⟩ := h.fund
    rw [hfunds]
    exact of_fundMove hmove ha

/-- **Step lemma**: every operation extends the budget. -/
theorem of_step (db : RewardDB) (e : RewardEvent) : db.budget.Extends (db.step e).budget := by
  refine RewardDB.step_keeps (I := fun db' => db.budget.Extends db'.budget) False.elim
    (fun db₁ db₂ h hmove => h.trans ?_) (refl _)
  cases hmove with
  | prepared hmove => exact of_move hmove
  | paid hpayout => exact of_payout hpayout

end Budget.Extends

/-! ## When the daily reset succeeds -/

section Reset

variable {env : RewardEnv} {b b' : Budget}

/-- A daily restore can use its key: the key is free, or an earlier restore of the same pool has it. -/
def Budget.RestoreClear (b : Budget) (siteID poolType budgetDate key : String) : Prop :=
  ∀ r, b.transactions.byKey key = some r →
    (b.pools.byKey (siteID, poolType, budgetDate)).map AgentBudgetPool.id = some r.poolId ∧
      r.siteId = siteID ∧ r.poolType = poolType ∧ r.sourceType = "daily_budget_reset" ∧
      r.transactionType = "capacity_restore"

/-- A preparation writes journal entries under its own keys only. -/
theorem Prepared.transactions_byKey {A : Allowance} (h : Prepared A b b') {k : String}
    (hk : ¬ A.adjustKey k) : b'.transactions.byKey k = b.transactions.byKey k := by
  refine h.keeps (I := fun c => c.transactions.byKey k = b.transactions.byKey k)
    (fun c c' hc hmove => ?_) rfl
  cases hmove with
  | poolOpened => exact hc
  | fundOpened => exact hc
  | raised => exact hc
  | @adjusted p t transactions hp hcreate hadjusts hpool hkey =>
    have hne : Row.key t ≠ k := fun heq : t.idempotencyKey = k => hk (heq ▸ hkey)
    exact ((byKey_of_create hcreate k).trans (if_neg hne)).trans hc

/-- A preparation opens pools under its own keys only. -/
theorem Prepared.pools_id {A : Allowance} (h : Prepared A b b') {k : String × String × String}
    (hk : ∀ q, ¬ A.seed k q) :
    (b'.pools.byKey k).map AgentBudgetPool.id = (b.pools.byKey k).map AgentBudgetPool.id := by
  refine h.keeps (I := fun c =>
    (c.pools.byKey k).map AgentBudgetPool.id = (b.pools.byKey k).map AgentBudgetPool.id)
    (fun c c' hc hmove => ?_) rfl
  cases hmove with
  | fundOpened => exact hc
  | raised => exact hc
  | @poolOpened p pools hcreate hseed =>
    have hne : Row.key p ≠ k := by
      rintro rfl
      exact hk _ hseed
    rw [byKey_of_create hcreate, if_neg hne]
    exact hc
  | adjusted hp hcreate =>
    rw [← hc]
    show ((updateWhere _ _ _).1.byKey k).map _ = _
    rw [byKey_updateWhere, Option.map_map]
    refine congrArg (Option.map · _) (funext fun p => ?_)
    show AgentBudgetPool.id (if _ then _ else _) = _
    split <;> rfl

/-- Opening a fund account cannot fail. -/
theorem exists_ensureOpsFundAccountTx (b : Budget) (siteID fundType : String) :
    ∃ r, ensureOpsFundAccountTx b siteID fundType = .ok r := by
  obtain ⟨a, ha⟩ := exists_byKey_insertIgnore b.funds
    (r := { id := b.funds.nextId, siteId := trimSpace siteID,
            fundType := if trimSpace fundType = "" then "operations" else trimSpace fundType }) rfl
  refine ⟨(a, { b with funds := (b.funds.insertIgnore
    { id := b.funds.nextId, siteId := trimSpace siteID,
      fundType := if trimSpace fundType = "" then "operations" else trimSpace fundType }).1 }), ?_⟩
  unfold ensureOpsFundAccountTx
  dsimp only
  split
  · next hnone =>
    have := ha.symm.trans hnone
    cases this
  · next a' ha' =>
    obtain rfl : a = a' := mem_unique ha ha'
    rfl

/-- Raising the fund to a positive minimum under a key cannot fail. -/
theorem exists_ensureOpsFundMinimum {key : String} {minimum : Int} (hpos : 0 < minimum)
    (hkey : trimSpace key ≠ "") :
    ∃ r, ensureOpsFundMinimumWithSourceTx env b siteID minimum key remark "daily_fund_reset"
      = .ok r := by
  simp only [ensureOpsFundMinimumWithSourceTx, bind_eq_ok]
  have hsource : validBudgetRestoreSource "daily_fund_reset" = .ok "daily_fund_reset" := by
    decide +kernel
  cases hledger : b.ledger.byKey (trimSpace key) with
  | some l =>
    obtain ⟨r, hr⟩ := exists_ensureOpsFundAccountTx b (env.canonicalSiteID siteID) "operations"
    exact ⟨r, _, hsource, (), failIf_eq_ok.mpr (by simp [hkey, hpos]), hr⟩
  | none =>
    obtain ⟨⟨a, b₁⟩, hr⟩ :=
      exists_ensureOpsFundAccountTx b (env.canonicalSiteID siteID) "operations"
    have hlast := fun c => exists_ensureOpsFundAccountTx c (env.canonicalSiteID siteID) "operations"
    obtain ⟨r, hr'⟩ := hlast _
    exact ⟨r, _, hsource, (), failIf_eq_ok.mpr (by simp [hkey, hpos]), bind_eq_ok.mpr ⟨_, hr, hr'⟩⟩

/-- The pool types of the daily reset are concrete, known and trimmed. -/
theorem agentDailyBudgetPoolTypes_valid : ∀ poolType ∈ agentDailyBudgetPoolTypes,
    validOpsPoolType poolType = .ok () ∧ poolType ≠ "" ∧ trimSpace poolType = poolType := by
  decide +kernel

/-- A replayed restore succeeds exactly when the entry of the key is one of the same pool. -/
theorem replayBudgetPoolAdjustmentTx_eq_ok {replay : AgentBudgetTransaction} {source type : String}
    {target : Int} {pool : AgentBudgetPool} :
    replayBudgetPoolAdjustmentTx b replay siteID poolType budgetDate source type target false = .ok pool ↔
      b.pools.byKey (siteID, trimSpace poolType, budgetDate) = some pool ∧ replay.poolId = pool.id ∧
        replay.siteId = siteID ∧ replay.poolType = poolType ∧ replay.sourceType = source ∧
        replay.transactionType = type := by
  unfold replayBudgetPoolAdjustmentTx
  split
  · next hnone => simp [hnone]
  · next found hfound =>
    simp only [ok_iff, not_or, not_not, hfound, Option.some.injEq]
    constructor
    · rintro ⟨⟨hid, hsite, htype, hsource, htxn, -⟩, rfl⟩
      exact ⟨rfl, hid, hsite, htype, hsource, htxn⟩
    · rintro ⟨rfl, hid, hsite, htype, hsource, htxn⟩
      exact ⟨⟨hid, hsite, htype, hsource, htxn, by simp⟩, rfl⟩

/-- A daily restore succeeds exactly when it can use its key. -/
theorem restoreBudgetPoolCapacity_ok_iff {key : String} {target : Int}
    (hmem : poolType ∈ agentDailyBudgetPoolTypes) (hpos : 0 < target)
    (hdate : trimSpace budgetDate ≠ "") (hkey : trimSpace key ≠ "") :
    (∃ r, restoreBudgetPoolCapacityWithSourceTx env b siteID poolType budgetDate target key remark
        "daily_budget_reset" = .ok r) ↔
      b.RestoreClear (env.canonicalSiteID siteID) poolType (trimSpace budgetDate)
        (trimSpace key) := by
  obtain ⟨hvalid, hne, htrim⟩ := agentDailyBudgetPoolTypes_valid poolType hmem
  have hsource : validBudgetRestoreSource "daily_budget_reset" = .ok "daily_budget_reset" := by
    decide +kernel
  have hargs : ¬ (trimSpace budgetDate = "" ∨ target < 0 ∨ trimSpace key = "" ∨ target = 0) := by
    rintro (h | h | h | h)
    · exact hdate h
    · omega
    · exact hkey h
    · omega
  simp only [restoreBudgetPoolCapacityWithSourceTx, adjustBudgetPoolAvailableCapacityTx,
    exists_bind_eq_ok, failIf_eq_ok, exists_const, htrim, hvalid, hsource, true_and, Except.ok.injEq,
    exists_eq_left']
  constructor
  · rintro ⟨-, -, r, h⟩ replay hreplay
    simp only [hreplay] at h
    obtain ⟨pool, hpool, -⟩ := bind_eq_ok.mp h
    obtain ⟨hfound, hid, hrest⟩ := replayBudgetPoolAdjustmentTx_eq_ok.mp hpool
    rw [htrim] at hfound
    exact ⟨by rw [hfound, map_some, hid], hrest⟩
  · intro hclear
    refine ⟨hne, hargs, ?_⟩
    cases hreplay : b.transactions.byKey (trimSpace key) with
    | some replay =>
      obtain ⟨hid, hrest⟩ := hclear replay hreplay
      obtain ⟨pool, hfound, hid⟩ := map_eq_some_iff.mp hid
      exact ⟨(pool, b), bind_eq_ok.mpr ⟨pool,
        replayBudgetPoolAdjustmentTx_eq_ok.mpr ⟨htrim.symm ▸ hfound, hid.symm, hrest⟩, rfl⟩⟩
    | none =>
      -- the pool is there or created, and the journal takes the entry
      obtain ⟨p, hp⟩ := exists_byKey_insertIgnore b.pools
        (r := { id := b.pools.nextId, siteId := env.canonicalSiteID siteID, poolType,
                budgetDate := trimSpace budgetDate, totalQuota := target }) rfl
      simp only [exists_bind_eq_ok, lockAgentBudgetPoolTx_eq_ok, htrim, Bool.false_eq_true, if_false]
      refine ⟨p, hp, ?_⟩
      generalize (if target - p.available < 0 then 0 else target - p.available) = increase
      rcases insertIgnore_cases b.transactions
          { id := b.transactions.nextId, siteId := p.siteId, poolId := p.id, poolType := p.poolType,
            sourceType := "daily_budget_reset", transactionType := "capacity_restore",
            quota := increase, balanceAfter := p.available + increase,
            idempotencyKey := trimSpace key, remark := trimSpace remark }
        with ⟨hnone, -⟩ | ⟨transactions, -, heq⟩
      · obtain ⟨x, hx⟩ := (create_eq_none rfl).mp hnone
        have hfree := hreplay.symm.trans hx
        cases hfree
      · rw [heq, if_neg Nat.one_ne_zero]
        simp only [exists_bind_eq_ok, lockAgentBudgetPoolTx_eq_ok, htrim]
        by_cases hzero : increase = 0
        · rw [if_neg (not_not.mpr hzero)]
          exact ⟨p, hp, _, rfl⟩
        · rw [if_pos hzero]
          obtain ⟨p', hp', -⟩ := exists_byKey_updateWhere hp
          exact ⟨p', hp', _, rfl⟩

/-- The journal key under which the daily reset restores a pool. -/
def poolResetKey (requestID poolType : String) : String :=
  trimSpace (requestID ++ ":pool:" ++ poolType)

/-- A trimmed request id is extended to the key as it is. -/
theorem poolResetKey_eq (htrim : trimSpace requestID = requestID) (hne : requestID ≠ "")
    (hmem : poolType ∈ agentDailyBudgetPoolTypes) :
    poolResetKey requestID poolType = requestID ++ (":pool:" ++ poolType) := by
  have hsuffix : ∀ t ∈ agentDailyBudgetPoolTypes,
      trimSpace (":pool:" ++ t) = ":pool:" ++ t ∧ ":pool:" ++ t ≠ "" := by
    decide +kernel
  obtain ⟨hs, hs'⟩ := hsuffix poolType hmem
  rw [poolResetKey, String.append_assoc, trimSpace_append htrim hs hne hs']

theorem poolResetKey_ne_empty (htrim : trimSpace requestID = requestID) (hne : requestID ≠ "")
    (hmem : poolType ∈ agentDailyBudgetPoolTypes) : poolResetKey requestID poolType ≠ "" := by
  rw [poolResetKey_eq htrim hne hmem, ne_eq, String.append_eq_empty_iff]
  exact fun h => hne h.1

/-- Different pools are reset under different keys. -/
theorem poolResetKey_inj {poolType' : String} (htrim : trimSpace requestID = requestID)
    (hne : requestID ≠ "") (hmem : poolType ∈ agentDailyBudgetPoolTypes)
    (hmem' : poolType' ∈ agentDailyBudgetPoolTypes)
    (h : poolResetKey requestID poolType = poolResetKey requestID poolType') :
    poolType = poolType' := by
  rw [poolResetKey_eq htrim hne hmem, poolResetKey_eq htrim hne hmem', String.append_right_inj,
    String.append_right_inj] at h
  exact h

/-- What a daily restore may do: seed its pool, adjust it under its key. -/
def restoreAllowance (pool : String × String × String) (key : String) : Allowance where
  seed k _ := k = pool
  adjustKey k := k = key
  raiseKey _ := False

/-- A daily restore leaves the keys of the other ones alone. -/
theorem restoreClear_congr {poolType' : String} {target : Int} {pool : AgentBudgetPool}
    (htrim : trimSpace requestID = requestID) (hne : requestID ≠ "")
    (hmem : poolType ∈ agentDailyBudgetPoolTypes) (hmem' : poolType' ∈ agentDailyBudgetPoolTypes)
    (hdiff : poolType' ≠ poolType)
    (h : restoreBudgetPoolCapacityWithSourceTx env b siteID poolType budgetDate target
      (requestID ++ ":pool:" ++ poolType) remark "daily_budget_reset" = .ok (pool, b')) :
    b'.RestoreClear (env.canonicalSiteID siteID) poolType' (trimSpace budgetDate)
        (poolResetKey requestID poolType') ↔
      b.RestoreClear (env.canonicalSiteID siteID) poolType' (trimSpace budgetDate)
        (poolResetKey requestID poolType') := by
  have htype := (agentDailyBudgetPoolTypes_valid poolType hmem).2.2
  have hprepared := (adjustBudgetPoolAvailableCapacityTx_prepared
    (A := restoreAllowance (env.canonicalSiteID siteID, trimSpace poolType, trimSpace budgetDate)
      (poolResetKey requestID poolType)) h (fun _ => rfl) rfl).1
  unfold Budget.RestoreClear
  rw [hprepared.transactions_byKey fun heq => hdiff (poolResetKey_inj htrim hne hmem' hmem heq),
    hprepared.pools_id fun _ heq => hdiff ?_]
  have hpool : (env.canonicalSiteID siteID, poolType', trimSpace budgetDate)
      = (env.canonicalSiteID siteID, trimSpace poolType, trimSpace budgetDate) := heq
  rw [htype] at hpool
  simpa using hpool

/-- The loop of the daily reset succeeds exactly when each restore can use its key. -/
theorem restoreDailyPoolsTx_ok_iff {poolTypes : List String}
    (hsub : ∀ t ∈ poolTypes, t ∈ agentDailyBudgetPoolTypes) (hnodup : poolTypes.Nodup)
    (htrim : trimSpace requestID = requestID) (hne : requestID ≠ "")
    (hdate : trimSpace budgetDate ≠ "") :
    (∃ b', restoreDailyPoolsTx env siteID budgetDate requestID remark poolTypes b = .ok b') ↔
      ∀ t ∈ poolTypes, 0 < currentAgentPoolQuota env t →
        b.RestoreClear (env.canonicalSiteID siteID) t (trimSpace budgetDate)
          (poolResetKey requestID t) := by
  induction poolTypes generalizing b with
  | nil => simp [restoreDailyPoolsTx, pure_eq_ok]
  | cons t ts ih =>
    obtain ⟨hmem, hsub⟩ := forall_mem_cons.mp hsub
    obtain ⟨hnot, hnodup⟩ := nodup_cons.mp hnodup
    rw [restoreDailyPoolsTx, forall_mem_cons]
    split
    · next hle => rw [ih hsub hnodup, and_iff_right fun hpos => absurd hpos (by omega)]
    · next hpos =>
      have hpos : 0 < currentAgentPoolQuota env t := by omega
      have hfirst : (∃ r, restoreBudgetPoolCapacityWithSourceTx env b siteID t budgetDate
          (currentAgentPoolQuota env t) (requestID ++ ":pool:" ++ t) remark "daily_budget_reset"
          = .ok r) ↔ b.RestoreClear (env.canonicalSiteID siteID) t (trimSpace budgetDate)
            (poolResetKey requestID t) :=
        restoreBudgetPoolCapacity_ok_iff hmem hpos hdate (poolResetKey_ne_empty htrim hne hmem)
      rw [exists_bind_eq_ok, imp_iff_right hpos, ← hfirst]
      -- the other restores see the same keys before and after this one
      have hrest : ∀ {pool b'}, restoreBudgetPoolCapacityWithSourceTx env b siteID t budgetDate
          (currentAgentPoolQuota env t) (requestID ++ ":pool:" ++ t) remark "daily_budget_reset"
          = .ok (pool, b') →
          ((∃ b'', restoreDailyPoolsTx env siteID budgetDate requestID remark ts b' = .ok b'') ↔
            ∀ t ∈ ts, 0 < currentAgentPoolQuota env t →
              b.RestoreClear (env.canonicalSiteID siteID) t (trimSpace budgetDate)
                (poolResetKey requestID t)) := fun h =>
        (ih hsub hnodup).trans (forall₂_congr fun t' ht' => imp_congr_right fun _ =>
          restoreClear_congr htrim hne hmem (hsub t' ht') (fun heq => hnot (heq ▸ ht')) h)
      constructor
      · rintro ⟨⟨pool, b'⟩, hok, hts⟩
        exact ⟨⟨_, hok⟩, (hrest hok).mp hts⟩
      · rintro ⟨⟨⟨pool, b'⟩, hok⟩, hts⟩
        exact ⟨(pool, b'), hok, (hrest hok).mpr hts⟩

/-- The request id of an automatic reset is not blank. -/
theorem agentDailyBudgetResetRequestID_ne_empty (env : RewardEnv) (siteID budgetDate : String) :
    trimSpace (agentDailyBudgetResetRequestID env siteID budgetDate) ≠ "" := by
  have hlist : 'd' ∈ ("daily-budget-reset:" ++ env.canonicalSiteID siteID ++ ":"
      ++ trimSpace budgetDate).toList := by
    simp
  have hkey := trimSpace_ne_empty hlist (by decide)
  unfold agentDailyBudgetResetRequestID stableQuotaReplaySettlementID
  rw [if_neg hkey]
  split
  · rwa [trimSpace_trimSpace]
  · exact trimSpace_ne_empty (c := '-') (by simp) (by decide)

/-- The automatic reset of a site can use its journal keys. -/
def Budget.ResetClear (b : Budget) (env : RewardEnv) (siteID : String) : Prop :=
  env.setting.budgetEnabled = true → env.setting.dailyBudgetResetEnabled = true →
    ∀ poolType ∈ agentDailyBudgetPoolTypes, 0 < currentAgentPoolQuota env poolType →
      b.RestoreClear (env.canonicalSiteID (env.canonicalSiteID siteID)) poolType
        (trimSpace env.budgetDate)
        (poolResetKey (trimSpace (agentDailyBudgetResetRequestID env siteID env.budgetDate)) poolType)

/-- The fund part of a reset cannot fail. -/
theorem exists_fund_part (siteID : String) (c : Budget) : ∃ b',
    (if env.setting.dailyFundResetEnabled = true ∧ 0 < configuredOpsFundDailyTarget env then do
      let (_, b) ← ensureOpsFundMinimumWithSourceTx env c (env.canonicalSiteID siteID)
        (configuredOpsFundDailyTarget env)
        (trimSpace (agentDailyBudgetResetRequestID env siteID env.budgetDate) ++ ":fund")
        "automatic daily reward budget reset" "daily_fund_reset"
      return b
    else return c : Except Err Budget) = .ok b' := by
  split
  · next hmin =>
    obtain ⟨r, hr⟩ : ∃ r, ensureOpsFundMinimumWithSourceTx env c (env.canonicalSiteID siteID)
        (configuredOpsFundDailyTarget env)
        (trimSpace (agentDailyBudgetResetRequestID env siteID env.budgetDate) ++ ":fund")
        "automatic daily reward budget reset" "daily_fund_reset" = .ok r :=
      exists_ensureOpsFundMinimum hmin.2
        (trimSpace_ne_empty (c := ':') (by simp) (by decide))
    exact ⟨r.2, bind_eq_ok.mpr ⟨r, hr, rfl⟩⟩
  · exact ⟨c, rfl⟩

/-- **The automatic reset succeeds exactly when it can use its keys**, on a date that is not blank. -/
theorem ensureCurrentAgentDailyBudgetFundingTx_ok_iff :
    (∃ b', ensureCurrentAgentDailyBudgetFundingTx env b siteID env.budgetDate = .ok b') ↔
      trimSpace env.budgetDate ≠ "" ∧ b.ResetClear env siteID := by
  have hid := agentDailyBudgetResetRequestID_ne_empty env siteID env.budgetDate
  unfold Budget.ResetClear
  simp only [ensureCurrentAgentDailyBudgetFundingTx, ensureOpsDailyBudgetCapacityForDateTx,
    exists_bind_eq_ok, failIf_eq_ok, exists_const, not_or, hid, not_false_eq_true, and_true]
  refine and_congr_right fun hdate => ?_
  split
  · next hoff =>
    refine iff_of_true ⟨b, rfl⟩ fun hon hreset => ?_
    rcases hoff with hoff | ⟨hoff, -⟩
    · cases hon.symm.trans hoff
    · cases hreset.symm.trans hoff
  · next hon =>
    have henabled : env.setting.budgetEnabled = true := by
      by_contra h
      exact hon (.inl (by simpa using h))
    rw [imp_iff_right henabled, exists_bind_eq_ok]
    simp only [exists_fund_part siteID, and_true]
    by_cases hreset : env.setting.dailyBudgetResetEnabled = true
    · rw [imp_iff_right hreset]
      simp only [hreset, if_true]
      rw [restoreDailyPoolsTx_ok_iff (fun _ ht => ht) (by decide) (trimSpace_trimSpace _) hid
        (by rwa [trimSpace_trimSpace]), trimSpace_trimSpace]
    · exact iff_of_true ⟨b, by rw [if_neg hreset]; rfl⟩ fun h => absurd h hreset

end Reset

end Prox
