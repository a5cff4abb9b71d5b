import Prox.Reward.Reset

/-! # Replayed payouts

What a payout call does when its key was claimed before. The first half of every payout is the same: it
makes sure of the daily reset, of the pool of the day and of the fund, and claims its key.
`PayoutClaim` is that half with its parameters, and `Follows` says how a payout continues it. A replay
compares the pool row of the current day with the one of the claim, so that it succeeds on the same
business date only; on that date it changes nothing beyond what the daily reset does. -/

namespace Prox

open RewardCall Table

attribute [local irreducible] trimSpace

/-! ## Claims of payouts -/

/-- The first half of a payout: what it checks, what it prepares and which entry it claims. -/
structure PayoutClaim where
  args : Except Err String
  resets : Bool
  opensFund : Bool
  siteID : String
  poolType : String
  totalQuota : Int
  balanceAfter : AgentBudgetPool → Int
  userId : Int
  actionId : Int
  sourceType : String
  transactionType : String
  quota : Int
  settlementId : String
  mutationIndex : Int
  idempotencyKey : String
  remark : String
  metadataJson : String

namespace PayoutClaim

/-- The entry that is claimed in a pool. -/
def entry (q : PayoutClaim) (id : Int) (pool : AgentBudgetPool) : AgentBudgetTransaction where
  id
  siteId := pool.siteId
  poolId := pool.id
  poolType := pool.poolType
  userId := q.userId
  actionId := q.actionId
  sourceType := q.sourceType
  transactionType := q.transactionType
  quota := q.quota
  balanceAfter := q.balanceAfter pool
  settlementId := q.settlementId
  mutationIndex := q.mutationIndex
  idempotencyKey := q.idempotencyKey
  remark := q.remark
  metadataJson := q.metadataJson

/-- The daily reset that goes before the claim. -/
def reset (env : RewardEnv) (q : PayoutClaim) (b : Budget) : Except Err Budget :=
  if q.resets then ensureCurrentAgentDailyBudgetFundingTx env b q.siteID env.budgetDate else pure b

/-- The first half of a payout. -/
def claim (env : RewardEnv) (q : PayoutClaim) (b : Budget) : Except Err (Bool × Budget) := do
  let _ ← q.args
  let b ← q.reset env b
  let b ← ensureAgentBudgetPoolTx b q.siteID q.poolType env.budgetDate q.totalQuota
  let pool ← lockAgentBudgetPoolTx b q.siteID q.poolType env.budgetDate
  let b ← (if q.opensFund then do
      let (_, b) ← ensureOpsFundAccountTx b q.siteID "operations"
      return b
    else pure b)
  claimAgentBudgetTransactionTx b (q.entry b.transactions.nextId pool)

end PayoutClaim

/-- The site of a payout: the configured one, or the one of the call. -/
def RewardCall.site (env : RewardEnv) : RewardCall → String
  | .grant .. | .reserve .. | .consumeReserved .. => env.canonicalSiteID env.setting.siteID
  | .mutate siteID .. => siteID
  | .settleBatch siteID .. => siteID

/-- The claim of a payout; a batch has one for each of its mutations. -/
def RewardCall.claim? (env : RewardEnv) (c : RewardCall) : Option PayoutClaim :=
  match c with
  | .grant userId poolType quota idempotencyKey remark sourceType metadataJson =>
    let fields := quotaReplayFieldsFromMetadata env (trimSpace idempotencyKey) metadataJson 0
    some
      { args := rewardArguments userId quota idempotencyKey
        resets := true
        opensFund := true
        siteID := c.site env
        poolType
        totalQuota := (currentAgentBudgetPoolMeta env poolType).2.2
        balanceAfter := fun pool => pool.available - quota
        userId
        actionId := fields.2.2
        sourceType := if trimSpace sourceType = "" then "reward_grant" else trimSpace sourceType
        transactionType := "grant"
        quota
        settlementId := fields.1
        mutationIndex := fields.2.1
        idempotencyKey := trimSpace idempotencyKey
        remark := trimSpace remark
        metadataJson := trimSpace metadataJson }
  | .reserve userId poolType quota idempotencyKey remark sourceType =>
    let fields := quotaReplayFieldsFromMetadata env (trimSpace idempotencyKey) "" 0
    some
      { args := rewardArguments userId quota idempotencyKey
        resets := true
        opensFund := false
        siteID := c.site env
        poolType
        totalQuota := (currentAgentBudgetPoolMeta env poolType).2.2
        balanceAfter := fun pool => pool.available - quota
        userId
        actionId := fields.2.2
        sourceType := if trimSpace sourceType = "" then "reserve" else trimSpace sourceType
        transactionType := "reserve"
        quota
        settlementId := fields.1
        mutationIndex := fields.2.1
        idempotencyKey := trimSpace idempotencyKey
        remark := trimSpace remark
        metadataJson := "" }
  | .consumeReserved userId poolType quota idempotencyKey remark =>
    let fields := quotaReplayFieldsFromMetadata env (trimSpace idempotencyKey) "" 0
    some
      { args := rewardArguments userId quota idempotencyKey
        resets := false
        opensFund := false
        siteID := c.site env
        poolType
        totalQuota := (currentAgentBudgetPoolMeta env poolType).2.2
        balanceAfter := fun pool => pool.available
        userId
        actionId := fields.2.2
        sourceType := "consume_frozen"
        transactionType := "consume_frozen"
        quota
        settlementId := fields.1
        mutationIndex := fields.2.1
        idempotencyKey := trimSpace idempotencyKey
        remark := trimSpace remark
        metadataJson := "" }
  | .mutate siteID userID delta poolType sourceType idempotencyKey remark actionID settlementID
      mutationIndex metadataJson =>
    some
      { args := do
          failIf (userID ≤ 0) (.text "user id is empty")
          failIf (delta = 0) (.text "delta must be non-zero")
          validOpsPoolType poolType
          failIf (trimSpace idempotencyKey = "") (.text "idempotency key is empty")
          return trimSpace idempotencyKey
        resets := decide (0 < delta)
        opensFund := true
        siteID
        poolType := trimSpace poolType
        totalQuota := (currentAgentBudgetPoolMeta env (trimSpace poolType)).2.2
        balanceAfter := fun pool => if 0 < delta then pool.available - delta else pool.available
        userId := userID
        actionId := actionID
        sourceType :=
          if trimSpace sourceType = "" then (if delta < 0 then "game_stake" else "reward_grant")
          else trimSpace sourceType
        transactionType := if 0 < delta then "grant" else "charge"
        quota := delta
        settlementId := cutSettlementID
          (if trimSpace settlementID = "" then
            stableQuotaReplaySettlementID env (trimSpace idempotencyKey)
          else trimSpace settlementID)
        mutationIndex := if mutationIndex < 0 then 0 else mutationIndex
        idempotencyKey := trimSpace idempotencyKey
        remark := trimSpace remark
        metadataJson := trimSpace metadataJson }
  | .settleBatch .. => none

/-! ## Payouts follow their claims -/

/-- A transaction follows a claim: it fails with it, it leaves what the claim left when the key was
taken, and it extends that otherwise. -/
def Follows (db : RewardDB) : Except Err (Bool × Budget) → Except Err (Unit × RewardDB) → Prop
  | .error e, r => r = .error e
  | .ok (false, b), r => r = .ok ((), { db with budget := b })
  | .ok (true, b), r => ∀ db', r = .ok ((), db') → b.Extends db'.budget

variable {claimed : Bool}

namespace Follows

variable {α : Type} {db : RewardDB}

/-- A step that both make first. -/
theorem bind {m : Except Err α} {f : α → Except Err (Bool × Budget)}
    {g : α → Except Err (Unit × RewardDB)} (h : ∀ a, m = .ok a → Follows db (f a) (g a)) :
    Follows db (m >>= f) (m >>= g) := by
  cases m with
  | error e => rfl
  | ok a => exact h a rfl

/-- The claim and what depends on it. -/
theorem of_claim {m : Except Err (Bool × Budget)} {g : Bool × Budget → Except Err (Unit × RewardDB)}
    (hfalse : ∀ b, g (false, b) = .ok ((), { db with budget := b }))
    (htrue : ∀ b db', g (true, b) = .ok ((), db') → b.Extends db'.budget) :
    Follows db m (m >>= g) := by
  cases m with
  | error e => rfl
  | ok r =>
    obtain ⟨claimed, b⟩ := r
    cases claimed with
    | false => exact hfalse b
    | true => exact fun db' => htrue b db'

/-- A payout that succeeds made its claim. -/
theorem exists_claim {m : Except Err (Bool × Budget)} {r : Unit × RewardDB}
    (h : Follows db m (.ok r)) : ∃ a, m = .ok a := by
  cases m with
  | error e => cases h
  | ok a => exact ⟨a, rfl⟩

/-- What a payout leaves extends what its claim left. -/
theorem extends_claim {b : Budget} {db' : RewardDB}
    (h : Follows db (.ok (claimed, b)) (.ok ((), db'))) : b.Extends db'.budget := by
  cases claimed with
  | true => exact h db' rfl
  | false =>
    have hdb : db' = { db with budget := b } := congrArg Prod.snd (Except.ok.inj h)
    rw [hdb]
    exact .refl b

end Follows

section Calls

variable {env : RewardEnv}

/-- Accepted arguments return the trimmed key. -/
theorem rewardArguments_eq_ok {userId quota : Int} {idempotencyKey key : String}
    (h : rewardArguments userId quota idempotencyKey = .ok key) : key = trimSpace idempotencyKey := by
  simp only [rewardArguments, bind_eq_ok, pure_eq_ok] at h
  obtain ⟨_, -, _, -, _, -, h⟩ := h
  exact h.symm

/-- Updates of pools and funds extend a budget. -/
theorem Budget.Extends.of_updates {b b' : Budget} (htransactions : b'.transactions = b.transactions)
    (hpools : b'.pools = b.pools ∨ ∃ id f, b'.pools = (b.updatePool id f).pools)
    (hfunds : b'.funds = b.funds ∨ ∃ id balance, b'.funds = (b.setFund id balance).funds) :
    b.Extends b' where
  transactions := by
    rw [htransactions]
    exact fun h => h
  pools hp := by
    rcases hpools with h | ⟨id, f, h⟩ <;> rw [h]
    · exact ⟨_, hp, rfl⟩
    · exact exists_byKey_updateWhere hp
  funds ha := by
    rcases hfunds with h | ⟨id, balance, h⟩ <;> rw [h]
    · exact ⟨_, ha⟩
    · exact (exists_byKey_updateWhere ha).imp fun _ h => h.1

/-- **A payout is its claim, and what follows from it.** -/
theorem RewardCall.follows {c : RewardCall} {q : PayoutClaim} (hq : c.claim? env = some q)
    (db : RewardDB) : Follows db (q.claim env db.budget) (c.tx env db) := by
  cases c with
  | grant userId poolType quota idempotencyKey remark sourceType metadataJson =>
    simp only [claim?, Option.some.injEq] at hq
    subst hq
    simp only [RewardCall.tx, grantQuotaFromBudgetPoolWithSourceTx, PayoutClaim.claim,
      PayoutClaim.reset, site, bind_assoc, pure_bind, if_true]
    refine .bind fun key hkey => ?_
    obtain rfl := rewardArguments_eq_ok hkey
    refine .bind fun b₁ _ => .bind fun b₂ _ => .bind fun pool _ => .bind fun opened _ => ?_
    obtain ⟨fund, b₃⟩ := opened
    generalize quotaReplayFieldsFromMetadata env (trimSpace idempotencyKey) metadataJson 0 = fields
    obtain ⟨settlementId, mutationIndex, actionId⟩ := fields
    dsimp only [PayoutClaim.entry]
    refine .of_claim (fun b => if_pos rfl) fun b db' h => ?_
    rw [if_neg (by simp)] at h
    simp only [ok_iff, Prod.exists, Prod.mk.injEq, true_and] at h
    obtain ⟨-, -, applied, wallet, -, rfl⟩ := h
    exact .of_updates rfl (.inr ⟨_, _, rfl⟩) (.inr ⟨_, _, rfl⟩)
  | reserve userId poolType quota idempotencyKey remark sourceType =>
    simp only [claim?, Option.some.injEq] at hq
    subst hq
    simp only [RewardCall.tx, reserveRewardTx, reserveQuotaFromBudgetPoolWithSourceTx,
      PayoutClaim.claim, PayoutClaim.reset, site, currentAgentBudgetPoolMeta, bind_assoc,
      pure_bind, if_true, Bool.false_eq_true, if_false]
    refine .bind fun key hkey => ?_
    obtain rfl := rewardArguments_eq_ok hkey
    refine .bind fun b₁ _ => .bind fun b₂ _ => .bind fun pool _ => ?_
    generalize quotaReplayFieldsFromMetadata env (trimSpace idempotencyKey) "" 0 = fields
    obtain ⟨settlementId, mutationIndex, actionId⟩ := fields
    dsimp only [PayoutClaim.entry]
    refine .of_claim (fun b => ?_) fun b db' h => ?_
    · rw [if_pos rfl]
      rfl
    rw [if_neg (by simp)] at h
    simp only [ok_iff, Prod.exists, Prod.mk.injEq, true_and] at h
    obtain ⟨_, ⟨-, fund, b₄, hfund, -, rfl⟩, rfl⟩ := h
    have hfrozen : b.Extends (b.updatePool pool.id (AgentBudgetPool.addFrozen quota)) :=
      .of_updates rfl (.inr ⟨_, _, rfl⟩) (.inl rfl)
    exact (hfrozen.trans (.of_fund hfund)).trans (.of_updates rfl (.inl rfl) (.inr ⟨_, _, rfl⟩))
  | consumeReserved userId poolType quota idempotencyKey remark =>
    simp only [claim?, Option.some.injEq] at hq
    subst hq
    simp only [RewardCall.tx, consumeReservedQuotaFromBudgetPoolTx, PayoutClaim.claim,
      PayoutClaim.reset, site, currentAgentBudgetPoolMeta, pure_bind,
      Bool.false_eq_true, if_false]
    refine .bind fun key hkey => ?_
    obtain rfl := rewardArguments_eq_ok hkey
    refine .bind fun b₁ _ => .bind fun pool _ => ?_
    generalize quotaReplayFieldsFromMetadata env (trimSpace idempotencyKey) "" 0 = fields
    obtain ⟨settlementId, mutationIndex, actionId⟩ := fields
    dsimp only [PayoutClaim.entry]
    refine .of_claim (fun b => if_pos rfl) fun b db' h => ?_
    rw [if_neg (by simp)] at h
    simp only [ok_iff, Prod.exists, Prod.mk.injEq, true_and] at h
    obtain ⟨-, -, applied, wallet, -, rfl⟩ := h
    -- the guarded update of a locked pool
    exact
      { transactions := fun h => h
        pools := exists_byKey_updateWhere
        funds := fun ha => ⟨_, ha⟩ }
  | mutate siteID userID delta poolType sourceType idempotencyKey remark actionID settlementID
      mutationIndex metadataJson =>
    simp only [claim?, Option.some.injEq] at hq
    subst hq
    simp only [RewardCall.tx, applyQuotaMutationTx, PayoutClaim.claim, PayoutClaim.reset,
      currentAgentBudgetPoolMeta, bind_assoc, pure_bind, if_true, decide_eq_true_eq]
    refine .bind fun _ _ => .bind fun _ _ => .bind fun _ _ => .bind fun _ _ => .bind fun b₁ _ =>
      .bind fun b₂ _ => .bind fun pool _ => .bind fun opened _ => ?_
    obtain ⟨fund, b₃⟩ := opened
    dsimp only [PayoutClaim.entry]
    refine .of_claim (fun b => if_pos rfl) fun b db' h => ?_
    rw [if_neg (by simp)] at h
    rcases ite_eq_iff.mp h with ⟨-, h⟩ | ⟨-, h⟩
    · cases h
      exact .of_updates rfl (.inl rfl) (.inl rfl)
    · simp only [ok_iff, Prod.exists, Prod.mk.injEq, true_and] at h
      obtain ⟨-, -, applied, wallet, -, rfl⟩ := h
      by_cases hpos : 0 < delta
      · simp only [if_pos hpos]
        exact .of_updates rfl (.inr ⟨_, _, rfl⟩) (.inr ⟨_, _, rfl⟩)
      · simp only [if_neg hpos]
        exact .of_updates rfl (.inl rfl) (.inr ⟨_, _, rfl⟩)
  | settleBatch => cases hq

end Calls

/-! ## The traces of a claim -/

variable {siteID : String} {totalQuota : Int}

section Traces

variable {env env' : RewardEnv} {b b' : Budget}

/-- A pool that is made sure of is there. -/
theorem ensureAgentBudgetPoolTx_opened {poolType budgetDate : String}
    (h : ensureAgentBudgetPoolTx b siteID poolType budgetDate totalQuota = .ok b') :
    ∃ p, b'.pools.byKey (poolKey siteID poolType budgetDate) = some p := by
  simp only [ensureAgentBudgetPoolTx] at h
  split at h
  · cases h
  · next p hp =>
    cases h
    exact ⟨p, hp⟩

/-- A pool that is there is not created. -/
theorem ensureAgentBudgetPoolTx_of_opened {poolType budgetDate : String} (totalQuota : Int)
    {p : AgentBudgetPool} (hp : b.pools.byKey (poolKey siteID poolType budgetDate) = some p) :
    ensureAgentBudgetPoolTx b siteID poolType budgetDate totalQuota = .ok b := by
  have hinsert := insertIgnore_of_byKey (t := b.pools)
    (r := { id := b.pools.nextId, siteId := trimSpace siteID,
            poolType := if trimSpace poolType = "" then "daily" else trimSpace poolType,
            budgetDate := trimSpace budgetDate, totalQuota }) hp
  simp only [ensureAgentBudgetPoolTx]
  rw [hinsert]
  unfold poolKey at hp
  simp only [hp]
  rfl

/-- A fund that is opened is there. -/
theorem ensureOpsFundAccountTx_found {fund : OpsFundAccount}
    (h : ensureOpsFundAccountTx b siteID "operations" = .ok (fund, b')) :
    b'.funds.byKey (trimSpace siteID, "operations") = some fund := by
  have htype : (if trimSpace "operations" = "" then "operations" else trimSpace "operations")
      = "operations" := by decide +kernel
  simp only [ensureOpsFundAccountTx, htype] at h
  split at h
  · cases h
  · next hfound =>
    cases h
    exact hfound

/-- A fund that is there is not created. -/
theorem ensureOpsFundAccountTx_of_found {fund : OpsFundAccount}
    (h : b.funds.byKey (trimSpace siteID, "operations") = some fund) :
    ensureOpsFundAccountTx b siteID "operations" = .ok (fund, b) := by
  have htype : (if trimSpace "operations" = "" then "operations" else trimSpace "operations")
      = "operations" := by decide +kernel
  have hinsert := insertIgnore_of_byKey (t := b.funds)
    (r := { id := b.funds.nextId, siteId := trimSpace siteID, fundType := "operations" }) h
  simp only [ensureOpsFundAccountTx, htype]
  rw [hinsert]
  simp only [h]
  rfl

/-- Claiming a matching entry again claims nothing. -/
theorem claimAgentBudgetTransactionTx_again {t r : AgentBudgetTransaction}
    (hid : t.id = b.transactions.nextId) (hr : b.transactions.byKey t.idempotencyKey = some r)
    (h : r.Matches t) : claimAgentBudgetTransactionTx b t = .ok (false, b) := by
  have hrefused : b.transactions.create t = none := (create_eq_none hid).mpr ⟨r, hr⟩
  unfold claimAgentBudgetTransactionTx
  rw [hrefused, hr]
  refine bind_eq_ok.mpr ⟨(), failIf_eq_ok.mpr ?_, rfl⟩
  simp only [not_or, not_not]
  exact ⟨h.siteId, h.poolId, h.poolType, h.userId, h.actionId, h.sourceType, h.transactionType, h.quota,
    h.settlementId, h.mutationIndex⟩

namespace PayoutClaim

/-- What a claimed payout leaves behind: its pool, its fund and its entry. -/
structure Applied (env : RewardEnv) (q : PayoutClaim) (b : Budget) : Prop where
  args : ∃ key, q.args = .ok key
  date : q.resets = true → trimSpace env.budgetDate ≠ ""
  opened : ∃ p, b.pools.byKey (poolKey q.siteID q.poolType env.budgetDate) = some p
  fund : q.opensFund = true → ∃ a, b.funds.byKey (trimSpace q.siteID, "operations") = some a
  entry : ∃ pool r, b.pools.byKey (q.siteID, trimSpace q.poolType, env.budgetDate) = some pool ∧
    b.transactions.byKey q.idempotencyKey = some r ∧ r.Matches (q.entry 0 pool)

variable {q : PayoutClaim}

/-- Entries of one pool row match the same entries. -/
theorem matches_entry {r : AgentBudgetTransaction} {i j : Int} {p p' : AgentBudgetPool}
    (h : r.Matches (q.entry i p)) (hid : p'.id = p.id) (hkey : Row.key p' = Row.key p) :
    r.Matches (q.entry j p') := by
  obtain ⟨hsite, htype, -⟩ : p'.siteId = p.siteId ∧ p'.poolType = p.poolType ∧ _ := by
    simpa only [Row.key, Prod.mk.injEq] using hkey
  exact
    { h with
      siteId := h.siteId.trans hsite.symm
      poolId := h.poolId.trans hid.symm
      poolType := h.poolType.trans htype.symm }

/-- The traces stay. -/
theorem Applied.extends (h : q.Applied env b) (hext : b.Extends b') : q.Applied env b' where
  args := h.args
  date := h.date
  opened := by
    obtain ⟨p, hp⟩ := h.opened
    exact (hext.pools hp).imp fun _ h => h.1
  fund hf := by
    obtain ⟨a, ha⟩ := h.fund hf
    exact hext.funds ha
  entry := by
    obtain ⟨pool, r, hpool, hr, hmatches⟩ := h.entry
    obtain ⟨pool', hpool', hid⟩ := hext.pools hpool
    refine ⟨pool', r, hpool', hext.transactions hr, matches_entry hmatches hid ?_⟩
    rw [(byKey_eq_some.mp hpool').2, (byKey_eq_some.mp hpool).2]

/-- The steps of a claim that succeeds. -/
theorem claim_eq_ok (h : q.claim env b = .ok (claimed, b')) :
    (∃ key, q.args = .ok key) ∧ ∃ b₁ b₂ b₃ pool, q.reset env b = .ok b₁ ∧
      ensureAgentBudgetPoolTx b₁ q.siteID q.poolType env.budgetDate q.totalQuota = .ok b₂ ∧
      b₂.pools.byKey (q.siteID, trimSpace q.poolType, env.budgetDate) = some pool ∧
      b₂.Extends b₃ ∧ b₃.pools = b₂.pools ∧
      (q.opensFund = true → ∃ a, b₃.funds.byKey (trimSpace q.siteID, "operations") = some a) ∧
      claimAgentBudgetTransactionTx b₃ (q.entry b₃.transactions.nextId pool) = .ok (claimed, b') := by
  simp only [claim, bind_eq_ok, lockAgentBudgetPoolTx_eq_ok] at h
  obtain ⟨key, hargs, b₁, hreset, b₂, hopen, pool, hpool, b₃, hfund, hclaim⟩ := h
  refine ⟨⟨key, hargs⟩, b₁, b₂, b₃, pool, hreset, hopen, hpool, ?_⟩
  split at hfund
  · simp only [ok_iff, Prod.exists] at hfund
    obtain ⟨fund, _, hfund, rfl⟩ := hfund
    obtain ⟨-, -, hpools, -⟩ := ensureOpsFundAccountTx_prepared (A := Budget.Extends.anything) hfund
    exact ⟨.of_fund hfund, hpools, fun _ => ⟨fund, ensureOpsFundAccountTx_found hfund⟩, hclaim⟩
  · next hf =>
    cases hfund
    exact ⟨.refl _, rfl, fun h => absurd h hf, hclaim⟩

/-- The daily reset extends the budget, and it needs a date. -/
theorem reset_eq_ok (h : q.reset env b = .ok b') :
    b.Extends b' ∧ (q.resets = true → trimSpace env.budgetDate ≠ "") := by
  unfold reset at h
  split at h
  · exact ⟨.of_reset h, fun _ => (ensureCurrentAgentDailyBudgetFundingTx_ok_iff.mp ⟨_, h⟩).1⟩
  · next hoff =>
    cases h
    exact ⟨.refl b, fun h => absurd h hoff⟩

/-- **A claim that succeeds leaves its traces.** -/
theorem applied_of_claim (h : q.claim env b = .ok (claimed, b')) : q.Applied env b' := by
  obtain ⟨hargs, b₁, b₂, b₃, pool, hreset, hopen, hpool, hext, hpools, hfund, hclaim⟩ := claim_eq_ok h
  obtain ⟨r, hr, hmatches, hext'⟩ : ∃ r, b'.transactions.byKey q.idempotencyKey = some r ∧
      r.Matches (q.entry b₃.transactions.nextId pool) ∧ b₃.Extends b' := by
    rcases claimAgentBudgetTransactionTx_cases hclaim
      with ⟨-, rfl, r, hr, hmatches⟩ | ⟨-, transactions, hcreate, rfl⟩
    · exact ⟨r, hr, hmatches, .refl _⟩
    · refine ⟨_, (byKey_of_create hcreate _).trans (if_pos rfl),
        ⟨rfl, rfl, rfl, rfl, rfl, rfl, rfl, rfl, rfl, rfl⟩, ?_⟩
      exact
        { transactions := byKey_create_of_some hcreate
          pools := fun hp => ⟨_, hp, rfl⟩
          funds := fun ha => ⟨_, ha⟩ }
  have hlater := hext.trans hext'
  obtain ⟨p, hp⟩ := ensureAgentBudgetPoolTx_opened hopen
  obtain ⟨pool', hpool', hid⟩ := hlater.pools hpool
  refine
    { args := hargs
      date := (reset_eq_ok hreset).2
      opened := (hlater.pools hp).imp fun _ h => h.1
      fund := fun hf => ?_
      entry := ⟨pool', r, hpool', hr, matches_entry hmatches hid ?_⟩ }
  · obtain ⟨a, ha⟩ := hfund hf
    exact hext'.funds ha
  · rw [(byKey_eq_some.mp hpool').2, (byKey_eq_some.mp hpool).2]

/-- The same claim at another site, for a pool with another quota. -/
def move (q : PayoutClaim) (siteID : String) (totalQuota : Int) : PayoutClaim :=
  { q with siteID, totalQuota }

/-- A repeated claim of the same site and date does what its daily reset does. -/
theorem Applied.claim_again (h : q.Applied env b) (env' : RewardEnv)
    (hdate : env'.budgetDate = env.budgetDate)
    (hreset : (q.move q.siteID totalQuota).reset env' b = .ok b') :
    (q.move q.siteID totalQuota).claim env' b = .ok (false, b') := by
  have h := h.extends (reset_eq_ok hreset).1
  obtain ⟨key, hargs⟩ := h.args
  obtain ⟨p, hopened⟩ := h.opened
  obtain ⟨pool, r, hpool, hr, hmatches⟩ := h.entry
  refine bind_eq_ok.mpr ⟨key, hargs, bind_eq_ok.mpr ⟨b', hreset, bind_eq_ok.mpr ⟨b', ?_,
    bind_eq_ok.mpr ⟨pool, ?_, bind_eq_ok.mpr ⟨b', ?_, ?_⟩⟩⟩⟩⟩
  · exact ensureAgentBudgetPoolTx_of_opened _ (hdate ▸ hopened)
  · exact lockAgentBudgetPoolTx_eq_ok.mpr (hdate ▸ hpool)
  · show (if q.opensFund then _ else _ : Except Err Budget) = _
    split
    · next hf =>
      obtain ⟨a, ha⟩ := h.fund hf
      exact bind_eq_ok.mpr ⟨(a, b'), ensureOpsFundAccountTx_of_found ha, rfl⟩
    · rfl
  · have hmatches : r.Matches (q.entry b'.transactions.nextId pool) := matches_entry hmatches rfl rfl
    exact claimAgentBudgetTransactionTx_again (t := q.entry b'.transactions.nextId pool) rfl hr hmatches

/-- A repeated claim that succeeds is one of the same site and date, and it claims nothing. -/
theorem Applied.of_claim_again (h : q.Applied env b)
    (hclaim : (q.move siteID totalQuota).claim env' b = .ok (claimed, b')) :
    claimed = false ∧ siteID = q.siteID ∧ env'.budgetDate = env.budgetDate ∧
      ∃ b₁, (q.move siteID totalQuota).reset env' b = .ok b₁ := by
  obtain ⟨-, b₁, b₂, b₃, pool, hreset, hopen, hpool, hext, hpools, -, hclaim⟩ := claim_eq_ok hclaim
  -- the entry of the first claim is still there
  have h := ((h.extends (reset_eq_ok hreset).1).extends (.of_pool hopen)).extends hext
  obtain ⟨pool₀, r, hpool₀, hr, hmatches₀⟩ := h.entry
  rcases claimAgentBudgetTransactionTx_cases hclaim
    with ⟨hfalse, -, r', hr', hmatches⟩ | ⟨-, transactions, hcreate, -⟩
  · obtain rfl : r = r' := Option.mem_unique hr hr'
    rw [← hpools] at hpool
    have hsame : pool = pool₀ := eq_of_id_eq (byKey_eq_some.mp hpool).1
      (byKey_eq_some.mp hpool₀).1 (hmatches.poolId.symm.trans hmatches₀.poolId)
    have hkey := (byKey_eq_some.mp hpool).2.symm.trans
      (hsame ▸ (byKey_eq_some.mp hpool₀).2)
    simp only [Prod.mk.injEq] at hkey
    exact ⟨hfalse, hkey.1, hkey.2.2, b₁, hreset⟩
  · have hfree := (byKey_none_of_create hcreate).symm.trans hr
    cases hfree

end PayoutClaim

end Traces

/-! ## Replays -/

/-- Does the payout run the daily reset first? A charge and the payout of a reservation do not. -/
def RewardCall.resets : RewardCall → Bool
  | .grant .. | .reserve .. => true
  | .consumeReserved .. => false
  | .mutate _ _ delta .. => 0 < delta
  | .settleBatch _ _ mutations => mutations.any (0 < ·.delta)

/-- The daily reset of a payout. -/
def RewardCall.dailyReset (env : RewardEnv) (c : RewardCall) (b : Budget) : Except Err Budget :=
  if c.resets then ensureCurrentAgentDailyBudgetFundingTx env b (c.site env) env.budgetDate else pure b

/-- The payout succeeds and leaves wallet, pools, fund and journals as the daily reset alone leaves
them. -/
def RewardCall.IsNoop (env : RewardEnv) (c : RewardCall) (db : RewardDB) : Prop :=
  ∃ b, c.dailyReset env db.budget = .ok b ∧ c.tx env db = .ok ((), { db with budget := b })

/-- What happens between two calls: other reward operations, and whatever other components make of the
wallet. -/
inductive LaterEvent where
  | reward (e : RewardEvent)
  | wallet (w : Wallet)

/-- The database after such an event. -/
def RewardDB.later (db : RewardDB) : LaterEvent → RewardDB
  | .reward e => db.step e
  | .wallet w => { db with wallet := w }

/-- **Run lemma**: every run extends the budget. -/
theorem Budget.Extends.of_run (db : RewardDB) (events : List LaterEvent) :
    db.budget.Extends (run RewardDB.later db events).budget := by
  refine run_keeps (I := fun db' : RewardDB => db.budget.Extends db'.budget) (fun db' e h => ?_)
    (.refl _) events
  cases e with
  | reward e => exact h.trans (.of_step db' e)
  | wallet => exact h

section Replays

variable {env : RewardEnv} {c : RewardCall} {q : PayoutClaim}

/-- At another time and under other settings a call claims the same entry, for its site of then. -/
theorem RewardCall.claim?_move (hq : c.claim? env = some q) (setting : AgentSetting)
    (canonicalSiteID : String → String) (budgetDate : String) :
    ∃ totalQuota, c.claim? { env with setting, canonicalSiteID, budgetDate }
      = some (q.move (c.site { env with setting, canonicalSiteID, budgetDate }) totalQuota) := by
  generalize henv : ({ env with setting, canonicalSiteID, budgetDate } : RewardEnv) = env'
  obtain ⟨hmetadata, hsha⟩ : env'.metadata = env.metadata ∧ env'.sha256Hex = env.sha256Hex := by
    subst henv
    exact ⟨rfl, rfl⟩
  have hstable : ∀ key,
      stableQuotaReplaySettlementID env' key = stableQuotaReplaySettlementID env key := fun key => by
    rw [stableQuotaReplaySettlementID, stableQuotaReplaySettlementID, hsha]
  have hfields : ∀ key metadataJson, quotaReplayFieldsFromMetadata env' key metadataJson 0
      = quotaReplayFieldsFromMetadata env key metadataJson 0 := fun key metadataJson => by
    rw [quotaReplayFieldsFromMetadata, quotaReplayFieldsFromMetadata, hmetadata, hstable]
  cases c with
  | settleBatch => cases hq
  | grant userId poolType | reserve userId poolType | consumeReserved userId poolType =>
    simp only [claim?, Option.some.injEq] at hq
    subst hq
    refine ⟨(currentAgentBudgetPoolMeta env' poolType).2.2, ?_⟩
    simp [claim?, PayoutClaim.move, hfields]
  | mutate siteID userID delta poolType =>
    simp only [claim?, Option.some.injEq] at hq
    subst hq
    refine ⟨(currentAgentBudgetPoolMeta env' (trimSpace poolType)).2.2, ?_⟩
    simp [claim?, PayoutClaim.move, site, hstable]

/-- The site and the reset of a call are those of its claim. -/
theorem RewardCall.claim?_fields (hq : c.claim? env = some q) :
    q.siteID = c.site env ∧ q.resets = c.resets := by
  cases c with
  | settleBatch => cases hq
  | grant | reserve | consumeReserved | mutate =>
    simp only [claim?, Option.some.injEq] at hq
    subst hq
    exact ⟨rfl, rfl⟩

/-- A payout that succeeded leaves its traces. -/
theorem RewardCall.applied {db db' : RewardDB} (hq : c.claim? env = some q)
    (h : c.tx env db = .ok ((), db')) : q.Applied env db'.budget := by
  have hfollows := c.follows hq db
  rw [h] at hfollows
  obtain ⟨⟨claimed, b⟩, hclaim⟩ := hfollows.exists_claim
  rw [hclaim] at hfollows
  exact (PayoutClaim.applied_of_claim hclaim).extends hfollows.extends_claim

/-- **When a replay is a no-op.** After a payout that succeeded, whatever operations ran since, on
whatever date and under whatever settings: the same call succeeds and changes nothing beyond the daily
reset exactly when its site and its business date are those of the first call, and the daily reset it
runs can use its journal keys. -/
theorem reward_replay_iff (env : RewardEnv) {c : RewardCall}
    (hsingle : ∀ siteID settlementID mutations, c ≠ .settleBatch siteID settlementID mutations)
    {db db₁ : RewardDB} (h : c.tx env db = .ok ((), db₁)) (events : List LaterEvent)
    (setting : AgentSetting) (canonicalSiteID : String → String) (budgetDate : String) :
    let env' := { env with setting, canonicalSiteID, budgetDate }
    let db₂ := run RewardDB.later db₁ events
    c.IsNoop env' db₂ ↔ c.site env' = c.site env ∧ budgetDate = env.budgetDate ∧
      (c.resets = true → db₂.budget.ResetClear env' (c.site env')) := by
  intro env' db₂
  obtain ⟨q, hq⟩ : ∃ q, c.claim? env = some q := by
    cases c with
    | settleBatch siteID settlementID mutations => exact absurd rfl (hsingle _ _ _)
    | _ => exact ⟨_, rfl⟩
  obtain ⟨totalQuota, hq'⟩ := c.claim?_move hq setting canonicalSiteID budgetDate
  obtain ⟨hsite, hresets⟩ := RewardCall.claim?_fields hq
  have happlied : q.Applied env db₂.budget := (RewardCall.applied hq h).extends (.of_run db₁ events)
  have hfollows := c.follows hq' db₂
  have hreset : ∀ b, (q.move (c.site env') totalQuota).reset env' b = c.dailyReset env' b := by
    intro b
    show (if q.resets then _ else _ : Except Err Budget) = _
    rw [hresets]
    rfl
  constructor
  · rintro ⟨b, hb, hok⟩
    rw [hok] at hfollows
    obtain ⟨⟨claimed, b'⟩, hclaim⟩ := hfollows.exists_claim
    obtain ⟨-, hsite', hdate, -⟩ := happlied.of_claim_again hclaim
    refine ⟨hsite'.trans hsite, hdate, fun hresets => ?_⟩
    rw [RewardCall.dailyReset, if_pos hresets] at hb
    exact (ensureCurrentAgentDailyBudgetFundingTx_ok_iff.mp ⟨b, hb⟩).2
  · rintro ⟨hsite', rfl, hclear⟩
    obtain ⟨b, hb⟩ : ∃ b, c.dailyReset env' db₂.budget = .ok b := by
      unfold RewardCall.dailyReset
      split
      · next hon =>
        exact ensureCurrentAgentDailyBudgetFundingTx_ok_iff.mpr
          ⟨happlied.date (hresets.trans hon), hclear hon⟩
      · exact ⟨db₂.budget, rfl⟩
    have hsame : c.site env' = q.siteID := hsite'.trans hsite.symm
    have hclaim := happlied.claim_again env' rfl ((hsame ▸ hreset db₂.budget).trans hb)
    rw [← hsame] at hclaim
    rw [hclaim] at hfollows
    exact ⟨b, hb, hfollows⟩

end Replays

/-- A grant of `10`. -/
def plainGrant : RewardCall := .grant 1 "growth" 10 "key" "" "" ""

/-- The site after the grant. -/
def grantedRewardDB : RewardDB :=
  fundedRewardDB.step ⟨plainRewardEnv "2026-06-21", none, .call plainGrant⟩

theorem plainGrant_ok :
    plainGrant.tx (plainRewardEnv "2026-06-21") fundedRewardDB = .ok ((), grantedRewardDB) := by
  have hok : (plainGrant.tx (plainRewardEnv "2026-06-21") fundedRewardDB).isOk = true := by
    decide +kernel
  cases htx : plainGrant.tx (plainRewardEnv "2026-06-21") fundedRewardDB with
  | error e =>
    rw [htx] at hok
    cases hok
  | ok r =>
    have hdb : grantedRewardDB = r.2 := congrArg Prod.snd (transaction_ok htx)
    rw [hdb]

theorem reward_replay_iff_grant :
    plainGrant.tx (plainRewardEnv "2026-06-21") fundedRewardDB = .ok ((), grantedRewardDB) ∧
      plainGrant.IsNoop (plainRewardEnv "2026-06-21") grantedRewardDB :=
  ⟨plainGrant_ok, (reward_replay_iff (plainRewardEnv "2026-06-21") (by simp [plainGrant])
    plainGrant_ok [] (plainRewardEnv "2026-06-21").setting id "2026-06-21").mpr
      ⟨rfl, rfl, fun _ hon => absurd hon Bool.false_ne_true⟩⟩

/-- Retried after midnight, the grant fails: its key counts as used by another operation. -/
theorem reward_replay_fails :
    ¬ ∀ (env : RewardEnv) (c : RewardCall) (db db₁ : RewardDB),
      (∀ siteID settlementID mutations, c ≠ .settleBatch siteID settlementID mutations) →
      c.tx env db = .ok ((), db₁) →
      ∀ (events : List LaterEvent) (setting : AgentSetting) (canonicalSiteID : String → String)
        (budgetDate : String),
        c.IsNoop { env with setting, canonicalSiteID, budgetDate }
          (run RewardDB.later db₁ events) := by
  intro h
  obtain ⟨b, -, hok⟩ := h (plainRewardEnv "2026-06-21") plainGrant fundedRewardDB grantedRewardDB
    (by simp [plainGrant]) plainGrant_ok [] (plainRewardEnv "2026-06-21").setting id "2026-06-22"
  have hfails : (plainGrant.tx (plainRewardEnv "2026-06-22") grantedRewardDB).isOk = false := by
    decide +kernel
  have hsucceeds := congrArg Except.isOk hok
  exact absurd (hfails.symm.trans hsucceeds) (by simp [Except.toBool])

end Prox
