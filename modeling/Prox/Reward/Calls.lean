import Prox.Reward.Effect

/-! # Runs of the reward ledger

The reward operations as one system: payouts, raises of the fund and changes of a pool's capacity, each
in a transaction of its own that is rolled back on error. Every call sees the settings and the business
date of its moment. `RewardOp.moves` reduces all of them to the moves of the budget. -/

namespace Prox

open List

/-- The operations of the reward ledger. -/
inductive RewardOp where
  | call (c : RewardCall)
  | ensureFundMinimum (siteID : String) (minimumBalance : Int)
      (idempotencyKey remark sourceType : String)
  | restoreCapacity (siteID poolType budgetDate : String) (targetAvailable : Int)
      (idempotencyKey remark sourceType : String)
  | setAvailableCapacity (siteID poolType budgetDate : String) (targetAvailable : Int)
      (idempotencyKey remark : String)
  | dailyReset (siteID budgetDate requestID remark : String)

/-- A change of the budget alone, as a transaction on wallet and budget. -/
def onBudget {α : Type} (op : Budget → Except Err (α × Budget)) (db : RewardDB) :
    Except Err (Unit × RewardDB) := do
  let (_, b) ← op db.budget
  return ((), { db with budget := b })

/-- The body of an operation's transaction. -/
def RewardOp.tx (env : RewardEnv) : RewardOp → RewardDB → Except Err (Unit × RewardDB)
  | .call c => c.tx env
  | .ensureFundMinimum siteID minimumBalance idempotencyKey remark sourceType =>
    onBudget fun b => ensureOpsFundMinimumWithSourceTx env b siteID minimumBalance idempotencyKey
      remark sourceType
  | .restoreCapacity siteID poolType budgetDate targetAvailable idempotencyKey remark sourceType =>
    onBudget fun b => restoreBudgetPoolCapacityWithSourceTx env b siteID poolType budgetDate
      targetAvailable idempotencyKey remark sourceType
  | .setAvailableCapacity siteID poolType budgetDate targetAvailable idempotencyKey remark =>
    onBudget fun b => setBudgetPoolAvailableCapacityTx env b siteID poolType budgetDate
      targetAvailable idempotencyKey remark
  | .dailyReset siteID budgetDate requestID remark =>
    onBudget fun b => do
      let b ← ensureOpsDailyBudgetCapacityForDateTx env b siteID budgetDate requestID remark
      return ((), b)

/-- An operation with the environment it runs in and the fault its transaction meets, if any. -/
structure RewardEvent where
  env : RewardEnv
  fault : Option Err
  op : RewardOp

/-- The database after an operation. -/
def RewardDB.step (db : RewardDB) (e : RewardEvent) : RewardDB :=
  (transaction e.fault (e.op.tx e.env) db).2

/-- The keys of the pools that a payout creates when they are missing. -/
def RewardCall.poolKeys (env : RewardEnv) : RewardCall → List (String × String × String)
  | .grant _ poolType _ _ _ _ _ =>
    [poolKey (env.canonicalSiteID env.setting.siteID) poolType env.budgetDate]
  | .reserve _ poolType _ _ _ _ =>
    [poolKey (env.canonicalSiteID env.setting.siteID) poolType env.budgetDate]
  | .consumeReserved _ poolType _ _ _ =>
    [poolKey (env.canonicalSiteID env.setting.siteID) poolType env.budgetDate]
  | .mutate siteID _ _ poolType _ _ _ _ _ _ _ => [poolKey siteID poolType env.budgetDate]
  | .settleBatch siteID _ mutations => mutations.map fun m => poolKey siteID m.poolType env.budgetDate

/-- The total `q` with which an operation creates the pool `k` when it is missing: the configured one, or
the target of the operation. -/
def RewardOp.Seeds (env : RewardEnv) (op : RewardOp) (k : String × String × String) (q : Int) : Prop :=
  match op with
  | .call c => q = currentAgentPoolQuota env k.2.1 ∧ (0 < q ∨ k ∈ c.poolKeys env)
  | .ensureFundMinimum .. => False
  | .restoreCapacity siteID poolType budgetDate target _ _ _ =>
    k = (env.canonicalSiteID siteID, trimSpace poolType, trimSpace budgetDate) ∧ q = target ∧ 0 ≤ q
  | .setAvailableCapacity siteID poolType budgetDate target _ _ =>
    k = (env.canonicalSiteID siteID, trimSpace poolType, trimSpace budgetDate) ∧ q = target ∧ 0 ≤ q
  | .dailyReset .. => q = currentAgentPoolQuota env k.2.1 ∧ 0 < q

/-- What an operation may do to the budget while it prepares. -/
def RewardOp.allowance (env : RewardEnv) (op : RewardOp) : Allowance where
  seed := op.Seeds env
  adjustKey _ := True
  raiseKey _ := True

/-- The fund's journal can take the entry of a payout that does not check it: a grant uses its own key,
a reservation the key with a suffix. -/
def RewardOp.FundKeyFree (env : RewardEnv) (op : RewardOp) (b : Budget) : Prop :=
  match op with
  | .call (.grant _ _ _ key _ _ _) =>
    b.FundKeyFree env (env.canonicalSiteID env.setting.siteID) (trimSpace key) (trimSpace key)
  | .call (.reserve _ _ _ key _ _) =>
    b.FundKeyFree env (env.canonicalSiteID env.setting.siteID) (trimSpace key)
      (trimSpace key ++ "_fund")
  | _ => True

section Moves

variable {env : RewardEnv} {booked : Prop} {db db' : RewardDB}

/-- A payout does what its reset may do, and no more. -/
theorem Outcome.call_moves {c : RewardCall} {siteID poolType key type source : String}
    {userId quota u f d : Int}
    (h : Outcome (payoutAllowance env siteID poolType) booked db db' key type source userId quota
      u f d)
    (hkey : poolKey siteID poolType env.budgetDate ∈ c.poolKeys env) :
    RewardMoves ((RewardOp.call c).allowance env) booked db db' := by
  refine h.moves.mono (fun k q hq => ?_) (fun _ _ => trivial) fun _ _ => trivial
  rcases hq with ⟨hq, hpos⟩ | ⟨hk, hq⟩
  · exact ⟨hq, .inl hpos⟩
  · exact ⟨hq, .inr (hk ▸ hkey)⟩

theorem applyQuotaSettlementFromTx_moves {c : RewardCall} {siteID settlementID : String} {i : Nat}
    {mutations : List QuotaMutation}
    (h : applyQuotaSettlementFromTx env siteID settlementID i mutations db = .ok ((), db'))
    (hkeys : ∀ m ∈ mutations, poolKey siteID m.poolType env.budgetDate ∈ c.poolKeys env) :
    RewardMoves ((RewardOp.call c).allowance env) booked db db' := by
  induction mutations generalizing i db with
  | nil =>
    cases h
    exact .refl _
  | cons m ms ih =>
    simp only [applyQuotaSettlementFromTx, bind_eq_ok, Prod.exists] at h
    obtain ⟨⟨⟩, db₁, hm, hms⟩ := h
    obtain ⟨hkey, hkeys⟩ := forall_mem_cons.mp hkeys
    obtain ⟨u, f, d, houtcome⟩ := applyQuotaMutationTx_outcome hm
    exact (houtcome.call_moves hkey).trans (ih hms hkeys)

/-- **Every operation is a sequence of moves.** -/
theorem RewardOp.moves {op : RewardOp} (h : op.tx env db = .ok ((), db'))
    (hbooked : booked → op.FundKeyFree env db.budget) :
    RewardMoves (op.allowance env) booked db db' := by
  cases op with
  | call c =>
    cases c with
    | grant =>
      exact (grantQuotaFromBudgetPoolWithSourceTx_outcome h hbooked).call_moves mem_cons_self
    | reserve userId poolType quota key remark source =>
      simp only [RewardOp.tx, RewardCall.tx, reserveRewardTx, bind_eq_ok, pure_eq_ok, Prod.mk.injEq,
        true_and] at h
      obtain ⟨b, hreserve, rfl⟩ := h
      exact (reserveQuotaFromBudgetPoolWithSourceTx_outcome hreserve hbooked db.wallet).call_moves
        mem_cons_self
    | consumeReserved =>
      exact (consumeReservedQuotaFromBudgetPoolTx_outcome h).call_moves mem_cons_self
    | mutate =>
      obtain ⟨u, f, d, houtcome⟩ := applyQuotaMutationTx_outcome h
      exact houtcome.call_moves mem_cons_self
    | settleBatch =>
      exact applyQuotaSettlementFromTx_moves h fun m hm => mem_map.mpr ⟨m, hm, rfl⟩
  | ensureFundMinimum =>
    simp only [RewardOp.tx, onBudget, bind_eq_ok, pure_eq_ok, Prod.mk.injEq, true_and,
      Prod.exists] at h
    obtain ⟨fund, b, hb, rfl⟩ := h
    exact .of_prepared (ensureOpsFundMinimumWithSourceTx_prepared hb trivial).1
  | restoreCapacity siteID poolType budgetDate target key remark source =>
    simp only [RewardOp.tx, onBudget, bind_eq_ok, pure_eq_ok, Prod.mk.injEq, true_and,
      Prod.exists] at h
    obtain ⟨pool, b, hb, rfl⟩ := h
    exact .of_prepared (adjustBudgetPoolAvailableCapacityTx_prepared
      (A := (RewardOp.restoreCapacity siteID poolType budgetDate target key remark source).allowance env)
      hb (fun hnonneg => ⟨rfl, rfl, hnonneg⟩) trivial).1
  | setAvailableCapacity siteID poolType budgetDate target key remark =>
    simp only [RewardOp.tx, onBudget, bind_eq_ok, pure_eq_ok, Prod.mk.injEq, true_and,
      Prod.exists] at h
    obtain ⟨pool, b, hb, rfl⟩ := h
    exact .of_prepared (adjustBudgetPoolAvailableCapacityTx_prepared
      (A := (RewardOp.setAvailableCapacity siteID poolType budgetDate target key remark).allowance env)
      hb (fun hnonneg => ⟨rfl, rfl, hnonneg⟩) trivial).1
  | dailyReset =>
    simp only [RewardOp.tx, onBudget, bind_eq_ok, pure_eq_ok, Prod.mk.injEq, true_and,
      Prod.exists] at h
    obtain ⟨⟨⟩, b, ⟨_, hb, rfl⟩, rfl⟩ := h
    exact .of_prepared ((ensureOpsDailyBudgetCapacityForDateTx_prepared hb).mono (fun _ _ hq => hq)
      (fun _ _ => trivial) fun _ _ => trivial)

/-- What every move of an operation keeps, the operation keeps. -/
theorem RewardDB.step_keeps {I : RewardDB → Prop} {e : RewardEvent}
    (hbooked : booked → e.op.FundKeyFree e.env db.budget)
    (hstep : ∀ db db', I db → RewardMove (e.op.allowance e.env) booked db db' → I db') (hdb : I db) :
    I (db.step e) :=
  transaction_keeps hdb fun _ _ h => (RewardOp.moves h hbooked).keeps hstep hdb

end Moves

/-! ## A plain site -/

/-- An environment without automatic resets, where every pool may give out `1000` a day. -/
def plainRewardEnv (budgetDate : String) : RewardEnv where
  setting :=
    { siteID := "site", budgetEnabled := false, dailyBudgetResetEnabled := false,
      dailyFundResetEnabled := false, dailyBudgetQuota := 1000, growthBudgetQuota := 1000,
      activityBudgetQuota := 1000, gameBudgetQuota := 1000, opsCompBudgetQuota := 1000,
      communityBudgetQuota := 1000, opsFundDailyTargetQuota := 0 }
  budgetDate
  canonicalSiteID := id
  metadata _ := {}
  sha256Hex := id

/-- A user with `5` quota; nothing was paid yet. -/
def plainRewardDB : RewardDB where
  wallet := .ofUser 5 ""
  budget := ⟨.empty, .empty, .empty, .empty⟩

/-- A site whose fund holds `100`. -/
def fundedRewardDB : RewardDB :=
  plainRewardDB.step ⟨plainRewardEnv "2026-06-21", none,
    .ensureFundMinimum "site" 100 "raise" "" "admin_budget_restore"⟩

end Prox
