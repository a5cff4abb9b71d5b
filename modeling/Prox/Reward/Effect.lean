import Mathlib.Logic.Relation
import Prox.Reward.Grant

/-! # What a reward transaction does

Before it pays, a reward transaction prepares its pool and its fund: it creates rows that are missing,
adjusts the capacity of pools and raises the fund. `BudgetMove` lists these four things. The payout
itself moves quota between a user, a pool and the fund under one claimed entry of the budget journal;
`Payout` states it once for grants, charges, reservations and the payout of a reservation. Every
transaction of the reward ledger is a sequence of such moves, and the laws of the books are derived
from the moves alone. -/

namespace Prox

open AgentBudgetPool AgentBudgetTransaction Table

-- Texts are compared by the lemmas on `trimSpace`, not computed.
attribute [local irreducible] trimSpace

/-! ## Moves of the budget -/

/-- What a transaction may do while it prepares: the totals it seeds pools with, the journal keys it
adjusts capacity under and the ledger keys it raises the fund under. -/
structure Allowance where
  seed : String × String × String → Int → Prop
  adjustKey : String → Prop
  raiseKey : String → Prop

/-- The entry adjusts the capacity of its pool. -/
def AgentBudgetTransaction.Adjusts (t : AgentBudgetTransaction) : Prop :=
  t.transactionType = "capacity_restore" ∨ t.transactionType = "capacity_set"
  deriving Decidable

/-- One step of the preparation of pools and fund. -/
inductive BudgetMove (A : Allowance) (b : Budget) : Budget → Prop
  | poolOpened {p : AgentBudgetPool} {pools : Table AgentBudgetPool}
      (hcreate : b.pools.create p = some pools) (hseed : A.seed (Row.key p) p.totalQuota)
      (hused : p.usedQuota = 0) (hfrozen : p.frozenQuota = 0) : BudgetMove A b { b with pools }
  | fundOpened {a : OpsFundAccount} {funds : Table OpsFundAccount}
      (hcreate : b.funds.create a = some funds) (hzero : a.balanceQuota = 0) :
      BudgetMove A b { b with funds }
  | adjusted {p : AgentBudgetPool} {t : AgentBudgetTransaction}
      {transactions : Table AgentBudgetTransaction} (hp : p ∈ b.pools.rows)
      (hcreate : b.transactions.create t = some transactions) (hadjusts : t.Adjusts)
      (hpool : t.poolId = p.id) (hkey : A.adjustKey t.idempotencyKey)
      (hlow : -p.available ≤ t.quota) :
      BudgetMove A b { b.updatePool p.id (AgentBudgetPool.addTotal t.quota) with transactions }
  | raised {a : OpsFundAccount} {l : OpsFundLedger} {ledger : Table OpsFundLedger}
      (ha : a ∈ b.funds.rows) (hcreate : b.ledger.create l = some ledger) (huser : l.userId = 0)
      (hfund : l.fundAccountId = a.id) (hkey : A.raiseKey l.idempotencyKey)
      (hdelta : 0 ≤ l.deltaQuota) :
      BudgetMove A b { b.setFund a.id (a.balanceQuota + l.deltaQuota) with ledger }

/-- Finitely many preparing steps. -/
def Prepared (A : Allowance) : Budget → Budget → Prop := Relation.ReflTransGen (BudgetMove A)

namespace Prepared

variable {A : Allowance} {b b' b'' : Budget}

theorem refl (b : Budget) : Prepared A b b := Relation.ReflTransGen.refl

theorem of_move (h : BudgetMove A b b') : Prepared A b b' := Relation.ReflTransGen.single h

theorem trans (h : Prepared A b b') (h' : Prepared A b' b'') : Prepared A b b'' :=
  Relation.ReflTransGen.trans h h'

/-- The invariant rule: what every preparing step keeps, the whole preparation keeps. -/
theorem keeps {I : Budget → Prop} (hstep : ∀ b b', I b → BudgetMove A b b' → I b')
    (h : Prepared A b b') (hb : I b) : I b' := by
  induction h with
  | refl => exact hb
  | tail _ hmove ih => exact hstep _ _ ih hmove

end Prepared

/-! ## Payouts -/

/-- `used_quota = used_quota + u, frozen_quota = frozen_quota + z`. -/
def AgentBudgetPool.commit (u z : Int) : Patch AgentBudgetPool :=
  ⟨fun p => { p with usedQuota := p.usedQuota + u, frozenQuota := p.frozenQuota + z },
    fun _ => rfl, fun _ => rfl⟩

theorem AgentBudgetPool.addUsed_eq (q : Int) :
    addUsed q = commit q 0 := by
  simp [addUsed, commit]

theorem AgentBudgetPool.addFrozen_eq (q : Int) :
    addFrozen q = commit 0 q := by
  simp [addFrozen, commit]

/-- Committing nothing changes no pool. -/
theorem updatePool_commit_zero (b : Budget) (id : Int) :
    b.updatePool id (commit 0 0) = b := by
  have hself : (b.pools.updateWhere (fun p => p.id = id) (commit 0 0)).1 = b.pools :=
    updateWhere_self fun p _ _ => by simp [commit]
  rw [Budget.updatePool, hself]

variable {b b' : Budget} {a fund : OpsFundAccount}

/-- Setting the balance a fund has changes no fund. -/
theorem setFund_self (ha : a ∈ b.funds.rows) : b.setFund a.id a.balanceQuota = b := by
  have hself : (b.funds.updateWhere (fun x => x.id = a.id)
      (OpsFundAccount.setBalance a.balanceQuota)).1 = b.funds := by
    refine updateWhere_self fun x hx hid => ?_
    obtain rfl : x = a := eq_of_id_eq hx ha (of_decide_eq_true hid)
    rfl
  rw [Budget.setFund, hself]

/-- The fund's part of a payout: it gets `f`, together with an entry of its journal. Unless payouts
are `booked`, the entry can be missing because its key is taken. -/
inductive FundMove (booked : Prop) (b : Budget) (t : AgentBudgetTransaction) (f : Int) :
    Budget → Prop
  | untouched (hf : f = 0) : FundMove booked b t f b
  | entered {a : OpsFundAccount} {l : OpsFundLedger} {ledger : Table OpsFundLedger}
      (ha : a ∈ b.funds.rows) (hcovered : 0 ≤ a.balanceQuota → 0 ≤ a.balanceQuota + f)
      (hcreate : b.ledger.create l = some ledger) (huser : l.userId = t.userId)
      (hsource : l.sourceType = t.sourceType) (hfund : l.fundAccountId = a.id)
      (hdelta : l.deltaQuota = f)
      (hkey : l.idempotencyKey ∈ [t.idempotencyKey, t.idempotencyKey ++ "_fund"]) :
      FundMove booked b t f { b.setFund a.id (a.balanceQuota + f) with ledger }
  | skipped {a : OpsFundAccount} (ha : a ∈ b.funds.rows)
      (hcovered : 0 ≤ a.balanceQuota → 0 ≤ a.balanceQuota + f) (hbooked : ¬ booked) :
      FundMove booked b t f (b.setFund a.id (a.balanceQuota + f))

/-- The transaction types under which payouts reach the wallet journal. -/
def rewardTypes : List String := ["budget_grant", "budget_consume", "ops_grant", "ops_charge"]

/-- The user's part of a payout: a direct mutation under the key of the budget entry. -/
inductive UserMove (w : Wallet) (t : AgentBudgetTransaction) (d : Int) : Wallet → Prop
  | untouched (hd : d = 0) : UserMove w t d w
  | mutated {m : UserQuotaMutation} {applied : Bool} {w' : Wallet}
      (happly : applyUserQuotaMutationTx w m = .ok (applied, w')) (huser : m.userID = t.userId)
      (hdelta : m.deltaQuota = d) (hkey : m.idempotencyKey = "user:" ++ t.idempotencyKey)
      (htype : m.transactionType ∈ rewardTypes) : UserMove w t d w'

variable {t : AgentBudgetTransaction} {d f quota userId : Int}

/-- The two cases of the user's part, with the wallet afterwards as a variable. -/
theorem UserMove.cases {w w' : Wallet} (h : UserMove w t d w') :
    (d = 0 ∧ w' = w) ∨ ∃ m applied, applyUserQuotaMutationTx w m = .ok (applied, w') ∧
      m.userID = t.userId ∧ m.deltaQuota = d ∧ m.idempotencyKey = "user:" ++ t.idempotencyKey ∧
      m.transactionType ∈ rewardTypes := by
  cases h with
  | untouched hd => exact .inl ⟨hd, rfl⟩
  | mutated happly huser hdelta hkey htype => exact .inr ⟨_, _, happly, huser, hdelta, hkey, htype⟩

/-- What an entry adds to the frozen quota of its pool: reservations freeze, their payouts thaw. -/
def AgentBudgetTransaction.frozenDelta (t : AgentBudgetTransaction) : Int :=
  if t.transactionType = "reserve" then t.quota
  else if t.transactionType = "consume_frozen" then -t.quota
  else 0

/-- A payout: under the entry `t`, the pool commits `u` more used quota and freezes what the entry
says, the fund gets `f` and the user `d`, and nothing gets lost between them. -/
structure Payout (booked : Prop) (db db' : RewardDB) (t : AgentBudgetTransaction) (u f d : Int) :
    Prop where
  claim : db.budget.transactions.create t = some db'.budget.transactions
  keeps_capacity : ¬ t.Adjusts
  key_trimmed : trimSpace t.idempotencyKey = t.idempotencyKey
  key_ne : t.idempotencyKey ≠ ""
  user_pos : 0 < t.userId
  used_nonneg : 0 ≤ u
  pool : ∃ p ∈ db.budget.pools.rows, t.poolId = p.id ∧
    (0 ≤ p.frozenQuota → 0 ≤ p.frozenQuota + t.frozenDelta) ∧
    (u + t.frozenDelta = 0 ∨ u + t.frozenDelta ≤ p.available)
  pools : db'.budget.pools
    = (db.budget.updatePool t.poolId (AgentBudgetPool.commit u t.frozenDelta)).pools
  balanced : d + f + t.frozenDelta = 0
  fund : ∃ b, FundMove booked db.budget t f b ∧ db'.budget.funds = b.funds ∧
    db'.budget.ledger = b.ledger
  user : UserMove db.wallet t d db'.wallet

/-! ## Moves of the database -/

/-- One step of a reward transaction. -/
inductive RewardMove (A : Allowance) (booked : Prop) (db : RewardDB) : RewardDB → Prop
  | prepared {b : Budget} (h : BudgetMove A db.budget b) :
      RewardMove A booked db { db with budget := b }
  | paid {db' : RewardDB} {t : AgentBudgetTransaction} {u f d : Int}
      (h : Payout booked db db' t u f d) : RewardMove A booked db db'

/-- What a whole reward transaction does. -/
def RewardMoves (A : Allowance) (booked : Prop) : RewardDB → RewardDB → Prop :=
  Relation.ReflTransGen (RewardMove A booked)

namespace RewardMoves

variable {A : Allowance} {booked : Prop} {db db' db'' : RewardDB}

theorem refl (db : RewardDB) : RewardMoves A booked db db := Relation.ReflTransGen.refl

theorem trans (h : RewardMoves A booked db db') (h' : RewardMoves A booked db' db'') :
    RewardMoves A booked db db'' := Relation.ReflTransGen.trans h h'

theorem of_prepared (h : Prepared A db.budget b) :
    RewardMoves A booked db { db with budget := b } :=
  h.keeps (I := fun b => RewardMoves A booked db { db with budget := b })
    (fun _ _ hb hmove => hb.tail (.prepared hmove)) (refl db)

theorem of_payout {u : Int} (h : Payout booked db db' t u f d) :
    RewardMoves A booked db db' := Relation.ReflTransGen.single (.paid h)

/-- The invariant rule: what every move keeps, the transaction keeps. -/
theorem keeps {I : RewardDB → Prop} (hstep : ∀ db db', I db → RewardMove A booked db db' → I db')
    (h : RewardMoves A booked db db') (hdb : I db) : I db' := by
  induction h with
  | refl => exact hdb
  | tail _ hmove ih => exact hstep _ _ ih hmove

end RewardMoves

/-! ## Preparation -/

variable {budgetDate key poolType remark siteID source : String} {pool : AgentBudgetPool}

section Preparation

variable {A A' : Allowance} {env : RewardEnv}

/-- A wider allowance permits the same step. -/
theorem BudgetMove.mono (h : BudgetMove A b b') (hseed : ∀ k q, A.seed k q → A'.seed k q)
    (hadjust : ∀ k, A.adjustKey k → A'.adjustKey k) (hraise : ∀ k, A.raiseKey k → A'.raiseKey k) :
    BudgetMove A' b b' := by
  cases h with
  | poolOpened hcreate hs hused hfrozen => exact .poolOpened hcreate (hseed _ _ hs) hused hfrozen
  | fundOpened hcreate hzero => exact .fundOpened hcreate hzero
  | adjusted hp hcreate hadj hpool hkey hlow =>
    exact .adjusted hp hcreate hadj hpool (hadjust _ hkey) hlow
  | raised ha hcreate huser hfund hkey hdelta =>
    exact .raised ha hcreate huser hfund (hraise _ hkey) hdelta

theorem Prepared.mono (h : Prepared A b b') (hseed : ∀ k q, A.seed k q → A'.seed k q)
    (hadjust : ∀ k, A.adjustKey k → A'.adjustKey k) (hraise : ∀ k, A.raiseKey k → A'.raiseKey k) :
    Prepared A' b b' :=
  h.keeps (fun _ _ hc hmove => hc.tail (hmove.mono hseed hadjust hraise)) (.refl b)

theorem RewardMoves.mono {booked : Prop} {db db' : RewardDB} (h : RewardMoves A booked db db')
    (hseed : ∀ k q, A.seed k q → A'.seed k q) (hadjust : ∀ k, A.adjustKey k → A'.adjustKey k)
    (hraise : ∀ k, A.raiseKey k → A'.raiseKey k) : RewardMoves A' booked db db' := by
  refine h.keeps (fun _ _ hc hmove => hc.tail ?_) (.refl db)
  cases hmove with
  | prepared hmove => exact .prepared (hmove.mono hseed hadjust hraise)
  | paid hpayout => exact .paid hpayout

/-- A preparation raises the fund under its own keys only. -/
theorem Prepared.ledger_byKey (h : Prepared A b b') {k : String} (hk : ¬ A.raiseKey k) :
    b'.ledger.byKey k = b.ledger.byKey k := by
  refine h.keeps (I := fun c => c.ledger.byKey k = b.ledger.byKey k) (fun c c' hc hmove => ?_) rfl
  cases hmove with
  | poolOpened => exact hc
  | fundOpened => exact hc
  | adjusted => exact hc
  | @raised a l ledger ha hcreate huser hfund hkey hdelta =>
    have hne : Row.key l ≠ k := fun heq : l.idempotencyKey = k => hk (heq ▸ hkey)
    exact ((byKey_of_create hcreate k).trans (if_neg hne)).trans hc

/-- Creating a pool unless it is there prepares. -/
theorem insertPool_prepared (b : Budget) {p : AgentBudgetPool}
    (hseed : A.seed (Row.key p) p.totalQuota)
    (hused : p.usedQuota = 0) (hfrozen : p.frozenQuota = 0) :
    Prepared A b { b with pools := (b.pools.insertIgnore p).1 } := by
  rcases insertIgnore_cases b.pools p with ⟨-, heq⟩ | ⟨pools, hcreate, heq⟩
  · rw [heq]
    exact .refl b
  · rw [heq]
    exact .of_move (.poolOpened hcreate hseed hused hfrozen)

/-- Creating a fund unless it is there prepares. -/
theorem insertFund_prepared (b : Budget) (hzero : a.balanceQuota = 0) :
    Prepared A b { b with funds := (b.funds.insertIgnore a).1 } := by
  rcases insertIgnore_cases b.funds a with ⟨-, heq⟩ | ⟨funds, hcreate, heq⟩
  · rw [heq]
    exact .refl b
  · rw [heq]
    exact .of_move (.fundOpened hcreate hzero)

/-- The lock of a fund returns a stored account, created if it was missing; opening the account does
not depend on the other tables. -/
theorem ensureOpsFundAccountTx_opened {fundType : String}
    (h : ensureOpsFundAccountTx b siteID fundType = .ok (fund, b')) :
    ∃ funds : Table OpsFundAccount, b' = { b with funds } ∧ fund ∈ funds.rows ∧
      ∀ c : Budget, c.funds = b.funds → Prepared A c { c with funds } := by
  unfold ensureOpsFundAccountTx at h
  dsimp only at h
  split at h
  · cases h
  · next found =>
    cases h
    exact ⟨_, rfl, (byKey_eq_some.mp found).1, fun c hc => hc ▸ insertFund_prepared c rfl⟩

theorem ensureOpsFundAccountTx_prepared {fundType : String}
    (h : ensureOpsFundAccountTx b siteID fundType = .ok (fund, b')) :
    Prepared A b b' ∧ fund ∈ b'.funds.rows ∧ b'.pools = b.pools ∧ b'.ledger = b.ledger ∧
      b'.transactions = b.transactions := by
  obtain ⟨funds, rfl, hmem, hprepared⟩ := ensureOpsFundAccountTx_opened (A := A) h
  exact ⟨hprepared b rfl, hmem, rfl, rfl, rfl⟩

/-- The key of the pool a payout uses; the empty type stands for `daily`. -/
def poolKey (siteID poolType budgetDate : String) : String × String × String :=
  (trimSpace siteID, if trimSpace poolType = "" then "daily" else trimSpace poolType,
    trimSpace budgetDate)

theorem ensureAgentBudgetPoolTx_prepared {totalQuota : Int}
    (h : ensureAgentBudgetPoolTx b siteID poolType budgetDate totalQuota = .ok b')
    (hseed : A.seed (poolKey siteID poolType budgetDate) totalQuota) :
    Prepared A b b' ∧ b'.funds = b.funds ∧ b'.ledger = b.ledger ∧
      b'.transactions = b.transactions := by
  simp only [ensureAgentBudgetPoolTx] at h
  split at h
  · cases h
  · cases h
    exact ⟨insertPool_prepared b hseed rfl rfl, rfl, rfl, rfl⟩

theorem lockAgentBudgetPoolTx_eq_ok :
    lockAgentBudgetPoolTx b siteID poolType budgetDate = .ok pool ↔
      b.pools.byKey (siteID, trimSpace poolType, budgetDate) = some pool := by
  unfold lockAgentBudgetPoolTx
  split
  · next hnone => simp [hnone]
  · next found => simp [found, pure_eq_ok]

/-- Raising a total by nothing changes no pool. -/
theorem updatePool_addTotal_zero (b : Budget) (id : Int) :
    b.updatePool id (addTotal 0) = b := by
  have hself : (b.pools.updateWhere (fun p => p.id = id) (addTotal 0)).1 = b.pools :=
    updateWhere_self fun p _ _ => by simp [addTotal]
  rw [Budget.updatePool, hself]

/-- A replayed adjustment reads a pool and writes nothing. -/
theorem replay_eq_ok {replay : AgentBudgetTransaction} {type : String} {target : Int} {exact : Bool}
    (h : (do
      let pool ← replayBudgetPoolAdjustmentTx b replay siteID poolType budgetDate source type target
        exact
      return (pool, b)) = .ok (pool, b')) : b' = b := by
  obtain ⟨_, -, h⟩ := bind_eq_ok.mp h
  cases h
  rfl

/-- A capacity adjustment prepares: it seeds the pool with its target, or it changes the total by
what the journal records, never below what is committed. -/
theorem adjustBudgetPoolAvailableCapacityTx_prepared {target : Int} {exact : Bool}
    (h : adjustBudgetPoolAvailableCapacityTx env b siteID poolType budgetDate target key remark
      source exact = .ok (pool, b')) (hseed : 0 ≤ target →
      A.seed (env.canonicalSiteID siteID, trimSpace poolType, trimSpace budgetDate) target)
    (hkey : A.adjustKey (trimSpace key)) :
    Prepared A b b' ∧ b'.funds = b.funds ∧ b'.ledger = b.ledger := by
  simp only [adjustBudgetPoolAvailableCapacityTx, ok_iff] at h
  obtain ⟨-, -, -, source', -, hargs, h⟩ := h
  split at h
  · -- the key is taken: nothing is written
    next replay _ =>
    obtain rfl := replay_eq_ok h
    exact ⟨.refl b', rfl, rfl⟩
  · -- the pool is there now, seeded if it was missing
    have hopened : Prepared A b { b with pools := (b.pools.insertIgnore
        { id := b.pools.nextId, siteId := env.canonicalSiteID siteID, poolType := trimSpace poolType,
          budgetDate := trimSpace budgetDate, totalQuota := target }).1 } :=
      insertPool_prepared b (hseed (by omega)) rfl rfl
    obtain ⟨p, hlock, h⟩ := bind_eq_ok.mp h
    obtain ⟨hp, -⟩ := byKey_eq_some.mp (lockAgentBudgetPoolTx_eq_ok.mp hlock)
    have hlow : -p.available ≤
        (if exact = false ∧ target - p.available < 0 then 0 else target - p.available) := by
      split <;> omega
    generalize (if exact = false ∧ target - p.available < 0 then 0 else target - p.available)
      = increase at h hlow
    rcases insertIgnore_cases b.transactions
        { id := b.transactions.nextId, siteId := p.siteId, poolId := p.id, poolType := p.poolType,
          sourceType := source',
          transactionType := if exact = true then "capacity_set" else "capacity_restore",
          quota := increase, balanceAfter := p.available + increase,
          idempotencyKey := trimSpace key, remark := trimSpace remark }
      with ⟨-, heq⟩ | ⟨transactions, hcreate, heq⟩
    · rw [heq, if_pos rfl] at h
      split at h
      · cases h
      · obtain rfl := replay_eq_ok h
        exact ⟨hopened, rfl, rfl⟩
    · rw [heq, if_neg Nat.one_ne_zero] at h
      simp only [ok_iff, Prod.mk.injEq] at h
      obtain ⟨_, -, -, rfl⟩ := h
      have hadjusted := hopened.trans (.of_move (.adjusted hp hcreate (by
        unfold Adjusts
        cases exact <;> simp) rfl hkey hlow))
      by_cases hzero : increase = 0
      · subst hzero
        rw [updatePool_addTotal_zero] at hadjusted
        exact ⟨hadjusted, rfl, rfl⟩
      · rw [if_pos hzero]
        exact ⟨hadjusted, rfl, rfl⟩

/-- Raising the fund prepares: the increase is what the journal records. -/
theorem ensureOpsFundMinimumWithSourceTx_prepared {minimum : Int}
    (h : ensureOpsFundMinimumWithSourceTx env b siteID minimum key remark source = .ok (fund, b'))
    (hkey : A.raiseKey (trimSpace key)) :
    Prepared A b b' ∧ b'.pools = b.pools ∧ b'.transactions = b.transactions := by
  simp only [ensureOpsFundMinimumWithSourceTx, ok_iff] at h
  obtain ⟨source', -, -, h⟩ := h
  split at h
  · obtain ⟨hprepared, -, hpools, -, htransactions⟩ := ensureOpsFundAccountTx_prepared h
    exact ⟨hprepared, hpools, htransactions⟩
  · simp only [bind_eq_ok, Prod.exists] at h
    obtain ⟨a, b₁, hfund, h⟩ := h
    obtain ⟨hopened, ha, hpools, -, htransactions⟩ := ensureOpsFundAccountTx_prepared (A := A) hfund
    have hdelta : 0 ≤ (if minimum - a.balanceQuota < 0 then 0 else minimum - a.balanceQuota) := by
      split <;> omega
    generalize (if minimum - a.balanceQuota < 0 then 0 else minimum - a.balanceQuota) = delta
      at h hdelta
    rcases insertIgnore_cases b₁.ledger
        { id := b₁.ledger.nextId, siteId := env.canonicalSiteID siteID, fundAccountId := a.id,
          deltaQuota := delta, balanceAfter := a.balanceQuota + delta, sourceType := source',
          idempotencyKey := trimSpace key, remark := trimSpace remark }
      with ⟨-, heq⟩ | ⟨ledger, hcreate, heq⟩
    · rw [heq] at h
      obtain ⟨hprepared, -, hpools', -, htransactions'⟩ := ensureOpsFundAccountTx_prepared (A := A) h
      exact ⟨hopened.trans hprepared, hpools'.trans hpools, htransactions'.trans htransactions⟩
    · rw [heq] at h
      have hraised := hopened.trans (.of_move (.raised ha hcreate rfl rfl hkey hdelta))
      by_cases hzero : 0 < delta
      · rw [if_pos ⟨rfl, hzero⟩] at h
        obtain ⟨hprepared, -, hpools', -, htransactions'⟩ :=
          ensureOpsFundAccountTx_prepared (A := A) h
        exact ⟨hraised.trans hprepared, hpools'.trans hpools, htransactions'.trans htransactions⟩
      · obtain rfl : delta = 0 := by omega
        obtain ⟨hprepared, -, hpools', -, htransactions'⟩ :=
          ensureOpsFundAccountTx_prepared (A := A) h
        rw [add_zero, setFund_self ha] at hraised
        exact ⟨hraised.trans hprepared, hpools'.trans hpools, htransactions'.trans htransactions⟩

/-- What the daily reset of a request may do. -/
def resetAllowance (env : RewardEnv) (requestID : String) : Allowance where
  seed k q := q = currentAgentPoolQuota env k.2.1 ∧ 0 < q
  adjustKey k := ∃ poolType ∈ agentDailyBudgetPoolTypes,
    k = trimSpace (trimSpace requestID ++ ":pool:" ++ poolType)
  raiseKey k := k = trimSpace (trimSpace requestID ++ ":fund")

/-- A pool gets the quota configured for its type, however the type was written. -/
theorem currentAgentPoolQuota_trimSpace (env : RewardEnv) (poolType : String) :
    currentAgentPoolQuota env (trimSpace poolType) = currentAgentPoolQuota env poolType := by
  simp [currentAgentPoolQuota]

theorem restoreDailyPoolsTx_prepared {requestID : String} {poolTypes : List String}
    (hsub : ∀ t ∈ poolTypes, t ∈ agentDailyBudgetPoolTypes)
    (h : restoreDailyPoolsTx env siteID budgetDate (trimSpace requestID) remark poolTypes b = .ok b') :
    Prepared (resetAllowance env requestID) b b' ∧ b'.funds = b.funds ∧ b'.ledger = b.ledger := by
  induction poolTypes generalizing b with
  | nil =>
    cases h
    exact ⟨.refl b', rfl, rfl⟩
  | cons poolType poolTypes ih =>
    obtain ⟨hmem, hsub⟩ := List.forall_mem_cons.mp hsub
    rw [restoreDailyPoolsTx] at h
    split at h
    · exact ih hsub h
    · next hpos =>
      simp only [bind_eq_ok, Prod.exists] at h
      obtain ⟨pool, b₁, hrestore, h⟩ := h
      obtain ⟨hprepared, hfunds, hledger⟩ := adjustBudgetPoolAvailableCapacityTx_prepared
        (A := resetAllowance env requestID) hrestore
        (fun _ => ⟨(currentAgentPoolQuota_trimSpace env poolType).symm, by omega⟩)
        ⟨poolType, hmem, rfl⟩
      obtain ⟨hrest, hfunds', hledger'⟩ := ih hsub h
      exact ⟨hprepared.trans hrest, hfunds'.trans hfunds, hledger'.trans hledger⟩

/-- **The daily reset prepares.** -/
theorem ensureOpsDailyBudgetCapacityForDateTx_prepared {requestID : String}
    (h : ensureOpsDailyBudgetCapacityForDateTx env b siteID budgetDate requestID remark = .ok b') :
    Prepared (resetAllowance env requestID) b b' := by
  simp only [ensureOpsDailyBudgetCapacityForDateTx, failIf_bind_eq_ok] at h
  obtain ⟨-, h⟩ := h
  split at h
  · cases h
    exact .refl b
  · obtain ⟨b₁, hpools, h⟩ := bind_eq_ok.mp h
    have hrestored : Prepared (resetAllowance env requestID) b b₁ := by
      split at hpools
      · exact (restoreDailyPoolsTx_prepared (fun _ ht => ht) hpools).1
      · cases hpools
        exact .refl b
    split at h
    · simp only [ok_iff, Prod.exists] at h
      obtain ⟨fund, b₂, hminimum, rfl⟩ := h
      exact hrestored.trans (ensureOpsFundMinimumWithSourceTx_prepared hminimum rfl).1
    · cases h
      exact hrestored

/-- Entries of the budget journal stay. -/
theorem Prepared.byKey_transactions (h : Prepared A b b') {k : String} {r : AgentBudgetTransaction}
    (hr : b.transactions.byKey k = some r) : b'.transactions.byKey k = some r := by
  refine h.keeps (I := fun c => c.transactions.byKey k = some r) (fun c c' hc hmove => ?_) hr
  cases hmove with
  | poolOpened => exact hc
  | fundOpened => exact hc
  | adjusted hp hcreate => exact byKey_create_of_some hcreate hc
  | raised => exact hc

end Preparation

/-! ## Claims -/

/-- The columns of a claim that a replay must agree on. -/
structure AgentBudgetTransaction.Matches (t t' : AgentBudgetTransaction) : Prop where
  siteId : t.siteId = t'.siteId
  poolId : t.poolId = t'.poolId
  poolType : t.poolType = t'.poolType
  userId : t.userId = t'.userId
  actionId : t.actionId = t'.actionId
  sourceType : t.sourceType = t'.sourceType
  transactionType : t.transactionType = t'.transactionType
  quota : t.quota = t'.quota
  settlementId : t.settlementId = t'.settlementId
  mutationIndex : t.mutationIndex = t'.mutationIndex

/-- A claim enters the journal, or its key belongs to a matching entry. -/
theorem claimAgentBudgetTransactionTx_cases {claimed : Bool}
    (h : claimAgentBudgetTransactionTx b t = .ok (claimed, b')) :
    (claimed = false ∧ b' = b ∧
      ∃ existing, b.transactions.byKey t.idempotencyKey = some existing ∧ existing.Matches t) ∨
    (claimed = true ∧ ∃ transactions, b.transactions.create t = some transactions ∧
      b' = { b with transactions }) := by
  unfold claimAgentBudgetTransactionTx at h
  split at h
  · next transactions hcreate =>
    cases h
    exact .inr ⟨rfl, transactions, hcreate, rfl⟩
  · split at h
    · cases h
    · next existing hfound =>
      simp only [ok_iff, Prod.mk.injEq, not_or, not_not] at h
      obtain ⟨⟨hsite, hpool, htype, huser, haction, hsource, htxn, hquota, hsettle, hindex⟩, rfl,
        rfl⟩ := h
      exact .inl ⟨rfl, rfl, existing, hfound,
        ⟨hsite, hpool, htype, huser, haction, hsource, htxn, hquota, hsettle, hindex⟩⟩

/-! ## Outcomes -/

/-- What a payout may do while it prepares: what the automatic reset of the day may, and the creation
of its own pool with the configured quota. -/
def payoutAllowance (env : RewardEnv) (siteID poolType : String) : Allowance :=
  let reset := resetAllowance env (agentDailyBudgetResetRequestID env siteID env.budgetDate)
  { reset with
    seed := fun k q => reset.seed k q ∨
      (k = poolKey siteID poolType env.budgetDate ∧ q = currentAgentPoolQuota env k.2.1) }

/-- A call that is a claim either finds its key taken, or it pays: `u` of the pool's quota gets used,
the fund gets `f` and the user `d`. -/
inductive Outcome (A : Allowance) (booked : Prop) (db db' : RewardDB)
    (key type source : String) (userId quota u f d : Int) : Prop
  | replayed {b : Budget} {r : AgentBudgetTransaction} (hprepared : Prepared A db.budget b)
      (hfound : b.transactions.byKey key = some r) (hresult : db' = { db with budget := b })
  | paid {b : Budget} {t : AgentBudgetTransaction} (hprepared : Prepared A db.budget b)
      (hpayout : Payout booked { db with budget := b } db' t u f d) (hkey : t.idempotencyKey = key)
      (htype : t.transactionType = type) (hsource : t.sourceType = source) (huser : t.userId = userId)
      (hquota : t.quota = quota)

theorem Outcome.moves {A : Allowance} {booked : Prop} {db db' : RewardDB} {type : String} {u : Int}
    (h : Outcome A booked db db' key type source userId quota u f d) :
    RewardMoves A booked db db' := by
  cases h with
  | replayed hprepared hfound hresult => exact hresult ▸ .of_prepared hprepared
  | paid hprepared hpayout =>
    exact (RewardMoves.of_prepared hprepared).trans (.of_payout hpayout)

/-- The ledger key of the automatic reset of the day. -/
def dailyFundKey (env : RewardEnv) (siteID : String) : String :=
  trimSpace (trimSpace (agentDailyBudgetResetRequestID env siteID env.budgetDate) ++ ":fund")

/-- The fund's journal can take an entry under `fundKey` when the budget entry `key` is new: no row has
the key, and the reset of the day does not use it. -/
def Budget.FundKeyFree (env : RewardEnv) (siteID key fundKey : String) (b : Budget) : Prop :=
  b.transactions.byKey key = none →
    b.ledger.byKey fundKey = none ∧ fundKey ≠ dailyFundKey env siteID

section Outcomes

variable {booked : Prop} {env : RewardEnv} {db db' : RewardDB}

/-- The fund's part of a payout whose journal entry is not checked: the entry is there, or its key was
taken. -/
theorem fundMove_of_insertIgnore {l : OpsFundLedger} (ha : a ∈ b.funds.rows)
    (hcovered : 0 ≤ a.balanceQuota + f) (hid : l.id = b.ledger.nextId) (huser : l.userId = t.userId)
    (hsource : l.sourceType = t.sourceType) (hfund : l.fundAccountId = a.id)
    (hdelta : l.deltaQuota = f)
    (hkey : l.idempotencyKey ∈ [t.idempotencyKey, t.idempotencyKey ++ "_fund"])
    (hbooked : booked → b.ledger.byKey l.idempotencyKey = none) :
    FundMove booked b t f
      { b.setFund a.id (a.balanceQuota + f) with ledger := (b.ledger.insertIgnore l).1 } := by
  rcases insertIgnore_cases b.ledger l with ⟨hnone, heq⟩ | ⟨ledger, hcreate, heq⟩
  · rw [heq]
    refine .skipped ha (fun _ => hcovered) fun hb => ?_
    obtain ⟨x, hx⟩ := (create_eq_none hid).mp hnone
    exact absurd ((hbooked hb).symm.trans hx) (by simp)
  · rw [heq]
    exact .entered ha (fun _ => hcovered) hcreate huser hsource hfund hdelta hkey

theorem Budget.FundKeyFree.free {fundKey : String} (h : b.FundKeyFree env siteID key fundKey)
    (hprepared : Prepared (payoutAllowance env siteID poolType) b b')
    (hnone : b'.transactions.byKey key = none) : b'.ledger.byKey fundKey = none := by
  have hkey : b.transactions.byKey key = none := by
    cases hb : b.transactions.byKey key with
    | none => rfl
    | some r =>
      rw [hprepared.byKey_transactions hb] at hnone
      cases hnone
  obtain ⟨hfree, hraise⟩ := h hkey
  exact (hprepared.ledger_byKey hraise).trans hfree

/-- The missing pool of a payout is seeded with the configured quota of its type. -/
theorem prepared_of_pool (h : ensureAgentBudgetPoolTx b siteID poolType env.budgetDate
      (currentAgentPoolQuota env (if trimSpace poolType = "" then "daily" else trimSpace poolType))
      = .ok b') : Prepared (payoutAllowance env siteID poolType) b b' :=
  (ensureAgentBudgetPoolTx_prepared h (Or.inr ⟨rfl, rfl⟩)).1

/-- What a payout does before it claims its key. -/
theorem prepared_of_reset {b₁ b₂ : Budget}
    (hreset : ensureCurrentAgentDailyBudgetFundingTx env b siteID env.budgetDate = .ok b₁)
    (hpool : ensureAgentBudgetPoolTx b₁ siteID poolType env.budgetDate
      (currentAgentPoolQuota env (if trimSpace poolType = "" then "daily" else trimSpace poolType))
      = .ok b₂) : Prepared (payoutAllowance env siteID poolType) b b₂ :=
  Prepared.trans (A := payoutAllowance env siteID poolType)
    ((ensureOpsDailyBudgetCapacityForDateTx_prepared hreset).mono (fun _ _ hp => Or.inl hp)
      (fun _ hk => hk) fun _ hk => hk) (prepared_of_pool hpool)

theorem payoutAllowance_trimSpace (env : RewardEnv) (siteID poolType : String) :
    payoutAllowance env siteID (trimSpace poolType) = payoutAllowance env siteID poolType := by
  simp [payoutAllowance, poolKey]

theorem mem_of_lock {p : AgentBudgetPool}
    (h : lockAgentBudgetPoolTx b siteID poolType budgetDate = .ok p) : p ∈ b.pools.rows :=
  (byKey_eq_some.mp (lockAgentBudgetPoolTx_eq_ok.mp h)).1

/-- A grant claims its key and pays the user out of pool and fund. -/
theorem grantQuotaFromBudgetPoolWithSourceTx_outcome {metadataJson : String}
    (h : grantQuotaFromBudgetPoolWithSourceTx env userId poolType quota key remark source metadataJson
      db = .ok ((), db'))
    (hbooked : booked → db.budget.FundKeyFree env (env.canonicalSiteID env.setting.siteID)
      (trimSpace key) (trimSpace key)) :
    Outcome (payoutAllowance env (env.canonicalSiteID env.setting.siteID) poolType) booked db db'
      (trimSpace key) "grant" (if trimSpace source = "" then "reward_grant" else trimSpace source) userId
      quota quota (-quota) quota := by
  rw [grantQuotaFromBudgetPoolWithSourceTx] at h
  dsimp only [currentAgentBudgetPoolMeta] at h
  simp only [rewardArguments, ok_iff, Prod.exists, not_le] at h
  obtain ⟨_, ⟨huser, hquota, hkey, rfl⟩, b₁, hreset, b₂, hpool, p, hlock, a, b₃, hfund, claimed, b₄,
    hclaim, h⟩ := h
  have hprepared := prepared_of_reset hreset hpool
  obtain ⟨hopened, ha, hpools, -, -⟩ := ensureOpsFundAccountTx_prepared
    (A := payoutAllowance env (env.canonicalSiteID env.setting.siteID) poolType) hfund
  have hp : p ∈ b₃.pools.rows := hpools ▸ mem_of_lock hlock
  rcases claimAgentBudgetTransactionTx_cases hclaim
    with ⟨rfl, rfl, existing, hexisting, -⟩ | ⟨rfl, transactions, hcreate, rfl⟩
  · cases h
    exact .replayed (hprepared.trans hopened) hexisting rfl
  · rw [if_neg (by decide)] at h
    simp only [ok_iff, Prod.exists, not_lt, Prod.mk.injEq, true_and] at h
    obtain ⟨havailable, hbalance, applied, wallet, happly, rfl⟩ := h
    refine .paid (hprepared.trans hopened)
      { claim := hcreate
        keeps_capacity := by simp [Adjusts]
        key_trimmed := trimSpace_trimSpace key
        key_ne := hkey
        user_pos := huser
        used_nonneg := hquota.le
        pool := ⟨p, hp, rfl, fun h => by simpa [frozenDelta] using h,
          .inr (by simpa [frozenDelta] using havailable)⟩
        pools := by
          rw [addUsed_eq]
          rfl
        balanced := by simp [frozenDelta]
        fund := ?_
        user := .mutated happly rfl rfl rfl (by simp [rewardTypes]) } rfl rfl rfl rfl rfl
    refine ⟨_, fundMove_of_insertIgnore ha (by omega) ?_ ?_ ?_ ?_ ?_ (by simp) fun hb => ?_, rfl, rfl⟩
    rotate_right
    · exact (hbooked hb).free (hprepared.trans hopened) (byKey_none_of_create hcreate)
    all_goals rfl

/-- A reservation claims its key and freezes quota that the fund pays for. -/
theorem reserveQuotaFromBudgetPoolWithSourceTx_outcome
    (h : reserveQuotaFromBudgetPoolWithSourceTx env b userId poolType quota key remark source = .ok b')
    (hbooked : booked → b.FundKeyFree env (env.canonicalSiteID env.setting.siteID)
      (trimSpace key) (trimSpace key ++ "_fund")) (w : Wallet) :
    Outcome (payoutAllowance env (env.canonicalSiteID env.setting.siteID) poolType) booked ⟨w, b⟩ ⟨w, b'⟩
      (trimSpace key) "reserve" (if trimSpace source = "" then "reserve" else trimSpace source) userId
      quota 0 (-quota) 0 := by
  simp only [reserveQuotaFromBudgetPoolWithSourceTx, rewardArguments, currentAgentBudgetPoolMeta,
      ok_iff, Prod.exists, not_le] at h
  obtain ⟨_, ⟨huser, hquota, hkey, rfl⟩, b₁, hreset, b₂, hpool, p, hlock, claimed, b₃, hclaim, h⟩ := h
  have hprepared := prepared_of_reset hreset hpool
  rcases claimAgentBudgetTransactionTx_cases hclaim
    with ⟨rfl, rfl, existing, hexisting, -⟩ | ⟨rfl, transactions, hcreate, rfl⟩
  · cases h
    exact .replayed hprepared hexisting rfl
  · rw [if_neg (by decide)] at h
    simp only [ok_iff, Prod.exists, not_lt] at h
    obtain ⟨havailable, a, b₄, hfund, hbalance, rfl⟩ := h
    -- the account could as well have been opened before the claim
    obtain ⟨funds, rfl, ha, hopened⟩ := ensureOpsFundAccountTx_opened
      (A := payoutAllowance env (env.canonicalSiteID env.setting.siteID) poolType) hfund
    have hprepared := hprepared.trans (hopened b₂ rfl)
    refine .paid hprepared
      { claim := hcreate
        keeps_capacity := by simp [Adjusts]
        key_trimmed := trimSpace_trimSpace key
        key_ne := hkey
        user_pos := huser
        used_nonneg := le_rfl
        pool := ⟨p, mem_of_lock hlock, rfl, fun h => by
            simp only [frozenDelta, if_true]
            omega, .inr (by simpa [frozenDelta] using havailable)⟩
        pools := by
          rw [addFrozen_eq]
          rfl
        balanced := by simp [frozenDelta]
        fund := ?_
        user := .untouched rfl } rfl rfl rfl rfl rfl
    refine ⟨_, fundMove_of_insertIgnore ha (by omega) rfl rfl rfl rfl rfl (by simp) fun hb => ?_, rfl,
      rfl⟩
    exact (hbooked hb).free hprepared (byKey_none_of_create hcreate)

/-- The payout of a reservation claims its key and moves the frozen quota to the user. -/
theorem consumeReservedQuotaFromBudgetPoolTx_outcome
    (h : consumeReservedQuotaFromBudgetPoolTx env userId poolType quota key remark db
      = .ok ((), db')) :
    Outcome (payoutAllowance env (env.canonicalSiteID env.setting.siteID) poolType) booked db db'
      (trimSpace key) "consume_frozen" "consume_frozen" userId quota quota 0 quota := by
  simp only [consumeReservedQuotaFromBudgetPoolTx, rewardArguments, currentAgentBudgetPoolMeta,
      ok_iff, Prod.exists, not_le] at h
  obtain ⟨_, ⟨huser, hquota, hkey, rfl⟩, b₁, hpool, p, hlock, claimed, b₂, hclaim, h⟩ := h
  have hprepared : Prepared (payoutAllowance env (env.canonicalSiteID env.setting.siteID) poolType)
    db.budget b₁ := prepared_of_pool hpool
  rcases claimAgentBudgetTransactionTx_cases hclaim
    with ⟨rfl, rfl, existing, hexisting, -⟩ | ⟨rfl, transactions, hcreate, rfl⟩
  · cases h
    exact .replayed hprepared hexisting rfl
  · rw [if_neg (by decide)] at h
    simp only [ok_iff, Prod.exists, not_lt, Prod.mk.injEq, true_and] at h
    obtain ⟨hfrozen, -, applied, wallet, happly, rfl⟩ := h
    have hp := mem_of_lock hlock
    have hupdate := updateWhere_and (f := consumeFrozen quota) hp
      (c := fun x => quota ≤ x.frozenQuota) hfrozen
    exact .paid hprepared
      { claim := hcreate
        keeps_capacity := by simp [Adjusts]
        key_trimmed := trimSpace_trimSpace key
        key_ne := hkey
        user_pos := huser
        used_nonneg := hquota.le
        pool := ⟨p, hp, rfl, fun _ => by
            simp only [frozenDelta]
            omega, .inl (by simp [frozenDelta])⟩
        pools := by
          rw [show b₁.pools.updateWhere (fun x => x.id = p.id ∧ quota ≤ x.frozenQuota) _ = _ from
              hupdate]
          rfl
        balanced := by simp [frozenDelta]
        fund := ⟨b₁, .untouched rfl, rfl, rfl⟩
        user := .mutated happly rfl rfl rfl (by simp [rewardTypes]) } rfl rfl rfl rfl rfl

/-- Grants and charges neither adjust capacity nor freeze quota. -/
theorem not_adjusts_of_sign (delta : Int)
    (h : t.transactionType = if 0 < delta then "grant" else "charge") : ¬ t.Adjusts := by
  unfold Adjusts
  rw [h]
  split <;> simp

theorem frozenDelta_of_sign (delta : Int)
    (h : t.transactionType = if 0 < delta then "grant" else "charge") : t.frozenDelta = 0 := by
  unfold frozenDelta
  rw [h]
  split <;> simp

theorem mem_rewardTypes_of_sign (delta : Int) :
    (if 0 < delta then "ops_grant" else "ops_charge") ∈ rewardTypes := by
  split <;> simp [rewardTypes]

/-- A signed mutation claims its key and moves quota between fund and user, a positive one within the
cap of the pool; where the fund's journal has the key already, it only claims. -/
theorem applyQuotaMutationTx_outcome {settlementID metadataJson : String}
    {userID delta actionID mutationIndex : Int}
    (h : applyQuotaMutationTx env siteID userID delta poolType source key remark actionID settlementID
      mutationIndex metadataJson db = .ok ((), db')) :
    ∃ u f d, Outcome (payoutAllowance env siteID poolType) booked db db' (trimSpace key)
      (if 0 < delta then "grant" else "charge")
      (if trimSpace source = "" then (if delta < 0 then "game_stake" else "reward_grant")
        else trimSpace source) userID delta u f d := by
  simp only [applyQuotaMutationTx, currentAgentBudgetPoolMeta, ok_iff, Prod.exists, not_le] at h
  obtain ⟨huser, hdelta, _, -, hkey, b₁, hreset, b₂, hpool, p, hlock, a, b₃, hfund, claimed, b₄,
    hclaim, h⟩ := h
  have hprepared : Prepared (payoutAllowance env siteID poolType) db.budget b₂ := by
    rw [← payoutAllowance_trimSpace]
    split at hreset
    · exact prepared_of_reset hreset hpool
    · cases hreset
      exact prepared_of_pool hpool
  obtain ⟨hopened, ha, hpools, -, -⟩ :=
    ensureOpsFundAccountTx_prepared (A := payoutAllowance env siteID poolType) hfund
  have hprepared := hprepared.trans hopened
  have hp : p ∈ b₃.pools.rows := hpools ▸ mem_of_lock hlock
  rcases claimAgentBudgetTransactionTx_cases hclaim
    with ⟨rfl, rfl, existing, hexisting, -⟩ | ⟨rfl, transactions, hcreate, rfl⟩
  · cases h
    exact ⟨0, 0, 0, .replayed hprepared hexisting rfl⟩
  rw [if_neg (by decide)] at h
  rcases insertIgnore_cases b₃.ledger
      { id := b₃.ledger.nextId, siteId := siteID, fundAccountId := a.id, deltaQuota := -delta,
        balanceAfter := a.balanceQuota,
        sourceType := if trimSpace source = "" then (if delta < 0 then "game_stake" else "reward_grant")
          else trimSpace source,
        sourcePoolType := trimSpace poolType, userId := userID, actionId := actionID,
        settlementId := cutSettlementID
          (if trimSpace settlementID = "" then stableQuotaReplaySettlementID env (trimSpace key)
          else trimSpace settlementID),
        mutationIndex := if mutationIndex < 0 then 0 else mutationIndex,
        idempotencyKey := trimSpace key, remark, metadataJson }
    with ⟨-, heq⟩ | ⟨ledger, hledger, heq⟩
  · -- only the claim is written
    rw [heq] at h
    cases h
    exact ⟨0, 0, 0, .paid hprepared
      { claim := hcreate
        keeps_capacity := not_adjusts_of_sign delta rfl
        key_trimmed := trimSpace_trimSpace key
        key_ne := hkey
        user_pos := huser
        used_nonneg := le_rfl
        pool := ⟨p, hp, rfl, fun h => by rwa [frozenDelta_of_sign delta rfl, add_zero],
          .inl (by rw [frozenDelta_of_sign delta rfl, add_zero])⟩
        pools := by
          rw [frozenDelta_of_sign delta rfl, updatePool_commit_zero]
        balanced := by rw [frozenDelta_of_sign delta rfl]; rfl
        fund := ⟨b₃, .untouched rfl, rfl, rfl⟩
        user := .untouched rfl } rfl rfl rfl rfl rfl⟩
  · rw [heq, if_neg Nat.one_ne_zero] at h
    simp only [ok_iff, Prod.exists, not_and, not_lt, Prod.mk.injEq, true_and] at h
    obtain ⟨havailable, hbalance, applied, wallet, happly, h⟩ := h
    -- a charge commits nothing
    have hcommit : ∀ b : Budget,
        (if 0 < delta then b.updatePool p.id (addUsed delta) else b)
          = b.updatePool p.id (commit (if 0 < delta then delta else 0) 0) := by
      intro b
      split
      · rw [addUsed_eq]
      · rw [updatePool_commit_zero]
    rw [hcommit] at h
    subst h
    -- the entry gets its balance after the fact, as if it had been inserted complete
    have hcomplete := create_updateWhere hledger
      (OpsFundLedger.setBalanceAfter (a.balanceQuota - delta))
      (p := fun l => l.id = b₃.ledger.nextId) fun x => by simp [Row.id]
    exact ⟨if 0 < delta then delta else 0, -delta, delta, .paid hprepared
      { claim := hcreate
        keeps_capacity := not_adjusts_of_sign delta rfl
        key_trimmed := trimSpace_trimSpace key
        key_ne := hkey
        user_pos := huser
        used_nonneg := by split <;> omega
        pool := ⟨p, hp, rfl, fun h => by rwa [frozenDelta_of_sign delta rfl, add_zero], by
          rw [frozenDelta_of_sign delta rfl, add_zero]
          split
          · next hpos => exact .inr (havailable hpos)
          · exact .inl rfl⟩
        pools := by
          rw [frozenDelta_of_sign delta rfl]
          rfl
        balanced := by rw [frozenDelta_of_sign delta rfl]; omega
        fund := by
          refine ⟨_, .entered ha (fun h => ?_) hcomplete rfl rfl rfl rfl (.head _), rfl, rfl⟩
          by_cases hpos : 0 < delta
          · omega
          · omega
        user := .mutated happly rfl rfl rfl (mem_rewardTypes_of_sign delta) } rfl rfl rfl rfl rfl⟩

end Outcomes

end Prox
