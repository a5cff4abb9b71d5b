import Prox.Reward.Calls

/-! # Conservation of reward money

Money moves between three places: the users' wallets, the operations funds and the frozen quota of the
pools. Its sum changes only when a fund is raised to its minimum, by what the fund's journal records for
that, and no fund is ever overdrawn. A fund can be recomputed from its journal as long as the journal
can take the entry of every grant and reservation: neither checks whether its entry was written. -/

namespace Prox

open Budget OpsFundAccount Table

/-! ## The books -/

/-- The sum of all users' quota. -/
def Wallet.totalQuota (w : Wallet) : Int := w.users.total (fun _ => true) User.quota

namespace Budget

/-- The balance of a fund; zero before its account exists. -/
def fundBalance (b : Budget) (id : Int) : Int := b.funds.total (fun a => a.id = id) OpsFundAccount.balanceQuota

/-- The sum of a fund's journal. -/
def fundDeltas (b : Budget) (id : Int) : Int :=
  b.ledger.total (fun l => l.fundAccountId = id) OpsFundLedger.deltaQuota

/-- What the journals record as raises: the entries that belong to no user. -/
def raises (b : Budget) : Int := b.ledger.total (fun l => l.userId = 0) OpsFundLedger.deltaQuota

/-- The sum of all funds. -/
def totalFunds (b : Budget) : Int := b.funds.total (fun _ => true) OpsFundAccount.balanceQuota

/-- The sum of what the pools hold frozen. -/
def totalFrozen (b : Budget) : Int := b.pools.total (fun _ => true) AgentBudgetPool.frozenQuota

/-- No fund is overdrawn. -/
def Covered (b : Budget) : Prop := ∀ a ∈ b.funds.rows, 0 ≤ a.balanceQuota

end Budget

namespace RewardDB

/-- All money of the reward system. -/
def money (db : RewardDB) : Int :=
  db.wallet.totalQuota + db.budget.totalFunds + db.budget.totalFrozen

/-- A payout in the wallet journal belongs to an entry of the budget journal. -/
def Claimed (db : RewardDB) : Prop :=
  ∀ k t, db.wallet.transactions.byKey ("user:" ++ k) = some t → t.transactionType ∈ rewardTypes →
    ∃ r, db.budget.transactions.byKey k = some r

end RewardDB

/-! ## Moves of the budget -/

section Budget

variable {A : Allowance} {booked : Prop} {b b' : Budget} {a : OpsFundAccount}

/-- Setting a balance changes the sums over the fund by the difference. -/
theorem total_setFund (ha : a ∈ b.funds.rows) (balance : Int) (q : OpsFundAccount → Bool)
    (hq : q { a with balanceQuota := balance } = q a) :
    (b.setFund a.id balance).funds.total q balanceQuota
      = b.funds.total q balanceQuota + if q a then balance - a.balanceQuota else 0 := by
  have htotal := total_updateWhere_id (f := setBalance balance) q
    balanceQuota ha (p := fun x => x.id = a.id) fun x => by simp [Row.id]
  simp only [setBalance, hq] at htotal
  refine htotal.trans ?_
  split <;> omega

theorem fundBalance_setFund (ha : a ∈ b.funds.rows) (balance id : Int) :
    (b.setFund a.id balance).fundBalance id
      = b.fundBalance id + if a.id = id then balance - a.balanceQuota else 0 := by
  simpa [fundBalance] using total_setFund ha balance (fun x => x.id = id) rfl

theorem totalFunds_setFund (ha : a ∈ b.funds.rows) (balance : Int) :
    (b.setFund a.id balance).totalFunds = b.totalFunds + (balance - a.balanceQuota) := by
  simpa [totalFunds] using total_setFund ha balance (fun _ => true) rfl

/-- A fund stays covered when its new balance is. -/
theorem Budget.Covered.setFund (h : b.Covered) {id balance : Int} (hbalance : 0 ≤ balance) :
    (b.setFund id balance).Covered := by
  intro x hx
  obtain ⟨y, hy, rfl⟩ := List.mem_map.mp hx
  split
  · exact hbalance
  · exact h y hy

/-- What a preparing step does to the books: it moves no frozen quota, and it raises funds by what
their journals record as raises. -/
structure BudgetMove.Books (b b' : Budget) : Prop where
  fund : ∀ id, b'.fundBalance id - b.fundBalance id = b'.fundDeltas id - b.fundDeltas id
  funds : b'.totalFunds - b.totalFunds = b'.raises - b.raises
  frozen : b'.totalFrozen = b.totalFrozen
  covered : b.Covered → b'.Covered

theorem BudgetMove.books (h : BudgetMove A b b') : BudgetMove.Books b b' := by
  cases h with
  | poolOpened hcreate hseed hused hfrozen =>
    have hpools := total_of_create hcreate (fun _ => true) AgentBudgetPool.frozenQuota
    rw [hfrozen, if_pos rfl, add_zero] at hpools
    exact ⟨fun _ => by simp [fundBalance, fundDeltas],
      by simp [totalFunds, raises], hpools, id⟩
  | @fundOpened a funds hcreate hzero =>
    have htotal : ∀ q, funds.total q balanceQuota
        = b.funds.total q balanceQuota := by
      intro q
      rw [total_of_create hcreate, hzero, ite_self, add_zero]
    refine ⟨fun id => ?_, ?_, rfl, fun hcovered x hx => ?_⟩
    · simp [fundBalance, fundDeltas, htotal]
    · simp [totalFunds, raises, htotal]
    · rcases (mem_of_create hcreate).mp hx with hx | rfl
      · exact hcovered x hx
      · exact hzero.ge
  | adjusted =>
    refine ⟨fun _ => by simp [fundBalance, fundDeltas, updatePool],
      by simp [totalFunds, raises, updatePool], ?_, id⟩
    exact total_updateWhere (fun _ => rfl) fun _ => rfl
  | @raised a l ledger ha hcreate huser hfund hkey hdelta =>
    have hledger := fun q => total_of_create hcreate q OpsFundLedger.deltaQuota
    refine ⟨fun id => ?_, ?_, rfl, fun hcovered => hcovered.setFund ?_⟩
    · have hbalance := fundBalance_setFund ha (a.balanceQuota + l.deltaQuota) id
      have hdeltas := hledger fun x => x.fundAccountId = id
      simp only [fundBalance, fundDeltas, decide_eq_true_eq] at *
      split at hbalance <;> simp_all
    · have hbalance := totalFunds_setFund ha (a.balanceQuota + l.deltaQuota)
      have hraises := hledger fun x => x.userId = 0
      rw [huser, decide_eq_true rfl, if_pos rfl] at hraises
      simp only [totalFunds, raises] at *
      omega
    · have := hcovered a ha
      omega

/-- What the fund's part of a payout does to the books. -/
theorem FundMove.books {t : AgentBudgetTransaction} {f : Int} (h : FundMove booked b t f b')
    (huser : 0 < t.userId) :
    b'.totalFunds = b.totalFunds + f ∧ b'.raises = b.raises ∧ (b.Covered → b'.Covered) ∧
      (booked → ∀ id, b'.fundBalance id - b.fundBalance id = b'.fundDeltas id - b.fundDeltas id) := by
  cases h with
  | untouched hf => exact ⟨by omega, rfl, id, fun _ _ => by omega⟩
  | @entered a l ledger ha hcovered hcreate hluser hsource hfund hdelta hkey =>
    have hledger := fun q => total_of_create hcreate q OpsFundLedger.deltaQuota
    refine ⟨?_, ?_, fun h => h.setFund (hcovered (h a ha)), fun _ id => ?_⟩
    · have := totalFunds_setFund ha (a.balanceQuota + f)
      simp only [totalFunds] at *
      omega
    · have hraises := hledger fun x => x.userId = 0
      rw [if_neg (by simp only [decide_eq_true_eq]; omega), add_zero] at hraises
      exact hraises
    · have hbalance := fundBalance_setFund ha (a.balanceQuota + f) id
      have hdeltas := hledger fun x => x.fundAccountId = id
      simp only [fundBalance, fundDeltas, decide_eq_true_eq] at *
      split at hbalance <;> simp_all
  | @skipped a ha hcovered hbooked =>
    refine ⟨?_, rfl, fun h => h.setFund (hcovered (h a ha)), fun hb => absurd hb hbooked⟩
    have := totalFunds_setFund ha (a.balanceQuota + f)
    omega

end Budget

/-! ## Payouts -/

section Payout

variable {A : Allowance} {booked : Prop} {db db' : RewardDB} {t : AgentBudgetTransaction} {u f d : Int}

/-- The balance change of a posting, summed over all users. -/
theorem Posting.totalQuota {w w' : Wallet} {t : UserQuotaTransaction} (h : Posting w w' t) :
    w'.totalQuota = w.totalQuota + t.deltaQuota := by
  obtain ⟨u, hu, -⟩ := h.user
  obtain ⟨hmem, hid⟩ := byId_eq_some.mp hu
  have htotal := total_updateWhere_id (f := User.addQuota t.deltaQuota) (fun _ => true) User.quota
    hmem (p := fun x => x.id = t.userId) fun x => by simp [Row.id] at hid ⊢; rw [hid]
  rw [Wallet.totalQuota, h.users]
  refine htotal.trans ?_
  simp only [if_true, User.addQuota, Wallet.totalQuota]
  omega

/-- The key of a payout in the wallet journal. -/
theorem Payout.userKey (h : Payout booked db db' t u f d) :
    trimSpace ("user:" ++ t.idempotencyKey) = "user:" ++ t.idempotencyKey :=
  trimSpace_append (by decide +kernel) h.key_trimmed (by decide) h.key_ne

/-- **A payout reaches its user**: its key in the wallet journal is free, because the entry of the budget
journal is new. -/
theorem Payout.totalQuota (h : Payout booked db db' t u f d) (hclaimed : db.Claimed) :
    db'.wallet.totalQuota = db.wallet.totalQuota + d ∧ db'.Claimed := by
  -- entries of the budget journal stay
  have hgrows : ∀ k r, db.budget.transactions.byKey k = some r →
      ∃ r, db'.budget.transactions.byKey k = some r := by
    intro k r hr
    rw [byKey_of_create h.claim]
    split
    · exact ⟨t, rfl⟩
    · exact ⟨r, hr⟩
  rcases h.user.cases with ⟨rfl, hsame⟩ | ⟨m, applied, happly, huser, hdelta, hkey, htype⟩
  · rw [hsame, add_zero]
    refine ⟨rfl, fun k t' hk htype => ?_⟩
    rw [hsame] at hk
    obtain ⟨r, hr⟩ := hclaimed k t' hk htype
    exact hgrows k r hr
  · obtain ⟨t', ht', htype'⟩ := applyUserQuotaMutationTx_type happly
    have htrim := h.userKey
    rw [hkey, htrim] at ht'
    have hreward : ∀ s ∈ rewardTypes, trimSpace s ∈ rewardTypes := by decide +kernel
    rcases applyUserQuotaMutationTx_cases happly
      with ⟨-, hsame, -⟩ | ⟨-, -, x, hpost, -, hxkey, -, hxdelta⟩
    · -- the key would belong to an earlier payout, which would have claimed the entry
      rw [hsame] at ht'
      obtain ⟨r, hr⟩ := hclaimed _ t' ht' (htype' ▸ hreward _ htype)
      have hnone : db.budget.transactions.byKey t.idempotencyKey = none :=
        byKey_none_of_create h.claim
      rw [hnone] at hr
      cases hr
    · refine ⟨by rw [hpost.totalQuota, hxdelta, hdelta], fun k t'' hk hktype => ?_⟩
      rw [byKey_of_create hpost.journal] at hk
      split at hk
      · next heq =>
        have heq : "user:" ++ t.idempotencyKey = "user:" ++ k := by
          rw [← htrim, ← hkey, ← hxkey]
          exact heq
        rw [← String.append_right_inj _ |>.mp heq]
        exact ⟨t, (byKey_of_create h.claim _).trans (if_pos rfl)⟩
      · obtain ⟨r, hr⟩ := hclaimed k t'' hk hktype
        exact hgrows k r hr

/-- The frozen quota changes by what the entry says. -/
theorem Payout.totalFrozen (h : Payout booked db db' t u f d) :
    db'.budget.totalFrozen = db.budget.totalFrozen + t.frozenDelta := by
  obtain ⟨p, hp, hpool, -⟩ := h.pool
  have htotal := total_updateWhere_id (f := AgentBudgetPool.commit u t.frozenDelta)
    (fun _ => true) AgentBudgetPool.frozenQuota hp (p := fun x => x.id = t.poolId)
    fun x => by simp [Row.id, hpool]
  rw [Budget.totalFrozen, h.pools]
  refine htotal.trans ?_
  simp only [if_true, AgentBudgetPool.commit, Budget.totalFrozen]
  omega

end Payout

/-! ## Runs -/

/-- What holds of the books of `db` when a run started from `db₀`. -/
structure Conserved (booked : Prop) (db₀ db : RewardDB) : Prop where
  claimed : db.Claimed
  covered : db.budget.Covered
  /-- Only raises create money. -/
  money : db.money - db₀.money = db.budget.raises - db₀.budget.raises
  /-- A fund moves with its journal, when the journal gets every entry. -/
  fund : booked → ∀ id, db.budget.fundBalance id - db₀.budget.fundBalance id
    = db.budget.fundDeltas id - db₀.budget.fundDeltas id

section Runs

variable {A : Allowance} {booked : Prop} {db₀ db db' : RewardDB}

/-- **Step lemma**: every move keeps the books. -/
theorem Conserved.move (h : Conserved booked db₀ db) (hmove : RewardMove A booked db db') :
    Conserved booked db₀ db' := by
  cases hmove with
  | @prepared b hmove =>
    obtain ⟨hfund, hfunds, hfrozen, hcovered⟩ := hmove.books
    refine ⟨fun k t hk htype => ?_, hcovered h.covered, ?_, fun hb id => ?_⟩
    · obtain ⟨r, hr⟩ := h.claimed k t hk htype
      exact ⟨r, (Prepared.of_move hmove).byKey_transactions hr⟩
    · have := h.money
      simp only [RewardDB.money] at *
      omega
    · have := h.fund hb id
      have := hfund id
      show b.fundBalance id - _ = b.fundDeltas id - _
      omega
  | @paid db' t u f d hpay =>
    obtain ⟨hquota, hclaimed⟩ := hpay.totalQuota h.claimed
    obtain ⟨b, hfund, hfunds, hledger⟩ := hpay.fund
    obtain ⟨htotal, hraises, hcovered, hbalance⟩ := hfund.books hpay.user_pos
    -- funds and journal are those after the fund's part
    have hbalances : ∀ id, db'.budget.fundBalance id = b.fundBalance id := fun id => by
      rw [fundBalance, fundBalance, hfunds]
    have hdeltas : ∀ id, db'.budget.fundDeltas id = b.fundDeltas id := fun id => by
      rw [fundDeltas, fundDeltas, hledger]
    refine ⟨hclaimed, fun a ha => hcovered h.covered a (hfunds ▸ ha), ?_, fun hb id => ?_⟩
    · have hfrozen := hpay.totalFrozen
      have hbalanced := hpay.balanced
      have hmoney := h.money
      have htotal' : db'.budget.totalFunds = b.totalFunds := by
        rw [totalFunds, totalFunds, hfunds]
      have hraises' : db'.budget.raises = b.raises := by
        rw [raises, raises, hledger]
      simp only [RewardDB.money] at *
      omega
    · have := h.fund hb id
      have := hbalance hb id
      rw [hbalances, hdeltas]
      omega

theorem Conserved.step (h : Conserved booked db₀ db) {e : RewardEvent}
    (hbooked : booked → e.op.FundKeyFree e.env db.budget) : Conserved booked db₀ (db.step e) :=
  RewardDB.step_keeps hbooked (fun _ _ h hmove => h.move hmove) h

theorem Conserved.refl (hclaimed : db.Claimed) (hcovered : db.budget.Covered) :
    Conserved booked db db :=
  ⟨hclaimed, hcovered, by omega, fun _ _ => by omega⟩

end Runs

instance (env : RewardEnv) (siteID key fundKey : String) (b : Budget) :
    Decidable (b.FundKeyFree env siteID key fundKey) :=
  inferInstanceAs (Decidable (_ → _))

instance (env : RewardEnv) (op : RewardOp) (b : Budget) : Decidable (op.FundKeyFree env b) :=
  match op with
  | .call (.grant ..) => inferInstanceAs (Decidable (b.FundKeyFree ..))
  | .call (.reserve ..) => inferInstanceAs (Decidable (b.FundKeyFree ..))
  | .call (.consumeReserved ..) => inferInstanceAs (Decidable True)
  | .call (.mutate ..) => inferInstanceAs (Decidable True)
  | .call (.settleBatch ..) => inferInstanceAs (Decidable True)
  | .ensureFundMinimum .. => inferInstanceAs (Decidable True)
  | .restoreCapacity .. => inferInstanceAs (Decidable True)
  | .setAvailableCapacity .. => inferInstanceAs (Decidable True)
  | .dailyReset .. => inferInstanceAs (Decidable True)

/-- The fund is raised to `100` under one key, and `10` are granted under another. -/
def grantEvents (raiseKey grantKey : String) : List RewardEvent :=
  [⟨plainRewardEnv "2026-06-21", none,
      .ensureFundMinimum "site" 100 raiseKey "" "admin_budget_restore"⟩,
    ⟨plainRewardEnv "2026-06-21", none, .call (.grant 1 "growth" 10 grantKey "" "" "")⟩]

end Prox
