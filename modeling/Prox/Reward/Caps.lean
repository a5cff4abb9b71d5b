import Prox.Reward.Calls

/-! # The caps of the budget pools

A pool never gives out more than its total: what is used and what is frozen stay non-negative and fit
under it, and the total is what the pool was created with plus the adjustments in its journal. The cap
rests on the configured quotas: a pool that a payout creates with a negative one starts over its cap. -/

namespace Prox

open AgentBudgetPool List

/-! ## What a pool was created with -/

/-- The sum of the journal entries that adjust a pool. -/
def Budget.adjustments (b : Budget) (id : Int) : Int :=
  b.transactions.total (fun t => t.poolId = id ∧ t.Adjusts) AgentBudgetTransaction.quota

/-- The total of a pool without its adjustments. -/
def Budget.seedOf (b : Budget) (p : AgentBudgetPool) : Int := p.totalQuota - b.adjustments p.id

/-- An adjusting entry belongs to a stored pool. -/
def Budget.Referenced (b : Budget) : Prop :=
  ∀ t ∈ b.transactions.rows, t.Adjusts → ∃ p ∈ b.pools.rows, p.id = t.poolId

theorem adjustments_of_create {b : Budget} {t : AgentBudgetTransaction}
    {transactions : Table AgentBudgetTransaction} (h : b.transactions.create t = some transactions)
    (id : Int) : ({ b with transactions } : Budget).adjustments id
      = b.adjustments id + if t.poolId = id ∧ t.Adjusts then t.quota else 0 := by
  simp [Budget.adjustments, Table.total_of_create h]

/-- What a pool commits is not negative. -/
def AgentBudgetPool.Nonneg (p : AgentBudgetPool) : Prop := 0 ≤ p.usedQuota ∧ 0 ≤ p.frozenQuota

/-- What a pool commits fits under its total. -/
def AgentBudgetPool.Within (p : AgentBudgetPool) : Prop := p.usedQuota + p.frozenQuota ≤ p.totalQuota

/-! ## Steps -/

/-- How the pools of `b` have come from those of `b₀`, with new pools created as `seeds` says and, when
`checked`, never with a negative total. -/
structure Grown (seeds : String × String × String → Int → Prop) (checked : Prop) (b₀ b : Budget) :
    Prop where
  /-- Pools stay. -/
  keys : ∀ k, b.pools.byKey k = none → b₀.pools.byKey k = none
  ids : ∀ p₀ ∈ b₀.pools.rows, ∃ p ∈ b.pools.rows, p.id = p₀.id
  referenced : b.Referenced
  /-- A pool was there with the same seed, or it is new. -/
  origin : ∀ p ∈ b.pools.rows,
    (∃ p₀ ∈ b₀.pools.rows, p₀.id = p.id ∧ Row.key p₀ = Row.key p ∧ b₀.seedOf p₀ = b.seedOf p) ∨
      ((∀ p₀ ∈ b₀.pools.rows, p₀.id ≠ p.id) ∧ seeds (Row.key p) (b.seedOf p))
  nonneg : ∀ p ∈ b.pools.rows, p.Nonneg
  within : checked → ∀ p ∈ b.pools.rows, p.Within

namespace Grown

variable {seeds : String × String × String → Int → Prop} {checked booked : Prop} {b₀ b b' : Budget}
  {A : Allowance}

/-- Assigning columns of one pool keeps the origin of all pools, if it changes the total by what the
journal gets. -/
theorem updated (h : Grown seeds checked b₀ b) {id : Int} {f : Patch AgentBudgetPool}
    (hpools : b'.pools = (b.updatePool id f).pools) (href : b'.Referenced)
    (hseed : ∀ p ∈ b.pools.rows, b'.seedOf (if p.id = id then f.apply p else p) = b.seedOf p)
    (hnonneg : ∀ p ∈ b.pools.rows, p.id = id → (f.apply p).Nonneg)
    (hwithin : checked → ∀ p ∈ b.pools.rows, p.id = id → (f.apply p).Within) :
    Grown seeds checked b₀ b' := by
  have hrows : b'.pools.rows = b.pools.rows.map fun p => if p.id = id then f.apply p else p := by
    rw [hpools]
    simp [Budget.updatePool]
  have hid : ∀ p, (if p.id = id then f.apply p else p).id = p.id := by
    intro p
    split
    · exact f.id_apply p
    · rfl
  have hkey : ∀ p, Row.key (if p.id = id then f.apply p else p) = Row.key p := by
    intro p
    split
    · exact f.key_apply p
    · rfl
  refine ⟨fun k hk => h.keys k ?_, fun p₀ hp₀ => ?_, href, fun p' hp' => ?_, fun p' hp' => ?_,
    fun hchecked p' hp' => ?_⟩
  · rw [hpools, Budget.updatePool, Table.byKey_updateWhere, Option.map_eq_none_iff] at hk
    exact hk
  · obtain ⟨p, hp, heq⟩ := h.ids p₀ hp₀
    exact ⟨_, hrows ▸ mem_map_of_mem hp, (hid p).trans heq⟩
  · obtain ⟨p, hp, rfl⟩ := mem_map.mp (hrows ▸ hp')
    simp only [hid, hkey, hseed p hp]
    exact h.origin p hp
  · obtain ⟨p, hp, rfl⟩ := mem_map.mp (hrows ▸ hp')
    split
    · next heq => exact hnonneg p hp heq
    · exact h.nonneg p hp
  · obtain ⟨p, hp, rfl⟩ := mem_map.mp (hrows ▸ hp')
    split
    · next heq => exact hwithin hchecked p hp heq
    · exact h.within hchecked p hp

/-- A preparing step keeps what is known of the pools. -/
theorem budgetMove (h : Grown seeds checked b₀ b) (hmove : BudgetMove A b b')
    (hA : ∀ k q, A.seed k q → seeds k q)
    (hchecked : checked → ∀ k q, A.seed k q → b₀.pools.byKey k = none → 0 ≤ q) :
    Grown seeds checked b₀ b' := by
  cases hmove with
  | @poolOpened p pools hcreate hseed hused hfrozen =>
    have hmem : ∀ {x}, x ∈ pools.rows ↔ x ∈ b.pools.rows ∨ x = p := Table.mem_of_create hcreate
    have hfree : b.pools.byKey (Row.key p) = none := Table.byKey_none_of_create hcreate
    have hid : ∀ x ∈ b.pools.rows, x.id ≠ p.id := by
      intro x hx heq
      have hnodup := pools.id_nodup
      rw [Table.rows_of_create hcreate, map_append, nodup_append] at hnodup
      exact hnodup.2.2 _ (mem_map_of_mem hx) _ (mem_singleton.mpr rfl) heq
    -- no entry can refer to the new pool yet
    have hzero : b.adjustments p.id = 0 := by
      refine Table.total_eq_zero _ fun t ht => ?_
      refine decide_eq_false fun hadj => ?_
      obtain ⟨x, hx, hxid⟩ := h.referenced t ht hadj.2
      exact hid x hx (hxid.trans hadj.1)
    refine ⟨fun k hk => h.keys k ?_, fun p₀ hp₀ => ?_, fun t ht hadj => ?_, fun x hx => ?_,
      fun x hx => ?_, fun hc x hx => ?_⟩
    · rw [Table.byKey_of_create hcreate] at hk
      split at hk
      · cases hk
      · exact hk
    · obtain ⟨x, hx, heq⟩ := h.ids p₀ hp₀
      exact ⟨x, hmem.mpr (.inl hx), heq⟩
    · obtain ⟨x, hx, heq⟩ := h.referenced t ht hadj
      exact ⟨x, hmem.mpr (.inl hx), heq⟩
    · rcases hmem.mp hx with hx | rfl
      · exact h.origin x hx
      · refine .inr ⟨fun p₀ hp₀ heq => ?_, ?_⟩
        · obtain ⟨y, hy, hyid⟩ := h.ids p₀ hp₀
          exact hid y hy (hyid.trans heq)
        · show seeds _ (x.totalQuota - b.adjustments x.id)
          rw [hzero, sub_zero]
          exact hA _ _ hseed
    · rcases hmem.mp hx with hx | rfl
      · exact h.nonneg x hx
      · exact ⟨hused.ge, hfrozen.ge⟩
    · rcases hmem.mp hx with hx | rfl
      · exact h.within hc x hx
      · have := hchecked hc _ _ hseed (h.keys _ hfree)
        rw [Within]
        omega
  | fundOpened => exact ⟨h.keys, h.ids, h.referenced, h.origin, h.nonneg, h.within⟩
  | @adjusted p t transactions hp hcreate hadj hpool hkey hlow =>
    have hadjustments := adjustments_of_create hcreate
    refine h.updated (f := addTotal t.quota) rfl ?_ (fun x hx => ?_)
      (fun x hx _ => h.nonneg x hx) fun hc x hx hid => ?_
    · intro t' ht' hadj'
      have hstored : ∃ x ∈ b.pools.rows, x.id = t'.poolId := by
        rcases (Table.mem_of_create hcreate).mp ht' with ht' | rfl
        · exact h.referenced t' ht' hadj'
        · exact ⟨p, hp, hpool.symm⟩
      obtain ⟨x, hx, hxid⟩ := hstored
      refine ⟨_, mem_map_of_mem hx, ?_⟩
      rw [← hxid]
      split <;> rfl
    · show (if x.id = p.id then _ else x).totalQuota - Budget.adjustments { b with transactions } _ = _
      rw [hadjustments]
      by_cases hid : x.id = p.id
      · simp only [addTotal, hpool, hid, hadj, and_self, if_true,
          Budget.seedOf]
        omega
      · have hne : t.poolId ≠ x.id := fun heq => hid (heq.symm.trans hpool)
        rw [if_neg hid, if_neg fun heq => hne heq.1, add_zero]
        rfl
    · obtain rfl : x = p := Table.eq_of_id_eq hx hp hid
      simp only [Within, addTotal, available] at *
      omega
  | raised => exact ⟨h.keys, h.ids, h.referenced, h.origin, h.nonneg, h.within⟩

/-- A payout keeps what is known of the pools. -/
theorem payout {db db' : RewardDB} {t : AgentBudgetTransaction} {u f d : Int}
    (h : Grown seeds checked b₀ db.budget) (hpay : Payout booked db db' t u f d) :
    Grown seeds checked b₀ db'.budget := by
  obtain ⟨p, hp, hpool, hfrozen, hcap⟩ := hpay.pool
  have hadjustments : ∀ id, db'.budget.adjustments id = db.budget.adjustments id := by
    intro id
    have hcreated := adjustments_of_create hpay.claim id
    rw [if_neg fun hadj => hpay.keeps_capacity hadj.2, add_zero] at hcreated
    exact hcreated
  refine h.updated hpay.pools ?_ (fun x hx => ?_) (fun x hx hid => ?_) fun hc x hx hid => ?_
  · intro t' ht' hadj
    have hold : t' ∈ db.budget.transactions.rows := by
      rcases (Table.mem_of_create hpay.claim).mp ht' with ht' | rfl
      · exact ht'
      · exact absurd hadj hpay.keeps_capacity
    obtain ⟨x, hx, hxid⟩ := h.referenced t' hold hadj
    rw [hpay.pools]
    refine ⟨_, mem_map_of_mem hx, ?_⟩
    rw [← hxid]
    split <;> rfl
  · simp only [Budget.seedOf, hadjustments]
    split <;> rfl
  · obtain rfl : x = p := Table.eq_of_id_eq hx hp (hid.trans hpool)
    obtain ⟨hx₁, hx₂⟩ := h.nonneg x hx
    have := hpay.used_nonneg
    exact ⟨by simp only [commit]; omega, hfrozen hx₂⟩
  · obtain rfl : x = p := Table.eq_of_id_eq hx hp (hid.trans hpool)
    have := h.within hc x hx
    simp only [Within, commit, available] at *
    omega

/-- **Step lemma**: every move keeps what is known of the pools. -/
theorem move {db db' : RewardDB} (h : Grown seeds checked b₀ db.budget)
    (hmove : RewardMove A booked db db') (hA : ∀ k q, A.seed k q → seeds k q)
    (hchecked : checked → ∀ k q, A.seed k q → b₀.pools.byKey k = none → 0 ≤ q) :
    Grown seeds checked b₀ db'.budget := by
  cases hmove with
  | prepared hmove => exact h.budgetMove hmove hA hchecked
  | paid hpay => exact h.payout hpay

end Grown

/-! ## Runs -/

/-- The payout creates no pool with a negative total: its pools are there, or their configured quota is
not negative. -/
def RewardOp.SeedsNonneg (env : RewardEnv) (op : RewardOp) (b : Budget) : Prop :=
  match op with
  | .call c => ∀ k ∈ c.poolKeys env, b.pools.byKey k = none → 0 ≤ currentAgentPoolQuota env k.2.1
  | _ => True

instance (env : RewardEnv) (op : RewardOp) (b : Budget) : Decidable (op.SeedsNonneg env b) :=
  match op with
  | .call c => inferInstanceAs (Decidable (∀ k ∈ c.poolKeys env, _))
  | .ensureFundMinimum .. => inferInstanceAs (Decidable True)
  | .restoreCapacity .. => inferInstanceAs (Decidable True)
  | .setAvailableCapacity .. => inferInstanceAs (Decidable True)
  | .dailyReset .. => inferInstanceAs (Decidable True)

/-- Other operations create their pools with a total that is not negative anyway. -/
theorem RewardOp.SeedsNonneg.nonneg {env : RewardEnv} {op : RewardOp} {b : Budget}
    (h : op.SeedsNonneg env b) {k : String × String × String} {q : Int} (hseeds : op.Seeds env k q)
    (hfree : b.pools.byKey k = none) : 0 ≤ q := by
  cases op with
  | call c =>
    obtain ⟨rfl, hpos | hk⟩ := hseeds
    · exact hpos.le
    · exact h k hk hfree
  | ensureFundMinimum => exact hseeds.elim
  | restoreCapacity => exact hseeds.2.2
  | setAvailableCapacity => exact hseeds.2.2
  | dailyReset => exact hseeds.2.le

/-- The pool `p` was created with the total `q`: before the run, or by an event of it that the
settings or the target of the event explain. -/
def CreatedWith (db₀ : RewardDB) (events : List RewardEvent) (p : AgentBudgetPool) (q : Int) : Prop :=
  (∃ p₀ ∈ db₀.budget.pools.rows, p₀.id = p.id ∧ db₀.budget.seedOf p₀ = q) ∨
    ∃ before e after, events = before ++ e :: after ∧
      (∀ p₀ ∈ (run RewardDB.step db₀ before).budget.pools.rows, p₀.id ≠ p.id) ∧
      (∃ p₁ ∈ (run RewardDB.step db₀ (before ++ [e])).budget.pools.rows, p₁.id = p.id) ∧
      e.op.Seeds e.env (Row.key p) q

/-- The pools are sound: no column is negative, entries refer to stored pools and, when `checked`, no
pool exceeds its cap. -/
structure Budget.Sound (checked : Prop) (b : Budget) : Prop where
  referenced : b.Referenced
  nonneg : ∀ p ∈ b.pools.rows, p.Nonneg
  within : checked → ∀ p ∈ b.pools.rows, p.Within

section Runs

variable {checked : Prop} {db db₀ : RewardDB} {events : List RewardEvent}

/-- What one operation does to the pools. -/
theorem Budget.Sound.step (h : db.budget.Sound checked) {e : RewardEvent}
    (he : checked → e.op.SeedsNonneg e.env db.budget) :
    Grown (e.op.Seeds e.env) checked db.budget (db.step e).budget := by
  refine RewardDB.step_keeps (I := fun db' =>
    Grown (e.op.Seeds e.env) checked db.budget db'.budget) False.elim
    (fun _ _ hgrown hmove => hgrown.move hmove (fun _ _ hq => hq)
      fun hc k q hq hfree => (he hc).nonneg hq hfree) ?_
  exact ⟨fun _ hk => hk, fun p hp => ⟨p, hp, rfl⟩, h.referenced, fun p hp => .inl ⟨p, hp, rfl, rfl, rfl⟩,
    h.nonneg, h.within⟩

theorem Grown.sound {seeds : String × String × String → Int → Prop} {b₀ b : Budget}
    (h : Grown seeds checked b₀ b) : b.Sound checked := ⟨h.referenced, h.nonneg, h.within⟩

/-- **Run lemma**: every pool of the end was created with its total less its adjustments. -/
theorem createdWith_run (h : db₀.budget.Sound False) (events : List RewardEvent) :
    (run RewardDB.step db₀ events).budget.Sound False ∧
      ∀ p ∈ (run RewardDB.step db₀ events).budget.pools.rows,
        CreatedWith db₀ events p ((run RewardDB.step db₀ events).budget.seedOf p) := by
  induction events using List.reverseRecOn with
  | nil => exact ⟨h, fun p hp => .inl ⟨p, hp, rfl, rfl⟩⟩
  | append_singleton before e ih =>
    obtain ⟨hsound, hcreated⟩ := ih
    have hgrown := hsound.step (e := e) False.elim
    have hrun : run RewardDB.step db₀ (before ++ [e]) = (run RewardDB.step db₀ before).step e :=
      run_append _ _ _
    rw [hrun]
    refine ⟨hgrown.sound, fun p hp => ?_⟩
    rcases hgrown.origin p hp with ⟨p₁, hp₁, hid, hkey, hseed⟩ | ⟨hnew, hseeds⟩
    · -- the pool was there: what created it lies before the last event
      rcases hcreated p₁ hp₁ with ⟨p₀, hp₀, hid₀, hq⟩ | ⟨l, e', r, rfl, habsent, hpresent, hseeds⟩
      · exact .inl ⟨p₀, hp₀, hid₀.trans hid, hq.trans hseed⟩
      · refine .inr ⟨l, e', r ++ [e], by simp, fun p₀ hp₀ => hid ▸ habsent p₀ hp₀, hid ▸ hpresent, ?_⟩
        rw [← hkey, ← hseed]
        exact hseeds
    · exact .inr ⟨before, e, [], rfl, hnew, ⟨p, hrun ▸ hp, rfl⟩, hseeds⟩

/-- Checked runs stay within the caps. -/
theorem sound_run (h : db₀.budget.Sound checked) (hchecked : checked → Along RewardDB.step
    (fun db e => e.op.SeedsNonneg e.env db.budget) db₀ events) :
    (run RewardDB.step db₀ events).budget.Sound checked := by
  by_cases hc : checked
  · exact run_keeps_along (I := fun db : RewardDB => db.budget.Sound checked)
      (fun _ _ hs he => (hs.step fun _ => he).sound) h (hchecked hc)
  · exact run_keeps (I := fun db : RewardDB => db.budget.Sound checked)
      (fun _ _ hs => (hs.step fun hc' => absurd hc' hc).sound) h events

/-- **Budget caps hold.** Over every run of reward operations, with replays and changing settings, used
and frozen quota of a pool are not negative, and its total is what it was created with plus the
adjustments in its journal. When no payout creates its pool with a negative quota, used and frozen quota
together never exceed the total. -/
theorem budget_caps (db : RewardDB) (h : db.budget.Sound True) (events : List RewardEvent) :
    let b := (run RewardDB.step db events).budget
    (∀ p ∈ b.pools.rows, 0 ≤ p.usedQuota ∧ 0 ≤ p.frozenQuota ∧
        ∃ q, CreatedWith db events p q ∧ p.totalQuota = q + b.adjustments p.id) ∧
      (Along RewardDB.step (fun db e => e.op.SeedsNonneg e.env db.budget) db events →
        ∀ p ∈ b.pools.rows, p.usedQuota + p.frozenQuota ≤ p.totalQuota) := by
  intro b
  obtain ⟨hsound, hcreated⟩ := createdWith_run ⟨h.referenced, h.nonneg, False.elim⟩ events
  refine ⟨fun p hp => ?_, fun hseeds p hp => (sound_run h fun _ => hseeds).within trivial p hp⟩
  obtain ⟨hused, hfrozen⟩ := hsound.nonneg p hp
  refine ⟨hused, hfrozen, _, hcreated p hp, ?_⟩
  show p.totalQuota = p.totalQuota - b.adjustments p.id + b.adjustments p.id
  omega

end Runs

theorem sound_plainRewardDB : plainRewardDB.budget.Sound True :=
  ⟨fun _ ht => absurd ht not_mem_nil, fun _ hp => absurd hp not_mem_nil,
    fun _ _ hp => absurd hp not_mem_nil⟩

/-- The fund is raised, the pool is limited to `30`, and `10` of it are reserved. -/
def reserveEvents : List RewardEvent :=
  [⟨plainRewardEnv "2026-06-21", none,
      .ensureFundMinimum "site" 100 "raise" "" "admin_budget_restore"⟩,
    ⟨plainRewardEnv "2026-06-21", none,
      .setAvailableCapacity "site" "growth" "2026-06-21" 30 "limit" ""⟩,
    ⟨plainRewardEnv "2026-06-21", none, .call (.reserve 1 "growth" 10 "reserve" "" "")⟩]

theorem budget_caps_reserve :
    plainRewardDB.budget.Sound True ∧
      ∀ p ∈ (run RewardDB.step plainRewardDB reserveEvents).budget.pools.rows,
        p.usedQuota + p.frozenQuota ≤ p.totalQuota :=
  ⟨sound_plainRewardDB, (budget_caps plainRewardDB sound_plainRewardDB reserveEvents).2
    (by decide +kernel)⟩

/-- A site whose game pools are configured with a negative quota. -/
def negativeGameEnv : RewardEnv :=
  { plainRewardEnv "2026-06-21" with
    setting := { (plainRewardEnv "2026-06-21").setting with gameBudgetQuota := -5 } }

/-- The stake of a game creates the pool of the day over its cap. -/
theorem budget_caps_fail :
    ¬ ∀ (db : RewardDB) (events : List RewardEvent), db.budget.Sound True →
      ∀ p ∈ (run RewardDB.step db events).budget.pools.rows,
        p.usedQuota + p.frozenQuota ≤ p.totalQuota := by
  intro h
  have hcap := h plainRewardDB
    [⟨negativeGameEnv, none, .call (.mutate "site" 1 (-3) "game" "" "stake" "" 0 "" 0 "")⟩]
    sound_plainRewardDB
  revert hcap
  decide +kernel

end Prox
