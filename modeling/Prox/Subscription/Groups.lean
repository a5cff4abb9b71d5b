import Prox.Subscription.Expire

/-! # The group of a user with subscriptions

A subscription may move its user to another group and remembers the group the user came from; when it
ends, the user goes back. Subscriptions are created, expire, are cancelled and are deleted in any
order, and each of them remembers only what it saw itself. The main result says when this is enough:
when the upgrades of a user never overlap, a user without an active upgrade is in the group it had
before the first one. -/

namespace Prox

open List PurchaseDB

attribute [local irreducible] trimSpace

/-! ## The system -/

/-- The tables, and the time of the last call. -/
structure GroupSystem where
  db : PurchaseDB
  clock : Int

/-- A call that may change the group of a user. -/
inductive GroupEvent where
  /-- A subscription is created, whoever pays for it. -/
  | create (env : SubscriptionEnv) (userId : Int) (plan : SubscriptionPlan) (source : String)
  | expire (env : SubscriptionEnv) (limit : Int)
  | cancel (env : SubscriptionEnv) (id : Int)
  | delete (env : SubscriptionEnv) (id : Int)

/-- The environment of a call. -/
def GroupEvent.env : GroupEvent → SubscriptionEnv
  | .create env .. => env
  | .expire env _ => env
  | .cancel env _ => env
  | .delete env _ => env

/-- The creation of a subscription in a transaction of its own. -/
def createSubscription (env : SubscriptionEnv) (userId : Int) (plan : SubscriptionPlan)
    (source : String) : PurchaseDB → Except Err Unit × PurchaseDB :=
  transaction (env.faults 0) fun db => do
    let db ← createUserSubscriptionFromPlanTx env userId plan source db
    return ((), db)

/-- The tables after a call. -/
def GroupEvent.exec (db : PurchaseDB) : GroupEvent → PurchaseDB
  | .create env userId plan source => (createSubscription env userId plan source db).2
  | .expire env limit => (expireDueSubscriptions env limit db).2
  | .cancel env id => (adminInvalidateUserSubscription env id db).2
  | .delete env id => (adminDeleteUserSubscription env id db).2

/-- The system after a call. -/
def GroupSystem.step (s : GroupSystem) (e : GroupEvent) : GroupSystem := ⟨e.exec s.db, e.env.now⟩

/-- The group of a user. -/
def PurchaseDB.groupOf (db : PurchaseDB) (userId : Int) : String :=
  getUserGroupByIdTx db.wallet userId

/-- The subscriptions. -/
def PurchaseDB.subRows (db : PurchaseDB) : List UserSubscription := db.subscriptions.subs.rows

/-- An active subscription of the user that grants a group. -/
def UserSubscription.ActiveUpgrade (userId : Int) (s : UserSubscription) : Prop :=
  s.userId = userId ∧ s.status = .active ∧ s.upgradeGroup ≠ ""
  deriving Decidable

/-! ## Frame lemmas -/

variable (db : PurchaseDB)

/-- The group of a user after another one was set. -/
theorem PurchaseDB.groupOf_setGroup (i j : Int) (g : String) :
    (db.setGroup i g).groupOf j
      = if i = j ∧ (db.wallet.users.byId j).isSome then g else db.groupOf j := by
  unfold groupOf getUserGroupByIdTx setGroup Wallet.updateUser
  rw [Table.byId_updateWhere]
  cases hu : db.wallet.users.byId j with
  | none => simp
  | some u =>
    have hid : u.id = j := (Table.byId_eq_some.mp hu).2
    by_cases hij : i = j
    · simp [hij, hid, User.setGroup]
    · have hne : u.id ≠ i := fun h => hij (h.symm.trans hid)
      simp [hij, hne]

variable {j v : Int}

theorem PurchaseDB.groupOf_setGroup_of_ne {i : Int} (g : String) (h : i ≠ j) :
    (db.setGroup i g).groupOf j = db.groupOf j := by
  rw [groupOf_setGroup, if_neg fun hij => h hij.1]

theorem PurchaseDB.isSome_of_groupOf {db : PurchaseDB} (h : db.groupOf j ≠ "") :
    (db.wallet.users.byId j).isSome := by
  by_contra hnone
  rw [Option.not_isSome_iff_eq_none] at hnone
  exact h (by rw [groupOf, getUserGroupByIdTx, hnone]; rfl)

theorem PurchaseDB.groupOf_setGroup_self {db : PurchaseDB} (g : String) (h : db.groupOf j ≠ "") :
    (db.setGroup j g).groupOf j = g := by
  rw [groupOf_setGroup, if_pos ⟨rfl, isSome_of_groupOf h⟩]

@[simp] theorem PurchaseDB.groupOf_setSubs (subs : Table UserSubscription)
    (j : Int) : (db.setSubs subs).groupOf j = db.groupOf j := rfl

@[simp] theorem PurchaseDB.subRows_setSubs (subs : Table UserSubscription) :
    (db.setSubs subs).subRows = subs.rows := rfl

/-! ## The invariant -/

/-- What separate upgrades keep true of a user whose own group is `g₀`, at time `clock`. -/
structure GroupInv (userId : Int) (g₀ : String) (clock : Int) (db : PurchaseDB) : Prop where
  /-- Every upgrade was created in the group `g₀` and remembers it if it has left it. -/
  stored : ∀ s ∈ db.subRows, s.userId = userId → s.upgradeGroup ≠ "" →
    trimSpace s.upgradeGroup = s.upgradeGroup ∧
      (s.prevUserGroup = g₀ ∨ (s.upgradeGroup = g₀ ∧ s.prevUserGroup = ""))
  /-- At most one upgrade is active. -/
  single : ∀ s ∈ db.subRows, ∀ t ∈ db.subRows,
    s.ActiveUpgrade userId → t.ActiveUpgrade userId → s = t
  endTime_pos : ∀ s ∈ db.subRows, s.ActiveUpgrade userId → 0 < s.endTime
  /-- The upgrades that have expired ended in the past, and before the active one. -/
  expired : ∀ s ∈ db.subRows, s.userId = userId → s.status = .expired → s.upgradeGroup ≠ "" →
    s.endTime ≤ clock ∧ ∀ t ∈ db.subRows, t.ActiveUpgrade userId → s.endTime < t.endTime
  /-- The user is at home or where the active upgrade has put it. -/
  group : db.groupOf userId = g₀ ∨
    ∃ s ∈ db.subRows, s.ActiveUpgrade userId ∧ db.groupOf userId = s.upgradeGroup

variable {a sub : UserSubscription} {env : SubscriptionEnv}

section Steps

variable {userId : Int} {g₀ : String} {clock now : Int} {db db' : PurchaseDB}

section

variable (h : GroupInv userId g₀ clock db)

include h

/-- The clock may go on. -/
theorem GroupInv.later (hle : clock ≤ now) :
    GroupInv userId g₀ now db :=
  { h with expired := fun s hs hu hst hup =>
      ⟨(h.expired s hs hu hst hup).1.trans hle, (h.expired s hs hu hst hup).2⟩ }

/-- Only the upgrades of the user and its group matter. -/
theorem GroupInv.frame
    (hrows : ∀ s, s.userId = userId → s.upgradeGroup ≠ "" → (s ∈ db'.subRows ↔ s ∈ db.subRows))
    (hgroup : db'.groupOf userId = db.groupOf userId) : GroupInv userId g₀ clock db' where
  stored := fun s hs hu hup => h.stored s ((hrows s hu hup).mp hs) hu hup
  single := fun s hs t ht has hat =>
    h.single s ((hrows s has.1 has.2.2).mp hs) t ((hrows t hat.1 hat.2.2).mp ht) has hat
  endTime_pos := fun s hs has => h.endTime_pos s ((hrows s has.1 has.2.2).mp hs) has
  expired := fun s hs hu hst hup => by
    obtain ⟨hclock, hbefore⟩ := h.expired s ((hrows s hu hup).mp hs) hu hst hup
    exact ⟨hclock, fun t ht hat => hbefore t ((hrows t hat.1 hat.2.2).mp ht) hat⟩
  group := by
    rw [hgroup]
    rcases h.group with hhome | ⟨s, hs, has, hg⟩
    · exact .inl hhome
    · exact .inr ⟨s, (hrows s has.1 has.2.2).mpr hs, has, hg⟩

/-- A user without an active upgrade is at home. -/
theorem GroupInv.home
    (hnone : ∀ s ∈ db.subRows, ¬ s.ActiveUpgrade userId) : db.groupOf userId = g₀ := by
  rcases h.group with hhome | ⟨s, hs, has, -⟩
  · exact hhome
  · exact absurd has (hnone s hs)

/-- The user is at home or where the given active upgrade has put it. -/
theorem GroupInv.group_of_active (ha : a ∈ db.subRows)
    (hact : a.ActiveUpgrade userId) :
    db.groupOf userId = g₀ ∨ db.groupOf userId = a.upgradeGroup := by
  rcases h.group with hhome | ⟨s, hs, has, hg⟩
  · exact .inl hhome
  · rw [h.single s hs a ha has hact] at hg
    exact .inr hg

end

/-! ### Creation -/

/-- The tables after a subscription was created. -/
theorem createUserSubscriptionFromPlanTx_writes {plan : SubscriptionPlan} {source : String}
    (hbody : createUserSubscriptionFromPlanTx env v plan source db = .ok db') :
    ∃ endUnix subs, calcPlanEndTime env.loc env.now plan = .ok endUnix ∧
      db.subscriptions.subs.create (plan.instantiate env db.subscriptions.subs.nextId v source
        (db.groupOf v) endUnix) = some subs ∧
      db' = (if plan.upgrades (db.groupOf v) then db.setGroup v (trimSpace plan.upgradeGroup)
        else db).setSubs subs := by
  simp only [createUserSubscriptionFromPlanTx, ok_iff] at hbody
  obtain ⟨-, -, -, endUnix, hend, hbody⟩ := hbody
  split at hbody
  · cases hbody
  · next subs hcreate =>
    cases hbody
    refine ⟨endUnix, subs, hend, hcreate, ?_⟩
    unfold groupOf setGroup setSubs
    split <;> rfl

/-- **A subscription that is created while no upgrade is active keeps the invariant.** -/
theorem GroupInv.create (h : GroupInv userId g₀ clock db) {plan : SubscriptionPlan}
    {source : String} (hclock : 0 ≤ clock) (hle : clock ≤ env.now)
    (hsep : v = userId → trimSpace plan.upgradeGroup ≠ "" →
      (∀ s ∈ db.subRows, ¬ s.ActiveUpgrade userId) ∧
      ∀ endUnix, calcPlanEndTime env.loc env.now plan = .ok endUnix → env.now < endUnix)
    (hg₀ : g₀ ≠ "") (hbody : createUserSubscriptionFromPlanTx env v plan source db = .ok db') :
    GroupInv userId g₀ env.now db' := by
  have h := h.later hle
  obtain ⟨endUnix, subs, hend, hcreate, rfl⟩ := createUserSubscriptionFromPlanTx_writes hbody
  set new := plan.instantiate env db.subscriptions.subs.nextId v source (db.groupOf v) endUnix
    with hnew
  have hmem : ∀ s, s ∈ subs.rows ↔ s ∈ db.subRows ∨ s = new := fun s => Table.mem_of_create hcreate
  have hnewUp : new.upgradeGroup = trimSpace plan.upgradeGroup := rfl
  by_cases hup : v = userId ∧ trimSpace plan.upgradeGroup ≠ ""
  · obtain ⟨rfl, hup⟩ := hup
    obtain ⟨hnone, hends⟩ := hsep rfl hup
    have hhome : db.groupOf v = g₀ := h.home hnone
    have hnow : env.now < new.endTime := hends endUnix hend
    have hactive : ∀ s ∈ subs.rows, s.ActiveUpgrade v → s = new := by
      intro s hs has
      rcases (hmem s).mp hs with hold | rfl
      · exact absurd has (hnone s hold)
      · rfl
    have hprev : new.prevUserGroup = if plan.upgrades g₀ then g₀ else "" := by
      rw [← hhome]
      rfl
    have hupgrades : plan.upgrades g₀ = true ↔ g₀ ≠ trimSpace plan.upgradeGroup := by
      simp [SubscriptionPlan.upgrades, hup]
    refine ⟨?_, ?_, ?_, ?_, ?_⟩
    · intro s hs hu hsup
      rcases (hmem s).mp hs with hold | rfl
      · exact h.stored s hold hu hsup
      · refine ⟨by rw [hnewUp, trimSpace_trimSpace], ?_⟩
        rw [hprev]
        by_cases hsame : g₀ = trimSpace plan.upgradeGroup
        · exact .inr ⟨hsame.symm, if_neg fun hc => hupgrades.mp hc hsame⟩
        · exact .inl (if_pos (hupgrades.mpr hsame))
    · intro s hs t ht has hat
      rw [hactive s hs has, hactive t ht hat]
    · intro s hs has
      rw [hactive s hs has]
      omega
    · intro s hs hu hst hsup
      rcases (hmem s).mp hs with hold | rfl
      · have hpast := (h.expired s hold hu hst hsup).1
        refine ⟨hpast, fun t ht hat => ?_⟩
        rw [hactive t ht hat]
        omega
      · cases hst
    · rw [hhome, groupOf_setSubs]
      by_cases hsame : plan.upgrades g₀ = true
      · refine .inr ⟨new, (hmem new).mpr (.inr rfl), ⟨rfl, rfl, hup⟩, ?_⟩
        rw [if_pos hsame, groupOf_setGroup_self _ (hhome ▸ hg₀)]
        rfl
      · exact .inl (by rw [if_neg hsame, hhome])
  · -- a subscription of another user, or one that grants no group
    refine h.frame (fun s hs hsup => ?_) ?_
    · rw [subRows_setSubs, hmem]
      refine or_iff_left ?_
      rintro rfl
      exact hup ⟨hs, hsup⟩
    · split
      · next hupgrades =>
        have hne : trimSpace plan.upgradeGroup ≠ "" := by
          simp only [SubscriptionPlan.upgrades, decide_eq_true_eq] at hupgrades
          exact hupgrades.1
        exact db.groupOf_setGroup_of_ne _ fun hv => hup ⟨hv, hne⟩
      · rfl

/-! ### Expiry -/

@[simp] theorem restoreGroupTx_subRows (now v : Int) (db : PurchaseDB) :
    (restoreGroupTx now v db).subRows = db.subRows := by
  unfold restoreGroupTx
  split
  · rfl
  · split
    · rfl
    · dsimp only
      split
      · rfl
      · split <;> rfl

/-- Only the user itself is moved. -/
theorem restoreGroupTx_groupOf_of_ne (hv : v ≠ userId) :
    (restoreGroupTx now v db).groupOf userId = db.groupOf userId := by
  unfold restoreGroupTx
  split
  · rfl
  · split
    · rfl
    · dsimp only
      split
      · rfl
      · split
        · rfl
        · exact db.groupOf_setGroup_of_ne _ hv

/-- A user whose last upgrade has expired goes home. -/
theorem restoreGroupTx_home (hg₀ : g₀ ≠ "") (htrim : trimSpace g₀ = g₀)
    (hstored : ∀ s ∈ db.subRows, s.userId = userId → s.upgradeGroup ≠ "" →
      trimSpace s.upgradeGroup = s.upgradeGroup ∧
        (s.prevUserGroup = g₀ ∨ (s.upgradeGroup = g₀ ∧ s.prevUserGroup = "")))
    (hnone : ∀ s ∈ db.subRows, ¬ s.ActiveUpgrade userId)
    (hgroup : db.groupOf userId = g₀ ∨
      ∃ m, lastExpiredUpgrade db userId = some m ∧ db.groupOf userId = m.upgradeGroup) :
    (restoreGroupTx now userId db).groupOf userId = g₀ := by
  have hany : ¬ db.subscriptions.subs.rows.any (fun s => s.userId = userId ∧ s.Upgrading now) := by
    rw [any_eq_true]
    rintro ⟨s, hs, hp⟩
    have hp := of_decide_eq_true hp
    exact hnone s hs ⟨hp.1, hp.2.1, hp.2.2.2⟩
  unfold restoreGroupTx
  rw [if_neg hany]
  cases hlast : lastExpiredUpgrade db userId with
  | none =>
    rcases hgroup with hhome | ⟨m, hm, -⟩
    · exact hhome
    · rw [hlast] at hm
      cases hm
  | some m =>
    have hm : m ∈ db.subRows ∧ m.userId = userId ∧ m.status = .expired ∧ m.upgradeGroup ≠ "" := by
      have hmem := List.mem_of_mem_head? hlast
      rw [(perm_insertionSort _ _).mem_iff, mem_filter] at hmem
      exact ⟨hmem.1, of_decide_eq_true hmem.2⟩
    obtain ⟨hrow, huser, -, hup⟩ := hm
    obtain ⟨htrimUp, hprev⟩ := hstored m hrow huser hup
    have hcurrent : db.groupOf userId = g₀ ∨ db.groupOf userId = m.upgradeGroup := by
      rcases hgroup with hhome | ⟨m', hm', hg⟩
      · exact .inl hhome
      · rw [hlast, Option.some.injEq] at hm'
        exact .inr (hm' ▸ hg)
    dsimp only
    rw [htrimUp]
    rcases hprev with hprev | ⟨hhome, hprev⟩
    · -- the upgrade has left `g₀` and knows it
      rw [hprev, htrim, if_neg (not_or.mpr ⟨hup, hg₀⟩)]
      change (if db.groupOf userId ≠ m.upgradeGroup ∨ db.groupOf userId = g₀ then db
        else db.setGroup userId g₀).groupOf userId = g₀
      split
      · next hstay => rcases hcurrent with h | h <;> rcases hstay with h' | h' <;> simp_all
      · next hmove =>
        rw [not_or, not_not] at hmove
        exact groupOf_setGroup_self _ (hmove.1 ▸ hup)
    · -- the upgrade grants `g₀` itself, and the user never moved
      rw [hprev, if_pos (.inr (by decide +kernel))]
      exact hcurrent.elim id fun h => h.trans hhome

/-- The subscriptions after those of a user that have ended were marked. -/
theorem mem_expired {s : UserSubscription} :
    s ∈ (db.setSubs (db.subscriptions.subs.updateWhere (fun s => s.userId = v ∧ s.Ended now)
        UserSubscription.expire).1).subRows ↔
      (s ∈ db.subRows ∧ ¬ (s.userId = v ∧ s.Ended now)) ∨
      ∃ t ∈ db.subRows, (t.userId = v ∧ t.Ended now) ∧ s = { t with status := .expired } := by
  rw [subRows_setSubs, Table.rows_updateWhere, mem_map]
  constructor
  · rintro ⟨t, ht, rfl⟩
    by_cases hp : t.userId = v ∧ t.Ended now
    · rw [if_pos (decide_eq_true hp)]
      exact .inr ⟨t, ht, hp, rfl⟩
    · rw [if_neg fun hc => hp (of_decide_eq_true hc)]
      exact .inl ⟨ht, hp⟩
  · rintro (⟨hs, hp⟩ | ⟨t, ht, hp, rfl⟩)
    · exact ⟨s, hs, if_neg fun hc => hp (of_decide_eq_true hc)⟩
    · exact ⟨t, ht, if_pos (decide_eq_true hp)⟩

/-- The rows of a sorted query by end are in a total order. -/
theorem UserSubscription.endsBefore_total (a b : UserSubscription) :
    a.endsBefore b ∨ b.endsBefore a := by
  unfold UserSubscription.endsBefore
  omega

theorem UserSubscription.endsBefore_trans {b c : UserSubscription} (hab : a.endsBefore b)
    (hbc : b.endsBefore c) : a.endsBefore c := by
  unfold UserSubscription.endsBefore at *
  omega

theorem lastExpiredUpgrade_eq_some (ha : a ∈ db.subRows) (huser : a.userId = userId)
    (hst : a.status = .expired) (hup : a.upgradeGroup ≠ "")
    (hlast : ∀ s ∈ db.subRows, s.userId = userId → s.status = .expired → s.upgradeGroup ≠ "" →
      s = a ∨ s.endTime < a.endTime) : lastExpiredUpgrade db userId = some a := by
  unfold lastExpiredUpgrade
  set rows := db.subscriptions.subs.rows.filter
    (fun s => s.userId = userId ∧ s.status = .expired ∧ s.upgradeGroup ≠ "") with hrows
  have hmem : a ∈ rows := mem_filter.mpr ⟨ha, decide_eq_true ⟨huser, hst, hup⟩⟩
  cases hhead : (rows.insertionSort (fun a b => b.endsBefore a)).head? with
  | none =>
    rw [List.head?_eq_none_iff] at hhead
    have hnil := (perm_insertionSort
      (fun a b : UserSubscription => b.endsBefore a) rows).mem_iff.mpr hmem
    rw [hhead] at hnil
    cases hnil
  | some m =>
    obtain ⟨hm, hfirst⟩ := head?_insertionSort (r := fun a b : UserSubscription => b.endsBefore a)
      (fun _ _ _ hab hbc => UserSubscription.endsBefore_trans hbc hab)
      (fun a b => UserSubscription.endsBefore_total b a) hhead
    have hp := of_decide_eq_true (mem_filter.mp hm).2
    rcases hlast m (mem_filter.mp hm).1 hp.1 hp.2.1 hp.2.2 with rfl | hlt
    · rfl
    · have hafter : a.endsBefore m := hfirst a hmem
      unfold UserSubscription.endsBefore at hafter
      omega

/-- **The transaction that expires the subscriptions of one user keeps the invariant.** -/
theorem GroupInv.expireUser (h : GroupInv userId g₀ now db) (hg₀ : g₀ ≠ "")
    (htrim : trimSpace g₀ = g₀) (v : Int) {n : Nat} (hbody : expireUserTx now v db = .ok (n, db')) :
    GroupInv userId g₀ now db' := by
  cases hbody
  set db₁ := db.setSubs (db.subscriptions.subs.updateWhere (fun s => s.userId = v ∧ s.Ended now)
    UserSubscription.expire).1 with hdb₁
  have hmem : ∀ s, s ∈ db₁.subRows ↔ (s ∈ db.subRows ∧ ¬ (s.userId = v ∧ s.Ended now)) ∨
      ∃ t ∈ db.subRows, (t.userId = v ∧ t.Ended now) ∧ s = { t with status := .expired } :=
    fun s => mem_expired
  have hgroup₁ : db₁.groupOf userId = db.groupOf userId := rfl
  by_cases hex : ∃ a ∈ db.subRows, a.ActiveUpgrade userId ∧ a.userId = v ∧ a.Ended now
  · -- the active upgrade of the user has ended: it is the last one, and no other is active
    obtain ⟨a, ha, hact, rfl, hended⟩ := hex
    obtain rfl : a.userId = userId := hact.1
    set a' : UserSubscription := { a with status := .expired } with ha'
    have hmem' : a' ∈ db₁.subRows := (hmem a').mpr (.inr ⟨a, ha, ⟨rfl, hended⟩, rfl⟩)
    have hnone : ∀ s ∈ db₁.subRows, ¬ s.ActiveUpgrade a.userId := by
      intro s hs has
      rcases (hmem s).mp hs with ⟨hold, hnot⟩ | ⟨t, -, -, rfl⟩
      · obtain rfl := h.single s hold a ha has hact
        exact hnot ⟨rfl, hended⟩
      · cases has.2.1
    have hexpired : ∀ s ∈ db₁.subRows, s.userId = a.userId → s.status = .expired →
        s.upgradeGroup ≠ "" → s = a' ∨ (s.endTime < a.endTime ∧ s.endTime ≤ now) := by
      intro s hs hu hst hup
      rcases (hmem s).mp hs with ⟨hold, -⟩ | ⟨t, ht, hp, rfl⟩
      · obtain ⟨hpast, hbefore⟩ := h.expired s hold hu hst hup
        exact .inr ⟨hbefore a ha hact, hpast⟩
      · obtain rfl := h.single t ht a ha ⟨hp.1, hp.2.1, hup⟩ hact
        exact .inl rfl
    have hstored : ∀ s ∈ db₁.subRows, s.userId = a.userId → s.upgradeGroup ≠ "" →
        trimSpace s.upgradeGroup = s.upgradeGroup ∧
          (s.prevUserGroup = g₀ ∨ (s.upgradeGroup = g₀ ∧ s.prevUserGroup = "")) := by
      intro s hs hu hup
      rcases (hmem s).mp hs with ⟨hold, -⟩ | ⟨t, ht, -, rfl⟩
      · exact h.stored s hold hu hup
      · exact h.stored t ht hu hup
    have hlast : lastExpiredUpgrade db₁ a.userId = some a' :=
      lastExpiredUpgrade_eq_some hmem' rfl rfl hact.2.2 fun s hs hu hst hup =>
        (hexpired s hs hu hst hup).imp id And.left
    have hhome : (restoreGroupTx now a.userId db₁).groupOf a.userId = g₀ := by
      refine restoreGroupTx_home hg₀ htrim hstored hnone ?_
      exact (h.group_of_active ha hact).imp id fun hg => ⟨a', hlast, hg⟩
    refine ⟨?_, ?_, ?_, ?_, .inl hhome⟩ <;> rw [restoreGroupTx_subRows]
    · exact hstored
    · exact fun s hs _ _ has => absurd has (hnone s hs)
    · exact fun s hs has => absurd has (hnone s hs)
    · intro s hs hu hst hup
      refine ⟨?_, fun t ht hat => absurd hat (hnone t ht)⟩
      rcases hexpired s hs hu hst hup with rfl | ⟨-, hpast⟩
      · exact hended.2.2
      · exact hpast
  · -- the upgrades of the user stay as they are
    have hrows : ∀ s, s.userId = userId → s.upgradeGroup ≠ "" →
        (s ∈ db₁.subRows ↔ s ∈ db.subRows) := by
      intro s hu hup
      rw [hmem]
      constructor
      · rintro (⟨hold, -⟩ | ⟨t, ht, hp, rfl⟩)
        · exact hold
        · exact absurd ⟨t, ht, ⟨hu, hp.2.1, hup⟩, hp⟩ hex
      · exact fun hold => .inl ⟨hold, fun hp => hex ⟨s, hold, ⟨hu, hp.2.1, hup⟩, hp⟩⟩
    refine h.frame (fun s hu hup => by rw [restoreGroupTx_subRows]; exact hrows s hu hup) ?_
    by_cases hv : v = userId
    · subst hv
      by_cases hact : ∃ a ∈ db.subRows, a.ActiveUpgrade v
      · -- an upgrade that has not ended keeps the group
        obtain ⟨a, ha, hact⟩ := hact
        have hend : now < a.endTime := by
          by_contra hle
          exact hex ⟨a, ha, hact, hact.1, hact.2.1, h.endTime_pos a ha hact, not_lt.mp hle⟩
        have hany : db₁.subscriptions.subs.rows.any (fun s => s.userId = v ∧ s.Upgrading now) := by
          rw [any_eq_true]
          exact ⟨a, (hrows a hact.1 hact.2.2).mpr ha,
            decide_eq_true ⟨hact.1, hact.2.1, hend, hact.2.2⟩⟩
        rw [restoreGroupTx, if_pos hany]
        rfl
      · have hnone : ∀ s ∈ db.subRows, ¬ s.ActiveUpgrade v := fun s hs has => hact ⟨s, hs, has⟩
        have hhome := h.home hnone
        rw [hhome]
        refine restoreGroupTx_home hg₀ htrim (fun s hs hu hup => ?_) (fun s hs has => ?_)
          (.inl hhome)
        · exact h.stored s ((hrows s hu hup).mp hs) hu hup
        · exact hnone s ((hrows s has.1 has.2.2).mp hs) has
    · rw [restoreGroupTx_groupOf_of_ne hv, hgroup₁]

/-- The loop over the users keeps the invariant. -/
theorem GroupInv.expireUsers (hg₀ : g₀ ≠ "") (htrim : trimSpace g₀ = g₀) (users : List Int)
    (n : Nat) (h : GroupInv userId g₀ env.now db) :
    GroupInv userId g₀ env.now (expireUsers env n users db).2 := by
  induction users generalizing n db with
  | nil => exact h
  | cons v rest ih =>
    have hkeeps : GroupInv userId g₀ env.now
        (transaction (env.faults n) (expireUserTx env.now v) db).2 :=
      transaction_keeps h fun _ _ hbody => h.expireUser hg₀ htrim v hbody
    unfold Prox.expireUsers
    split
    · next e db' heq =>
      rw [heq] at hkeeps
      exact hkeeps
    · next count db' heq =>
      rw [heq] at hkeeps
      exact ih (n + 1) hkeeps

/-- `ExpireDueSubscriptions` keeps the invariant. -/
theorem GroupInv.expireDue (hg₀ : g₀ ≠ "") (htrim : trimSpace g₀ = g₀)
    (h : GroupInv userId g₀ env.now db) (limit : Int) :
    GroupInv userId g₀ env.now (expireDueSubscriptions env limit db).2 := by
  unfold expireDueSubscriptions
  split
  · exact h
  · exact GroupInv.expireUsers hg₀ htrim _ 1 h

/-! ### Cancellation and deletion -/

@[simp] theorem downgradeUserGroupForSubscriptionTx_subRows (sub : UserSubscription) (now : Int)
    (db : PurchaseDB) : (downgradeUserGroupForSubscriptionTx sub now db).subRows = db.subRows := by
  unfold downgradeUserGroupForSubscriptionTx
  dsimp only
  repeat' split
  all_goals rfl

/-- Only the user of the subscription is moved. -/
theorem downgradeUserGroupForSubscriptionTx_groupOf_of_ne (hv : sub.userId ≠ userId) :
    (downgradeUserGroupForSubscriptionTx sub now db).groupOf userId = db.groupOf userId := by
  unfold downgradeUserGroupForSubscriptionTx
  dsimp only
  repeat' split
  all_goals first | rfl | exact db.groupOf_setGroup_of_ne _ hv

/-- The user of an upgrade that ends goes home, unless it is elsewhere or another upgrade holds it. -/
theorem downgradeUserGroupForSubscriptionTx_groupOf (hg₀ : g₀ ≠ "") (htrim : trimSpace g₀ = g₀)
    (hup : sub.upgradeGroup ≠ "") (htrimUp : trimSpace sub.upgradeGroup = sub.upgradeGroup)
    (hprev : sub.prevUserGroup = g₀ ∨ (sub.upgradeGroup = g₀ ∧ sub.prevUserGroup = "")) :
    (downgradeUserGroupForSubscriptionTx sub now db).groupOf sub.userId = g₀ ∨
      ((downgradeUserGroupForSubscriptionTx sub now db).groupOf sub.userId
          = db.groupOf sub.userId ∧
        (db.groupOf sub.userId = sub.upgradeGroup → ∃ t ∈ db.subRows,
          t.ActiveUpgrade sub.userId ∧ t.id ≠ sub.id)) := by
  unfold downgradeUserGroupForSubscriptionTx
  dsimp only
  rw [htrimUp, if_neg hup]
  change (if db.groupOf sub.userId ≠ sub.upgradeGroup then _ else _ : PurchaseDB).groupOf _ = _ ∨
    (if db.groupOf sub.userId ≠ sub.upgradeGroup then _ else _ : PurchaseDB).groupOf _ = _ ∧ _
  by_cases hcur : db.groupOf sub.userId = sub.upgradeGroup
  · rw [if_neg (not_not.mpr hcur)]
    split
    · next hany =>
      obtain ⟨t, ht, hp⟩ := any_eq_true.mp hany
      have hp := of_decide_eq_true hp
      exact .inr ⟨rfl, fun _ => ⟨t, ht, ⟨hp.1, hp.2.1.1, hp.2.1.2.2⟩, hp.2.2⟩⟩
    · left
      rcases hprev with hprev | ⟨hhome, hprev⟩
      · rw [hprev, htrim]
        split
        · next hstay =>
          rcases hstay with hempty | hsame
          · exact absurd hempty hg₀
          · exact hsame.symm
        · exact groupOf_setGroup_self _ (hcur ▸ hup)
      · rw [hprev, trimSpace_empty]
        exact hcur.trans hhome
  · rw [if_pos hcur]
    exact .inr ⟨rfl, fun h => absurd h hcur⟩

/-- **Taking one subscription out of the active ones keeps the invariant**, whether it stays in the
table as cancelled or goes. -/
theorem GroupInv.takeOut (h : GroupInv userId g₀ now db) (hg₀ : g₀ ≠ "") (htrim : trimSpace g₀ = g₀)
    (hsub : sub ∈ db.subRows) {db₀ : PurchaseDB} (hgroup₀ : db₀.groupOf userId = db.groupOf userId)
    (hrows₀ : ∀ s ∈ db₀.subRows, s.id ≠ sub.id → s ∈ db.subRows) (hgroup : db'.groupOf userId
      = (downgradeUserGroupForSubscriptionTx sub now db₀).groupOf userId)
    (hkeep : ∀ s ∈ db.subRows, s.id ≠ sub.id → s ∈ db'.subRows)
    (hrows : ∀ s ∈ db'.subRows, (s ∈ db.subRows ∧ s.id ≠ sub.id) ∨
      s = { sub with status := .cancelled, endTime := now }) : GroupInv userId g₀ now db' := by
  have hactive : ∀ s ∈ db'.subRows, s.ActiveUpgrade userId → s ∈ db.subRows ∧ s.id ≠ sub.id := by
    intro s hs has
    rcases hrows s hs with hold | rfl
    · exact hold
    · cases has.2.1
  refine ⟨?_, ?_, ?_, ?_, ?_⟩
  · intro s hs hu hup
    rcases hrows s hs with ⟨hold, -⟩ | rfl
    · exact h.stored s hold hu hup
    · exact h.stored sub hsub hu hup
  · exact fun s hs t ht has hat =>
      h.single s (hactive s hs has).1 t (hactive t ht hat).1 has hat
  · exact fun s hs has => h.endTime_pos s (hactive s hs has).1 has
  · intro s hs hu hst hup
    rcases hrows s hs with ⟨hold, -⟩ | rfl
    · obtain ⟨hpast, hbefore⟩ := h.expired s hold hu hst hup
      exact ⟨hpast, fun t ht hat => hbefore t (hactive t ht hat).1 hat⟩
    · cases hst
  · rw [hgroup]
    by_cases hmine : sub.userId = userId ∧ sub.upgradeGroup ≠ ""
    · obtain ⟨rfl, hup⟩ := hmine
      obtain ⟨htrimUp, hprev⟩ := h.stored sub hsub rfl hup
      have hmoved := @downgradeUserGroupForSubscriptionTx_groupOf sub g₀ now db₀ hg₀ htrim hup
        htrimUp hprev
      rcases hmoved with hhome | ⟨hsame, hother⟩
      · exact .inl hhome
      · rw [hsame, hgroup₀]
        rcases h.group with hhome | ⟨a, ha, hact, hg⟩
        · exact .inl hhome
        · by_cases hid : a.id = sub.id
          · -- the active upgrade is the one that ends, so another one would have to hold the user
            obtain rfl : a = sub := Table.eq_of_id_eq ha hsub hid
            obtain ⟨t, ht, hat, hne⟩ := hother (hgroup₀.trans hg)
            have ht := hrows₀ t ht hne
            exact absurd (congrArg UserSubscription.id (h.single t ht a ha hat hact)) hne
          · exact .inr ⟨a, hkeep a ha hid, hact, hg⟩
    · have hunmoved : (downgradeUserGroupForSubscriptionTx sub now db₀).groupOf userId
          = db₀.groupOf userId := by
        by_cases hu : sub.userId = userId
        · have hup : sub.upgradeGroup = "" := by
            by_contra hup
            exact hmine ⟨hu, hup⟩
          rw [downgradeUserGroupForSubscriptionTx, hup, trimSpace_empty]
          rfl
        · exact downgradeUserGroupForSubscriptionTx_groupOf_of_ne hu
      rw [hunmoved, hgroup₀]
      rcases h.group with hhome | ⟨a, ha, hact, hg⟩
      · exact .inl hhome
      · refine .inr ⟨a, hkeep a ha fun hid => ?_, hact, hg⟩
        obtain rfl : a = sub := Table.eq_of_id_eq ha hsub hid
        exact hmine ⟨hact.1, hact.2.2⟩

/-- `AdminInvalidateUserSubscription` keeps the invariant. -/
theorem GroupInv.cancel (h : GroupInv userId g₀ now db) (hg₀ : g₀ ≠ "") (htrim : trimSpace g₀ = g₀)
    {id : Int} {u : Unit} (hbody : adminInvalidateUserSubscriptionTx now id db = .ok (u, db')) :
    GroupInv userId g₀ now db' := by
  unfold adminInvalidateUserSubscriptionTx at hbody
  split at hbody
  · cases hbody
  · next sub hsub =>
    cases hbody
    obtain ⟨hrow, rfl⟩ := Table.byId_eq_some.mp hsub
    set db₀ := db.setSubs (db.subscriptions.subs.updateWhere (fun s => s.id = Row.id sub)
      (UserSubscription.cancel now)).1 with hdb₀
    have hmem : ∀ s, s ∈ db₀.subRows ↔
        ∃ t ∈ db.subRows, (if t.id = sub.id then (UserSubscription.cancel now).apply t else t) = s := by
      intro s
      rw [subRows_setSubs, Table.rows_updateWhere, mem_map]
      simp only [decide_eq_true_eq]
      rfl
    have hrows : ∀ s ∈ db₀.subRows, (s ∈ db.subRows ∧ s.id ≠ sub.id) ∨
        s = { sub with status := .cancelled, endTime := now } := by
      intro s hs
      obtain ⟨t, ht, rfl⟩ := (hmem s).mp hs
      by_cases hid : t.id = sub.id
      · obtain rfl : t = sub := Table.eq_of_id_eq ht hrow hid
        exact .inr (if_pos rfl)
      · rw [if_neg hid]
        exact .inl ⟨ht, hid⟩
    have hsame : db₀.groupOf userId = db.groupOf userId := rfl
    refine h.takeOut hg₀ htrim hrow hsame (fun s hs hne => ?_) rfl (fun s hs hne => ?_)
      (fun s hs => hrows s (by rwa [downgradeUserGroupForSubscriptionTx_subRows] at hs))
    · rcases hrows s hs with hold | rfl
      · exact hold.1
      · exact absurd rfl hne
    · rw [downgradeUserGroupForSubscriptionTx_subRows, hmem]
      exact ⟨s, hs, if_neg hne⟩

/-- `AdminDeleteUserSubscription` keeps the invariant. -/
theorem GroupInv.delete (h : GroupInv userId g₀ now db) (hg₀ : g₀ ≠ "") (htrim : trimSpace g₀ = g₀)
    {id : Int} {u : Unit} (hbody : adminDeleteUserSubscriptionTx now id db = .ok (u, db')) :
    GroupInv userId g₀ now db' := by
  unfold adminDeleteUserSubscriptionTx at hbody
  split at hbody
  · cases hbody
  · next sub hsub =>
    cases hbody
    obtain ⟨hrow, rfl⟩ := Table.byId_eq_some.mp hsub
    have hmem : ∀ s, s ∈ (downgradeUserGroupForSubscriptionTx sub now db).subscriptions.subs.rows ↔
        s ∈ db.subRows :=
      fun s => iff_of_eq (congrArg (s ∈ ·) (downgradeUserGroupForSubscriptionTx_subRows sub now db))
    refine h.takeOut hg₀ htrim hrow (Eq.refl (db.groupOf userId)) (fun s hs _ => hs)
      (groupOf_setSubs _ _ _) (fun s hs hne => ?_) (fun s hs => .inl ?_)
    · rw [subRows_setSubs, Table.mem_deleteWhere]
      exact ⟨(hmem s).mpr hs, decide_eq_false hne⟩
    · rw [subRows_setSubs, Table.mem_deleteWhere] at hs
      exact ⟨(hmem s).mp hs.1, of_decide_eq_false hs.2⟩

end Steps

/-! ## Runs -/

/-- The plan ends after it begins; a long duration may overflow. -/
def SubscriptionPlan.EndsLater (plan : SubscriptionPlan) (env : SubscriptionEnv) : Prop :=
  ∀ endUnix ∈ (calcPlanEndTime env.loc env.now plan).toOption, env.now < endUnix
  deriving Decidable

/-- What keeps the upgrades of a user apart: the clock does not go back, and a subscription that
grants the user a group is created only while no other one is active. -/
def GroupEvent.Separate (userId : Int) (s : GroupSystem) (e : GroupEvent) : Prop :=
  s.clock ≤ e.env.now ∧
    match e with
    | .create env v plan _ => v = userId → trimSpace plan.upgradeGroup ≠ "" →
      (∀ r ∈ s.db.subRows, ¬ r.ActiveUpgrade userId) ∧ plan.EndsLater env
    | _ => True

/-- One call keeps the invariant. -/
theorem GroupInv.step {userId : Int} {g₀ : String} (hg₀ : g₀ ≠ "") (htrim : trimSpace g₀ = g₀)
    {s : GroupSystem} {e : GroupEvent} (h : GroupInv userId g₀ s.clock s.db) (hclock : 0 ≤ s.clock)
    (hsep : e.Separate userId s) : GroupInv userId g₀ (s.step e).clock (s.step e).db := by
  obtain ⟨hle, hsep⟩ := hsep
  have hlater := h.later hle
  cases e with
  | create env v plan source =>
    refine transaction_keeps hlater fun _ db' hbody => ?_
    obtain ⟨db₁, hcreate, heq⟩ := bind_eq_ok.mp hbody
    cases heq
    refine h.create hclock hle (fun hv hup => ?_) hg₀ hcreate
    obtain ⟨hnone, hends⟩ := hsep hv hup
    refine ⟨hnone, fun endUnix hend => hends endUnix ?_⟩
    have hend : calcPlanEndTime env.loc env.now plan = .ok endUnix := hend
    rw [hend]
    rfl
  | expire env limit => exact GroupInv.expireDue hg₀ htrim hlater limit
  | cancel env id =>
    exact checked_transaction_keeps hlater fun _ _ _ hbody => hlater.cancel hg₀ htrim hbody
  | delete env id =>
    exact checked_transaction_keeps hlater fun _ _ _ hbody => hlater.delete hg₀ htrim hbody

/-- **A user without an active upgrade is in its own group**, in every run in which the upgrades of
the user are kept apart. -/
theorem group_restored (userId : Int) (s : GroupSystem) (es : List GroupEvent)
    (hclock : 0 ≤ s.clock) (hgroup : s.db.groupOf userId ≠ "")
    (htrim : trimSpace (s.db.groupOf userId) = s.db.groupOf userId)
    (hstart : ∀ r ∈ s.db.subRows, r.userId = userId → r.upgradeGroup = "")
    (hsep : Along GroupSystem.step (fun s e => e.Separate userId s) s es)
    (hnone : ∀ r ∈ (run GroupSystem.step s es).db.subRows, ¬ r.ActiveUpgrade userId) :
    (run GroupSystem.step s es).db.groupOf userId = s.db.groupOf userId := by
  have hinit : GroupInv userId (s.db.groupOf userId) s.clock s.db :=
    { stored := fun r hr hu hup => absurd (hstart r hr hu) hup
      single := fun r hr _ _ har => absurd (hstart r hr har.1) har.2.2
      endTime_pos := fun r hr har => absurd (hstart r hr har.1) har.2.2
      expired := fun r hr hu _ hup => absurd (hstart r hr hu) hup
      group := .inl rfl }
  have hrun : 0 ≤ (run GroupSystem.step s es).clock ∧ GroupInv userId (s.db.groupOf userId)
      (run GroupSystem.step s es).clock (run GroupSystem.step s es).db :=
    run_keeps_along
      (I := fun t : GroupSystem => 0 ≤ t.clock ∧ GroupInv userId (s.db.groupOf userId) t.clock t.db)
      (fun t e ht he => ⟨ht.1.trans he.1, ht.2.step hgroup htrim ht.1 he⟩) ⟨hclock, hinit⟩ hsep
  exact hrun.2.home hnone

/-- A user without subscriptions, and a plan of one day that grants the group `vip`. -/
def GroupSystem.sample : GroupSystem where
  db :=
    { wallet := .ofUser 0 "default"
      subscriptions := ⟨.empty, .empty, .empty, fun _ => 0⟩
      orders := .empty }
  clock := 0

/-- A call at the given time. -/
def SubscriptionEnv.noPlans (now : Int) : SubscriptionEnv :=
  ⟨now, Location.fixed 0, fun _ => none, fun _ => none⟩

/-- The purchase of one day in the group `vip`. -/
def GroupEvent.buyVip (now : Int) : GroupEvent :=
  .create (.noPlans now) 1 { id := 1, durationUnit := "day", upgradeGroup := "vip" } "balance"

/-- Two days in a row, with the expiry job between them. -/
theorem group_restored_two_days :
    (run GroupSystem.step .sample [.buyVip 0, .expire (.noPlans 86400) 0, .buyVip 86500,
      .expire (.noPlans 200000) 0]).db.groupOf 1 = "default" :=
  group_restored 1 .sample _ (by decide) (by decide) (by decide +kernel) (by decide)
    ⟨⟨by decide, fun _ _ => ⟨by decide, by decide⟩⟩, ⟨by decide, trivial⟩,
      ⟨by decide, fun _ _ => ⟨by decide +kernel, by decide⟩⟩, ⟨by decide, trivial⟩, trivial⟩
    (by decide +kernel)

/-- **A renewal forgets where the user came from.** The second day is bought while the first one
runs. After both have expired no upgrade is active, and the user stays in `vip`. -/
theorem renewed_group_stays :
    (∀ r ∈ (run GroupSystem.step .sample
        [.buyVip 0, .buyVip 43200, .expire (.noPlans 200000) 0]).db.subRows, ¬ r.ActiveUpgrade 1) ∧
    (run GroupSystem.step .sample
      [.buyVip 0, .buyVip 43200, .expire (.noPlans 200000) 0]).db.groupOf 1 = "vip" ∧
    GroupSystem.sample.db.groupOf 1 = "default" := by
  refine ⟨by decide +kernel, by decide +kernel, by decide⟩

end Prox
