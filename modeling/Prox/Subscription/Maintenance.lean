import Mathlib.Data.List.Dedup
import Prox.Subscription.Effect
import Prox.Subscription.Expire

/-! # The maintenance pass

The embedding of `runSubscriptionQuotaResetOnce` in `service/subscription_reset_task.go`. A pass
expires what has ended and then resets what is due, both in batches of 300. The second loop counts
the rows it has visited and not the rows that are no longer due, so a subscription that stays due is
visited again and again, and a subscription without a plan, which is not counted, makes a batch look
unfinished. The clean-up of old pre-consumption records at the end of a pass touches none of the
tables here. -/

namespace Prox

open List UserSubscription

/-- The size of a batch. -/
def subscriptionResetBatchSize : Nat := 300

/-- One batch of the reset job. -/
def resetBatch (env : SubscriptionEnv) (db : PurchaseDB) : (Nat × Option Err) × PurchaseDB :=
  let r := resetDueSubscriptions env subscriptionResetBatchSize db.subscriptions
  (r.1, { db with subscriptions := r.2 })

/-- A pass: the error that ended it early, if any, and the tables after it; `none` when one of its
loops is still running after `fuel` rounds. -/
def runSubscriptionQuotaResetOnce (env : SubscriptionEnv) (fuel : Nat) (db : PurchaseDB) :
    Option (Option Err × PurchaseDB) :=
  match repeatBatches subscriptionResetBatchSize
      (expireDueSubscriptions env subscriptionResetBatchSize) fuel db with
  | none => none
  | some (some e, db) => some (some e, db)
  | some (none, db) => repeatBatches subscriptionResetBatchSize (resetBatch env) fuel db

/-! ## Expiring -/

variable {now : Int} {s : UserSubscription} {db db' : PurchaseDB}

section Expiring

variable {env : SubscriptionEnv}

theorem restoreGroupTx_subscriptions (now userId : Int) (db : PurchaseDB) :
    (restoreGroupTx now userId db).subscriptions = db.subscriptions := by
  unfold restoreGroupTx
  split
  · rfl
  · split
    · rfl
    · dsimp only
      split
      · rfl
      · split <;> rfl

/-- The row after the expiry of the users in `us`. -/
def UserSubscription.expireIn (now : Int) (us : List Int) (s : UserSubscription) : UserSubscription :=
  if s.userId ∈ us ∧ s.Ended now then UserSubscription.expire.apply s else s

namespace UserSubscription

@[simp] theorem expireIn_userId (now : Int) (us : List Int) (s : UserSubscription) :
    (s.expireIn now us).userId = s.userId := by
  unfold expireIn
  split <;> rfl

/-- An expired row has not ended any more. -/
theorem ended_expireIn {us : List Int} :
    (s.expireIn now us).Ended now ↔ s.Ended now ∧ s.userId ∉ us := by
  unfold expireIn
  split
  · next h =>
    constructor
    · intro hended; exact absurd hended.1 nofun
    · intro hended; exact absurd h.1 hended.2
  · next h =>
    constructor
    · intro hended; exact ⟨hended, fun hmem => h ⟨hmem, hended⟩⟩
    · exact And.left

/-- Two expiries in a row. -/
theorem expireIn_expireIn (now : Int) (us us' : List Int) (s : UserSubscription) :
    (s.expireIn now us).expireIn now us' = s.expireIn now (us ++ us') := by
  by_cases h : s.userId ∈ us ∧ s.Ended now
  · have hfirst : s.expireIn now us = expire.apply s := if_pos h
    have hboth : s.expireIn now (us ++ us') = expire.apply s :=
      if_pos ⟨mem_append_left us' h.1, h.2⟩
    rw [hboth, ← hfirst]
    exact if_neg fun h' => (ended_expireIn.mp h'.2).2 h.1
  · have hfirst : s.expireIn now us = s := if_neg h
    rw [hfirst]
    refine if_congr ?_ rfl rfl
    rw [mem_append]
    constructor
    · rintro ⟨hmem, hended⟩; exact ⟨.inr hmem, hended⟩
    · rintro ⟨hmem | hmem, hended⟩
      · exact absurd ⟨hmem, hended⟩ h
      · exact ⟨hmem, hended⟩

end UserSubscription

/-- **What a batch of users does to the subscriptions**: the ended rows of these users are expired,
and counted. -/
theorem expireUsers_subs (hfaults : ∀ n, env.faults n = none) (n : Nat) {us : List Int}
    (hnodup : us.Nodup) (db : PurchaseDB) :
    (expireUsers env n us db).1.2 = none ∧
      (expireUsers env n us db).1.1
        = db.subscriptions.subs.rows.countP (fun s => s.userId ∈ us ∧ s.Ended env.now) ∧
      (expireUsers env n us db).2.subscriptions.subs.rows
        = db.subscriptions.subs.rows.map (expireIn env.now us) := by
  induction us generalizing n db with
  | nil =>
    refine ⟨rfl, by simp [expireUsers], ?_⟩
    refine ((map_congr_left fun s _ => ?_).trans (map_id _)).symm
    simp [expireIn]
  | cons u us ih =>
    rw [nodup_cons] at hnodup
    set subs₁ := (db.subscriptions.subs.updateWhere (fun s => s.userId = u ∧ s.Ended env.now)
      expire).1 with hsubs₁
    set db₁ := restoreGroupTx env.now u (db.setSubs subs₁) with hdb₁
    have hrows₁ : db₁.subscriptions.subs.rows
        = db.subscriptions.subs.rows.map (expireIn env.now [u]) := by
      rw [restoreGroupTx_subscriptions]
      simp [PurchaseDB.setSubs, hsubs₁, expireIn]
    have htx : transaction (env.faults n) (expireUserTx env.now u) db
        = (.ok (db.subscriptions.subs.rows.countP (fun s => s.userId = u ∧ s.Ended env.now)), db₁) := by
      rw [hfaults]
      exact transaction_ok rfl
    obtain ⟨herr, hcount, hrows⟩ := ih (n + 1) hnodup.2 db₁
    unfold expireUsers
    rw [htx]
    refine ⟨herr, ?_, ?_⟩
    · -- the users are distinct, so no row is counted twice
      show _ + (expireUsers env (n + 1) us db₁).1.1 = _
      rw [hcount, hrows₁, countP_map]
      refine countP_add_countP (fun s => ?_) (fun s hu hus => ?_) _
      · simp only [Function.comp, ended_expireIn, expireIn_userId,
          mem_cons]
        by_cases hu : s.userId = u <;> by_cases hended : s.Ended env.now <;> simp [hu]
      · simp only [Function.comp, ended_expireIn, mem_singleton,
          decide_eq_true_eq] at hu hus
        exact hus.2.2 hu.1
    · rw [hrows, hrows₁, map_map]
      refine map_congr_left fun s _ => ?_
      exact expireIn_expireIn env.now [u] us s

/-- The row after all expiries. -/
def UserSubscription.expireEnded (now : Int) (s : UserSubscription) : UserSubscription :=
  if s.Ended now then UserSubscription.expire.apply s else s

/-- An expiry of some users, and then of all. -/
theorem UserSubscription.expireEnded_expireIn (now : Int) (us : List Int) (s : UserSubscription) :
    (s.expireIn now us).expireEnded now = s.expireEnded now := by
  unfold expireEnded
  by_cases h : s.userId ∈ us ∧ s.Ended now
  · have hfirst : s.expireIn now us = expire.apply s := if_pos h
    rw [if_pos h.2, ← hfirst]
    exact if_neg fun h' => (ended_expireIn.mp h').2 h.1
  · have hfirst : s.expireIn now us = s := if_neg h
    rw [hfirst]

/-- **The first loop of a pass returns, and expires every row that has ended.** A batch that is not
full has selected all ended rows, and a full one leaves fewer of them. -/
theorem expireLoop_returns (hfaults : ∀ n, env.faults n = none)
    (husers : ∀ s ∈ db.subscriptions.subs.rows, 0 < s.userId) :
    ∃ fuel db', repeatBatches subscriptionResetBatchSize
        (expireDueSubscriptions env subscriptionResetBatchSize) fuel db = some (none, db') ∧
      db'.subscriptions.subs.rows
        = db.subscriptions.subs.rows.map (expireEnded env.now) := by
  induction hm : db.subscriptions.subs.rows.countP (fun s => s.Ended env.now)
    using Nat.strong_induction_on generalizing db with
  | _ m ih =>
    set selected := selectEndedSubscriptions db env.now subscriptionResetBatchSize with hselected
    set us := ((selected.map userId).filter (fun u => 0 < u)).dedup with hus
    have hnodup : us.Nodup := nodup_dedup _
    obtain ⟨herr, hcount, hrows⟩ := expireUsers_subs hfaults 1 hnodup db
    have hbatch : expireDueSubscriptions env subscriptionResetBatchSize db
        = ((db.subscriptions.subs.rows.countP (fun s => s.userId ∈ us ∧ s.Ended env.now), none),
          (expireUsers env 1 us db).2) := by
      unfold expireDueSubscriptions
      rw [hfaults]
      exact Prod.ext (Prod.ext hcount herr) rfl
    have hperm := perm_insertionSort endsBefore
      (db.subscriptions.subs.rows.filter (fun s => s.Ended env.now))
    have hmem : ∀ s ∈ selected, s.userId ∈ us ∧ s.Ended env.now := by
      intro s hs
      obtain ⟨hrow, hended⟩ := mem_filter.mp (hperm.mem_iff.mp (mem_of_mem_take hs))
      refine ⟨mem_dedup.mpr (mem_filter.mpr ⟨mem_map_of_mem hs, ?_⟩), by simpa using hended⟩
      simpa using husers s hrow
    have hlength : selected.length
        ≤ db.subscriptions.subs.rows.countP (fun s => s.userId ∈ us ∧ s.Ended env.now) := by
      calc selected.length
          = selected.countP (fun s => s.userId ∈ us ∧ s.Ended env.now) :=
            (countP_eq_length.mpr fun s hs => by simpa using hmem s hs).symm
        _ ≤ _ := (take_sublist _ _).countP_le
        _ = _ := hperm.countP_eq _
        _ ≤ _ := filter_sublist.countP_le
    by_cases hfull : db.subscriptions.subs.rows.countP (fun s => s.userId ∈ us ∧ s.Ended env.now)
        < subscriptionResetBatchSize
    · -- not full: the selection has every row that has ended
      refine ⟨1, _, repeatBatches_last hbatch hfull 0, hrows.trans (map_congr_left fun s hs => ?_)⟩
      refine if_congr ?_ rfl rfl
      refine ⟨And.right, fun hended => ⟨(hmem s ?_).1, hended⟩⟩
      have hall : s ∈ (db.subscriptions.subs.rows.filter (fun s => s.Ended env.now)).insertionSort
          endsBefore :=
        hperm.mem_iff.mpr (mem_filter.mpr ⟨hs, by simpa using hended⟩)
      have hshort : selected.length < subscriptionResetBatchSize := by omega
      rw [hselected, selectEndedSubscriptions, length_take] at hshort
      rw [hselected, selectEndedSubscriptions, take_of_length_le]
      · exact hall
      · exact (min_lt_iff.mp hshort).elim (fun h => absurd h (lt_irrefl _)) le_of_lt
    · -- full: fewer ended rows are left
      have hsplit := countP_add_countP (p := fun s : UserSubscription => s.userId ∈ us ∧ s.Ended env.now)
        (q := fun s => s.Ended env.now ∧ s.userId ∉ us) (r := fun s => s.Ended env.now)
        (fun s => by by_cases hu : s.userId ∈ us <;> simp [hu])
        (fun s hp hq => by simp at hp hq; exact hq.2 hp.1) db.subscriptions.subs.rows
      have hless : (expireUsers env 1 us db).2.subscriptions.subs.rows.countP (fun s => s.Ended env.now)
          < m := by
        rw [hrows, countP_map]
        simp only [Function.comp_def, ended_expireIn]
        have : 0 < subscriptionResetBatchSize := by decide
        omega
      have husers₁ : ∀ s ∈ (expireUsers env 1 us db).2.subscriptions.subs.rows, 0 < s.userId := by
        intro s hs
        rw [hrows] at hs
        obtain ⟨s', hs', rfl⟩ := mem_map.mp hs
        rw [expireIn_userId]
        exact husers s' hs'
      obtain ⟨fuel, db', hloop, hrows'⟩ := ih _ hless husers₁ rfl
      refine ⟨fuel + 1, db', ?_, ?_⟩
      · rw [repeatBatches_next hbatch (by omega) (by decide)]
        exact hloop
      · rw [hrows', hrows, map_map]
        exact map_congr_left fun s _ => expireEnded_expireIn env.now us s

end Expiring

/-! ## Resetting -/

variable {plan : SubscriptionPlan} {rows : List UserSubscription}

section Resetting

variable {env : SubscriptionEnv}

namespace UserSubscription

/-- `next_reset_time > 0 AND next_reset_time <= now AND status = 'active'`. -/
def Due (now : Int) (s : UserSubscription) : Prop :=
  0 < s.nextResetTime ∧ s.nextResetTime ≤ now ∧ s.status = .active
  deriving Decidable

/-- The plan of a subscription, if there still is one. -/
def plan? (env : SubscriptionEnv) (s : UserSubscription) : Option SubscriptionPlan :=
  (getSubscriptionPlanById env.plans s.planId).toOption

/-- What the catch-up loop makes of a subscription. -/
def catchUp (env : SubscriptionEnv) (plan : SubscriptionPlan) (s : UserSubscription) :
    Option (Int × Int × Bool) :=
  let baseUnix := if s.lastResetTime ≤ 0 then s.startTime else s.lastResetTime
  advanceReset env.loc plan s.endTime env.now (env.now.toNat + 2) baseUnix
    (calcNextResetTime env.loc baseUnix plan s.endTime) false

/-- The plan moves a due subscription on: it still has a reset period, the reset after the last one is
due under this period, and the catch-up loop comes to an end. -/
def movesOn (env : SubscriptionEnv) (plan : SubscriptionPlan) (s : UserSubscription) : Bool :=
  normalizeResetPeriod plan.quotaResetPeriod ≠ .never &&
    match s.catchUp env plan with
    | some (_, _, advanced) => advanced
    | none => false

end UserSubscription

/-- The loop that advances a schedule stops outside the past. -/
theorem advanceReset_stops {loc : Location} {endUnix : Int} {fuel : Nat}
    {base next base' next' : Int} {advanced advanced' : Bool}
    (h : advanceReset loc plan endUnix now fuel base next advanced = some (base', next', advanced')) :
    ¬ (0 < next' ∧ next' ≤ now) := by
  induction fuel generalizing base next advanced with
  | zero => cases h
  | succ fuel ih =>
    unfold advanceReset at h
    split at h
    · exact ih h
    · next hstop => cases h; exact hstop

/-- A due subscription that its plan moves on is reset, and is not due any more. -/
theorem resetDueTx_movesOn {db : SubscriptionDB} (hrow : db.subs.byId s.id = some s)
    (hdue : s.Due env.now) (hmoves : s.movesOn env plan = true) :
    ∃ base next db', resetDueTx env plan s.id db = .ok (1, db') ∧
      db'.subs = (db.subs.updateWhere (fun x => x.id = s.id) (reset base next)).1 ∧
      ¬ (0 < next ∧ next ≤ env.now) := by
  simp only [movesOn, Bool.and_eq_true, decide_eq_true_eq] at hmoves
  obtain ⟨hperiod, hcatch⟩ := hmoves
  rcases hloop : s.catchUp env plan with _ | ⟨base, next, advanced⟩
  · rw [hloop] at hcatch; cases hcatch
  · rw [hloop] at hcatch
    obtain rfl : advanced = true := hcatch
    have hstop := advanceReset_stops hloop
    have hnot : ¬ (0 < s.nextResetTime ∧ env.now < s.nextResetTime) := by
      have := hdue.2.1
      omega
    refine ⟨base, next, { db with
      subs := (db.subs.updateWhere (fun x => x.id = s.id) (reset base next)).1
      resetMark := Function.update db.resetMark s.id db.journal.rows.length }, ?_, rfl, hstop⟩
    unfold catchUp at hloop
    simp only [resetDueTx, hrow, if_pos (show 0 < s.nextResetTime ∧ s.nextResetTime ≤ env.now from
      ⟨hdue.1, hdue.2.1⟩), maybeResetUserSubscriptionWithPlanTx, if_neg hnot, if_neg hperiod, hloop]
    rfl

/-- A due subscription that its plan does not move on stays as it is, or is never done with. -/
theorem resetDueTx_stays {db : SubscriptionDB} (hrow : db.subs.byId s.id = some s)
    (hdue : s.Due env.now) (hstays : s.movesOn env plan = false) :
    resetDueTx env plan s.id db = .error .diverges ∨ resetDueTx env plan s.id db = .ok (1, db) := by
  have hnot : ¬ (0 < s.nextResetTime ∧ env.now < s.nextResetTime) := by
    have := hdue.2.1
    omega
  have hset : ¬ s.nextResetTime = 0 := by
    have := hdue.1
    omega
  simp only [resetDueTx, hrow, if_pos (show 0 < s.nextResetTime ∧ s.nextResetTime ≤ env.now from
    ⟨hdue.1, hdue.2.1⟩), maybeResetUserSubscriptionWithPlanTx, if_neg hnot]
  by_cases hperiod : normalizeResetPeriod plan.quotaResetPeriod = .never
  · rw [if_pos hperiod]
    exact .inr rfl
  · rw [if_neg hperiod]
    simp only [movesOn, catchUp, hperiod, ne_eq, not_false_eq_true,
      decide_true, Bool.true_and] at hstays
    split
    · exact .inl rfl
    · simp only [hset, false_and, if_false]
      exact .inr rfl
    · next hloop =>
      rw [hloop] at hstays
      cases hstays

/-- The transaction of one subscription leaves the others alone. -/
theorem resetDueTx_other {db db' : SubscriptionDB} {id : Int} {count : Nat}
    (h : resetDueTx env plan id db = .ok (count, db')) (hs : s ∈ db.subs.rows) (hne : s.id ≠ id) :
    s ∈ db'.subs.rows := by
  unfold resetDueTx at h
  split at h
  · cases h; exact hs
  · next locked hlocked =>
    have hlockedId : locked.id = id := (Table.byId_eq_some.mp hlocked).2
    split at h
    · simp only [ok_iff, Prod.mk.injEq, Prod.exists] at h
      obtain ⟨_, _, hreset, -, rfl⟩ := h
      obtain ⟨-, -, hother, -⟩ := maybeReset_row (hlockedId ▸ hlocked) hreset
      have hrow : db.subs.byId s.id = some s := Table.byId_eq_some.mpr ⟨hs, rfl⟩
      rw [← hother s.id (hlockedId ▸ hne)] at hrow
      exact (Table.byId_eq_some.mp hrow).1
    · cases h; exact hs

/-- What a batch does not move on is there after it. -/
theorem resetSelected_stays (hfaults : ∀ n, env.faults n = none) (n : Nat)
    (hplan : s.plan? env = some plan) (hdue : s.Due env.now) (hstays : s.movesOn env plan = false)
    {db : SubscriptionDB} (hrows : ∀ x ∈ rows, x.id = s.id → x = s) (hs : s ∈ db.subs.rows)
    (hok : (resetSelected env n rows db).1.2 = none) :
    s ∈ (resetSelected env n rows db).2.subs.rows := by
  induction rows generalizing n db with
  | nil => exact hs
  | cons x rest ih =>
    obtain ⟨hx, hrest⟩ := forall_mem_cons.mp hrows
    unfold resetSelected at hok ⊢
    split at hok
    · exact ih n hrest hs hok
    · next plan' hplan' =>
      rw [hfaults] at hok ⊢
      by_cases hid : x.id = s.id
      · -- its own turn: nothing happens, or the job does not come back
        obtain rfl := hx hid
        have hsame : plan' = plan := by
          rw [plan?, hplan'] at hplan
          exact Option.some.inj hplan
        subst hsame
        have hrow : db.subs.byId x.id = some x := Table.byId_eq_some.mpr ⟨hs, rfl⟩
        rcases resetDueTx_stays hrow hdue hstays with htx | htx
        · rw [transaction_error htx] at hok; cases hok
        · rw [transaction_ok htx] at hok ⊢
          exact ih (n + 1) hrest hs hok
      · rcases transaction_cases none (resetDueTx env plan' x.id) db with
          ⟨e, he⟩ | ⟨count, db', hbody, he⟩
        · rw [he] at hok; cases hok
        · rw [he] at hok ⊢
          exact ih (n + 1) hrest (resetDueTx_other hbody hs (Ne.symm hid)) hok

/-- **What a batch does when every plan moves its subscription on**: the rows with a plan are counted
and not due any more, the others are as they were. -/
theorem resetSelected_movesOn (hfaults : ∀ n, env.faults n = none) (n : Nat)
    (rows : List UserSubscription) (db : SubscriptionDB) (hnodup : (rows.map UserSubscription.id).Nodup)
    (hrows : ∀ x ∈ rows, x ∈ db.subs.rows ∧ x.Due env.now)
    (hmoves : ∀ x ∈ rows, ∀ plan, x.plan? env = some plan → x.movesOn env plan = true) :
    (resetSelected env n rows db).1 = (rows.countP (fun x => (x.plan? env).isSome), none) ∧
      ∃ g : UserSubscription → UserSubscription,
        (resetSelected env n rows db).2.subs.rows = db.subs.rows.map g ∧
        ∀ x ∈ db.subs.rows, (x ∈ rows → (x.plan? env).isSome → ¬ (g x).Due env.now) ∧
          (x ∉ rows ∨ x.plan? env = none → g x = x) := by
  induction rows generalizing n db with
  | nil => exact ⟨rfl, id, (map_id _).symm, fun x _ => ⟨nofun, fun _ => rfl⟩⟩
  | cons s rest ih =>
    obtain ⟨⟨hs, hdue⟩, hrest⟩ := forall_mem_cons.mp hrows
    obtain ⟨hmove, hmoves⟩ := forall_mem_cons.mp hmoves
    rw [map_cons, nodup_cons] at hnodup
    have hne : ∀ x ∈ rest, x.id ≠ s.id := fun x hx heq => hnodup.1 (heq ▸ mem_map_of_mem hx)
    unfold resetSelected
    split
    · next hnone =>
      have hnone : s.plan? env = none := by rw [plan?, hnone]; rfl
      obtain ⟨hcount, g, hg, hgs⟩ := ih n db hnodup.2 hrest hmoves
      refine ⟨by rw [hcount, countP_cons_of_neg (by simp [hnone])], g, hg, fun x hx => ?_⟩
      obtain ⟨hleft, hsame⟩ := hgs x hx
      refine ⟨fun hmem hplan => ?_, ?_⟩
      · rcases mem_cons.mp hmem with rfl | hmem
        · rw [hnone] at hplan; cases hplan
        · exact hleft hmem hplan
      · rintro (hmem | hplan)
        · exact hsame (.inl fun h => hmem (mem_cons_of_mem _ h))
        · exact hsame (.inr hplan)
    · next plan hplan =>
      have hplan : s.plan? env = some plan := by rw [plan?, hplan]; rfl
      have hrow : db.subs.byId s.id = some s := Table.byId_eq_some.mpr ⟨hs, rfl⟩
      obtain ⟨base, next, db₁, htx, hsubs, hstop⟩ := resetDueTx_movesOn hrow hdue (hmove plan hplan)
      rw [hfaults, transaction_ok htx]
      set g₁ : UserSubscription → UserSubscription := fun x =>
        if x.id = s.id then (reset base next).apply x else x with hg₁
      have hrows₁ : db₁.subs.rows = db.subs.rows.map g₁ := by
        rw [hsubs]
        simp [hg₁]
      have hkept : ∀ x, x.id ≠ s.id → g₁ x = x := fun x hx => if_neg hx
      have hrest₁ : ∀ x ∈ rest, x ∈ db₁.subs.rows ∧ x.Due env.now := by
        intro x hx
        refine ⟨?_, (hrest x hx).2⟩
        rw [hrows₁, ← hkept x (hne x hx)]
        exact mem_map_of_mem (hrest x hx).1
      obtain ⟨hcount, g, hg, hgs⟩ := ih (n + 1) db₁ hnodup.2 hrest₁ hmoves
      refine ⟨?_, g ∘ g₁, ?_, fun x hx => ?_⟩
      · show (1 + (resetSelected env (n + 1) rest db₁).1.1, (resetSelected env (n + 1) rest db₁).1.2) = _
        rw [hcount, countP_cons_of_pos (by simp [hplan]), Nat.add_comm]
      · rw [hg, hrows₁, map_map]
      · have hx₁ : g₁ x ∈ db₁.subs.rows := by rw [hrows₁]; exact mem_map_of_mem hx
        obtain ⟨hleft, hsame⟩ := hgs (g₁ x) hx₁
        simp only [Function.comp]
        by_cases hid : x.id = s.id
        · -- the row itself: the rest of the batch does not see it again
          obtain rfl : x = s := Table.eq_of_id_eq hx hs hid
          have happly : g₁ x = (reset base next).apply x := if_pos rfl
          have hgone : g₁ x ∉ rest := by
            rw [happly]
            exact fun hmem => hne _ hmem rfl
          rw [hsame (.inl hgone), happly]
          refine ⟨fun _ _ h => hstop ⟨h.1, h.2.1⟩, ?_⟩
          rintro (hmem | hnone)
          · exact absurd mem_cons_self hmem
          · rw [hplan] at hnone; cases hnone
        · rw [hkept x hid] at hleft hsame ⊢
          refine ⟨fun hmem => ?_, ?_⟩
          · rcases mem_cons.mp hmem with rfl | hmem
            · exact absurd rfl hid
            · exact hleft hmem
          · rintro (hmem | hnone)
            · exact hsame (.inl fun h => hmem (mem_cons_of_mem _ h))
            · exact hsame (.inr hnone)

/-- The due subscriptions, the one that has been due longest in front. -/
def dueSubscriptions (now : Int) (rows : List UserSubscription) : List UserSubscription :=
  (rows.filter (fun s => s.Due now)).insertionSort (fun a b => a.nextResetTime ≤ b.nextResetTime)

theorem mem_dueSubscriptions : s ∈ dueSubscriptions now rows ↔ s ∈ rows ∧ s.Due now := by
  rw [dueSubscriptions, mem_insertionSort, mem_filter, decide_eq_true_eq]

theorem selectDueSubscriptions_eq (db : SubscriptionDB) (now : Int) :
    selectDueSubscriptions db now subscriptionResetBatchSize
      = (dueSubscriptions now db.subs.rows).take subscriptionResetBatchSize := rfl

/-- The due subscriptions of a table are distinct. -/
theorem nodup_dueSubscriptions (now : Int) (t : Table UserSubscription) :
    ((dueSubscriptions now t.rows).map UserSubscription.id).Nodup := by
  refine ((perm_insertionSort _ _).map UserSubscription.id).nodup_iff.mpr ?_
  exact t.id_nodup.sublist (filter_sublist.map _)

/-- Taking due rows out of a table takes them out of the queue. -/
theorem dueSubscriptions_filter {rows' : List UserSubscription} {p : UserSubscription → Bool}
    (h : rows'.filter (fun s => s.Due now) = (rows.filter (fun s => s.Due now)).filter p) :
    dueSubscriptions now rows' = (dueSubscriptions now rows).filter p := by
  unfold dueSubscriptions
  rw [h]
  exact (filter_insertionSort (r := fun a b : UserSubscription => a.nextResetTime ≤ b.nextResetTime)
    (fun a b c => le_trans) (fun a b => le_total _ _) p _).symm

/-- A batch that is worked off, without the rows that are passed over. -/
theorem filter_take_append_drop {α : Type} {l : List α} (hnodup : l.Nodup) (k : Nat) (p q : α → Bool)
    (hfront : ∀ a ∈ l.take k, q a = !p a) (hback : ∀ a ∈ l, a ∉ l.take k → q a = true) :
    l.filter q = (l.take k).filter (fun a => !p a) ++ l.drop k := by
  have hsplit : l.take k ++ l.drop k = l := take_append_drop k l
  have hdisjoint : ∀ a ∈ l.drop k, a ∉ l.take k := by
    rw [← hsplit] at hnodup
    exact fun a ha ha' => (nodup_append.mp hnodup).2.2 a ha' a ha rfl
  conv_lhs => rw [← hsplit, filter_append]
  congr 1
  · exact filter_congr hfront
  · refine filter_eq_self.mpr fun a ha => hback a (mem_of_mem_drop ha) (hdisjoint a ha)

/-- **The second loop of a pass returns when every plan moves its subscription on**, and leaves what
the batches leave over. -/
theorem resetLoop_returns (hfaults : ∀ n, env.faults n = none)
    (hmoves : ∀ s ∈ dueSubscriptions env.now db.subscriptions.subs.rows,
      ∀ plan, s.plan? env = some plan → s.movesOn env plan = true) :
    ∃ fuel db', repeatBatches subscriptionResetBatchSize (resetBatch env) fuel db = some (none, db') ∧
      dueSubscriptions env.now db'.subscriptions.subs.rows
        = leftOver subscriptionResetBatchSize (fun s => (s.plan? env).isSome)
          (dueSubscriptions env.now db.subscriptions.subs.rows) := by
  induction hm : (dueSubscriptions env.now db.subscriptions.subs.rows).length
    using Nat.strong_induction_on generalizing db with
  | _ m ih =>
    set queue := dueSubscriptions env.now db.subscriptions.subs.rows with hqueue
    have hnodupId : (queue.map UserSubscription.id).Nodup := nodup_dueSubscriptions _ _
    obtain ⟨hcount, g, hg, hgs⟩ := resetSelected_movesOn hfaults 1
      (queue.take subscriptionResetBatchSize) db.subscriptions
      (hnodupId.sublist ((take_sublist _ _).map _))
      (fun x hx => mem_dueSubscriptions.mp (mem_of_mem_take hx))
      (fun x hx => hmoves x (mem_of_mem_take hx))
    set db₁ : PurchaseDB := { db with subscriptions :=
      (resetSelected env 1 (queue.take subscriptionResetBatchSize) db.subscriptions).2 } with hdb₁
    have hbatch : resetBatch env db
        = (((queue.take subscriptionResetBatchSize).countP (fun x => (x.plan? env).isSome), none),
          db₁) := by
      unfold resetBatch resetDueSubscriptions
      rw [hfaults, selectDueSubscriptions_eq]
      exact Prod.ext hcount rfl
    have hqueue₁ : dueSubscriptions env.now db₁.subscriptions.subs.rows
        = (queue.take subscriptionResetBatchSize).filter (fun x => !(x.plan? env).isSome)
          ++ queue.drop subscriptionResetBatchSize := by
      have hfilter : dueSubscriptions env.now db₁.subscriptions.subs.rows = queue.filter
          (fun x => !(decide (x ∈ queue.take subscriptionResetBatchSize) && (x.plan? env).isSome)) := by
        refine dueSubscriptions_filter ?_
        rw [show db₁.subscriptions.subs.rows = _ from hg, filter_filter, filter_map]
        have hsame : ∀ x ∈ db.subscriptions.subs.rows,
            (!(decide (x ∈ queue.take subscriptionResetBatchSize) && (x.plan? env).isSome)) = true →
            g x = x := by
          intro x hx hpassed
          refine (hgs x hx).2 ?_
          simpa [Bool.and_eq_false_iff, Decidable.not_and_iff_or_not] using hpassed
        have hdue : ∀ x ∈ db.subscriptions.subs.rows,
            ((fun s : UserSubscription => decide (s.Due env.now)) ∘ g) x
              = (!(decide (x ∈ queue.take subscriptionResetBatchSize) && (x.plan? env).isSome)
                && decide (x.Due env.now)) := by
          intro x hx
          cases hpassed : !(decide (x ∈ queue.take subscriptionResetBatchSize) &&
              (x.plan? env).isSome) with
          | true => rw [Function.comp, hsame x hx hpassed, Bool.true_and]
          | false =>
            rw [Bool.not_eq_false', Bool.and_eq_true, decide_eq_true_eq] at hpassed
            rw [Function.comp, Bool.false_and, decide_eq_false_iff_not]
            exact (hgs x hx).1 hpassed.1 hpassed.2
        rw [filter_congr hdue]
        refine (map_congr_left fun x hx => ?_).trans (map_id _)
        obtain ⟨hx, hp⟩ := mem_filter.mp hx
        exact hsame x hx (Bool.and_eq_true_iff.mp hp).1
      rw [hfilter]
      refine filter_take_append_drop (List.Nodup.of_map _ hnodupId) _ _ _ (fun a ha => ?_)
        (fun a _ ha => ?_)
      · simp [ha]
      · simp [ha]
    rw [leftOver]
    by_cases hfull : subscriptionResetBatchSize
        ≤ (queue.take subscriptionResetBatchSize).countP (fun x => (x.plan? env).isSome)
    · -- a full batch, and all of it is worked off
      have hlimit : 0 < subscriptionResetBatchSize := by decide
      rw [dif_pos ⟨hlimit, hfull⟩]
      have hle : (queue.take subscriptionResetBatchSize).countP (fun x => (x.plan? env).isSome)
          ≤ (queue.take subscriptionResetBatchSize).length := countP_le_length
      have hlen : subscriptionResetBatchSize ≤ queue.length := by
        rw [length_take] at hle
        omega
      have hall : ∀ x ∈ queue.take subscriptionResetBatchSize, (x.plan? env).isSome = true := by
        refine countP_eq_length.mp (le_antisymm hle ?_)
        rw [length_take, min_eq_left hlen]
        exact hfull
      have hrest : dueSubscriptions env.now db₁.subscriptions.subs.rows
          = queue.drop subscriptionResetBatchSize := by
        rw [hqueue₁, filter_eq_nil_iff.mpr fun x hx => by simp [hall x hx], nil_append]
      have hmoves₁ : ∀ s ∈ dueSubscriptions env.now db₁.subscriptions.subs.rows,
          ∀ plan, s.plan? env = some plan → s.movesOn env plan = true := by
        intro s hs
        rw [hrest] at hs
        exact hmoves s (mem_of_mem_drop hs)
      obtain ⟨fuel, db', hloop, hleft⟩ := ih (queue.length - subscriptionResetBatchSize) (by omega)
        hmoves₁ (by rw [hrest, length_drop])
      refine ⟨fuel + 1, db', ?_, by rw [hleft, hrest]⟩
      rw [repeatBatches_next hbatch hfull hlimit]
      exact hloop
    · rw [dif_neg (fun h => hfull h.2)]
      exact ⟨1, db₁, repeatBatches_last hbatch (by omega) 0, hqueue₁⟩

end Resetting

/-! ## The pass -/

section Pass

variable {env : SubscriptionEnv}

/-- Without faults, the reset job can only fail to come back. -/
theorem resetSelected_error (hfaults : ∀ n, env.faults n = none) (n : Nat) {db : SubscriptionDB}
    {e : Err} (h : (resetSelected env n rows db).1.2 = some e) : e = .diverges := by
  induction rows generalizing n db with
  | nil => cases h
  | cons x rest ih =>
    unfold resetSelected at h
    split at h
    · exact ih n h
    · next plan _ =>
      rw [hfaults] at h
      cases hbody : resetDueTx env plan x.id db with
      | ok r =>
        rw [transaction_ok hbody] at h
        exact ih (n + 1) h
      | error e' =>
        rw [transaction_error hbody] at h
        obtain rfl : e' = e := Option.some.inj h
        unfold resetDueTx at hbody
        split at hbody
        · cases hbody
        · split at hbody
          · simp only [bind_eq_error, pure_ne_error, and_false, exists_false, or_false,
              maybeResetUserSubscriptionWithPlanTx] at hbody
            split at hbody
            · cases hbody
            · split at hbody
              · cases hbody
              · split at hbody
                · exact (throw_eq_error.mp hbody).symm
                · split at hbody <;> cases hbody
                · cases hbody
          · cases hbody

/-- An error of the second loop is one of its batches. -/
theorem resetLoop_error (hfaults : ∀ n, env.faults n = none) {fuel : Nat} {e : Err}
    (h : repeatBatches subscriptionResetBatchSize (resetBatch env) fuel db
      = some (some e, db')) : e = .diverges := by
  induction fuel generalizing db with
  | zero => cases h
  | succ fuel ih =>
    rcases repeatBatches_cases (resetBatch env) (show 0 < subscriptionResetBatchSize by decide) db
      with hlast | ⟨-, hnext⟩
    · have herr := (Prod.mk.inj (Option.some.inj ((hlast fuel).symm.trans h))).1
      unfold resetBatch resetDueSubscriptions at herr
      rw [hfaults] at herr
      exact resetSelected_error hfaults 1 herr
    · rw [hnext] at h
      exact ih h

/-- Expired rows are not due. -/
theorem UserSubscription.due_expireEnded :
    (s.expireEnded now).Due now ↔ s.Due now ∧ ¬ s.Ended now := by
  unfold expireEnded
  split
  · next hended =>
    constructor
    · intro hdue; exact absurd hdue.2.2 nofun
    · intro hdue; exact absurd hended hdue.2
  · next hended => exact ⟨fun hdue => ⟨hdue, hended⟩, And.left⟩

theorem dueSubscriptions_expireEnded (now : Int) (rows : List UserSubscription) :
    dueSubscriptions now (rows.map (expireEnded now))
      = dueSubscriptions now (rows.filter (fun s => ¬ s.Ended now)) := by
  unfold dueSubscriptions
  congr 1
  rw [filter_map, filter_filter]
  simp only [Function.comp_def, due_expireEnded, Bool.decide_and]
  refine (map_congr_left fun s hs => ?_).trans (map_id _)
  have hended := (Bool.and_eq_true_iff.mp (mem_filter.mp hs).2).2
  exact if_neg (of_decide_eq_true hended)

/-- The pass comes to an end with these tables. -/
def PassEnds (env : SubscriptionEnv) (db db' : PurchaseDB) : Prop :=
  ∃ fuel e, runSubscriptionQuotaResetOnce env fuel db = some (e, db') ∧ e ≠ some .diverges

/-- The subscriptions that are due and have not ended, in the order in which a pass comes to them. -/
def PurchaseDB.resetQueue (env : SubscriptionEnv) (db : PurchaseDB) : List UserSubscription :=
  dueSubscriptions env.now (db.subscriptions.subs.rows.filter (fun s => ¬ s.Ended env.now))

/-- The first loop of a pass that ends is over, and the second one has ended without an error. -/
theorem PassEnds.resetLoop {db₁ : PurchaseDB} {fuel₁ : Nat} (hfaults : ∀ n, env.faults n = none)
    (h : PassEnds env db db') (hexpire : repeatBatches subscriptionResetBatchSize
      (expireDueSubscriptions env subscriptionResetBatchSize) fuel₁ db = some (none, db₁)) :
    ∃ fuel, repeatBatches subscriptionResetBatchSize (resetBatch env) fuel db₁ = some (none, db') := by
  obtain ⟨fuel, e, hpass, he⟩ := h
  refine ⟨fuel, ?_⟩
  unfold runSubscriptionQuotaResetOnce at hpass
  cases hfirst : repeatBatches subscriptionResetBatchSize
      (expireDueSubscriptions env subscriptionResetBatchSize) fuel db with
  | none => rw [hfirst] at hpass; cases hpass
  | some r =>
    obtain rfl := repeatBatches_unique (by decide) hexpire hfirst
    rw [hfirst] at hpass
    cases e with
    | none => exact hpass
    | some e => exact absurd (congrArg some (resetLoop_error hfaults hpass)) he

/-- **A subscription that its plan does not move on is still due after a pass.** -/
theorem PassEnds.stays (hfaults : ∀ n, env.faults n = none)
    (husers : ∀ s ∈ db.subscriptions.subs.rows, 0 < s.userId) (h : PassEnds env db db')
    (hs : s ∈ db.resetQueue env) (hplan : s.plan? env = some plan)
    (hstays : s.movesOn env plan = false) : s ∈ db'.subscriptions.subs.rows ∧ s.Due env.now := by
  obtain ⟨fuel₁, db₁, hexpire, hrows₁⟩ := expireLoop_returns hfaults husers
  obtain ⟨fuel, hreset⟩ := h.resetLoop hfaults hexpire
  rw [PurchaseDB.resetQueue, ← dueSubscriptions_expireEnded, ← hrows₁] at hs
  obtain ⟨hrow, hdue⟩ := mem_dueSubscriptions.mp hs
  refine ⟨?_, hdue⟩
  refine repeatBatches_keeps (by decide) (I := fun db => s ∈ db.subscriptions.subs.rows)
    (fun db hmem hok => ?_) hrow hreset
  unfold resetBatch resetDueSubscriptions at hok ⊢
  rw [hfaults] at hok ⊢
  refine resetSelected_stays hfaults 1 hplan hdue hstays (fun x hx hid => ?_) hmem hok
  exact Table.eq_of_id_eq (mem_dueSubscriptions.mp (mem_of_mem_take hx)).1 hmem hid

/-- A plan with this reset period. -/
def SubscriptionPlan.sample (period : String) : SubscriptionPlan :=
  { id := 1, quotaResetPeriod := period }

/-- Noon of the third day of 1970, with one plan, and no faults. -/
def SubscriptionEnv.sample (period : String) : SubscriptionEnv where
  now := 216000
  loc := Location.fixed 0
  plans := fun id => if id = 1 then some (SubscriptionPlan.sample period) else none
  faults := fun _ => none

/-- A subscription that was to be reset at the beginning of the second day. -/
def UserSubscription.sample : UserSubscription :=
  { id := 1, userId := 1, planId := 1, amountTotal := 100, amountUsed := 40, startTime := 1000
    endTime := 900000, lastResetTime := 1000, nextResetTime := 86400 }

/-- The tables with this subscription. -/
def PurchaseDB.sample : PurchaseDB where
  wallet := .ofUser 0 "default"
  subscriptions := ⟨⟨[.sample], by decide, by decide, by decide⟩, .empty, .empty, fun _ => 0⟩
  orders := .empty

end Pass

end Prox
