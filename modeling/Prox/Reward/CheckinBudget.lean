import Prox.Reward.Checkin

/-! # The daily budget of a check-in channel

A call reads what its channel has awarded before the transaction that adds to it. When no check-in of the
channel and date comes in between, the channel stays within its budget; two calls that read the same sum can
exceed it together. That a user gets one reward a day from a channel is left to the unique index, and holds
of all runs. -/

namespace Prox

attribute [local irreducible] trimSpace

/-- How many calls ended with the check-in of a user, date and channel. -/
def CheckinThread.grants (k : Int × String × CheckinChannel) : CheckinThread → Int
  | .done (.ok c) => if c.key = k then 1 else 0
  | _ => 0

/-- Whether there is a row for a user, date and channel, as a number. -/
def CheckinDB.recorded (k : Int × String × CheckinChannel) (db : CheckinDB) : Int :=
  if (db.checkins.byKey k).isSome then 1 else 0

/-- A call of the channel has passed the check of the budget on the sum it read. -/
def CheckinThread.Checked (channel : CheckinChannel) (b : Int) : CheckinThread → Prop
  | .settle c quotaAwarded awarded =>
    c.channel = channel → ∃ sum, awarded = some sum ∧ sum + quotaAwarded ≤ b
  | _ => True

/-- When a call of the channel executes its transaction, the channel has awarded no more for the date of
the check-in than the call read. -/
def CheckinThread.Current (channel : CheckinChannel) (date : String) (env : CheckinEnv) (db : CheckinDB) :
    CheckinThread → Prop
  | .settle c _ awarded =>
    c.channel = channel → env.today = date → ∀ sum ∈ awarded, db.awarded channel date ≤ sum
  | _ => True

instance (channel : CheckinChannel) (date : String) (env : CheckinEnv) (db : CheckinDB) :
    ∀ th : CheckinThread, Decidable (th.Current channel date env db)
  | .settle c _ awarded => inferInstanceAs (Decidable (c.channel = channel → env.today = date →
      ∀ sum ∈ awarded, db.awarded channel date ≤ sum))
  | .check _ | .award _ | .budget .. | .done _ => .isTrue trivial

/-- The transaction that an event executes, if any, finds the sum that its call read. -/
def CheckinSystem.Current (channel : CheckinChannel) (date : String) (s : CheckinSystem) :
    CheckinEvent → Prop
  | .step env thread fault =>
    fault = none → ∀ th ∈ s.threads[thread]?, th.Current channel date env s.shared
  | .begin .. => True

instance (channel : CheckinChannel) (date : String) (s : CheckinSystem) :
    ∀ e : CheckinEvent, Decidable (s.Current channel date e)
  | .step env thread fault => inferInstanceAs (Decidable (fault = none →
      ∀ th ∈ s.threads[thread]?, th.Current channel date env s.shared))
  | .begin .. => .isTrue trivial

section Step

variable {env : CheckinEnv} {fault : Option Err} {db : CheckinDB} {th : CheckinThread}
  {channel : CheckinChannel} {b : Int}

/-- A committed check-in has a new row with the reward. -/
theorem userCheckinTx_ok {renv : RewardEnv} {checkin checkin' : Checkin} {poolType : String}
    {db' : CheckinDB} (h : userCheckinTx renv checkin poolType db = .ok (checkin', db')) :
    checkin' = checkin ∧ db.checkins.create checkin = some db'.checkins := by
  unfold userCheckinTx at h
  cases hcreate : db.checkins.create checkin with
  | none => simp [hcreate] at h
  | some checkins =>
    rw [hcreate] at h
    dsimp only at h
    split at h
    · cases h
    · cases h
      exact ⟨rfl, rfl⟩

/-- **Spec lemma**: a step leaves the database alone and ends no call with a check-in, or it is the
transaction of a call and adds its row. -/
theorem CheckinThread.step_cases (env : CheckinEnv) (fault : Option Err) (th : CheckinThread)
    (db : CheckinDB) :
    ((th.step env fault db).2 = db ∧ ∀ k, (th.step env fault db).1.grants k = th.grants k) ∨
    ∃ c quotaAwarded awarded checkin, th = .settle c quotaAwarded awarded ∧ fault = none ∧
      (th.step env fault db).1 = .done (.ok checkin) ∧
      db.checkins.create checkin = some (th.step env fault db).2.checkins ∧
      checkin.checkinDate = env.today ∧ checkin.channel = c.channel ∧ checkin.quotaAwarded = quotaAwarded := by
  cases th with
  | check c =>
    refine .inl ?_
    cases fault with
    | some err => exact ⟨rfl, fun _ => rfl⟩
    | none =>
      simp only [step]
      split <;> exact ⟨rfl, fun _ => rfl⟩
  | award c => exact .inl ⟨rfl, fun _ => rfl⟩
  | budget c quotaAwarded =>
    refine .inl ?_
    simp only [step]
    generalize (if fault.isSome then 0 else db.awarded c.channel env.today) = sum
    split
    · split <;> exact ⟨rfl, fun _ => rfl⟩
    · exact ⟨rfl, fun _ => rfl⟩
  | settle c quotaAwarded awarded =>
    simp only [step]
    cases fault with
    | some err => exact .inl ⟨rfl, fun _ => rfl⟩
    | none =>
      rcases transaction_cases none (userCheckinTx env.reward
        { id := db.checkins.nextId, userId := c.userId, checkinDate := env.today, channel := c.channel,
          quotaAwarded, createdAt := env.now } c.poolType) db with ⟨err, heq⟩ | ⟨checkin, db', hbody, heq⟩
      · rw [heq]
        exact .inl ⟨rfl, fun _ => rfl⟩
      · rw [heq]
        obtain ⟨rfl, hcreate⟩ := userCheckinTx_ok hbody
        exact .inr ⟨c, quotaAwarded, awarded, _, rfl, rfl, rfl, hcreate, rfl, rfl, rfl⟩
  | done result => exact .inl ⟨rfl, fun _ => rfl⟩

/-- A call that reaches its transaction with a budget has passed the check. -/
theorem CheckinThread.Checked.step (h : th.Checked channel b)
    (hb : 0 < b) (hbudget : env.setting.channelDailyBudget channel.text = b) :
    (th.step env fault db).1.Checked channel b := by
  cases th with
  | check c =>
    simp only [CheckinThread.step]
    split
    · trivial
    · split <;> trivial
  | award c => trivial
  | budget c quotaAwarded =>
    simp only [CheckinThread.step]
    generalize (if fault.isSome then 0 else db.awarded c.channel env.today) = sum
    split
    · split
      · trivial
      · next hpasses =>
        rintro rfl
        exact ⟨_, rfl, hbudget ▸ Int.not_lt.mp hpasses⟩
    · next hnone =>
      rintro rfl
      rw [hbudget] at hnone
      exact absurd hb hnone
  | settle c quotaAwarded awarded => trivial
  | done result => trivial

/-- A new call has passed no check and paid nothing. -/
theorem userCheckin_begin (env : CheckinEnv) (userId : Int) (name : String) (quotaOverride : Int)
    (poolType : String) (channel : CheckinChannel) (b : Int) :
    (userCheckinByChannelWithQuotaFromPool env userId name quotaOverride poolType).Checked channel b ∧
      ∀ k, (userCheckinByChannelWithQuotaFromPool env userId name quotaOverride poolType).grants k = 0 := by
  simp only [userCheckinByChannelWithQuotaFromPool]
  split
  · exact ⟨trivial, fun _ => rfl⟩
  · split
    · exact ⟨trivial, fun _ => rfl⟩
    · split <;> exact ⟨trivial, fun _ => rfl⟩

/-- A new row adds its reward to the sum of its channel and date. -/
theorem awarded_of_create {checkin : Checkin} {db' : CheckinDB}
    (h : db.checkins.create checkin = some db'.checkins) (date : String) :
    db'.awarded channel date = db.awarded channel date
      + if checkin.checkinDate = date ∧ checkin.channel = channel then checkin.quotaAwarded else 0 := by
  rw [CheckinDB.awarded, Table.total_of_create h, CheckinDB.awarded]
  simp

/-- A new row is the first of its user, date and channel. -/
theorem recorded_of_create {checkin : Checkin} {db' : CheckinDB}
    (h : db.checkins.create checkin = some db'.checkins) (k : Int × String × CheckinChannel) :
    db'.recorded k = db.recorded k + if checkin.key = k then 1 else 0 := by
  have hbyKey := Table.byKey_of_create h k
  have hnone : db.checkins.byKey checkin.key = none := Table.byKey_none_of_create h
  change _ = if checkin.key = k then _ else _ at hbyKey
  rw [CheckinDB.recorded, CheckinDB.recorded, hbyKey]
  split
  · next hk =>
    subst hk
    simp [hnone]
  · simp

theorem CheckinThread.step_grants (env : CheckinEnv) (fault : Option Err) (th : CheckinThread)
    (db : CheckinDB) (k : Int × String × CheckinChannel) :
    (th.step env fault db).1.grants k - th.grants k = (th.step env fault db).2.recorded k - db.recorded k := by
  rcases th.step_cases env fault db with ⟨hdb, hgrants⟩ | ⟨c, q, a, checkin, rfl, -, hdone, hcreate, -⟩
  · rw [hdb, hgrants]
    omega
  · rw [recorded_of_create hcreate, hdone]
    simp only [grants]
    omega

end Step

/-! ## Runs -/

namespace CheckinSystem

variable {s : CheckinSystem} {channel : CheckinChannel} {b : Int} {date : String}

/-- The channel is within its budget on a date, and its calls have passed their checks. -/
structure Within (channel : CheckinChannel) (b : Int) (date : String) (s : CheckinSystem) : Prop where
  awarded_le : s.shared.awarded channel date ≤ b
  checked : ∀ th ∈ s.threads, th.Checked channel b

/-- **Step lemma**: a step whose transaction finds the sum that its call read keeps the budget. -/
theorem Within.step (hs : s.Within channel b date) (hb : 0 < b) {e : CheckinEvent}
    (hbudget : e.setting.channelDailyBudget channel.text = b) (he : s.Current channel date e) :
    Within channel b date (s.step e) := by
  cases e with
  | «begin» env userId name quotaOverride poolType =>
    exact ⟨hs.awarded_le, Pool.forall_spawn hs.checked (userCheckin_begin ..).1⟩
  | step env thread fault =>
    refine Pool.stepAt_elim (P := fun q => Within channel b date q) (fun _ => hs) fun th hth => ?_
    have hchecked := hs.checked th (List.mem_of_getElem? hth)
    refine ⟨?_, Pool.forall_mem_set hs.checked (hchecked.step hb hbudget)⟩
    rcases th.step_cases env fault s.shared with ⟨hdb, -⟩ | ⟨c, q, a, checkin, rfl, hfault, -, hcreate, hdate,
      hchannel, hquota⟩
    · rw [hdb]
      exact hs.awarded_le
    · rw [awarded_of_create hcreate]
      split
      · next hrow =>
        obtain ⟨sum, rfl, hsum⟩ := hchecked (hchannel.symm.trans hrow.2)
        have hcurrent := he hfault _ hth (hchannel.symm.trans hrow.2) (hdate.symm.trans hrow.1) sum rfl
        omega
      · have := hs.awarded_le
        omega

/-- A step changes the number of grants by what it records. -/
theorem step_total (s : CheckinSystem) (e : CheckinEvent) (k : Int × String × CheckinChannel) :
    (s.step e).total (CheckinThread.grants k) - (s.step e).shared.recorded k
      = s.total (CheckinThread.grants k) - s.shared.recorded k := by
  cases e with
  | «begin» env userId name quotaOverride poolType =>
    rw [step, Pool.total_spawn, Pool.shared_spawn, (userCheckin_begin _ _ _ _ _ .web 0).2]
    omega
  | step env thread fault =>
    rw [step]
    cases hth : s.threads[thread]? with
    | none => rw [Pool.stepAt_of_none hth]
    | some th =>
      have hmeasure := Pool.measure_stepAt (f := CheckinThread.step env fault)
        (fun db => - db.recorded k) (CheckinThread.grants k) hth
      have hgrants := th.step_grants env fault s.shared k
      omega

/-- **Run lemma**: there are as many grants as there are new rows. -/
theorem run_total (s : CheckinSystem) (events : List CheckinEvent) (k : Int × String × CheckinChannel) :
    (run step s events).total (CheckinThread.grants k) - (run step s events).shared.recorded k
      = s.total (CheckinThread.grants k) - s.shared.recorded k := by
  induction events generalizing s with
  | nil => rfl
  | cons e es ih => rw [run_cons, ih, step_total]

end CheckinSystem

/-- **A channel stays within its daily budget, and a user is paid once.** From any check-ins and without
calls under way, in every interleaving of calls: while no check-in of the channel and date is committed
between the query of a call on the channel and its transaction, what the channel awards on the date stays
within its budget; and the calls grant one user, date and channel at most one reward, none when there was a
check-in before. -/
theorem checkin_awarded_le (channel : CheckinChannel) (date : String) (b : Int) (hb : 0 < b) (db : CheckinDB)
    (events : List CheckinEvent) :
    (db.awarded channel date ≤ b →
      (∀ e ∈ events, e.setting.channelDailyBudget channel.text = b) →
      Along CheckinSystem.step (CheckinSystem.Current channel date) ⟨db, []⟩ events →
      (run CheckinSystem.step ⟨db, []⟩ events).shared.awarded channel date ≤ b) ∧
    ∀ k, db.recorded k + (run CheckinSystem.step ⟨db, []⟩ events).total (CheckinThread.grants k) ≤ 1 := by
  refine ⟨fun hle hbudget hcurrent => ?_, fun k => ?_⟩
  · have hstart : CheckinSystem.Within channel b date ⟨db, []⟩ := ⟨hle, fun _ h => absurd h List.not_mem_nil⟩
    exact (run_keeps_along (fun s e hs he => hs.step hb he.1 he.2) hstart (hcurrent.and_mem hbudget)).awarded_le
  · have hrun := CheckinSystem.run_total ⟨db, []⟩ events k
    have hstart : Pool.total (CheckinThread.grants k) (⟨db, []⟩ : CheckinSystem) = 0 := rfl
    have hrecorded : (run CheckinSystem.step ⟨db, []⟩ events).shared.recorded k ≤ 1 := by
      rw [CheckinDB.recorded]
      split <;> omega
    dsimp only at hrun
    omega

/-! ## A small channel -/

/-- The web channel may award `100` a day. -/
def smallCheckinSetting : CheckinSetting where
  enabled := true
  minQuota := 10
  maxQuota := 10
  channels := [("web", { dailyBudget := 100 })]

/-- A moment of a day. -/
def checkinEnv : CheckinEnv where
  setting := smallCheckinSetting
  today := "2026-06-21"
  now := 1782000000
  randIntn _ := 0
  scale quota percent := quota * percent / 100
  reward := plainRewardEnv "2026-06-21"

/-- Two users, a fund that holds `1000`, and no check-ins. -/
def checkinDB : CheckinDB where
  checkins := .empty
  reward := RewardDB.step
    { wallet := ⟨⟨[{ id := 1, quota := 0 }, { id := 2, quota := 0 }], by decide, by decide, by decide⟩,
        .empty, .empty⟩
      budget := ⟨.empty, .empty, .empty, .empty⟩ }
    ⟨plainRewardEnv "2026-06-21", none, .ensureFundMinimum "site" 1000 "raise" "" "admin_budget_restore"⟩

/-- Two users check in for `60` each, one after the other. -/
def checkinsInTurn : List CheckinEvent :=
  [.begin checkinEnv 1 "web" 60 "activity", .step checkinEnv 0 none, .step checkinEnv 0 none,
    .step checkinEnv 0 none, .step checkinEnv 0 none,
    .begin checkinEnv 2 "web" 60 "activity", .step checkinEnv 1 none, .step checkinEnv 1 none,
    .step checkinEnv 1 none, .step checkinEnv 1 none]

theorem checkin_awarded_le_inTurn :
    (run CheckinSystem.step ⟨checkinDB, []⟩ checkinsInTurn).shared.awarded .web "2026-06-21" = 60 ∧
    (run CheckinSystem.step ⟨checkinDB, []⟩ checkinsInTurn).shared.awarded .web "2026-06-21" ≤ 100 :=
  ⟨by decide +kernel, (checkin_awarded_le .web "2026-06-21" 100 (by decide) checkinDB checkinsInTurn).1
    (by decide +kernel) (by decide +kernel) (by decide +kernel)⟩

/-- Two users check in for `60` each, and both query the budget before either transaction. -/
def checkinsOverlap : List CheckinEvent :=
  [.begin checkinEnv 1 "web" 60 "activity", .begin checkinEnv 2 "web" 60 "activity",
    .step checkinEnv 0 none, .step checkinEnv 1 none, .step checkinEnv 0 none, .step checkinEnv 1 none,
    .step checkinEnv 0 none, .step checkinEnv 1 none, .step checkinEnv 0 none, .step checkinEnv 1 none]

/-- Two calls that read the same sum exceed the budget together. -/
theorem checkin_awarded_exceeds :
    (∀ e ∈ checkinsOverlap, e.setting.channelDailyBudget "web" = 100) ∧
    (run CheckinSystem.step ⟨checkinDB, []⟩ checkinsOverlap).shared.awarded .web "2026-06-21" = 120 := by
  decide +kernel

end Prox
