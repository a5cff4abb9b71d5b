import Mathlib.Tactic.Linarith
import Mathlib.Tactic.Ring
import Prox.Lib.Calendar
import Prox.Subscription.Quota

/-! # Catching up with missed resets

In a zone with a fixed offset the resets of a plan lie at the boundaries of its period: midnights,
Mondays, first days of months, or multiples of its seconds after the base. The loop of
`maybeResetUserSubscriptionWithPlanTx` steps from boundary to boundary. For the calendar periods it
ends at the last boundary that is due; for a period in seconds it steps by the duration that the
seconds make in 64 bits, which may be shorter than they are, zero or negative. -/

namespace Prox

open Location

attribute [local irreducible] trimSpace

/-! ## Dates in a fixed zone -/

section Fixed

variable (offset : Int)

theorem fixed_days (t : Int) : (fixed offset).days t = (t + offset) / 86400 := rfl

theorem fixed_clock (t : Int) : (fixed offset).clock t = (t + offset) % 86400 := rfl

theorem fixed_civil (t : Int) :
    (fixed offset).civil t = civilOfDays ((t + offset) / 86400) := rfl

theorem fixed_dateUnix (year month day clock : Int) :
    (fixed offset).dateUnix year month day clock =
      daysOfCivil year month day * 86400 + clock - offset := by
  simp only [dateUnix, fixed]
  split_ifs <;> omega

/-- Days are added to a midnight as days. -/
theorem fixed_addDate_days (z n : Int) :
    (fixed offset).addDate (z * 86400 - offset) 0 n = (z + n) * 86400 - offset := by
  have hz : (z * 86400 - offset + offset) / 86400 = z := by omega
  have hclock : (z * 86400 - offset + offset) % 86400 = 0 := by omega
  have hdate := daysOfCivil_civilOfDays z
  rw [daysOfCivil_eq] at hdate
  simp only [addDate, fixed_civil, fixed_clock, fixed_dateUnix, hz, hclock, daysOfCivil_eq,
    add_zero]
  omega

/-- A month after the first midnight of a month is the first midnight of the next. -/
theorem fixed_addDate_month (k : Int) :
    (fixed offset).addDate (firstOfMonth k * 86400 - offset) 1 0 =
      firstOfMonth (k + 1) * 86400 - offset := by
  have hz : (firstOfMonth k * 86400 - offset + offset) / 86400 = firstOfMonth k := by omega
  have hclock : (firstOfMonth k * 86400 - offset + offset) % 86400 = 0 := by omega
  obtain ⟨-, -, hk, -⟩ := civilOfDays_spec (firstOfMonth k)
  have hday : (civilOfDays (firstOfMonth k)).day = 1 := civilOfDays_day_eq_one_iff.mpr ⟨k, rfl⟩
  rw [hday, sub_self, add_zero] at hk
  have hmonth := le_antisymm (firstOfMonth_le.mp hk.le) (firstOfMonth_le.mp hk.ge)
  simp only [addDate, fixed_civil, fixed_clock, fixed_dateUnix, hz, hclock, daysOfCivil_eq,
    add_zero, hday, sub_self]
  congr 3
  omega

end Fixed

/-! ## Boundaries -/

/-- A time within the term of a subscription; a subscription without an end has no last one. -/
def InTerm (endUnix t : Int) : Prop := 0 < endUnix → t ≤ endUnix

/-- A boundary of the plan's reset period, for a schedule that starts at `base`. -/
def IsBoundary (loc : Location) (plan : SubscriptionPlan) (base t : Int) : Prop :=
  match normalizeResetPeriod plan.quotaResetPeriod with
  | .never => False
  | .daily => loc.clock t = 0
  | .weekly => loc.clock t = 0 ∧ weekdayOfDays (loc.days t) = 1
  | .monthly => loc.clock t = 0 ∧ (loc.civil t).day = 1
  | .custom => ∃ n : Nat, t = base + n * plan.quotaResetCustomSeconds

/-- A way to step through times: from the base and from every boundary the step leads to the next
boundary. -/
structure Steps (B : Int → Prop) (step : Int → Int) (base : Int) : Prop where
  lt : ∀ t, t < step t
  boundary : ∀ t, t = base ∨ B t → B (step t)
  least : ∀ t x, t = base ∨ B t → B x → t < x → step t ≤ x

/-- Midnights. -/
theorem steps_daily (offset base : Int) :
    Steps (fun t => (t + offset) % 86400 = 0) (fun t => ((t + offset) / 86400 + 1) * 86400 - offset)
      base where
  lt t := by omega
  boundary t _ := by omega
  least t x _ hx hlt := by omega

/-- Midnights of Mondays. -/
theorem steps_weekly (offset base : Int) :
    Steps (fun t => (t + offset) % 86400 = 0 ∧ ((t + offset) / 86400 + 4) % 7 = 1)
      (fun t => ((t + offset) / 86400 + (8 - if ((t + offset) / 86400 + 4) % 7 = 0 then 7
        else ((t + offset) / 86400 + 4) % 7)) * 86400 - offset) base where
  lt t := by split_ifs <;> omega
  boundary t _ := by split_ifs <;> omega
  least t x _ hx hlt := by split_ifs <;> omega

theorem steps_monthly (offset base : Int) :
    Steps (fun t => (t + offset) % 86400 = 0 ∧ (civilOfDays ((t + offset) / 86400)).day = 1)
      (fun t => firstOfMonth (12 * (civilOfDays ((t + offset) / 86400)).year +
        (civilOfDays ((t + offset) / 86400)).month) * 86400 - offset) base where
  lt t := by
    obtain ⟨-, -, -, hlt⟩ := civilOfDays_spec ((t + offset) / 86400)
    omega
  boundary t _ := by
    generalize 12 * (civilOfDays ((t + offset) / 86400)).year +
      (civilOfDays ((t + offset) / 86400)).month = k
    have hdays : (firstOfMonth k * 86400 - offset + offset) / 86400 = firstOfMonth k := by omega
    refine ⟨by omega, ?_⟩
    rw [hdays]
    exact civilOfDays_day_eq_one_iff.mpr ⟨k, rfl⟩
  least t x _ hx hlt := by
    obtain ⟨hclock, hday⟩ := hx
    obtain ⟨k, hk⟩ := civilOfDays_day_eq_one_iff.mp hday
    obtain ⟨-, hday, hz, -⟩ := civilOfDays_spec ((t + offset) / 86400)
    -- the day of `x` is the first of a later month than that of `t`
    have hmonth : 12 * (civilOfDays ((t + offset) / 86400)).year +
        ((civilOfDays ((t + offset) / 86400)).month - 1) < k :=
      firstOfMonth_lt.mp (by omega)
    have hle := firstOfMonth_le.mpr (show
      12 * (civilOfDays ((t + offset) / 86400)).year + (civilOfDays ((t + offset) / 86400)).month ≤ k by
        omega)
    omega

variable {d endUnix last t : Int}

/-- Multiples of a positive number of seconds. -/
theorem steps_seconds (hd : 0 < d) (base : Int) :
    Steps (fun t => ∃ n : Nat, t = base + n * d) (fun t => t + d) base where
  lt t := by omega
  boundary t ht := by
    rcases ht with rfl | ⟨n, rfl⟩
    · exact ⟨1, by simp⟩
    · exact ⟨n + 1, by push_cast; ring⟩
  least t x ht hx hlt := by
    obtain ⟨m, rfl⟩ := hx
    obtain ⟨n, rfl⟩ : ∃ n : Nat, t = base + n * d := by
      rcases ht with rfl | ht
      · exact ⟨0, by simp⟩
      · exact ht
    have hnm : (n : Int) < m := by
      by_contra hle
      have := mul_le_mul_of_nonneg_right (not_lt.mp hle) hd.le
      omega
    have := mul_le_mul_of_nonneg_right (show (n : Int) + 1 ≤ m by omega) hd.le
    linarith

/-! ## The loop -/

/-- The step of the plan's schedule, with the end of the term as its bound. -/
def CappedStep (loc : Location) (plan : SubscriptionPlan) (endUnix : Int) (step : Int → Int) : Prop :=
  ∀ t, calcNextResetTime loc t plan endUnix = if 0 < endUnix ∧ endUnix < step t then 0 else step t

/-- Where a loop that advanced stands: at the last due boundary of the term. -/
structure LastDue (B : Int → Prop) (step : Int → Int) (endUnix now last next : Int) : Prop where
  pos : 0 < last
  boundary : B last
  le : last ≤ now
  inTerm : InTerm endUnix last
  next_eq : next = if 0 < endUnix ∧ endUnix < step last then 0 else step last
  stops : ¬ (0 < next ∧ next ≤ now)

section Loop

variable {loc : Location} {plan : SubscriptionPlan} {endUnix now base : Int} {B : Int → Prop}
  {step : Int → Int}

/-- The loop over steps that lead forward ends, and if it advances, it ends at the last due boundary. -/
theorem advanceReset_ends (hcap : CappedStep loc plan endUnix step) (hsteps : Steps B step base)
    {fuel : Nat} {advanced : Bool} (hfuel : 1 ≤ fuel)
    (hmeasure : 0 < calcNextResetTime loc t plan endUnix →
      now + 2 - calcNextResetTime loc t plan endUnix ≤ fuel) (ht : t = base ∨ B t)
    (hdone : advanced = true → 0 < t ∧ B t ∧ t ≤ now ∧ InTerm endUnix t) :
    ∃ last next, ∃ advanced' : Bool,
      advanceReset loc plan endUnix now fuel t (calcNextResetTime loc t plan endUnix) advanced =
        some (last, next, advanced') ∧
      (advanced' = true ↔ advanced = true ∨
        0 < calcNextResetTime loc t plan endUnix ∧ calcNextResetTime loc t plan endUnix ≤ now) ∧
      (advanced' = true → LastDue B step endUnix now last next) := by
  induction fuel generalizing t advanced with
  | zero => omega
  | succ fuel ih =>
    rw [advanceReset]
    by_cases hdue : 0 < calcNextResetTime loc t plan endUnix ∧
        calcNextResetTime loc t plan endUnix ≤ now
    · rw [if_pos hdue]
      have hnext := hcap t
      -- the next reset is a boundary of the term
      have hstep : calcNextResetTime loc t plan endUnix = step t ∧ InTerm endUnix (step t) := by
        rw [hnext] at hdue ⊢
        split_ifs at hdue ⊢ with h
        · omega
        · exact ⟨rfl, fun hend => by omega⟩
      have hB := hsteps.boundary t ht
      have hlt := hsteps.lt (step t)
      have hcapstep := hcap (step t)
      rw [hstep.1] at hdue hmeasure ⊢
      have hdone' : true = true → 0 < step t ∧ B (step t) ∧ step t ≤ now ∧ InTerm endUnix (step t) :=
        fun _ => ⟨hdue.1, hB, hdue.2, hstep.2⟩
      obtain ⟨last, next, advanced', hrun, hadvanced, hlast⟩ := ih (t := step t)
        (by omega)
        (by
          intro hpos
          rw [hcapstep] at hpos ⊢
          split_ifs at hpos ⊢ <;> omega)
        (.inr hB) hdone'
      refine ⟨last, next, advanced', hrun, ?_, hlast⟩
      rw [hadvanced]
      simp [hdue]
    · rw [if_neg hdue]
      refine ⟨t, _, advanced, rfl, by simp [hdue], fun hadvanced => ?_⟩
      obtain ⟨hpos, hB, hle, hterm⟩ := hdone hadvanced
      exact ⟨hpos, hB, hle, hterm, hcap t, hdue⟩

/-- No later boundary of the term is due. -/
theorem LastDue.greatest (hsteps : Steps B step base) {next : Int}
    (h : LastDue B step endUnix now last next) {x : Int} (hx : B x) (hle : x ≤ now)
    (hterm : InTerm endUnix x) : x ≤ last := by
  by_contra hlt
  have hstep := hsteps.least last x (.inr h.boundary) hx (not_le.mp hlt)
  have hpos := h.pos
  have hlast := hsteps.lt last
  have hstops := h.stops
  rw [h.next_eq] at hstops
  split_ifs at hstops with hend
  · have := hterm hend.1
    omega
  · omega

/-- The reset after it is not due, and lies in the term. -/
theorem LastDue.next (hsteps : Steps B step base) {next : Int}
    (h : LastDue B step endUnix now last next) : next = 0 ∨ now < next ∧ InTerm endUnix next := by
  have hpos := h.pos
  have hlast := hsteps.lt last
  have hstops := h.stops
  rw [h.next_eq] at hstops ⊢
  split_ifs at hstops ⊢ with hend
  · exact .inl rfl
  · exact .inr ⟨by omega, fun hpos => by omega⟩

end Loop

/-! ## Plans -/

section Plans

variable (offset : Int) {plan : SubscriptionPlan} (endUnix : Int)

theorem cappedStep_daily (h : normalizeResetPeriod plan.quotaResetPeriod = .daily) :
    CappedStep (.fixed offset) plan endUnix fun t => ((t + offset) / 86400 + 1) * 86400 - offset := by
  intro t
  have hdate := daysOfCivil_civilOfDays ((t + offset) / 86400)
  simp [calcNextResetTime, h, fixed_civil, fixed_dateUnix, hdate, fixed_addDate_days]

theorem cappedStep_weekly (h : normalizeResetPeriod plan.quotaResetPeriod = .weekly) :
    CappedStep (.fixed offset) plan endUnix fun t =>
      ((t + offset) / 86400 + (8 - if ((t + offset) / 86400 + 4) % 7 = 0 then 7
        else ((t + offset) / 86400 + 4) % 7)) * 86400 - offset := by
  intro t
  have hdate := daysOfCivil_civilOfDays ((t + offset) / 86400)
  simp only [calcNextResetTime, h, fixed_civil, fixed_dateUnix, hdate, add_zero, fixed_addDate_days,
    fixed_days, weekdayOfDays]
  rfl

theorem cappedStep_monthly (h : normalizeResetPeriod plan.quotaResetPeriod = .monthly) :
    CappedStep (.fixed offset) plan endUnix fun t =>
      firstOfMonth (12 * (civilOfDays ((t + offset) / 86400)).year +
        (civilOfDays ((t + offset) / 86400)).month) * 86400 - offset := by
  intro t
  simp only [calcNextResetTime, h, fixed_civil, fixed_dateUnix, daysOfCivil_eq, sub_self, add_zero,
    fixed_addDate_month]
  have hmonth : ∀ y m : Int, 12 * y + (m - 1) + 1 = 12 * y + m := by omega
  simp [hmonth]

theorem cappedStep_custom (h : normalizeResetPeriod plan.quotaResetPeriod = .custom)
    (hpos : 0 < plan.quotaResetCustomSeconds) :
    CappedStep (.fixed offset) plan endUnix
      fun t => t + durationSeconds plan.quotaResetCustomSeconds := by
  intro t
  simp [calcNextResetTime, h, if_neg (not_le.mpr hpos)]

end Plans

/-! ## The reset -/

/-- Where the schedule of a subscription starts. -/
def UserSubscription.resetBase (s : UserSubscription) : Int :=
  if s.lastResetTime ≤ 0 then s.startTime else s.lastResetTime

/-- A reset is due: the stored one is not in the future and the first one after the base is due. -/
def UserSubscription.Advances (loc : Location) (plan : SubscriptionPlan) (now : Int)
    (s : UserSubscription) : Prop :=
  ¬ (0 < s.nextResetTime ∧ now < s.nextResetTime) ∧
    0 < calcNextResetTime loc s.resetBase plan s.endTime ∧
    calcNextResetTime loc s.resetBase plan s.endTime ≤ now

/-- What a subscription should be after a catch-up: reset at the last boundary of its term that is due. -/
structure CaughtUp (loc : Location) (plan : SubscriptionPlan) (now : Int) (s s' : UserSubscription) :
    Prop where
  used : s'.amountUsed = 0
  last_le : s'.lastResetTime ≤ now
  next : s'.nextResetTime = 0 ∨ now < s'.nextResetTime ∧ InTerm s.endTime s'.nextResetTime
  boundary : IsBoundary loc plan s.resetBase s'.lastResetTime
  inTerm : InTerm s.endTime s'.lastResetTime
  greatest : ∀ t, IsBoundary loc plan s.resetBase t → t ≤ now → InTerm s.endTime t →
    t ≤ s'.lastResetTime

/-- The catch-up ends, and when it advances, the subscription is caught up and a second catch-up at the
same time changes nothing. -/
def CatchesUp (loc : Location) (plan : SubscriptionPlan) (now : Int) (db : SubscriptionDB)
    (s : UserSubscription) : Prop :=
  ∃ s' db', maybeResetUserSubscriptionWithPlanTx loc db s plan now = .ok (s', db') ∧
    (s.Advances loc plan now → CaughtUp loc plan now s s' ∧
      maybeResetUserSubscriptionWithPlanTx loc db' s' plan now = .ok (s', db'))

section Reset

variable {loc : Location} {plan : SubscriptionPlan} {now : Int} {s : UserSubscription}
  {B : Int → Prop} {step : Int → Int}

/-- Nothing more is to be done after the last due boundary. -/
theorem maybeReset_of_stopped {db : SubscriptionDB} (hlast : 0 < s.lastResetTime)
    (hnext : s.nextResetTime = calcNextResetTime loc s.lastResetTime plan s.endTime)
    (hstops : ¬ (0 < s.nextResetTime ∧ s.nextResetTime ≤ now)) :
    maybeResetUserSubscriptionWithPlanTx loc db s plan now = .ok (s, db) := by
  have hbase : ¬ s.lastResetTime ≤ 0 := by omega
  rw [hnext] at hstops
  unfold maybeResetUserSubscriptionWithPlanTx
  by_cases hset : 0 < s.nextResetTime ∧ now < s.nextResetTime
  · rw [if_pos hset]; rfl
  rw [if_neg hset]
  by_cases hnever : normalizeResetPeriod plan.quotaResetPeriod = .never
  · rw [if_pos hnever]; rfl
  have hrun : advanceReset loc plan s.endTime now (now.toNat + 2) s.lastResetTime
      (calcNextResetTime loc s.lastResetTime plan s.endTime) false =
        some (s.lastResetTime, calcNextResetTime loc s.lastResetTime plan s.endTime, false) := by
    rw [advanceReset, if_neg hstops]
  -- a reset that would be set now is stored already
  have hagain : ¬ (s.nextResetTime = 0 ∧ 0 < calcNextResetTime loc s.lastResetTime plan s.endTime) := by
    omega
  simp only [if_neg hnever, if_neg hbase, hrun, if_neg hagain]
  rfl

/-- A catch-up over steps that lead forward ends, at the last due boundary of the term. -/
theorem maybeReset_steps (hcap : CappedStep loc plan s.endTime step)
    (hsteps : Steps B step s.resetBase) (db : SubscriptionDB) :
    ∃ s' db', maybeResetUserSubscriptionWithPlanTx loc db s plan now = .ok (s', db') ∧
      (s.Advances loc plan now →
        LastDue B step s.endTime now s'.lastResetTime s'.nextResetTime ∧ s'.amountUsed = 0 ∧
          maybeResetUserSubscriptionWithPlanTx loc db' s' plan now = .ok (s', db')) := by
  obtain ⟨last, next, advanced, hrun, hadvanced, hdue⟩ :=
    @advanceReset_ends s.resetBase _ _ _ now _ _ _ hcap hsteps (now.toNat + 2) false (by omega)
      (fun hpos => by omega) (.inl rfl) (by simp)
  rw [maybeResetUserSubscriptionWithPlanTx]
  by_cases hset : 0 < s.nextResetTime ∧ now < s.nextResetTime
  · rw [if_pos hset]
    exact ⟨s, db, rfl, fun h => absurd hset h.1⟩
  rw [if_neg hset]
  by_cases hnever : normalizeResetPeriod plan.quotaResetPeriod = .never
  · rw [if_pos hnever]
    refine ⟨s, db, rfl, fun h => ?_⟩
    have hzero : calcNextResetTime loc s.resetBase plan s.endTime = 0 := by
      simp [calcNextResetTime, hnever]
    have := h.2.1
    omega
  rw [if_neg hnever]
  have hrun' : advanceReset loc plan s.endTime now (now.toNat + 2)
      (if s.lastResetTime ≤ 0 then s.startTime else s.lastResetTime)
      (calcNextResetTime loc (if s.lastResetTime ≤ 0 then s.startTime else s.lastResetTime) plan
        s.endTime) false = some (last, next, advanced) := hrun
  simp only [hrun']
  cases advanced with
  | false =>
    have hnot : ¬ s.Advances loc plan now := fun h => by
      have := hadvanced.mpr (.inr h.2)
      simp at this
    dsimp only
    split_ifs
    · exact ⟨_, _, rfl, fun h => absurd h hnot⟩
    · exact ⟨_, _, rfl, fun h => absurd h hnot⟩
  | true =>
    have hlast := hdue rfl
    refine ⟨_, _, rfl, fun _ => ⟨hlast, rfl, maybeReset_of_stopped hlast.pos ?_ hlast.stops⟩⟩
    rw [hlast.next_eq]
    exact (hcap last).symm

/-- For a calendar period the catch-up is right. -/
theorem catchesUp_of_steps (hcap : CappedStep loc plan s.endTime step)
    (hsteps : Steps B step s.resetBase)
    (hB : ∀ t, IsBoundary loc plan s.resetBase t ↔ B t) (db : SubscriptionDB) :
    CatchesUp loc plan now db s := by
  obtain ⟨s', db', hok, hdue⟩ := @maybeReset_steps _ _ now _ _ _ hcap hsteps db
  refine ⟨s', db', hok, fun h => ?_⟩
  obtain ⟨hlast, hused, hagain⟩ := hdue h
  exact ⟨⟨hused, hlast.le, hlast.next hsteps, (hB _).mpr hlast.boundary, hlast.inTerm,
    fun t ht hle hterm => hlast.greatest hsteps ((hB t).mp ht) hle hterm⟩, hagain⟩

/-- What does not advance ends at once. -/
theorem catchesUp_of_not_advances (h : ¬ s.Advances loc plan now) (db : SubscriptionDB) :
    CatchesUp loc plan now db s := by
  suffices hok : ∃ s' db', maybeResetUserSubscriptionWithPlanTx loc db s plan now = .ok (s', db') by
    obtain ⟨s', db', hok⟩ := hok
    exact ⟨s', db', hok, fun hadv => absurd hadv h⟩
  unfold maybeResetUserSubscriptionWithPlanTx
  by_cases hset : 0 < s.nextResetTime ∧ now < s.nextResetTime
  · exact ⟨s, db, by rw [if_pos hset]; rfl⟩
  rw [if_neg hset]
  by_cases hnever : normalizeResetPeriod plan.quotaResetPeriod = .never
  · exact ⟨s, db, by rw [if_pos hnever]; rfl⟩
  have hnot : ¬ (0 < calcNextResetTime loc s.resetBase plan s.endTime ∧
      calcNextResetTime loc s.resetBase plan s.endTime ≤ now) := fun hdue => h ⟨hset, hdue⟩
  unfold UserSubscription.resetBase at hnot
  simp only [advanceReset, if_neg hnot]
  split_ifs <;> exact ⟨_, _, rfl⟩

/-- A loop that begins with a due reset advances. -/
theorem advanceReset_advanced {fuel : Nat} {next next' : Int} {advanced advanced' : Bool}
    (hdue : advanced = true ∨ 0 < next ∧ next ≤ now)
    (h : advanceReset loc plan endUnix now fuel t next advanced = some (last, next', advanced')) :
    advanced' = true := by
  induction fuel generalizing t next advanced with
  | zero => cases h
  | succ fuel ih =>
    rw [advanceReset] at h
    split_ifs at h with hnext
    · exact ih (.inl rfl) h
    · cases h
      exact hdue.resolve_right hnext

/-- What advances is set to where the loop ends. -/
theorem advanceReset_of_advances {db db' : SubscriptionDB} {s' : UserSubscription}
    (h : s.Advances loc plan now)
    (hok : maybeResetUserSubscriptionWithPlanTx loc db s plan now = .ok (s', db')) :
    ∃ next, advanceReset loc plan s.endTime now (now.toNat + 2) s.resetBase
        (calcNextResetTime loc s.resetBase plan s.endTime) false =
          some (s'.lastResetTime, next, true) := by
  have hnever : ¬ normalizeResetPeriod plan.quotaResetPeriod = .never := fun hnever => by
    have hzero : calcNextResetTime loc s.resetBase plan s.endTime = 0 := by
      simp [calcNextResetTime, hnever]
    have := h.2.1
    omega
  rw [maybeResetUserSubscriptionWithPlanTx, if_neg h.1, if_neg hnever] at hok
  cases hrun : advanceReset loc plan s.endTime now (now.toNat + 2) s.resetBase
      (calcNextResetTime loc s.resetBase plan s.endTime) false with
  | none =>
    unfold UserSubscription.resetBase at hrun
    simp only [hrun] at hok
    cases hok
  | some r =>
    obtain ⟨last, next, advanced⟩ := r
    obtain rfl := advanceReset_advanced (.inr h.2) hrun
    unfold UserSubscription.resetBase at hrun
    simp only [hrun] at hok
    cases hok
    exact ⟨next, rfl⟩

/-! ## Steps that lead nowhere or back -/

/-- A step of no seconds is repeated for ever. -/
theorem advanceReset_still (hcap : CappedStep loc plan endUnix fun t => t + d) (hd : d = 0)
    (hdue : 0 < calcNextResetTime loc t plan endUnix ∧
      calcNextResetTime loc t plan endUnix ≤ now) (fuel : Nat) (advanced : Bool) :
    advanceReset loc plan endUnix now fuel t (calcNextResetTime loc t plan endUnix) advanced =
      none := by
  have hnext : calcNextResetTime loc t plan endUnix = t := by
    have hstep : calcNextResetTime loc t plan endUnix =
        if 0 < endUnix ∧ endUnix < t + d then 0 else t + d := hcap t
    rw [hstep] at hdue ⊢
    split_ifs at hdue ⊢ <;> omega
  induction fuel generalizing advanced with
  | zero => rfl
  | succ fuel ih =>
    rw [advanceReset, if_pos hdue]
    rw [hnext]
    exact ih true

theorem advanceReset_back {base : Int} (hcap : CappedStep loc plan endUnix fun t => t + d)
    (hd : d < 0) {fuel : Nat} {next : Int} {advanced advanced' : Bool} (ht : t ≤ base)
    (hback : advanced = true → t < base)
    (h : advanceReset loc plan endUnix now fuel t (calcNextResetTime loc t plan endUnix) advanced =
      some (last, next, advanced')) : advanced' = true → last < base := by
  induction fuel generalizing t advanced with
  | zero => cases h
  | succ fuel ih =>
    rw [advanceReset] at h
    split_ifs at h with hdue
    · have hlt : calcNextResetTime loc t plan endUnix < base := by
        have hstep : calcNextResetTime loc t plan endUnix =
            if 0 < endUnix ∧ endUnix < t + d then 0 else t + d := hcap t
        rw [hstep] at hdue ⊢
        split_ifs at hdue ⊢ <;> omega
      exact ih hlt.le (fun _ => hlt) h
    · cases h
      exact hback

end Reset

/-! ## When the catch-up is right -/

/-- The step of a period in seconds: the duration that they make in 64 bits, in whole seconds. -/
def SubscriptionPlan.resetStep (plan : SubscriptionPlan) : Int :=
  durationSeconds plan.quotaResetCustomSeconds

/-- The last time that matters: now, or the end of a term that is over. -/
def UserSubscription.horizon (now : Int) (s : UserSubscription) : Int :=
  if 0 < s.endTime then min now s.endTime else now

/-- For a period in seconds: the step leads forward, and the last multiple of the step up to the horizon
is the last multiple of the seconds. -/
def StepsLikeSeconds (plan : SubscriptionPlan) (now : Int) (s : UserSubscription) : Prop :=
  0 < plan.resetStep ∧
    (s.horizon now - s.resetBase) / plan.resetStep * plan.resetStep =
      (s.horizon now - s.resetBase) / plan.quotaResetCustomSeconds * plan.quotaResetCustomSeconds

section Custom

variable {offset now : Int} {plan : SubscriptionPlan} {s : UserSubscription}

theorem le_horizon_iff : t ≤ s.horizon now ↔ t ≤ now ∧ InTerm s.endTime t := by
  unfold UserSubscription.horizon InTerm
  split_ifs with h
  · rw [le_min_iff]
    exact ⟨fun ⟨h1, h2⟩ => ⟨h1, fun _ => h2⟩, fun ⟨h1, h2⟩ => ⟨h1, h2 h⟩⟩
  · exact ⟨fun h1 => ⟨h1, fun h2 => absurd h2 h⟩, fun h1 => h1.1⟩

/-- The last multiple of a number of seconds up to a time. -/
theorem last_multiple_iff (hd : 0 < d) {base limit : Int} (hbase : base ≤ limit) :
    ((∃ n : Nat, t = base + n * d) ∧ t ≤ limit ∧
        ∀ x, (∃ n : Nat, x = base + n * d) → x ≤ limit → x ≤ t) ↔
      t = base + (limit - base) / d * d := by
  have hq0 : 0 ≤ (limit - base) / d := Int.ediv_nonneg (by omega) hd.le
  have hq := Int.ediv_mul_le (limit - base) hd.ne'
  have hmax : ∀ n : Nat, base + n * d ≤ limit → (n : Int) * d ≤ (limit - base) / d * d := fun n hn =>
    mul_le_mul_of_nonneg_right (Int.le_ediv_of_mul_le hd (by omega)) hd.le
  have htoNat : (((limit - base) / d).toNat : Int) = (limit - base) / d := Int.toNat_of_nonneg hq0
  constructor
  · rintro ⟨⟨n, rfl⟩, hle, hgreatest⟩
    have hle' := hmax n hle
    have hge := hgreatest (base + (limit - base) / d * d)
      ⟨((limit - base) / d).toNat, by rw [htoNat]⟩ (by omega)
    omega
  · rintro rfl
    refine ⟨⟨((limit - base) / d).toNat, by rw [htoNat]⟩, by omega, ?_⟩
    rintro x ⟨n, rfl⟩ hx
    have := hmax n hx
    omega

/-- For a period in seconds the catch-up is right, when it advances, exactly when its steps come to the
same time as the seconds. -/
theorem catchesUp_custom_iff (hcustom : normalizeResetPeriod plan.quotaResetPeriod = .custom)
    (hadv : s.Advances (.fixed offset) plan now) (db : SubscriptionDB) :
    CatchesUp (.fixed offset) plan now db s ↔ StepsLikeSeconds plan now s := by
  have hpos : 0 < plan.quotaResetCustomSeconds := by
    by_contra hle
    have hzero : calcNextResetTime (.fixed offset) s.resetBase plan s.endTime = 0 := by
      simp [calcNextResetTime, hcustom, not_lt.mp hle]
    have := hadv.2.1
    omega
  have hcap := cappedStep_custom offset s.endTime hcustom hpos
  have hboundary : ∀ t, IsBoundary (.fixed offset) plan s.resetBase t ↔
      ∃ n : Nat, t = s.resetBase + n * plan.quotaResetCustomSeconds := by
    intro t
    rw [IsBoundary, hcustom]
  rcases lt_or_ge 0 plan.resetStep with hd | hd
  · have hsteps := steps_seconds hd s.resetBase
    obtain ⟨s', db', hok, hdue⟩ := @maybeReset_steps _ _ now _ _ _ hcap hsteps db
    obtain ⟨hlast, hused, hagain⟩ := hdue hadv
    have hhorizon : s'.lastResetTime ≤ s.horizon now := le_horizon_iff.mpr ⟨hlast.le, hlast.inTerm⟩
    have hbase : s.resetBase ≤ s.horizon now := by
      obtain ⟨n, hn⟩ := hlast.boundary
      have := mul_nonneg (Int.natCast_nonneg n) hd.le
      omega
    -- the loop ends at the last multiple of the step
    have hstep := (last_multiple_iff hd hbase).mp ⟨hlast.boundary, hhorizon, fun x hx hle =>
      hlast.greatest hsteps hx (le_horizon_iff.mp hle).1 (le_horizon_iff.mp hle).2⟩
    have hsame : StepsLikeSeconds plan now s ↔ s'.lastResetTime = s.resetBase +
        (s.horizon now - s.resetBase) / plan.quotaResetCustomSeconds * plan.quotaResetCustomSeconds := by
      rw [hstep]
      exact ⟨fun h => by rw [h.2], fun h => ⟨hd, by omega⟩⟩
    rw [hsame, ← last_multiple_iff hpos hbase]
    constructor
    · rintro ⟨t', db'', hok', hdue'⟩
      rw [hok] at hok'
      obtain ⟨rfl, rfl⟩ := Prod.mk.inj (Except.ok.inj hok')
      have hcaught := (hdue' hadv).1
      exact ⟨(hboundary _).mp hcaught.boundary, hhorizon, fun x hx hle =>
        hcaught.greatest x ((hboundary x).mpr hx) (le_horizon_iff.mp hle).1 (le_horizon_iff.mp hle).2⟩
    · rintro ⟨hmultiple, -, hgreatest⟩
      exact ⟨s', db', hok, fun _ => ⟨⟨hused, hlast.le, hlast.next hsteps, (hboundary _).mpr hmultiple,
        hlast.inTerm, fun t ht hle hterm =>
          hgreatest t ((hboundary t).mp ht) (le_horizon_iff.mpr ⟨hle, hterm⟩)⟩, hagain⟩⟩
  · -- the loop does not end, or it ends before the base
    refine iff_of_false ?_ fun h => absurd h.1 (not_lt.mpr hd)
    rintro ⟨s', db', hok, hdue⟩
    obtain ⟨next, hrun⟩ := advanceReset_of_advances hadv hok
    obtain ⟨n, hn⟩ := (hboundary _).mp (hdue hadv).1.boundary
    have hge : 0 ≤ (n : Int) * plan.quotaResetCustomSeconds :=
      mul_nonneg (Int.natCast_nonneg n) hpos.le
    rcases lt_or_eq_of_le hd with hd | hd
    · have hlt := advanceReset_back hcap hd (le_refl s.resetBase) (by simp) hrun rfl
      omega
    · rw [advanceReset_still hcap hd hadv.2] at hrun
      cases hrun

/-- For a calendar period the catch-up is always right. -/
theorem catchesUp_calendar (hcustom : normalizeResetPeriod plan.quotaResetPeriod ≠ .custom)
    (db : SubscriptionDB) : CatchesUp (.fixed offset) plan now db s := by
  have hboundary : ∀ t, IsBoundary (.fixed offset) plan s.resetBase t ↔
      match normalizeResetPeriod plan.quotaResetPeriod with
      | .never => False
      | .daily => (t + offset) % 86400 = 0
      | .weekly => (t + offset) % 86400 = 0 ∧ ((t + offset) / 86400 + 4) % 7 = 1
      | .monthly => (t + offset) % 86400 = 0 ∧ (civilOfDays ((t + offset) / 86400)).day = 1
      | .custom => ∃ n : Nat, t = s.resetBase + n * plan.quotaResetCustomSeconds := fun t => Iff.rfl
  cases hperiod : normalizeResetPeriod plan.quotaResetPeriod with
  | never =>
    refine catchesUp_of_not_advances (fun h => ?_) db
    have hzero : calcNextResetTime (.fixed offset) s.resetBase plan s.endTime = 0 := by
      simp [calcNextResetTime, hperiod]
    have := h.2.1
    omega
  | daily =>
    exact catchesUp_of_steps (cappedStep_daily offset _ hperiod) (steps_daily offset _)
      (fun t => by rw [hboundary, hperiod]) db
  | weekly =>
    exact catchesUp_of_steps (cappedStep_weekly offset _ hperiod) (steps_weekly offset _)
      (fun t => by rw [hboundary, hperiod]) db
  | monthly =>
    exact catchesUp_of_steps (cappedStep_monthly offset _ hperiod) (steps_monthly offset _)
      (fun t => by rw [hboundary, hperiod]) db
  | custom => exact absurd hperiod hcustom

/-- In a zone with a fixed offset the catch-up ends, and when it advances, resets the subscription at
the last due boundary of its term and is done with it, if and only if nothing is due, or the period is
one of the calendar, or the duration of its seconds leads forward and comes to the same time as they
do. -/
theorem catchesUp_iff (offset now : Int) (plan : SubscriptionPlan) (s : UserSubscription)
    (db : SubscriptionDB) :
    CatchesUp (.fixed offset) plan now db s ↔
      ¬ s.Advances (.fixed offset) plan now ∨
        normalizeResetPeriod plan.quotaResetPeriod ≠ .custom ∨ StepsLikeSeconds plan now s := by
  by_cases hadv : s.Advances (.fixed offset) plan now
  · by_cases hcustom : normalizeResetPeriod plan.quotaResetPeriod = .custom
    · rw [catchesUp_custom_iff hcustom hadv]
      simp [hadv, hcustom]
    · exact iff_of_true (catchesUp_calendar hcustom db) (.inr (.inl hcustom))
  · exact iff_of_true (catchesUp_of_not_advances hadv db) (.inl hadv)

end Custom

/-- A plan that is reset after 18446744074 seconds, whose duration in 64 bits is less than one. -/
def SubscriptionPlan.sampleSeconds : SubscriptionPlan :=
  { id := 1, quotaResetPeriod := "custom", quotaResetCustomSeconds := 18446744074 }

/-- A subscription of that plan whose reset is due. -/
def UserSubscription.sampleSeconds : UserSubscription :=
  { id := 1, userId := 1, planId := 1, amountTotal := 100, amountUsed := 40, startTime := 1000
    endTime := 900000, lastResetTime := 1000, nextResetTime := 1000 }

/-- The catch-up of the sample subscription does not end, however long it runs. -/
theorem sampleSeconds_never_ends :
    ¬ CatchesUp (.fixed 0) .sampleSeconds 2000 ⟨.empty, .empty, .empty, fun _ => 0⟩ .sampleSeconds ∧
      ∀ fuel, advanceReset (.fixed 0) .sampleSeconds 900000 2000 fuel 1000
        (calcNextResetTime (.fixed 0) 1000 .sampleSeconds 900000) false = none := by
  have hdue : 0 < calcNextResetTime (.fixed 0) 1000 .sampleSeconds 900000 ∧
      calcNextResetTime (.fixed 0) 1000 .sampleSeconds 900000 ≤ 2000 := by decide +kernel
  constructor
  · have hadv : UserSubscription.sampleSeconds.Advances (.fixed 0) .sampleSeconds 2000 :=
      ⟨by decide, hdue⟩
    rw [catchesUp_custom_iff (by decide +kernel) hadv]
    exact fun h => absurd h.1 (by decide)
  · have hcap := @cappedStep_custom 0 .sampleSeconds 900000 (by decide +kernel) (by decide)
    exact fun fuel => advanceReset_still hcap (by decide) hdue fuel false

end Prox
