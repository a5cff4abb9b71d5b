import Prox.Subscription.Counter

/-! # Holds and reset periods

A reset clears the counter but not the holds that are open at that moment. A hold taken before the
reset keeps its amount, and lowering it later, by a resize, a settlement or a refund, takes the
difference out of the counter of the new period. This module proves that the counter covers the
holds of the current period in every run without such a step, and exhibits a run in which one refund
breaks it. -/

namespace Prox

open List SubscriptionDB SubscriptionPreConsumeRecord Table UserSubscription

/-- The request was pre-consumed after the last reset of its subscription. -/
def SubscriptionDB.consumedAfterReset (db : SubscriptionDB) (r : SubscriptionPreConsumeRecord) :
    Bool :=
  (db.journal.rows.drop (db.resetMark r.userSubscriptionId)).any
    (fun t => t.requestId = r.requestId ∧ t.transactionType = "preconsume")

/-- What the requests pre-consumed in the current period of a subscription hold or settled. -/
def SubscriptionDB.heldAfterReset (db : SubscriptionDB) (id : Int) : Int :=
  db.records.total (fun r => r.userSubscriptionId = id ∧ db.consumedAfterReset r)
    SubscriptionPreConsumeRecord.held

/-- What the request holds now. -/
def SubscriptionDB.heldBy (db : SubscriptionDB) (k : String) : Int :=
  ((db.records.byKey k).map SubscriptionPreConsumeRecord.held).getD 0

/-- The call lowers an open hold that was taken before the last reset of its subscription. -/
def SubscriptionCall.lowersStaleHold (c : SubscriptionCall) (db : SubscriptionDB) : Prop :=
  ∃ a ∈ c.target, ∃ r ∈ db.records.byKey a.1,
    r.status = .consumed ∧ db.consumedAfterReset r = false ∧ a.2 < r.preConsumed
  deriving Decidable

/-- The call asks for so much that a counter would leave the 64-bit range. -/
def SubscriptionCall.overflows (c : SubscriptionCall) (db : SubscriptionDB) : Prop :=
  ∃ a ∈ c.target, ∃ s ∈ db.subs.rows, 2 ^ 63 ≤ s.amountUsed + (a.2 - db.heldBy a.1)
  deriving Decidable

/-- The invariant of the holds. -/
structure Covered (db : SubscriptionDB) : Prop where
  counted : Counted db
  /-- Counters are 64-bit integers. -/
  range : ∀ s ∈ db.subs.rows, s.amountUsed < 2 ^ 63
  /-- Every journal entry belongs to a record that accounts for it. -/
  explained : ∀ t ∈ db.journal.rows, ∃ r ∈ db.records.rows, t.Explains r
  nonneg : ∀ r ∈ db.records.rows, 0 ≤ r.preConsumed
  /-- The counter covers the holds of its period. -/
  covers : ∀ s ∈ db.subs.rows, db.heldAfterReset s.id ≤ s.amountUsed

/-- What an effect on a hold must respect: it lowers no stale hold and overflows no counter. -/
structure SubscriptionDB.Permits (db : SubscriptionDB) (k : String) (q : Int) : Prop where
  fresh : ∀ r, db.records.byKey k = some r → r.status = .consumed →
    db.consumedAfterReset r = true ∨ r.preConsumed ≤ q
  range : ∀ s ∈ db.subs.rows, s.amountUsed + (q - db.heldBy k) < 2 ^ 63

/-! ## Arithmetic of the counter -/

theorem amountUsedAfter_lt (used requested : Int) : amountUsedAfter used requested < 2 ^ 63 := by
  have hwrap : wrapInt64 (used + requested) < 2 ^ 63 := by
    have := Int.bmod_lt (x := used + requested) (m := 2 ^ 64) (by decide)
    unfold wrapInt64
    omega
  simp only [amountUsedAfter]
  split <;> omega

theorem amountUsedAfter_of_range {used requested : Int} (hlo : 0 ≤ used + requested)
    (hhi : used + requested < 2 ^ 63) : amountUsedAfter used requested = used + requested := by
  simp only [amountUsedAfter, wrapInt64_of_range (by omega) hhi]
  exact if_neg (by omega)

variable {r : SubscriptionPreConsumeRecord}

theorem SubscriptionPreConsumeRecord.held_nonneg (h : 0 ≤ r.preConsumed) : 0 ≤ r.held := by
  unfold held
  cases r.status <;> simp [h]

/-! ## Which holds belong to the period -/

variable {db db' : SubscriptionDB}

theorem SubscriptionDB.heldBy_of_byKey {k : String} (hr : db.records.byKey k = some r) :
    db.heldBy k = r.held := by
  rw [heldBy, hr]; rfl

variable {t : SubscriptionQuotaTransaction}

/-- A posting of another kind or for another request leaves a request in its period. -/
theorem SubscriptionPosting.consumedAfterReset (h : SubscriptionPosting db db' t)
    (hmark : ∀ id, db.resetMark id ≤ db.journal.rows.length) (r : SubscriptionPreConsumeRecord) :
    db'.consumedAfterReset r
      = (db.consumedAfterReset r ||
        decide (t.requestId = r.requestId ∧ t.transactionType = "preconsume")) := by
  unfold SubscriptionDB.consumedAfterReset
  rw [h.resetMark, rows_of_create h.journal, drop_append_of_le_length (hmark _)]
  simp

/-- The counters of a posting's subscriptions. -/
theorem SubscriptionPosting.covers_of (h : SubscriptionPosting db db' t)
    (hown : ∀ s, db.subs.byId t.userSubscriptionId = some s →
      db'.heldAfterReset s.id ≤ t.amountUsedAfter)
    (hother : ∀ s ∈ db.subs.rows, s.id ≠ t.userSubscriptionId →
      db'.heldAfterReset s.id ≤ s.amountUsed) :
    ∀ x ∈ db'.subs.rows, db'.heldAfterReset x.id ≤ x.amountUsed := by
  intro x hx
  obtain ⟨s, hs, hid, -, hused⟩ := h.mem_subs hx
  rw [hid, hused]
  by_cases hids : s.id = t.userSubscriptionId
  · rw [if_pos hids]
    exact hown s (byId_eq_some.mpr ⟨hs, hids⟩)
  · rw [if_neg hids]
    exact hother s hs hids

theorem SubscriptionPosting.range (h : SubscriptionPosting db db' t)
    (hrange : ∀ s ∈ db.subs.rows, s.amountUsed < 2 ^ 63) :
    ∀ s ∈ db'.subs.rows, s.amountUsed < 2 ^ 63 := by
  intro x hx
  obtain ⟨s, hs, -, -, hused⟩ := h.mem_subs hx
  obtain ⟨_, -, hafter, -⟩ := h.sub
  rw [hused]
  split
  · rw [hafter]; exact amountUsedAfter_lt _ _
  · exact hrange s hs

/-! ## Records that move on -/

/-- A record that moves on still accounts for its journal entries. -/
theorem SubscriptionQuotaTransaction.Explains.of_movesTo {r' : SubscriptionPreConsumeRecord}
    (h : t.Explains r) (hmove : r.MovesTo r') : t.Explains r' := by
  refine ⟨h.requestId_eq.trans hmove.requestId_eq.symm, ?_⟩
  rcases h.kind with hpre | ⟨htype, v, hv0, hv, hkey⟩ | ⟨-, hsettled⟩ | ⟨-, hrefunded⟩
  · exact .inl hpre
  · exact .inr (.inl ⟨htype, v, hv0, hv.trans hmove.version_lt.le, hmove.requestId_eq ▸ hkey⟩)
  · rw [hmove.consumed] at hsettled; cases hsettled
  · rw [hmove.consumed] at hrefunded; cases hrefunded

section Moves

variable {patch : Patch SubscriptionPreConsumeRecord}

theorem mem_records_of_moves (hr : r ∈ db.records.rows)
    (hrecords : db'.records = (db.records.updateWhere (fun x => x.id = r.id) patch).1)
    {x : SubscriptionPreConsumeRecord} :
    x ∈ db'.records.rows ↔ x = patch.apply r ∨ (x ∈ db.records.rows ∧ x.id ≠ r.id) := by
  rw [hrecords, rows_updateWhere, mem_map]
  constructor
  · rintro ⟨y, hy, rfl⟩
    by_cases hid : y.id = r.id
    · obtain rfl : y = r := eq_of_id_eq hy hr hid
      simp
    · simp [hid, hy]
  · rintro (rfl | ⟨hx, hid⟩)
    · exact ⟨r, hr, by simp⟩
    · exact ⟨x, hx, by simp [hid]⟩

theorem explained_of_moves (hinv : Covered db) (hr : r ∈ db.records.rows)
    (hrecords : db'.records = (db.records.updateWhere (fun x => x.id = r.id) patch).1)
    (hmove : r.MovesTo (patch.apply r)) (ht : t ∈ db.journal.rows) :
    ∃ x ∈ db'.records.rows, t.Explains x := by
  obtain ⟨y, hy, hexp⟩ := hinv.explained t ht
  by_cases hid : y.id = r.id
  · obtain rfl : y = r := eq_of_id_eq hy hr hid
    exact ⟨_, (mem_records_of_moves hr hrecords).mpr (.inl rfl), hexp.of_movesTo hmove⟩
  · exact ⟨y, (mem_records_of_moves hr hrecords).mpr (.inr ⟨hy, hid⟩), hexp⟩

theorem nonneg_of_moves (hinv : Covered db) (hr : r ∈ db.records.rows)
    (hrecords : db'.records = (db.records.updateWhere (fun x => x.id = r.id) patch).1)
    (hmove : r.MovesTo (patch.apply r)) : ∀ x ∈ db'.records.rows, 0 ≤ x.preConsumed := by
  intro x hx
  rcases (mem_records_of_moves hr hrecords).mp hx with rfl | ⟨hx, -⟩
  · exact hmove.nonneg (hinv.nonneg r hr)
  · exact hinv.nonneg x hx

/-- The sum over the period changes by what the record contributes, before and after. -/
theorem heldAfterReset_of_moves (hr : r ∈ db.records.rows)
    (hrecords : db'.records = (db.records.updateWhere (fun x => x.id = r.id) patch).1)
    (hmove : r.MovesTo (patch.apply r))
    (hperiod : ∀ x, db'.consumedAfterReset x = db.consumedAfterReset x) (id : Int) :
    db'.heldAfterReset id = db.heldAfterReset id
      + if r.userSubscriptionId = id ∧ db.consumedAfterReset r = true
        then (patch.apply r).held - r.held else 0 := by
  have hsame : db.consumedAfterReset (patch.apply r) = db.consumedAfterReset r := by
    unfold consumedAfterReset
    rw [hmove.requestId_eq, hmove.userSubscriptionId_eq]
  unfold heldAfterReset
  simp only [hperiod, hrecords]
  rw [total_updateWhere_id _ _ hr (fun x => by simp [Row.id])]
  simp only [hsame, hmove.userSubscriptionId_eq, decide_eq_true_eq]
  split <;> omega

end Moves

/-! ## Effects -/

/-- Effects on the schedule: a reset starts a period without holds. -/
theorem SubscriptionEffect.covered_schedule (h : SubscriptionEffect .schedule db db')
    (hinv : Covered db) : Covered db' := by
  have hcounted := h.counted hinv.counted
  cases h with
  | scheduled id last next _ hdb =>
    subst hdb
    have hmem : ∀ x ∈ (db.subs.updateWhere (fun s => s.id = id)
        (UserSubscription.schedule last next)).1.rows, ∃ s ∈ db.subs.rows, x.id = s.id ∧
          x.amountUsed = s.amountUsed := by
      intro x hx
      obtain ⟨s, hs, rfl⟩ := mem_map.mp hx
      refine ⟨s, hs, ?_⟩
      by_cases hid : s.id = id <;> simp [hid, UserSubscription.schedule]
    refine ⟨hcounted, ?_, hinv.explained, hinv.nonneg, ?_⟩
    · intro x hx
      obtain ⟨s, hs, -, hused⟩ := hmem x hx
      rw [hused]; exact hinv.range s hs
    · intro x hx
      obtain ⟨s, hs, hid, hused⟩ := hmem x hx
      rw [hused, hid]; exact hinv.covers s hs
  | reset id last next _ hdb =>
    subst hdb
    have hmem : ∀ x ∈ (db.subs.updateWhere (fun s => s.id = id)
        (UserSubscription.reset last next)).1.rows, ∃ s ∈ db.subs.rows, x.id = s.id ∧
          x.amountUsed = if s.id = id then 0 else s.amountUsed := by
      intro x hx
      obtain ⟨s, hs, rfl⟩ := mem_map.mp hx
      refine ⟨s, hs, ?_⟩
      by_cases hid : s.id = id <;> simp [hid, UserSubscription.reset]
    refine ⟨hcounted, ?_, hinv.explained, hinv.nonneg, ?_⟩
    · intro x hx
      obtain ⟨s, hs, -, hused⟩ := hmem x hx
      have := hinv.range s hs
      rw [hused]
      split <;> omega
    · intro x hx
      obtain ⟨s, hs, hid, hused⟩ := hmem x hx
      rw [hused, hid]
      by_cases hids : s.id = id
      · -- no journal entry lies behind the new mark
        rw [if_pos hids]
        refine (Table.total_eq_zero _ fun r _ => ?_).le
        simp only [decide_eq_false_iff_not, not_and]
        intro hrsub
        simp [consumedAfterReset, hrsub, hids]
      · rw [if_neg hids]
        refine le_trans (Table.total_congr _ fun r _ => ?_).le (hinv.covers s hs)
        refine decide_eq_decide.mpr (and_congr_right fun hrsub => ?_)
        simp [consumedAfterReset, hrsub, Function.update_of_ne hids]
  | direct _ ht => cases ht
  | opened _ _ ht => cases ht
  | openedSkipped _ _ ht => cases ht
  | moved _ _ _ ht => cases ht
  | movedSkipped _ _ _ ht => cases ht
  | closed _ _ ht => cases ht

/-- **Step lemma** for holds: an effect that lowers no stale hold and overflows no counter keeps the
holds of the period covered. -/
theorem SubscriptionEffect.covered_hold {k : String} {q : Int}
    (h : SubscriptionEffect (.hold k q) db db') (hinv : Covered db) (hok : db.Permits k q) :
    Covered db' := by
  have hcounted := h.counted hinv.counted
  have hmark := hinv.counted.marked
  cases h with
  | scheduled _ _ _ ht => cases ht
  | reset _ _ _ ht => cases ht
  | direct _ ht => cases ht
  | opened r t ht hpost hrecords hrequest hsub htype hdelta hstatus hversion hpos =>
    cases ht
    have hfree := byKey_none_of_create hrecords
    have hother : ∀ x ∈ db.records.rows, db'.consumedAfterReset x = db.consumedAfterReset x := by
      intro x hx
      have hne : t.requestId ≠ x.requestId := fun h =>
        byKey_eq_none.mp hfree x hx (h.symm.trans hrequest)
      rw [hpost.consumedAfterReset hmark]
      simp [hne]
    -- the new record adds its amount to the period of its own subscription
    have hheld : ∀ id, db'.heldAfterReset id
        = db.heldAfterReset id + if r.userSubscriptionId = id then r.preConsumed else 0 := by
      intro id
      have hnew : db'.consumedAfterReset r = true := by
        rw [hpost.consumedAfterReset hmark]
        simp [hrequest, htype]
      unfold heldAfterReset
      rw [total_of_create hrecords, total_congr _ (fun x hx => by rw [hother x hx])]
      simp [hnew, held, hstatus]
    refine ⟨hcounted, hpost.range hinv.range, ?_, ?_, hpost.covers_of ?_ ?_⟩
    · intro x hx
      rcases (mem_of_create hpost.journal).mp hx with hx | rfl
      · obtain ⟨y, hy, hexp⟩ := hinv.explained x hx
        exact ⟨y, (mem_of_create hrecords).mpr (.inl hy), hexp⟩
      · exact ⟨r, (mem_of_create hrecords).mpr (.inr rfl), hrequest, .inl htype⟩
    · intro x hx
      rcases (mem_of_create hrecords).mp hx with hx | rfl
      · exact hinv.nonneg x hx
      · exact hpos.le
    · intro s hs
      obtain ⟨s', hs', hafter, -⟩ := hpost.sub
      obtain rfl : s = s' := Option.mem_unique hs hs'
      obtain ⟨hsmem, hsid⟩ := byId_eq_some.mp hs
      have hsid' : r.userSubscriptionId = s.id := hsub.symm.trans hsid.symm
      have hnone : db.heldBy r.requestId = 0 := by
        have : db.records.byKey r.requestId = none := hfree
        rw [heldBy, this]; rfl
      have hrange := hok.range s hsmem
      have hnn := hinv.counted.nonneg s hsmem
      have hcov := hinv.covers s hsmem
      rw [hheld, hafter, amountUsedAfter_of_range (by omega) (by omega)]
      omega
    · intro s hs hne
      have hsid' : r.userSubscriptionId ≠ s.id := fun h => hne (h.symm.trans hsub.symm)
      rw [hheld, if_neg hsid', add_zero]
      exact hinv.covers s hs
  | openedSkipped r t ht _ hrecords htj hrequest =>
    -- the entry would need a record, but the request id was free
    obtain ⟨x, hx, hexp⟩ := hinv.explained t htj
    exact absurd (hexp.requestId_eq.symm.trans hrequest)
      (byKey_eq_none.mp (byKey_none_of_create hrecords) x hx)
  | moved r patch t ht hpost hr hmove hrecords hsub hnew htype hdelta =>
    cases ht
    have hperiod : ∀ x, db'.consumedAfterReset x = db.consumedAfterReset x := by
      intro x
      rw [hpost.consumedAfterReset hmark]
      simp [htype]
    have hheld := heldAfterReset_of_moves hr hrecords hmove hperiod
    have hrkey : db.records.byKey r.requestId = some r := byKey_eq_some.mpr ⟨hr, rfl⟩
    refine ⟨hcounted, hpost.range hinv.range, ?_, nonneg_of_moves hinv hr hrecords hmove,
      hpost.covers_of ?_ ?_⟩
    · intro x hx
      rcases (mem_of_create hpost.journal).mp hx with hx | rfl
      · exact explained_of_moves hinv hr hrecords hmove hx
      · exact ⟨_, (mem_records_of_moves hr hrecords).mpr (.inl rfl), hnew⟩
    · intro s hs
      obtain ⟨s', hs', hafter, -⟩ := hpost.sub
      obtain rfl : s = s' := Option.mem_unique hs hs'
      obtain ⟨hsmem, hsid⟩ := byId_eq_some.mp hs
      have hsid' : r.userSubscriptionId = s.id := hsub.symm.trans hsid.symm
      have hrange := hok.range s hsmem
      have hnn := hinv.counted.nonneg s hsmem
      have hcov := hinv.covers s hsmem
      rw [heldBy_of_byKey hrkey] at hrange
      have hold : r.held = r.preConsumed := by
        simp [held, hmove.consumed]
      have hnew' : 0 ≤ (patch.apply r).held :=
        held_nonneg (hmove.nonneg (hinv.nonneg r hr))
      rw [hheld, hafter]
      cases hfresh : db.consumedAfterReset r with
      | true =>
        -- a hold of this period: the counter contains it, so nothing is clamped
        have hle : r.held ≤ db.heldAfterReset s.id :=
          le_total (fun x hx => held_nonneg (hinv.nonneg x hx)) hr
            (by simp [hsid', hfresh])
        rw [if_pos ⟨hsid', rfl⟩, amountUsedAfter_of_range (by omega) (by omega)]
        omega
      | false =>
        -- a hold of an earlier period: the counter can only grow
        have hge : r.preConsumed ≤ (patch.apply r).held :=
          (hok.fresh r hrkey hmove.consumed).resolve_left (by simp [hfresh])
        rw [if_neg (by simp), amountUsedAfter_of_range (by omega) (by omega)]
        omega
    · intro s hs hne
      have hsid' : r.userSubscriptionId ≠ s.id := fun h => hne (h.symm.trans hsub.symm)
      rw [hheld, if_neg (fun h => hsid' h.1), add_zero]
      exact hinv.covers s hs
  | movedSkipped r patch t ht _ hr _ htj hrequest hnot =>
    -- the entry is explained by a record of the same request, which is this one
    obtain ⟨x, hx, hexp⟩ := hinv.explained t htj
    obtain rfl : x = r := by
      have hx' := (byKey_eq_some (k := r.requestId)).mpr
        ⟨hx, hexp.requestId_eq.symm.trans hrequest⟩
      rw [(byKey_eq_some (k := r.requestId)).mpr ⟨hr, rfl⟩] at hx'
      exact (Option.some.inj hx').symm
    exact absurd hexp hnot
  | closed r patch ht hsame hr hmove hrecords hheld =>
    have hperiod : ∀ x, db'.consumedAfterReset x = db.consumedAfterReset x := by
      intro x
      unfold consumedAfterReset
      rw [hsame.journal, hsame.resetMark]
    refine ⟨hcounted, ?_, ?_, nonneg_of_moves hinv hr hrecords hmove, ?_⟩
    · rw [hsame.subs]; exact hinv.range
    · rw [hsame.journal]
      exact fun x hx => explained_of_moves hinv hr hrecords hmove hx
    · intro s hs
      rw [hsame.subs] at hs
      have hcov := hinv.covers s hs
      rw [heldAfterReset_of_moves hr hrecords hmove hperiod, hheld (hinv.nonneg r hr)]
      split <;> omega

/-! ## Runs -/

/-- Resets lower counters, so they keep what a later pre-consumption of the same call needs. -/
theorem Rescheduled.covered (h : Rescheduled db db') (hinv : Covered db) : Covered db' := by
  induction h with
  | refl => exact hinv
  | tail _ heff ih => exact heff.covered_schedule ih

/-- After effects on the schedule every counter is what it was, or zero. -/
theorem Rescheduled.mem_subs (h : Rescheduled db db') {x : UserSubscription}
    (hx : x ∈ db'.subs.rows) :
    ∃ s ∈ db.subs.rows, x.amountUsed = s.amountUsed ∨ x.amountUsed = 0 := by
  induction h generalizing x with
  | refl => exact ⟨x, hx, .inl rfl⟩
  | tail _ heff ih =>
    cases heff with
    | scheduled id last next _ hdb =>
      subst hdb
      obtain ⟨y, hy, rfl⟩ := mem_map.mp hx
      obtain ⟨s, hs, hused⟩ := ih hy
      refine ⟨s, hs, ?_⟩
      by_cases hid : y.id = id <;> simpa [hid, schedule] using hused
    | reset id last next _ hdb =>
      subst hdb
      obtain ⟨y, hy, rfl⟩ := mem_map.mp hx
      obtain ⟨s, hs, hused⟩ := ih hy
      refine ⟨s, hs, ?_⟩
      by_cases hid : y.id = id
      · right; simp [hid, reset]
      · simpa [hid] using hused
    | direct _ ht => cases ht
    | opened _ _ ht => cases ht
    | openedSkipped _ _ ht => cases ht
    | moved _ _ _ ht => cases ht
    | movedSkipped _ _ _ ht => cases ht
    | closed _ _ ht => cases ht

/-- A permitted call keeps the holds covered. -/
theorem SubscriptionCall.Did.covered {c : SubscriptionCall} (h : c.Did db db') (hinv : Covered db)
    (hc : c.isMutation = false) (hstale : ¬ c.lowersStaleHold db) (hrange : ¬ c.overflows db) :
    Covered db' := by
  cases h with
  | rescheduled h => exact h.covered hinv
  | mutated hmut _ => rw [hc] at hmut; cases hmut
  | moved k q db₁ htarget hresched hfirst heff =>
    refine heff.covered_hold (hresched.covered hinv) ?_
    have hrange' : ∀ s ∈ db.subs.rows, s.amountUsed + (q - db.heldBy k) < 2 ^ 63 := by
      intro s hs
      by_contra hlt
      exact hrange ⟨(k, q), htarget, s, hs, not_lt.mp hlt⟩
    rcases hfirst with rfl | hnone
    · refine ⟨fun r hr hstatus => ?_, hrange'⟩
      by_contra hnot
      rw [not_or] at hnot
      exact hstale ⟨(k, q), htarget, r, hr, hstatus, by simpa using hnot.1, not_le.mp hnot.2⟩
    · -- a new request: there is no record, and resets before it only lowered the counters
      have hnone₁ : db₁.records.byKey k = none := by rw [hresched.records]; exact hnone
      have hheld : db.heldBy k = db₁.heldBy k := by
        simp [heldBy, hnone, hnone₁]
      refine ⟨fun r hr => absurd (hnone₁.symm.trans hr) (by simp), fun x hx => ?_⟩
      obtain ⟨s, hs, hused⟩ := hresched.mem_subs hx
      have := hrange' s hs
      have := hinv.counted.nonneg s hs
      rcases hused with hused | hused <;> omega

theorem SubscriptionDB.Fresh.covered (h : db.Fresh) : Covered db where
  counted := h.counted
  range s hs := by rw [h.unused s hs]; decide
  explained t ht := by rw [h.no_journal] at ht; cases ht
  nonneg r hr := by rw [h.no_records] at hr; cases hr
  covers s hs := by
    rw [h.unused s hs, heldAfterReset, total_of_rows_nil h.no_records]

/-- **Holds stay in their period.** In every run of pre-consumptions, resizes, settlements, refunds
and resets in which no step lowers a hold that was taken before the last reset of its subscription,
and no step makes a counter leave the 64-bit range, the counter of every subscription covers what the
requests pre-consumed since its last reset hold or settled. -/
theorem period_covers_holds (db : SubscriptionDB) (hfresh : db.Fresh)
    (events : List SubscriptionEvent) (hcalls : ∀ e ∈ events, e.call.isMutation = false)
    (hcond : Along SubscriptionDB.step
      (fun db e => ¬ e.call.lowersStaleHold db ∧ ¬ e.call.overflows db) db events) :
    ∀ s ∈ (run SubscriptionDB.step db events).subs.rows,
      (run SubscriptionDB.step db events).heldAfterReset s.id ≤ s.amountUsed := by
  have hinv : Covered (run SubscriptionDB.step db events) :=
    run_keeps_along (fun db e hinv hok =>
      (e.call.exec_did e.env db).covered hinv hok.1 hok.2.1 hok.2.2) hfresh.covered
      (hcond.and_mem hcalls)
  exact hinv.covers

/-! ## A refund across a reset -/

/-- Without a step that lowers the old hold, the new one is covered. -/
theorem period_covers_holds_sample :
    (run SubscriptionDB.step SubscriptionDB.sample SubscriptionDB.sampleRun).heldAfterReset 1 = 20 ∧
    ∀ s ∈ (run SubscriptionDB.step SubscriptionDB.sample SubscriptionDB.sampleRun).subs.rows,
      (run SubscriptionDB.step SubscriptionDB.sample SubscriptionDB.sampleRun).heldAfterReset s.id
        ≤ s.amountUsed :=
  ⟨by decide +kernel, period_covers_holds _ SubscriptionDB.sample_fresh _ (by decide)
    ⟨by decide +kernel, by decide, by decide +kernel, trivial⟩⟩

/-- **A refund across a reset gives back usage of the new period.** A hold of 30 is taken, the
subscription is reset, a second request holds 20, and the first one is refunded: the counter drops to
0 while the second request still holds 20. -/
theorem refund_leaks_into_period :
    ¬ ∀ (db : SubscriptionDB), db.Fresh → ∀ events : List SubscriptionEvent,
      (∀ e ∈ events, e.call.isMutation = false) →
      ∀ s ∈ (run SubscriptionDB.step db events).subs.rows,
        (run SubscriptionDB.step db events).heldAfterReset s.id ≤ s.amountUsed := by
  intro h
  have hrun := h SubscriptionDB.sample SubscriptionDB.sample_fresh
    (SubscriptionDB.sampleRun ++ [⟨.refund "old", .at 90002⟩]) (by decide)
  exact absurd hrun (by decide +kernel)

end Prox
