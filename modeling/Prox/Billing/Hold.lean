import Prox.Subscription.Period
import Prox.Wallet.Effect

/-! # Holds

What a request has done to its funding source, whichever it is: it holds nothing yet, it holds a
quota, the quota was settled, or it was given back. `Hold` is this abstract state; the wallet keeps it
in a reservation and the subscription in a pre-consumption record. `StandsAt` ties the two levels
together: the row shows the hold, and the balance or the counter differs by its charge from what it
was before the request. The lemmas say what a successful ledger call does to the hold. -/

namespace Prox

open List Option SubscriptionPreConsumeRecord Table UserQuotaReservation

/-- The hold of a request. -/
inductive Hold where
  | none
  | active (quota : Int)
  | settled (quota : Int)
  | refunded
  deriving DecidableEq

/-- What a hold takes from its funding source. -/
def Hold.charge : Hold → Int
  | .none => 0
  | .active quota => quota
  | .settled quota => quota
  | .refunded => 0

/-! ## The wallet -/

/-- The hold a reservation stands for. -/
def UserQuotaReservation.hold (r : UserQuotaReservation) : Hold :=
  match r.status with
  | .active => .active r.reservedQuota
  | .settled => .settled r.settledQuota
  | .refunded => .refunded

@[simp] theorem UserQuotaReservation.charge_hold (r : UserQuotaReservation) :
    r.hold.charge = r.charge := by
  unfold hold charge
  cases r.status <;> rfl

/-- The hold of a request in the wallet. -/
def Wallet.holdOf (w : Wallet) (k : String) : Hold :=
  ((w.reservations.byKey k).map UserQuotaReservation.hold).getD .none

variable {k requestId : String}

/-- A reservation is a hold of some kind. -/
theorem Wallet.byKey_of_holdOf_none {w : Wallet} (h : w.holdOf k = .none) :
    w.reservations.byKey k = none := by
  unfold Wallet.holdOf at h
  cases hr : w.reservations.byKey k with
  | none => rfl
  | some r =>
    rw [hr] at h
    simp only [map_some, getD_some, hold] at h
    split at h <;> cases h

/-- The balance of a user. -/
def Wallet.quotaOf (w : Wallet) (i : Int) : Int := ((w.users.byId i).map User.quota).getD 0

/-- A posting moves the balance of its own user. -/
theorem Posting.quotaOf {w w' : Wallet} {t : UserQuotaTransaction} (h : Posting w w' t) (i : Int) :
    w'.quotaOf i = w.quotaOf i + if t.userId = i then t.deltaQuota else 0 := by
  obtain ⟨u, hu, -⟩ := h.user
  unfold Wallet.quotaOf
  rw [h.users, Wallet.byId_addQuota]
  by_cases hi : t.userId = i
  · subst hi
    have huid : u.id = t.userId := (byId_eq_some.mp hu).2
    simp [hu, huid]
  · rw [if_neg hi]
    cases hx : w.users.byId i with
    | none => rfl
    | some x =>
      have hxid : x.id = i := (byId_eq_some.mp hx).2
      have hne : x.id ≠ t.userId := fun h => hi (h.symm.trans hxid)
      simp [hne]

/-- An effect on a request exchanges the charges of its hold. -/
theorem Effect.charges {w w' : Wallet} (h : Effect (some k) w w') :
    ∃ r, w'.reservations.byKey k = some r ∧
      (∀ i, w'.quotaOf i = w.quotaOf i + if r.userId = i then (w.holdOf k).charge - r.charge else 0) ∧
      (w.holdOf k = .none ∨ ∃ q, w.holdOf k = .active q) := by
  cases h with
  | direct t hreq => cases hreq
  | opened r t hreq hpost href hdelta hwf hid hres =>
    obtain rfl : k = r.requestId := Option.some.inj hreq
    have hnone : w.reservations.byKey r.requestId = none := byKey_none_of_create hres
    have hhold : w.holdOf r.requestId = .none := by rw [Wallet.holdOf, hnone]; rfl
    have hrow : w'.reservations.byKey r.requestId = some r := by
      rw [byKey_of_create hres]
      exact if_pos rfl
    refine ⟨r, hrow, fun i => ?_, .inl hhold⟩
    rw [hpost.quotaOf, href.userId_eq, hdelta, hhold]
    split
    · show _ + -r.charge = _ + (0 - r.charge)
      omega
    · rfl
  | moved r r' t hreq hpost href hdelta hr hactive hsame hwf hres =>
    obtain rfl : k = r.requestId := Option.some.inj hreq
    have hbefore : w.reservations.byKey r.requestId = some r := byKey_eq_some.mpr ⟨hr, rfl⟩
    have hhold : w.holdOf r.requestId = r.hold := by rw [Wallet.holdOf, hbefore]; rfl
    refine ⟨r', ?_, fun i => ?_, .inr ⟨r.reservedQuota, ?_⟩⟩
    · rw [hres]; exact if_pos rfl
    · rw [hpost.quotaOf, href.userId_eq, hdelta, hhold, hsame.userId_eq,
        charge_hold]
    · rw [hhold, hold, hactive]

/-- The wallet stands at a hold of the request: the balance is what it was before the request, less
the charge. -/
structure Wallet.StandsAt (w : Wallet) (requestId : String) (userId before : Int) (hold : Hold) :
    Prop where
  balance : w.quotaOf userId = before - hold.charge
  row : ∀ k, normalizeUserQuotaRequest requestId = .ok k →
    w.holdOf k = hold ∧ ∀ r, w.reservations.byKey k = some r → r.userId = userId

/-- **A successful call moves the wallet to the hold it leaves in the row.** It moves from no hold, an
active hold, or not at all. -/
theorem Wallet.StandsAt.of_outcome {w : Wallet} {userId before : Int} {hold : Hold}
    (h : w.StandsAt requestId userId before hold) {Q : UserQuotaReservation → Prop}
    {result : Except Err Unit × Wallet} (houtcome : ReservationOutcome requestId Q w result)
    (hQ : ∀ r, Q r → r.userId = userId) (hok : result.1 = .ok ()) :
    ∃ r, Q r ∧ result.2.StandsAt requestId userId before r.hold ∧
      (r.hold = hold ∨ hold = .none ∨ ∃ q, hold = .active q) ∧
      ∃ k, normalizeUserQuotaRequest requestId = .ok k := by
  rcases houtcome with ⟨e, he⟩ | ⟨k, w', hk, he, heff, r, hr, hQr⟩
  · rw [he] at hok; cases hok
  rw [he]
  have hrow : ∀ k', normalizeUserQuotaRequest requestId = .ok k' →
      w'.holdOf k' = r.hold ∧ ∀ x, w'.reservations.byKey k' = some x → x.userId = userId := by
    intro k' hk'
    obtain rfl : k = k' := Except.ok.inj (hk.symm.trans hk')
    refine ⟨by rw [Wallet.holdOf, hr]; rfl, fun x hx => ?_⟩
    obtain rfl : r = x := mem_unique hr hx
    exact hQ r hQr
  obtain ⟨hhold, -⟩ := h.row k hk
  rcases heff with rfl | heff
  · have hsame : r.hold = hold := by rw [← hhold, Wallet.holdOf, hr]; rfl
    refine ⟨r, hQr, ⟨?_, hrow⟩, .inl hsame, k, hk⟩
    rw [h.balance, hsame]
  · obtain ⟨r', hr', hbalance, hfrom⟩ := heff.charges
    obtain rfl : r = r' := mem_unique hr hr'
    refine ⟨r, hQr, ⟨?_, hrow⟩, .inr (hhold ▸ hfrom), k, hk⟩
    rw [hbalance, if_pos (hQ r hQr), h.balance, hhold, charge_hold]
    omega

section WalletCalls

variable {w : Wallet} {userId before : Int} {hold : Hold} {fault : Option Err}

theorem Wallet.StandsAt.reserve (h : w.StandsAt requestId userId before .none) {quota now : Int}
    {sourceType : String}
    (hok : (reserveUserQuota fault requestId userId quota sourceType now w).1 = .ok ()) :
    (reserveUserQuota fault requestId userId quota sourceType now w).2.StandsAt requestId userId
      before (.active quota) := by
  obtain ⟨r, ⟨hstatus, -, hquota⟩, hstands, -, k, hk⟩ := h.of_outcome
    (reserveUserQuota_outcome fault requestId userId w quota sourceType now) (fun r hr => hr.2.1) hok
  have hnone : w.reservations.byKey k = none := Wallet.byKey_of_holdOf_none (h.row k hk).1
  have hhold : r.hold = .active quota := by
    rw [hold, hstatus, hquota k hk hnone]
  rwa [hhold] at hstands

variable (h : w.StandsAt requestId userId before hold)

include h

theorem Wallet.StandsAt.resize {target now : Int}
    (hok : (resizeUserQuotaReservation fault requestId userId target now w).1 = .ok ()) :
    (resizeUserQuotaReservation fault requestId userId target now w).2.StandsAt requestId userId
      before (.active target) := by
  obtain ⟨r, ⟨hstatus, -, hquota⟩, hstands, -⟩ := h.of_outcome
    (resizeUserQuotaReservation_outcome fault requestId userId w target now) (fun r hr => hr.2.1) hok
  have hhold : r.hold = .active target := by rw [UserQuotaReservation.hold, hstatus, hquota]
  rwa [hhold] at hstands

theorem Wallet.StandsAt.settle {actual : Int}
    {sourceType : String}
    (hok : (settleUserQuotaReservation fault requestId userId actual sourceType w).1 = .ok ()) :
    (settleUserQuotaReservation fault requestId userId actual sourceType w).2.StandsAt requestId
      userId before (.settled actual) ∧ hold ≠ .refunded := by
  obtain ⟨r, ⟨hstatus, -, -, hquota⟩, hstands, hfrom, -⟩ := h.of_outcome
    (settleUserQuotaReservation_outcome fault requestId userId w actual sourceType)
    (fun r hr => hr.2.1) hok
  have hhold : r.hold = .settled actual := by rw [UserQuotaReservation.hold, hstatus, hquota]
  rw [hhold] at hstands hfrom
  refine ⟨hstands, ?_⟩
  rintro rfl
  rcases hfrom with h | h | ⟨q, h⟩ <;> cases h

theorem Wallet.StandsAt.refund {remark : String}
    (hok : (refundUserQuotaReservation fault requestId userId remark w).1 = .ok ()) :
    (refundUserQuotaReservation fault requestId userId remark w).2.StandsAt requestId userId before
      .refunded := by
  obtain ⟨r, ⟨hstatus, -⟩, hstands, -⟩ := h.of_outcome
    (refundUserQuotaReservation_outcome fault requestId userId w remark) (fun r hr => hr.2) hok
  have hhold : r.hold = .refunded := by rw [UserQuotaReservation.hold, hstatus]
  rwa [hhold] at hstands

end WalletCalls

/-! ## The subscription -/

/-- The hold a pre-consumption record stands for. -/
def SubscriptionPreConsumeRecord.hold (r : SubscriptionPreConsumeRecord) : Hold :=
  match r.status with
  | .pending => .none
  | .consumed => .active r.preConsumed
  | .settled => .settled r.preConsumed
  | .refunded => .refunded

@[simp] theorem SubscriptionPreConsumeRecord.charge_hold (r : SubscriptionPreConsumeRecord) :
    r.hold.charge = r.held := by
  unfold hold held
  cases r.status <;> rfl

/-- The counter of a subscription. -/
def SubscriptionDB.used (db : SubscriptionDB) (id : Int) : Int :=
  ((db.subs.byId id).map UserSubscription.amountUsed).getD 0

variable {db db' : SubscriptionDB}

/-- A posting sets the counter of its own subscription. -/
theorem SubscriptionPosting.used {t : SubscriptionQuotaTransaction}
    (h : SubscriptionPosting db db' t) :
    db'.used t.userSubscriptionId
      = amountUsedAfter (db.used t.userSubscriptionId) t.requestedDeltaQuota := by
  obtain ⟨s, hs, hafter, -⟩ := h.sub
  have hid : s.id = t.userSubscriptionId := (byId_eq_some.mp hs).2
  unfold SubscriptionDB.used
  rw [h.subs, byId_updateWhere, hs]
  simp [hid, UserSubscription.setAmountUsed, hafter]

/-- The subscription stands at a hold of the request: the counter is what it was before the request,
plus the charge, and the record accounts for every journal entry of the request. -/
structure SubscriptionDB.StandsAt (db : SubscriptionDB) (requestId : String) (subId before : Int)
    (hold : Hold) : Prop where
  before_nonneg : 0 ≤ before
  used : db.used subId = before + hold.charge
  row : ∀ k, normalizeSubscriptionRequest requestId = .ok k → ∃ r, db.records.byKey k = some r ∧
    r.hold = hold ∧ r.userSubscriptionId = subId ∧ 0 ≤ r.preConsumed ∧
    ∀ t ∈ db.journal.rows, t.requestId = k → t.Explains r

/-- **A successful call moves the subscription to the hold it leaves in the record**, unless the
counter would overflow. -/
theorem SubscriptionDB.StandsAt.of_effect {subId before q : Int} {hold : Hold}
    (h : db.StandsAt requestId subId before hold)
    (hk : normalizeSubscriptionRequest requestId = .ok k)
    (heff : db' = db ∨ SubscriptionEffect (.hold k q) db db') (hrange : before + q < 2 ^ 63) :
    ∃ r, db'.records.byKey k = some r ∧ db'.StandsAt requestId subId before r.hold ∧
      (r.hold = hold ∨ ∃ p, hold = .active p) := by
  obtain ⟨r, hr, hhold, hsub, hnonneg, hexplained⟩ := h.row k hk
  obtain ⟨hrmem, hrk⟩ := byKey_eq_some.mp hr
  have hcharge : hold.charge = r.held := by rw [← hhold, SubscriptionPreConsumeRecord.charge_hold]
  rcases heff with rfl | heff
  · exact ⟨r, hr, hhold ▸ h, .inl hhold⟩
  -- What remains is to follow the record of this request through the effect.
  have hown : ∀ x : SubscriptionPreConsumeRecord, x ∈ db.records.rows → x.requestId = k → x = r := by
    intro x hx hxk
    exact Option.some.inj ((byKey_eq_some.mpr ⟨hx, hxk⟩).symm.trans hr)
  have hmoved : ∀ (patch : Patch SubscriptionPreConsumeRecord),
      db'.records = (db.records.updateWhere (fun x => x.id = r.id) patch).1 →
      r.MovesTo (patch.apply r) → db'.used subId = before + (patch.apply r).held →
      (∀ t ∈ db'.journal.rows, t.requestId = k → t.Explains (patch.apply r)) →
      ∃ r', db'.records.byKey k = some r' ∧ db'.StandsAt requestId subId before r'.hold ∧
        (r'.hold = hold ∨ ∃ p, hold = .active p) := by
    intro patch hrecords hmove hused hexplained'
    have hrow : db'.records.byKey k = some (patch.apply r) := by
      rw [hrecords]; exact byKey_updateRecord hr patch
    refine ⟨patch.apply r, hrow, ⟨h.before_nonneg, ?_, fun k' hk' => ?_⟩, .inr ⟨r.preConsumed, ?_⟩⟩
    · rw [hused, SubscriptionPreConsumeRecord.charge_hold]
    · obtain rfl : k = k' := Except.ok.inj (hk.symm.trans hk')
      exact ⟨_, hrow, rfl, hmove.userSubscriptionId_eq.trans hsub, hmove.nonneg hnonneg, hexplained'⟩
    · rw [← hhold, SubscriptionPreConsumeRecord.hold, hmove.consumed]
  have hused : db.used subId = before + r.held := by rw [h.used, hcharge]
  have hbefore := h.before_nonneg
  cases heff with
  | scheduled _ _ _ ht => cases ht
  | reset _ _ _ ht => cases ht
  | direct _ ht => cases ht
  | opened x t ht hpost hrecords =>
    cases ht
    have hfree := byKey_none_of_create hrecords
    exact absurd (hr.symm.trans hfree) nofun
  | openedSkipped x t ht _ hrecords =>
    cases ht
    have hfree := byKey_none_of_create hrecords
    exact absurd (hr.symm.trans hfree) nofun
  | moved x patch t ht hpost hx hmove hrecords htsub hnew htype hdelta =>
    injection ht with hxk hq
    obtain rfl := hown x hx hxk.symm
    have hsubId : t.userSubscriptionId = subId := htsub.trans hsub
    have hheld : 0 ≤ (patch.apply x).held :=
      SubscriptionPreConsumeRecord.held_nonneg (hmove.nonneg hnonneg)
    refine hmoved patch hrecords hmove ?_ ?_
    · have hcounter := hpost.used
      rw [hsubId, amountUsedAfter_of_range (by omega) (by omega)] at hcounter
      omega
    · intro t' ht' hreq
      rcases (mem_of_create hpost.journal).mp ht' with ht' | rfl
      · exact (hexplained t' ht' hreq).of_movesTo hmove
      · exact hnew
  | movedSkipped x patch t ht _ hx _ htj hreq hnot =>
    injection ht with hxk
    obtain rfl := hown x hx hxk.symm
    exact absurd (hexplained t htj (hreq.trans hxk.symm)) hnot
  | closed x patch ht hsame hx hmove hrecords hheld =>
    injection ht with hxk
    obtain rfl := hown x hx hxk.symm
    refine hmoved patch hrecords hmove ?_ ?_
    · rw [hheld hnonneg, ← hused, SubscriptionDB.used, hsame.subs]
      rfl
    · intro t ht hreq
      rw [hsame.journal] at ht
      exact (hexplained t ht hreq).of_movesTo hmove

/-! ## Opening a hold on a subscription -/

/-- What the loop over the candidates leaves behind for a request without earlier entries: the
counter of the chosen subscription moved on from the usage it reports, and a consumed record that
accounts for the journal. -/
theorem preConsumeFrom_opened {env : SubscriptionEnv} {record : SubscriptionPreConsumeRecord}
    {amount : Int} {candidates : List UserSubscription} {result : SubscriptionPreConsumeResult}
    (hk : trimSpace record.requestId = record.requestId)
    (hrecord : db.records.byKey record.requestId = some record) (hstatus : record.status = .pending)
    (hfresh : ∀ t ∈ db.journal.rows, t.requestId ≠ record.requestId)
    (hrows : ∀ c ∈ candidates, db.subs.byId c.id = some c ∧ 0 ≤ c.amountUsed)
    (hnodup : (candidates.map UserSubscription.id).Nodup)
    (h : preConsumeFrom env record amount candidates db = .ok (result, db')) :
    0 ≤ result.amountUsedBefore ∧ result.preConsumed = amount ∧
      db'.used result.userSubscriptionId = amountUsedAfter result.amountUsedBefore amount ∧
      ∃ r, db'.records.byKey record.requestId = some r ∧ r.status = .consumed ∧
        r.preConsumed = record.preConsumed ∧ r.userSubscriptionId = result.userSubscriptionId ∧
        ∀ t ∈ db'.journal.rows, t.requestId = record.requestId → t.Explains r := by
  induction candidates generalizing db with
  | nil => cases h
  | cons candidate rest ih =>
    simp only [preConsumeFrom, bind_eq_ok, Prod.exists] at h
    obtain ⟨plan, -, sub, db₁, hreset, h⟩ := h
    obtain ⟨hcandidate, hrest⟩ := forall_mem_cons.mp hrows
    rw [map_cons, nodup_cons] at hnodup
    obtain ⟨hrow, hnonneg, hother, hjournal, hrecords⟩ := maybeReset_row hcandidate.1 hreset
    split at h
    · refine ih (hrecords ▸ hrecord) (hjournal ▸ hfresh) (fun c hc => ?_) hnodup.2 h
      have hne : c.id ≠ candidate.id := fun heq => hnodup.1 (heq ▸ List.mem_map_of_mem hc)
      exact ⟨(hother c.id hne).trans (hrest c hc).1, (hrest c hc).2⟩
    · simp only [ok_iff, Prod.mk.injEq, Prod.exists] at h
      obtain ⟨applied, db₂, hmutate, db₃, hupdate, rfl, rfl⟩ := h
      rcases applySubscriptionQuotaMutationTx_cases hmutate with
        ⟨-, -, t, ht, -, hreq, -⟩ | ⟨-, hrecords₂, t, hpost, hid, hreq, htype, -, hdelta⟩
      · exact absurd (hreq.trans hk) (hfresh t (hjournal ▸ ht))
      have hmem : record ∈ db₂.records.rows := by
        rw [hrecords₂, hrecords]
        exact (byKey_eq_some.mp hrecord).1
      have hdb₃ := updateRecordTx_eq_ok hmem hstatus hupdate
      have hused : db₁.used sub.id = sub.amountUsed := by rw [SubscriptionDB.used, hrow]; rfl
      refine ⟨hnonneg hcandidate.2, rfl, ?_,
        (consume sub.id).apply record, ?_, rfl, rfl, rfl, ?_⟩
      · have hcounter := hpost.used
        rw [hid, hused, hdelta] at hcounter
        rw [hdb₃]
        exact hcounter
      · rw [hdb₃]
        refine byKey_updateRecord ?_ _
        rw [hrecords₂, hrecords]
        exact hrecord
      · intro t' ht' hreq'
        rw [hdb₃] at ht'
        rcases (mem_of_create hpost.journal).mp ht' with ht' | rfl
        · exact absurd hreq' (hfresh t' (hjournal ▸ ht'))
        · exact ⟨hreq', .inl htype⟩

/-- The candidates of a request are stored rows with distinct keys. -/
theorem selectActiveSubscriptions_rows (db : SubscriptionDB) (userId now : Int) :
    (∀ c ∈ selectActiveSubscriptions db userId now, c ∈ db.subs.rows) ∧
      ((selectActiveSubscriptions db userId now).map UserSubscription.id).Nodup := by
  have hperm := perm_insertionSort UserSubscription.endsBefore
    (db.subs.rows.filter fun s => s.userId = userId ∧ s.status = .active ∧ now < s.endTime)
  refine ⟨fun c hc => mem_of_mem_filter (hperm.mem_iff.mp hc), ?_⟩
  refine (hperm.map UserSubscription.id).nodup_iff.mpr ?_
  exact db.subs.id_nodup.sublist (filter_sublist.map _)

/-- **A pre-consumption opens a hold**: for a request that the tables do not know yet, the chosen
subscription stands at an active hold of the amount afterwards. -/
theorem preConsumeUserSubscription_standsAt {env : SubscriptionEnv} {userId amount : Int}
    {result : SubscriptionPreConsumeResult}
    (hfresh : ∀ k, normalizeSubscriptionRequest requestId = .ok k →
      db.records.byKey k = none ∧ ∀ t ∈ db.journal.rows, t.requestId ≠ k)
    (hused : ∀ s ∈ db.subs.rows, 0 ≤ s.amountUsed)
    (hok : (preConsumeUserSubscription env requestId userId amount db).1 = .ok result)
    (hrange : result.amountUsedBefore + amount < 2 ^ 63) :
    result.preConsumed = amount ∧ 0 < amount ∧
      (preConsumeUserSubscription env requestId userId amount db).2.StandsAt requestId
        result.userSubscriptionId result.amountUsedBefore (.active amount) := by
  unfold preConsumeUserSubscription at hok ⊢
  rcases checked_transaction_cases _ (env.faults 0) _ db with
    ⟨e, he⟩ | ⟨k, result', db', hargs, hbody, he⟩
  · rw [he] at hok; cases hok
  rw [he] at hok ⊢
  cases hok
  simp only [ok_iff, not_le] at hargs
  obtain ⟨-, _, hk, hpos, rfl⟩ := hargs
  obtain ⟨hnone, hjournal⟩ := hfresh _ hk
  simp only [preConsumeUserSubscriptionTx] at hbody
  split at hbody
  · next hcreate =>
    obtain ⟨x, hx⟩ := (create_eq_none rfl).mp hcreate
    cases hx.symm.trans hnone
  · next records hcreate =>
    simp only [ok_iff] at hbody
    obtain ⟨hmem, hnodup⟩ := selectActiveSubscriptions_rows db userId env.now
    obtain ⟨hbefore, hquota, hcounter, r, hr, hstatus, hpre, hsub, hexplained⟩ :=
      preConsumeFrom_opened (normalizeSubscriptionRequest_eq_ok hk)
        (by rw [byKey_of_create hcreate]; exact if_pos rfl) rfl
        (show ∀ t ∈ ({ db with records } : SubscriptionDB).journal.rows, _ from hjournal)
        (fun c hc => ⟨byId_eq_some.mpr ⟨hmem c hc, rfl⟩, hused c (hmem c hc)⟩) hnodup hbody.2
    rw [amountUsedAfter_of_range (by omega) hrange] at hcounter
    refine ⟨hquota, hpos, hbefore, hcounter, fun k' hk' => ?_⟩
    obtain rfl := Except.ok.inj (hk.symm.trans hk')
    refine ⟨r, hr, ?_, hsub, ?_, hexplained⟩
    · rw [SubscriptionPreConsumeRecord.hold, hstatus, hpre]
    · rw [hpre]; exact hpos.le

section SubscriptionCalls

variable {userId subId before : Int} {hold : Hold} {fault : Option Err}

variable (h : db.StandsAt requestId subId before hold)

include h

theorem SubscriptionDB.StandsAt.resize {target : Int}
    (hrange : before + target < 2 ^ 63)
    (hok : (resizeSubscriptionPreConsume fault requestId userId subId target db).1 = .ok ()) :
    (resizeSubscriptionPreConsume fault requestId userId subId target db).2.StandsAt requestId subId
      before (.active target) := by
  unfold resizeSubscriptionPreConsume at hok ⊢
  rcases checked_transaction_cases _ fault _ db with ⟨e, he⟩ | ⟨k, u, db', hargs, hbody, he⟩
  · rw [he] at hok; cases hok
  · rw [he]
    simp only [ok_iff, not_or, not_lt] at hargs
    obtain ⟨_, hk, ⟨-, -, htarget⟩, rfl⟩ := hargs
    obtain ⟨heff, r, hr, hstatus, hquota⟩ := resizeSubscriptionPreConsumeTx_effect
      (normalizeSubscriptionRequest_eq_ok hk) htarget hbody
    obtain ⟨r', hr', hstands, -⟩ := h.of_effect hk heff hrange
    obtain rfl := mem_unique hr hr'
    have hhold : r.hold = .active target := by
      rw [SubscriptionPreConsumeRecord.hold, hstatus, hquota]
    rwa [hhold] at hstands

theorem SubscriptionDB.StandsAt.settle {actual : Int}
    (hrange : before + actual < 2 ^ 63)
    (hok : (settleSubscriptionPreConsume fault requestId userId subId actual db).1 = .ok ()) :
    (settleSubscriptionPreConsume fault requestId userId subId actual db).2.StandsAt requestId subId
      before (.settled actual) ∧ hold ≠ .refunded := by
  unfold settleSubscriptionPreConsume at hok ⊢
  rcases checked_transaction_cases _ fault _ db with ⟨e, he⟩ | ⟨k, u, db', hargs, hbody, he⟩
  · rw [he] at hok; cases hok
  · rw [he]
    simp only [ok_iff, not_or, not_lt] at hargs
    obtain ⟨_, hk, ⟨-, -, hactual⟩, rfl⟩ := hargs
    obtain ⟨heff, r, hr, hstatus, hquota⟩ := settleSubscriptionPreConsumeTx_effect
      (normalizeSubscriptionRequest_eq_ok hk) hactual hbody
    obtain ⟨r', hr', hstands, hfrom⟩ := h.of_effect hk heff hrange
    obtain rfl := mem_unique hr hr'
    have hhold : r.hold = .settled actual := by
      rw [SubscriptionPreConsumeRecord.hold, hstatus, hquota]
    rw [hhold] at hstands hfrom
    refine ⟨hstands, ?_⟩
    rintro rfl
    rcases hfrom with h | ⟨q, h⟩ <;> cases h

theorem SubscriptionDB.StandsAt.refund
    (hrange : before < 2 ^ 63)
    (hok : (refundSubscriptionPreConsume fault requestId db).1 = .ok ()) :
    (refundSubscriptionPreConsume fault requestId db).2.StandsAt requestId subId before
      .refunded := by
  unfold refundSubscriptionPreConsume at hok ⊢
  rcases checked_transaction_cases _ fault _ db with ⟨e, he⟩ | ⟨k, u, db', hk, hbody, he⟩
  · rw [he] at hok; cases hok
  · rw [he]
    obtain ⟨heff, r, hr, hstatus⟩ := refundSubscriptionPreConsumeTx_effect
      (normalizeSubscriptionRequest_eq_ok hk) hbody
    obtain ⟨r', hr', hstands, -⟩ := h.of_effect hk heff (by omega)
    obtain rfl := mem_unique hr hr'
    have hhold : r.hold = .refunded := by rw [SubscriptionPreConsumeRecord.hold, hstatus]
    rwa [hhold] at hstands

end SubscriptionCalls

end Prox
