import Prox.Subscription.Calls

/-! # The counter of a subscription

`AmountUsed` stays between zero and the total, and it is the sum of the deltas that the journal
records since the last reset, over every run. Clamping at zero makes the applied delta differ from
the requested one, which is why the journal has both; 64-bit overflow does no harm here, since the
wrapped sum is clamped as well. -/

namespace Prox

open List Option SubscriptionDB Table

/-- The deltas applied to a subscription since its last reset. -/
def SubscriptionDB.usedSinceReset (db : SubscriptionDB) (id : Int) : Int :=
  (((db.journal.rows.drop (db.resetMark id)).filter (fun t => t.userSubscriptionId = id)).map
    SubscriptionQuotaTransaction.deltaQuota).sum

/-- The invariant of the counters. -/
structure Counted (db : SubscriptionDB) : Prop where
  nonneg : ∀ s ∈ db.subs.rows, 0 ≤ s.amountUsed
  bounded : ∀ s ∈ db.subs.rows, 0 < s.amountTotal → s.amountUsed ≤ s.amountTotal
  journalled : ∀ s ∈ db.subs.rows, s.amountUsed = db.usedSinceReset s.id
  marked : ∀ id, db.resetMark id ≤ db.journal.rows.length
  referenced : ∀ t ∈ db.journal.rows, (db.subs.byId t.userSubscriptionId).isSome ∧ t.Accepted

/-! ## Postings -/

theorem amountUsedAfter_nonneg (used requested : Int) : 0 ≤ amountUsedAfter used requested := by
  simp only [amountUsedAfter]
  split <;> omega

namespace SubscriptionPosting

variable {db db' : SubscriptionDB} {t : SubscriptionQuotaTransaction}

variable (h : SubscriptionPosting db db' t)

include h

theorem mem_subs {x : UserSubscription}
    (hx : x ∈ db'.subs.rows) :
    ∃ s ∈ db.subs.rows, x.id = s.id ∧ x.amountTotal = s.amountTotal ∧
      x.amountUsed = if s.id = t.userSubscriptionId then t.amountUsedAfter else s.amountUsed := by
  rw [h.subs] at hx
  obtain ⟨s, hs, rfl⟩ := List.mem_map.mp hx
  refine ⟨s, hs, ?_⟩
  by_cases hid : s.id = t.userSubscriptionId <;> simp [hid, UserSubscription.setAmountUsed]

theorem isSome_subs (id : Int) :
    (db'.subs.byId id).isSome = (db.subs.byId id).isSome := by
  rw [h.subs, byId_updateWhere, isSome_map]

/-- A posting adds its delta to the sum of its own subscription. -/
theorem usedSinceReset
    (hmark : ∀ id, db.resetMark id ≤ db.journal.rows.length) (id : Int) :
    db'.usedSinceReset id
      = db.usedSinceReset id + if t.userSubscriptionId = id then t.deltaQuota else 0 := by
  unfold SubscriptionDB.usedSinceReset
  rw [h.resetMark, rows_of_create h.journal, drop_append_of_le_length (hmark id),
      filter_append, map_append]
  by_cases hid : t.userSubscriptionId = id <;> simp [hid]

/-- **Step lemma** for a mutation. -/
theorem counted (hinv : Counted db) : Counted db' := by
  obtain ⟨s₀, hs₀, hafter, hdelta, htotal⟩ := h.sub
  obtain ⟨hs₀mem, hs₀id⟩ := byId_eq_some.mp hs₀
  have hown : ∀ s ∈ db.subs.rows, s.id = t.userSubscriptionId → s = s₀ := fun s hs hid =>
    eq_of_id_eq hs hs₀mem (hid.trans hs₀id.symm)
  refine ⟨?_, ?_, ?_, ?_, ?_⟩
  · intro x hx
    obtain ⟨s, hs, -, -, hused⟩ := h.mem_subs hx
    rw [hused]
    split
    · rw [hafter]; exact amountUsedAfter_nonneg _ _
    · exact hinv.nonneg s hs
  · intro x hx hpos
    obtain ⟨s, hs, -, htot, hused⟩ := h.mem_subs hx
    rw [htot] at hpos ⊢
    rw [hused]
    split
    · next hid =>
      obtain rfl := hown s hs hid
      exact htotal hpos
    · exact hinv.bounded s hs hpos
  · intro x hx
    obtain ⟨s, hs, hid, -, hused⟩ := h.mem_subs hx
    rw [h.usedSinceReset hinv.marked, hid, ← hinv.journalled s hs, hused]
    by_cases hids : s.id = t.userSubscriptionId
    · obtain rfl := hown s hs hids
      omega
    · rw [if_neg hids, if_neg (Ne.symm hids), add_zero]
  · intro id
    rw [h.resetMark, rows_of_create h.journal, length_append]
    exact (hinv.marked id).trans (Nat.le_add_right _ _)
  · intro x hx
    rw [h.isSome_subs]
    rcases (mem_of_create h.journal).mp hx with hx | rfl
    · exact hinv.referenced x hx
    · exact ⟨by rw [hs₀]; rfl, h.accepted⟩

end SubscriptionPosting

/-! ## Effects -/

variable {db db' : SubscriptionDB}

/-- The counters do not depend on the records. -/
theorem SameCounters.counted (h : SameCounters db db') (hinv : Counted db) : Counted db' := by
  have hsum : ∀ id, db'.usedSinceReset id = db.usedSinceReset id := fun id => by
    rw [usedSinceReset, h.journal, h.resetMark]; rfl
  refine ⟨?_, ?_, ?_, ?_, ?_⟩
  · rw [h.subs]; exact hinv.nonneg
  · rw [h.subs]; exact hinv.bounded
  · rw [h.subs]; intro s hs; rw [hsum]; exact hinv.journalled s hs
  · rw [h.resetMark, h.journal]; exact hinv.marked
  · rw [h.subs, h.journal]; exact hinv.referenced

/-- **Step lemma**: every effect keeps the counters. -/
theorem SubscriptionEffect.counted {touched : Touched} (h : SubscriptionEffect touched db db')
    (hinv : Counted db) : Counted db' := by
  cases h with
  | scheduled id last next _ hdb =>
    subst hdb
    have hmem : ∀ x ∈ (db.subs.updateWhere (fun s => s.id = id)
        (UserSubscription.schedule last next)).1.rows, ∃ s ∈ db.subs.rows, x.id = s.id ∧
          x.amountTotal = s.amountTotal ∧ x.amountUsed = s.amountUsed := by
      intro x hx
      obtain ⟨s, hs, rfl⟩ := List.mem_map.mp hx
      refine ⟨s, hs, ?_⟩
      by_cases hid : s.id = id <;> simp [hid, UserSubscription.schedule]
    refine ⟨?_, ?_, ?_, hinv.marked, ?_⟩
    · intro x hx
      obtain ⟨s, hs, -, -, hused⟩ := hmem x hx
      rw [hused]; exact hinv.nonneg s hs
    · intro x hx hpos
      obtain ⟨s, hs, -, htot, hused⟩ := hmem x hx
      rw [htot] at hpos ⊢
      rw [hused]; exact hinv.bounded s hs hpos
    · intro x hx
      obtain ⟨s, hs, hid, -, hused⟩ := hmem x hx
      rw [hused, hid]; exact hinv.journalled s hs
    · intro t ht
      rw [byId_updateWhere, isSome_map]
      exact hinv.referenced t ht
  | reset id last next _ hdb =>
    subst hdb
    have hmem : ∀ x ∈ (db.subs.updateWhere (fun s => s.id = id)
        (UserSubscription.reset last next)).1.rows, ∃ s ∈ db.subs.rows, x.id = s.id ∧
          x.amountTotal = s.amountTotal ∧
          x.amountUsed = if s.id = id then 0 else s.amountUsed := by
      intro x hx
      obtain ⟨s, hs, rfl⟩ := List.mem_map.mp hx
      refine ⟨s, hs, ?_⟩
      by_cases hid : s.id = id <;> simp [hid, UserSubscription.reset]
    refine ⟨?_, ?_, ?_, ?_, ?_⟩
    · intro x hx
      obtain ⟨s, hs, -, -, hused⟩ := hmem x hx
      rw [hused]
      split
      · rfl
      · exact hinv.nonneg s hs
    · intro x hx hpos
      obtain ⟨s, hs, -, htot, hused⟩ := hmem x hx
      rw [htot] at hpos ⊢
      rw [hused]
      split
      · exact hpos.le
      · exact hinv.bounded s hs hpos
    · -- nothing is journalled after the mark of the subscription that was reset
      intro x hx
      obtain ⟨s, hs, hid, -, hused⟩ := hmem x hx
      rw [hused, hid, usedSinceReset]
      by_cases hids : s.id = id
      · simp [hids]
      · simpa [usedSinceReset, Function.update_of_ne hids, hids] using
          hinv.journalled s hs
    · intro i
      by_cases hi : i = id
      · simp [hi]
      · simpa [Function.update_of_ne hi] using hinv.marked i
    · intro t ht
      rw [byId_updateWhere, isSome_map]
      exact hinv.referenced t ht
  | direct t _ hpost _ => exact hpost.counted hinv
  | opened r t _ hpost => exact hpost.counted hinv
  | openedSkipped r t _ hsame => exact hsame.counted hinv
  | moved r patch t _ hpost => exact hpost.counted hinv
  | movedSkipped r patch t _ hsame => exact hsame.counted hinv
  | closed r patch _ hsame => exact hsame.counted hinv

/-! ## Runs -/

theorem SubscriptionDB.Fresh.counted (h : db.Fresh) : Counted db where
  nonneg s hs := by rw [h.unused s hs]
  bounded s hs hpos := by rw [h.unused s hs]; exact hpos.le
  journalled s hs := by
    rw [h.unused s hs, usedSinceReset, h.no_journal]
    simp
  marked id := by rw [h.no_resets id]; exact Nat.zero_le _
  referenced t ht := by rw [h.no_journal] at ht; cases ht

theorem SubscriptionDB.Fresh.run_counted (h : db.Fresh) (events : List SubscriptionEvent) :
    Counted (run SubscriptionDB.step db events) :=
  run_keeps (fun _ _ _ hinv heff => heff.counted hinv) h.counted events

/-! ## Replays -/

/-- The arguments of a mutation are those of a journal entry. -/
def SubscriptionQuotaTransaction.Repeats (t : SubscriptionQuotaTransaction)
    (userSubscriptionID delta : Int) (requestID transactionType : String) : Prop :=
  t.userSubscriptionId = userSubscriptionID ∧ t.requestId = trimSpace requestID ∧
    t.transactionType = trimSpace transactionType ∧ t.requestedDeltaQuota = delta

/-- Under a used idempotency key the same mutation succeeds without effect. -/
theorem Counted.replay_mutation (hinv : Counted db) {t : SubscriptionQuotaTransaction}
    {userSubscriptionID delta : Int} {requestID transactionType key : String}
    (ht : db.journal.byKey (trimSpace key) = some t)
    (hrep : t.Repeats userSubscriptionID delta requestID transactionType) :
    applySubscriptionQuotaMutationTx db userSubscriptionID delta requestID transactionType key
      = .ok (false, db) := by
  obtain ⟨htmem, htkey⟩ := byKey_eq_some.mp ht
  obtain ⟨hsub, haccepted⟩ := hinv.referenced t htmem
  obtain ⟨hid, hreq, htype, hdelta⟩ := hrep
  obtain ⟨s, hs⟩ := isSome_iff_exists.mp hsub
  have hpos : 0 < userSubscriptionID := by
    have := db.subs.id_pos s (byId_eq_some.mp hs).1
    rw [(byId_eq_some.mp hs).2, hid] at this
    exact this
  have hkey : t.idempotencyKey = trimSpace key := htkey
  rw [hid] at hs
  simp [applySubscriptionQuotaMutationTx, failIf, hpos.not_ge, ← hreq, haccepted.requestId, ← htype,
    haccepted.transactionType, ← hkey, haccepted.idempotencyKey, lockUserSubscriptionTx, hs,
    hkey ▸ ht, hid, hdelta, hdelta ▸ haccepted.requested_ne, bind, Except.bind, pure, Except.pure]

/-- Under a used idempotency key any other mutation fails. -/
theorem Counted.conflicting_mutation (hinv : Counted db) {t : SubscriptionQuotaTransaction}
    {userSubscriptionID delta : Int} {requestID transactionType key : String}
    (ht : db.journal.byKey (trimSpace key) = some t)
    (hrep : ¬ t.Repeats userSubscriptionID delta requestID transactionType) :
    ∃ e, applySubscriptionQuotaMutationTx db userSubscriptionID delta requestID transactionType key
      = .error e := by
  cases hres : applySubscriptionQuotaMutationTx db userSubscriptionID delta requestID
    transactionType key with
  | error e => exact ⟨e, rfl⟩
  | ok r =>
    exfalso
    simp only [applySubscriptionQuotaMutationTx, ok_iff, ht, not_not] at hres
    obtain ⟨-, -, -, -, s, -, hmatch, -⟩ := hres
    have hne := (hinv.referenced t (byKey_eq_some.mp ht).1).2.requested_ne
    rw [if_neg hne] at hmatch
    exact hrep hmatch

/-- A call on a hold leaves a record for its request behind. -/
theorem SubscriptionEffect.exists_record {k : String} {q : Int}
    (h : SubscriptionEffect (.hold k q) db db') : ∃ r, db'.records.byKey k = some r := by
  have hupdated : ∀ {r : SubscriptionPreConsumeRecord} {patch : Patch SubscriptionPreConsumeRecord},
      r ∈ db.records.rows → r.requestId = k →
      db'.records = (db.records.updateWhere (fun x => x.id = r.id) patch).1 →
        ∃ r, db'.records.byKey k = some r := by
    intro r patch hr hk hrecords
    rw [hrecords]
    exact ⟨_, byKey_updateRecord (byKey_eq_some.mpr ⟨hr, hk⟩) patch⟩
  cases h with
  | scheduled _ _ _ ht => cases ht
  | reset _ _ _ ht => cases ht
  | direct _ ht => cases ht
  | opened r _ ht _ hrecords =>
    cases ht
    exact ⟨r, by rw [byKey_of_create hrecords]; exact if_pos rfl⟩
  | openedSkipped r _ ht _ hrecords =>
    cases ht
    exact ⟨r, by rw [byKey_of_create hrecords]; exact if_pos rfl⟩
  | moved r _ _ ht _ hr _ hrecords => cases ht; exact hupdated hr rfl hrecords
  | movedSkipped r _ _ ht _ hr hrecords => cases ht; exact hupdated hr rfl hrecords
  | closed r _ ht _ hr _ hrecords => cases ht; exact hupdated hr rfl hrecords

/-- A request id that has a record is never pre-consumed again: the call changes nothing, and it
fails unless user and amount are those of the record. -/
theorem preConsumeUserSubscription_existing {requestId k : String}
    {r : SubscriptionPreConsumeRecord} (env : SubscriptionEnv) (userId amount : Int)
    (hk : normalizeSubscriptionRequest requestId = .ok k) (hr : db.records.byKey k = some r) :
    (preConsumeUserSubscription env requestId userId amount db).2 = db ∧
      ((r.userId ≠ userId ∨ r.preConsumed ≠ amount) →
        errorOf (preConsumeUserSubscription env requestId userId amount db).1 ≠ none) := by
  unfold preConsumeUserSubscription
  rcases checked_transaction_cases _ (env.faults 0) _ db with
    ⟨e, he⟩ | ⟨k', result, db', hargs, hbody, he⟩
  · rw [he]
    exact ⟨rfl, fun _ => by simp⟩
  · rw [he]
    simp only [hk, ok_iff, not_le, Except.ok.injEq] at hargs
    obtain ⟨-, _, rfl, hamount, rfl⟩ := hargs
    rcases preConsumeUserSubscriptionTx_effect (normalizeSubscriptionRequest_eq_ok hk) hamount hbody
      with ⟨rfl, r', hr', hmatch⟩ | ⟨hnone, -⟩
    · obtain rfl : r = r' := mem_unique hr hr'
      refine ⟨rfl, fun hne => ?_⟩
      rcases hne with hne | hne
      · exact absurd hmatch.1 hne
      · exact absurd hmatch.2 hne
    · exact absurd (hr.symm.trans hnone) (by simp)

/-- A hold call that succeeded leaves its request where the call wants it, so that repeating it
changes nothing. -/
theorem SubscriptionCall.exec_again (c : SubscriptionCall) (env env' : SubscriptionEnv)
    (db : SubscriptionDB) (hc : c.target ≠ none) (hok : (c.exec env db).1 = none) :
    (c.exec env' (c.exec env db).2).2 = (c.exec env db).2 := by
  cases c with
  | preConsume requestId userId amount =>
    simp only [SubscriptionCall.exec, outcome_fst, outcome_snd] at hok ⊢
    refine checked_transaction_again ?_ hok
    intro k result db₁ hargs hbody result' db₂ hbody'
    simp only [ok_iff, not_le] at hargs
    obtain ⟨-, k, hk, hamount, rfl⟩ := hargs
    have hk' := normalizeSubscriptionRequest_eq_ok hk
    obtain ⟨r, hr⟩ : ∃ r, db₁.records.byKey k = some r := by
      rcases preConsumeUserSubscriptionTx_effect hk' hamount hbody with
        ⟨rfl, r, hr, -⟩ | ⟨-, _, -, heff⟩
      · exact ⟨r, hr⟩
      · exact heff.exists_record
    rcases preConsumeUserSubscriptionTx_effect hk' hamount hbody' with ⟨rfl, -⟩ | ⟨hnone, -⟩
    · rfl
    · exact absurd (hr.symm.trans hnone) (by simp)
  | resize requestID userID subID targetQuota =>
    simp only [SubscriptionCall.exec, outcome_fst, outcome_snd] at hok ⊢
    refine checked_transaction_again ?_ hok
    intro k _ db₁ hargs hbody _ db₂ hbody'
    simp only [ok_iff, not_or, not_lt] at hargs
    obtain ⟨_, hk, ⟨-, -, htarget⟩, rfl⟩ := hargs
    obtain ⟨-, r, hr, -, hquota⟩ := resizeSubscriptionPreConsumeTx_effect
      (normalizeSubscriptionRequest_eq_ok hk) htarget hbody
    simp only [resizeSubscriptionPreConsumeTx, ok_iff, lockSubscriptionPreConsumeRecordTx_eq_ok, hr,
        Option.some.injEq] at hbody'
    obtain ⟨_, rfl, -, -, hbody'⟩ := hbody'
    rw [if_pos hquota] at hbody'
    cases hbody'
    rfl
  | settle requestID userID subID actualQuota =>
    simp only [SubscriptionCall.exec, outcome_fst, outcome_snd] at hok ⊢
    refine checked_transaction_again ?_ hok
    intro k _ db₁ hargs hbody _ db₂ hbody'
    simp only [ok_iff, not_or, not_lt] at hargs
    obtain ⟨_, hk, ⟨-, -, hactual⟩, rfl⟩ := hargs
    obtain ⟨-, r, hr, hsettled, -⟩ := settleSubscriptionPreConsumeTx_effect
      (normalizeSubscriptionRequest_eq_ok hk) hactual hbody
    simp only [settleSubscriptionPreConsumeTx, ok_iff, lockSubscriptionPreConsumeRecordTx_eq_ok, hr,
        Option.some.injEq] at hbody'
    obtain ⟨_, rfl, -, hbody'⟩ := hbody'
    rw [if_pos hsettled] at hbody'
    simp only [ok_iff, Prod.mk.injEq] at hbody'
    exact hbody'.2.2.symm
  | refund requestId =>
    simp only [SubscriptionCall.exec, outcome_fst, outcome_snd] at hok ⊢
    refine checked_transaction_again ?_ hok
    intro k _ db₁ hargs hbody _ db₂ hbody'
    obtain ⟨-, r, hr, hrefunded⟩ := refundSubscriptionPreConsumeTx_effect
      (normalizeSubscriptionRequest_eq_ok hargs) hbody
    simp only [refundSubscriptionPreConsumeTx, bind_eq_ok, lockSubscriptionPreConsumeRecordTx_eq_ok,
      hr, Option.some.injEq] at hbody'
    obtain ⟨_, rfl, hbody'⟩ := hbody'
    rw [if_pos hrefunded] at hbody'
    cases hbody'
    rfl
  | postConsume subID delta requestID type key => exact absurd rfl hc
  | resetDue limit => exact absurd rfl hc

/-! ## The counter over every run -/

/-- **The counter of a subscription.** After every sequence of pre-consumptions, resizes, settlements,
refunds, direct mutations and resets, with any arguments, replays, faults and clocks: (i) the counter
of every subscription is non-negative, within a positive total, and the sum of the deltas journalled
since its last reset; (ii) under a used idempotency key the same mutation succeeds without effect and
(iii) any other mutation fails without effect; (iv) repeating a hold call that succeeded changes
nothing and (v) a pre-consumption under a used request id with another user or amount fails without
effect. -/
theorem subscription_counter (db : SubscriptionDB) (hfresh : db.Fresh)
    (events : List SubscriptionEvent) :
    (∀ s ∈ (run SubscriptionDB.step db events).subs.rows,
      0 ≤ s.amountUsed ∧ (0 < s.amountTotal → s.amountUsed ≤ s.amountTotal) ∧
        s.amountUsed = (run SubscriptionDB.step db events).usedSinceReset s.id) ∧
    (∀ t subID delta requestID type key,
      (run SubscriptionDB.step db events).journal.byKey (trimSpace key) = some t →
      t.Repeats subID delta requestID type →
        postConsumeUserSubscriptionDeltaIdempotent none subID delta requestID type key
          (run SubscriptionDB.step db events) = (.ok false, run SubscriptionDB.step db events)) ∧
    (∀ t subID delta requestID type key fault,
      (run SubscriptionDB.step db events).journal.byKey (trimSpace key) = some t →
      ¬ t.Repeats subID delta requestID type →
        ∃ e, postConsumeUserSubscriptionDeltaIdempotent fault subID delta requestID type key
          (run SubscriptionDB.step db events) = (.error e, run SubscriptionDB.step db events)) ∧
    (∀ (c : SubscriptionCall) (env env' : SubscriptionEnv), c.target ≠ none →
      (c.exec env (run SubscriptionDB.step db events)).1 = none →
        (c.exec env' (c.exec env (run SubscriptionDB.step db events)).2).2
          = (c.exec env (run SubscriptionDB.step db events)).2) ∧
    (∀ (env : SubscriptionEnv) requestId k userId amount r,
      normalizeSubscriptionRequest requestId = .ok k →
      (run SubscriptionDB.step db events).records.byKey k = some r →
      (r.userId ≠ userId ∨ r.preConsumed ≠ amount) →
        ((SubscriptionCall.preConsume requestId userId amount).exec env
          (run SubscriptionDB.step db events)).1 ≠ none ∧
        ((SubscriptionCall.preConsume requestId userId amount).exec env
          (run SubscriptionDB.step db events)).2 = run SubscriptionDB.step db events) := by
  have hinv := hfresh.run_counted events
  generalize run SubscriptionDB.step db events = s at hinv ⊢
  refine ⟨fun x hx => ⟨hinv.nonneg x hx, hinv.bounded x hx, hinv.journalled x hx⟩, ?_, ?_, ?_, ?_⟩
  · intro t subID delta requestID type key ht hrep
    exact transaction_ok (hinv.replay_mutation ht hrep)
  · intro t subID delta requestID type key fault ht hrep
    obtain ⟨e, he⟩ := hinv.conflicting_mutation ht hrep
    cases fault with
    | some e' => exact ⟨e', rfl⟩
    | none => exact ⟨e, transaction_error he⟩
  · intro c env env' hc hok
    exact c.exec_again env env' s hc hok
  · intro env requestId k userId amount r hk hr hne
    obtain ⟨hsame, herr⟩ := preConsumeUserSubscription_existing env userId amount hk hr
    exact ⟨herr hne, hsame⟩

/-- A subscription of 100 units with a daily reset, and the plan lookups that go with it. -/
def SubscriptionDB.sample : SubscriptionDB where
  subs := ⟨[{ id := 1, userId := 1, planId := 1, amountTotal := 100, startTime := 0,
              endTime := 1000000, nextResetTime := 86400 }], by decide, by decide, by decide⟩
  records := .empty
  journal := .empty
  resetMark := fun _ => 0

theorem SubscriptionDB.sample_fresh : sample.Fresh :=
  ⟨by decide, rfl, rfl, fun _ => rfl⟩

/-- The environment of a call at a given time. -/
def SubscriptionEnv.at (now : Int) : SubscriptionEnv :=
  ⟨now, .fixed 0, fun _ => some { id := 1, quotaResetPeriod := "daily" }, fun _ => none⟩

/-- A hold of 30, the daily reset, and a hold of 20 in the new period. -/
def SubscriptionDB.sampleRun : List SubscriptionEvent :=
  [⟨.preConsume "old" 1 30, .at 1000⟩, ⟨.resetDue 0, .at 90000⟩, ⟨.preConsume "new" 1 20, .at 90001⟩]

/-- The refund of the old hold asks for 30, finds 20 and applies 20: counter and journal agree. -/
theorem subscription_counter_sample :
    SubscriptionDB.sample.Fresh ∧
    (run SubscriptionDB.step SubscriptionDB.sample
      (SubscriptionDB.sampleRun ++ [⟨.refund "old", .at 90002⟩])).usedSinceReset 1 = 0 ∧
    ∀ s ∈ (run SubscriptionDB.step SubscriptionDB.sample
      (SubscriptionDB.sampleRun ++ [⟨.refund "old", .at 90002⟩])).subs.rows,
      0 ≤ s.amountUsed ∧ (0 < s.amountTotal → s.amountUsed ≤ s.amountTotal) ∧
        s.amountUsed = (run SubscriptionDB.step SubscriptionDB.sample
          (SubscriptionDB.sampleRun ++ [⟨.refund "old", .at 90002⟩])).usedSinceReset s.id :=
  ⟨SubscriptionDB.sample_fresh, by decide +kernel,
    (subscription_counter _ SubscriptionDB.sample_fresh _).1⟩

end Prox
