import Prox.Subscription.Counter

/-! # Retrying a pre-consumption

The record of a request keeps the quota its hold stands at: a resize and the settlement overwrite the
amount of the pre-consumption that opened it. A retry is compared with this column, in whatever state
the record is by then. Below, a successful pre-consumption leaves an open hold exactly when it is no
retry of a settled request, and a retry of the call that opened a hold succeeds exactly when the hold
stands at the amount of that call. -/

namespace Prox

open Option SubscriptionCall SubscriptionDB

/-! ## The system -/

/-- `CleanupSubscriptionPreConsumeRecords`. It selects by the time of the last update, which is no
column here: `old` is what it selects. -/
def cleanupSubscriptionPreConsumeRecords (old : SubscriptionPreConsumeRecord → Bool)
    (db : SubscriptionDB) : SubscriptionDB :=
  { db with records := db.records.deleteWhere old }

/-- What can happen to a hold between two calls for it. -/
inductive HoldEvent where
  | call (e : SubscriptionEvent)
  /-- Purchases, expiry, administrators and other transactions that post mutations: they write
  subscriptions and journal entries, and no record. -/
  | elsewhere (subs : Table UserSubscription) (journal : Table SubscriptionQuotaTransaction)
  | cleanup (old : SubscriptionPreConsumeRecord → Bool)

/-- The tables after an event. -/
def SubscriptionDB.holdStep (db : SubscriptionDB) : HoldEvent → SubscriptionDB
  | .call e => db.step e
  | .elsewhere subs journal => { db with subs, journal }
  | .cleanup old => cleanupSubscriptionPreConsumeRecords old db

/-- The hold of a request is open. -/
def SubscriptionDB.HoldOpen (db : SubscriptionDB) (k : String) : Prop :=
  ∃ r ∈ db.records.byKey k, r.status = .consumed
  deriving Decidable

/-- The past holds the first successful call for a request, made with these arguments, and its hold has
been open ever since. -/
def OpenSinceFirst (db₀ : SubscriptionDB) (past : List HoldEvent) (requestId k : String)
    (userId amount : Int) : Prop :=
  ∃ before env after result,
    past = before ++ .call ⟨.preConsume requestId userId amount, env⟩ :: after ∧
    (run SubscriptionDB.holdStep db₀ before).records.byKey k = none ∧
    (preConsumeUserSubscription env requestId userId amount
      (run SubscriptionDB.holdStep db₀ before)).1 = .ok result ∧
    Along SubscriptionDB.holdStep (fun db e => (db.holdStep e).HoldOpen k)
      (run SubscriptionDB.holdStep db₀ (before ++ [.call ⟨.preConsume requestId userId amount, env⟩]))
      after

/-! ## What a retry is compared with -/

variable {db db' : SubscriptionDB} {k requestId : String} {amount userId : Int}
  {r : SubscriptionPreConsumeRecord} {result : SubscriptionPreConsumeResult}

/-- A pre-consumption whose request id is taken succeeds when user and quota are those of the record,
the record is consumed or settled, and its subscription is still there. It writes nothing. -/
theorem replayPreConsume_eq_ok (hr : db.records.byKey k = some r) :
    replayPreConsume db k userId amount = .ok (result, db') ↔
      (r.userId = userId ∧ r.preConsumed = amount) ∧ (r.status = .consumed ∨ r.status = .settled) ∧
      ∃ s, db.subs.byId r.userSubscriptionId = some s ∧ db' = db ∧
        result = { userSubscriptionId := s.id, preConsumed := r.preConsumed,
                   amountTotal := s.amountTotal, amountUsedBefore := s.amountUsed,
                   amountUsedAfter := s.amountUsed } := by
  simp only [replayPreConsume, ok_iff, not_or, not_not, Prod.mk.injEq,
      lockSubscriptionPreConsumeRecordTx_eq_ok, lockUserSubscriptionTx_eq_ok, hr, Option.some.injEq]
  constructor
  · rintro ⟨_, rfl, hmatch, -, hstatus, s, hs, rfl, rfl⟩
    refine ⟨hmatch, ?_, s, hs, rfl, rfl⟩
    by_contra hne
    exact hstatus (not_or.mp hne)
  · rintro ⟨hmatch, hstatus, s, hs, rfl, rfl⟩
    refine ⟨r, rfl, hmatch, ?_, ?_, s, hs, rfl, rfl⟩
    · rcases hstatus with h | h <;> rw [h] <;> decide
    · rintro ⟨hc, hs⟩
      exact hstatus.elim hc hs

variable {env : SubscriptionEnv}

/-- A taken request id leads to the replay. -/
theorem preConsumeUserSubscriptionTx_of_byKey (hr : db.records.byKey k = some r) :
    preConsumeUserSubscriptionTx env k userId amount db = replayPreConsume db k userId amount := by
  unfold preConsumeUserSubscriptionTx
  simp only
  rw [(Table.create_eq_none rfl).mpr ⟨r, hr⟩]

/-- A free request id is claimed by a new record, which is consumed from the subscription found. -/
theorem preConsumeFrom_records {record : SubscriptionPreConsumeRecord}
    {candidates : List UserSubscription} (hr : record ∈ db.records.rows)
    (hstatus : record.status = .pending)
    (h : preConsumeFrom env record amount candidates db = .ok (result, db')) :
    db'.records = (db.records.updateWhere (fun x => x.id = record.id)
      (SubscriptionPreConsumeRecord.consume result.userSubscriptionId)).1 ∧
    result.preConsumed = amount := by
  induction candidates generalizing db with
  | nil => cases h
  | cons candidate rest ih =>
    simp only [preConsumeFrom, bind_eq_ok, Prod.exists] at h
    obtain ⟨plan, -, sub, db₁, hreset, h⟩ := h
    have hrecords := (maybeReset_effect hreset).1.records
    split at h
    · rw [← hrecords] at hr ⊢
      exact ih hr h
    · simp only [ok_iff, Prod.mk.injEq, Prod.exists] at h
      obtain ⟨applied, db₂, hmutate, db₃, hupdate, rfl, rfl⟩ := h
      have hdb₂ := (applySubscriptionQuotaMutationTx_records hmutate).trans hrecords
      rw [updateRecordTx_eq_ok (hdb₂ ▸ hr) hstatus hupdate, hdb₂]
      exact ⟨rfl, rfl⟩

/-- The row a first pre-consumption leaves under its request id; the other ids find what they did. -/
theorem preConsumeUserSubscriptionTx_opened (hnone : db.records.byKey k = none)
    (h : preConsumeUserSubscriptionTx env k userId amount db = .ok (result, db')) :
    result.preConsumed = amount ∧ ∃ r : SubscriptionPreConsumeRecord, r.status = .consumed ∧
      r.userId = userId ∧ r.preConsumed = amount ∧ r.userSubscriptionId = result.userSubscriptionId ∧
      ∀ k', db'.records.byKey k' = if k = k' then some r else db.records.byKey k' := by
  simp only [preConsumeUserSubscriptionTx] at h
  split at h
  · next hcreate =>
    obtain ⟨r, hr⟩ := (Table.create_eq_none rfl).mp hcreate
    exact absurd (hr.symm.trans hnone) (by simp)
  · next records hcreate =>
    simp only [ok_iff] at h
    have hmem := (Table.mem_of_create hcreate).mpr (.inr rfl)
    obtain ⟨hrecords, hquota⟩ := preConsumeFrom_records hmem rfl h.2
    refine ⟨hquota, (SubscriptionPreConsumeRecord.consume result.userSubscriptionId).apply
      { id := db.records.nextId, requestId := k, userId, preConsumed := amount, status := .pending },
      rfl, rfl, rfl, rfl, fun k' => ?_⟩
    rw [hrecords, Table.byKey_updateWhere_single hmem (by simp) (by simp [Row.id])]
    by_cases hk : k = k'
    · rw [if_pos hk]
      exact if_pos hk
    · rw [if_neg hk]
      exact (if_neg hk).trans ((Table.byKey_of_create hcreate k').trans (if_neg hk))

/-! ## The owner of a hold -/

/-- Every record is still there and belongs to the same user. -/
def OwnersKept (t t' : Table SubscriptionPreConsumeRecord) : Prop :=
  ∀ k r, t.byKey k = some r → ∃ r', t'.byKey k = some r' ∧ r'.userId = r.userId

theorem OwnersKept.of_eq {t t' : Table SubscriptionPreConsumeRecord} (h : t' = t) : OwnersKept t t' :=
  fun _ r hr => ⟨r, h ▸ hr, rfl⟩

/-- An update that leaves the user column alone keeps every owner. -/
theorem OwnersKept.updateWhere {t : Table SubscriptionPreConsumeRecord}
    {p : SubscriptionPreConsumeRecord → Bool} {patch : Patch SubscriptionPreConsumeRecord}
    (huser : ∀ r, (patch.apply r).userId = r.userId) : OwnersKept t (t.updateWhere p patch).1 := by
  intro k r hr
  refine ⟨if p r then patch.apply r else r, ?_, ?_⟩
  · rw [Table.byKey_updateWhere, hr, map_some]
  · split
    · exact huser r
    · rfl

theorem updateRecordTx_owners {status : PreConsumeStatus}
    {patch : Patch SubscriptionPreConsumeRecord} {err : Err}
    (huser : ∀ r, (patch.apply r).userId = r.userId)
    (h : updateRecordTx db r status patch err = .ok db') : OwnersKept db.records db'.records := by
  simp only [updateRecordTx, ok_iff] at h
  obtain ⟨-, rfl⟩ := h
  exact .updateWhere huser

theorem resizeSubscriptionPreConsumeTx_owners {userID subID target : Int} {u : Unit}
    (h : resizeSubscriptionPreConsumeTx k userID subID target db = .ok (u, db')) :
    OwnersKept db.records db'.records := by
  simp only [resizeSubscriptionPreConsumeTx, ok_iff] at h
  obtain ⟨r, -, -, -, h⟩ := h
  split at h
  · cases h
    exact .of_eq rfl
  · simp only [ok_iff, Prod.mk.injEq, Prod.exists] at h
    obtain ⟨applied, db₁, hmutate, db₂, hupdate, -, rfl⟩ := h
    rw [← applySubscriptionQuotaMutationTx_records hmutate]
    exact updateRecordTx_owners (fun _ => rfl) hupdate

/-- A mutation that is posted only when there is something to post leaves the records alone. -/
theorem optionalMutation_records {c : Prop} [Decidable c] {id delta : Int}
    {requestID type key : String} (h : (if c then (do
        let (_, db) ← applySubscriptionQuotaMutationTx db id delta requestID type key
        pure db)
      else pure db) = .ok db') : db'.records = db.records := by
  split at h
  · simp only [ok_iff, Prod.exists] at h
    obtain ⟨applied, _, hmutate, rfl⟩ := h
    exact applySubscriptionQuotaMutationTx_records hmutate
  · cases h
    rfl

theorem settleSubscriptionPreConsumeTx_owners {userID subID actual : Int} {u : Unit}
    (h : settleSubscriptionPreConsumeTx k userID subID actual db = .ok (u, db')) :
    OwnersKept db.records db'.records := by
  simp only [settleSubscriptionPreConsumeTx, ok_iff] at h
  obtain ⟨r, -, -, h⟩ := h
  split at h
  · simp only [ok_iff, Prod.mk.injEq] at h
    exact .of_eq (congrArg records h.2.2).symm
  · simp only [ok_iff, Prod.mk.injEq] at h
    obtain ⟨-, db₁, hmutate, db₂, hupdate, -, rfl⟩ := h
    rw [← optionalMutation_records hmutate]
    exact updateRecordTx_owners (fun _ => rfl) hupdate

theorem refundSubscriptionPreConsumeTx_owners {u : Unit}
    (h : refundSubscriptionPreConsumeTx k db = .ok (u, db')) :
    OwnersKept db.records db'.records := by
  simp only [refundSubscriptionPreConsumeTx, bind_eq_ok] at h
  obtain ⟨r, -, h⟩ := h
  split at h
  · cases h
    exact .of_eq rfl
  · simp only [ok_iff, Prod.mk.injEq] at h
    obtain ⟨-, db₁, hmutate, -, rfl⟩ := h
    rw [← optionalMutation_records hmutate]
    exact .updateWhere fun _ => rfl

theorem preConsumeUserSubscriptionTx_owners
    (h : preConsumeUserSubscriptionTx env k userId amount db = .ok (result, db')) :
    OwnersKept db.records db'.records := by
  cases hrow : db.records.byKey k with
  | some r =>
    rw [preConsumeUserSubscriptionTx_of_byKey hrow, replayPreConsume_eq_ok hrow] at h
    obtain ⟨-, -, s, -, rfl, -⟩ := h
    exact .of_eq rfl
  | none =>
    obtain ⟨-, r, -, -, -, -, hrows⟩ := preConsumeUserSubscriptionTx_opened hrow h
    intro k' r' hr'
    have hne : k ≠ k' := by
      rintro rfl
      rw [hrow] at hr'
      cases hr'
    exact ⟨r', (hrows k').trans ((if_neg hne).trans hr'), rfl⟩

/-- No call takes a hold from its user. -/
theorem SubscriptionDB.step_owners (db : SubscriptionDB) (e : SubscriptionEvent) :
    OwnersKept db.records (db.step e).records := by
  obtain ⟨call, env⟩ := e
  have hsame : OwnersKept db.records db.records := .of_eq rfl
  unfold SubscriptionDB.step
  cases call with
  | preConsume requestId userId amount =>
    rw [exec, preConsumeUserSubscription]
    rcases checked_transaction_cases _ (env.faults 0) _ db with
      ⟨err, herr⟩ | ⟨k, result, db', -, hbody, hok⟩
    · rw [herr]
      exact hsame
    · rw [hok]
      exact preConsumeUserSubscriptionTx_owners hbody
  | resize requestID userID subID targetQuota =>
    rw [exec, resizeSubscriptionPreConsume]
    rcases checked_transaction_cases _ (env.faults 0) _ db with
      ⟨err, herr⟩ | ⟨k, _, db', -, hbody, hok⟩
    · rw [herr]
      exact hsame
    · rw [hok]
      exact resizeSubscriptionPreConsumeTx_owners hbody
  | settle requestID userID subID actualQuota =>
    rw [exec, settleSubscriptionPreConsume]
    rcases checked_transaction_cases _ (env.faults 0) _ db with
      ⟨err, herr⟩ | ⟨k, _, db', -, hbody, hok⟩
    · rw [herr]
      exact hsame
    · rw [hok]
      exact settleSubscriptionPreConsumeTx_owners hbody
  | refund requestId =>
    rw [exec, refundSubscriptionPreConsume]
    rcases checked_transaction_cases _ (env.faults 0) _ db with
      ⟨err, herr⟩ | ⟨k, _, db', -, hbody, hok⟩
    · rw [herr]
      exact hsame
    · rw [hok]
      exact refundSubscriptionPreConsumeTx_owners hbody
  | postConsume subID delta requestID type key =>
    exact transaction_keeps (P := fun s : SubscriptionDB => OwnersKept db.records s.records) hsame
      fun _ _ h => .of_eq (applySubscriptionQuotaMutationTx_records h)
  | resetDue limit =>
    rw [exec]
    refine .of_eq ?_
    unfold resetDueSubscriptions
    split
    · rfl
    · exact (resetSelected_rescheduled env 1 _ db).records

/-- While the hold of a request stays open, it belongs to the user it was opened for. -/
theorem owner_of_along {after : List HoldEvent}
    (hrow : ∃ r, db.records.byKey k = some r ∧ r.userId = userId)
    (hopen : Along holdStep (fun db e => (db.holdStep e).HoldOpen k) db after) :
    ∃ r, (run holdStep db after).records.byKey k = some r ∧ r.userId = userId := by
  refine run_keeps_along
    (I := fun s : SubscriptionDB => ∃ r, s.records.byKey k = some r ∧ r.userId = userId)
    (fun s e ⟨r, hr, huser⟩ hopen => ?_) hrow hopen
  cases e with
  | call e =>
    obtain ⟨r', hr', huser'⟩ := s.step_owners e k r hr
    exact ⟨r', hr', huser'.trans huser⟩
  | elsewhere subs journal => exact ⟨r, hr, huser⟩
  | cleanup old =>
    -- a record that is found after a deletion was found before it
    obtain ⟨r', hr', -⟩ := hopen
    obtain ⟨hmem, hkey⟩ := Table.byKey_eq_some.mp hr'
    have hbefore := Table.byKey_eq_some.mpr ⟨(Table.mem_deleteWhere.mp hmem).1, hkey⟩
    obtain rfl : r' = r := mem_unique hbefore hr
    exact ⟨r', hr', huser⟩

/-! ## The two laws -/

/-- Whenever the call succeeds, the request has an open hold of the returned quota on the returned
subscription. -/
def LeavesOpenHold (env : SubscriptionEnv) (requestId : String) (userId amount : Int)
    (db : SubscriptionDB) : Prop :=
  ∀ result, (preConsumeUserSubscription env requestId userId amount db).1 = .ok result →
    ∃ k r, normalizeSubscriptionRequest requestId = .ok k ∧
      (preConsumeUserSubscription env requestId userId amount db).2.records.byKey k = some r ∧
      r.status = .consumed ∧ r.preConsumed = result.preConsumed ∧
      r.userSubscriptionId = result.userSubscriptionId

/-- If the call repeats the first successful one for its request, whose hold is still open, and the
database does not fail, it succeeds and changes nothing. -/
def RetrySucceeds (env : SubscriptionEnv) (db₀ : SubscriptionDB) (past : List HoldEvent)
    (requestId : String) (userId amount : Int) : Prop :=
  ∀ k, normalizeSubscriptionRequest requestId = .ok k → env.faults 0 = none →
    OpenSinceFirst db₀ past requestId k userId amount →
    (run SubscriptionDB.holdStep db₀ past).HoldOpen k →
    ∃ result, preConsumeUserSubscription env requestId userId amount
      (run SubscriptionDB.holdStep db₀ past) = (.ok result, run SubscriptionDB.holdStep db₀ past)

/-- The request was settled by this user at this amount, and its subscription is still there. -/
def SubscriptionDB.SettledAt (db : SubscriptionDB) (k : String) (userId amount : Int) : Prop :=
  ∃ r ∈ db.records.byKey k, r.status = .settled ∧ r.userId = userId ∧ r.preConsumed = amount ∧
    (db.subs.byId r.userSubscriptionId).isSome

/-- The open hold of the request stands at this amount on a subscription that is still there. -/
def SubscriptionDB.OpenAt (db : SubscriptionDB) (k : String) (amount : Int) : Prop :=
  ∃ r ∈ db.records.byKey k, r.status = .consumed ∧ r.preConsumed = amount ∧
    (db.subs.byId r.userSubscriptionId).isSome

/-- Without a fault, accepted arguments lead to the transaction. -/
theorem preConsumeUserSubscription_eq_ok :
    preConsumeUserSubscription env requestId userId amount db = (.ok result, db') ↔
      env.faults 0 = none ∧ 0 < userId ∧ 0 < amount ∧
      ∃ k, normalizeSubscriptionRequest requestId = .ok k ∧
        preConsumeUserSubscriptionTx env k userId amount db = .ok (result, db') := by
  constructor
  · intro h
    unfold preConsumeUserSubscription at h
    cases hfault : env.faults 0 with
    | some e =>
      rw [hfault] at h
      unfold checked at h
      split at h <;> cases h
    | none =>
      rw [hfault] at h
      rcases checked_transaction_cases _ none _ db with
        ⟨err, herr⟩ | ⟨k, result', db₁, hargs, hbody, hok⟩
      · rw [herr] at h
        cases h
      · rw [hok] at h
        cases h
        simp only [ok_iff, not_le] at hargs
        obtain ⟨huser, _, hk, hamount, rfl⟩ := hargs
        exact ⟨rfl, huser, hamount, _, hk, hbody⟩
  · rintro ⟨hfault, huser, hamount, k, hk, hbody⟩
    unfold preConsumeUserSubscription
    have hargs : (do
        failIf (userId ≤ 0) (.text "invalid userId")
        let requestId ← normalizeSubscriptionRequest requestId
        failIf (amount ≤ 0) (.text "amount must be > 0")
        return requestId : Except Err String) = .ok k := by
      simp only [ok_iff, not_le]
      exact ⟨huser, k, hk, hamount, rfl⟩
    rw [checked_ok hargs, hfault]
    exact transaction_ok hbody

/-- A success leaves an open hold unless it answers for a settled request. -/
theorem leavesOpenHold_iff :
    LeavesOpenHold env requestId userId amount db ↔
      ∀ k, normalizeSubscriptionRequest requestId = .ok k → env.faults 0 = none → 0 < userId →
        0 < amount → ¬ db.SettledAt k userId amount := by
  constructor
  · intro hlaw k hk hfault huser hamount ⟨r, hr, hsettled, hruser, hquota, hsub⟩
    obtain ⟨s, hs⟩ := isSome_iff_exists.mp hsub
    have hcall := preConsumeUserSubscription_eq_ok.mpr ⟨hfault, huser, hamount, k, hk,
      (preConsumeUserSubscriptionTx_of_byKey hr).trans ((replayPreConsume_eq_ok hr).mpr
        ⟨⟨hruser, hquota⟩, .inr hsettled, s, hs, rfl, rfl⟩)⟩
    obtain ⟨k', r', hk', hr', hconsumed, -⟩ := hlaw _ (congrArg Prod.fst hcall)
    obtain rfl : k = k' := Except.ok.inj (hk.symm.trans hk')
    rw [hcall] at hr'
    obtain rfl : r = r' := mem_unique hr hr'
    rw [hsettled] at hconsumed
    cases hconsumed
  · intro hclear result hok
    have hcall : preConsumeUserSubscription env requestId userId amount db
        = (.ok result, (preConsumeUserSubscription env requestId userId amount db).2) :=
      Prod.ext hok rfl
    generalize (preConsumeUserSubscription env requestId userId amount db).2 = db' at hcall ⊢
    obtain ⟨hfault, huser, hamount, k, hk, hbody⟩ := preConsumeUserSubscription_eq_ok.mp hcall
    cases hrow : db.records.byKey k with
    | none =>
      obtain ⟨hquota, r, hconsumed, -, hrquota, hrsub, hrows⟩ :=
        preConsumeUserSubscriptionTx_opened hrow hbody
      exact ⟨k, r, hk, (hrows k).trans (if_pos rfl), hconsumed, hrquota.trans hquota.symm, hrsub⟩
    | some r =>
      rw [preConsumeUserSubscriptionTx_of_byKey hrow, replayPreConsume_eq_ok hrow] at hbody
      obtain ⟨⟨hruser, hquota⟩, hstatus, s, hs, rfl, rfl⟩ := hbody
      have hconsumed : r.status = .consumed := hstatus.resolve_right fun hsettled =>
        hclear k hk hfault huser hamount
          ⟨r, hrow, hsettled, hruser, hquota, isSome_iff_exists.mpr ⟨s, hs⟩⟩
      exact ⟨k, r, hk, hrow, hconsumed, rfl, (Table.byId_eq_some.mp hs).2.symm⟩

/-- The hold that a first call opened belongs to the user of that call. -/
theorem OpenSinceFirst.owner {db₀ : SubscriptionDB} {past : List HoldEvent}
    (hk : normalizeSubscriptionRequest requestId = .ok k)
    (h : OpenSinceFirst db₀ past requestId k userId amount) :
    0 < userId ∧ 0 < amount ∧
      ∃ r, (run holdStep db₀ past).records.byKey k = some r ∧ r.userId = userId := by
  obtain ⟨before, env, after, result, rfl, hnone, hok, hopen⟩ := h
  generalize hdb : run holdStep db₀ before = db at hnone hok
  have hcall : preConsumeUserSubscription env requestId userId amount db
      = (.ok result, (preConsumeUserSubscription env requestId userId amount db).2) :=
    Prod.ext hok rfl
  obtain ⟨-, huser, hamount, k', hk', hbody⟩ := preConsumeUserSubscription_eq_ok.mp hcall
  obtain rfl : k = k' := Except.ok.inj (hk.symm.trans hk')
  obtain ⟨-, r, -, hruser, -, -, hrows⟩ := preConsumeUserSubscriptionTx_opened hnone hbody
  have hfirst : run holdStep db₀
      (before ++ [.call ⟨.preConsume requestId userId amount, env⟩])
      = (preConsumeUserSubscription env requestId userId amount db).2 := by
    rw [run_append, hdb]
    rfl
  refine ⟨huser, hamount, ?_⟩
  rw [List.append_cons, run_append, hfirst]
  rw [hfirst] at hopen
  exact owner_of_along ⟨r, (hrows k).trans (if_pos rfl), hruser⟩ hopen

/-- A retry of the call that opened a hold succeeds exactly when the hold stands at its amount. -/
theorem retrySucceeds_iff {db₀ : SubscriptionDB} {past : List HoldEvent} :
    RetrySucceeds env db₀ past requestId userId amount ↔
      ∀ k, normalizeSubscriptionRequest requestId = .ok k → env.faults 0 = none →
        OpenSinceFirst db₀ past requestId k userId amount →
        (run holdStep db₀ past).HoldOpen k →
        (run holdStep db₀ past).OpenAt k amount := by
  refine forall_congr' fun k => forall_congr' fun hk => forall_congr' fun hfault =>
    forall_congr' fun hfirst => forall_congr' fun ⟨r, hr, hconsumed⟩ => ?_
  obtain ⟨huser, hamount, r', hr', hruser⟩ := hfirst.owner hk
  obtain rfl : r = r' := mem_unique hr hr'
  constructor
  · rintro ⟨result, hcall⟩
    obtain ⟨-, -, -, k', hk', hbody⟩ := preConsumeUserSubscription_eq_ok.mp hcall
    obtain rfl : k = k' := Except.ok.inj (hk.symm.trans hk')
    rw [preConsumeUserSubscriptionTx_of_byKey hr, replayPreConsume_eq_ok hr] at hbody
    obtain ⟨⟨-, hquota⟩, -, s, hs, -⟩ := hbody
    exact ⟨r, hr, hconsumed, hquota, isSome_iff_exists.mpr ⟨s, hs⟩⟩
  · rintro ⟨x, hx, -, hquota, hsub⟩
    obtain rfl : r = x := mem_unique hr hx
    obtain ⟨s, hs⟩ := isSome_iff_exists.mp hsub
    exact ⟨_, preConsumeUserSubscription_eq_ok.mpr ⟨hfault, huser, hamount, k, hk,
      (preConsumeUserSubscriptionTx_of_byKey hr).trans ((replayPreConsume_eq_ok hr).mpr
        ⟨⟨hruser, hquota⟩, .inl hconsumed, s, hs, rfl, rfl⟩)⟩⟩

/-- **When a pre-consumption keeps its two laws.** After any history a call leaves an open hold if it
succeeds, and succeeds without a change if it retries the call that opened the hold, exactly when the
request is not settled at this very amount and a hold opened by this call still stands at it. -/
theorem preConsume_lawful_iff (db₀ : SubscriptionDB) (past : List HoldEvent) (env : SubscriptionEnv)
    (requestId : String) (userId amount : Int) :
    (LeavesOpenHold env requestId userId amount (run SubscriptionDB.holdStep db₀ past) ∧
      RetrySucceeds env db₀ past requestId userId amount) ↔
    ∀ k, normalizeSubscriptionRequest requestId = .ok k → env.faults 0 = none →
      (0 < userId → 0 < amount →
        ¬ (run SubscriptionDB.holdStep db₀ past).SettledAt k userId amount) ∧
      (OpenSinceFirst db₀ past requestId k userId amount →
        (run SubscriptionDB.holdStep db₀ past).HoldOpen k →
        (run SubscriptionDB.holdStep db₀ past).OpenAt k amount) := by
  rw [leavesOpenHold_iff, retrySucceeds_iff]
  constructor
  · rintro ⟨hsettled, hopen⟩ k hk hfault
    exact ⟨hsettled k hk hfault, hopen k hk hfault⟩
  · intro h
    exact ⟨fun k hk hfault => (h k hk hfault).1, fun k hk hfault => (h k hk hfault).2⟩

/-- A hold of 20, raised to 50 while the request is in flight. -/
def resizedPast : List HoldEvent :=
  [.call ⟨.preConsume "req" 1 20, .at 1000⟩, .call ⟨.resize "req" 1 1 50, .at 1001⟩]

/-- A hold of 20, settled at the 20 it holds. -/
def settledPast : List HoldEvent :=
  [.call ⟨.preConsume "req" 1 20, .at 1000⟩, .call ⟨.settle "req" 1 1 20, .at 1001⟩]

/-- The call that opened the hold is refused while the hold stands at 50, and answered with a success
when nothing is held any more. -/
theorem preConsume_laws_broken :
    ¬ RetrySucceeds (.at 1002) .sample resizedPast "req" 1 20 ∧
    ¬ LeavesOpenHold (.at 1002) "req" 1 20
      (run SubscriptionDB.holdStep .sample settledPast) := by
  have hk : normalizeSubscriptionRequest "req" = .ok "req" := by decide +kernel
  constructor
  · intro hlaw
    have hfirst : OpenSinceFirst .sample resizedPast "req" "req" 1 20 :=
      ⟨[], .at 1000, [.call ⟨.resize "req" 1 1 50, .at 1001⟩],
        { userSubscriptionId := 1, preConsumed := 20, amountTotal := 100, amountUsedBefore := 0,
          amountUsedAfter := 20 }, rfl, by decide, by decide +kernel, by decide +kernel⟩
    have hopen : (run SubscriptionDB.holdStep .sample resizedPast).HoldOpen "req" := by decide +kernel
    obtain ⟨r, hr, -, hquota, -⟩ := retrySucceeds_iff.mp hlaw "req" hk rfl hfirst hopen
    have hstands : ∀ r ∈ (run SubscriptionDB.holdStep .sample resizedPast).records.byKey "req",
        r.preConsumed = 50 := by decide +kernel
    rw [hstands r hr] at hquota
    cases hquota
  · intro hlaw
    refine leavesOpenHold_iff.mp hlaw "req" hk rfl (by decide) (by decide) ?_
    show ∃ r ∈ (run SubscriptionDB.holdStep .sample settledPast).records.byKey "req", _
    decide +kernel

end Prox
