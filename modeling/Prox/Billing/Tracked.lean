import Prox.Billing.Resize

/-! # The row of a session

A billing session remembers how much its funding source holds. `Tracks` says what this tells about the
durable row: as long as the row is active it is the one the session remembers, and the journal keys of
its next versions are free. The calls of the session keep it, whether they succeed or fail, and a
resize of a tracked row goes through exactly when the source covers it. -/

namespace Prox

open BillingDB FundingSource List Option SubscriptionPreConsumeRecord

attribute [local irreducible] trimSpace

/-! ## The row of a session -/

/-- An active reservation of the request is the one the session remembers, and the journal has no
entry yet for its later versions. -/
def WalletFunding.Tracks (f : WalletFunding) (w : Wallet) : Prop :=
  ∀ k r, normalizeUserQuotaRequest f.requestId = .ok k → w.reservations.byKey k = some r →
    r.status = .active → r.userId = f.userId ∧ r.reservedQuota = f.consumed ∧ 0 ≤ r.version ∧
      ∀ v, r.version < v → w.transactions.byKey (reservationResizeKey k v) = none

/-- A consumed record of the request is the one the session remembers, and the journal has no entry
yet for its later versions. -/
def SubscriptionFunding.Tracks (f : SubscriptionFunding) (db : SubscriptionDB) : Prop :=
  ∀ k r, normalizeSubscriptionRequest f.requestId = .ok k → db.records.byKey k = some r →
    r.status = .consumed → r.userId = f.userId ∧ r.userSubscriptionId = f.subscriptionId ∧
      r.preConsumed = f.preConsumed ∧
      ∀ v, max r.version 1 < v → db.journal.byKey (resizeKey k v) = none

namespace FundingSource

/-- What a session knows of the row of its funding source. -/
def Tracks (f : FundingSource) (db : BillingDB) : Prop :=
  match f with
  | .wallet w => 0 ≤ w.consumed ∧ w.Tracks db.wallet
  | .subscription s => 0 ≤ s.preConsumed ∧ s.Tracks db.subscriptions

/-- The durable hold of the request in its funding source. -/
def hold (f : FundingSource) (db : BillingDB) : Hold :=
  match f with
  | .wallet w =>
    match normalizeUserQuotaRequest w.requestId with
    | .ok k => db.wallet.holdOf k
    | .error _ => .none
  | .subscription s =>
    match normalizeSubscriptionRequest s.requestId with
    | .ok k => ((db.subscriptions.records.byKey k).map SubscriptionPreConsumeRecord.hold).getD .none
    | .error _ => .none

/-- The funding source has at least this much more for the request: the balance of the user, or what
is left of the total of the subscription, which is unlimited when it is not positive. -/
def Available (f : FundingSource) (db : BillingDB) (delta : Int) : Prop :=
  match f with
  | .wallet w => 0 < w.userId ∧ ∃ u, db.wallet.users.byId w.userId = some u ∧ delta ≤ u.quota
  | .subscription s => 0 < s.userId ∧ 0 < s.subscriptionId ∧
    ∃ x, db.subscriptions.subs.byId s.subscriptionId = some x ∧
      (x.amountTotal ≤ 0 ∨ delta ≤ x.amountTotal - x.amountUsed)

/-- A change by `delta` fits: the owner of the hold is there and covers it. -/
def Room (f : FundingSource) (db : BillingDB) (delta : Int) : Prop :=
  match f with
  | .wallet w => 0 < w.userId ∧ ∃ u, db.wallet.users.byId w.userId = some u ∧
    (delta ≤ 0 ∨ delta ≤ u.quota)
  | .subscription s => 0 < s.userId ∧ 0 < s.subscriptionId ∧
    (∀ k r, normalizeSubscriptionRequest s.requestId = .ok k →
      db.subscriptions.records.byKey k = some r → max r.version 1 + 1 < 10 ^ 20) ∧
    ∃ x, db.subscriptions.subs.byId s.subscriptionId = some x ∧
      (x.amountTotal ≤ 0 ∨ amountUsedAfter x.amountUsed delta ≤ x.amountTotal)

end FundingSource

/-- The columns of a subscription are 64-bit integers. -/
def BillingDB.Int64 (db : BillingDB) : Prop :=
  (∀ x ∈ db.subscriptions.subs.rows, -2 ^ 63 ≤ x.amountUsed) ∧
    ∀ r ∈ db.subscriptions.records.rows, r.version < 2 ^ 63

section Resize

variable {f : FundingSource} {db : BillingDB} {env : BillingEnv} {delta : Int}

/-- A requested delta is never exceeded. -/
theorem amountUsedAfter_le {used delta total : Int} (hused : -2 ^ 63 ≤ used + delta)
    (hle : used + delta ≤ total) (htotal : 0 ≤ total) : amountUsedAfter used delta ≤ total := by
  -- the sum wraps downwards only
  have hwrap : wrapInt64 (used + delta) ≤ used + delta := by
    unfold wrapInt64
    rw [Int.bmod_eq_emod]
    split <;> omega
  simp only [amountUsedAfter]
  split <;> omega

theorem FundingSource.Available.room (h : f.Available db delta) (hdb : db.Int64)
    (hpos : 0 < delta) : f.Room db delta := by
  cases f with
  | wallet w =>
    obtain ⟨huser, u, hu, hle⟩ := h
    exact ⟨huser, u, hu, .inr hle⟩
  | subscription s =>
    obtain ⟨huser, hsub, x, hx, hle⟩ := h
    have hused := hdb.1 x (Table.byId_eq_some.mp hx).1
    refine ⟨huser, hsub, fun k r _ hr => ?_, x, hx, ?_⟩
    · have := hdb.2 r (Table.byKey_eq_some.mp hr).1
      omega
    · rcases le_or_gt x.amountTotal 0 with hfree | htotal
      · exact .inl hfree
      · exact .inr (amountUsedAfter_le (by omega) (by omega) htotal.le)

/-- A row that is held actively is there. -/
theorem Wallet.byKey_of_holdOf_active {w : Wallet} {k : String} {q : Int}
    (h : w.holdOf k = .active q) :
    ∃ r, w.reservations.byKey k = some r ∧ r.status = .active ∧ r.reservedQuota = q := by
  unfold Wallet.holdOf at h
  cases hr : w.reservations.byKey k with
  | none => rw [hr] at h; cases h
  | some r =>
    rw [hr] at h
    simp only [map_some, getD_some, UserQuotaReservation.hold] at h
    split at h
    · next hactive =>
      cases h
      exact ⟨r, rfl, hactive, rfl⟩
    · cases h
    · cases h

/-- A record that is held actively is there. -/
theorem SubscriptionPreConsumeRecord.consumed_of_hold {r : SubscriptionPreConsumeRecord} {q : Int}
    (h : r.hold = .active q) : r.status = .consumed ∧ r.preConsumed = q := by
  unfold hold at h
  split at h
  · cases h
  · next hconsumed =>
    cases h
    exact ⟨hconsumed, rfl⟩
  · cases h
  · cases h

/-- A change that fits goes through for an active hold. -/
theorem FundingSource.Tracks.resize_ok (h : f.Tracks db) {q : Int} (hhold : f.hold db = .active q)
    (hroom : f.Room db delta) (hnonneg : 0 ≤ f.consumed + delta) (hfault : env.fault = none) :
    (f.resize env delta db).result = .ok () := by
  cases f with
  | wallet w =>
    obtain ⟨-, htracks⟩ := h
    obtain ⟨huser, u, hu, hcovers⟩ := hroom
    simp only [hold] at hhold
    split at hhold
    · next k hk =>
      obtain ⟨r, hr, hactive, -⟩ := Wallet.byKey_of_holdOf_active hhold
      obtain ⟨hown, hreserved, -, hfree⟩ := htracks k r hk hr hactive
      have hdelta : w.consumed + delta - r.reservedQuota = delta := by omega
      obtain ⟨w', hbody⟩ := resizeUserQuotaReservationTx_isOk hr hown huser hactive hu (by rw [hdelta]; exact hcovers)
        (hfree _ (by omega))
      have hargs : (do
          let requestID ← normalizeUserQuotaRequest w.requestId
          failIf (w.userId ≤ 0 ∨ w.consumed + delta < 0)
            (.text "user id must be positive and target quota cannot be negative")
          return requestID : Except Err String) = .ok k := by
        simp only [ok_iff]
        have hnonneg : 0 ≤ w.consumed + delta := hnonneg
        exact ⟨k, hk, by omega, rfl⟩
      have hcall : (resizeUserQuotaReservation env.fault w.requestId w.userId (w.consumed + delta)
          env.now db.wallet).1 = .ok () := by
        rw [resizeUserQuotaReservation, checked_ok hargs, hfault, transaction_ok hbody]
      show (onWallet db w _ _).result = .ok ()
      simp [onWallet, hcall]
    · cases hhold
  | subscription s =>
    obtain ⟨-, htracks⟩ := h
    obtain ⟨huser, hsub, hversions, x, hx, hcovers⟩ := hroom
    simp only [hold] at hhold
    split at hhold
    · next k hk =>
      cases hr : db.subscriptions.records.byKey k with
      | none => rw [hr] at hhold; cases hhold
      | some r =>
        rw [hr] at hhold
        obtain ⟨hconsumed, -⟩ := consumed_of_hold hhold
        obtain ⟨hown, hownSub, hheld, hfree⟩ := htracks k r hk hr hconsumed
        have hdelta : s.preConsumed + delta - r.preConsumed = delta := by omega
        obtain ⟨⟨⟨⟩, db'⟩, hbody⟩ : ∃ res, resizeSubscriptionPreConsumeTx k s.userId
            s.subscriptionId (s.preConsumed + delta) db.subscriptions = .ok res :=
          resizeSubscriptionPreConsumeTx_isOk hk hr ⟨hown, hownSub⟩ hsub hconsumed hx
            (by rw [hdelta]; exact hcovers) (hversions k r hk hr)
            (hfree _ (by omega))
        have hargs : (do
            let requestID ← normalizeSubscriptionRequest s.requestId
            failIf (s.userId ≤ 0 ∨ s.subscriptionId ≤ 0 ∨ s.preConsumed + delta < 0)
              (.text "invalid subscription pre-consume resize arguments")
            return requestID : Except Err String) = .ok k := by
          simp only [ok_iff]
          have hnonneg : 0 ≤ s.preConsumed + delta := hnonneg
          exact ⟨k, hk, by omega, rfl⟩
        have hcall : (resizeSubscriptionPreConsume env.fault s.requestId s.userId s.subscriptionId
            (s.preConsumed + delta) db.subscriptions).1 = .ok () := by
          rw [resizeSubscriptionPreConsume, checked_ok hargs, hfault, transaction_ok hbody]
        show (onSubscription db s _ _).result = .ok ()
        simp [onSubscription, hcall]
    · cases hhold

/-- A change that goes through found the hold active at the quota the session remembers, and moves it
by `delta`; there is room to move it back. -/
structure FundingResult.Resized (r : FundingResult) (f : FundingSource) (db : BillingDB)
    (env : BillingEnv) (delta : Int) : Prop where
  ok : r.result = .ok ()
  fault : env.fault = none
  found : f.hold db = .active f.consumed
  tracks : r.funding.Tracks r.db
  hold : r.funding.hold r.db = .active (f.consumed + delta)
  consumed : r.funding.consumed = f.consumed + delta
  tokens : r.db.tokens = db.tokens
  fits : 0 < delta → db.Int64 → f.Room db delta
  room : 0 < delta → delta < 2 ^ 63 → db.Int64 → r.funding.Room r.db (-delta)

/-- **What a resize does to the row of a session**: it fails and changes nothing, or the row moves. -/
theorem FundingSource.Tracks.resize (h : f.Tracks db) (env : BillingEnv) (delta : Int) :
    ((∃ e, (f.resize env delta db).result = .error e) ∧ (f.resize env delta db).funding = f ∧
        (f.resize env delta db).db = db) ∨
      (f.resize env delta db).Resized f db env delta := by
  cases f with
  | wallet w =>
    obtain ⟨hconsumed, htracks⟩ := h
    have hcases := checked_transaction_cases (do
        let requestID ← normalizeUserQuotaRequest w.requestId
        failIf (w.userId ≤ 0 ∨ w.consumed + delta < 0)
          (.text "user id must be positive and target quota cannot be negative")
        return requestID) env.fault
      (fun k => resizeUserQuotaReservationTx k w.userId (w.consumed + delta) env.now) db.wallet
    have hresize : resize env delta (.wallet w) db
        = db.onWallet w { w with consumed := w.consumed + delta }
          (resizeUserQuotaReservation env.fault w.requestId w.userId (w.consumed + delta) env.now) :=
      rfl
    rcases hcases with ⟨e, he⟩ | ⟨_, ⟨⟩, w', hargs, hbody, he⟩
    · left
      rw [hresize, onWallet, resizeUserQuotaReservation, he]
      exact ⟨⟨e, rfl⟩, rfl, rfl⟩
    right
    have hfault : env.fault = none := by
      cases hf : env.fault with
      | none => rfl
      | some e =>
        rw [hf, checked_ok hargs] at he
        cases he
    simp only [ok_iff, not_or, not_le, not_lt] at hargs
    obtain ⟨k, hk, ⟨huser, htarget⟩, rfl⟩ := hargs
    obtain ⟨r, hr, hown, hactive, hcase⟩ := resizeUserQuotaReservationTx_spec hbody
    obtain ⟨-, hreserved, hversion, hfree⟩ := htracks _ r hk hr hactive
    -- the row afterwards, moved or where it was
    obtain ⟨r', hr', hactive', hown', hreserved', hversion', hfree', hstored⟩ : ∃ r',
        w'.reservations.byKey k = some r' ∧ r'.status = .active ∧ r'.userId = w.userId ∧
          r'.reservedQuota = w.consumed + delta ∧ 0 ≤ r'.version ∧
          (∀ v, r'.version < v → w'.transactions.byKey (reservationResizeKey k v) = none) ∧
          (0 < delta → (w'.users.byId w.userId).isSome ∧
            ∃ u, db.wallet.users.byId w.userId = some u ∧ (delta ≤ 0 ∨ delta ≤ u.quota)) := by
      rcases hcase with ⟨heq, rfl⟩ | ⟨after, t, hrow, hkey, hcreate, hstored, hcovers⟩
      · exact ⟨r, hr, hactive, hown, heq, hversion, hfree, fun _ => by omega⟩
      have hdelta : w.consumed + delta - r.reservedQuota = delta := by omega
      rw [hdelta] at hcovers
      refine ⟨_, hrow, hactive, hown, rfl, ?_, fun v hv => ?_, fun _ => ⟨hstored, hcovers⟩⟩
      · show 0 ≤ r.version + 1
        omega
      · have hv : r.version + 1 < v := hv
        rw [Table.byKey_of_create hcreate]
        have hne : Row.key t ≠ reservationResizeKey k v := by
          intro heq
          have := reservationResizeKey_injective (by omega) (by omega) (hkey.symm.trans heq)
          omega
        rw [if_neg hne]
        exact hfree v (by omega)
    have hresult : resize env delta (.wallet w) db
        = ⟨.ok (), .wallet { w with consumed := w.consumed + delta }, { db with wallet := w' },
            false⟩ := by
      rw [hresize, onWallet, resizeUserQuotaReservation, he]
    rw [hresult]
    have hk' : normalizeUserQuotaRequest ({ w with consumed := w.consumed + delta }).requestId
        = .ok k := hk
    refine ⟨rfl, hfault, ?_, ⟨htarget, ?_⟩, ?_, rfl, rfl, fun hpos _ => ⟨huser, (hstored hpos).2⟩,
      ?_⟩
    · simp [hold, hk, Wallet.holdOf, hr, map_some, UserQuotaReservation.hold, hactive,
        consumed, hreserved]
    · intro k₁ r₁ hk₁ hr₁ _
      obtain rfl := Except.ok.inj (hk'.symm.trans hk₁)
      obtain rfl := mem_unique hr' hr₁
      exact ⟨hown', hreserved', hversion', hfree'⟩
    · simp [hold, hk, Wallet.holdOf, hr', map_some, UserQuotaReservation.hold, hactive',
        consumed, hreserved']
    · intro hpos _ _
      obtain ⟨u, hu⟩ := isSome_iff_exists.mp (hstored hpos).1
      exact ⟨huser, u, hu, .inl (by omega)⟩
  | subscription s =>
    obtain ⟨hconsumed, htracks⟩ := h
    have hcases := checked_transaction_cases (do
        let requestID ← normalizeSubscriptionRequest s.requestId
        failIf (s.userId ≤ 0 ∨ s.subscriptionId ≤ 0 ∨ s.preConsumed + delta < 0)
          (.text "invalid subscription pre-consume resize arguments")
        return requestID) env.fault
      (fun k => resizeSubscriptionPreConsumeTx k s.userId s.subscriptionId (s.preConsumed + delta))
      db.subscriptions
    have hresize : resize env delta (.subscription s) db
        = db.onSubscription s { s with
            preConsumed := s.preConsumed + delta, amountUsedAfter := s.amountUsedAfter + delta }
          (resizeSubscriptionPreConsume env.fault s.requestId s.userId s.subscriptionId
            (s.preConsumed + delta)) := rfl
    rcases hcases with ⟨e, he⟩ | ⟨_, ⟨⟩, db', hargs, hbody, he⟩
    · left
      rw [hresize, onSubscription, resizeSubscriptionPreConsume, he]
      exact ⟨⟨e, rfl⟩, rfl, rfl⟩
    right
    have hfault : env.fault = none := by
      cases hf : env.fault with
      | none => rfl
      | some e =>
        rw [hf, checked_ok hargs] at he
        cases he
    simp only [ok_iff, not_or, not_le, not_lt] at hargs
    obtain ⟨k, hk, ⟨huser, hsub, htarget⟩, rfl⟩ := hargs
    obtain ⟨r, hr, hown, hownSub, hstatus, hcase⟩ := resizeSubscriptionPreConsumeTx_spec hbody
    obtain ⟨-, -, hheld, hfree⟩ := htracks _ r hk hr hstatus
    -- the record afterwards, moved or where it was
    obtain ⟨r', hr', hstatus', hown', hownSub', hheld', hversion', hfree', hcovers⟩ : ∃ r',
        db'.records.byKey k = some r' ∧ r'.status = .consumed ∧ r'.userId = s.userId ∧
          r'.userSubscriptionId = s.subscriptionId ∧ r'.preConsumed = s.preConsumed + delta ∧
          r'.version ≤ max r.version 1 + 1 ∧
          (∀ v, max r'.version 1 < v → db'.journal.byKey (resizeKey k v) = none) ∧
          (0 < delta → (∃ x, db.subscriptions.subs.byId s.subscriptionId = some x ∧
              (x.amountTotal ≤ 0 ∨ amountUsedAfter x.amountUsed delta ≤ x.amountTotal)) ∧
            ∃ x, db'.subs.byId s.subscriptionId = some x ∧ 0 ≤ x.amountUsed ∧
              (0 < x.amountTotal → x.amountUsed ≤ x.amountTotal)) := by
      rcases hcase with ⟨heq, rfl⟩ | ⟨hrow, hother, hposted⟩
      · exact ⟨r, hr, hstatus, hown, hownSub, heq, by omega, hfree, fun _ => by omega⟩
      have hdelta : s.preConsumed + delta - r.preConsumed = delta := by omega
      rw [hdelta] at hposted
      refine ⟨_, hrow, hstatus, hown, hownSub, rfl, le_rfl, fun v hv => ?_, fun _ =>
        hposted (hfree _ (by omega))⟩
      have hv : max (max r.version 1 + 1) 1 < v := hv
      refine hother _ (hfree v (by omega)) fun heq => ?_
      have := resizeKey_injective (by omega) (by omega) heq
      omega
    have hresult : resize env delta (.subscription s) db
        = ⟨.ok (), .subscription { s with
            preConsumed := s.preConsumed + delta, amountUsedAfter := s.amountUsedAfter + delta },
            { db with subscriptions := db' }, false⟩ := by
      rw [hresize, onSubscription, resizeSubscriptionPreConsume, he]
    rw [hresult]
    have hversion : db.Int64 → ∀ k₁ r₁, normalizeSubscriptionRequest s.requestId = .ok k₁ →
        db.subscriptions.records.byKey k₁ = some r₁ → max r₁.version 1 + 1 < 10 ^ 20 := by
      intro hdb k₁ r₁ _ hr₁
      have := hdb.2 r₁ (Table.byKey_eq_some.mp hr₁).1
      omega
    refine ⟨rfl, hfault, ?_, ⟨htarget, ?_⟩, ?_, rfl, rfl,
      fun hpos hdb => ⟨huser, hsub, hversion hdb, (hcovers hpos).1⟩, ?_⟩
    · simp [hold, hk, hr, map_some, SubscriptionPreConsumeRecord.hold, hstatus, consumed,
        hheld]
    · intro k₁ r₁ hk₁ hr₁ _
      obtain rfl := Except.ok.inj (hk.symm.trans hk₁)
      obtain rfl := mem_unique hr' hr₁
      exact ⟨hown', hownSub', hheld', hfree'⟩
    · simp [hold, hk, hr', map_some, SubscriptionPreConsumeRecord.hold, hstatus', consumed,
        hheld']
    · intro hpos hlt hdb
      obtain ⟨x, hx, hused, htotal⟩ := (hcovers hpos).2
      clear hcovers
      refine ⟨huser, hsub, fun k₁ r₁ hk₁ hr₁ => ?_, x, hx, ?_⟩
      · obtain rfl := Except.ok.inj (hk.symm.trans hk₁)
        obtain rfl := mem_unique hr' hr₁
        have := hdb.2 r (Table.byKey_eq_some.mp hr).1
        omega
      · rcases le_or_gt x.amountTotal 0 with hunlimited | hlimited
        · exact .inl hunlimited
        · exact .inr (amountUsedAfter_le (by omega) (by omega) hlimited.le)

/-- A resize keeps the row tracked, whether it goes through or not. -/
theorem FundingSource.Tracks.resize_keeps (h : f.Tracks db) (env : BillingEnv) (delta : Int) :
    (f.resize env delta db).funding.Tracks (f.resize env delta db).db := by
  rcases h.resize env delta with ⟨-, hfunding, hdb⟩ | hresized
  · rw [hfunding, hdb]
    exact h
  · exact hresized.tracks

theorem FundingSource.Tracks.consumed_nonneg (h : f.Tracks db) : 0 ≤ f.consumed := by
  cases f <;> exact h.1

/-- The row of a session is not in the token table. -/
theorem FundingSource.Tracks.of_tokens (h : f.Tracks db) (tokens : Table Token) :
    f.Tracks { db with tokens } := by
  cases f <;> exact h

/-- The hold of a session is not in the token table. -/
theorem FundingSource.hold_tokens (f : FundingSource) (db : BillingDB) (tokens : Table Token) :
    f.hold { db with tokens } = f.hold db := by
  cases f <;> rfl

end Resize

/-! ## The other calls -/

section Closed

variable {f : FundingSource} {db : BillingDB} {env : BillingEnv} {delta : Int}

/-- Nothing has to be remembered of a closed reservation. -/
theorem WalletFunding.Tracks.of_closed {f : WalletFunding} {w : Wallet}
    (h : ∀ k r, normalizeUserQuotaRequest f.requestId = .ok k → w.reservations.byKey k = some r →
      r.status ≠ .active) : f.Tracks w :=
  fun k r hk hr hactive => absurd hactive (h k r hk hr)

/-- Nothing has to be remembered of a closed record. -/
theorem SubscriptionFunding.Tracks.of_closed {f : SubscriptionFunding} {db : SubscriptionDB}
    (h : ∀ k r, normalizeSubscriptionRequest f.requestId = .ok k → db.records.byKey k = some r →
      r.status ≠ .consumed) : f.Tracks db :=
  fun k r hk hr hconsumed => absurd hconsumed (h k r hk hr)

/-- A call that fails, or closes the reservation of the session. -/
theorem BillingDB.onWallet_tracks {old new : WalletFunding} {Q : UserQuotaReservation → Prop}
    {call : Wallet → Except Err Unit × Wallet} (hnew : new.requestId = old.requestId)
    (hnonneg : 0 ≤ new.consumed) (hQ : ∀ r, Q r → r.status ≠ .active)
    (houtcome : ReservationOutcome old.requestId Q db.wallet (call db.wallet))
    (h : Tracks (.wallet old) db) :
    (db.onWallet old new call).funding.Tracks (db.onWallet old new call).db := by
  rcases houtcome with ⟨e, he⟩ | ⟨k, w', hk, he, -, r, hr, hclosed⟩
  · rw [onWallet, he]
    exact h
  · rw [onWallet, he]
    refine ⟨hnonneg, .of_closed fun k₁ r₁ hk₁ hr₁ => ?_⟩
    obtain rfl := Except.ok.inj (hk.symm.trans (hnew ▸ hk₁))
    obtain rfl := mem_unique hr hr₁
    exact hQ r hclosed

/-- A call that fails, or closes the record of the session. -/
theorem BillingDB.onSubscription_tracks {old new : SubscriptionFunding}
    {call : SubscriptionDB → Except Err Unit × SubscriptionDB} (hnew : new.requestId = old.requestId)
    (hnonneg : 0 ≤ new.preConsumed)
    (hcall : (∃ e, call db.subscriptions = (.error e, db.subscriptions)) ∨
      ∃ k db' r, normalizeSubscriptionRequest old.requestId = .ok k ∧
        call db.subscriptions = (.ok (), db') ∧ db'.records.byKey k = some r ∧
        r.status ≠ .consumed)
    (h : Tracks (.subscription old) db) :
    (db.onSubscription old new call).funding.Tracks (db.onSubscription old new call).db := by
  rcases hcall with ⟨e, he⟩ | ⟨k, db', r, hk, he, hr, hclosed⟩
  · rw [onSubscription, he]
    exact h
  · rw [onSubscription, he]
    refine ⟨hnonneg, .of_closed fun k₁ r₁ hk₁ hr₁ => ?_⟩
    obtain rfl := Except.ok.inj (hk.symm.trans (hnew ▸ hk₁))
    obtain rfl := mem_unique hr hr₁
    exact hclosed

theorem FundingSource.Tracks.settle (h : f.Tracks db) (env : BillingEnv) (delta : Int) :
    (f.settle env delta db).funding.Tracks (f.settle env delta db).db := by
  cases f with
  | wallet w =>
    unfold settle
    dsimp only
    split
    · exact h
    · next hnonneg =>
      refine onWallet_tracks rfl (by show 0 ≤ w.consumed + delta; omega) (fun r hr => ?_)
        (settleUserQuotaReservation_outcome env.fault w.requestId w.userId db.wallet _ _) h
      rw [hr.1]
      nofun
  | subscription s =>
    unfold settle
    dsimp only
    split
    · exact h
    · next hnonneg =>
      refine onSubscription_tracks rfl (by show 0 ≤ s.preConsumed + delta; omega) ?_ h
      refine (checked_transaction_cases _ env.fault _ db.subscriptions).imp_right ?_
      rintro ⟨k, ⟨⟩, db', hargs, hbody, he⟩
      simp only [ok_iff, not_or, not_lt] at hargs
      obtain ⟨k, hk, ⟨-, -, hactual⟩, rfl⟩ := hargs
      obtain ⟨-, r, hr, hstatus, -⟩ := settleSubscriptionPreConsumeTx_effect
        (normalizeSubscriptionRequest_eq_ok hk) hactual hbody
      refine ⟨k, db', r, hk, he, hr, ?_⟩
      rw [hstatus]
      rintro ⟨⟩

theorem FundingSource.Tracks.refund (h : f.Tracks db) (env : BillingEnv) :
    f.Tracks (f.refund env db).db := by
  cases f with
  | wallet w =>
    have hkept : (refund env (.wallet w) db).funding.Tracks
        (refund env (.wallet w) db).db :=
      onWallet_tracks rfl h.1 (fun r hr => by rw [hr.1]; rintro ⟨⟩)
        (refundUserQuotaReservation_outcome env.fault w.requestId w.userId db.wallet
          "billing request failed") h
    have hfunding : (refund env (.wallet w) db).funding = .wallet w := by
      simp only [refund, onWallet]
      split <;> rfl
    rwa [hfunding] at hkept
  | subscription s =>
    have hcall : (∃ e, refundSubscriptionPreConsume env.fault s.requestId db.subscriptions
        = (.error e, db.subscriptions)) ∨
        ∃ k db' r, normalizeSubscriptionRequest s.requestId = .ok k ∧
          refundSubscriptionPreConsume env.fault s.requestId db.subscriptions = (.ok (), db') ∧
          db'.records.byKey k = some r ∧ r.status ≠ .consumed := by
      refine (checked_transaction_cases _ env.fault _ db.subscriptions).imp_right ?_
      rintro ⟨k, ⟨⟩, db', hk, hbody, he⟩
      obtain ⟨-, r, hr, hstatus⟩ := refundSubscriptionPreConsumeTx_effect
        (normalizeSubscriptionRequest_eq_ok hk) hbody
      refine ⟨k, db', r, hk, he, hr, ?_⟩
      rw [hstatus]
      rintro ⟨⟩
    have hkept : (refund env (.subscription s) db).funding.Tracks
        (refund env (.subscription s) db).db :=
      onSubscription_tracks rfl h.1 hcall h
    have hfunding : (refund env (.subscription s) db).funding = .subscription s := by
      simp only [refund, onSubscription]
      split <;> rfl
    rwa [hfunding] at hkept

end Closed

/-! ## New sessions -/

/-- No ledger knows the request: there is no hold of it, and no journal entry of its resizes. -/
def BillingDB.Unknown (db : BillingDB) (requestId : String) : Prop :=
  (∀ k, normalizeUserQuotaRequest requestId = .ok k → db.wallet.reservations.byKey k = none ∧
    ∀ v, db.wallet.transactions.byKey (reservationResizeKey k v) = none) ∧
  ∀ k, normalizeSubscriptionRequest requestId = .ok k →
    db.subscriptions.records.byKey k = none ∧
      ∀ v, db.subscriptions.journal.byKey (resizeKey k v) = none

/-- The key of a reservation is not the key of a resize: they end differently. -/
theorem reserveKey_ne (k : String) (v : Int) (hv : 0 ≤ v) :
    k ++ ":reserve" ≠ reservationResizeKey k v := by
  obtain ⟨n, rfl⟩ := Int.eq_ofNat_of_zero_le hv
  intro h
  have hlist := congrArg String.toList h
  rw [toList_reservationResizeKey, String.toList_append, append_cancel_left_eq] at hlist
  have hfifth := congrArg (fun l => l[4]?) hlist
  rw [List.getElem?_append_left (by decide)] at hfifth
  exact absurd hfifth (by decide)

/-- The row of a new reservation. -/
theorem reserveUserQuota_tracks {w : Wallet} {requestId sourceType : String} {fault : Option Err}
    {userId quota now : Int}
    (hnew : ∀ k, normalizeUserQuotaRequest requestId = .ok k → w.reservations.byKey k = none ∧
      ∀ v, w.transactions.byKey (reservationResizeKey k v) = none)
    (hok : (reserveUserQuota fault requestId userId quota sourceType now w).1 = .ok ()) :
    0 ≤ quota ∧ WalletFunding.Tracks ⟨requestId, userId, quota, sourceType⟩
      (reserveUserQuota fault requestId userId quota sourceType now w).2 := by
  unfold reserveUserQuota at hok ⊢
  rcases checked_transaction_cases _ fault (fun (k, source) => reserveUserQuotaTx k userId quota
    source now) w with ⟨e, he⟩ | ⟨⟨k₀, source₀⟩, ⟨⟩, w', hargs, hbody, he⟩
  · rw [he] at hok; cases hok
  rw [he]
  simp only [ok_iff, Prod.mk.injEq, not_or, not_le] at hargs
  obtain ⟨k, hk, ⟨hi, hq⟩, source, hsource, rfl, rfl⟩ := hargs
  obtain ⟨hnone, hfree⟩ := hnew k hk
  refine ⟨hq.le, fun k₁ r hk₁ hr _ => ?_⟩
  obtain rfl := Except.ok.inj (hk.symm.trans hk₁)
  simp only [reserveUserQuotaTx] at hbody
  split at hbody
  · next hcreate =>
    obtain ⟨x, hx⟩ := (Table.create_eq_none rfl).mp hcreate
    cases hx.symm.trans hnone
  next rs hrs =>
  simp only [ok_iff, Prod.mk.injEq, true_and, Prod.exists] at hbody
  obtain ⟨b, a, w₁, hdebit, w₂, hpost, rfl⟩ := hbody
  obtain ⟨-, hrow⟩ := opened_effect hrs hdebit hpost rfl
    ⟨hi, normalizeUserQuotaRequest_idem hk, normalizeUserQuotaSource_idem hsource, hq.le, le_rfl⟩
    ⟨rfl, rfl, rfl⟩ rfl
  obtain rfl := mem_unique hrow hr
  refine ⟨rfl, rfl, by show (0 : Int) ≤ 1; decide, fun v hv => ?_⟩
  have hv : 1 < v := hv
  obtain ⟨ts, hts, rfl⟩ := createUserQuotaTransactionTx_eq_ok.mp hpost
  have hts₁ : w₁.transactions = w.transactions := by rw [(debitUserQuotaTx_moved hdebit).result]; rfl
  rw [Table.byKey_of_create hts]
  refine (if_neg fun heq => reserveKey_ne k v (by omega) heq).trans ?_
  rw [← hfree v, ← hts₁]

/-- A reset writes no journal and no record. -/
theorem maybeReset_journal {loc : Location} {db db' : SubscriptionDB} {sub sub' : UserSubscription}
    {plan : SubscriptionPlan} {now : Int}
    (h : maybeResetUserSubscriptionWithPlanTx loc db sub plan now = .ok (sub', db')) :
    db'.journal = db.journal ∧ db'.records = db.records := by
  unfold maybeResetUserSubscriptionWithPlanTx at h
  split at h
  · cases h; exact ⟨rfl, rfl⟩
  · split at h
    · cases h; exact ⟨rfl, rfl⟩
    · simp only at h
      split at h
      · cases h
      · split at h <;> cases h <;> exact ⟨rfl, rfl⟩
      · cases h; exact ⟨rfl, rfl⟩

/-- The journal key of a pre-consumption. -/
def preConsumeKey (requestId : String) : String :=
  trimSpace ("subscription:" ++ requestId ++ ":preconsume")

/-- The key of a pre-consumption is not the key of a resize. -/
theorem preConsumeKey_ne (k : String) (v : Int) (hv : 0 ≤ v) : preConsumeKey k ≠ resizeKey k v := by
  obtain ⟨n, rfl⟩ := Int.eq_ofNat_of_zero_le hv
  intro h
  have htext : (preConsumeKey k).toList
      = "subscription:".toList ++ k.toList ++ ":preconsume".toList := by
    rw [preConsumeKey, trimSpace_eq_self (a := 's') (b := 'e')
      (l := "ubscription:".toList ++ k.toList ++ ":preconsume".toList)
      (r := "subscription:".toList ++ k.toList ++ ":preconsum".toList)
      (by simp only [String.toList_append]; rfl) (by
        simp only [String.toList_append, append_assoc]
        rfl) (by decide) (by decide)]
    simp
  have hlist := congrArg String.toList h
  rw [htext, toList_resizeKey, append_assoc _ ":resize:".toList, append_cancel_left_eq]
    at hlist
  have hsecond := congrArg (fun l => l[1]?) hlist
  rw [List.getElem?_append_left (by decide)] at hsecond
  exact absurd hsecond (by decide)

/-- The loop over the candidates writes one journal entry and consumes the record. -/
theorem preConsumeFrom_record {env : SubscriptionEnv} {record : SubscriptionPreConsumeRecord}
    {amount : Int} {candidates : List UserSubscription} {db db' : SubscriptionDB}
    {result : SubscriptionPreConsumeResult}
    (hrecord : db.records.byKey record.requestId = some record) (hstatus : record.status = .pending)
    (h : preConsumeFrom env record amount candidates db = .ok (result, db')) :
    result.preConsumed = amount ∧
      db'.records.byKey record.requestId
        = some ((consume result.userSubscriptionId).apply record) ∧
      ∀ key, db.journal.byKey key = none → preConsumeKey record.requestId ≠ key →
        db'.journal.byKey key = none := by
  induction candidates generalizing db with
  | nil => cases h
  | cons candidate rest ih =>
    simp only [preConsumeFrom, bind_eq_ok, Prod.exists] at h
    obtain ⟨plan, -, sub, db₁, hreset, h⟩ := h
    obtain ⟨hjournal, hrecords⟩ := maybeReset_journal hreset
    split at h
    · rw [← hjournal]
      exact ih (hrecords ▸ hrecord) h
    · simp only [ok_iff, Prod.mk.injEq, Prod.exists] at h
      obtain ⟨applied, db₂, hmutate, db₃, hupdate, rfl, rfl⟩ := h
      have hrecords₂ := applySubscriptionQuotaMutationTx_records hmutate
      have hmem : record ∈ db₂.records.rows := by
        rw [hrecords₂, hrecords]
        exact (Table.byKey_eq_some.mp hrecord).1
      have hdb₃ := updateRecordTx_eq_ok hmem hstatus hupdate
      refine ⟨rfl, ?_, fun key hfree hne => ?_⟩
      · rw [hdb₃]
        refine byKey_updateRecord ?_ _
        rw [hrecords₂, hrecords]
        exact hrecord
      · rw [hdb₃]
        rcases applySubscriptionQuotaMutationTx_cases hmutate with
          ⟨-, rfl, -⟩ | ⟨-, -, t, hpost, -, -, -, hkey, -⟩
        · exact hjournal ▸ hfree
        · rw [Table.byKey_of_create hpost.journal, hjournal, hfree]
          exact if_neg fun heq => hne (hkey.symm.trans heq)

/-- The record of a new pre-consumption. -/
theorem preConsumeUserSubscription_tracks {env : SubscriptionEnv} {requestId : String}
    {userId amount : Int} {db : SubscriptionDB} {result : SubscriptionPreConsumeResult}
    (hnew : ∀ k, normalizeSubscriptionRequest requestId = .ok k → db.records.byKey k = none ∧
      ∀ v, db.journal.byKey (resizeKey k v) = none)
    (hok : (preConsumeUserSubscription env requestId userId amount db).1 = .ok result) :
    0 ≤ result.preConsumed ∧ result.preConsumed = amount ∧
      ∀ f : SubscriptionFunding, f.requestId = requestId → f.userId = userId →
        f.subscriptionId = result.userSubscriptionId → f.preConsumed = result.preConsumed →
        f.Tracks (preConsumeUserSubscription env requestId userId amount db).2 := by
  unfold preConsumeUserSubscription at hok ⊢
  rcases checked_transaction_cases _ (env.faults 0)
    (fun requestId => preConsumeUserSubscriptionTx env requestId userId amount) db with
    ⟨e, he⟩ | ⟨k₀, result', db', hargs, hbody, he⟩
  · rw [he] at hok; cases hok
  rw [he] at hok ⊢
  cases hok
  simp only [ok_iff, not_le] at hargs
  obtain ⟨-, k, hk, hpos, rfl⟩ := hargs
  obtain ⟨hnone, hfree⟩ := hnew k hk
  simp only [preConsumeUserSubscriptionTx] at hbody
  split at hbody
  · next hcreate =>
    obtain ⟨x, hx⟩ := (Table.create_eq_none rfl).mp hcreate
    cases hx.symm.trans hnone
  next records hcreate =>
  simp only [ok_iff] at hbody
  obtain ⟨hquota, hrow, hjournal⟩ := preConsumeFrom_record
    (by rw [Table.byKey_of_create hcreate]; exact if_pos rfl) rfl hbody.2
  refine ⟨hquota ▸ hpos.le, hquota, ?_⟩
  rintro f rfl rfl hsub hpre k₁ r hk₁ hr -
  obtain rfl := Except.ok.inj (hk.symm.trans hk₁)
  obtain rfl := mem_unique hrow hr
  refine ⟨rfl, hsub.symm, (hquota.symm.trans hpre.symm), fun v hv => ?_⟩
  exact hjournal _ (hfree v) (preConsumeKey_ne k v (by omega))

end Prox
