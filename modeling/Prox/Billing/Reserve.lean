import Prox.Billing.Tracked

/-! # Reserving more

What `Reserve` does for a session that is open. The durable row is not the session's own: a request
that pre-consumed nothing never got one, the sweep of expired holds refunds it after two hours, and the
cleanup deletes old records. `Reserve` can only raise a hold that is there, so it succeeds exactly as
long as the row is active and stands at the quota the session has pre-consumed. -/

namespace Prox

/-! ## Other requests -/

/-- What other requests, the sweeps and the cleanup may do to the tables as far as one request is
concerned: its row is left alone, closed or deleted, and its journal keys are not used. -/
structure BillingDB.Interferes (requestId : String) (db db' : BillingDB) : Prop where
  reservation : ∀ k r, normalizeUserQuotaRequest requestId = .ok k →
    db'.wallet.reservations.byKey k = some r → r.status = .active →
    db.wallet.reservations.byKey k = some r
  resizeKey : ∀ k v, normalizeUserQuotaRequest requestId = .ok k →
    db.wallet.transactions.byKey (reservationResizeKey k v) = none →
    db'.wallet.transactions.byKey (reservationResizeKey k v) = none
  record : ∀ k r, normalizeSubscriptionRequest requestId = .ok k →
    db'.subscriptions.records.byKey k = some r → r.status = .consumed →
    db.subscriptions.records.byKey k = some r
  recordKey : ∀ k v, normalizeSubscriptionRequest requestId = .ok k →
    db.subscriptions.journal.byKey (Prox.resizeKey k v) = none →
    db'.subscriptions.journal.byKey (Prox.resizeKey k v) = none

/-- The request id of a funding source. -/
def FundingSource.requestId : FundingSource → String
  | .wallet w => w.requestId
  | .subscription s => s.requestId

variable {db : BillingDB}

theorem FundingSource.Tracks.interferes {f : FundingSource} {db' : BillingDB} (h : f.Tracks db)
    (hother : db.Interferes f.requestId db') : f.Tracks db' := by
  cases f with
  | wallet w =>
    refine ⟨h.1, fun k r hk hr hactive => ?_⟩
    obtain ⟨hown, hreserved, hversion, hfree⟩ :=
      h.2 k r hk (hother.reservation k r hk hr hactive) hactive
    exact ⟨hown, hreserved, hversion, fun v hv => hother.resizeKey k v hk (hfree v hv)⟩
  | subscription s =>
    refine ⟨h.1, fun k r hk hr hconsumed => ?_⟩
    obtain ⟨hown, hsub, hheld, hfree⟩ := h.2 k r hk (hother.record k r hk hr hconsumed) hconsumed
    exact ⟨hown, hsub, hheld, fun v hv => hother.recordKey k v hk (hfree v hv)⟩

/-- What can happen to a session and its tables: its own next step, or the work of others. -/
inductive SessionEvent where
  | own (e : BillingEvent)
  | others (db : BillingDB)

/-- The system after an event. -/
def BillingSystem.react (s : BillingSystem) : SessionEvent → BillingSystem
  | .own e => s.step e
  | .others db => { s with db }

/-- Others interfere as they may. -/
def SessionEvent.Lawful (s : BillingSystem) : SessionEvent → Prop
  | .own _ => True
  | .others db => s.db.Interferes s.session.funding.requestId db

/-! ## What `Reserve` returns -/

/-- The token call of `Reserve`. -/
def reserveToken (env : BillingEnv) (info : RelayInfo) (delta : Int) (tokens : Table Token) :
    Except Err Unit × Table Token :=
  if info.isPlayground then (.ok (), tokens) else preConsumeTokenQuota env info delta tokens

/-- The token allows to take `delta`. -/
def TokenAllows (env : BillingEnv) (info : RelayInfo) (delta : Int) : Prop :=
  info.isPlayground = true ∨ ∃ remainQuota, env.tokenRemain = .ok remainQuota ∧
    (info.tokenUnlimited = true ∨ delta ≤ remainQuota) ∧ env.tokenFault = none

variable {env : BillingEnv} {info : RelayInfo} {delta quota : Int}

theorem reserveToken_ok_iff {tokens : Table Token} (hpos : 0 < delta) :
    (reserveToken env info delta tokens).1 = .ok () ↔ TokenAllows env info delta := by
  have hargs : failIf (delta < 0) (.text "quota 不能为负数！") = (.ok () : Except Err Unit) := by
    rw [failIf_eq_ok]
    omega
  unfold reserveToken TokenAllows
  split
  · next hplayground => simp [hplayground]
  next hplayground =>
  unfold preConsumeTokenQuota
  rw [if_neg (by omega), if_neg (by simpa using hplayground)]
  split
  · next e he => simp [hplayground, he]
  next remainQuota hremain =>
  split
  · next hshort =>
    simp only [hplayground, hremain, Bool.false_eq_true, false_or, Except.ok.injEq, exists_eq_left']
    constructor
    · nofun
    · rintro ⟨hallows, -⟩
      rcases hallows with hunlimited | hle
      · rw [hshort.1] at hunlimited
        cases hunlimited
      · omega
  · next hcovers =>
    have hallows : info.tokenUnlimited = true ∨ delta ≤ remainQuota := by
      by_contra hno
      rw [not_or] at hno
      exact hcovers ⟨by simpa using hno.1, by omega⟩
    simp only [hplayground, hremain, Bool.false_eq_true, false_or, Except.ok.injEq, exists_eq_left',
      hallows, true_and]
    unfold decreaseTokenQuota changeTokenQuota
    rw [checked_ok hargs]
    cases hfault : env.tokenFault with
    | none => simp [transaction, pure, Except.pure]
    | some e => simp [transaction]

/-- A refused token call changes nothing. -/
theorem reserveToken_error {tokens : Table Token} {e : Err}
    (h : (reserveToken env info delta tokens).1 = .error e) :
    (reserveToken env info delta tokens).2 = tokens := by
  unfold reserveToken at h ⊢
  split
  · rfl
  next hplayground =>
  rw [if_neg hplayground] at h
  unfold preConsumeTokenQuota at h ⊢
  split
  · rfl
  next hnonneg =>
  rw [if_neg hnonneg, if_neg hplayground] at h
  split
  · rfl
  next remainQuota hremain =>
  rw [hremain] at h
  dsimp only at h
  split
  · rfl
  next hcovers =>
  rw [if_neg hcovers] at h
  exact changeTokenQuota_error h

variable {s : BillingSystem}

namespace BillingSystem

/-- The error of `Reserve`: that of the funding source, or that of the token. -/
def reserveResult (env : BillingEnv) (targetQuota : Int) (s : BillingSystem) : Except Err Unit :=
  let b := s.session
  if b.settled || b.refunded || b.trusted || decide (targetQuota ≤ b.preConsumedQuota) then .ok ()
  else
    let delta := targetQuota - b.preConsumedQuota
    let f := b.funding.resize env delta s.db
    f.result >>= fun _ => (reserveToken env b.relayInfo delta f.db.tokens).1

/-- The session is open and not trusted, and no other call has the lock. -/
structure Reservable (s : BillingSystem) : Prop where
  settling : s.settling = none
  settled : s.session.settled = false
  refunded : s.session.refunded = false
  trusted : s.session.trusted = false

/-- What `Reserve` leaves of session and tables. -/
structure Leaves (s' : BillingSystem) (funding : FundingSource) (preConsumedQuota : Int)
    (db : BillingDB) : Prop where
  funding : s'.session.funding = funding
  preConsumedQuota : s'.session.preConsumedQuota = preConsumedQuota
  db : s'.db = db

section Reserve

variable {targetQuota : Int}

/-- Nothing is reserved when the target is reached already. -/
theorem reserve_idle (h : targetQuota ≤ s.session.preConsumedQuota) :
    s.reserveResult env targetQuota = .ok () ∧ s.reserve env targetQuota = s := by
  unfold reserveResult reserve
  simp [h]

/-- The three ways in which a reservation of more can end. -/
theorem reserve_cases (hsettled : s.session.settled = false)
    (hrefunded : s.session.refunded = false) (htrusted : s.session.trusted = false)
    (h : s.session.preConsumedQuota < targetQuota) {f : FundingResult}
    (hdelta : delta = targetQuota - s.session.preConsumedQuota)
    (hf : f = s.session.funding.resize env delta s.db) :
    (∃ e, f.result = .error e ∧ s.reserveResult env targetQuota = .error e ∧
      (s.reserve env targetQuota).Leaves f.funding s.session.preConsumedQuota f.db) ∨
    (f.result = .ok () ∧ ∃ e, (reserveToken env s.session.relayInfo delta f.db.tokens).1 = .error e ∧
      s.reserveResult env targetQuota = .error e ∧
      let r := f.funding.resize { env with fault := env.rollbackFault } (-delta) f.db
      (s.reserve env targetQuota).Leaves r.funding s.session.preConsumedQuota r.db) ∨
    (f.result = .ok () ∧ (reserveToken env s.session.relayInfo delta f.db.tokens).1 = .ok () ∧
      s.reserveResult env targetQuota = .ok () ∧
      (s.reserve env targetQuota).Leaves f.funding targetQuota
        { f.db with tokens := (reserveToken env s.session.relayInfo delta f.db.tokens).2 }) := by
  subst hf hdelta
  have hgo : (s.session.settled || s.session.refunded || s.session.trusted
      || decide (targetQuota ≤ s.session.preConsumedQuota)) = false := by
    simp [hsettled, hrefunded, htrusted, h]
  unfold reserveResult reserve
  dsimp only
  rw [if_neg (by simp [hgo]), if_neg (by simp [hgo])]
  generalize hdelta : targetQuota - s.session.preConsumedQuota = delta
  generalize s.session.funding.resize env delta s.db = f
  cases hresult : f.result with
  | error e => exact .inl ⟨e, rfl, rfl, rfl, rfl, rfl⟩
  | ok u =>
    right
    unfold reserveToken
    generalize ht : (if s.session.relayInfo.isPlayground then (.ok (), f.db.tokens)
      else preConsumeTokenQuota env s.session.relayInfo delta f.db.tokens) = t
    cases hcall : t.1 with
    | error e =>
      left
      have htokens : t.2 = f.db.tokens := ht ▸ reserveToken_error (by
        unfold reserveToken
        rw [ht]
        exact hcall)
      refine ⟨rfl, e, rfl, rfl, ?_⟩
      rw [htokens]
      exact ⟨rfl, rfl, rfl⟩
    | ok v =>
      right
      obtain ⟨info, hinfo, -, -⟩ := BillingSession.syncRelayInfo_eq { s.session with
        funding := f.funding
        preConsumedQuota := s.session.preConsumedQuota + delta
        tokenConsumed := s.session.tokenConsumed + delta }
      refine ⟨rfl, rfl, rfl, ?_⟩
      rw [hinfo]
      exact ⟨rfl, by show s.session.preConsumedQuota + delta = targetQuota; omega, rfl⟩

end Reserve

/-! ## The invariant -/

/-- What is known of a session in every reachable state. -/
structure Backed (s : BillingSystem) : Prop where
  tracks : s.session.funding.Tracks s.db
  nonneg : 0 ≤ s.session.preConsumedQuota

section Steps

theorem Leaves.backed {s' : BillingSystem} {funding : FundingSource}
    (h : s'.Leaves funding quota db) (htracks : funding.Tracks db) (hnonneg : 0 ≤ quota) :
    s'.Backed := by
  constructor
  · rw [h.funding, h.db]
    exact htracks
  · rw [h.preConsumedQuota]
    exact hnonneg

theorem Backed.reserve (h : s.Backed) (env : BillingEnv) (targetQuota : Int) :
    (s.reserve env targetQuota).Backed := by
  by_cases hidle : (s.session.settled || s.session.refunded || s.session.trusted
      || decide (targetQuota ≤ s.session.preConsumedQuota)) = true
  · rw [BillingSystem.reserve, if_pos hidle]
    exact h
  simp only [Bool.not_eq_true, Bool.or_eq_false_iff, decide_eq_false_iff_not, not_le] at hidle
  obtain ⟨⟨⟨hsettled, hrefunded⟩, htrusted⟩, hlt⟩ := hidle
  have hnonneg := h.nonneg
  have hresized := h.tracks.resize_keeps env (targetQuota - s.session.preConsumedQuota)
  -- the lock is not looked at by the call itself
  rcases reserve_cases hsettled hrefunded htrusted hlt rfl rfl with
    ⟨e, -, -, hleaves⟩ | ⟨-, e, -, -, hleaves⟩ | ⟨-, -, -, hleaves⟩
  · exact hleaves.backed hresized hnonneg
  · exact hleaves.backed (hresized.resize_keeps _ _) hnonneg
  · exact hleaves.backed (hresized.of_tokens _) (by omega)

theorem Backed.settle (h : s.Backed) (env : BillingEnv) (actualQuota : Int) :
    (s.settle env actualQuota).Backed := by
  have hsettled := h.tracks.settle env (actualQuota - s.session.preConsumedQuota)
  unfold BillingSystem.settle
  dsimp only
  split
  · exact h
  · split
    · exact ⟨h.tracks, h.nonneg⟩
    · split
      · exact ⟨hsettled, h.nonneg⟩
      · exact ⟨hsettled, h.nonneg⟩

theorem Backed.settleToken (h : s.Backed) (env : BillingEnv) (actualQuota : Int) :
    (s.settleToken env actualQuota).Backed := by
  unfold BillingSystem.settleToken
  obtain ⟨info, hfinish, -, -⟩ :=
    finishSettle_eq (actualQuota - s.session.preConsumedQuota) s.session
  dsimp only
  rw [hfinish]
  exact ⟨h.tracks.of_tokens _, h.nonneg⟩

theorem Backed.refund (h : s.Backed) : s.refund.Backed := by
  unfold BillingSystem.refund
  split
  · exact h
  · exact ⟨h.tracks, h.nonneg⟩

theorem Backed.advanceTask (h : s.Backed) (env : BillingEnv) : (s.advanceTask env).Backed := by
  have hrefunded := h.tracks.refund env
  unfold BillingSystem.advanceTask
  split
  · exact h
  · split <;> exact ⟨h.tracks, h.nonneg⟩
  · dsimp only
    split <;> exact ⟨hrefunded, h.nonneg⟩
  · split
    · exact ⟨h.tracks.of_tokens _, h.nonneg⟩
    · exact ⟨h.tracks, h.nonneg⟩

/-- **Step lemma**: the calls of the session and the lawful work of others keep the session backed. -/
theorem Backed.react (h : s.Backed) {e : SessionEvent} (he : e.Lawful s) : (s.react e).Backed := by
  cases e with
  | others db => exact ⟨h.tracks.interferes he, h.nonneg⟩
  | own e =>
    show (s.step e).Backed
    unfold BillingSystem.step
    split
    · exact h.reserve _ _
    · exact h.settle _ _
    · exact h.refund
    · exact h.settleToken _ _
    · exact h.advanceTask _
    · exact h

end Steps

/-- A session right after its creation, for a request that no ledger knows. -/
inductive Created (s : BillingSystem) : Prop
  | wallet (env : BillingEnv) (info : RelayInfo) (quota : Int) (trusted : Bool) (db : BillingDB)
      (hquota : 0 ≤ quota) (hnew : db.Unknown info.requestId)
      (hopen : openWallet env info quota trusted db = .ok s)
  | subscription (env : BillingEnv) (info : RelayInfo) (quota : Int) (db : BillingDB)
      (hnew : db.Unknown info.requestId) (hopen : openSubscription env info quota db = .ok s)

theorem backed_openWallet {trusted : Bool} (hquota : 0 ≤ quota) (hnew : db.Unknown info.requestId)
    (h : openWallet env info quota trusted db = .ok s) : s.Backed := by
  have hnonneg : 0 ≤ (if trusted then 0 else quota) := by split <;> omega
  unfold openWallet at h
  generalize (if trusted then 0 else quota) = effectiveQuota at h hnonneg
  simp only [bind_eq_ok] at h
  obtain ⟨u, -, v, hres, h⟩ := h
  cases h
  obtain ⟨info', hinfo, -, -⟩ := BillingSession.syncRelayInfo_eq
    { relayInfo := info
      funding := .wallet { requestId := info.requestId, userId := info.userId
                           consumed := if 0 < effectiveQuota then effectiveQuota else 0
                           sourceType := "api_billing" }
      preConsumedQuota := effectiveQuota
      tokenConsumed := if 0 < effectiveQuota then effectiveQuota else 0
      trusted }
  by_cases hpos : 0 < effectiveQuota
  · simp only [if_pos hpos] at hres hinfo ⊢
    exact ⟨reserveUserQuota_tracks hnew.1 hres, hnonneg⟩
  · simp only [if_neg hpos] at hinfo ⊢
    -- nothing was pre-consumed, so there is no row
    refine ⟨⟨le_rfl, fun k r hk hr _ => ?_⟩, hnonneg⟩
    rw [(hnew.1 k hk).1] at hr
    cases hr

theorem backed_openSubscription (hnew : db.Unknown info.requestId)
    (h : openSubscription env info quota db = .ok s) : s.Backed := by
  unfold openSubscription at h
  generalize (if quota ≤ 0 then 1 else quota) = subConsume at h
  simp only [bind_eq_ok] at h
  obtain ⟨u, -, res, hres, h⟩ := h
  cases h
  obtain ⟨info', hinfo, -, -⟩ := BillingSession.syncRelayInfo_eq
    { relayInfo := info
      funding := .subscription
        { requestId := info.requestId, userId := info.userId, amount := subConsume
          subscriptionId := res.userSubscriptionId, preConsumed := res.preConsumed
          amountTotal := res.amountTotal, amountUsedAfter := res.amountUsedAfter }
      preConsumedQuota := subConsume
      tokenConsumed := subConsume }
  obtain ⟨hnonneg, hquota, htracks⟩ := preConsumeUserSubscription_tracks hnew.2 hres
  exact ⟨⟨hnonneg, htracks _ rfl rfl rfl rfl⟩, hquota ▸ hnonneg⟩

theorem Created.backed (h : s.Created) : s.Backed := by
  cases h with
  | wallet env info quota trusted db hquota hnew hopen => exact backed_openWallet hquota hnew hopen
  | subscription env info quota db hnew hopen => exact backed_openSubscription hnew hopen

/-! ## What is promised of `Reserve` -/

/-- The durable hold of the session. -/
def hold (s : BillingSystem) : Hold := s.session.funding.hold s.db

/-- What `Reserve` promises: while funding source and token cover the target it succeeds, and pre-consumed
quota and durable hold stand at it; and an error changes neither hold nor token nor pre-consumed quota. -/
structure ReserveLaw (env : BillingEnv) (targetQuota : Int) (s : BillingSystem) : Prop where
  succeeds : targetQuota ≤ s.session.preConsumedQuota ∨
      (s.session.funding.Available s.db (targetQuota - s.session.preConsumedQuota) ∧
        TokenAllows env s.session.relayInfo (targetQuota - s.session.preConsumedQuota) ∧
        env.fault = none) →
    s.reserveResult env targetQuota = .ok () ∧
      (s.reserve env targetQuota).session.preConsumedQuota
        = max s.session.preConsumedQuota targetQuota ∧
      (s.reserve env targetQuota).hold.charge = max s.session.preConsumedQuota targetQuota
  unchanged : ∀ e, s.reserveResult env targetQuota = .error e →
    (s.reserve env targetQuota).hold = s.hold ∧
      (s.reserve env targetQuota).db.tokens = s.db.tokens ∧
      (s.reserve env targetQuota).session.preConsumedQuota = s.session.preConsumedQuota

/-- When it keeps the promise: the durable hold stands at the pre-consumed quota, by an active row when
it has to grow, and when the token refuses the row can be moved back. -/
structure ReserveCondition (env : BillingEnv) (targetQuota : Int) (s : BillingSystem) : Prop where
  idle : targetQuota ≤ s.session.preConsumedQuota → s.hold.charge = s.session.preConsumedQuota
  grows : s.session.preConsumedQuota < targetQuota →
    s.session.funding.Available s.db (targetQuota - s.session.preConsumedQuota) →
    TokenAllows env s.session.relayInfo (targetQuota - s.session.preConsumedQuota) →
    env.fault = none → s.hold = .active s.session.preConsumedQuota
  rollsBack : s.session.preConsumedQuota < targetQuota → (∃ q, s.hold = .active q) →
    s.session.funding.Room s.db (targetQuota - s.session.preConsumedQuota) →
    ¬ TokenAllows env s.session.relayInfo (targetQuota - s.session.preConsumedQuota) →
    env.fault = none → env.rollbackFault = none

section Reserve

variable {targetQuota : Int}

theorem Leaves.hold {s' : BillingSystem} {funding : FundingSource} (h : s'.Leaves funding quota db) :
    s'.hold = funding.hold db := by
  rw [BillingSystem.hold, h.funding, h.db]

/-- The condition is enough. -/
theorem Backed.reserveLaw (h : s.Backed) (hs : s.Reservable) (hdb : s.db.Int64)
    (htarget : targetQuota < 2 ^ 63) (hc : ReserveCondition env targetQuota s) :
    ReserveLaw env targetQuota s := by
  have hnonneg := h.nonneg
  rcases le_or_gt targetQuota s.session.preConsumedQuota with hle | hlt
  · obtain ⟨hok, heq⟩ := reserve_idle hle
    refine ⟨fun _ => ⟨hok, ?_, ?_⟩, fun e he => ?_⟩
    · rw [heq]
      omega
    · rw [heq, hc.idle hle]
      omega
    · rw [hok] at he
      cases he
  have hcovered : ¬ targetQuota ≤ s.session.preConsumedQuota := not_le.mpr hlt
  generalize hdelta : targetQuota - s.session.preConsumedQuota = delta
  have hpos : 0 < delta := by omega
  have hconsumed := h.tracks.consumed_nonneg
  obtain ⟨f, hf⟩ : ∃ f, f = s.session.funding.resize env delta s.db := ⟨_, rfl⟩
  have hcase := h.tracks.resize env delta
  rw [← hf] at hcase
  rcases reserve_cases hs.settled hs.refunded hs.trusted hlt hdelta.symm hf with
    ⟨e, hresult, herror, hleaves⟩ | ⟨hresult, e, htoken, herror, hleaves⟩ |
    ⟨hresult, htoken, hok, hleaves⟩
  · -- the funding source refuses, so it does not cover the target
    refine ⟨fun hcovers => ?_, fun e he => ?_⟩
    · obtain ⟨havailable, hallows, hfault⟩ := hcovers.resolve_left hcovered
      have hhold := hc.grows hlt havailable hallows hfault
      rw [hdelta] at havailable
      have hok : f.result = .ok () := by
        rw [hf]
        exact h.tracks.resize_ok hhold (havailable.room hdb hpos) (by omega) hfault
      rw [hresult] at hok
      cases hok
    · rcases hcase with ⟨-, hfunding, hdb'⟩ | hresized
      · refine ⟨?_, ?_, hleaves.preConsumedQuota⟩
        · rw [hleaves.hold, hfunding, hdb', BillingSystem.hold]
        · rw [hleaves.db, hdb']
      · rw [hresized.ok] at hresult
        cases hresult
  · -- the token refuses, and the row is moved back
    have hrefuses : ¬ TokenAllows env s.session.relayInfo delta := by
      intro hallows
      rw [(reserveToken_ok_iff hpos).mpr hallows] at htoken
      cases htoken
    rcases hcase with ⟨⟨e', he'⟩, -⟩ | hresized
    · rw [he'] at hresult
      cases hresult
    refine ⟨fun hcovers => ?_, fun e he => ?_⟩
    · obtain ⟨-, hallows, -⟩ := hcovers.resolve_left hcovered
      exact absurd (hdelta ▸ hallows) hrefuses
    have hrollback : env.rollbackFault = none := by
      refine hc.rollsBack hlt ⟨_, hresized.found⟩ ?_ ?_ hresized.fault
      · rw [hdelta]
        exact hresized.fits hpos hdb
      · rw [hdelta]
        exact hrefuses
    have hback : (f.funding.resize { env with fault := env.rollbackFault } (-delta) f.db).result
        = .ok () := by
      refine hresized.tracks.resize_ok hresized.hold (hresized.room hpos (by omega) hdb) ?_ hrollback
      rw [hresized.consumed]
      omega
    rcases hresized.tracks.resize { env with fault := env.rollbackFault } (-delta) with
      ⟨⟨e', he'⟩, -⟩ | hrestored
    · rw [he'] at hback
      cases hback
    refine ⟨?_, ?_, hleaves.preConsumedQuota⟩
    · rw [hleaves.hold, hrestored.hold, hresized.consumed, BillingSystem.hold, hresized.found]
      congr 1
      omega
    · rw [hleaves.db, hrestored.tokens, hresized.tokens]
  · -- both go through
    refine ⟨fun hcovers => ?_, fun e he => ?_⟩
    · obtain ⟨havailable, hallows, hfault⟩ := hcovers.resolve_left hcovered
      have hhold := hc.grows hlt havailable hallows hfault
      rcases hcase with ⟨⟨e', he'⟩, -⟩ | hresized
      · rw [he'] at hresult
        cases hresult
      have hquota : s.session.funding.consumed = s.session.preConsumedQuota :=
        Hold.active.inj (hresized.found.symm.trans hhold)
      refine ⟨hok, ?_, ?_⟩
      · rw [hleaves.preConsumedQuota]
        omega
      · rw [hleaves.hold, FundingSource.hold_tokens, hresized.hold]
        show s.session.funding.consumed + delta = _
        omega
    · rw [hok] at he
      cases he

/-- The condition is needed. -/
theorem Backed.reserveCondition (h : s.Backed) (hs : s.Reservable)
    (hlaw : ReserveLaw env targetQuota s) : ReserveCondition env targetQuota s := by
  have hconsumed := h.tracks.consumed_nonneg
  obtain ⟨f, hf⟩ : ∃ f, f = s.session.funding.resize env (targetQuota - s.session.preConsumedQuota)
    s.db := ⟨_, rfl⟩
  have hcase := h.tracks.resize env (targetQuota - s.session.preConsumedQuota)
  rw [← hf] at hcase
  refine ⟨fun hle => ?_, fun hlt havailable hallows hfault => ?_,
    fun hlt ⟨q, hhold⟩ hroom hrefuses hfault => ?_⟩
  · obtain ⟨-, -, hcharge⟩ := hlaw.succeeds (.inl hle)
    rw [(reserve_idle hle).2] at hcharge
    omega
  · obtain ⟨hok, -, hcharge⟩ := hlaw.succeeds (.inr ⟨havailable, hallows, hfault⟩)
    rcases reserve_cases hs.settled hs.refunded hs.trusted hlt rfl hf with
      ⟨e, -, herror, -⟩ | ⟨-, e, -, herror, -⟩ | ⟨hresult, -, -, hleaves⟩
    · rw [hok] at herror
      cases herror
    · rw [hok] at herror
      cases herror
    rcases hcase with ⟨⟨e', he'⟩, -⟩ | hresized
    · rw [he'] at hresult
      cases hresult
    -- the hold stands at the target, so it stood at the pre-consumed quota
    rw [hleaves.hold, FundingSource.hold_tokens, hresized.hold] at hcharge
    have hcharge : s.session.funding.consumed + (targetQuota - s.session.preConsumedQuota)
        = max s.session.preConsumedQuota targetQuota := hcharge
    rw [BillingSystem.hold, hresized.found]
    congr 1
    omega
  · cases hrollback : env.rollbackFault with
    | none => rfl
    | some e₀ =>
      exfalso
      have hok : f.result = .ok () := by
        rw [hf]
        exact h.tracks.resize_ok hhold hroom (by omega) hfault
      rcases hcase with ⟨⟨e', he'⟩, -⟩ | hresized
      · rw [he'] at hok
        cases hok
      rcases reserve_cases hs.settled hs.refunded hs.trusted hlt rfl hf with
        ⟨e, hresult, -, -⟩ | ⟨-, e, -, herror, hleaves⟩ | ⟨-, htoken, -, -⟩
      · rw [hok] at hresult
        cases hresult
      · -- the row cannot be moved back, so it stays raised
        obtain ⟨hsame, -, -⟩ := hlaw.unchanged e herror
        rcases hresized.tracks.resize { env with fault := env.rollbackFault }
            (-(targetQuota - s.session.preConsumedQuota)) with ⟨-, hfunding, hdb'⟩ | hrestored
        · rw [hleaves.hold, hfunding, hdb', hresized.hold, BillingSystem.hold, hresized.found] at hsame
          have := Hold.active.inj hsame
          omega
        · have hnone : env.rollbackFault = none := hrestored.fault
          rw [hrollback] at hnone
          cases hnone
      · exact hrefuses ((reserveToken_ok_iff (by omega)).mp htoken)

end Reserve

/-- **When `Reserve` keeps its promise.** In every state that a session reaches by its own calls, with
any faults and beside the lawful work of others, while it is open and not trusted: `Reserve` succeeds
whenever funding source and token cover the target, with the durable hold at the new quota, and leaves
everything as it was when it fails, if and only if the durable hold stands at the pre-consumed quota, by
an active row where it has to grow, and a refused token meets no failing rollback. -/
theorem reserve_law_iff {s₀ : BillingSystem} (hcreated : s₀.Created) (events : List SessionEvent)
    (hlawful : Along react (fun s e => e.Lawful s) s₀ events) (env : BillingEnv) (targetQuota : Int)
    (htarget : targetQuota < 2 ^ 63) :
    let s := run react s₀ events
    s.Reservable → s.db.Int64 →
      (ReserveLaw env targetQuota s ↔ ReserveCondition env targetQuota s) := by
  intro s hs hdb
  have hbacked : s.Backed :=
    run_keeps_along (fun _ _ h he => h.react he) hcreated.backed hlawful
  exact ⟨hbacked.reserveCondition hs, hbacked.reserveLaw hs hdb htarget⟩

/-- The sample request reserves 150 units, and then 200. -/
theorem reserve_law_sample :
    ReserveLaw .sample 200 (run react .sample [.own (.reserve 150 .sample)]) := by
  have hunknown : BillingDB.sample.Unknown RelayInfo.sample.requestId :=
    ⟨fun _ _ => ⟨rfl, fun _ => rfl⟩, fun _ _ => ⟨rfl, fun _ => rfl⟩⟩
  have hcreated : BillingSystem.sample.Created :=
    .wallet .sample .sample 100 false .sample (by decide) hunknown
      (eq_ok_of_toOption (Option.some_get _).symm)
  have hs : (run react .sample [.own (.reserve 150 .sample)]).Reservable :=
    ⟨by decide +kernel, by decide +kernel, by decide +kernel, by decide +kernel⟩
  have hdb : (run react .sample [.own (.reserve 150 .sample)]).db.Int64 :=
    ⟨by decide +kernel, by decide +kernel⟩
  refine (reserve_law_iff hcreated [.own (.reserve 150 .sample)] ⟨trivial, trivial⟩ .sample 200
    (by decide) hs hdb).mpr ⟨fun hle => ?_, fun _ _ _ _ => ?_, fun _ _ _ _ _ => rfl⟩
  · exact absurd hle (by decide +kernel)
  · decide +kernel

/-- The session of the sample request when nothing is pre-consumed. -/
def sampleFree : BillingSystem := (openWallet .sample .sample 0 false .sample).toOption.get (by decide)

/-- **A request that pre-consumed nothing cannot reserve.** User and token have hundreds of units, but the
wallet has no row to raise, so the reservation of 50 units fails. -/
theorem reserve_fails_without_row :
    sampleFree.Created ∧ sampleFree.Reservable ∧ sampleFree.db.Int64 ∧
      sampleFree.session.funding.Available sampleFree.db 50 ∧
      TokenAllows .sample sampleFree.session.relayInfo 50 ∧
      sampleFree.reserveResult .sample 50 = .error (.sentinel .recordNotFound) ∧
      ¬ ReserveLaw .sample 50 sampleFree := by
  have hunknown : BillingDB.sample.Unknown RelayInfo.sample.requestId :=
    ⟨fun _ _ => ⟨rfl, fun _ => rfl⟩, fun _ _ => ⟨rfl, fun _ => rfl⟩⟩
  have hcreated : sampleFree.Created :=
    .wallet .sample .sample 0 false .sample le_rfl hunknown
      (eq_ok_of_toOption (Option.some_get _).symm)
  have havailable : sampleFree.session.funding.Available sampleFree.db 50 :=
    ⟨by decide, { id := 1, quota := 1000 }, by decide, by decide⟩
  have hallows : TokenAllows .sample sampleFree.session.relayInfo 50 :=
    .inr ⟨500, rfl, .inr (by decide), rfl⟩
  have herror : sampleFree.reserveResult .sample 50 = .error (.sentinel .recordNotFound) := by
    decide +kernel
  refine ⟨hcreated, ⟨by decide, by decide, by decide, by decide⟩,
    ⟨by decide, by decide⟩, havailable, hallows, herror, fun hlaw => ?_⟩
  obtain ⟨hok, -, -⟩ := hlaw.succeeds (.inr ⟨havailable, hallows, rfl⟩)
  cases herror.symm.trans hok

end BillingSystem

end Prox
