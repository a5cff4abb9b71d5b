import Prox.Billing.Session

/-! # Token and funding source agree

Once no call and no goroutine is under way, a billing session has taken the same net quota from its
token and from its funding source (nothing from the token in the playground): nothing after a refund,
the settled quota after a settlement. This holds in every interleaving in which no ledger or token
call fails and no `Settle` starts while a refund goroutine is pending.

The last condition is needed: unlike `Reserve`, `Settle` does not look at `refunded`, so a settlement
that overtakes the goroutine is followed by a second return of the token's quota. -/

namespace Prox

open BillingDB BillingSystem

attribute [local irreducible] trimSpace

/-! ## Funding sources -/

/-- Whether a funding source is a subscription, whose counter is a 64-bit integer. -/
def FundingSource.isSubscription : FundingSource → Bool
  | .wallet _ => false
  | .subscription _ => true

/-- The funding source stands at a hold of the session. -/
def FundingSource.StandsAt (f : FundingSource) (db : BillingDB) (before : Int) (hold : Hold) : Prop :=
  match f with
  | .wallet w => db.wallet.StandsAt w.requestId w.userId before hold
  | .subscription s =>
    db.subscriptions.StandsAt s.requestId s.subscriptionId before hold

/-- A hold of this quota does not overflow the counter of a subscription. -/
def FundingSource.Fits (f : FundingSource) (before quota : Int) : Prop :=
  f.isSubscription = true → before + quota < 2 ^ 63

/-- What a method of a funding source that met no failing call leaves behind: the hold, the quota it
remembers, the same kind of source, and the token table as it was. -/
structure FundingResult.Leaves (r : FundingResult) (f : FundingSource) (db : BillingDB) (before : Int)
    (hold : Hold) (consumed : Int) : Prop where
  stands : r.funding.StandsAt r.db before hold
  consumed_eq : r.funding.consumed = consumed
  same_kind : r.funding.isSubscription = f.isSubscription
  tokens : r.db.tokens = db.tokens

section Funding

variable {f : FundingSource} {db : BillingDB} {before delta : Int} {hold : Hold} {env : BillingEnv}

/-- A ledger call on the wallet that did not fail. -/
theorem BillingDB.onWallet_leaves {old new : WalletFunding}
    {call : Wallet → Except Err Unit × Wallet}
    (hok : (db.onWallet old new call).failed = false)
    (hstands : (call db.wallet).1 = .ok () →
      (call db.wallet).2.StandsAt new.requestId new.userId before hold) :
    (db.onWallet old new call).result = .ok () ∧ (call db.wallet).1 = .ok () ∧
      (db.onWallet old new call).Leaves (.wallet old) db before hold new.consumed := by
  cases hr : (call db.wallet).1 with
  | error e => simp [onWallet, hr] at hok
  | ok u =>
    have hresult : db.onWallet old new call
        = ⟨.ok (), .wallet new, { db with wallet := (call db.wallet).2 }, false⟩ := by
      simp [onWallet, hr]
    rw [hresult]
    exact ⟨rfl, rfl, hstands hr, rfl, rfl, rfl⟩

/-- A ledger call on the subscriptions that did not fail. -/
theorem BillingDB.onSubscription_leaves {old new : SubscriptionFunding}
    {call : SubscriptionDB → Except Err Unit × SubscriptionDB}
    (hok : (db.onSubscription old new call).failed = false)
    (hstands : (call db.subscriptions).1 = .ok () →
      (call db.subscriptions).2.StandsAt new.requestId new.subscriptionId before hold) :
    (db.onSubscription old new call).result = .ok () ∧ (call db.subscriptions).1 = .ok () ∧
      (db.onSubscription old new call).Leaves (.subscription old) db before hold
        new.preConsumed := by
  cases hr : (call db.subscriptions).1 with
  | error e => simp [onSubscription, hr] at hok
  | ok u =>
    have hresult : db.onSubscription old new call
        = ⟨.ok (), .subscription new, { db with subscriptions := (call db.subscriptions).2 },
            false⟩ := by
      simp [onSubscription, hr]
    rw [hresult]
    exact ⟨rfl, rfl, hstands hr, rfl, rfl, rfl⟩

/-- A resize that does not fail makes the hold active at its target. -/
theorem FundingSource.StandsAt.resize (h : f.StandsAt db before hold)
    (hfits : f.Fits before (f.consumed + delta)) (hok : (f.resize env delta db).failed = false) :
    (f.resize env delta db).result = .ok () ∧
      (f.resize env delta db).Leaves f db before (.active (f.consumed + delta))
        (f.consumed + delta) := by
  cases f with
  | wallet w =>
    obtain ⟨hresult, -, hleaves⟩ := onWallet_leaves hok fun hcall => h.resize hcall
    exact ⟨hresult, hleaves⟩
  | subscription s =>
    obtain ⟨hresult, -, hleaves⟩ := onSubscription_leaves hok fun hcall =>
      h.resize (hfits rfl) hcall
    exact ⟨hresult, hleaves⟩

/-- A settlement that does not fail either refuses a negative quota and changes nothing, or settles
the hold, which was not refunded. -/
theorem FundingSource.StandsAt.settle (h : f.StandsAt db before hold)
    (hfits : f.Fits before (f.consumed + delta)) (hok : (f.settle env delta db).failed = false) :
    ((∃ e, (f.settle env delta db).result = .error e) ∧ (f.settle env delta db).funding = f ∧
        (f.settle env delta db).db = db) ∨
      ((f.settle env delta db).result = .ok () ∧ hold ≠ .refunded ∧
        (f.settle env delta db).Leaves f db before (.settled (f.consumed + delta))
          (f.consumed + delta)) := by
  cases f with
  | wallet w =>
    unfold FundingSource.settle at hok ⊢
    dsimp only at hok ⊢
    split at hok
    · next hneg => rw [if_pos hneg]; exact .inl ⟨⟨_, rfl⟩, rfl, rfl⟩
    · next hneg =>
      rw [if_neg hneg]
      obtain ⟨hresult, hcall, hleaves⟩ := onWallet_leaves hok fun hcall =>
        (h.settle hcall).1
      exact .inr ⟨hresult, (h.settle hcall).2, hleaves⟩
  | subscription s =>
    unfold FundingSource.settle at hok ⊢
    dsimp only at hok ⊢
    split at hok
    · next hneg => rw [if_pos hneg]; exact .inl ⟨⟨_, rfl⟩, rfl, rfl⟩
    · next hneg =>
      rw [if_neg hneg]
      obtain ⟨hresult, hcall, hleaves⟩ := onSubscription_leaves hok fun hcall =>
        (h.settle (hfits rfl) hcall).1
      exact .inr ⟨hresult, (h.settle (hfits rfl) hcall).2, hleaves⟩

/-- A refund that does not fail gives the hold back. -/
theorem FundingSource.StandsAt.refund (h : f.StandsAt db before hold) (hfits : f.Fits before 0)
    (hok : (f.refund env db).failed = false) :
    (f.refund env db).result = .ok () ∧ f.StandsAt (f.refund env db).db before .refunded ∧
      (f.refund env db).db.tokens = db.tokens := by
  cases f with
  | wallet w =>
    obtain ⟨hresult, hcall, hleaves⟩ := onWallet_leaves hok fun hcall => h.refund hcall
    refine ⟨hresult, ?_, hleaves.tokens⟩
    show (onWallet db w w _).db.wallet.StandsAt w.requestId w.userId before .refunded
    rw [onWallet, hcall]
    exact h.refund hcall
  | subscription s =>
    have hbefore : before < 2 ^ 63 := by have := hfits rfl; omega
    obtain ⟨hresult, hcall, hleaves⟩ := onSubscription_leaves hok fun hcall =>
      h.refund hbefore hcall
    refine ⟨hresult, ?_, hleaves.tokens⟩
    show (onSubscription db s s _).db.subscriptions.StandsAt s.requestId s.subscriptionId
      before .refunded
    rw [onSubscription, hcall]
    exact h.refund hbefore hcall

end Funding

/-! ## Tokens -/

/-- The token of a request stands at a net decrease; in the playground it is not touched. -/
def TokenAt (tokens : Table Token) (info : RelayInfo) (before decrease : Int) : Prop :=
  if info.isPlayground then ((tokens.byId info.tokenId).map Token.remainQuota).getD 0 = before
  else ∃ t, tokens.byId info.tokenId = some t ∧ t.remainQuota = before - decrease

/-- A change of a token's quota fails and changes nothing, or goes through. -/
theorem changeTokenQuota_cases (fault : Option Err) (id quota delta : Int) (tokens : Table Token) :
    (∃ e, changeTokenQuota fault id quota delta tokens = (.error e, tokens)) ∨
      changeTokenQuota fault id quota delta tokens
        = (.ok (), (tokens.updateWhere (fun t => t.id = id) (Token.charge delta)).1) := by
  rcases checked_transaction_cases (failIf (quota < 0) (.text "quota 不能为负数！")) fault
    (fun _ tokens => (pure ((), (tokens.updateWhere (fun t => t.id = id)
      (Token.charge delta)).1) : Except Err (Unit × Table Token))) tokens with
    ⟨e, he⟩ | ⟨-, ⟨⟩, tokens', -, hbody, he⟩
  · exact .inl ⟨e, he⟩
  · obtain ⟨-, rfl⟩ := Prod.mk.inj (Except.ok.inj hbody)
    exact .inr he

variable {tokens : Table Token} {before delta decrease : Int}

/-- A failing token call changes nothing. -/
theorem changeTokenQuota_error {fault : Option Err} {id quota : Int} {e : Err}
    (h : (changeTokenQuota fault id quota delta tokens).1 = .error e) :
    (changeTokenQuota fault id quota delta tokens).2 = tokens := by
  rcases changeTokenQuota_cases fault id quota delta tokens with ⟨e', he⟩ | he
  · rw [he]
  · rw [he] at h
    cases h

variable {info : RelayInfo}

section

variable (h : TokenAt tokens info before decrease)

include h

/-- A token call that succeeds moves the token. -/
theorem TokenAt.change
    (hplayground : info.isPlayground = false) {fault : Option Err} {quota : Int}
    (hok : (changeTokenQuota fault info.tokenId quota delta tokens).1 = .ok ()) :
    TokenAt (changeTokenQuota fault info.tokenId quota delta tokens).2 info before
      (decrease + delta) := by
  rcases changeTokenQuota_cases fault info.tokenId quota delta tokens with ⟨e, he⟩ | he
  · rw [he] at hok
    cases hok
  rw [he]
  unfold TokenAt at h ⊢
  rw [hplayground] at h ⊢
  obtain ⟨t, ht, hremain⟩ := h
  have hid : t.id = info.tokenId := (Table.byId_eq_some.mp ht).2
  refine ⟨(Token.charge delta).apply t, ?_, ?_⟩
  · rw [Table.byId_updateWhere, ht]
    simp [hid]
  · show t.remainQuota - delta = before - (decrease + delta)
    omega

/-- In the playground every net decrease is as good as another. -/
theorem TokenAt.of_playground
    (hplayground : info.isPlayground = true) (decrease' : Int) :
    TokenAt tokens info before decrease' := by
  unfold TokenAt at h ⊢
  rwa [if_pos hplayground] at h ⊢

/-- A pre-consumption that succeeds moves the token, one that is refused leaves it alone. -/
theorem TokenAt.preConsume (env : BillingEnv)
    (quota : Int) :
    ((preConsumeTokenQuota env info quota tokens).1 = .ok () →
        TokenAt (preConsumeTokenQuota env info quota tokens).2 info before (decrease + quota)) ∧
      (∀ e, (preConsumeTokenQuota env info quota tokens).1 = .error e →
        (preConsumeTokenQuota env info quota tokens).2 = tokens) := by
  unfold preConsumeTokenQuota
  split
  · exact ⟨nofun, fun _ _ => rfl⟩
  · split
    · next hplayground => exact ⟨fun _ => h.of_playground hplayground _, fun _ _ => rfl⟩
    · next hplayground =>
      have hplayground : info.isPlayground = false := by simpa using hplayground
      split
      · exact ⟨nofun, fun _ _ => rfl⟩
      · split
        · exact ⟨nofun, fun _ _ => rfl⟩
        · exact ⟨fun hok => h.change hplayground hok, fun e he => changeTokenQuota_error he⟩

end

variable {env : BillingEnv}

/-- The adjustment of a settlement moves the token from the pre-consumed quota to the actual one. -/
theorem TokenAt.adjust {b : BillingSession} (h : TokenAt tokens b.relayInfo before decrease)
    (hok : errorOf (adjustToken env delta b tokens).1 = none) :
    TokenAt (adjustToken env delta b tokens).2 b.relayInfo before
      (decrease + delta) := by
  obtain ⟨u, hok⟩ := errorOf_eq_none.mp hok
  unfold adjustToken at hok ⊢
  split at hok
  · next hc =>
    rw [if_pos hc]
    split at hok
    · next hpos => rw [if_pos hpos]; exact h.change hc.2 hok
    · next hpos =>
      rw [if_neg hpos]
      unfold increaseTokenQuota at hok ⊢
      rw [neg_neg] at hok ⊢
      exact h.change hc.2 hok
  · next hc =>
    rw [if_neg hc]
    by_cases hdelta : delta = 0
    · rw [hdelta, add_zero]; exact h
    · have hplayground : b.relayInfo.isPlayground = true := by
        by_contra hne
        exact hc ⟨hdelta, by simpa using hne⟩
      exact h.of_playground hplayground _

/-! ## The phases of a session -/

/-- The session between its calls, as long as it is neither settled nor refunded: token and funding
source both hold the pre-consumed quota. -/
structure BillingSystem.Live (s : BillingSystem) : Prop where
  settling : s.settling = none
  refundTask : s.refundTask = .none
  settled : s.session.settled = false
  refunded : s.session.refunded = false
  fundingSettled : s.session.fundingSettled = false
  nonneg : 0 ≤ s.session.preConsumedQuota
  consumed : s.session.funding.consumed = s.session.preConsumedQuota
  tokenConsumed : s.session.tokenConsumed = s.session.preConsumedQuota
  fits : s.session.funding.Fits s.fundingBefore s.session.preConsumedQuota
  /-- A trusted request, or one for nothing, holds nothing yet. -/
  hold : ∃ hold, s.session.funding.StandsAt s.db s.fundingBefore hold ∧
    (hold = .active s.session.preConsumedQuota ∨ (hold = .none ∧ s.session.preConsumedQuota = 0))
  token : TokenAt s.db.tokens s.session.relayInfo s.tokenBefore s.session.preConsumedQuota

/-- `Settle` between its two parts: the funding source is settled, the token not yet. -/
structure BillingSystem.Settling (s : BillingSystem) (actualQuota : Int) : Prop where
  settling : s.settling = some actualQuota
  refundTask : s.refundTask = .none
  refunded : s.session.refunded = false
  hold : s.session.funding.StandsAt s.db s.fundingBefore (.settled actualQuota)
  token : TokenAt s.db.tokens s.session.relayInfo s.tokenBefore s.session.preConsumedQuota

/-- A settled session. -/
structure BillingSystem.Settled (s : BillingSystem) (actualQuota : Int) : Prop where
  settling : s.settling = none
  refundTask : s.refundTask = .none
  settled : s.session.settled = true
  refunded : s.session.refunded = false
  settledQuota : s.settledQuota = some actualQuota
  hold : s.session.funding.StandsAt s.db s.fundingBefore (.settled actualQuota)
  token : TokenAt s.db.tokens s.session.relayInfo s.tokenBefore actualQuota

/-- A refunded session: where its goroutine stands decides what was given back already. -/
structure BillingSystem.Refunded (s : BillingSystem) (hold : Hold) (decrease : Int) : Prop where
  settling : s.settling = none
  settled : s.session.settled = false
  refunded : s.session.refunded = true
  fundingSettled : s.session.fundingSettled = false
  pos : 0 < s.session.preConsumedQuota
  consumed : s.session.funding.consumed = s.session.preConsumedQuota
  fits : s.session.funding.Fits s.fundingBefore s.session.preConsumedQuota
  hold : s.session.funding.StandsAt s.db s.fundingBefore hold
  token : TokenAt s.db.tokens s.session.relayInfo s.tokenBefore decrease

/-- **The invariant of a session**: a call has failed, or the session is in one of its phases. -/
inductive SessionInv (s : BillingSystem) : Prop
  | failed (h : s.callFailed = true)
  | live (h : s.Live)
  | settling (actualQuota : Int) (h : s.Settling actualQuota)
  | settled (actualQuota : Int) (h : s.Settled actualQuota)
  | refunding (h : s.Refunded (.active s.session.preConsumedQuota) s.session.preConsumedQuota)
      (htask : s.refundTask = .check s.session.preConsumedQuota ∨
        ∃ attempts, s.refundTask = .refund s.session.preConsumedQuota attempts)
  | returning (h : s.Refunded .refunded s.session.preConsumedQuota)
      (htask : s.refundTask = .token s.session.preConsumedQuota)
  | refunded (h : s.Refunded .refunded 0) (htask : s.refundTask = .none)

/-! ## The conditions on a run -/

/-- The quota an event asks the funding source to stand at. -/
def BillingEvent.quota : BillingEvent → Int
  | .reserve targetQuota _ => targetQuota
  | .settle actualQuota _ => actualQuota
  | _ => 0

/-- No `Settle` starts while the refund goroutine is pending. -/
def SettlesAlone (s : BillingSystem) : BillingEvent → Prop
  | .settle _ _ => s.refundTask = .none
  | _ => True

/-- The counter of a subscription stays within 64 bits. -/
def FitsCounter (s : BillingSystem) (e : BillingEvent) : Prop :=
  s.session.funding.Fits s.fundingBefore e.quota

instance (s : BillingSystem) (e : BillingEvent) : Decidable (SettlesAlone s e) := by
  cases e <;> unfold SettlesAlone <;> infer_instance

instance (s : BillingSystem) (e : BillingEvent) : Decidable (FitsCounter s e) := by
  unfold FitsCounter FundingSource.Fits
  infer_instance

/-! ## Steps -/

variable {s : BillingSystem}

section Steps

variable {s : BillingSystem}

theorem FundingSource.Fits.of_same_kind {f f' : FundingSource} (h : f.Fits before quota)
    (hkind : f'.isSubscription = f.isSubscription) :
    f'.Fits before quota := fun hsub => h (hkind ▸ hsub)

/-- Only the fields for the logs change when the request is brought in step. -/
theorem BillingSession.syncRelayInfo_eq (b : BillingSession) :
    ∃ info, b.syncRelayInfo = { b with relayInfo := info } ∧
      info.tokenId = b.relayInfo.tokenId ∧ info.isPlayground = b.relayInfo.isPlayground := by
  unfold BillingSession.syncRelayInfo
  cases b.funding <;> exact ⟨_, rfl, rfl, rfl⟩

/-- A token is found by the identity of the request alone. -/
theorem TokenAt.congr {info' : RelayInfo} (h : TokenAt tokens info before decrease)
    (hid : info'.tokenId = info.tokenId) (hplayground : info'.isPlayground = info.isPlayground) :
    TokenAt tokens info' before decrease := by
  unfold TokenAt at h ⊢
  rwa [hid, hplayground]

/-- The funding source of a live session after a change that did not fail. -/
theorem BillingSystem.Live.resize (h : s.Live)
    (hfits : s.session.funding.Fits s.fundingBefore (s.session.preConsumedQuota + delta))
    (hok : (s.session.funding.resize env delta s.db).failed = false) :
    (s.session.funding.resize env delta s.db).result = .ok () ∧
      (s.session.funding.resize env delta s.db).Leaves s.session.funding s.db s.fundingBefore
        (.active (s.session.preConsumedQuota + delta)) (s.session.preConsumedQuota + delta) := by
  obtain ⟨hold, hstands, -⟩ := h.hold
  have hfits' : s.session.funding.Fits s.fundingBefore (s.session.funding.consumed + delta) := by
    rw [h.consumed]; exact hfits
  have hresize := hstands.resize hfits' hok
  rwa [h.consumed] at hresize

theorem BillingSystem.Live.reserve (h : s.Live) (env : BillingEnv) (targetQuota : Int)
    (hfits : s.session.funding.Fits s.fundingBefore targetQuota) :
    SessionInv (s.reserve env targetQuota) := by
  unfold BillingSystem.reserve
  dsimp only
  split
  · exact .live h
  next hc =>
  have hlt : s.session.preConsumedQuota < targetQuota := by
    by_contra hle
    exact hc (by simp [not_lt.mp hle])
  have hsum : s.session.preConsumedQuota + (targetQuota - s.session.preConsumedQuota)
      = targetQuota := by omega
  generalize hdelta : targetQuota - s.session.preConsumedQuota = delta at *
  cases hfailed : (s.session.funding.resize env delta s.db).failed with
  | true =>
    refine .failed ?_
    split
    · simp
    · split <;> simp
  | false =>
    obtain ⟨hresult, hleaves⟩ := h.resize (hsum.symm ▸ hfits) hfailed
    rw [hsum] at hleaves
    generalize s.session.funding.resize env delta s.db = f at *
    rw [hresult]
    dsimp only
    have hkind := hleaves.same_kind
    have htoken : TokenAt f.db.tokens s.session.relayInfo s.tokenBefore
        s.session.preConsumedQuota := by rw [hleaves.tokens]; exact h.token
    have hcharged : ∀ t : Except Err Unit × Table Token,
        t = (if s.session.relayInfo.isPlayground then (.ok (), f.db.tokens)
          else preConsumeTokenQuota env s.session.relayInfo delta f.db.tokens) →
        (t.1 = .ok () → TokenAt t.2 s.session.relayInfo s.tokenBefore targetQuota) ∧
          ∀ e, t.1 = .error e → t.2 = f.db.tokens := by
      rintro t rfl
      split
      · next hplayground => exact ⟨fun _ => htoken.of_playground hplayground _, nofun⟩
      · rw [← hsum]; exact htoken.preConsume env delta
    generalize (if s.session.relayInfo.isPlayground then (.ok (), f.db.tokens)
      else preConsumeTokenQuota env s.session.relayInfo delta f.db.tokens) = t at *
    obtain ⟨hmoved, hrefused⟩ := hcharged t rfl
    split
    · next e herror =>
      -- The token has refused: the funding source is resized back to where it was.
      have hdb : { f.db with tokens := t.2 } = f.db := by rw [hrefused e herror]
      rw [hdb]
      cases hback : (f.funding.resize { env with fault := env.rollbackFault } (-delta) f.db).failed with
      | true => exact .failed (by simp)
      | false =>
        have hquota : f.funding.consumed + -delta = s.session.preConsumedQuota := by
          rw [hleaves.consumed_eq]; omega
        have hfits' : f.funding.Fits s.fundingBefore (f.funding.consumed + -delta) := by
          rw [hquota]; exact h.fits.of_same_kind hkind
        obtain ⟨-, hrestored⟩ := hleaves.stands.resize hfits' hback
        rw [hquota] at hrestored
        refine .live ⟨h.settling, h.refundTask, h.settled, h.refunded, h.fundingSettled, h.nonneg,
          hrestored.consumed_eq, h.tokenConsumed, ?_, ⟨_, hrestored.stands, .inl rfl⟩, ?_⟩
        · exact h.fits.of_same_kind (hrestored.same_kind.trans hkind)
        · rw [hrestored.tokens]
          exact htoken
    · next u hok =>
      obtain ⟨info, hinfo, hid, hplayground⟩ := BillingSession.syncRelayInfo_eq { s.session with
        funding := f.funding
        preConsumedQuota := s.session.preConsumedQuota + delta
        tokenConsumed := s.session.tokenConsumed + delta }
      rw [hinfo]
      have hnonneg := h.nonneg
      refine .live ⟨h.settling, h.refundTask, h.settled, h.refunded, h.fundingSettled, ?_, ?_, ?_, ?_,
        ⟨_, hleaves.stands, .inl ?_⟩, ?_⟩
      · show 0 ≤ s.session.preConsumedQuota + delta
        omega
      · exact hleaves.consumed_eq.trans hsum.symm
      · rw [h.tokenConsumed]
      · rw [hsum]; exact hfits.of_same_kind hkind
      · rw [hsum]
      · rw [hsum]; exact (hmoved hok).congr hid hplayground

/-- Settling the funding source of a live session. -/
theorem BillingSystem.Live.settle (h : s.Live) (env : BillingEnv) (actualQuota : Int)
    (hfits : s.session.funding.Fits s.fundingBefore actualQuota) :
    SessionInv (s.settle env actualQuota) := by
  unfold BillingSystem.settle
  dsimp only
  rw [h.settled, h.fundingSettled, if_neg nofun, if_neg nofun]
  obtain ⟨hold, hstands, -⟩ := h.hold
  have hquota : s.session.funding.consumed + (actualQuota - s.session.preConsumedQuota)
      = actualQuota := by rw [h.consumed]; omega
  generalize actualQuota - s.session.preConsumedQuota = delta at *
  cases hfailed : (s.session.funding.settle env delta s.db).failed with
  | true => refine .failed ?_; split <;> simp
  | false =>
    rcases hstands.settle (hquota.symm ▸ hfits) hfailed with
      ⟨⟨e, hresult⟩, hfunding, hdb⟩ | ⟨hresult, -, hleaves⟩
    · rw [hresult, hfunding, hdb]
      exact .live ⟨h.settling, h.refundTask, rfl, h.refunded, rfl, h.nonneg, h.consumed,
        h.tokenConsumed, h.fits, h.hold, h.token⟩
    · rw [hquota] at hleaves
      rw [hresult]
      refine .settling actualQuota ⟨rfl, h.refundTask, h.refunded, hleaves.stands, ?_⟩
      rw [hleaves.tokens]
      exact h.token

theorem BillingSystem.finishSettle_eq (delta : Int) (b : BillingSession) :
    ∃ info, finishSettle delta b = { b with relayInfo := info, settled := true } ∧
      info.tokenId = b.relayInfo.tokenId ∧ info.isPlayground = b.relayInfo.isPlayground := by
  obtain ⟨info, hinfo, hid, hplayground⟩ := b.syncRelayInfo_eq
  unfold finishSettle
  rw [hinfo]
  dsimp only
  split <;> exact ⟨_, rfl, hid, hplayground⟩

/-- The token of a session that is being settled. -/
theorem BillingSystem.Settling.settleToken {actualQuota : Int} (h : s.Settling actualQuota)
    (env : BillingEnv) : SessionInv (s.settleToken env actualQuota) := by
  unfold BillingSystem.settleToken
  dsimp only
  cases herror : errorOf (adjustToken env (actualQuota - s.session.preConsumedQuota) s.session
      s.db.tokens).1 with
  | some e => exact .failed (by simp)
  | none =>
    have htoken := h.token.adjust herror
    have hsum : s.session.preConsumedQuota + (actualQuota - s.session.preConsumedQuota)
        = actualQuota := by omega
    rw [hsum] at htoken
    obtain ⟨info, hfinish, hid, hplayground⟩ :=
      finishSettle_eq (actualQuota - s.session.preConsumedQuota) s.session
    rw [hfinish]
    exact .settled actualQuota ⟨rfl, h.refundTask, rfl, h.refunded, rfl, h.hold,
      htoken.congr hid hplayground⟩

/-- A live session that is refunded has something to give back. -/
theorem BillingSystem.Live.refund (h : s.Live) : SessionInv s.refund := by
  unfold BillingSystem.refund
  split
  · exact .live h
  next hc =>
  have hneeds : s.session.needsRefundLocked = true := by
    by_contra hno
    exact hc (by simp [hno])
  have hpos : 0 < s.session.preConsumedQuota := by
    unfold BillingSession.needsRefundLocked at hneeds
    rw [h.settled, h.refunded, h.fundingSettled, if_neg nofun, h.tokenConsumed] at hneeds
    split at hneeds
    · next hpos => exact hpos
    · have hconsumed := h.consumed
      split at hneeds
      · next sub hsub =>
        rw [hsub] at hconsumed
        have hheld : 0 < sub.preConsumed := of_decide_eq_true hneeds
        exact hconsumed ▸ hheld
      · cases hneeds
  obtain ⟨hold, hstands, hhold⟩ := h.hold
  obtain rfl : hold = .active s.session.preConsumedQuota := by
    rcases hhold with hhold | ⟨-, hzero⟩
    · exact hhold
    · omega
  exact .refunding ⟨h.settling, h.settled, rfl, h.fundingSettled, hpos, h.consumed, h.fits, hstands,
    h.token⟩ (.inl (by rw [h.tokenConsumed]))

/-- `Reserve` does nothing for a session that is refunded. -/
theorem BillingSystem.Refunded.reserve_eq {hold : Hold} (h : s.Refunded hold decrease)
    (env : BillingEnv) (targetQuota : Int) : s.reserve env targetQuota = s := by
  simp [reserve, h.refunded]

/-- A second `Refund` does nothing. -/
theorem BillingSystem.Refunded.refund_eq {hold : Hold} (h : s.Refunded hold decrease) :
    s.refund = s := by
  simp [refund, h.refunded]

/-- A settlement of a session that was refunded fails or changes nothing. -/
theorem BillingSystem.Refunded.settle (h : s.Refunded .refunded 0) (htask : s.refundTask = .none)
    (env : BillingEnv) (actualQuota : Int)
    (hfits : s.session.funding.Fits s.fundingBefore actualQuota) :
    SessionInv (s.settle env actualQuota) := by
  unfold BillingSystem.settle
  dsimp only
  rw [h.settled, h.fundingSettled, if_neg nofun, if_neg nofun]
  have hquota : s.session.funding.consumed + (actualQuota - s.session.preConsumedQuota)
      = actualQuota := by rw [h.consumed]; omega
  generalize actualQuota - s.session.preConsumedQuota = delta at *
  cases hfailed : (s.session.funding.settle env delta s.db).failed with
  | true => refine .failed ?_; split <;> simp
  | false =>
    rcases h.hold.settle (hquota.symm ▸ hfits) hfailed with
      ⟨⟨e, hresult⟩, hfunding, hdb⟩ | ⟨-, hne, -⟩
    · rw [hresult, hfunding, hdb]
      exact .refunded ⟨h.settling, rfl, h.refunded, rfl, h.pos, h.consumed, h.fits, h.hold, h.token⟩
        htask
    · exact absurd rfl hne

/-- The goroutine of a refund. -/
theorem BillingSystem.Refunded.refundFunding
    (h : s.Refunded (.active s.session.preConsumedQuota) s.session.preConsumedQuota)
    (htask : s.refundTask = .check s.session.preConsumedQuota ∨
      ∃ attempts, s.refundTask = .refund s.session.preConsumedQuota attempts) (env : BillingEnv) :
    SessionInv (s.advanceTask env) := by
  unfold advanceTask
  rcases htask with htask | ⟨attempts, htask⟩
  · rw [htask]
    dsimp only
    have hpos := h.pos
    rw [if_neg (by rw [h.consumed]; omega)]
    exact .refunding ⟨h.settling, h.settled, h.refunded, h.fundingSettled, h.pos, h.consumed, h.fits,
      h.hold, h.token⟩ (.inr ⟨3, rfl⟩)
  · rw [htask]
    dsimp only
    cases hfailed : (s.session.funding.refund env s.db).failed with
    | true => refine .failed ?_; split <;> simp
    | false =>
      have hfits : s.session.funding.Fits s.fundingBefore 0 := fun hsub => by
        have := h.fits hsub
        have := h.pos
        omega
      obtain ⟨hresult, hstands, htokens⟩ := h.hold.refund hfits hfailed
      rw [hresult]
      refine .returning ⟨h.settling, h.settled, h.refunded, h.fundingSettled, h.pos, h.consumed, h.fits,
        hstands, ?_⟩ rfl
      rw [htokens]
      exact h.token

theorem BillingSystem.Refunded.refundToken
    (h : s.Refunded .refunded s.session.preConsumedQuota)
    (htask : s.refundTask = .token s.session.preConsumedQuota) (env : BillingEnv) :
    SessionInv (s.advanceTask env) := by
  unfold advanceTask
  rw [htask]
  dsimp only
  by_cases hplayground : s.session.relayInfo.isPlayground = true
  · rw [if_neg (by simp [hplayground])]
    exact .refunded ⟨h.settling, h.settled, h.refunded, h.fundingSettled, h.pos, h.consumed, h.fits,
      h.hold, h.token.of_playground hplayground 0⟩ rfl
  · have hplayground : s.session.relayInfo.isPlayground = false := by simpa using hplayground
    rw [if_pos ⟨h.pos, hplayground⟩]
    cases herror : errorOf (increaseTokenQuota env.tokenFault s.session.relayInfo.tokenId
        s.session.preConsumedQuota s.db.tokens).1 with
    | some e => exact .failed (by simp)
    | none =>
      obtain ⟨u, hok⟩ := errorOf_eq_none.mp herror
      have htoken := h.token.change hplayground hok
      rw [Int.add_right_neg] at htoken
      exact .refunded ⟨h.settling, h.settled, h.refunded, h.fundingSettled, h.pos, h.consumed, h.fits,
        h.hold, htoken⟩ rfl

theorem BillingSystem.callFailed_step (h : s.callFailed = true) (e : BillingEvent) :
    (s.step e).callFailed = true := by
  unfold BillingSystem.step
  split
  · unfold reserve
    dsimp only
    split
    · exact h
    · split
      · simp [h]
      · split <;> simp [h]
  · unfold settle
    dsimp only
    split
    · exact h
    · split
      · exact h
      · split <;> simp [h]
  · unfold refund
    split <;> exact h
  · simp [settleToken, h]
  · unfold advanceTask
    split
    · exact h
    · split <;> exact h
    · dsimp only
      split <;> simp [h]
    · split <;> simp [h]
  · exact h

theorem SessionInv.of_eq {s' : BillingSystem} (heq : s' = s) (h : SessionInv s) : SessionInv s' :=
  heq ▸ h

/-- **The step lemma**: a step that meets the conditions keeps the invariant. -/
theorem SessionInv.step (h : SessionInv s) {e : BillingEvent} (halone : SettlesAlone s e)
    (hfits : FitsCounter s e) : SessionInv (s.step e) := by
  cases h with
  | failed h => exact .failed (callFailed_step h e)
  | live h =>
    unfold BillingSystem.step
    rw [h.settling]
    cases e with
    | reserve targetQuota env => exact h.reserve env targetQuota hfits
    | settle actualQuota env => exact h.settle env actualQuota hfits
    | settleToken env => exact .live h
    | refund => exact h.refund
    | task env =>
      have hnone : s.advanceTask env = s := by rw [advanceTask, h.refundTask]
      exact .of_eq hnone (.live h)
  | settling actualQuota h =>
    unfold BillingSystem.step
    rw [h.settling]
    cases e with
    | settleToken env => exact h.settleToken env
    | reserve targetQuota env => exact .settling actualQuota h
    | settle actualQuota env => exact .settling _ h
    | refund => exact .settling actualQuota h
    | task env =>
      have hnone : s.advanceTask env = s := by rw [advanceTask, h.refundTask]
      exact .of_eq hnone (.settling actualQuota h)
  | settled actualQuota h =>
    -- Nothing is left to do for a settled session.
    have hsame : s.step e = s := by
      unfold BillingSystem.step
      rw [h.settling]
      cases e with
      | reserve targetQuota env => simp [reserve, h.settled]
      | settle actualQuota env => simp [settle, h.settled]
      | settleToken env => rfl
      | refund => simp [refund, h.settled]
      | task env => simp [advanceTask, h.refundTask]
    exact .of_eq hsame (.settled actualQuota h)
  | refunding h htask =>
    unfold BillingSystem.step
    rw [h.settling]
    cases e with
    | reserve targetQuota env => exact .of_eq (h.reserve_eq env targetQuota) (.refunding h htask)
    | settle actualQuota env =>
      -- A settlement may not start here: the goroutine is pending.
      have hnone : s.refundTask = .none := halone
      rw [hnone] at htask
      rcases htask with htask | ⟨attempts, htask⟩ <;> cases htask
    | settleToken env => exact .refunding h htask
    | refund => exact .of_eq h.refund_eq (.refunding h htask)
    | task env => exact h.refundFunding htask env
  | returning h htask =>
    unfold BillingSystem.step
    rw [h.settling]
    cases e with
    | reserve targetQuota env => exact .of_eq (h.reserve_eq env targetQuota) (.returning h htask)
    | settle actualQuota env =>
      have hnone : s.refundTask = .none := halone
      rw [hnone] at htask
      cases htask
    | settleToken env => exact .returning h htask
    | refund => exact .of_eq h.refund_eq (.returning h htask)
    | task env => exact h.refundToken htask env
  | refunded h htask =>
    unfold BillingSystem.step
    rw [h.settling]
    cases e with
    | reserve targetQuota env => exact .of_eq (h.reserve_eq env targetQuota) (.refunded h htask)
    | settle actualQuota env => exact h.settle htask env actualQuota hfits
    | settleToken env => exact .refunded h htask
    | refund => exact .of_eq h.refund_eq (.refunded h htask)
    | task env =>
      have hnone : s.advanceTask env = s := by rw [advanceTask, htask]
      exact .of_eq hnone (.refunded h htask)

end Steps

/-! ## New sessions -/

/-- A session right after its creation, for a request that its ledger does not know yet: over the
wallet, or over a subscription whose counter is not negative and does not overflow. -/
inductive BillingSystem.Opened (s : BillingSystem) : Prop
  | wallet (env : BillingEnv) (info : RelayInfo) (quota : Int) (trusted : Bool) (db : BillingDB)
      (hquota : 0 ≤ quota)
      (htoken : info.isPlayground = false → (db.tokens.byId info.tokenId).isSome)
      (hfresh : ∀ k, normalizeUserQuotaRequest info.requestId = .ok k →
        db.wallet.reservations.byKey k = none)
      (hopen : openWallet env info quota trusted db = .ok s)
  | subscription (env : BillingEnv) (info : RelayInfo) (quota : Int) (db : BillingDB)
      (htoken : info.isPlayground = false → (db.tokens.byId info.tokenId).isSome)
      (hfresh : ∀ k, normalizeSubscriptionRequest info.requestId = .ok k →
        db.subscriptions.records.byKey k = none ∧
          ∀ t ∈ db.subscriptions.journal.rows, t.requestId ≠ k)
      (hused : ∀ x ∈ db.subscriptions.subs.rows, 0 ≤ x.amountUsed)
      (hopen : openSubscription env info quota db = .ok s)
      (hrange : s.fundingBefore + s.session.preConsumedQuota < 2 ^ 63)

/-- A token that nothing was taken from yet. -/
theorem tokenAt_start {db : BillingDB}
    (htoken : info.isPlayground = false → (db.tokens.byId info.tokenId).isSome) :
    TokenAt db.tokens info (db.tokenRemain info.tokenId) 0 := by
  unfold TokenAt tokenRemain
  split
  · rfl
  · next hplayground =>
    obtain ⟨t, ht⟩ := Option.isSome_iff_exists.mp (htoken (by simpa using hplayground))
    exact ⟨t, ht, by rw [ht]; show t.remainQuota = t.remainQuota - 0; omega⟩

theorem live_openWallet {trusted : Bool} {db : BillingDB} (hquota : 0 ≤ quota)
    (htoken : info.isPlayground = false → (db.tokens.byId info.tokenId).isSome)
    (hfresh : ∀ k, normalizeUserQuotaRequest info.requestId = .ok k →
      db.wallet.reservations.byKey k = none)
    (h : openWallet env info quota trusted db = .ok s) : s.Live := by
  have hstart := tokenAt_start htoken
  have hnone : db.wallet.StandsAt info.requestId info.userId (db.wallet.quotaOf info.userId)
      .none := by
    refine ⟨by show _ = _ - 0; omega, fun k hk => ?_⟩
    rw [Wallet.holdOf, hfresh k hk]
    exact ⟨rfl, (fun _ hr => by cases hr)⟩
  have hnonneg : 0 ≤ (if trusted then 0 else quota) := by split <;> omega
  unfold openWallet at h
  generalize (if trusted then 0 else quota) = effectiveQuota at h hnonneg
  simp only [bind_eq_ok] at h
  obtain ⟨u, htok, v, hres, h⟩ := h
  cases h
  obtain ⟨info', hinfo, hid, hplayground⟩ := BillingSession.syncRelayInfo_eq
    { relayInfo := info
      funding := .wallet { requestId := info.requestId, userId := info.userId
                           consumed := if 0 < effectiveQuota then effectiveQuota else 0
                           sourceType := "api_billing" }
      preConsumedQuota := effectiveQuota
      tokenConsumed := if 0 < effectiveQuota then effectiveQuota else 0
      trusted }
  by_cases hpos : 0 < effectiveQuota
  · simp only [if_pos hpos] at htok hres hinfo ⊢
    rw [hinfo]
    have hcharged := (hstart.preConsume env effectiveQuota).1 htok
    rw [zero_add] at hcharged
    exact ⟨rfl, rfl, rfl, rfl, rfl, hnonneg, rfl, rfl, (fun hs => by cases hs),
      ⟨_, hnone.reserve hres, .inl rfl⟩, hcharged.congr hid hplayground⟩
  · obtain rfl : effectiveQuota = 0 := by omega
    rw [hinfo]
    exact ⟨rfl, rfl, rfl, rfl, rfl, le_rfl, rfl, rfl, (fun hs => by cases hs),
      ⟨_, hnone, .inr ⟨rfl, rfl⟩⟩, hstart.congr hid hplayground⟩

theorem live_openSubscription {db : BillingDB}
    (htoken : info.isPlayground = false → (db.tokens.byId info.tokenId).isSome)
    (hfresh : ∀ k, normalizeSubscriptionRequest info.requestId = .ok k →
      db.subscriptions.records.byKey k = none ∧
        ∀ t ∈ db.subscriptions.journal.rows, t.requestId ≠ k)
    (hused : ∀ x ∈ db.subscriptions.subs.rows, 0 ≤ x.amountUsed)
    (h : openSubscription env info quota db = .ok s)
    (hrange : s.fundingBefore + s.session.preConsumedQuota < 2 ^ 63) : s.Live := by
  have hstart := tokenAt_start htoken
  unfold openSubscription at h
  generalize (if quota ≤ 0 then 1 else quota) = subConsume at h
  simp only [bind_eq_ok] at h
  obtain ⟨u, htok, res, hres, h⟩ := h
  cases h
  obtain ⟨info', hinfo, hid, hplayground⟩ := BillingSession.syncRelayInfo_eq
    { relayInfo := info
      funding := .subscription
        { requestId := info.requestId, userId := info.userId, amount := subConsume
          subscriptionId := res.userSubscriptionId, preConsumed := res.preConsumed
          amountTotal := res.amountTotal, amountUsedAfter := res.amountUsedAfter }
      preConsumedQuota := subConsume
      tokenConsumed := subConsume }
  rw [hinfo] at hrange ⊢
  have hcharged := (hstart.preConsume env subConsume).1 htok
  rw [zero_add] at hcharged
  obtain ⟨hquota, hpos, hstands⟩ :=
    preConsumeUserSubscription_standsAt hfresh hused hres hrange
  exact ⟨rfl, rfl, rfl, rfl, rfl, hpos.le, hquota, rfl, fun _ => hrange,
    ⟨_, hstands, .inl rfl⟩, hcharged.congr hid hplayground⟩

theorem BillingSystem.Opened.live (h : s.Opened) : s.Live := by
  cases h with
  | wallet env info quota trusted db hquota htoken hfresh hopen =>
    exact live_openWallet hquota htoken hfresh hopen
  | subscription env info quota db htoken hfresh hused hopen hrange =>
    exact live_openSubscription htoken hfresh hused hopen hrange

/-! ## Agreement -/

/-- What a funding source stands at is what was taken from it. -/
theorem BillingSystem.fundingDecrease_eq {hold : Hold}
    (h : s.session.funding.StandsAt s.db s.fundingBefore hold) :
    s.fundingDecrease = hold.charge := by
  unfold fundingDecrease
  cases hf : s.session.funding with
  | wallet w =>
    rw [hf] at h
    have := h.balance
    dsimp only
    omega
  | subscription sub =>
    rw [hf] at h
    have := h.used
    dsimp only
    omega

theorem BillingSystem.tokenDecrease_eq
    (h : TokenAt s.db.tokens s.session.relayInfo s.tokenBefore decrease) :
    s.tokenDecrease = if s.session.relayInfo.isPlayground then 0 else decrease := by
  unfold TokenAt at h
  unfold tokenDecrease tokenRemain
  split
  · next hplayground =>
    rw [if_pos hplayground] at h
    omega
  · next hplayground =>
    rw [if_neg hplayground] at h
    obtain ⟨t, ht, hremain⟩ := h
    rw [ht]
    show s.tokenBefore - t.remainQuota = decrease
    omega

/-- **Token and funding source agree**: in every run from a new session in which no ledger or token
call fails, no counter overflows and no `Settle` starts beside a pending refund goroutine, once
nothing is under way the net decrease of the token is that of the funding source, or nothing in the
playground; and it is nothing after a refund and the settled quota after a settlement. -/
theorem session_agrees {s₀ : BillingSystem} (hopened : s₀.Opened) (es : List BillingEvent)
    (hrun : Along BillingSystem.step (fun s e => SettlesAlone s e ∧ FitsCounter s e) s₀ es) :
    let s := run BillingSystem.step s₀ es
    s.callFailed = false → s.refundTask = .none → s.settling = none →
      s.tokenDecrease = (if s.session.relayInfo.isPlayground then 0 else s.fundingDecrease) ∧
        (s.session.refunded = true → s.fundingDecrease = 0) ∧
        (s.session.settled = true → s.settledQuota = some s.fundingDecrease) := by
  intro s hok htask hidle
  have hinv : SessionInv s := run_keeps_along (fun s e hs he => hs.step he.1 he.2)
    (.live hopened.live) hrun
  cases hinv with
  | failed h => rw [hok] at h; cases h
  | live h =>
    obtain ⟨hold, hstands, hhold⟩ := h.hold
    have hfunding : s.fundingDecrease = s.session.preConsumedQuota := by
      rw [BillingSystem.fundingDecrease_eq hstands]
      rcases hhold with rfl | ⟨rfl, hzero⟩
      · rfl
      · exact hzero.symm
    refine ⟨?_, ?_, ?_⟩
    · rw [BillingSystem.tokenDecrease_eq h.token, hfunding]
    · rw [h.refunded]; nofun
    · rw [h.settled]; nofun
  | settling actualQuota h => exact absurd (hidle.symm.trans h.settling) nofun
  | settled actualQuota h =>
    have hfunding := BillingSystem.fundingDecrease_eq h.hold
    refine ⟨?_, ?_, fun _ => ?_⟩
    · rw [BillingSystem.tokenDecrease_eq h.token, hfunding]; rfl
    · rw [h.refunded]; nofun
    · rw [h.settledQuota, hfunding]; rfl
  | refunding h htask' =>
    rw [htask] at htask'
    rcases htask' with htask' | ⟨attempts, htask'⟩ <;> cases htask'
  | returning h htask' => exact absurd (htask.symm.trans htask') nofun
  | refunded h htask' =>
    have hfunding := BillingSystem.fundingDecrease_eq h.hold
    refine ⟨?_, fun _ => hfunding, ?_⟩
    · rw [BillingSystem.tokenDecrease_eq h.token, hfunding]; rfl
    · rw [h.settled]; nofun

/-! ## Sample runs -/

/-- A request of user 1 with token 7. -/
def RelayInfo.sample : RelayInfo :=
  { requestId := "req", userId := 1, tokenId := 7, tokenUnlimited := false, isPlayground := false }

/-- A user with 1000 units and a token with 500. -/
def BillingDB.sample : BillingDB where
  wallet := ⟨⟨[{ id := 1, quota := 1000 }], by decide, by decide, by decide⟩, .empty, .empty⟩
  subscriptions := ⟨.empty, .empty, .empty, fun _ => 0⟩
  tokens := ⟨[{ id := 7, remainQuota := 500 }], by decide, by decide, by decide⟩

/-- Calls at time 0 without faults. -/
def BillingEnv.sample : BillingEnv := { now := 0, tokenRemain := .ok 500 }

/-- The session of the sample request over the wallet, with 100 units pre-consumed. -/
def BillingSystem.sample : BillingSystem :=
  (openWallet .sample .sample 100 false .sample).toOption.get (by decide +kernel)

theorem BillingSystem.sample_opened : sample.Opened :=
  .wallet .sample .sample 100 false .sample (by decide) (fun _ => rfl) (fun _ _ => rfl)
    (eq_ok_of_toOption (Option.some_get _).symm)

/-- The request reserves more and is settled for less. -/
def sampleSettled : List BillingEvent :=
  [.reserve 150 .sample, .settle 120 .sample, .settleToken .sample]

/-- The sample request is charged 120 units, from the token and from the wallet. -/
theorem session_agrees_settled :
    (run BillingSystem.step .sample sampleSettled).tokenDecrease = 120 ∧
      (run BillingSystem.step .sample sampleSettled).fundingDecrease = 120 := by
  have hrun : Along BillingSystem.step (fun s e => SettlesAlone s e ∧ FitsCounter s e) .sample
      sampleSettled := by decide +kernel
  obtain ⟨htoken, -, hsettled⟩ := session_agrees BillingSystem.sample_opened sampleSettled hrun
    (by decide +kernel) (by decide +kernel) (by decide +kernel)
  have hquota : (run BillingSystem.step .sample sampleSettled).settledQuota = some 120 := by
    decide +kernel
  have hfunding : (run BillingSystem.step .sample sampleSettled).fundingDecrease = 120 :=
    Option.some.inj ((hsettled (by decide +kernel)).symm.trans hquota)
  refine ⟨htoken.trans ?_, hfunding⟩
  rw [if_neg (by decide +kernel), hfunding]

/-- The request is refunded, but settled at zero before the goroutine runs. -/
def sampleOvertaken : List BillingEvent :=
  [.refund, .settle 0 .sample, .settleToken .sample, .task .sample, .task .sample]

/-- **A settlement that overtakes the goroutine of a refund.** No call fails, yet in the end the token
has got 100 units more than was taken from it. -/
theorem settle_overtakes_refund :
    BillingSystem.sample.Opened ∧
      let s := run BillingSystem.step .sample sampleOvertaken
      s.callFailed = false ∧ s.refundTask = .none ∧ s.settling = none ∧
        s.session.refunded = true ∧ s.session.settled = true ∧
        s.fundingDecrease = 0 ∧ s.tokenDecrease = -100 := by
  refine ⟨BillingSystem.sample_opened, ?_⟩
  decide +kernel

end Prox
