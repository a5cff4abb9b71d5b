import Prox.Billing.Hold
import Prox.Task.Outbox

/-! # The billing session of a request

The embedding of `service/billing_session.go` and `service/funding_source.go`: a `BillingSession`
pre-consumes a quota from the token and from one funding source, may reserve more while the request
runs, and is settled or refunded in the end. The methods hold a lock, but `Refund` releases it and
returns the quota in a goroutine of its own.

`BillingSystem` is one session with its tables. A call of `Reserve` is one step: nothing can run
beside it, since no refund has been asked for then. `Settle` is two, the funding and the token, and
the goroutine is one step for each thing it reads or calls, so that it can run between them. Token
quotas are written at once; the batch updater, which only delays the writes, is not part of this
model. -/

namespace Prox

/-! ## Tokens -/

/-- `quota = quota ± q` on a token. A missing token is not an error. -/
def changeTokenQuota (fault : Option Err) (id quota delta : Int) :
    Table Token → Except Err Unit × Table Token :=
  checked (failIf (quota < 0) (.text "quota 不能为负数！")) fun _ =>
    transaction fault fun tokens =>
      return ((), (tokens.updateWhere (fun t => t.id = id) (Token.charge delta)).1)

/-- Gives quota back to a token. -/
def increaseTokenQuota (fault : Option Err) (id quota : Int) :
    Table Token → Except Err Unit × Table Token := changeTokenQuota fault id quota (-quota)

/-- Takes quota from a token. -/
def decreaseTokenQuota (fault : Option Err) (id quota : Int) :
    Table Token → Except Err Unit × Table Token := changeTokenQuota fault id quota quota

/-! ## Funding sources -/

/-- The wallet as a funding source; `consumed` is the quota that is reserved there. -/
structure WalletFunding where
  requestId : String
  userId : Int
  consumed : Int := 0
  sourceType : String

/-- A subscription as a funding source. -/
structure SubscriptionFunding where
  requestId : String
  userId : Int
  amount : Int
  subscriptionId : Int := 0
  preConsumed : Int := 0
  amountTotal : Int := 0
  amountUsedAfter : Int := 0

/-- A funding source. -/
inductive FundingSource where
  | wallet (funding : WalletFunding)
  | subscription (funding : SubscriptionFunding)

/-- The name of a funding source. -/
def FundingSource.source : FundingSource → String
  | .wallet _ => "wallet"
  | .subscription _ => "subscription"

/-- The quota a funding source remembers to hold. -/
def FundingSource.consumed : FundingSource → Int
  | .wallet funding => funding.consumed
  | .subscription funding => funding.preConsumed

/-- The tables of a session. -/
structure BillingDB where
  wallet : Wallet
  subscriptions : SubscriptionDB
  tokens : Table Token

/-- What a call reads from outside: the clock and the time zone, the plans, the faults of the ledger,
of the token table and of a rollback, and the remaining quota that the token lookup reports, which may
come from a cache. -/
structure BillingEnv where
  now : Int
  loc : Location := Location.fixed 0
  plans : Int → Option SubscriptionPlan := fun _ => none
  fault : Option Err := none
  tokenFault : Option Err := none
  rollbackFault : Option Err := none
  tokenRemain : Except Err Int

/-- The result of a method of a funding source. `failed` is ghost: a ledger call returned an error. -/
structure FundingResult where
  result : Except Err Unit
  funding : FundingSource
  db : BillingDB
  failed : Bool

/-- A ledger call on the wallet and what the funding source remembers when it succeeds. -/
def BillingDB.onWallet (db : BillingDB) (old new : WalletFunding)
    (call : Wallet → Except Err Unit × Wallet) : FundingResult :=
  let r := call db.wallet
  match r.1 with
  | .error e => ⟨.error e, .wallet old, { db with wallet := r.2 }, true⟩
  | .ok _ => ⟨.ok (), .wallet new, { db with wallet := r.2 }, false⟩

/-- A ledger call on the subscriptions and what the funding source remembers when it succeeds. -/
def BillingDB.onSubscription (db : BillingDB) (old new : SubscriptionFunding)
    (call : SubscriptionDB → Except Err Unit × SubscriptionDB) : FundingResult :=
  let r := call db.subscriptions
  match r.1 with
  | .error e => ⟨.error e, .subscription old, { db with subscriptions := r.2 }, true⟩
  | .ok _ => ⟨.ok (), .subscription new, { db with subscriptions := r.2 }, false⟩

namespace FundingSource

/-- `Settle` of a funding source: the quota it holds changes by `delta` and is committed. -/
def settle (env : BillingEnv) (delta : Int) (funding : FundingSource) (db : BillingDB) :
    FundingResult :=
  match funding with
  | .wallet w =>
    let actualQuota := w.consumed + delta
    if actualQuota < 0 then
      ⟨.error (.text s!"wallet settlement quota cannot be negative: reserved={w.consumed} delta={delta}"),
        funding, db, false⟩
    else db.onWallet w { w with consumed := actualQuota }
      (settleUserQuotaReservation env.fault w.requestId w.userId actualQuota w.sourceType)
  | .subscription s =>
    let actualQuota := s.preConsumed + delta
    if actualQuota < 0 then
      ⟨.error (.text
          s!"subscription settlement quota cannot be negative: reserved={s.preConsumed} delta={delta}"),
        funding, db, false⟩
    else db.onSubscription s
      { s with amountUsedAfter := s.amountUsedAfter + delta, preConsumed := actualQuota }
      (settleSubscriptionPreConsume env.fault s.requestId s.userId s.subscriptionId actualQuota)

/-- One attempt of `Refund` of a funding source that holds something. -/
def refund (env : BillingEnv) (funding : FundingSource) (db : BillingDB) : FundingResult :=
  match funding with
  | .wallet w => db.onWallet w w
      (refundUserQuotaReservation env.fault w.requestId w.userId "billing request failed")
  | .subscription s => db.onSubscription s s (refundSubscriptionPreConsume env.fault s.requestId)

/-- The change of a hold by `delta`, as `reserveFunding` and `rollbackFundingReserve` make it. -/
def resize (env : BillingEnv) (delta : Int) (funding : FundingSource) (db : BillingDB) :
    FundingResult :=
  match funding with
  | .wallet w =>
    let targetQuota := w.consumed + delta
    db.onWallet w { w with consumed := targetQuota }
      (resizeUserQuotaReservation env.fault w.requestId w.userId targetQuota env.now)
  | .subscription s =>
    let targetQuota := s.preConsumed + delta
    db.onSubscription s
      { s with preConsumed := targetQuota, amountUsedAfter := s.amountUsedAfter + delta }
      (resizeSubscriptionPreConsume env.fault s.requestId s.userId s.subscriptionId targetQuota)

end FundingSource

/-! ## The session -/

/-- What the session reads of a request, and the fields it keeps in step for the logs. -/
structure RelayInfo where
  requestId : String
  userId : Int
  tokenId : Int
  tokenUnlimited : Bool
  isPlayground : Bool
  finalPreConsumedQuota : Int := 0
  billingSource : String := ""
  subscriptionId : Int := 0
  subscriptionPreConsumed : Int := 0
  subscriptionPostDelta : Int := 0
  subscriptionAmountTotal : Int := 0
  subscriptionAmountUsedAfterPreConsume : Int := 0

/-- A billing session. -/
structure BillingSession where
  relayInfo : RelayInfo
  funding : FundingSource
  preConsumedQuota : Int := 0
  tokenConsumed : Int := 0
  trusted : Bool := false
  fundingSettled : Bool := false
  settled : Bool := false
  refunded : Bool := false

namespace BillingSession

/-- Copies the state of the session to the request. -/
def syncRelayInfo (s : BillingSession) : BillingSession :=
  let info := { s.relayInfo with
    finalPreConsumedQuota := s.preConsumedQuota
    billingSource := s.funding.source }
  match s.funding with
  | .subscription sub =>
    { s with relayInfo := { info with
        subscriptionId := sub.subscriptionId
        subscriptionPreConsumed := sub.preConsumed
        subscriptionPostDelta := 0
        subscriptionAmountTotal := sub.amountTotal
        subscriptionAmountUsedAfterPreConsume := sub.amountUsedAfter } }
  | .wallet _ =>
    { s with relayInfo := { info with subscriptionId := 0, subscriptionPreConsumed := 0 } }

/-- Whether anything was pre-consumed that has to be given back. -/
def needsRefundLocked (s : BillingSession) : Bool :=
  if s.settled || s.refunded || s.fundingSettled then false
  else if 0 < s.tokenConsumed then true
  else
    match s.funding with
    | .subscription sub => 0 < sub.preConsumed
    | .wallet _ => false

end BillingSession

/-- Takes quota from the token of a request, unless the token has not enough. -/
def preConsumeTokenQuota (env : BillingEnv) (info : RelayInfo) (quota : Int) (tokens : Table Token) :
    Except Err Unit × Table Token :=
  if quota < 0 then (.error (.text "quota 不能为负数！"), tokens)
  else if info.isPlayground then (.ok (), tokens)
  else
    match env.tokenRemain with
    | .error e => (.error e, tokens)
    | .ok remainQuota =>
      if info.tokenUnlimited = false ∧ remainQuota < quota then
        (.error (.text
          s!"token quota is not enough, token remain quota: {remainQuota}, need quota: {quota}"),
          tokens)
      else decreaseTokenQuota env.tokenFault info.tokenId quota tokens

/-! ## The system of one session -/

/-- Where the refund goroutine stands. It has captured the quota taken from the token. -/
inductive RefundTask where
  | none
  /-- It looks at what the funding source holds. -/
  | check (tokenConsumed : Int)
  /-- It refunds the funding source, at most this many more times. -/
  | refund (tokenConsumed : Int) (attempts : Nat)
  /-- It gives the quota back to the token. -/
  | token (tokenConsumed : Int)
  deriving DecidableEq

/-- A session, its tables, a `Settle` call between its two parts and the refund goroutine. The last
four fields are ghost: whether a ledger or token call has returned an error, the quota of the settle
call that went through, and what the funding source and the token stood at before the session. -/
structure BillingSystem where
  session : BillingSession
  db : BillingDB
  settling : Option Int := none
  refundTask : RefundTask := .none
  callFailed : Bool := false
  settledQuota : Option Int := none
  fundingBefore : Int
  tokenBefore : Int

/-- The remaining quota of a token. -/
def BillingDB.tokenRemain (db : BillingDB) (id : Int) : Int :=
  ((db.tokens.byId id).map Token.remainQuota).getD 0

namespace BillingSystem

/-- What the session has taken from its funding source, net. -/
def fundingDecrease (s : BillingSystem) : Int :=
  match s.session.funding with
  | .wallet w => s.fundingBefore - s.db.wallet.quotaOf w.userId
  | .subscription sub => s.db.subscriptions.used sub.subscriptionId - s.fundingBefore

/-- What the session has taken from its token, net. -/
def tokenDecrease (s : BillingSystem) : Int :=
  s.tokenBefore - s.db.tokenRemain s.session.relayInfo.tokenId

/-- A session over the wallet, after a successful `preConsume`: a trusted request pre-consumes
nothing. When the token or the wallet refuses, there is no session. -/
def openWallet (env : BillingEnv) (info : RelayInfo) (quota : Int) (trusted : Bool) (db : BillingDB) :
    Except Err BillingSystem :=
  let effectiveQuota := if trusted then 0 else quota
  let token := if 0 < effectiveQuota then preConsumeTokenQuota env info effectiveQuota db.tokens
    else (.ok (), db.tokens)
  let funding : WalletFunding :=
    { requestId := info.requestId, userId := info.userId, sourceType := "api_billing" }
  let reserve := if 0 < effectiveQuota then
      reserveUserQuota env.fault info.requestId info.userId effectiveQuota "api_billing" env.now
        db.wallet
    else (.ok (), db.wallet)
  let session : BillingSession :=
    { relayInfo := info
      funding := .wallet { funding with
        consumed := if 0 < effectiveQuota then effectiveQuota else 0 }
      preConsumedQuota := effectiveQuota
      tokenConsumed := if 0 < effectiveQuota then effectiveQuota else 0
      trusted }
  token.1 >>= fun _ => reserve.1 >>= fun _ => .ok
    { session := session.syncRelayInfo
      db := { db with tokens := token.2, wallet := reserve.2 }
      fundingBefore := db.wallet.quotaOf info.userId
      tokenBefore := db.tokenRemain info.tokenId }

/-- A session over a subscription, after `preConsume`; at least one unit is pre-consumed. -/
def openSubscription (env : BillingEnv) (info : RelayInfo) (quota : Int) (db : BillingDB) :
    Except Err BillingSystem :=
  let subConsume := if quota ≤ 0 then 1 else quota
  let token := preConsumeTokenQuota env info subConsume db.tokens
  let consume := preConsumeUserSubscription ⟨env.now, env.loc, env.plans, fun _ => env.fault⟩
    info.requestId info.userId subConsume db.subscriptions
  token.1 >>= fun _ => consume.1 >>= fun res =>
    let session : BillingSession :=
      { relayInfo := info
        funding := .subscription
          { requestId := info.requestId, userId := info.userId, amount := subConsume
            subscriptionId := res.userSubscriptionId, preConsumed := res.preConsumed
            amountTotal := res.amountTotal, amountUsedAfter := res.amountUsedAfter }
        preConsumedQuota := subConsume
        tokenConsumed := subConsume }
    .ok
      { session := session.syncRelayInfo
        db := { db with tokens := token.2, subscriptions := consume.2 }
        fundingBefore := res.amountUsedBefore
        tokenBefore := db.tokenRemain info.tokenId }

/-- `Reserve`: the funding source first, then the token; when the token refuses, the funding source
is resized back. -/
def reserve (env : BillingEnv) (targetQuota : Int) (s : BillingSystem) : BillingSystem :=
  let b := s.session
  if b.settled || b.refunded || b.trusted || decide (targetQuota ≤ b.preConsumedQuota) then s else
  let delta := targetQuota - b.preConsumedQuota
  let f := b.funding.resize env delta s.db
  let s := { s with session := { b with funding := f.funding }, db := f.db
                    callFailed := s.callFailed || f.failed }
  match f.result with
  | .error _ => s
  | .ok _ =>
    let t := if b.relayInfo.isPlayground then (.ok (), s.db.tokens)
      else preConsumeTokenQuota env b.relayInfo delta s.db.tokens
    match t.1 with
    | .error _ =>
      let r := f.funding.resize { env with fault := env.rollbackFault } (-delta) { s.db with tokens := t.2 }
      { s with session := { b with funding := r.funding }, db := r.db
               callFailed := s.callFailed || r.failed }
    | .ok _ =>
      { s with
        session := { b with
          funding := f.funding
          preConsumedQuota := b.preConsumedQuota + delta
          tokenConsumed := b.tokenConsumed + delta }.syncRelayInfo
        db := { s.db with tokens := t.2 } }

/-- The first part of `Settle`: the funding source is settled unless it was before. -/
def settle (env : BillingEnv) (actualQuota : Int) (s : BillingSystem) : BillingSystem :=
  let b := s.session
  if b.settled then s else
  if b.fundingSettled then { s with settling := some actualQuota } else
  let f := b.funding.settle env (actualQuota - b.preConsumedQuota) s.db
  let s := { s with session := { b with funding := f.funding }, db := f.db
                    callFailed := s.callFailed || f.failed }
  match f.result with
  | .error _ => s
  | .ok _ => { s with session := { s.session with fundingSettled := true }
                      settling := some actualQuota }

/-- The token call of `Settle`. -/
def adjustToken (env : BillingEnv) (delta : Int) (b : BillingSession) (tokens : Table Token) :
    Except Err Unit × Table Token :=
  if delta ≠ 0 ∧ b.relayInfo.isPlayground = false then
    if 0 < delta then decreaseTokenQuota env.tokenFault b.relayInfo.tokenId delta tokens
    else increaseTokenQuota env.tokenFault b.relayInfo.tokenId (-delta) tokens
  else (.ok (), tokens)

/-- The fields a settled session keeps for the logs. -/
def finishSettle (delta : Int) (b : BillingSession) : BillingSession :=
  let b := b.syncRelayInfo
  match b.funding with
  | .subscription _ =>
    { b with settled := true, relayInfo := { b.relayInfo with
        subscriptionPostDelta := b.relayInfo.subscriptionPostDelta + delta } }
  | .wallet _ => { b with settled := true }

/-- The second part of `Settle`: the token follows, and an error there is only logged. -/
def settleToken (env : BillingEnv) (actualQuota : Int) (s : BillingSystem) : BillingSystem :=
  let delta := actualQuota - s.session.preConsumedQuota
  let t := adjustToken env delta s.session s.db.tokens
  { s with
    session := finishSettle delta s.session
    db := { s.db with tokens := t.2 }
    settling := none
    callFailed := s.callFailed || (errorOf t.1).isSome
    settledQuota := some actualQuota }

/-- The locked part of `Refund`, which starts the goroutine. -/
def refund (s : BillingSystem) : BillingSystem :=
  if s.session.settled || s.session.refunded || !s.session.needsRefundLocked then s
  else { s with session := { s.session with refunded := true }
                refundTask := .check s.session.tokenConsumed }

/-- One step of the goroutine: it reads what the funding source holds, tries to refund it up to three
times, and then gives the quota back to the token. -/
def advanceTask (env : BillingEnv) (s : BillingSystem) : BillingSystem :=
  match s.refundTask with
  | .none => s
  | .check tokenConsumed =>
    if s.session.funding.consumed ≤ 0 then { s with refundTask := .token tokenConsumed }
    else { s with refundTask := .refund tokenConsumed 3 }
  | .refund tokenConsumed attempts =>
    let f := s.session.funding.refund env s.db
    let s := { s with db := f.db, callFailed := s.callFailed || f.failed }
    match f.result with
    | .ok _ => { s with refundTask := .token tokenConsumed }
    | .error _ => { s with refundTask :=
        if attempts ≤ 1 then .token tokenConsumed else .refund tokenConsumed (attempts - 1) }
  | .token tokenConsumed =>
    if 0 < tokenConsumed ∧ s.session.relayInfo.isPlayground = false then
      let t := increaseTokenQuota env.tokenFault s.session.relayInfo.tokenId tokenConsumed s.db.tokens
      { s with db := { s.db with tokens := t.2 }, refundTask := .none
               callFailed := s.callFailed || (errorOf t.1).isSome }
    else { s with refundTask := .none }

end BillingSystem

/-- What can happen next to a session. -/
inductive BillingEvent where
  /-- `Reserve` is called. -/
  | reserve (targetQuota : Int) (env : BillingEnv)
  /-- `Settle` is called and settles the funding source. -/
  | settle (actualQuota : Int) (env : BillingEnv)
  /-- The call of `Settle` in progress goes on with the token. -/
  | settleToken (env : BillingEnv)
  /-- `Refund` is called. -/
  | refund
  /-- The refund goroutine does its next step. -/
  | task (env : BillingEnv)

/-- The system after an event; a call waits while another one holds the lock. -/
def BillingSystem.step (s : BillingSystem) (e : BillingEvent) : BillingSystem :=
  match e, s.settling with
  | .reserve targetQuota env, none => s.reserve env targetQuota
  | .settle actualQuota env, none => s.settle env actualQuota
  | .refund, none => s.refund
  | .settleToken env, some actualQuota => s.settleToken env actualQuota
  | .task env, _ => s.advanceTask env
  | _, _ => s

end Prox
