import Prox.Billing.Tracked

/-! # Opening a session

`NewBillingSession` tries the funding sources in the order of the user's preference. An attempt takes
the quota from the token first and from the funding source second; when the second refuses, the token
gets its quota back. So an attempt is a transaction that the code rolls back by hand, and the second
attempt starts from the tables the first one found. -/

namespace Prox

open BillingDB FundingSource List

-- Texts are compared by the lemmas on `trimSpace`, not computed.
attribute [local irreducible] trimSpace

/-! ## Errors of the interface -/

/-- The error codes of opening a session. -/
inductive ErrorCode where
  | invalidRequest
  | queryDataError
  | updateDataError
  | insufficientUserQuota
  | preConsumeTokenQuotaFailed
  deriving DecidableEq

/-- An error of the interface. `label` is the text the cause is wrapped in. -/
structure NewAPIError where
  err : Err
  label : String := ""
  errorCode : ErrorCode
  statusCode : Nat
  skipRetry : Bool := true
  recordErrorLog : Option Bool

/-- An internal error. -/
def newError (err : Err) (errorCode : ErrorCode) : NewAPIError :=
  { err, errorCode, statusCode := 500, recordErrorLog := none }

/-- A refusal, which is kept out of the error log. -/
def newForbidden (err : Err) (errorCode : ErrorCode) (label : String := "") : NewAPIError :=
  { err, label, errorCode, statusCode := 403, recordErrorLog := some false }

/-! ## What a session is opened from -/

/-- The order in which the funding sources of a user are tried. -/
inductive BillingPreference where
  | subscriptionFirst
  | walletFirst
  | subscriptionOnly
  | walletOnly

/-- Reads the preference in the settings of a user. -/
def normalizeBillingPreference (pref : String) : BillingPreference :=
  let pref := trimSpace pref
  if pref = "wallet_first" then .walletFirst
  else if pref = "subscription_only" then .subscriptionOnly
  else if pref = "wallet_only" then .walletOnly
  else .subscriptionFirst

/-- What opening a session reads of a request. `tokenQuota` is what the token lookup has left in the
context of the request. -/
structure BillingRequest where
  relayInfo : RelayInfo
  forcePreConsume : Bool
  billingPreference : String
  tokenQuota : Int

/-- What opening a session reads from outside: the surroundings of the two attempts, the faults of the
two queries before them, the clock of the second query, the trust threshold and the format of a
quota. -/
structure OpeningEnv where
  wallet : BillingEnv
  subscription : BillingEnv
  userQuotaFault : Option Err := none
  activeFault : Option Err := none
  now : Int
  trustQuota : Int
  formatQuota : Int → String := toString

/-- The balance of a user; an unknown user has none. -/
def getUserQuota (fault : Option Err) (userId : Int) (w : Wallet) : Except Err Int :=
  match fault with
  | some e => .error e
  | none => .ok (w.quotaOf userId)

/-- Whether the user has a subscription that has not ended. -/
def hasActiveUserSubscription (fault : Option Err) (now userId : Int) (db : SubscriptionDB) :
    Except Err Bool :=
  if userId ≤ 0 then .error (.text "invalid userId")
  else
    match fault with
    | some e => .error e
    | none => .ok (0 < db.subs.rows.countP fun s =>
        s.userId = userId ∧ s.status = .active ∧ now < s.endTime)

/-! ## An attempt -/

/-- `PreConsume` of a funding source. A subscription takes the amount it was built with. -/
def FundingSource.preConsume (env : BillingEnv) (amount : Int) (funding : FundingSource)
    (db : BillingDB) : FundingResult :=
  match funding with
  | .wallet w =>
    if amount ≤ 0 then ⟨.ok (), funding, db, false⟩
    else db.onWallet w { w with consumed := amount }
      (reserveUserQuota env.fault w.requestId w.userId amount w.sourceType env.now)
  | .subscription s =>
    let r := preConsumeUserSubscription ⟨env.now, env.loc, env.plans, fun _ => env.fault⟩
      s.requestId s.userId s.amount db.subscriptions
    let db := { db with subscriptions := r.2 }
    match r.1 with
    | .error e => ⟨.error e, funding, db, true⟩
    | .ok res =>
      ⟨.ok (), .subscription { s with
        subscriptionId := res.userSubscriptionId
        preConsumed := res.preConsumed
        amountTotal := res.amountTotal
        amountUsedAfter := res.amountUsedAfter }, db, false⟩

namespace BillingSession

/-- Whether nothing has to be pre-consumed: the token and the wallet both hold more than the
threshold. A subscription is never trusted. -/
def shouldTrust (trustQuota userQuota : Int) (req : BillingRequest) (s : BillingSession) : Bool :=
  if req.forcePreConsume then false
  else if trustQuota ≤ 0 then false
  else if !(req.relayInfo.tokenUnlimited || trustQuota < req.tokenQuota) then false
  else
    match s.funding with
    | .wallet _ => trustQuota < userQuota
    | .subscription _ => false

/-- The error a refused funding source is reported as. -/
def fundingError (e : Err) : NewAPIError :=
  if e.is .userQuotaInsufficient then newForbidden e .insufficientUserQuota
  else if e.is .noActiveSubscription || e.is .subscriptionQuotaInsufficient then
    newForbidden e .insufficientUserQuota "订阅额度不足或未配置订阅"
  else newError e .updateDataError

/-- An attempt: the token, then the funding source. -/
def preConsume (env : BillingEnv) (trusted : Bool) (quota : Int) (s : BillingSession)
    (db : BillingDB) : Except NewAPIError BillingSession × BillingDB :=
  let effectiveQuota := if trusted then 0 else quota
  let token := if 0 < effectiveQuota then
      preConsumeTokenQuota env s.relayInfo effectiveQuota db.tokens
    else (.ok (), db.tokens)
  let db := { db with tokens := token.2 }
  match token.1 with
  | .error e => (.error (newForbidden e .preConsumeTokenQuotaFailed), db)
  | .ok _ =>
    let tokenConsumed := if 0 < effectiveQuota then effectiveQuota else s.tokenConsumed
    let f := s.funding.preConsume env effectiveQuota db
    match f.result with
    | .error e =>
      -- the token gets its quota back; an error of this call is only logged
      let tokens := if 0 < tokenConsumed ∧ s.relayInfo.isPlayground = false then
          (increaseTokenQuota env.rollbackFault s.relayInfo.tokenId tokenConsumed f.db.tokens).2
        else f.db.tokens
      (.error (fundingError e), { f.db with tokens })
    | .ok _ =>
      (.ok { s with
        trusted := s.trusted || trusted
        tokenConsumed
        funding := f.funding
        preConsumedQuota := effectiveQuota }.syncRelayInfo, f.db)

end BillingSession

/-! ## `NewBillingSession` -/

section NewSession

variable (env : OpeningEnv) (req : BillingRequest) (preConsumedQuota : Int) (db : BillingDB)

/-- The attempt on the wallet, whose balance is looked at first. -/
def tryWallet : Except NewAPIError BillingSession × BillingDB :=
  match getUserQuota env.userQuotaFault req.relayInfo.userId db.wallet with
  | .error e => (.error (newError e .queryDataError), db)
  | .ok userQuota =>
    if userQuota ≤ 0 then
      (.error (newForbidden (.text s!"用户额度不足, 剩余额度: {env.formatQuota userQuota}")
        .insufficientUserQuota), db)
    else if userQuota - preConsumedQuota < 0 then
      (.error (newForbidden (.text (s!"预扣费额度失败, 用户剩余额度: {env.formatQuota userQuota}, " ++
        s!"需要预扣费额度: {env.formatQuota preConsumedQuota}")) .insufficientUserQuota), db)
    else
      let session : BillingSession :=
        { relayInfo := req.relayInfo
          funding := .wallet
            { requestId := req.relayInfo.requestId, userId := req.relayInfo.userId
              sourceType := "api_billing" } }
      session.preConsume env.wallet (session.shouldTrust env.trustQuota userQuota req)
        preConsumedQuota db

/-- The attempt on the subscriptions, which pre-consumes at least one unit. -/
def trySubscription : Except NewAPIError BillingSession × BillingDB :=
  let subConsume := if preConsumedQuota ≤ 0 then 1 else preConsumedQuota
  let session : BillingSession :=
    { relayInfo := req.relayInfo
      funding := .subscription
        { requestId := req.relayInfo.requestId, userId := req.relayInfo.userId
          amount := subConsume } }
  session.preConsume env.subscription (session.shouldTrust env.trustQuota 0 req) subConsume db

/-- A second attempt, when the first was refused for want of quota. -/
def orElseInsufficient (first : Except NewAPIError BillingSession × BillingDB)
    (second : BillingDB → Except NewAPIError BillingSession × BillingDB) :
    Except NewAPIError BillingSession × BillingDB :=
  match first with
  | (.error e, db) =>
    if e.errorCode = .insufficientUserQuota then second db else (.error e, db)
  | (.ok session, db) => (.ok session, db)

/-- `NewBillingSession` for a request that is there. -/
def openSession : Except NewAPIError BillingSession × BillingDB :=
  match normalizeBillingPreference req.billingPreference with
  | .subscriptionOnly => trySubscription env req preConsumedQuota db
  | .walletOnly => tryWallet env req preConsumedQuota db
  | .walletFirst =>
    orElseInsufficient (tryWallet env req preConsumedQuota db)
      (trySubscription env req preConsumedQuota)
  | .subscriptionFirst =>
    match hasActiveUserSubscription env.activeFault env.now req.relayInfo.userId
        db.subscriptions with
    | .error e => (.error (newError e .queryDataError), db)
    | .ok false => tryWallet env req preConsumedQuota db
    | .ok true =>
      orElseInsufficient (trySubscription env req preConsumedQuota db)
        (tryWallet env req preConsumedQuota)

/-- Opens the session of a request. -/
def newBillingSession (req : Option BillingRequest) :
    Except NewAPIError BillingSession × BillingDB :=
  match req with
  | none => (.error (newError (.text "relayInfo is nil") .invalidRequest), db)
  | some req => openSession env req preConsumedQuota db

end NewSession

/-! ## Tokens -/

/-- A token after a request has taken a quota from its own; nothing is taken in the playground. -/
def RelayInfo.charge (info : RelayInfo) (q : Int) (t : Token) : Token :=
  if t.id = info.tokenId ∧ info.isPlayground = false then (Token.charge q).apply t else t

/-- A request has taken a quota from its token, and nothing from the others. -/
def TokensCharged (info : RelayInfo) (q : Int) (tokens tokens' : Table Token) : Prop :=
  tokens'.rows = tokens.rows.map (info.charge q)

@[simp] theorem Token.charge_zero (t : Token) : (Token.charge 0).apply t = t := by
  simp [Token.charge]

/-- What was charged can be given back. -/
@[simp] theorem Token.charge_neg_charge (q : Int) (t : Token) :
    (Token.charge (-q)).apply ((Token.charge q).apply t) = t := by
  simp [Token.charge]

@[simp] theorem TokensCharged.zero (info : RelayInfo) (tokens : Table Token) :
    TokensCharged info 0 tokens tokens := by
  have hcharge : info.charge 0 = id := by
    funext t
    simp [RelayInfo.charge]
  simp [TokensCharged, hcharge]

/-- The token refuses and keeps its quota, or it is charged. -/
theorem preConsumeTokenQuota_cases (env : BillingEnv) (info : RelayInfo) (q : Int)
    (tokens : Table Token) :
    (∃ e, preConsumeTokenQuota env info q tokens = (.error e, tokens)) ∨
      ((preConsumeTokenQuota env info q tokens).1 = .ok () ∧
        TokensCharged info q tokens (preConsumeTokenQuota env info q tokens).2) := by
  unfold preConsumeTokenQuota
  split
  · exact .inl ⟨_, rfl⟩
  split
  · next hplayground =>
    have hcharge : info.charge q = id := by
      funext t
      simp [RelayInfo.charge, hplayground]
    exact .inr ⟨rfl, by simp [TokensCharged, hcharge]⟩
  next hplayground =>
  split
  · exact .inl ⟨_, rfl⟩
  split
  · exact .inl ⟨_, rfl⟩
  rcases changeTokenQuota_cases env.tokenFault info.tokenId q q tokens with ⟨e, he⟩ | he
  · exact .inl ⟨e, he⟩
  · rw [decreaseTokenQuota, he]
    refine .inr ⟨rfl, map_congr_left fun t _ => ?_⟩
    simp [RelayInfo.charge, hplayground]

/-- **The rollback by hand restores the tokens**, as long as its own call succeeds. -/
theorem TokensCharged.rollback {info : RelayInfo} {q : Int} {tokens tokens' : Table Token}
    (h : TokensCharged info q tokens tokens') (hq : 0 ≤ q) :
    (if 0 < q ∧ info.isPlayground = false then
      (increaseTokenQuota none info.tokenId q tokens').2 else tokens') = tokens := by
  split
  · next hcharged =>
    have hbody : (increaseTokenQuota none info.tokenId q tokens').2
        = (tokens'.updateWhere (fun t => t.id = info.tokenId) (Token.charge (-q))).1 := by
      have hargs : failIf (q < 0) (.text "quota 不能为负数！" : Err) = .ok () := by
        rw [failIf_eq_ok]
        omega
      rw [increaseTokenQuota, changeTokenQuota, checked_ok hargs]
      rfl
    rw [hbody]
    refine Table.ext ?_
    rw [Table.rows_updateWhere, h, map_map]
    refine (map_congr_left fun t _ => ?_).trans (map_id tokens.rows)
    -- a charge keeps the primary key, so both updates match the same rows
    by_cases hid : t.id = info.tokenId
    · have hid' : ((Token.charge q).apply t).id = info.tokenId := hid
      simp [RelayInfo.charge, hid, hid', hcharged.2]
    · simp [RelayInfo.charge, hid]
  · next hcharged =>
    refine Table.ext (h.trans ((map_congr_left fun t _ => ?_).trans (map_id tokens.rows)))
    unfold RelayInfo.charge
    split
    · next hid =>
      obtain rfl : q = 0 := by
        have : ¬ 0 < q := fun hpos => hcharged ⟨hpos, hid.2⟩
        omega
      exact Token.charge_zero t
    · rfl

/-! ## Funding sources -/

/-- The hold of a request for a quota: none for no quota. -/
def Hold.ofQuota (q : Int) : Hold := if q = 0 then .none else .active q

@[simp] theorem Hold.ofQuota_zero : Hold.ofQuota 0 = .none := rfl

theorem Hold.ofQuota_pos {q : Int} (hq : 0 < q) : Hold.ofQuota q = .active q :=
  if_neg hq.ne'

/-- The durable hold of a request in the wallet. -/
def BillingDB.walletHold (db : BillingDB) (requestId : String) : Hold :=
  match normalizeUserQuotaRequest requestId with
  | .ok k => db.wallet.holdOf k
  | .error _ => .none

/-- The durable hold of a request in the subscriptions. -/
def BillingDB.subscriptionHold (db : BillingDB) (requestId : String) : Hold :=
  match normalizeSubscriptionRequest requestId with
  | .ok k => ((db.subscriptions.records.byKey k).map SubscriptionPreConsumeRecord.hold).getD .none
  | .error _ => .none

/-- The holds in the wallet and in the subscriptions when only this funding source holds a quota. -/
def FundingSource.holdsAlone (q : Int) : FundingSource → Hold × Hold
  | .wallet _ => (Hold.ofQuota q, .none)
  | .subscription _ => (.none, Hold.ofQuota q)

/-- The tables of the other funding source are as they were. -/
def FundingSource.OtherKept (db db' : BillingDB) : FundingSource → Prop
  | .wallet _ => db'.subscriptions = db.subscriptions
  | .subscription _ => db'.wallet = db.wallet

/-- What a request that held nothing has taken from the funding sources: one of them holds the quota,
the other one was not touched. -/
structure BillingDB.Took (db : BillingDB) (info : RelayInfo) (q : Int) (funding : FundingSource)
    (db' : BillingDB) : Prop where
  consumed : funding.consumed = q
  other : funding.OtherKept db db'
  holds : db.walletHold info.requestId = .none → db.subscriptionHold info.requestId = .none →
    (db'.walletHold info.requestId, db'.subscriptionHold info.requestId) = funding.holdsAlone q
  balance : db.walletHold info.requestId = .none → db'.wallet.quotaOf info.userId
    = db.wallet.quotaOf info.userId - (db'.walletHold info.requestId).charge

/-- The wallet refuses and keeps its balance, or it holds the amount. -/
theorem preConsume_wallet (env : BillingEnv) (info : RelayInfo) (sourceType : String) {amount : Int}
    (hamount : 0 ≤ amount) (db : BillingDB) :
    let f := preConsume env amount
      (.wallet { requestId := info.requestId, userId := info.userId, sourceType }) db
    ((∃ e, f.result = .error e) ∧ f.db = db) ∨
      (f.result = .ok () ∧ f.db.tokens = db.tokens ∧ db.Took info amount f.funding f.db) := by
  intro f
  rcases hamount.eq_or_lt with rfl | hpos
  · -- nothing is asked for, so the wallet is not called
    have hf : f = ⟨.ok (), .wallet { requestId := info.requestId, userId := info.userId, sourceType },
        db, false⟩ := rfl
    rw [hf]
    refine .inr ⟨rfl, rfl, rfl, rfl, fun hwallet hsub => ?_, fun hwallet => ?_⟩
    · simp [hwallet, hsub, holdsAlone]
    · simp [hwallet, Hold.charge]
  have hf : f = db.onWallet { requestId := info.requestId, userId := info.userId, sourceType }
      { requestId := info.requestId, userId := info.userId, sourceType, consumed := amount }
      (reserveUserQuota env.fault info.requestId info.userId amount sourceType env.now) :=
    if_neg hpos.not_ge
  have houtcome := reserveUserQuota_outcome env.fault info.requestId info.userId db.wallet amount
    sourceType env.now
  rcases houtcome with ⟨e, he⟩ | ⟨k, w', hk, he, -⟩
  · rw [hf, onWallet, he]
    exact .inl ⟨⟨e, rfl⟩, rfl⟩
  have hstands (hwallet : db.walletHold info.requestId = .none) :
      w'.StandsAt info.requestId info.userId (db.wallet.quotaOf info.userId) (.active amount) := by
    simp only [walletHold, hk] at hwallet
    have hbefore : db.wallet.StandsAt info.requestId info.userId
        (db.wallet.quotaOf info.userId) .none := by
      refine ⟨(sub_zero _).symm, fun k' hk' => ?_⟩
      obtain rfl := Except.ok.inj (hk.symm.trans hk')
      refine ⟨hwallet, fun r hr => ?_⟩
      rw [Wallet.byKey_of_holdOf_none hwallet] at hr
      cases hr
    have hok : (reserveUserQuota env.fault info.requestId info.userId amount sourceType env.now
        db.wallet).1 = .ok () := by rw [he]
    have hafter := hbefore.reserve hok
    rwa [he] at hafter
  rw [hf, onWallet, he]
  refine .inr ⟨rfl, rfl, rfl, rfl, fun hwallet hsub => ?_, fun hwallet => ?_⟩
  · have hhold : walletHold { db with wallet := w' } info.requestId = .active amount := by
      simp only [walletHold, hk]
      exact ((hstands hwallet).row k hk).1
    simp only [hhold, holdsAlone, Hold.ofQuota_pos hpos]
    exact congrArg _ hsub
  · have hhold : walletHold { db with wallet := w' } info.requestId = .active amount := by
      simp only [walletHold, hk]
      exact ((hstands hwallet).row k hk).1
    rw [hhold]
    exact (hstands hwallet).balance

/-- A pre-consumption that goes through takes its amount; the record of a request that held nothing
holds it afterwards. -/
theorem preConsumeUserSubscription_hold {env : SubscriptionEnv} {requestId k : String}
    {userId amount : Int} {db : SubscriptionDB} {result : SubscriptionPreConsumeResult}
    (hk : normalizeSubscriptionRequest requestId = .ok k)
    (hok : (preConsumeUserSubscription env requestId userId amount db).1 = .ok result) :
    0 < amount ∧ result.preConsumed = amount ∧
      (((db.records.byKey k).map SubscriptionPreConsumeRecord.hold).getD .none = .none →
        (((preConsumeUserSubscription env requestId userId amount db).2.records.byKey k).map
          SubscriptionPreConsumeRecord.hold).getD .none = .active amount) := by
  unfold preConsumeUserSubscription at hok ⊢
  rcases checked_transaction_cases _ (env.faults 0)
    (fun requestId => preConsumeUserSubscriptionTx env requestId userId amount) db with
    ⟨e, he⟩ | ⟨k₀, result', db', hargs, hbody, he⟩
  · rw [he] at hok; cases hok
  rw [he] at hok ⊢
  cases hok
  simp only [ok_iff, not_le, hk, Except.ok.injEq] at hargs
  obtain ⟨-, _, rfl, hpos, rfl⟩ := hargs
  refine ⟨hpos, ?_⟩
  simp only [preConsumeUserSubscriptionTx] at hbody
  split at hbody
  · -- the request is known: a replay needs a record that holds or has settled its quota
    simp only [replayPreConsume, ok_iff, not_or, not_not, Prod.mk.injEq,
        lockSubscriptionPreConsumeRecordTx_eq_ok, not_and] at hbody
    obtain ⟨r, hr, hmatch, -, hstatus, sub, -, rfl, rfl⟩ := hbody
    refine ⟨hmatch.2, fun hhold => ?_⟩
    rw [hr] at hhold
    cases hstatus' : r.status <;>
      simp [SubscriptionPreConsumeRecord.hold, hstatus'] at hhold hstatus
  · next records hcreate =>
    simp only [ok_iff] at hbody
    obtain ⟨hquota, hrow, -⟩ := preConsumeFrom_record
      (by rw [Table.byKey_of_create hcreate]; exact if_pos rfl) rfl hbody.2
    refine ⟨hquota, fun _ => ?_⟩
    rw [hrow]
    rfl

/-- The subscriptions refuse and stay as they are, or one of them holds the amount. -/
theorem preConsume_subscription (env : BillingEnv) (info : RelayInfo) (amount : Int)
    (db : BillingDB) :
    let f := preConsume env amount
      (.subscription { requestId := info.requestId, userId := info.userId, amount }) db
    ((∃ e, f.result = .error e) ∧ f.db = db) ∨
      (f.result = .ok () ∧ f.db.tokens = db.tokens ∧ db.Took info amount f.funding f.db) := by
  intro f
  let senv : SubscriptionEnv := ⟨env.now, env.loc, env.plans, fun _ => env.fault⟩
  have hcases := checked_transaction_cases (do
      failIf (info.userId ≤ 0) (.text "invalid userId")
      let requestId ← normalizeSubscriptionRequest info.requestId
      failIf (amount ≤ 0) (.text "amount must be > 0")
      return requestId) (senv.faults 0)
    (fun requestId => preConsumeUserSubscriptionTx senv requestId info.userId amount)
    db.subscriptions
  rcases hcases with ⟨e, he⟩ | ⟨k, res, db', hargs, -, he⟩
  · have hcall : preConsumeUserSubscription senv info.requestId info.userId amount
        db.subscriptions = (.error e, db.subscriptions) := he
    have hf : f = ⟨.error e, .subscription
        { requestId := info.requestId, userId := info.userId, amount }, db, true⟩ := by
      show preConsume env amount _ db = _
      simp only [preConsume]
      rw [hcall]
    rw [hf]
    exact .inl ⟨⟨e, rfl⟩, rfl⟩
  have hcall : preConsumeUserSubscription senv info.requestId info.userId amount
      db.subscriptions = (.ok res, db') := he
  simp only [ok_iff] at hargs
  obtain ⟨-, k, hk, -, rfl⟩ := hargs
  obtain ⟨hpos, hquota, hhold⟩ := preConsumeUserSubscription_hold hk (congrArg Prod.fst hcall)
  rw [hcall] at hhold
  have hf : f = ⟨.ok (), .subscription
      { requestId := info.requestId, userId := info.userId, amount
        subscriptionId := res.userSubscriptionId, preConsumed := res.preConsumed
        amountTotal := res.amountTotal, amountUsedAfter := res.amountUsedAfter },
      { db with subscriptions := db' }, false⟩ := by
    show preConsume env amount _ db = _
    simp only [preConsume]
    rw [hcall]
  rw [hf]
  refine .inr ⟨rfl, rfl, hquota, rfl, fun hwallet hsub => ?_, fun hwallet => ?_⟩
  · simp only [subscriptionHold, hk] at hsub ⊢
    rw [hhold hsub, holdsAlone, Hold.ofQuota_pos hpos]
    exact Prod.ext hwallet rfl
  · have hkept : walletHold { db with subscriptions := db' } info.requestId = .none :=
      hwallet
    rw [hkept]
    exact (sub_zero _).symm

/-! ## Atomicity -/

/-- What an opened session has taken: the quota it remembers, from its token and from one funding
source. -/
structure BillingDB.Opened (db : BillingDB) (info : RelayInfo) (s : BillingSession)
    (db' : BillingDB) : Prop where
  tokens : TokensCharged info s.preConsumedQuota db.tokens db'.tokens
  took : db.Took info s.preConsumedQuota s.funding db'

/-- Either there is an error and nothing was taken, or there is a session for what was taken. -/
def BillingDB.Atomic (db : BillingDB) (info : RelayInfo)
    (r : Except NewAPIError BillingSession × BillingDB) : Prop :=
  match r with
  | (.error _, db') => db' = db
  | (.ok s, db') => db.Opened info s db'

section Attempt

variable {env : BillingEnv} {s : BillingSession} {db : BillingDB} {quota : Int} {trusted : Bool}

/-- **An attempt is atomic** if its funding source is. -/
theorem preConsume_atomic (hconsumed : s.tokenConsumed = 0)
    (hquota : 0 ≤ quota) (hrollback : env.rollbackFault = none)
    (hfunding : ∀ amount, 0 ≤ amount → (trusted = false → amount = quota) → ∀ db,
      let f := s.funding.preConsume env amount db
      ((∃ e, f.result = .error e) ∧ f.db = db) ∨
        (f.result = .ok () ∧ f.db.tokens = db.tokens ∧ db.Took s.relayInfo amount f.funding f.db)) :
    db.Atomic s.relayInfo (s.preConsume env trusted quota db) := by
  unfold BillingSession.preConsume
  -- the quota the attempt asks for, and what the token does
  obtain ⟨amount, hamount, hnonneg, htrusted⟩ : ∃ amount, (if trusted then 0 else quota) = amount ∧
      0 ≤ amount ∧ (trusted = false → amount = quota) := by
    refine ⟨_, rfl, ?_, fun h => by rw [h]; rfl⟩
    split <;> omega
  simp only [hamount]
  obtain ⟨token, htoken⟩ : ∃ token, (if 0 < amount then
      preConsumeTokenQuota env s.relayInfo amount db.tokens else (.ok (), db.tokens)) = token :=
    ⟨_, rfl⟩
  have hcases : (∃ e, token = (.error e, db.tokens)) ∨
      (token.1 = .ok () ∧ TokensCharged s.relayInfo amount db.tokens token.2) := by
    rw [← htoken]
    split
    · exact preConsumeTokenQuota_cases env s.relayInfo amount db.tokens
    · obtain rfl : amount = 0 := by omega
      exact .inr ⟨rfl, .zero s.relayInfo db.tokens⟩
  have hheld : (if 0 < amount then amount else s.tokenConsumed) = amount := by
    split <;> omega
  simp only [htoken, hheld]
  rcases hcases with ⟨e, rfl⟩ | ⟨hok, hcharged⟩
  · rfl
  rw [hok]
  rcases hfunding amount hnonneg htrusted { db with tokens := token.2 } with
    ⟨⟨e, he⟩, hdb⟩ | ⟨hresult, htokens, htook⟩
  · -- the funding source refused: the token gets back what it gave
    simp only [he, hdb, hrollback]
    show ({ db with tokens := _ } : BillingDB) = db
    rw [hcharged.rollback hnonneg]
  · simp only [hresult]
    obtain ⟨info, hinfo, -⟩ := BillingSession.syncRelayInfo_eq { s with
      trusted := s.trusted || trusted
      tokenConsumed := amount
      funding := (s.funding.preConsume env amount { db with tokens := token.2 }).funding
      preConsumedQuota := amount }
    rw [hinfo]
    refine ⟨?_, htook.consumed, htook.other, htook.holds, htook.balance⟩
    rw [htokens]
    exact hcharged

end Attempt

section NewSession

variable {env : OpeningEnv} {req : BillingRequest} {db : BillingDB} {quota : Int}

theorem tryWallet_atomic (hquota : 0 ≤ quota) (hrollback : env.wallet.rollbackFault = none) :
    db.Atomic req.relayInfo (tryWallet env req quota db) := by
  unfold tryWallet
  split
  · rfl
  split
  · rfl
  split
  · rfl
  exact preConsume_atomic rfl hquota hrollback fun amount hamount _ db =>
    preConsume_wallet env.wallet req.relayInfo "api_billing" hamount db

/-- A session over a subscription is not trusted. -/
theorem shouldTrust_subscription {trustQuota userQuota : Int} {s : BillingSession}
    {f : SubscriptionFunding} (hf : s.funding = .subscription f) :
    s.shouldTrust trustQuota userQuota req = false := by
  unfold BillingSession.shouldTrust
  rw [hf]
  simp

theorem trySubscription_atomic (hquota : 0 ≤ quota)
    (hrollback : env.subscription.rollbackFault = none) :
    db.Atomic req.relayInfo (trySubscription env req quota db) := by
  have hpos : 0 ≤ if quota ≤ 0 then 1 else quota := by split <;> omega
  refine preConsume_atomic rfl hpos hrollback fun amount _ hamount db => ?_
  obtain rfl := hamount (shouldTrust_subscription rfl)
  exact preConsume_subscription env.subscription req.relayInfo _ db

/-- An attempt after a refused one starts from the same tables. -/
theorem BillingDB.Atomic.orElse {info : RelayInfo}
    {first : Except NewAPIError BillingSession × BillingDB}
    {second : BillingDB → Except NewAPIError BillingSession × BillingDB}
    (hfirst : db.Atomic info first) (hsecond : db.Atomic info (second db)) :
    db.Atomic info (orElseInsufficient first second) := by
  obtain ⟨e | s, db'⟩ := first
  · obtain rfl : db' = db := hfirst
    simp only [orElseInsufficient]
    split
    · exact hsecond
    · rfl
  · exact hfirst

end NewSession

/-- A request with a token of 500 units, of a user with 1000. -/
def BillingRequest.sample (preference : String) : BillingRequest :=
  { relayInfo := .sample, forcePreConsume := false, billingPreference := preference, tokenQuota := 500 }

/-- Queries and calls at time 0 without faults. -/
def OpeningEnv.sample : OpeningEnv :=
  { wallet := .sample, subscription := .sample, now := 0, trustQuota := 5000000 }

end Prox
