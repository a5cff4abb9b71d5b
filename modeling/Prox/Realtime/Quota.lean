import Prox.Billing.Agreement
import Prox.Lib.Decimal

/-! # Charging a realtime session

The embedding of the realtime part of `service/quota.go`. While a websocket session runs, every
response turn is charged at once: `PreWssConsumeQuota` prices the usage of the turn and
`PostConsumeQuota` takes the quota from the funding source, under an idempotency key made of the
request id and the amount. When the session ends, `PostWssConsumeQuota` prices the summed usage and
settles the billing session of the request at that quota. Statistics (`UpdateUserUsedQuota…`,
`UpdateChannelUsedQuota`), notifications and the texts of the log are left out. -/

namespace Prox

/-! ## Prices -/

/-- The tokens of one direction. -/
structure TokenDetails where
  textTokens : Int
  audioTokens : Int

/-- What the price of a usage depends on. -/
structure QuotaInfo where
  inputDetails : TokenDetails
  outputDetails : TokenDetails
  modelName : String
  usePrice : Bool
  modelPrice : ℚ := 0
  modelRatio : ℚ
  groupRatio : ℚ

/-- The ratio settings at some moment; an operator may change them at any time. -/
structure RatioSettings where
  quotaPerUnit : ℚ
  getCompletionRatio : String → ℚ
  getAudioRatio : String → ℚ
  getAudioCompletionRatio : String → ℚ
  getModelRatio : String → ℚ
  getGroupRatio : String → ℚ
  /-- The ratio of a user group inside a group, where one is set. -/
  getGroupGroupRatio : String → String → Option ℚ

/-- The quota of a usage. -/
def calculateAudioQuota (ratios : RatioSettings) (info : QuotaInfo) : Int :=
  if info.usePrice then intPart (info.modelPrice * ratios.quotaPerUnit * info.groupRatio) else
  let completionRatio := ratios.getCompletionRatio info.modelName
  let audioRatio := ratios.getAudioRatio info.modelName
  let audioCompletionRatio := ratios.getAudioCompletionRatio info.modelName
  let ratio := info.groupRatio * info.modelRatio
  let quota : ℚ := info.inputDetails.textTokens + info.outputDetails.textTokens * completionRatio
    + info.inputDetails.audioTokens * audioRatio
    + info.outputDetails.audioTokens * audioRatio * audioCompletionRatio
  let quota := quota * ratio
  -- a priced model costs at least one unit
  let quota := if ratio ≠ 0 ∧ quota ≤ 0 then 1 else quota
  intPart (roundHalfAway quota)

/-! ## Usage -/

/-- The token counts of a realtime response. -/
structure RealtimeUsage where
  totalTokens : Int := 0
  inputTokens : Int := 0
  outputTokens : Int := 0
  inputCached : Int := 0
  inputText : Int := 0
  inputAudio : Int := 0
  outputText : Int := 0
  outputAudio : Int := 0

namespace RealtimeUsage

/-- The `+=` of two usages, field by field. -/
def add (u v : RealtimeUsage) : RealtimeUsage where
  totalTokens := wrapInt64 (u.totalTokens + v.totalTokens)
  inputTokens := wrapInt64 (u.inputTokens + v.inputTokens)
  outputTokens := wrapInt64 (u.outputTokens + v.outputTokens)
  inputCached := wrapInt64 (u.inputCached + v.inputCached)
  inputText := wrapInt64 (u.inputText + v.inputText)
  inputAudio := wrapInt64 (u.inputAudio + v.inputAudio)
  outputText := wrapInt64 (u.outputText + v.outputText)
  outputAudio := wrapInt64 (u.outputAudio + v.outputAudio)

/-- Tokens counted on a message of the client. -/
def input (textToken audioToken : Int) : RealtimeUsage :=
  { totalTokens := textToken + audioToken, inputTokens := textToken + audioToken
    inputText := textToken, inputAudio := audioToken }

/-- Tokens counted on a message of the upstream. -/
def output (textToken audioToken : Int) : RealtimeUsage :=
  { totalTokens := textToken + audioToken, outputTokens := textToken + audioToken
    outputText := textToken, outputAudio := audioToken }

end RealtimeUsage

/-! ## The request -/

/-- The price that was fixed when the request came in. -/
structure PriceData where
  modelPrice : ℚ := 0
  modelRatio : ℚ
  groupRatio : ℚ
  usePrice : Bool := false

/-- What the realtime functions read of a request beside its billing fields. -/
structure RealtimeInfo where
  originModelName : String
  upstreamModelName : String
  usingGroup : String
  userGroup : String
  /-- The group that an `auto` token was resolved to. -/
  autoGroup : Option String := none
  usePrice : Bool := false
  priceData : PriceData
  /-- What `TryTieredSettle` makes of a usage; nothing without a tiered snapshot. -/
  tieredQuota : RealtimeUsage → Option Int := fun _ => none

/-- What a call reads from outside: in addition to a billing call, the quota of the user, which may
come from a cache, the unlimited flag of the token and the ratio settings. -/
structure RealtimeEnv extends BillingEnv where
  userQuota : Except Err Int
  tokenUnlimited : Bool := false
  ratios : RatioSettings

namespace RealtimeInfo

/-- The group whose ratio counts. -/
def group (info : RealtimeInfo) : String := info.autoGroup.getD info.usingGroup

/-- The ratio of the group: that of the user's own group inside it, where one is set. -/
def actualGroupRatio (info : RealtimeInfo) (ratios : RatioSettings) : ℚ :=
  (ratios.getGroupGroupRatio info.userGroup info.group).getD (ratios.getGroupRatio info.group)

/-- The price of one turn, at the settings of the moment. -/
def turnQuota (info : RealtimeInfo) (ratios : RatioSettings) (usage : RealtimeUsage) : Int :=
  calculateAudioQuota ratios
    { inputDetails := ⟨usage.inputText, usage.inputAudio⟩
      outputDetails := ⟨usage.outputText, usage.outputAudio⟩
      modelName := info.originModelName
      usePrice := info.usePrice
      modelRatio := ratios.getModelRatio info.originModelName
      groupRatio := info.actualGroupRatio ratios }

/-- The price of the summed usage, at the ratios the request came in with. -/
def sumQuota (info : RealtimeInfo) (ratios : RatioSettings) (usage : RealtimeUsage) : Int :=
  calculateAudioQuota ratios
    { inputDetails := ⟨usage.inputText, usage.inputAudio⟩
      outputDetails := ⟨usage.outputText, usage.outputAudio⟩
      modelName := info.upstreamModelName
      usePrice := info.priceData.usePrice
      modelRatio := info.priceData.modelRatio
      groupRatio := info.priceData.groupRatio }

end RealtimeInfo

/-! ## One charge -/

section Charge

variable (sha256Hex : String → String)

/-- The idempotency key of a charge: the request and the amount. -/
def legacyMutationID (relay : RelayInfo) (quota : Int) : String :=
  let mutationID := s!"legacy-billing:{trimSpace relay.requestId}:{quota}"
  if 128 < byteLen mutationID then "legacy-billing:" ++ sha256Hex mutationID else mutationID

/-- The mutation of the wallet that makes a charge. -/
def legacyMutation (relay : RelayInfo) (quota : Int) : UserQuotaMutation where
  userID := relay.userId
  deltaQuota := -quota
  requestID := legacyMutationID sha256Hex relay quota
  sourceType := "legacy_billing"
  transactionType := "legacy_billing"
  idempotencyKey := legacyMutationID sha256Hex relay quota
  remark := "legacy billing settlement"

/-- The first part of `PostConsumeQuota`: the funding source is charged. The flag says whether the
charge was applied now. -/
def consumeFunding (env : BillingEnv) (relay : RelayInfo) (quota : Int) (db : BillingDB) :
    Except Err Bool × RelayInfo × BillingDB :=
  if relay.billingSource = "subscription" then
    if relay.subscriptionId = 0 then (.error (.text "subscription id is missing"), relay, db) else
    if quota = 0 then (.ok false, relay, db) else
    let mutationID := legacyMutationID sha256Hex relay quota
    let r := postConsumeUserSubscriptionDeltaIdempotent env.fault relay.subscriptionId quota mutationID
      "legacy_billing" mutationID db.subscriptions
    match r.1 with
    | .error e => (.error e, relay, { db with subscriptions := r.2 })
    | .ok applied =>
      (.ok applied, { relay with subscriptionPostDelta := relay.subscriptionPostDelta + quota },
        { db with subscriptions := r.2 })
  else
    if quota = 0 then (.ok false, relay, db) else
    let r := applyUserQuotaMutation env.fault (legacyMutation sha256Hex relay quota) db.wallet
    (r.1, relay, { db with wallet := r.2 })

/-- The second part of `PostConsumeQuota`: the token follows. -/
def consumeToken (env : BillingEnv) (relay : RelayInfo) (quota : Int) (db : BillingDB) :
    Except Err Unit × BillingDB :=
  if relay.isPlayground then (.ok (), db) else
  let t := if 0 < quota then decreaseTokenQuota env.tokenFault relay.tokenId quota db.tokens
    else increaseTokenQuota env.tokenFault relay.tokenId (-quota) db.tokens
  (t.1, { db with tokens := t.2 })

/-- Charges a quota. A charge that was made before changes nothing. -/
def postConsumeQuota (env : BillingEnv) (relay : RelayInfo) (quota : Int) (db : BillingDB) :
    Except Err Unit × RelayInfo × BillingDB :=
  let f := consumeFunding sha256Hex env relay quota db
  match f.1 with
  | .error e => (.error e, f.2)
  | .ok applied =>
    if quota = 0 ∨ applied = false then (.ok (), f.2) else
    let t := consumeToken env f.2.1 quota f.2.2
    (t.1, f.2.1, t.2)

/-- What is checked before a turn is charged. -/
def checkTurnQuota (env : RealtimeEnv) (quota : Int) : Except Err Unit := do
  let userQuota ← env.userQuota
  let remainQuota ← env.tokenRemain
  failIf (userQuota < quota)
    (.text s!"user quota is not enough, user quota: {userQuota}, need quota: {quota}")
  failIf (env.tokenUnlimited = false ∧ remainQuota < quota)
    (.text s!"token quota is not enough, token remain quota: {remainQuota}, need quota: {quota}")

/-- Charges one turn of a session. -/
def preWssConsumeQuota (env : RealtimeEnv) (info : RealtimeInfo) (usage : RealtimeUsage)
    (b : BillingSystem) : Except Err Unit × BillingSystem :=
  if info.usePrice then (.ok (), b) else
  let quota := info.turnQuota env.ratios usage
  match checkTurnQuota env quota with
  | .error e => (.error e, b)
  | .ok _ =>
    let r := postConsumeQuota sha256Hex env.toBillingEnv b.session.relayInfo quota b.db
    (r.1, { b with session := { b.session with relayInfo := r.2.1 }, db := r.2.2 })

end Charge

/-! ## The settlement -/

/-- `SettleBilling` with a billing session; nothing else uses the session any more. -/
def settleBilling (env : BillingEnv) (actualQuota : Int) (b : BillingSystem) : BillingSystem :=
  let b := b.settle env actualQuota
  match b.settling with
  | some quota => b.settleToken env quota
  | none => b

/-- An entry of the consume log. -/
structure ConsumeLog where
  promptTokens : Int
  completionTokens : Int
  modelName : String
  quota : Int
  group : String

/-- The quota a session is settled at: a sum without tokens is a failed session and costs nothing. -/
def RealtimeInfo.settledQuota (info : RealtimeInfo) (ratios : RatioSettings) (usage : RealtimeUsage) :
    Int :=
  if usage.totalTokens = 0 then 0 else (info.tieredQuota usage).getD (info.sumQuota ratios usage)

/-- Settles a session and writes its log. -/
def postWssConsumeQuota (env : RealtimeEnv) (info : RealtimeInfo) (usage : RealtimeUsage)
    (b : BillingSystem) : BillingSystem × ConsumeLog :=
  let quota := info.settledQuota env.ratios usage
  (settleBilling env.toBillingEnv quota b,
    { promptTokens := usage.inputTokens, completionTokens := usage.outputTokens
      modelName := info.upstreamModelName, quota, group := info.group })

end Prox
