import Prox.Lib.Threads
import Prox.Reward.Calls

/-! # Check-ins

The embedding of `UserCheckinByChannelWithQuotaFromPool` of `model/checkin.go` with the settings it reads.
A check-in pays a reward out of a budget pool, once a day for each user and channel; a channel may also have
a daily budget of its own, which the call compares with what the channel has awarded that day. A call is a
thread: the query of an earlier check-in, the computation of the reward, the query of the channel's budget
and the transaction are its steps, each at its own time. -/

namespace Prox

/-! ## Settings and rows -/

/-- The channels of a check-in. -/
inductive CheckinChannel where
  | web
  | community
  | qq
  | tg
  deriving DecidableEq

/-- The name of a channel in rows and settings. -/
def CheckinChannel.text : CheckinChannel → String
  | .web => "web"
  | .community => "community"
  | .qq => "qq"
  | .tg => "tg"

/-- A name that is no channel stands for the web channel. -/
def normalizeCheckinChannel (channel : String) : CheckinChannel :=
  if channel = "community" then .community
  else if channel = "qq" then .qq
  else if channel = "tg" then .tg
  else .web

/-- The settings of one channel; what is zero or missing falls back to the settings of all. -/
structure CheckinChannelSetting where
  enabled : Option Bool := none
  minQuota : Int := 0
  maxQuota : Int := 0
  dailyBudget : Int := 0

/-- The settings of check-ins. -/
structure CheckinSetting where
  enabled : Bool
  minQuota : Int
  maxQuota : Int
  channels : List (String × CheckinChannelSetting) := []

namespace CheckinSetting

/-- A channel inherits the switch of all channels. -/
def channelEnabled (s : CheckinSetting) (channel : String) : Bool :=
  if !s.enabled then false
  else
    match (s.channels.lookup channel).bind CheckinChannelSetting.enabled with
    | some enabled => enabled
    | none => true

/-- The range of the reward. -/
def channelQuotaRange (s : CheckinSetting) (channel : String) : Int × Int :=
  let (min, max) :=
    match s.channels.lookup channel with
    | some c => (if c.minQuota > 0 then c.minQuota else s.minQuota, if c.maxQuota > 0 then c.maxQuota else s.maxQuota)
    | none => (s.minQuota, s.maxQuota)
  if max < min then (min, min) else (min, max)

/-- What the channel may award a day; `0` is no limit. -/
def channelDailyBudget (s : CheckinSetting) (channel : String) : Int :=
  match s.channels.lookup channel with
  | some c => c.dailyBudget
  | none => 0

end CheckinSetting

/-- A row of `checkins`. -/
structure Checkin where
  id : Int
  userId : Int
  checkinDate : String
  channel : CheckinChannel
  quotaAwarded : Int
  createdAt : Int

/-- The unique index of `checkins`: user, date and channel. -/
abbrev Checkin.key (c : Checkin) : Int × String × CheckinChannel := (c.userId, c.checkinDate, c.channel)

instance : Row Checkin (Int × String × CheckinChannel) := ⟨Checkin.id, Checkin.key⟩

/-- The check-ins and what they pay. -/
structure CheckinDB where
  checkins : Table Checkin
  reward : RewardDB

/-- `SELECT COALESCE(SUM(quota_awarded), 0) …` of a channel on a date. -/
def CheckinDB.awarded (db : CheckinDB) (channel : CheckinChannel) (date : String) : Int :=
  db.checkins.total (fun c => c.checkinDate = date ∧ c.channel = channel) Checkin.quotaAwarded

/-- What a step of a call sees besides the database: settings, the business date, the time, the random
number below a bound, and the product of a reward with a multiplier in percent, which the code takes in
floating point. -/
structure CheckinEnv where
  setting : CheckinSetting
  today : String
  now : Int
  randIntn : Int → Int
  scale : Int → Int → Int
  reward : RewardEnv

/-! ## Steps -/

/-- The arguments of a call, normalised. -/
structure CheckinCall where
  userId : Int
  channel : CheckinChannel
  quotaOverride : Int
  poolType : String

/-- A call before its next step, or with its result. -/
inductive CheckinThread where
  /-- Queries whether the user has checked in today. -/
  | check (c : CheckinCall)
  /-- Computes the reward. -/
  | award (c : CheckinCall)
  /-- Queries what the channel has awarded today, when it has a budget. -/
  | budget (c : CheckinCall) (quotaAwarded : Int)
  /-- Executes the transaction; `awarded` is what the channel had awarded by the query, if there was one. -/
  | settle (c : CheckinCall) (quotaAwarded : Int) (awarded : Option Int)
  | done (result : Except Err Checkin)

/-- `UserCheckinByChannelWithQuotaFromPool` up to its first query. -/
def userCheckinByChannelWithQuotaFromPool (env : CheckinEnv) (userId : Int) (channel : String)
    (quotaOverride : Int) (poolType : String) : CheckinThread :=
  let channel := normalizeCheckinChannel channel
  let poolType := toLowerAscii (trimSpace poolType)
  match validOpsPoolType poolType with
  | .error err => .done (.error err)
  | .ok () =>
    if !env.setting.enabled then .done (.error (.text "签到功能未启用"))
    else if !env.setting.channelEnabled channel.text then .done (.error (.text "当前渠道签到未开启"))
    else .check ⟨userId, channel, quotaOverride, poolType⟩

/-- `CountTotalCheckinDays`: the dates of a user's check-ins. -/
def CheckinDB.totalCheckinDays (db : CheckinDB) (userId : Int) : Nat :=
  ((db.checkins.rows.filter (·.userId = userId)).map Checkin.checkinDate).dedup.length

/-- The multiplier of `CheckinTier`, in percent. -/
def checkinTierMultiplier (totalDays : Nat) : Int :=
  if totalDays ≥ 90 then 150 else if totalDays ≥ 30 then 125 else if totalDays ≥ 7 then 110 else 100

/-- The reward of a call: its own, or a random one of the channel's range for the user's tier. -/
def CheckinCall.award (env : CheckinEnv) (totalDays : Nat) (c : CheckinCall) : Int :=
  if c.quotaOverride ≤ 0 then
    let (minQuota, maxQuota) := env.setting.channelQuotaRange c.channel.text
    let quotaAwarded := if maxQuota > minQuota then minQuota + env.randIntn (maxQuota - minQuota + 1) else minQuota
    env.scale quotaAwarded (checkinTierMultiplier (totalDays + 1))
  else c.quotaOverride

/-- `grantCheckinQuotaFromBudgetTx`; nothing in the quoted texts needs an escape. -/
def grantCheckinQuotaFromBudgetTx (env : RewardEnv) (userId quotaAwarded : Int) (channel : CheckinChannel)
    (checkinDate poolType : String) (db : RewardDB) : Except Err (Unit × RewardDB) :=
  let quoted (s : String) : String := "\"" ++ s ++ "\""
  let idem := s!"checkin:{channel.text}:{userId}:{checkinDate}"
  let remark := s!"checkin reward channel={channel.text} user_id={userId} date={checkinDate}"
  let metadata := "\x7b\"settlement_id\":" ++ quoted idem ++ ",\"channel\":" ++ quoted channel.text ++
    ",\"checkin_date\":" ++ quoted checkinDate ++ ",\"user_id\":" ++ toString userId ++
    ",\"source_type\":\"checkin_reward\"\x7d"
  grantQuotaFromBudgetPoolWithSourceTx env userId poolType quotaAwarded idem remark "checkin_reward" metadata db

/-- The error a failed grant is reported as. -/
def checkinGrantError (err : Err) : Err :=
  if err.is .budgetPoolQuotaInsufficient then .text "今日签到奖励池已发完，请明天再来"
  else if err.is .opsFundQuotaInsufficient then .text "当前活动基金不足，请联系管理员补充签到基金"
  else .text "签到失败：更新额度出错"

/-- The transaction of `userCheckinWithTransaction`: the row, then the grant. -/
def userCheckinTx (env : RewardEnv) (checkin : Checkin) (poolType : String) (db : CheckinDB) :
    Except Err (Checkin × CheckinDB) :=
  match db.checkins.create checkin with
  | none => .error (.text "签到失败，请稍后重试")
  | some checkins =>
    match grantCheckinQuotaFromBudgetTx env checkin.userId checkin.quotaAwarded checkin.channel
      checkin.checkinDate poolType db.reward with
    | .error err => .error (checkinGrantError err)
    | .ok ((), reward) => .ok (checkin, ⟨checkins, reward⟩)

/-- The next step of a call. A query of the earlier check-in that fails ends the call; one of the awarded
sum leaves it at `0`, one of the user's days leaves them at `0`. -/
def CheckinThread.step (env : CheckinEnv) (fault : Option Err) (th : CheckinThread) (db : CheckinDB) :
    CheckinThread × CheckinDB :=
  match th with
  | .check c =>
    match fault with
    | some err => (.done (.error err), db)
    | none =>
      if (db.checkins.byKey (c.userId, env.today, c.channel)).isSome then
        (.done (.error (.text "今日已签到")), db)
      else (.award c, db)
  | .award c =>
    let totalDays := if fault.isSome then 0 else db.totalCheckinDays c.userId
    (.budget c (c.award env totalDays), db)
  | .budget c quotaAwarded =>
    let budget := env.setting.channelDailyBudget c.channel.text
    if budget > 0 then
      let awarded := if fault.isSome then 0 else db.awarded c.channel env.today
      if awarded + quotaAwarded > budget then
        (.done (.error (.text "今日该渠道签到奖励池已发完，请明天再来")), db)
      else (.settle c quotaAwarded (some awarded), db)
    else (.settle c quotaAwarded none, db)
  | .settle c quotaAwarded _ =>
    let checkin : Checkin :=
      { id := db.checkins.nextId, userId := c.userId, checkinDate := env.today, channel := c.channel, quotaAwarded,
        createdAt := env.now }
    let (result, db) := transaction fault (userCheckinTx env.reward checkin c.poolType) db
    (.done result, db)
  | .done result => (.done result, db)

/-! ## Interleavings -/

/-- Any number of calls. -/
abbrev CheckinSystem := Pool CheckinDB CheckinThread

/-- A call begins, or one makes its next step. -/
inductive CheckinEvent where
  | begin (env : CheckinEnv) (userId : Int) (channel : String) (quotaOverride : Int) (poolType : String)
  | step (env : CheckinEnv) (thread : Nat) (fault : Option Err)

/-- The settings an event sees. -/
def CheckinEvent.setting : CheckinEvent → CheckinSetting
  | .begin env .. | .step env .. => env.setting

/-- The system after an event. -/
def CheckinSystem.step (s : CheckinSystem) : CheckinEvent → CheckinSystem
  | .begin env userId channel quotaOverride poolType =>
    s.spawn (userCheckinByChannelWithQuotaFromPool env userId channel quotaOverride poolType)
  | .step env thread fault => s.stepAt (CheckinThread.step env fault) thread

end Prox
