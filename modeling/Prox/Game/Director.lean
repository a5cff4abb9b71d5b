import Prox.Game.Plugins
import Prox.Lib.Run
import Prox.Lib.Threads

/-! # Messages and the background loop

The embedding of `GameDirector.route` and of the part of `_bg_loop` that deals with expired sessions. A
message is a thread: it looks up the group's active session and calls the game it is for. The loop takes a
snapshot of the expired sessions, settles each of them by a call of its game and ends the session of its
group, and removes what is expired at last. Every call of a game and every call of the session manager is
one step. The history says which rounds were started, settled and ended, and by whom. -/

namespace Prox

/-! ## Routing -/

/-- The triggers of the games with sessions. -/
def Game.triggers : Game → List String
  | .bankerGuess => ["坐庄", "开庄", "banker"]
  | .redpacket => ["红包", "红包雨", "redpacket", "发红包", "抢红包"]
  | .treasure => ["夺宝", "夺宝奇兵", "加入夺宝", "treasure"]

/-- The triggers of the other games. -/
def otherTriggers : List String :=
  ["悬赏", "bounty", "发布悬赏", "接单", "完成悬赏", "取消悬赏", "签到", "打卡", "给我擦皮鞋", "checkin", "signin",
    "骰子", "摇骰子", "dice", "掷骰", "比大小", "比数字", "对决", "compare", "成语接龙", "idiom", "接龙", "成接",
    "猜拳", "石头剪刀布", "rps", "剪刀石头布", "运势", "抽签", "占卜", "fortune", "邀请", "我的邀请", "invite",
    "myinvite", "邀请链接", "排行榜", "排名", "leaderboard", "rank", "龙虎榜", "彩票", "买彩票", "选号", "机选",
    "开奖", "lottery", "pick", "福袋", "每日福袋", "每天福袋", "开福袋", "拆福袋", "luckybag", "领福袋", "菜单",
    "游戏", "help", "menu", "帮助", "竞猜", "预测", "predict", "押注", "我的", "资产", "积分", "profile", "me",
    "余额", "答题", "每日答题", "答题帮助", "quiz", "helpquiz", "验牌", "我要验牌", "验证", "verify", "转盘",
    "幸运转盘", "wheel", "抽奖", "轮盘"]

/-- `match_command`. -/
def matchesCommand (triggers : List String) (text : String) : Bool := triggers.any (hasPrefix text ·)

/-- The first game with sessions whose trigger the text starts with. -/
def matchedGame (text : String) : Option Game :=
  [Game.bankerGuess, .redpacket, .treasure].find? fun g => matchesCommand g.triggers text

/-- The texts that need no account, in lower case. -/
def infoOnlyExactCommands : List String :=
  ["菜单", "游戏", "玩法", "帮助", "帮助游戏", "help", "menu", "game", "games", "游戏列表", "游戏菜单", "夺宝",
    "treasure", "彩票", "lottery", "状态", "排行榜", "排名", "leaderboard", "rank", "龙虎榜"]

/-- The message needs an account that it does not have. -/
def Message.lacksIdentity (m : Message) : Bool :=
  m.text ∉ infoOnlyExactCommands && !(m.isBound && m.newApiUserId > 0)

/-- A message on its way through `route`. -/
inductive RouteThread where
  /-- Looks up the active session of the group. -/
  | lookup (m : Message)
  /-- Calls a game; `active` when the call is for the active session. -/
  | call (m : Message) (g : Game) (active : Bool)
  | done (response : Option GameResponse)

/-- `route` after the active session: the game whose trigger matches. Other games keep no sessions. -/
def routeMatched (env : GameEnv) (m : Message) : RouteThread :=
  match matchedGame m.text with
  | none => .done none
  | some g =>
    if !env.admits g m then .done (some .quick)
    else if m.lacksIdentity then .done (some .quick)
    else .call m g false

/-- `route` with the group's active session. -/
def routeActive (env : GameEnv) (m : Message) (active : Option Game) : RouteThread :=
  match active with
  | none => routeMatched env m
  | some g =>
    -- an explicit command of another game goes to that game
    if matchesCommand otherTriggers m.text || (matchedGame m.text).any (· ≠ g) then routeMatched env m
    else if m.lacksIdentity then .done (some .quick)
    else .call m g true

/-! ## The system -/

/-- What happened to a session. -/
inductive RoundChange where
  | started
  /-- Its payout or refund actions were issued. -/
  | settled (actions : List GameAction)
  /-- The manager no longer has it. -/
  | ended
  deriving DecidableEq

/-- Who caused a change. -/
inductive RoundActor where
  | message
  /-- The loop, with the session it took from its snapshot; none in its clean-up. -/
  | loop (took : Option Nat)
  deriving DecidableEq

/-- An entry of the history. -/
structure RoundEvent where
  round : Nat
  actor : RoundActor
  time : Int
  change : RoundChange

/-- Where the background loop is. -/
inductive LoopState where
  | sleeping
  /-- The sessions of the snapshot that it has not settled, and all that it took. -/
  | settling (todo : List (String × Nat)) (taken : List Nat)
  /-- It has called the game of a session and ends the session of the group next. -/
  | ending (gid : String) (round : Nat) (todo : List (String × Nat)) (taken : List Nat)

/-- What messages and the loop share. -/
structure DirectorWorld where
  clock : Int
  sm : SessionManager
  loop : LoopState
  history : List RoundEvent

/-- The director with its messages. -/
abbrev Director := Pool DirectorWorld RouteThread

/-- The sessions that the manager has before a step and no longer after it. -/
def SessionManager.endedSince (before after : SessionManager) : List Nat :=
  (before.sessions.entries.filter fun e => after.sessions.get e.1 ≠ some e.2).map Prod.snd

/-- What a step adds to the history. -/
def roundEvents (actor : RoundActor) (time : Int) (before after : SessionManager)
    (response : Option GameResponse) : List RoundEvent :=
  (before.endedSince after).map (⟨·, actor, time, .ended⟩) ++
    ((response.bind fun r => r.settles.map fun n => ⟨n, actor, time, .settled r.actions⟩).toList : List RoundEvent) ++
    (List.range' before.objects.length (after.objects.length - before.objects.length)).map
      (⟨·, actor, time, .started⟩)

/-- The world after a step that leaves another manager. -/
def DirectorWorld.change (w : DirectorWorld) (actor : RoundActor) (sm : SessionManager)
    (response : Option GameResponse) (loop : LoopState) : DirectorWorld where
  clock := w.clock
  sm := sm
  loop := loop
  history := roundEvents actor w.clock w.sm sm response ++ w.history

/-- The next step of a message. -/
def RouteThread.step (env : GameEnv) : RouteThread → DirectorWorld → RouteThread × DirectorWorld
  | .lookup m, w =>
    (routeActive env m ((w.sm.getActive m.groupId w.clock).map fun s => s.2.game), w)
  | .call m g active, w =>
    let (response, sm) := g.handle env w.clock m w.sm
    let w := w.change .message sm response w.loop
    match response with
    | some r => (.done (some r), w)
    | none => (if active then routeMatched env m else .done none, w)
  | .done response, w => (.done response, w)

/-- The user that the loop puts forward for a red packet: its owner. -/
def autoClose (gid : String) (state : RedPacketState) : Message where
  groupId := gid
  userId := state.ownerUserId
  newApiUserId := state.ownerNewApiUserId
  text := "__auto_close__"
  isAdmin := true
  isBound := true

/-- The call that the loop makes for a session of its snapshot. -/
def settleExpired (env : GameEnv) (now : Int) (gid : String) (r : Nat) (sm : SessionManager) :
    Option GameResponse × SessionManager :=
  match sm.objects[r]?.map GameSession.state with
  | some (.redpacket state) => (RedPacket.handle env now (autoClose gid state) sm).map some id
  | some (.treasure state) => (Treasure.finalize env gid r state false sm).map some id
  | _ => (none, sm)

/-- The next step of the background loop. -/
def DirectorWorld.loopStep (env : GameEnv) (w : DirectorWorld) : DirectorWorld :=
  match w.loop with
  | .sleeping =>
    { w with loop := .settling (w.sm.expiredSessions w.clock) ((w.sm.expiredSessions w.clock).map Prod.snd) }
  | .settling [] _ => w.change (.loop none) (w.sm.cleanup w.clock) none .sleeping
  | .settling ((gid, r) :: todo) taken =>
    let (response, sm) := settleExpired env w.clock gid r w.sm
    w.change (.loop (some r)) sm response (.ending gid r todo taken)
  | .ending gid r todo taken => w.change (.loop (some r)) (w.sm.end_ gid) none (.settling todo taken)

/-- A step of the system: time goes on, a message comes, a message or the loop makes its next step. -/
inductive DirectorEvent where
  | wait (time : Nat)
  | message (m : Message)
  | route (env : GameEnv) (thread : Nat)
  | loop (env : GameEnv)

/-- The director after an event. -/
def Director.step (s : Director) : DirectorEvent → Director
  | .wait time => { s with shared := { s.shared with clock := s.shared.clock + time } }
  | .message m => s.spawn (.lookup m)
  | .route env thread => s.stepAt (RouteThread.step env) thread
  | .loop env => { s with shared := s.shared.loopStep env }

/-- The director after its start. -/
def Director.initial (clock : Int) : Director := ⟨⟨clock, {}, .sleeping, []⟩, []⟩

end Prox
