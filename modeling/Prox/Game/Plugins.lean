import Prox.Lib.Dict
import Prox.Lib.Go

/-! # Group games

The embedding of the games of the chat adapter that keep a session for a group: `TreasureGame` and
`RedPacketGame` with the `SessionManager` of `game_plugins/base.py`, and of `BankerGuessGame` what it does
with sessions. A session is an object that the manager refers to, so the sessions that were ever started
are kept in a list and a reference is a position in it. Replies and the local statistics of the budget,
which no decision reads, are left out. -/

namespace Prox

/-! ## Sessions -/

/-- The games that keep sessions. -/
inductive Game where
  | bankerGuess
  | redpacket
  | treasure
  deriving DecidableEq

/-- An entry of `participants`. -/
structure TreasureEntry where
  userId : String
  napi : Int
  tokens : Int
  spent : Int
  deriving DecidableEq

/-- The state of a treasure round; the users are distinct, in the order of their first entry. -/
structure TreasureState where
  participants : List TreasureEntry := []
  pool : Int := 0
  startedAt : Int
  deriving DecidableEq

/-- The state of a red packet. -/
structure RedPacketState where
  totPackets : Int
  totQuota : Int
  grabbed : List (String × Int) := []
  disbursed : Int := 0
  ownerUserId : String
  ownerNewApiUserId : Int
  deriving DecidableEq

/-- The state of a session, which also says whose it is. -/
inductive SessionState where
  | bankerGuess (bankerId : String)
  | redpacket (state : RedPacketState)
  | treasure (state : TreasureState)
  deriving DecidableEq

/-- `GameSession`. -/
structure GameSession where
  groupId : String
  expiresAt : Int
  state : SessionState
  deriving DecidableEq

/-- `game_name`. -/
def GameSession.game (s : GameSession) : Game :=
  match s.state with
  | .bankerGuess _ => .bankerGuess
  | .redpacket _ => .redpacket
  | .treasure _ => .treasure

/-- `is_expired()`. -/
def GameSession.isExpired (s : GameSession) (now : Int) : Bool := now > s.expiresAt

/-- `SessionManager`: the session of each group, and all sessions that were started. -/
structure SessionManager where
  objects : List GameSession := []
  sessions : Dict String Nat := .empty

namespace SessionManager

/-- The session of a group, even when it is expired, with its reference. -/
def getSession (sm : SessionManager) (gid : String) : Option (Nat × GameSession) :=
  (sm.sessions.get gid).bind fun r => sm.objects[r]?.map fun s => (r, s)

/-- The session of a group that is not expired. -/
def getActive (sm : SessionManager) (gid : String) (now : Int) : Option (Nat × GameSession) :=
  (sm.getSession gid).filter fun s => !s.2.isExpired now

/-- Stores a new session for the group, whatever it had. -/
def start (sm : SessionManager) (gid : String) (timeout now : Int) (state : SessionState) : SessionManager where
  objects := sm.objects ++ [⟨gid, now + timeout, state⟩]
  sessions := sm.sessions.set gid sm.objects.length

/-- Removes the session of the group. -/
def end_ (sm : SessionManager) (gid : String) : SessionManager := { sm with sessions := sm.sessions.pop gid }

/-- The groups whose session is expired. -/
def expiredSessions (sm : SessionManager) (now : Int) : List (String × Nat) :=
  sm.sessions.entries.filter fun e => sm.objects[e.2]?.any (GameSession.isExpired · now)

/-- Removes the expired sessions. -/
def cleanup (sm : SessionManager) (now : Int) : SessionManager :=
  { sm with sessions := sm.sessions.filter fun e => !sm.objects[e.2]?.any (GameSession.isExpired · now) }

/-- A game changes the state of a session in place. -/
def setState (sm : SessionManager) (r : Nat) (state : SessionState) : SessionManager :=
  { sm with objects := sm.objects.modify r fun s => { s with state } }

end SessionManager

/-! ## Calls -/

/-- What the games need of `GameContext`; the text is stripped and in lower case. -/
structure Message where
  groupId : String
  userId : String
  newApiUserId : Int
  text : String
  isAdmin : Bool
  isBound : Bool

/-- An action of type `reward.grant.small`. -/
structure GameAction where
  userId : Int
  targetExternalId : String
  quotaAmount : Int
  reason : String
  sourceType : String := ""
  deriving DecidableEq

/-- `GameResponse`, and the session that its actions pay out or refund, if they do. -/
structure GameResponse where
  actions : List GameAction := []
  event : String := ""
  settles : Option Nat := none

/-- A response that is only a reply. -/
def GameResponse.quick : GameResponse := {}

/-- The configuration of the games, the random numbers of a call, and the results of the floating-point
arithmetic: the fee on a pool, the share of a winner, the terms of a red packet and the entry fee of a
banker's game that a text names. -/
structure GameEnv where
  roundDurationSec : Int
  minPlayers : Nat
  maxTokensPerUser : Int
  entryCostQuota : Int
  grabWindowSec : Int
  bankerTimeoutSec : Int
  systemFee : Int → Int
  share : Int → Nat → Int
  shuffle : List TreasureEntry → List TreasureEntry
  randint : Int → Int → Int
  redpacketTerms : String → Int × Int
  bankerEntry : String → Bool
  /-- The channel scope, the switch, the daily limit and the cooldown of a game admit the message. -/
  admits : Game → Message → Bool

/-- The texts that the background loop uses as commands. -/
def controlTexts : List String := ["__auto_draw__", "__auto_close__", "__auto_expire__"]

/-! ## Treasure -/

namespace Treasure

/-- The words that join a round. -/
def joinWords : List String := ["加入夺宝", "参加夺宝", "报名夺宝", "join treasure", "treasure join"]

/-- The prefixes that ask for information. -/
def infoPrefixes : List String := ["夺宝", "夺宝奇兵", "treasure"]

/-- The text contains a word that joins. -/
def joins (text : String) : Bool := joinWords.any (containsText text ·)

/-- `_gs`: the group's treasure round, which is started when the group has another session or none. -/
def gs (env : GameEnv) (now : Int) (gid : String) (sm : SessionManager) : Nat × TreasureState × SessionManager :=
  match sm.getSession gid with
  | some (r, ⟨_, _, .treasure state⟩) => (r, state, sm)
  | _ =>
    (sm.objects.length, { startedAt := now },
      sm.start gid env.roundDurationSec now (.treasure { startedAt := now }))

/-- The participants after an entry of a user. -/
def enter (userId : String) (napi cost : Int) : List TreasureEntry → List TreasureEntry
  | [] => [⟨userId, napi, 1, cost⟩]
  | p :: ps =>
    if p.userId = userId then
      { p with
        napi := if napi ≠ 0 then napi else p.napi
        tokens := p.tokens + 1
        spent := p.spent + cost } :: ps
    else p :: enter userId napi cost ps

/-- `_join`. -/
def join (env : GameEnv) (m : Message) (r : Nat) (state : TreasureState) (sm : SessionManager) :
    GameResponse × SessionManager :=
  if state.participants.any fun p => p.userId = m.userId ∧ p.tokens ≥ env.maxTokensPerUser then (.quick, sm)
  else
    ({ actions := [{
         userId := m.newApiUserId, targetExternalId := m.userId, quotaAmount := -env.entryCostQuota,
         reason := "treasure_entry" }]
       event := "treasure_join" },
      sm.setState r (.treasure { state with
        participants := enter m.userId m.newApiUserId env.entryCostQuota state.participants
        pool := state.pool + env.entryCostQuota }))

/-- The first entries of distinct users, up to a number. -/
def winners : Nat → List String → List TreasureEntry → List TreasureEntry
  | 0, _, _ | _, _, [] => []
  | n + 1, seen, e :: es =>
    if e.userId ∈ seen then winners (n + 1) seen es else e :: winners n (e.userId :: seen) es

/-- `_draw`, as the actions that `_finalize` makes of its payouts. -/
def draw (env : GameEnv) (state : TreasureState) : List GameAction :=
  let sfee := env.systemFee state.pool
  let prizePool := max (state.pool - sfee) 0
  let entries := env.shuffle (state.participants.flatMap fun p => List.replicate p.tokens.toNat p)
  let payouts := (winners 3 [] entries).zipIdx.filterMap fun w =>
    if w.1.napi > 0 then some (w.1, env.share prizePool w.2) else none
  payouts.zipIdx.filterMap fun p =>
    if p.1.2 > 0 then some {
      userId := p.1.1.napi, targetExternalId := p.1.1.userId, quotaAmount := p.1.2,
      reason := s!"treasure_win_{p.2 + 1}" }
    else none

/-- The refunds of `_refund_insufficient`. -/
def refunds (state : TreasureState) : List GameAction :=
  state.participants.filterMap fun p =>
    if p.spent > 0 ∧ p.napi > 0 then some {
      userId := p.napi, targetExternalId := p.userId, quotaAmount := p.spent, reason := "treasure_refund",
      sourceType := "game_refund" }
    else none

/-- `_finalize`: a draw, or a refund with too few participants; `endSession` removes the session of the
group. -/
def finalize (env : GameEnv) (gid : String) (r : Nat) (state : TreasureState) (endSession : Bool)
    (sm : SessionManager) : GameResponse × SessionManager :=
  let sm := if endSession then sm.end_ gid else sm
  if state.participants.length ≥ env.minPlayers then
    ({ actions := draw env state, event := "treasure_draw", settles := some r }, sm)
  else ({ actions := refunds state, event := "treasure_refund", settles := some r }, sm)

/-- The round of a group is a treasure round that is expired. -/
def expired (now : Int) : Option (Nat × GameSession) → Option (Nat × TreasureState)
  | some (r, s) =>
    match s.state with
    | .treasure state => if s.isExpired now then some (r, state) else none
    | _ => none
  | none => none

/-- `handle`. -/
def handle (env : GameEnv) (now : Int) (m : Message) (sm : SessionManager) :
    Option GameResponse × SessionManager :=
  match expired now (sm.getSession m.groupId) with
  | some (r, state) => (finalize env m.groupId r state true sm).map some id
  | none =>
    if infoPrefixes.any (hasPrefix m.text ·) && !joins m.text then (some .quick, sm)
    else
      let (r, state, sm) := gs env now m.groupId sm
      if now - state.startedAt ≥ env.roundDurationSec ∨ m.text ∈ controlTexts then
        (finalize env m.groupId r state true sm).map some id
      else if joins m.text then (join env m r state sm).map some id
      else (none, sm)

end Treasure

/-! ## Red packets -/

namespace RedPacket

/-- `_finalize_expired`. -/
def finalizeExpired (gid : String) (r : Nat) (state : RedPacketState) (sm : SessionManager) :
    GameResponse × SessionManager :=
  let remaining := max (state.totQuota - state.disbursed) 0
  let actions : List GameAction :=
    if remaining > 0 ∧ state.ownerNewApiUserId > 0 then [{
      userId := state.ownerNewApiUserId, targetExternalId := state.ownerUserId, quotaAmount := remaining,
      reason := "redpacket_refund", sourceType := "game_refund" }]
    else []
  ({ actions, event := "redpacket_refund", settles := some r }, sm.end_ gid)

/-- The quota of the next packet. -/
def grabQuota (env : GameEnv) (remaining remainingPackets : Int) : Int :=
  let grabQ :=
    if remainingPackets = 1 then remaining
    else
      let avg := remaining / remainingPackets
      let low := max 1000 (avg / 2)
      let high := min (remaining - (remainingPackets - 1) * 1000) (avg * 2)
      env.randint low (max high low)
  max 1000 (min grabQ remaining)

/-- A user asks for a packet. -/
def grab (env : GameEnv) (m : Message) (r : Nat) (state : RedPacketState) (sm : SessionManager) :
    GameResponse × SessionManager :=
  if (state.grabbed.lookup m.userId).isSome then (.quick, sm)
  else if state.grabbed.length ≥ state.totPackets then (.quick, sm)
  else
    let remaining := state.totQuota - state.disbursed
    let remainingPackets := state.totPackets - state.grabbed.length
    if remainingPackets ≤ 0 ∨ remaining ≤ 0 then (.quick, sm)
    else
      let grabQ := grabQuota env remaining remainingPackets
      ({ actions := [{
           userId := m.newApiUserId, targetExternalId := m.userId, quotaAmount := grabQ,
           reason := "redpacket_grab" }]
         event := "redpacket_grab" },
        sm.setState r (.redpacket { state with
          grabbed := state.grabbed ++ [(m.userId, grabQ)]
          disbursed := state.disbursed + grabQ }))

/-- An administrator sends red packets. -/
def create (env : GameEnv) (now : Int) (m : Message) (sm : SessionManager) : GameResponse × SessionManager :=
  let (count, totalQ) := env.redpacketTerms m.text
  ({ actions := [{
       userId := m.newApiUserId, targetExternalId := m.userId, quotaAmount := -totalQ,
       reason := "redpacket_create" }]
     event := "redpacket_create" },
    sm.start m.groupId env.grabWindowSec now (.redpacket {
      totPackets := count, totQuota := totalQ, ownerUserId := m.userId, ownerNewApiUserId := m.newApiUserId }))

/-- `handle`. -/
def handle (env : GameEnv) (now : Int) (m : Message) (sm : SessionManager) : GameResponse × SessionManager :=
  match sm.getSession m.groupId with
  | some (r, ⟨gid, expiresAt, .redpacket state⟩) =>
    if (GameSession.mk gid expiresAt (.redpacket state)).isExpired now ∨
        m.text ∈ ["__auto_close__", "__auto_expire__"] then
      finalizeExpired m.groupId r state sm
    else grab env m r state sm
  | _ => if m.isAdmin then create env now m sm else (.quick, sm)

end RedPacket

/-! ## The banker's game -/

namespace BankerGuess

/-- The group's session is a banker's game that goes on. -/
def active (now : Int) (gid : String) (sm : SessionManager) : Option String :=
  match sm.getActive gid now with
  | some (_, ⟨_, _, .bankerGuess bankerId⟩) => some bankerId
  | _ => none

/-- What `handle` does with sessions: a banker starts a game where none goes on, and ends it. The guesses
are left out. -/
def handle (env : GameEnv) (now : Int) (m : Message) (sm : SessionManager) :
    Option GameResponse × SessionManager :=
  if ["坐庄", "开庄", "banker"].any (hasPrefix m.text ·) then
    if (active now m.groupId sm).isSome || !env.bankerEntry m.text then (some .quick, sm)
    else (some { event := "banker_start" },
      sm.start m.groupId env.bankerTimeoutSec now (.bankerGuess m.userId))
  else if ["猜 ", "猜数 "].any (hasPrefix m.text ·) then (some .quick, sm)
  else if m.text ∈ ["开奖", "揭晓", "reveal"] then
    if active now m.groupId sm = some m.userId then (some { event := "banker_reveal" }, sm.end_ m.groupId)
    else (some .quick, sm)
  else (none, sm)

end BankerGuess

/-- `plugin.handle` of a game. -/
def Game.handle (g : Game) (env : GameEnv) (now : Int) (m : Message) (sm : SessionManager) :
    Option GameResponse × SessionManager :=
  match g with
  | .bankerGuess => BankerGuess.handle env now m sm
  | .redpacket => (RedPacket.handle env now m sm).map some id
  | .treasure => Treasure.handle env now m sm

end Prox
