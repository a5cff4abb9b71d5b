import Prox.Access.Freezes

/-! # Membership of chat rooms

The embedding of `service/chat_membership.go` and `model/chat_membership.go`: the log of membership events,
the state of each chat identity, what an event changes of tokens and access states, the end of grace periods
and the decisions of administrators. The bindings of identities are parameters, and the errors of the database
and the cache are left out. -/

namespace Prox

/-! ## States and events -/

/-- The statuses of a membership. -/
inductive ChatMembershipStatus where
  | active
  | unboundObserved
  | suspectedLeft
  | grace
  | leftExpired
  | rejoinPending
  | restored
  | manualBypass
  deriving DecidableEq

/-- The types of membership events. -/
inductive ChatMembershipEventType where
  | join
  | leave
  | kick
  | scanAbsent
  | scanPresent
  deriving DecidableEq

/-- The type of an event with a name. -/
def ChatMembershipEventType.parse (name : String) : Option ChatMembershipEventType :=
  if name = "join" then some .join
  else if name = "leave" then some .leave
  else if name = "kick" then some .kick
  else if name = "scan_absent" then some .scanAbsent
  else if name = "scan_present" then some .scanPresent
  else none

/-- The name of a type of events. -/
def ChatMembershipEventType.name : ChatMembershipEventType → String
  | .join => "join"
  | .leave => "leave"
  | .kick => "kick"
  | .scanAbsent => "scan_absent"
  | .scanPresent => "scan_present"

/-- The event ends a membership. -/
def ChatMembershipEventType.leaves : ChatMembershipEventType → Bool
  | .leave | .kick | .scanAbsent => true
  | .join | .scanPresent => false

/-- A row of `chat_membership_states`. -/
structure ChatMembershipState where
  id : Int := 0
  siteId : String
  source : String
  roomId : String
  externalUserId : String
  newAPIUserId : Int := 0
  status : ChatMembershipStatus
  joinedAt : Int := 0
  lastSeenAt : Int := 0
  leftAt : Int := 0
  graceUntil : Int := 0
  restoredAt : Int := 0
  leaveCount30d : Int := 0
  riskScore : Int := 0
  lastEventId : String := ""
  bypassReason : String := ""
  bypassUntil : Int := 0
  metadataJson : String := ""
  updatedAt : Int

/-- The unique index of membership states: site, source, room and external user. -/
abbrev MembershipKey := String × String × String × String

instance : Row ChatMembershipState MembershipKey :=
  ⟨ChatMembershipState.id, fun s => (s.siteId, s.source, s.roomId, s.externalUserId)⟩

/-- A row of `chat_membership_events`, whose column `handled_result` is always "accepted". -/
structure ChatMembershipEvent where
  id : Int := 0
  eventId : String
  siteId : String
  source : String
  roomId : String
  externalUserId : String
  newAPIUserId : Int
  eventType : ChatMembershipEventType
  eventAt : Int
  rawPayloadJson : String
  deriving DecidableEq

instance : Row ChatMembershipEvent String := ⟨ChatMembershipEvent.id, ChatMembershipEvent.eventId⟩

/-- The tables that membership events read and write. -/
structure MembershipDb where
  states : Table ChatMembershipState
  events : Table ChatMembershipEvent
  access : AccessTable
  keys : KeyTables

/-- The settings of membership risk that are read. -/
structure MembershipRiskSetting where
  enabled : Bool
  dryRun : Bool
  graceHours : Int
  freezeCommunityTokensAfterGrace : Bool
  revokeCommunityAccessAfterGrace : Bool
  qqEventsEnabled : Bool
  tgEventsEnabled : Bool

/-- `GetMembershipRiskSetting` fills in the default. -/
def MembershipRiskSetting.get (cfg : MembershipRiskSetting) : MembershipRiskSetting :=
  { cfg with graceHours := if cfg.graceHours ≤ 0 then 24 else cfg.graceHours }

/-- The site and its settings. -/
structure MembershipEnv where
  siteID : String
  cfg : MembershipRiskSetting

/-- What an evaluation of access on the site reads. -/
def MembershipEnv.reads (env : MembershipEnv) (access : AccessEnv) : AccessEnv := { access with siteID := env.siteID }

/-! ## Requests -/

/-- `ChatMembershipEventRequest`; metadata and payload are their JSON texts. -/
structure ChatMembershipEventRequest where
  eventID : String := ""
  source : String
  roomID : String
  externalUserID : String
  newAPIUserID : Int := 0
  eventType : String
  eventAt : Int := 0
  metadataJson : String := "null"
  rawPayloadJson : String := "\x7b\x7d"

/-- `ChatMembershipEventInput`: a request that has passed the checks. -/
structure ChatMembershipEventInput where
  eventID : String
  source : String
  roomID : String
  externalUserID : String
  newAPIUserID : Int
  eventType : ChatMembershipEventType
  eventAt : Int
  metadataJson : String
  rawPayloadJson : String

/-- The checks of `HandleChatMembershipEvent` and the defaults that it fills in, at a time in seconds. -/
def checkMembershipEvent (cfg : MembershipRiskSetting) (now : Int) (req : ChatMembershipEventRequest) :
    Except Err ChatMembershipEventInput := do
  failIf (cfg.enabled = false) (.text "membership risk is disabled")
  let source := trimSpace (toLowerAscii req.source)
  let eventType := trimSpace (toLowerAscii req.eventType)
  let roomID := trimSpace req.roomID
  let externalUserID := trimSpace req.externalUserID
  failIf (source = "" ∨ roomID = "" ∨ externalUserID = "" ∨ eventType = "")
    (.text "source, room_id, external_user_id and event_type are required")
  failIf (source = "qq" ∧ cfg.qqEventsEnabled = false) (.text "qq membership events are disabled")
  failIf (source = "tg" ∧ cfg.tgEventsEnabled = false) (.text "tg membership events are disabled")
  let eventAt := if req.eventAt ≤ 0 then now else req.eventAt
  let eventID :=
    if req.eventID = "" then concat [source, ":", roomID, ":", externalUserID, ":", eventType, ":", toString eventAt]
    else req.eventID
  match ChatMembershipEventType.parse eventType with
  | none => throw (.text (concat ["unsupported event_type: ", eventType]))
  | some eventType =>
    pure { eventID, source, roomID, externalUserID, newAPIUserID := req.newAPIUserID, eventType, eventAt,
           metadataJson := req.metadataJson, rawPayloadJson := req.rawPayloadJson }

/-- The key of the state that an event is about. -/
def ChatMembershipEventInput.key (input : ChatMembershipEventInput) (siteID : String) : MembershipKey :=
  (siteID, input.source, input.roomID, input.externalUserID)

/-- The key of the state that a logged event is about. -/
def ChatMembershipEvent.key (event : ChatMembershipEvent) : MembershipKey :=
  (event.siteId, event.source, event.roomId, event.externalUserId)

/-- What the lookups of an identity find: the user of its binding, of the identity and of the identity on
another source. -/
structure MembershipLookups where
  binding : Option Int := none
  identity : Option Int := none
  crossSource : Option Int := none

/-- The user of `resolveMembershipBindingSubject`; none is a number that is not positive. -/
def resolveMembershipUser (lookups : MembershipLookups) (siteID : String) (input : ChatMembershipEventInput)
    (states : Table ChatMembershipState) : Int :=
  let userID := input.newAPIUserID
  let userID := if userID ≤ 0 then (lookups.binding.filter (0 < ·)).getD userID else userID
  let userID := if userID ≤ 0 then lookups.identity.getD userID else userID
  let link := (states.byKey (input.key siteID)).map (·.newAPIUserId)
  let userID := if userID ≤ 0 then (link.filter (0 < ·)).getD userID else userID
  if userID ≤ 0 then lookups.crossSource.getD userID else userID

/-! ## Writing a state -/

/-- The end of the grace period of an event. -/
def graceUntil (cfg : MembershipRiskSetting) (eventAt : Int) : Int :=
  wrapInt64 (eventAt + wrapInt64 (cfg.graceHours * 3600))

/-- The status, the time of leaving and the end of the grace period that an event leads to. -/
structure MembershipOutcome where
  status : ChatMembershipStatus
  leftAt : Int
  graceUntil : Int
  deriving DecidableEq

/-- The outcome of an event for a user; none is a number that is not positive. -/
def membershipOutcome (cfg : MembershipRiskSetting) (eventType : ChatMembershipEventType) (eventAt userID : Int) :
    MembershipOutcome :=
  if eventType.leaves then ⟨.grace, eventAt, graceUntil cfg eventAt⟩
  else ⟨if 0 < userID then .active else .unboundObserved, 0, 0⟩

/-- The columns that an event assigns, both when it is logged and as its side effect. -/
def ChatMembershipState.follow (cfg : MembershipRiskSetting) (input : ChatMembershipEventInput)
    (eventID : String) (userID now : Int) (state : ChatMembershipState) : ChatMembershipState :=
  let outcome := membershipOutcome cfg input.eventType input.eventAt userID
  let state := { state with
    status := outcome.status
    leftAt := outcome.leftAt
    graceUntil := outcome.graceUntil
    lastSeenAt := input.eventAt
    lastEventId := eventID
    newAPIUserId := if 0 < userID then userID else state.newAPIUserId
    updatedAt := now }
  if input.eventType.leaves then state
  else { state with
    joinedAt := input.eventAt
    restoredAt := if 0 < userID then input.eventAt else 0 }

/-- The assignments of an event that is logged to a state that is stored. -/
def ChatMembershipState.logged (cfg : MembershipRiskSetting) (input : ChatMembershipEventInput) (userID now : Int)
    (state : ChatMembershipState) : ChatMembershipState :=
  let state := { state.follow cfg input (trimSpace input.eventID) userID now with
    metadataJson := input.metadataJson }
  if input.eventType.leaves then
    { state with leaveCount30d := state.leaveCount30d + 1, riskScore := state.riskScore + 10 }
  else state

/-- What assignments of an event keep: the primary and the unique key. -/
theorem ChatMembershipState.follow_keys (cfg : MembershipRiskSetting) (input : ChatMembershipEventInput)
    (eventID : String) (userID now : Int) (state : ChatMembershipState) :
    Row.id (state.follow cfg input eventID userID now) = Row.id state ∧
      Row.key (state.follow cfg input eventID userID now) = Row.key state := by
  unfold follow
  dsimp only
  split <;> exact ⟨rfl, rfl⟩

theorem ChatMembershipState.logged_keys (cfg : MembershipRiskSetting) (input : ChatMembershipEventInput)
    (userID now : Int) (state : ChatMembershipState) :
    Row.id (state.logged cfg input userID now) = Row.id state ∧
      Row.key (state.logged cfg input userID now) = Row.key state := by
  have hkeys := follow_keys cfg input (trimSpace input.eventID) userID now state
  unfold logged
  split <;> exact hkeys

/-- The assignments of a side effect. -/
def ChatMembershipState.followPatch (cfg : MembershipRiskSetting) (input : ChatMembershipEventInput)
    (userID now : Int) : Patch ChatMembershipState where
  apply := ChatMembershipState.follow cfg input input.eventID userID now
  id_apply state := (follow_keys cfg input input.eventID userID now state).1
  key_apply state := (follow_keys cfg input input.eventID userID now state).2

/-- The assignments of an event that is logged. -/
def ChatMembershipState.loggedPatch (cfg : MembershipRiskSetting) (input : ChatMembershipEventInput)
    (userID now : Int) : Patch ChatMembershipState where
  apply := ChatMembershipState.logged cfg input userID now
  id_apply state := (logged_keys cfg input userID now state).1
  key_apply state := (logged_keys cfg input userID now state).2

/-! ## Events -/

/-- The user of an event in `UpsertChatMembershipEvent`: the one of the request, or the one that the state is
linked to. -/
def effectiveUserID (siteID : String) (input : ChatMembershipEventInput) (states : Table ChatMembershipState) : Int :=
  let link := (states.byKey (input.key siteID)).map (·.newAPIUserId)
  if input.newAPIUserID ≤ 0 then (link.filter (0 < ·)).getD input.newAPIUserID else input.newAPIUserID

/-- The row of the log for an input. -/
def ChatMembershipEventInput.event (input : ChatMembershipEventInput) (siteID : String) (id userID : Int) :
    ChatMembershipEvent where
  id := id
  eventId := trimSpace input.eventID
  siteId := siteID
  source := input.source
  roomId := input.roomID
  externalUserId := input.externalUserID
  newAPIUserId := userID
  eventType := input.eventType
  eventAt := input.eventAt
  rawPayloadJson := input.rawPayloadJson

/-- The insertion of a membership state, or the assignments to the one that is stored. -/
def upsertChatMembershipState (env : MembershipEnv) (now : Int) (input : ChatMembershipEventInput) (userID : Int)
    (states : Table ChatMembershipState) : Table ChatMembershipState :=
  let blank : ChatMembershipState :=
    { id := states.nextId, siteId := env.siteID, source := input.source, roomId := input.roomID
      externalUserId := input.externalUserID, status := .active, updatedAt := now }
  match states.create { blank.logged env.cfg.get input userID now with newAPIUserId := userID } with
  | some states => states
  | none =>
    (states.updateWhere (Row.key · = input.key env.siteID)
      (ChatMembershipState.loggedPatch env.cfg.get input userID now)).1

/-- `UpsertChatMembershipEvent`, at a time in seconds: the event and whether it is new. The caller has
normalized the input. -/
def upsertChatMembershipEvent (env : MembershipEnv) (now : Int) (input : ChatMembershipEventInput)
    (db : MembershipDb) : Except Err (ChatMembershipEvent × Bool) × MembershipDb :=
  if trimSpace input.eventID = "" then (.error (.text "invalid membership event"), db)
  else
    let userID := effectiveUserID env.siteID input db.states
    let event := input.event env.siteID db.events.nextId userID
    match db.events.insertIgnore event with
    | (_, 0) => (.ok (event, false), db)
    | (events, _) =>
      (.ok (event, true), { db with events, states := upsertChatMembershipState env now input userID db.states })

/-- `DeleteUserSiteAccessState` of a user with a positive number. -/
def deleteUserSiteAccessState (siteID : String) (userID : Int) (rows : AccessTable) : AccessTable :=
  rows.deleteWhere fun row => Row.key row = (trimSpace siteID, userID)

/-- `applyMembershipSideEffects` up to its evaluation, at a time in seconds. -/
def applyMembershipSideEffects (env : MembershipEnv) (user : Int → Except Err AccessUser) (now : Int)
    (input : ChatMembershipEventInput) (userID : Int) (db : MembershipDb) : MembershipDb :=
  let cfg := env.cfg.get
  let states := (db.states.updateWhere (Row.key · = input.key env.siteID)
    (ChatMembershipState.followPatch cfg input userID now)).1
  if input.eventType.leaves then
    if 0 < userID ∧ cfg.dryRun = false then
      { db with
        states
        access := deleteUserSiteAccessState env.siteID userID db.access
        keys := (freezeUserTokensForAccessControl now userID user
          (concat ["membership revoked: ", input.eventType.name]) false db.keys).2 }
    else { db with states }
  else if 0 < userID then
    { db with states, access := deleteUserSiteAccessState env.siteID userID db.access }
  else { db with states }

/-- A delivery of an event: the request, the time in nanoseconds, what the lookups of the identity find and
what an evaluation of access reads. -/
structure MembershipDelivery where
  req : ChatMembershipEventRequest
  now : Int
  lookups : MembershipLookups
  access : AccessEnv

/-- `ChatMembershipEventResult`. -/
structure ChatMembershipEventResult where
  eventID : String
  accepted : Bool
  duplicate : Bool
  dryRun : Bool
  state : Option ChatMembershipState

/-- The input and the user of a delivery that passes the checks. -/
def MembershipDelivery.input (d : MembershipDelivery) (env : MembershipEnv) (db : MembershipDb) :
    Except Err (ChatMembershipEventInput × Int) := do
  let input ← checkMembershipEvent env.cfg.get (unixSeconds d.now) d.req
  let userID := resolveMembershipUser d.lookups env.siteID input db.states
  -- a user that was resolved is put into a request without one
  pure (if input.newAPIUserID ≤ 0 ∧ 0 < userID then ({ input with newAPIUserID := userID }, userID)
    else (input, userID))

/-- `HandleChatMembershipEvent` up to the evaluation of the user's access: the event and whether it is new,
and the user. -/
def recordMembershipEvent (env : MembershipEnv) (d : MembershipDelivery) (db : MembershipDb) :
    Except Err (ChatMembershipEvent × Bool × ChatMembershipEventInput × Int) × MembershipDb :=
  match d.input env db with
  | .error err => (.error err, db)
  | .ok (input, userID) =>
    match upsertChatMembershipEvent env (unixSeconds d.now) input db with
    | (.error err, db) => (.error err, db)
    | (.ok (event, inserted), db) =>
      (.ok (event, inserted, input, userID),
        applyMembershipSideEffects env d.access.user (unixSeconds d.now) input userID db)

/-- The evaluation of a user's access at the end of an event; its result is ignored. -/
def evaluateMember (env : MembershipEnv) (access : AccessEnv) (now userID : Int) (db : MembershipDb) :
    MembershipDb :=
  if 0 < userID then
    { db with
      access := (evaluateUserAccessControl (env.reads access) now userID true db.access).2 }
  else db

/-- `HandleChatMembershipEvent`. -/
def handleChatMembershipEvent (env : MembershipEnv) (d : MembershipDelivery) (db : MembershipDb) :
    Except Err ChatMembershipEventResult × MembershipDb :=
  match recordMembershipEvent env d db with
  | (.error err, db) => (.error err, db)
  | (.ok (event, inserted, input, userID), db) =>
    let db := evaluateMember env d.access d.now userID db
    (.ok { eventID := event.eventId, accepted := inserted, duplicate := !inserted, dryRun := env.cfg.dryRun
           state := db.states.byKey (input.key env.siteID) }, db)

/-! ## Grace periods -/

/-- The limit of a list of membership states. -/
def membershipListLimit (limit : Int) : Nat := if limit ≤ 0 ∨ 500 < limit then 100 else limit.toNat

/-- The order of a list of membership states: the last update first, and the greater key first. -/
def ChatMembershipState.before (a b : ChatMembershipState) : Prop :=
  b.updatedAt < a.updatedAt ∨ (a.updatedAt = b.updatedAt ∧ b.id ≤ a.id)
  deriving Decidable

/-- `ListChatMembershipStates` with a status, of every source and room. -/
def listChatMembershipStates (siteID : String) (status : ChatMembershipStatus) (limit : Int)
    (states : Table ChatMembershipState) : List ChatMembershipState :=
  states.page (fun s => s.siteId = siteID ∧ s.status = status) ChatMembershipState.before (membershipListLimit limit)

/-- A state whose grace period is over. -/
def ChatMembershipState.due (state : ChatMembershipState) (now : Int) : Bool :=
  0 < state.graceUntil ∧ state.graceUntil ≤ now

/-- A state that a pass moves out of its grace period, at a time in seconds. -/
def ChatMembershipState.expires (state : ChatMembershipState) (siteID : String) (now : Int) : Bool :=
  state.siteId = siteID ∧ state.status = .grace ∧ state.due now

/-- The assignment of a status to membership states. -/
def ChatMembershipState.setStatus (status : ChatMembershipStatus) (now : Int) : Patch ChatMembershipState where
  apply state := { state with status, updatedAt := now }
  id_apply _ := rfl
  key_apply _ := rfl

/-- `ExpireChatMembershipGrace` where at most `limit` rows are due, at a time in seconds: the number of rows
and the table. -/
def expireChatMembershipGrace (siteID : String) (now : Int) (dryRun : Bool) (states : Table ChatMembershipState) :
    Nat × Table ChatMembershipState :=
  if dryRun then (states.rows.countP (·.expires siteID now), states)
  else
    let (states, rowsAffected) :=
      states.updateWhere (·.expires siteID now) (ChatMembershipState.setStatus .leftExpired now)
    (rowsAffected, states)

/-- `ChatMembershipExpireResult`, with the users that it counts as evaluated. -/
structure ChatMembershipExpireResult where
  expired : Nat
  reevaluatedUsers : List Int := []
  tokensEligible : Nat := 0
  tokensDisabled : Nat := 0
  dryRun : Bool

/-- The loop body of `ExpireChatMembershipGraceAndEnforce`, at a time in nanoseconds. -/
def enforceExpiredGrace (env : MembershipEnv) (access : AccessEnv) (now : Int)
    (acc : ChatMembershipExpireResult × MembershipDb) (userID : Int) : ChatMembershipExpireResult × MembershipDb :=
  let (result, db) := acc
  let cfg := env.cfg.get
  match evaluateUserAccessControl (env.reads access) now userID true db.access with
  | (.error _, rows) => (result, { db with access := rows })
  | (.ok _, rows) =>
    let db := { db with access := rows }
    let result := { result with reevaluatedUsers := result.reevaluatedUsers ++ [userID] }
    if cfg.freezeCommunityTokensAfterGrace || cfg.revokeCommunityAccessAfterGrace then
      match freezeUserTokensForAccessControl (unixSeconds now) userID access.user "membership grace expired" false
          db.keys with
      | (.error _, keys) => (result, { db with keys })
      | (.ok stats, keys) =>
        ({ result with
            tokensEligible := result.tokensEligible + stats.eligible
            tokensDisabled := result.tokensDisabled + stats.disabled },
          { db with keys })
    else (result, db)

/-- The users that `ExpireChatMembershipGraceAndEnforce` collects. -/
def dueUserIDs (siteID : String) (now : Int) (states : Table ChatMembershipState) : List Int :=
  firstOccurrences (((listChatMembershipStates siteID .grace 1000 states).filter
    fun s => s.due now ∧ 0 < s.newAPIUserId).map (·.newAPIUserId))

/-- `ExpireChatMembershipGraceAndEnforce`, at a time in nanoseconds. `order` is the order in which the `range`
visits the users. -/
def expireChatMembershipGraceAndEnforce (env : MembershipEnv) (access : AccessEnv) (now : Int)
    (order : List Int → List Int) (db : MembershipDb) : ChatMembershipExpireResult × MembershipDb :=
  let cfg := env.cfg.get
  let users := dueUserIDs env.siteID (unixSeconds now) db.states
  let (expired, states) := expireChatMembershipGrace env.siteID (unixSeconds now) cfg.dryRun db.states
  let db := { db with states }
  if expired = 0 ∨ cfg.dryRun then ({ expired, dryRun := cfg.dryRun }, db)
  else (order users).foldl (enforceExpiredGrace env access now) ({ expired, dryRun := cfg.dryRun }, db)

/-! ## Decisions of administrators -/

/-- The assignments of `BypassChatMembershipState`. -/
def ChatMembershipState.bypass (reason : String) (bypassUntil now : Int) (metadataJson : String) :
    Patch ChatMembershipState where
  apply state := { state with
    status := .manualBypass, bypassReason := trimSpace reason, bypassUntil, metadataJson, updatedAt := now }
  id_apply _ := rfl
  key_apply _ := rfl

/-- The end of a bypass for some hours from a time in nanoseconds; `0` stands for no end. -/
def bypassUntil (untilHours now : Int) : Int :=
  if 0 < untilHours then unixSeconds (now + wrapInt64 (untilHours * 3600 * nanosPerSecond)) else 0

/-- `BypassChatMembershipState`, at a time in nanoseconds. -/
def bypassChatMembershipState (siteID : String) (id : Int) (reason : String) (untilHours now : Int)
    (metadataJson : String) (states : Table ChatMembershipState) :
    Except Err ChatMembershipState × Table ChatMembershipState :=
  if id ≤ 0 then (.error (.text "invalid membership state update"), states)
  else
    let states := (states.updateWhere (fun s => s.siteId = siteID ∧ s.id = id)
      (ChatMembershipState.bypass reason (bypassUntil untilHours now) (unixSeconds now) metadataJson)).1
    match (states.byId id).filter (·.siteId = siteID) with
    | none => (.error (.sentinel .recordNotFound), states)
    | some state => (.ok state, states)

/-- The status of a state whose bypass is cleared, at a time in seconds. -/
def ChatMembershipState.clearedStatus (state : ChatMembershipState) (now : Int) : ChatMembershipStatus :=
  if 0 < state.leftAt ∧ state.joinedAt ≤ state.leftAt then
    if now < state.graceUntil then .grace
    else if 0 < state.graceUntil then .leftExpired
    else .restored
  else .restored

/-- `membershipStateAllowsBenefit` of a state, at a time in seconds. -/
def membershipStateAllowsBenefit (state : ChatMembershipState) (now : Int) : Bool :=
  if state.status = .manualBypass ∧ (state.bypassUntil = 0 ∨ now < state.bypassUntil) then true
  else
    match state.status with
    | .active | .restored | .rejoinPending => true
    | _ => false

/-- The assignments of `ClearChatMembershipBypass`. -/
def ChatMembershipState.clearBypass (status : ChatMembershipStatus) (reason : String) (now : Int)
    (metadataJson : String) : Patch ChatMembershipState where
  apply state := { state with
    status, restoredAt := now, bypassReason := trimSpace reason, bypassUntil := 0, metadataJson, updatedAt := now }
  id_apply _ := rfl
  key_apply _ := rfl

/-- `ClearChatMembershipBypass`, at a time in seconds. -/
def clearChatMembershipBypass (siteID : String) (id : Int) (reason : String) (now : Int) (metadataJson : String)
    (states : Table ChatMembershipState) : Except Err ChatMembershipState × Table ChatMembershipState :=
  if id ≤ 0 then (.error (.text "invalid membership state id"), states)
  else
    match (states.byId id).filter (·.siteId = siteID) with
    | none => (.error (.sentinel .recordNotFound), states)
    | some current =>
      let states := (states.updateWhere (fun s => s.siteId = siteID ∧ s.id = id)
        (ChatMembershipState.clearBypass (current.clearedStatus now) reason now metadataJson)).1
      match (states.byId id).filter (·.siteId = siteID) with
      | none => (.error (.sentinel .recordNotFound), states)
      | some state => (.ok state, states)

end Prox
