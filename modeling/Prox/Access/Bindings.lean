import Prox.Access.Membership
import Prox.Lib.Threads
import Prox.Lib.Upsert

/-! # Owners of chat identities

The embedding of the writers of `agent_chat_bindings` and `user_identity_bindings` in
`model/agent_chatops.go`, `model/unified_growth_helpers.go` and `service/chat_membership.go`. The upserts
check who owns the row that they find. `SetAgentChatBindingsEnabled` writes the owner without a look, and
outside a transaction an upsert updates a row that may have got an owner since it was checked. The main
result says that an identity keeps its owner as long as these two writes find no other one.

A thread is the list of statements that a call has yet to issue; a call within a transaction is one
statement. The timestamps of the two tables that nothing reads are left out. -/

namespace Prox

/-! ## Rows -/

/-- A row of `agent_chat_bindings`. -/
structure AgentChatBinding where
  id : Int := 0
  siteId : String
  source : String
  roomId : String
  externalUserId : String
  username : String := ""
  newAPIUserId : Int := 0
  role : String := ""
  enabled : Bool := true
  remark : String := ""

instance : Row AgentChatBinding MembershipKey :=
  ⟨AgentChatBinding.id, fun b => (b.siteId, b.source, b.roomId, b.externalUserId)⟩

/-- The unique index of identities: site, provider and external user. -/
abbrev IdentityKey := String × String × String

/-- A row of `user_identity_bindings`. -/
structure UserIdentityBinding where
  id : Int := 0
  siteId : String
  userId : Int
  provider : String
  externalUserId : String
  username : String := ""
  status : String := ""
  boundAt : Int := 0
  lastSeenAt : Int := 0

instance : Row UserIdentityBinding IdentityKey :=
  ⟨UserIdentityBinding.id, fun b => (b.siteId, b.provider, b.externalUserId)⟩

/-- The tables of the identities, and those of their memberships. -/
structure BindingDB where
  bindings : Table AgentChatBinding
  identities : Table UserIdentityBinding
  membership : MembershipDb

/-- The site and `CanonicalSiteID`. -/
structure BindingEnv where
  membership : MembershipEnv
  canonicalSiteID : String → String

/-- The row of a chat identity or of the identity behind it. -/
inductive IdentityRef where
  | binding (key : MembershipKey)
  | identity (key : IdentityKey)

/-- The user that a row names, if the row is there. -/
def BindingDB.owner (db : BindingDB) : IdentityRef → Option Int
  | .binding key => (db.bindings.byKey key).map AgentChatBinding.newAPIUserId
  | .identity key => (db.identities.byKey key).map UserIdentityBinding.userId

/-- A row and the user that it is to name. -/
abbrev OwnerAsk := IdentityRef × Int

/-- The row names another user. -/
def BindingDB.Contested (db : BindingDB) (ask : OwnerAsk) : Prop :=
  ∃ u, 0 < u ∧ u ≠ ask.2 ∧ db.owner ask.1 = some u

/-- Every row that names a user goes on naming it. -/
def BindingDB.KeepsOwners (db db' : BindingDB) : Prop :=
  ∀ ref u, 0 < u → db.owner ref = some u → db'.owner ref = some u

/-! ## Bindings -/

namespace AgentChatBinding

/-- A binding as it is looked up and stored. -/
def canonical (env : BindingEnv) (b : AgentChatBinding) : AgentChatBinding :=
  { b with
    siteId := env.canonicalSiteID b.siteId
    source := normalizeAccessPlatform b.source
    roomId := trimSpace b.roomId
    externalUserId := trimSpace b.externalUserId }

/-- A part of the key is missing. -/
def incomplete (b : AgentChatBinding) : Bool :=
  b.siteId = "" ∨ b.source = "" ∨ b.roomId = "" ∨ b.externalUserId = ""

/-- The arguments of `UpsertAgentChatBindingWithTx` after its check. -/
def normalize (env : BindingEnv) (b : AgentChatBinding) : Except Err AgentChatBinding :=
  if (b.canonical env).incomplete then .error (.text "invalid agent chat binding")
  else .ok (b.canonical env)

/-- The conflict of a binding with a stored one. -/
def conflict (b existing : AgentChatBinding) : Err :=
  .wrap .identityBindingConflict (concat
    ["site=", b.siteId, " source=", b.source, " room_id=", b.roomId, " external_user_id=", b.externalUserId,
     " existing_user_id=", toString existing.newAPIUserId, " requested_user_id=", toString b.newAPIUserId])

/-- The check of `updateExisting`, and the row that it writes. -/
def adopt (b existing : AgentChatBinding) : Except Err AgentChatBinding :=
  if existing.id ≤ 0 then .error (.text "invalid existing agent chat binding")
  else if 0 < existing.newAPIUserId then
    if 0 < b.newAPIUserId ∧ existing.newAPIUserId ≠ b.newAPIUserId then .error (b.conflict existing)
    else .ok { b with newAPIUserId := existing.newAPIUserId }
  else .ok b

/-- The update of `updateExisting`. -/
def assign (b : AgentChatBinding) : Patch AgentChatBinding where
  apply row := { row with
    username := b.username, newAPIUserId := b.newAPIUserId, role := b.role, enabled := b.enabled
    remark := b.remark }
  id_apply _ := rfl
  key_apply _ := rfl

/-- The update of `SetAgentChatBindingsEnabled`. -/
def setEnabled (enabled : Bool) (userID : Int) : Patch AgentChatBinding where
  apply row := { row with
    enabled, newAPIUserId := if 0 < userID then userID else row.newAPIUserId }
  id_apply _ := rfl
  key_apply _ := rfl

/-- What `UpsertAgentChatBindingFromMembership` takes over from the binding that is stored. -/
def fill (b current : AgentChatBinding) : AgentChatBinding :=
  { b with
    username := if b.username = "" then current.username else b.username
    newAPIUserId := if b.newAPIUserId ≤ 0 then current.newAPIUserId else b.newAPIUserId
    role :=
      if (b.role = "" ∨ b.role = "member") ∧ trimSpace current.role ≠ "" then current.role else b.role
    remark := if b.remark = "" then current.remark else b.remark }

/-- The user that a binding asks for. -/
def ask (b : AgentChatBinding) : Option OwnerAsk :=
  if 0 < b.newAPIUserId then some (.binding (Row.key b), b.newAPIUserId) else none

end AgentChatBinding

/-- `UpsertAgentChatBindingWithTx` after its check. An insertion leaves columns with a default and a zero
value to the database. -/
def upsertAgentChatBinding : Upsert AgentChatBinding Err where
  insertion b i := { b with id := i, role := if b.role = "" then "member" else b.role, enabled := true }
  insertion_key _ _ := rfl
  check := AgentChatBinding.adopt
  assignsLost := true
  assign := AgentChatBinding.assign
  missing := .sentinel .recordNotFound

/-! ## Identities -/

namespace UserIdentityBinding

/-- An identity as it is looked up and stored. -/
def canonical (env : BindingEnv) (b : UserIdentityBinding) : UserIdentityBinding :=
  { b with
    siteId := env.canonicalSiteID b.siteId
    provider := normalizeAccessPlatform b.provider
    externalUserId := trimSpace b.externalUserId
    username := trimSpace b.username }

/-- A part of the key or the user is missing. -/
def incomplete (b : UserIdentityBinding) : Bool :=
  b.siteId = "" ∨ b.provider = "" ∨ b.externalUserId = "" ∨ b.userId ≤ 0

/-- The arguments of `UpsertUserIdentityBindingRowWithTx` after its check. -/
def normalize (env : BindingEnv) (b : UserIdentityBinding) : Except Err UserIdentityBinding :=
  if (b.canonical env).incomplete then .error (.text "invalid identity binding")
  else .ok (b.canonical env)

/-- The defaults that are filled in at a time in seconds. -/
def stamp (now : Int) (b : UserIdentityBinding) : UserIdentityBinding :=
  { b with
    status := if b.status = "" then "active" else b.status
    boundAt := if b.boundAt = 0 then now else b.boundAt
    lastSeenAt := now }

/-- The conflict of an identity with a stored one. -/
def conflict (b existing : UserIdentityBinding) : Err :=
  .wrap .identityBindingConflict (concat
    ["site=", b.siteId, " provider=", b.provider, " external_user_id=", b.externalUserId,
     " existing_user_id=", toString existing.userId, " requested_user_id=", toString b.userId])

/-- The update of a stored identity, which leaves its user alone. -/
def assign (b : UserIdentityBinding) : Patch UserIdentityBinding where
  apply row := { row with
    username := b.username, status := b.status, boundAt := b.boundAt, lastSeenAt := b.lastSeenAt }
  id_apply _ := rfl
  key_apply _ := rfl

/-- The user that an identity asks for. -/
def ask (b : UserIdentityBinding) : OwnerAsk := (.identity (Row.key b), b.userId)

end UserIdentityBinding

/-- `UpsertUserIdentityBindingRowWithTx` after its check. An identity that is found after a lost insertion is
checked and left as it is. -/
def upsertUserIdentityBinding : Upsert UserIdentityBinding Err where
  insertion b i := { b with id := i }
  insertion_key _ _ := rfl
  check b existing := if existing.userId ≠ b.userId then .error (b.conflict existing) else .ok b
  assignsLost := false
  assign := UserIdentityBinding.assign
  missing := .sentinel .recordNotFound

/-! ## Writers -/

/-- The arguments of `UpsertAgentChatBindingFromMembership`. -/
structure MembershipBinding where
  siteId : String
  source : String
  roomId : String
  externalUserId : String
  userID : Int
  username : String
  role : String
  remark : String

namespace MembershipBinding

/-- The binding of the arguments. -/
def row (m : MembershipBinding) : AgentChatBinding where
  siteId := trimSpace m.siteId
  source := normalizeAccessPlatform m.source
  roomId := trimSpace m.roomId
  externalUserId := trimSpace m.externalUserId
  username := trimSpace m.username
  newAPIUserId := m.userID
  role := if trimSpace m.role = "" then "member" else trimSpace m.role
  enabled := true
  remark := trimSpace m.remark

/-- The binding of the arguments after their check. -/
def binding (m : MembershipBinding) : Except Err AgentChatBinding :=
  if m.row.incomplete then .error (.text "invalid membership binding payload") else .ok m.row

end MembershipBinding

/-- The arguments of `SetAgentChatBindingsEnabled`. -/
structure BindingSwitch where
  siteId : String
  source : String
  roomId : String
  externalUserId : String
  enabled : Bool
  userID : Int

namespace BindingSwitch

/-- The key of the row that is switched. -/
def key (a : BindingSwitch) : MembershipKey :=
  (trimSpace a.siteId, normalizeAccessPlatform a.source, trimSpace a.roomId, trimSpace a.externalUserId)

/-- A part of the key is missing; the room may be. -/
def incomplete (a : BindingSwitch) : Bool := a.key.1 = "" ∨ a.key.2.1 = "" ∨ a.key.2.2.2 = ""

/-- `SetAgentChatBindingsEnabled`. -/
def exec (a : BindingSwitch) (t : Table AgentChatBinding) : Except Err (Unit × Table AgentChatBinding) :=
  if a.incomplete then .error (.text "invalid agent chat binding selector")
  else .ok ((), (t.updateWhere (Row.key · = a.key) (AgentChatBinding.setEnabled a.enabled a.userID)).1)

end BindingSwitch

/-- A call that writes an owner. Upserts run within the transaction of their caller, or not. -/
inductive OwnerWrite where
  | upsertAgentChatBindingWithTx (inTx : Bool) (b : AgentChatBinding)
  | upsertAgentChatBindingFromMembership (m : MembershipBinding)
  | setAgentChatBindingsEnabled (a : BindingSwitch)
  | upsertUserIdentityBindingRowWithTx (inTx : Bool) (b : UserIdentityBinding)

/-- The user that a call with valid arguments asks for. -/
def OwnerWrite.ask (env : BindingEnv) : OwnerWrite → Option OwnerAsk
  | .upsertAgentChatBindingWithTx _ b => (b.normalize env).toOption.bind AgentChatBinding.ask
  | .upsertAgentChatBindingFromMembership m =>
    m.binding.toOption.bind fun b => (b.normalize env).toOption.bind AgentChatBinding.ask
  | .setAgentChatBindingsEnabled a =>
    if a.incomplete = false ∧ 0 < a.userID then some (.binding a.key, a.userID) else none
  | .upsertUserIdentityBindingRowWithTx _ b => (b.normalize env).toOption.map UserIdentityBinding.ask

/-! ## Membership events -/

/-- `membershipBindingSubject`. -/
structure MembershipBindingSubject where
  userID : Int
  username : String
  role : String := "member"
  remark : String := "membership_event"

namespace MembershipBindingSubject

/-- Adds where the user comes from to a remark. -/
def note (remark link : String) : String :=
  if remark = "" ∨ remark = "membership_event" then concat ["membership_event ", link]
  else if containsText remark link then remark
  else trimSpace (concat [remark, " ", link])

/-- What a binding adds to the subject. -/
def addBinding (s : MembershipBindingSubject) (b : AgentChatBinding) : MembershipBindingSubject where
  userID := if s.userID ≤ 0 ∧ 0 < b.newAPIUserId then b.newAPIUserId else s.userID
  username := if s.username = "" then trimSpace b.username else s.username
  role := if trimSpace b.role ≠ "" then trimSpace b.role else s.role
  remark := if trimSpace b.remark ≠ "" then trimSpace b.remark else s.remark

/-- What an identity adds to a subject without a user. -/
def addIdentity (s : MembershipBindingSubject) (b : UserIdentityBinding) : MembershipBindingSubject :=
  if s.userID ≤ 0 then
    { s with
      userID := b.userId
      username := if s.username = "" then trimSpace b.username else s.username }
  else s

/-- What a membership state adds to a subject without a user. -/
def addState (s : MembershipBindingSubject) (state : ChatMembershipState) : MembershipBindingSubject :=
  if s.userID ≤ 0 ∧ 0 < state.newAPIUserId then
    { s with userID := state.newAPIUserId, remark := note s.remark "state_link" }
  else s

/-- What an identity on another source, a user and its name, adds to a subject without a user. -/
def addCrossSource (s : MembershipBindingSubject) (identity : Int × String) : MembershipBindingSubject :=
  if s.userID ≤ 0 then
    { s with
      userID := identity.1
      username := if s.username = "" then trimSpace identity.2 else s.username
      remark := note s.remark "cross_source_identity" }
  else s

end MembershipBindingSubject

/-- A delivery of a membership event: the request, the name in its payload, the time in nanoseconds, the
identity that is found on another source and what an evaluation of access reads. -/
structure BindingDelivery where
  req : ChatMembershipEventRequest
  username : String := ""
  now : Int
  crossSource : Option (Int × String) := none
  access : AccessEnv

/-- A membership event that has passed its checks. -/
structure MembershipCall where
  delivery : BindingDelivery
  input : ChatMembershipEventInput
  subject : MembershipBindingSubject

namespace MembershipCall

/-- The event with a user that was resolved. -/
def resolved (e : MembershipCall) : ChatMembershipEventInput :=
  if e.input.newAPIUserID ≤ 0 ∧ 0 < e.subject.userID then { e.input with newAPIUserID := e.subject.userID }
  else e.input

/-- The writes of `applyMembershipSideEffects` to the bindings. -/
def writes (env : BindingEnv) (e : MembershipCall) : List OwnerWrite :=
  let site := env.membership.siteID
  let switch (enabled : Bool) : OwnerWrite :=
    .setAgentChatBindingsEnabled ⟨site, e.input.source, e.input.roomID, e.input.externalUserID, enabled,
      e.subject.userID⟩
  if e.input.eventType.leaves then [switch false]
  else if 0 < e.subject.userID then
    [.upsertAgentChatBindingFromMembership ⟨site, e.input.source, e.input.roomID, e.input.externalUserID,
      e.subject.userID, e.subject.username, e.subject.role, e.subject.remark⟩, switch true]
  else []

/-- The user that an event with a valid number asks for. -/
def ask (env : BindingEnv) (e : MembershipCall) : Option OwnerAsk :=
  if trimSpace e.input.eventID = "" then none else (e.writes env).head?.bind (OwnerWrite.ask env)

end MembershipCall

/-- The event of a delivery that passes the checks, before anything is looked up. -/
def BindingDelivery.check (env : BindingEnv) (d : BindingDelivery) : Except Err MembershipCall :=
  match checkMembershipEvent env.membership.cfg.get (unixSeconds d.now) d.req with
  | .error err => .error err
  | .ok input => .ok ⟨d, input, { userID := input.newAPIUserID, username := d.username }⟩

/-! ## Backfill -/

/-- The assignment of a user to a membership state. -/
def ChatMembershipState.link (userID now : Int) : Patch ChatMembershipState where
  apply state := { state with newAPIUserId := userID, updatedAt := now }
  id_apply _ := rfl
  key_apply _ := rfl

/-- The assignment of a user to a logged event. -/
def ChatMembershipEvent.link (userID : Int) : Patch ChatMembershipEvent where
  apply event := { event with newAPIUserId := userID }
  id_apply _ := rfl
  key_apply _ := rfl

/-- `BackfillChatMembershipUserByExternal` within its transaction, at a time in seconds. -/
def backfillChatMembershipUserByExternal (siteID source externalUserID : String) (userID now : Int)
    (db : MembershipDb) : Except Err (Unit × MembershipDb) :=
  let source := normalizeAccessPlatform source
  let externalUserID := trimSpace externalUserID
  if source = "" ∨ externalUserID = "" ∨ userID ≤ 0 then
    .error (.text "invalid membership user backfill selector")
  else
    .ok ((), { db with
      states := (db.states.updateWhere (fun s => s.siteId = siteID ∧ s.source = source ∧
        s.externalUserId = externalUserID ∧ s.newAPIUserId = 0) (ChatMembershipState.link userID now)).1
      events := (db.events.updateWhere (fun s => s.siteId = siteID ∧ s.source = source ∧
        s.externalUserId = externalUserID ∧ s.newAPIUserId = 0) (ChatMembershipEvent.link userID)).1 })

/-! ## Statements -/

/-- A call. -/
inductive BindingRequest where
  | write (w : OwnerWrite)
  | backfillChatMembershipUserByExternal (source externalUserID : String) (userID : Int)
  | handleChatMembershipEvent (d : BindingDelivery)

/-- What the resolution of a subject looks up. -/
inductive SubjectLookup where
  | binding
  | identity
  | state

/-- A statement of a call: its beginning or what it does next. -/
inductive BindingStmt where
  | request (r : BindingRequest)
  | binding (stage : UpsertStage) (row : AgentChatBinding)
  | identity (stage : UpsertStage) (row : UserIdentityBinding)
  | subject (lookup : SubjectLookup) (e : MembershipCall)
  | log (e : MembershipCall)
  | sideEffects (e : MembershipCall)

/-- The beginning of a writer, at a time in seconds. A fault is an error of the database. -/
def OwnerWrite.exec (env : BindingEnv) (now : Int) (fault : Option Err) (w : OwnerWrite) (db : BindingDB) :
    Except Err (List BindingStmt) × BindingDB :=
  match w with
  | .upsertAgentChatBindingWithTx inTx b =>
    match b.normalize env with
    | .error err => (.error err, db)
    | .ok b =>
      if inTx then
        let (r, t) := transaction fault (upsertAgentChatBinding.exec .diverges 4 .first b) db.bindings
        (r.map fun _ => [], { db with bindings := t })
      else (.ok [.binding .first b], db)
  | .upsertAgentChatBindingFromMembership m =>
    match m.binding with
    | .error err => (.error err, db)
    | .ok b =>
      -- an error of the lookup is as good as no row
      let current := if fault.isSome then none else db.bindings.byKey (Row.key b)
      let b := (current.map b.fill).getD b
      (.ok [.request (.write (.upsertAgentChatBindingWithTx false b))], db)
  | .setAgentChatBindingsEnabled a =>
    let (r, t) := transaction fault a.exec db.bindings
    (r.map fun _ => [], { db with bindings := t })
  | .upsertUserIdentityBindingRowWithTx inTx b =>
    match b.normalize env with
    | .error err => (.error err, db)
    | .ok b =>
      let b := b.stamp now
      if inTx then
        let (r, t) := transaction fault (upsertUserIdentityBinding.exec .diverges 4 .first b) db.identities
        (r.map fun _ => [], { db with identities := t })
      else (.ok [.identity .first b], db)

/-- One lookup of `resolveMembershipBindingSubject`; its errors are as good as no row. -/
def SubjectLookup.exec (env : BindingEnv) (fault : Option Err) (e : MembershipCall) (db : BindingDB) :
    SubjectLookup → MembershipBindingSubject
  | .binding =>
    let key : MembershipKey := (trimSpace env.membership.siteID, normalizeAccessPlatform e.input.source,
      trimSpace e.input.roomID, trimSpace e.input.externalUserID)
    let row := if fault.isSome then none else db.bindings.byKey key
    (row.map e.subject.addBinding).getD e.subject
  | .identity =>
    let key : IdentityKey := (env.canonicalSiteID env.membership.siteID,
      normalizeAccessPlatform e.input.source, trimSpace e.input.externalUserID)
    let row := if fault.isSome then none else (db.identities.byKey key).filter (·.status = "active")
    (row.map e.subject.addIdentity).getD e.subject
  | .state =>
    let row := if fault.isSome then none else db.membership.states.byKey (e.input.key env.membership.siteID)
    let subject := (row.map e.subject.addState).getD e.subject
    (e.delivery.crossSource.map subject.addCrossSource).getD subject

/-- What a lookup is followed by. -/
def SubjectLookup.next (e : MembershipCall) : SubjectLookup → BindingStmt
  | .binding => .subject .identity e
  | .identity => .subject .state e
  | .state => .log e

/-- `UpsertChatMembershipEvent` and, for a user that joins, `DeleteUserSiteAccessState`, whose errors are
dropped. -/
def MembershipCall.log (env : BindingEnv) (fault : Option Err) (e : MembershipCall) (db : BindingDB) :
    Except Err (List BindingStmt) × BindingDB :=
  match fault with
  | some err => (.error err, db)
  | none =>
    match upsertChatMembershipEvent env.membership (unixSeconds e.delivery.now) e.resolved db.membership with
    | (.error err, m) => (.error err, { db with membership := m })
    | (.ok _, m) =>
      let m :=
        if e.input.eventType.leaves = false ∧ 0 < e.subject.userID then
          { m with access := deleteUserSiteAccessState env.membership.siteID e.subject.userID m.access }
        else m
      (.ok ((e.writes env).map (fun w => .request (.write w)) ++ [.sideEffects e]), { db with membership := m })

/-- What `applyMembershipSideEffects` does to the memberships, after it has written the bindings. -/
def MembershipCall.sideEffects (env : BindingEnv) (fault : Option Err) (e : MembershipCall) (db : BindingDB) :
    Except Err (List BindingStmt) × BindingDB :=
  match fault with
  | some err => (.error err, db)
  | none =>
    let now := unixSeconds e.delivery.now
    let m :=
      if e.input.eventType.leaves then
        applyMembershipSideEffects env.membership e.delivery.access.user now e.resolved e.subject.userID
          db.membership
      else
        { db.membership with
          states := (db.membership.states.updateWhere (Row.key · = e.resolved.key env.membership.siteID)
            (ChatMembershipState.followPatch env.membership.cfg.get e.resolved e.subject.userID now)).1 }
    (.ok [], { db with
      membership := evaluateMember env.membership e.delivery.access e.delivery.now e.subject.userID m })

/-- A statement: the statements that follow it, or the error that the call returns. -/
def BindingStmt.exec (env : BindingEnv) (now : Int) (fault : Option Err) (c : BindingStmt) (db : BindingDB) :
    Except Err (List BindingStmt) × BindingDB :=
  match c with
  | .request (.write w) => w.exec env now fault db
  | .request (.backfillChatMembershipUserByExternal source externalUserID userID) =>
    let (r, m) := transaction fault
      (backfillChatMembershipUserByExternal env.membership.siteID source externalUserID userID now)
      db.membership
    (r.map fun _ => [], { db with membership := m })
  | .request (.handleChatMembershipEvent d) =>
    match d.check env with
    | .error err => (.error err, db)
    | .ok e => (.ok [.subject .binding e], db)
  | .binding stage row =>
    let (r, t) := upsertAgentChatBinding.step fault stage row db.bindings
    (r.map fun next => next.toList.map fun s => .binding s.1 s.2, { db with bindings := t })
  | .identity stage row =>
    let (r, t) := upsertUserIdentityBinding.step fault stage row db.identities
    (r.map fun next => next.toList.map fun s => .identity s.1 s.2, { db with identities := t })
  | .subject lookup e => (.ok [lookup.next { e with subject := lookup.exec env fault e db }], db)
  | .log e => e.log env fault db
  | .sideEffects e => e.sideEffects env fault db

/-- The user that a statement asks for on behalf of its call. -/
def BindingStmt.ask (env : BindingEnv) : BindingStmt → Option OwnerAsk
  | .request (.write w) => w.ask env
  | .request (.backfillChatMembershipUserByExternal ..) => none
  | .request (.handleChatMembershipEvent d) => (d.check env).toOption.bind (MembershipCall.ask env)
  | .binding _ row => row.ask
  | .identity _ row => some row.ask
  | .subject _ e => e.ask env
  | .log e => e.ask env
  | .sideEffects _ => none

/-- The statement logs an event, before its call has looked who owns the identity. -/
def BindingStmt.logs : BindingStmt → Bool
  | .log _ => true
  | _ => false

/-- A bound on the statements that are left of a call. -/
def BindingStmt.left : BindingStmt → Nat
  | .request (.write (.upsertAgentChatBindingWithTx ..)) => 5
  | .request (.write (.upsertAgentChatBindingFromMembership _)) => 6
  | .request (.write (.setAgentChatBindingsEnabled _)) => 1
  | .request (.write (.upsertUserIdentityBindingRowWithTx ..)) => 5
  | .request (.backfillChatMembershipUserByExternal ..) => 1
  | .request (.handleChatMembershipEvent _) => 13
  | .binding stage _ => stage.left
  | .identity stage _ => stage.left
  | .subject .binding _ => 12
  | .subject .identity _ => 11
  | .subject .state _ => 10
  | .log _ => 9
  | .sideEffects _ => 1

/-! ## Threads -/

/-- A call that is under way, with the statement that it issues next, or its result. -/
inductive BindingThread where
  | running (next : BindingStmt) (rest : List BindingStmt)
  | returned (result : Except Err Unit)

namespace BindingThread

/-- A call with statements left. -/
def ofList : List BindingStmt → BindingThread
  | [] => .returned (.ok ())
  | c :: rest => .running c rest

/-- The statements that are left. -/
def stmts : BindingThread → List BindingStmt
  | .running c rest => c :: rest
  | .returned _ => []

/-- The next statement of a call; an error is returned at once. -/
def step (env : BindingEnv) (now : Int) (fault : Option Err) (t : BindingThread) (db : BindingDB) :
    BindingThread × BindingDB :=
  match t with
  | .returned r => (.returned r, db)
  | .running c rest =>
    match c.exec env now fault db with
    | (.error err, db) => (.returned (.error err), db)
    | (.ok next, db) => (ofList (next ++ rest), db)

/-- The user that a call asks for. -/
def ask (env : BindingEnv) (t : BindingThread) : Option OwnerAsk := t.stmts.head?.bind (BindingStmt.ask env)

/-- The next statement logs an event. -/
def logs (t : BindingThread) : Bool := t.stmts.head?.any BindingStmt.logs

/-- A bound on the statements that are left. -/
def left (t : BindingThread) : Nat := (t.stmts.map BindingStmt.left).sum

end BindingThread

/-- Any number of calls over the tables. -/
abbrev BindingSystem := Pool BindingDB BindingThread

/-- A step of the system: a call begins, or it issues its next statement at a time in seconds. -/
inductive BindingEvent where
  | request (r : BindingRequest)
  | step (thread : Nat) (now : Int) (fault : Option Err)

/-- A step of the system. -/
def BindingSystem.step (env : BindingEnv) (s : BindingSystem) : BindingEvent → BindingSystem
  | .request r => s.spawn (.running (.request r) [])
  | .step thread now fault => s.stepAt (BindingThread.step env now fault) thread

end Prox
