import Prox.Lib.Dict
import Prox.Lib.Run
import Prox.Lib.Table
import Prox.Lib.Threads
import Prox.Lib.Time
import Prox.Model.Errors

/-! # Agent actions and their approvals

The embedding of `AgentCreateAction`, `findAgentActionReplay` and `AgentDecideApproval` of
`service/agent.go`, of `AgentExecuteActionByID` of `service/agent_executor.go` and of
`CreateAgentActionWithApproval` of `model/agent.go`. A call is a thread whose steps are the database
statements; a transaction is one step. What `executeAgentAction` does is the input of the step in which it
returns. -/

namespace Prox

/-! ## Requests -/

/-- The first text that is not blank, trimmed. -/
def firstAgentNonEmpty (values : List String) : String :=
  match values.find? fun v => trimSpace v ≠ "" with
  | some v => trimSpace v
  | none => ""

/-- A value of a payload. -/
inductive AgentValue where
  | bool (b : Bool)
  | text (s : String)
  | number (x : Rat)
  /-- A list, an object or `null`, as JSON. -/
  | other (json : String)

/-- A payload. -/
abbrev AgentPayload := Dict String AgentValue

/-- What the actions use of the JSON and hash libraries. -/
structure AgentEnv where
  mustAgentJSON : AgentPayload → String
  sha256Hex : String → String

/-- The risk levels. -/
inductive AgentRiskLevel where
  | low
  | medium
  | high
  deriving DecidableEq

/-- What `AgentCreateAction` reads of a tool of the catalog. -/
structure AgentTool where
  name : String
  approvalRequired : Bool
  riskLevel : AgentRiskLevel

/-- `AgentToolCatalog`. -/
def agentToolCatalog : List AgentTool :=
  [⟨"site.state.read", false, .low⟩, ⟨"site.logs.read", false, .low⟩, ⟨"chatops.logs.read", false, .low⟩,
    ⟨"budget.check", false, .low⟩, ⟨"reward.grant.small", false, .medium⟩,
    ⟨"reward.settlement.batch", false, .medium⟩, ⟨"quiz.state.load", false, .low⟩,
    ⟨"quiz.state.commit", false, .medium⟩, ⟨"quiz.question.draw", false, .low⟩,
    ⟨"quiz.round.load", false, .low⟩, ⟨"quiz.answer.submit", false, .medium⟩,
    ⟨"fund.report.read", false, .low⟩, ⟨"fund.topup", false, .high⟩, ⟨"user.quota.read", false, .low⟩,
    ⟨"agent.model.manage", false, .low⟩, ⟨"agent.skill.install", false, .medium⟩,
    ⟨"agent.skill.list", false, .low⟩, ⟨"risk.evaluate", false, .low⟩, ⟨"task.chatops.record", false, .low⟩,
    ⟨"message.community.send", false, .low⟩, ⟨"message.qq.send", false, .low⟩,
    ⟨"message.tg.send", false, .low⟩, ⟨"group.message.delete", false, .medium⟩,
    ⟨"group.member.mute", false, .medium⟩, ⟨"group.member.unmute", false, .medium⟩,
    ⟨"group.member.kick", false, .high⟩, ⟨"group.member.ban", false, .high⟩,
    ⟨"group.member.unban", false, .high⟩, ⟨"group.member.lookup", false, .low⟩,
    ⟨"group.admin.lookup", false, .low⟩, ⟨"admin.notice.publish", true, .high⟩,
    ⟨"admin.channel.suggest", true, .high⟩]

/-- `findAgentTool`. -/
def findAgentTool (name : String) (tools : List AgentTool) : Option AgentTool :=
  tools.find? (·.name = name)

/-- A character in the case that `strings.EqualFold` compares with an ASCII text. -/
def foldChar (c : Char) : Char :=
  if c = 'ſ' then 's' else if c = 'K' then 'k' else c.toLower

/-- What a payload value says as a flag; a list or an object says nothing. -/
def AgentValue.flag : AgentValue → Option Bool
  | .bool b => some b
  | .text s => some (s = "true" ∨ s = "1" ∨ s.toList.map foldChar = ['y', 'e', 's'])
  | .number x => some (x ≠ 0)
  | .other _ => none

/-- `agentBoolPayload`: the first of the keys that says something. -/
def agentBoolPayload (payload : AgentPayload) (keys : List String) : Bool :=
  (keys.findSome? fun key => (payload.get key).bind AgentValue.flag).getD false

/-- The settings that the calls read, with the site that `AgentSiteID` makes of them. -/
structure AgentActionSetting where
  siteID : String
  autoExecuteLowRisk : Bool
  humanApprovalEnabled : Bool
  approvalThresholdQuota : Int
  minDistinctMessages : Int
  minMessageChars : Int
  riskReviewThreshold : Int
  riskDenyThreshold : Int

/-- `int(v)` of a number of the payload. -/
def AgentPayload.int (payload : AgentPayload) (key : String) : Option Int :=
  match payload.get key with
  | some (.number x) => some (x.num.tdiv x.den)
  | _ => none

/-- The score of `AgentRiskEvaluate`. -/
def agentRiskScore (cfg : AgentActionSetting) (userId : Int) (payload : AgentPayload) : Int :=
  min 100
    ((if userId ≤ 0 then 20 else 0)
      + (if (payload.int "message_count").any (20 < ·) then 15 else 0)
      + (if (payload.int "distinct_messages").any (· < cfg.minDistinctMessages) then 25 else 0)
      + (if (payload.int "avg_message_chars").any (· < cfg.minMessageChars) then 20 else 0)
      + (if (payload.int "invite_count").any (5 ≤ ·) then 20 else 0))

/-- The level of `AgentRiskEvaluate`; its decision is `allow` exactly at the level `low`. -/
def agentRiskLevel (cfg : AgentActionSetting) (score : Int) : AgentRiskLevel :=
  if cfg.riskDenyThreshold ≤ score then .high
  else if cfg.riskReviewThreshold ≤ score then .medium
  else .low

/-- `AgentActionRequest`. -/
structure AgentActionRequest where
  actionType : String
  agentName : String
  targetType : String
  targetId : String
  userId : Int
  quotaAmount : Int
  budgetPool : String
  idempotencyKey : String
  reason : String
  payload : AgentPayload
  forceApproval : Bool

/-- A checked request with its defaults and its tool. -/
structure AgentCreate where
  cfg : AgentActionSetting
  req : AgentActionRequest
  tool : AgentTool
  payload : AgentPayload
  idempotencyKey : String

/-- `buildAgentIdempotencyKey`. -/
def buildAgentIdempotencyKey (env : AgentEnv) (cfg : AgentActionSetting) (req : AgentActionRequest) (now : Int) :
    String :=
  bytePrefix 32 (env.sha256Hex (concat [cfg.siteID, "|", req.actionType, "|", req.targetType, "|",
    req.targetId, "|", toString req.userId, "|", toString req.quotaAmount, "|", toString now]))

/-- `AgentCreateAction` up to its first statement. -/
def agentCreateAction (env : AgentEnv) (cfg : AgentActionSetting) (req : AgentActionRequest) (now : Int) :
    Except Err AgentCreate := do
  failIf (trimSpace req.actionType = "") (.text "action_type is required")
  let some tool := findAgentTool req.actionType agentToolCatalog
    | throw (.text ("unknown agent tool: " ++ req.actionType))
  let req := { req with
    agentName := if req.agentName = "" then "director" else req.agentName
    budgetPool := if req.budgetPool = "" then "daily" else req.budgetPool }
  let payload := if req.userId > 0 then req.payload.set "user_id" (.number req.userId) else req.payload
  let payload := if req.forceApproval then payload.set "force_approval" (.bool true) else payload
  let payload :=
    if agentBoolPayload payload ["game_action"] ∧ req.actionType = "reward.grant.small" then
      payload.set "admin_chatops_authorized" (.bool true)
    else payload
  let idempotencyKey := trimSpace req.idempotencyKey
  pure ⟨cfg, req, tool, payload,
    if idempotencyKey = "" then buildAgentIdempotencyKey env cfg req now else idempotencyKey⟩

namespace AgentCreate

variable (c : AgentCreate)

/-- The action belongs to a game. -/
def gameAction : Bool := agentBoolPayload c.payload ["game_action"]

/-- An administrator has authorized the action. -/
def adminAuthorized : Bool := agentBoolPayload c.payload ["admin_chatops_authorized"]

/-- The request asks for an approval. -/
def forceApproval : Bool :=
  (c.req.forceApproval ||
    agentBoolPayload c.payload ["force_approval", "requires_approval", "hermes_requires_approval"]) &&
  !(c.adminAuthorized || c.gameAction)

/-- The score of the request. -/
def riskScore : Int := agentRiskScore c.cfg c.req.userId c.payload

/-- The level of the request. -/
def riskLevel : AgentRiskLevel := agentRiskLevel c.cfg c.riskScore

/-- The action waits for an approval. -/
def approvalRequired : Bool :=
  !c.adminAuthorized && !c.gameAction && (c.forceApproval || (c.cfg.humanApprovalEnabled &&
    (c.tool.approvalRequired || c.req.quotaAmount ≥ c.cfg.approvalThresholdQuota || c.riskLevel ≠ .low)))

/-- The request asks for an execution at once. -/
def forceExecute : Bool :=
  agentBoolPayload c.payload ["force_execute"] || c.adminAuthorized || c.gameAction

/-- The action is executed as soon as it is created. -/
def executesAtOnce : Bool :=
  !c.approvalRequired && (c.forceExecute || c.cfg.autoExecuteLowRisk || c.tool.riskLevel = .low)

end AgentCreate

/-! ## Rows -/

/-- The status of an action. -/
inductive AgentActionStatus where
  | pending
  | queued
  | approved
  | running
  | rejected
  | failed
  | completed
  deriving DecidableEq

/-- A row of `agent_actions`. -/
structure AgentAction where
  id : Int
  siteId : String
  actionType : String
  agentName : String
  targetType : String
  targetId : String
  userId : Int
  riskLevel : AgentRiskLevel
  riskScore : Int
  quotaAmount : Int
  budgetPool : String
  approvalRequired : Bool
  approvalId : Int := 0
  status : AgentActionStatus
  idempotencyKey : String
  reason : String
  payloadJson : String
  resultJson : String
  executedAt : Int := 0
  updatedAt : Int
  createdAt : Int

instance : Row AgentAction String := ⟨AgentAction.id, AgentAction.idempotencyKey⟩

/-- The status of an approval. -/
inductive AgentApprovalStatus where
  | pending
  | approved
  | rejected
  deriving DecidableEq

/-- A decision on an approval. -/
inductive AgentDecision where
  | approved
  | rejected
  deriving DecidableEq

/-- A row of `agent_action_approvals`; a decision that is missing is the empty text. -/
structure AgentActionApproval where
  id : Int
  siteId : String
  actionId : Int
  status : AgentApprovalStatus
  reviewerId : Int := 0
  decision : Option AgentDecision := none
  comment : String := ""
  requestedBy : String
  decidedAt : Int := 0
  expiresAt : Int
  updatedAt : Int
  createdAt : Int

instance : Row AgentActionApproval Int := ⟨AgentActionApproval.id, AgentActionApproval.id⟩

/-- The two tables. -/
structure AgentDB where
  actions : Table AgentAction
  approvals : Table AgentActionApproval

/-- The columns of an action that a change of its status assigns. -/
def AgentAction.setStatus (status : AgentActionStatus) (now : Int) : Patch AgentAction where
  apply a := { a with status := status, updatedAt := now }
  id_apply _ := rfl
  key_apply _ := rfl

/-- The columns of an action that a failure assigns. -/
def AgentAction.fail (resultJson : String) (now : Int) : Patch AgentAction where
  apply a := { a with status := .failed, resultJson := resultJson, updatedAt := now }
  id_apply _ := rfl
  key_apply _ := rfl

/-- The columns of an action that a completion assigns. -/
def AgentAction.complete (resultJson : String) (now : Int) : Patch AgentAction where
  apply a := { a with status := .completed, executedAt := now, resultJson := resultJson, updatedAt := now }
  id_apply _ := rfl
  key_apply _ := rfl

/-- The column of an action that refers to its approval. -/
def AgentAction.setApproval (approvalId now : Int) : Patch AgentAction where
  apply a := { a with approvalId := approvalId, updatedAt := now }
  id_apply _ := rfl
  key_apply _ := rfl

/-- The status of an approval after a decision. -/
def AgentDecision.status : AgentDecision → AgentApprovalStatus
  | .approved => .approved
  | .rejected => .rejected

/-- The status of an action after a decision. -/
def AgentDecision.actionStatus : AgentDecision → AgentActionStatus
  | .approved => .approved
  | .rejected => .rejected

/-- The columns of an approval that a decision assigns. -/
def AgentActionApproval.decide (decision : AgentDecision) (comment : String) (reviewerId now : Int) :
    Patch AgentActionApproval where
  apply ap := { ap with
    status := decision.status, decision := some decision, comment := comment, reviewerId := reviewerId,
    decidedAt := now, updatedAt := now }
  id_apply _ := rfl
  key_apply _ := rfl

/-! ## Statements -/

/-- The `First` of an action by its primary key and its site. -/
def AgentDB.action (db : AgentDB) (actionID : Int) (siteId : String) : Option AgentAction :=
  (db.actions.byId actionID).filter (·.siteId = siteId)

/-- The `First` of an approval by its primary key and its site. -/
def AgentDB.approval (db : AgentDB) (approvalId : Int) (siteId : String) : Option AgentActionApproval :=
  (db.approvals.byId approvalId).filter (·.siteId = siteId)

/-- `findAgentActionReplay`: the action created before under the key of a request. -/
def findAgentActionReplay (env : AgentEnv) (c : AgentCreate) (db : AgentDB) :
    Option (Except Err AgentAction) :=
  if trimSpace c.idempotencyKey = "" then none
  else
    ((db.actions.byKey (trimSpace c.idempotencyKey)).filter (·.siteId = trimSpace c.cfg.siteID)).map
      fun existing =>
        if existing.actionType = c.req.actionType ∧ existing.agentName = c.req.agentName ∧
            existing.targetType = c.req.targetType ∧ existing.targetId = c.req.targetId ∧
            existing.userId = c.req.userId ∧ existing.quotaAmount = c.req.quotaAmount ∧
            existing.budgetPool = c.req.budgetPool ∧ existing.reason = c.req.reason ∧
            existing.payloadJson = env.mustAgentJSON c.payload then .ok existing
        else .error (.text
          ("idempotency key conflict for different agent action: " ++ c.idempotencyKey))

/-- The row that a request creates. -/
def AgentCreate.action (env : AgentEnv) (c : AgentCreate) (id now : Int) : AgentAction where
  id := id
  siteId := c.cfg.siteID
  actionType := c.req.actionType
  agentName := c.req.agentName
  targetType := c.req.targetType
  targetId := c.req.targetId
  userId := c.req.userId
  riskLevel := c.riskLevel
  riskScore := c.riskScore
  quotaAmount := c.req.quotaAmount
  budgetPool := c.req.budgetPool
  approvalRequired := c.approvalRequired
  status := if c.approvalRequired then .pending else .queued
  idempotencyKey := c.idempotencyKey
  reason := c.req.reason
  payloadJson := env.mustAgentJSON c.payload
  resultJson := env.mustAgentJSON
    (if c.approvalRequired then
      (Dict.empty.set "mode" (.text "control_plane")).set "message"
        (.text "action recorded for agent workflow")
    else
      (Dict.empty.set "mode" (.text "executor")).set "message"
        (.text "action queued for guarded execution"))
  updatedAt := now
  createdAt := now

/-- The approval that a request creates. -/
def AgentCreate.approval (c : AgentCreate) (id actionId expiresAt now : Int) : AgentActionApproval where
  id := id
  siteId := c.cfg.siteID
  actionId := actionId
  status := .pending
  requestedBy := c.req.agentName
  expiresAt := expiresAt
  updatedAt := now
  createdAt := now

/-- `CreateAgentActionWithApproval`, the body of its transaction. -/
def createAgentActionWithApprovalTx (env : AgentEnv) (c : AgentCreate) (expiresAt now : Int)
    (db : AgentDB) : Except Err (AgentAction × AgentDB) :=
  let action := c.action env db.actions.nextId now
  match db.actions.create action with
  | none => .error (.sentinel .duplicatedKey)
  | some actions =>
    if c.approvalRequired then
      let approval := c.approval db.approvals.nextId action.id expiresAt now
      match db.approvals.create approval with
      | none => .error (.sentinel .duplicatedKey)
      | some approvals =>
        let patch := AgentAction.setApproval approval.id now
        .ok (patch.apply action, ⟨(actions.updateWhere (fun a => a.id = action.id) patch).1, approvals⟩)
    else .ok (action, { db with actions := actions })

/-- A decision that `AgentDecideApproval` has parsed. -/
structure AgentDecide where
  siteId : String
  approvalId : Int
  reviewerId : Int
  decision : AgentDecision
  comment : String

/-- `AgentDecideApproval` up to its first statement. -/
def agentDecideApproval (siteId : String) (approvalId reviewerId : Int) (decision comment : String) :
    Except Err AgentDecide :=
  if toLowerAscii (trimSpace decision) = "approved" then
    .ok ⟨siteId, approvalId, reviewerId, .approved, comment⟩
  else if toLowerAscii (trimSpace decision) = "rejected" then
    .ok ⟨siteId, approvalId, reviewerId, .rejected, comment⟩
  else .error (.text "decision must be approved or rejected")

/-- The body of the transaction of `AgentDecideApproval`. -/
def AgentDecide.write (d : AgentDecide) (approval : AgentActionApproval) (now : Int) (db : AgentDB) :
    AgentDB where
  approvals := (db.approvals.updateWhere (fun ap => ap.id = approval.id)
    (AgentActionApproval.decide d.decision d.comment d.reviewerId now)).1
  actions := (db.actions.updateWhere (fun a => a.id = approval.actionId ∧ a.siteId = d.siteId)
    (AgentAction.setStatus d.decision.actionStatus now)).1

/-! ## Calls as threads -/

/-- Who executes an action, and what it returns when the execution returns nothing. -/
inductive AgentCaller where
  | api
  | create (action : AgentAction)
  | decide

/-- The arguments of `AgentExecuteActionByID` at a site. -/
structure AgentExecution where
  caller : AgentCaller
  siteId : String
  actionID : Int

/-- What `executeAgentAction` returns. -/
abbrev AgentOutcome := Except Err AgentPayload

/-- A call before its next step, or with its result. -/
inductive AgentThread where
  /-- A creation looks for an earlier request with its key. -/
  | replay (c : AgentCreate)
  /-- There is none, it evaluates the risk and reads the clock. -/
  | prepare (c : AgentCreate)
  /-- It creates the action, and the approval if one is required. -/
  | create (c : AgentCreate) (expiresAt : Int)
  /-- The database refused, it looks for the earlier request again. -/
  | replayAgain (c : AgentCreate) (err : Err)
  /-- A decision reads the approval. -/
  | decideRead (d : AgentDecide)
  /-- The approval is pending, it reads the clock. -/
  | decideClock (d : AgentDecide) (approval : AgentActionApproval)
  /-- It writes the decision. -/
  | decide (d : AgentDecide) (approval : AgentActionApproval) (now : Int)
  /-- An execution reads the action. -/
  | execute (e : AgentExecution)
  /-- It marks the action as running. -/
  | mark (e : AgentExecution) (action : AgentAction)
  /-- It is in `executeAgentAction`. -/
  | executing (e : AgentExecution) (action : AgentAction)
  /-- It writes how the execution ended. -/
  | finish (e : AgentExecution) (action : AgentAction) (outcome : AgentOutcome)
  /-- It reads the action again. -/
  | reread (e : AgentExecution) (action : AgentAction) (err : Option Err)
  /-- The call has returned. -/
  | done (action : Option AgentAction) (err : Option Err)

/-- What a call returns after its execution. -/
def AgentExecution.returns (e : AgentExecution) (action : Option AgentAction) (err : Option Err) : AgentThread :=
  match e.caller with
  | .api => .done action err
  | .create created => .done (some (action.getD created)) none
  | .decide => .done none err

/-- What happens to actions and approvals. -/
inductive AgentRecord where
  /-- An approval is decided. -/
  | decided (approval : AgentActionApproval) (decision : AgentDecision) (decidedAt : Int)
  /-- `executeAgentAction` is entered. -/
  | entered (action : AgentAction)
  /-- `executeAgentAction` returns an error. -/
  | failed (actionId : Int)
  /-- The action is completed. -/
  | completed (actionId : Int)

/-- The clock in nanoseconds, the tables, and what has happened, the newest first. -/
structure AgentWorld where
  clock : Int
  db : AgentDB
  history : List AgentRecord

/-- Adds to the history. -/
def AgentWorld.log (w : AgentWorld) (r : AgentRecord) : AgentWorld := { w with history := r :: w.history }

/-- The time in seconds. -/
def AgentWorld.now (w : AgentWorld) : Int := unixSeconds w.clock

/-- How long an approval can be decided, in nanoseconds. -/
def agentApprovalTTL : Int := 72 * 3600 * nanosPerSecond

/-- The next step of a call. The database refuses its statement with `fault`; `outcome` is what
`executeAgentAction` returns. -/
def AgentThread.step (env : AgentEnv) (fault : Option Err) (outcome : AgentOutcome) (w : AgentWorld) :
    AgentThread → AgentThread × AgentWorld
  | .replay c =>
    match fault with
    | some err => (.done none (some err), w)
    | none =>
      match findAgentActionReplay env c w.db with
      | none => (.prepare c, w)
      | some (.ok action) => (.done (some action) none, w)
      | some (.error err) => (.done none (some err), w)
  | .prepare c => (.create c (unixSeconds (w.clock + agentApprovalTTL)), w)
  | .create c expiresAt =>
    match transaction fault (createAgentActionWithApprovalTx env c expiresAt w.now) w.db with
    | (.error err, _) => (.replayAgain c err, w)
    | (.ok action, db) =>
      (if c.executesAtOnce then .execute ⟨.create action, c.cfg.siteID, action.id⟩ else .done (some action) none,
        { w with db := db })
  | .replayAgain c err =>
    match fault with
    | some _ => (.done none (some err), w)
    | none =>
      match findAgentActionReplay env c w.db with
      | none => (.done none (some err), w)
      | some (.ok action) => (.done (some action) none, w)
      | some (.error err) => (.done none (some err), w)
  | .decideRead d =>
    match fault with
    | some err => (.done none (some err), w)
    | none =>
      match w.db.approval d.approvalId d.siteId with
      | none => (.done none (some (.sentinel .recordNotFound)), w)
      | some approval =>
        if approval.status = .pending then (.decideClock d approval, w)
        else (.done none (some (.text "approval is not pending")), w)
  | .decideClock d approval => (.decide d approval w.now, w)
  | .decide d approval now =>
    match fault with
    | some err => (.done none (some err), w)
    | none =>
      (if d.decision = .approved then .execute ⟨.decide, d.siteId, approval.actionId⟩ else .done none none,
        { w with db := d.write approval now w.db }.log (.decided approval d.decision now))
  | .execute e =>
    match fault with
    | some err => (e.returns none (some err), w)
    | none =>
      match w.db.action e.actionID e.siteId with
      | none => (e.returns none (some (.sentinel .recordNotFound)), w)
      | some action =>
        if action.status = .completed ∨ action.status = .rejected then (e.returns (some action) none, w)
        else (.mark e action, w)
  | .mark e action =>
    -- an error of this update is dropped, and the update has no condition on the status
    let patch := AgentAction.setStatus .running w.now
    let actions :=
      if fault.isSome then w.db.actions else (w.db.actions.updateWhere (fun a => a.id = action.id) patch).1
    (.executing e (patch.apply action), { w with db := { w.db with actions := actions } }.log (.entered action))
  | .executing e action =>
    (.finish e action outcome,
      match outcome with
      | .ok _ => w
      | .error _ => w.log (.failed action.id))
  | .finish e action outcome =>
    let update (patch : Patch AgentAction) : AgentWorld :=
      { w with db := { w.db with
          actions := (w.db.actions.updateWhere (fun a => a.id = action.id ∧ a.siteId = action.siteId) patch).1 } }
    match outcome with
    | .error err =>
      let result := (Dict.empty.set "ok" (.bool false)).set "error" (.text err.message)
      (.reread e action (some err),
        if fault.isSome then w else update (AgentAction.fail (env.mustAgentJSON result) w.now))
    | .ok result =>
      match fault with
      | some err => (e.returns none (some err), w)
      | none =>
        (.reread e action none,
          (update (AgentAction.complete (env.mustAgentJSON result) w.now)).log (.completed action.id))
  | .reread e action err =>
    let action := if fault.isSome then action else (w.db.action action.id action.siteId).getD action
    (e.returns (some action) err, w)
  | .done action err => (.done action err, w)

/-! ## Interleavings -/

/-- A call. -/
inductive AgentCall where
  | create (cfg : AgentActionSetting) (req : AgentActionRequest)
  | decide (siteId : String) (approvalId reviewerId : Int) (decision comment : String)
  | execute (siteId : String) (actionID : Int)

/-- A call before its first statement. -/
def AgentCall.start (env : AgentEnv) (now : Int) : AgentCall → AgentThread
  | .create cfg req =>
    match agentCreateAction env cfg req now with
    | .error err => .done none (some err)
    | .ok c => .replay c
  | .decide siteId approvalId reviewerId decision comment =>
    match agentDecideApproval siteId approvalId reviewerId decision comment with
    | .error err => .done none (some err)
    | .ok d => .decideRead d
  | .execute siteId actionID => .execute ⟨.api, siteId, actionID⟩

/-- Any number of calls. -/
abbrev AgentSystem := Pool AgentWorld AgentThread

/-- A step of the system: time goes on, a call begins, or a call makes its next step. -/
inductive AgentEvent where
  | wait (nanos : Nat)
  | call (c : AgentCall)
  | step (thread : Nat) (fault : Option Err) (outcome : AgentOutcome)

/-- The system after a step. -/
def AgentSystem.step (env : AgentEnv) (s : AgentSystem) : AgentEvent → AgentSystem
  | .wait nanos => { s with shared := { s.shared with clock := s.shared.clock + nanos } }
  | .call c => s.spawn (c.start env s.shared.clock)
  | .step thread fault outcome => s.stepAt (fun t w => t.step env fault outcome w) thread

/-- A system without actions and calls. -/
def AgentSystem.initial (clock : Int) : AgentSystem := ⟨⟨clock, ⟨.empty, .empty⟩, []⟩, []⟩

end Prox
