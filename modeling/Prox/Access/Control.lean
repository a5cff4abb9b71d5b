import Mathlib.Data.List.Sort
import Prox.Lib.Choice
import Prox.Lib.Dict
import Prox.Lib.Run
import Prox.Lib.Table
import Prox.Lib.Time
import Prox.Model.Errors

/-! # Access control

The embedding of `service/access_control.go` and of the state rows of `model/access_control.go`: the
evaluation of a user's access, its state row, the groups that the state allows, and the two places that
enforce them, `EnsureUserCanCreateOrEnableToken` and `GetUserUsableGroupsWithAccess`. The columns with lists
of groups hold their JSON text; here they are the lists. -/

namespace Prox

/-! ## Settings, users and state rows -/

/-- The levels of access. -/
inductive AccessLevel where
  | none
  | communityOnly
  | fullAccess
  | paidBypass
  | adminBypass
  | manual
  deriving DecidableEq

/-- `AccessOverrideFullAccess`. -/
def accessOverrideFullAccess : String := "full_access"

/-- `AccessOverrideCommunity`. -/
def accessOverrideCommunity : String := "community_only"

/-- `AccessOverrideCustom`. -/
def accessOverrideCustom : String := "custom_groups"

/-- `AccessOverrideDeny`. -/
def accessOverrideDeny : String := "none"

/-- The settings of access control that the evaluation reads. -/
structure AccessControlSetting where
  enabled : Bool
  primaryPlatform : String
  communityOnlyGroups : List String
  fullAccessGroups : List String
  paidBypassGroups : List String
  paidUserGroups : List String
  allowPaidBypass : Bool
  allowAdminBypass : Bool
  blockTokenCreate : Bool
  blockTokenEnable : Bool
  stateCacheTTLSeconds : Int
  denyMessage : String
  upgradeMessage : String

/-- `defaultAccessControlStateCacheTTLSeconds`. -/
def defaultAccessControlStateCacheTTLSeconds : Int := 900

/-- `GetAccessControlSetting` fills in the defaults. -/
def AccessControlSetting.get (cfg : AccessControlSetting) : AccessControlSetting :=
  { cfg with
    stateCacheTTLSeconds :=
      if cfg.stateCacheTTLSeconds ≤ 0 then defaultAccessControlStateCacheTTLSeconds
      else cfg.stateCacheTTLSeconds
    primaryPlatform := if cfg.primaryPlatform = "" then "qq" else cfg.primaryPlatform }

/-- What the evaluation reads of a user. -/
structure AccessUser where
  role : Int
  group : String

/-- `RoleAdminUser`. -/
def roleAdminUser : Int := 10

/-- What is known of a user in the community. -/
structure CommunityBinding where
  communityBound : Bool
  hasOAuthBinding : Bool
  hasRoomMembership : Bool

/-- What the evaluation reads: the site, the settings, the users and their bindings. -/
structure AccessEnv where
  siteID : String
  equalFold : String → String → Bool
  cfg : AccessControlSetting
  /-- The groups of the setting `UserUsableGroups`, with their descriptions. -/
  userUsableGroups : Dict String String
  /-- The special usable groups of a group, in the order in which a `range` visits them. -/
  groupSpecialUsableGroup : String → Option (Dict String String)
  user : Int → Except Err AccessUser
  /-- The rooms that count as primary; none stands for all. -/
  primaryGroupIDs : List String
  /-- The rooms of a user's bindings on the primary platform. -/
  chatBindings : Int → Except Err (List String)
  community : Int → Except Err CommunityBinding

/-- A row of `user_site_access_states`. -/
structure UserSiteAccessState where
  id : Int := 0
  siteId : String
  userId : Int
  accessLevel : AccessLevel
  communityBound : Bool := false
  hasOAuthBinding : Bool := false
  hasRoomMembership : Bool := false
  primaryBound : Bool := false
  primaryPlatform : String := ""
  matchedPrimaryGroupId : String := ""
  manualOverrideMode : String := ""
  manualOverrideGroups : List String := []
  manualOverrideReason : String := ""
  effectiveGroups : List String := []
  reasonCode : String := ""
  reasonMessage : String := ""
  lastEvaluatedAt : Int
  createdAt : Int
  updatedAt : Int

instance : Row UserSiteAccessState (String × Int) := ⟨UserSiteAccessState.id, fun s => (s.siteId, s.userId)⟩

/-! ## Lists of groups -/

/-- `normalizeStringSlice`: trimmed, without blanks and repetitions. -/
def normalizeStringSlice (items : List String) : List String :=
  firstOccurrences ((items.map trimSpace).filter (· ≠ ""))

/-- `sort.Strings`. -/
def sortStrings (items : List String) : List String := items.insertionSort (· ≤ ·)

/-- The keys of a map. -/
def Dict.keys {β : Type} (d : Dict String β) : List String := d.entries.map Prod.fst

/-- `GetUserUsableGroups`. -/
def getUserUsableGroups (env : AccessEnv) (userGroup : String) : Dict String String :=
  if userGroup = "" then env.userUsableGroups
  else
    let special := ((env.groupSpecialUsableGroup userGroup).map Dict.entries).getD []
    let groups := special.foldl (fun groups (name, desc) =>
      if hasPrefix name "-:" then groups.pop (afterPrefix name "-:")
      else if hasPrefix name "+:" then groups.set (afterPrefix name "+:") desc
      else groups.set name desc) env.userUsableGroups
    if (groups.get userGroup).isSome then groups else groups.set userGroup "用户分组"

/-- `accessControlFilterGroups`. -/
def accessControlFilterGroups (base : Dict String String) (candidates : List String) : Dict String String :=
  candidates.foldl (fun out candidate =>
    match base.get (trimSpace candidate) with
    | some desc => out.set (trimSpace candidate) desc
    | none => out) .empty

/-- `accessControlOrderedGroups` without candidates. -/
def accessControlOrderedGroups (base : Dict String String) : List String := sortStrings base.keys

/-- `accessControlAllowedGroups`. -/
def accessControlAllowedGroups (base : Dict String String) (state : UserSiteAccessState)
    (cfg : AccessControlSetting) : Dict String String :=
  let overrideMode := trimSpace state.manualOverrideMode
  let overrideGroups := normalizeStringSlice state.manualOverrideGroups
  if overrideMode = accessOverrideDeny then .empty
  else if overrideMode = accessOverrideCommunity then
    accessControlFilterGroups base (if overrideGroups = [] then cfg.communityOnlyGroups else overrideGroups)
  else if overrideMode = accessOverrideCustom then accessControlFilterGroups base overrideGroups
  else if overrideMode = accessOverrideFullAccess then
    let candidates := if overrideGroups = [] then cfg.fullAccessGroups else overrideGroups
    if candidates = [] then base else accessControlFilterGroups base candidates
  else
    match state.accessLevel with
    | .adminBypass | .paidBypass | .fullAccess =>
      if cfg.fullAccessGroups = [] then base else accessControlFilterGroups base cfg.fullAccessGroups
    | .communityOnly =>
      if cfg.communityOnlyGroups = [] then .empty
      else accessControlFilterGroups base cfg.communityOnlyGroups
    | _ => .empty

/-! ## Messages -/

/-- `strings.TrimRight` with a set of characters. -/
def trimRight (s : String) (cutset : List Char) : String :=
  String.ofList (s.toList.rdropWhile (cutset.contains ·))

/-- `strings.Join`. -/
def joinStrings (items : List String) (sep : String) : String := concat (items.intersperse sep)

/-- `normalizeAccessPlatform`, which is `normalizeIdentityProvider`. -/
def normalizeAccessPlatform (platform : String) : String :=
  let platform := toLowerAscii (trimSpace platform)
  if platform = "telegram" then "tg"
  else if platform ∈ ["discord", "dc", "hhhl"] then "community"
  else if platform = "" then "qq"
  else platform

/-- `accessControlPrimaryPlatform`. -/
def accessControlPrimaryPlatform (cfg : AccessControlSetting) : String :=
  let platform := toLowerAscii (trimSpace cfg.primaryPlatform)
  if platform = "" then "qq" else if platform = "telegram" then "tg" else platform

/-- `accessControlPrimaryPlatformLabel`. -/
def accessControlPrimaryPlatformLabel (platform : String) : String :=
  if normalizeAccessPlatform platform = "tg" then "Telegram"
  else if normalizeAccessPlatform platform = "community" then "社区"
  else "QQ"

/-- `accessControlNextSteps` of a state. -/
def accessControlNextSteps (cfg : AccessControlSetting) (state : UserSiteAccessState) : List String :=
  let platform :=
    if trimSpace state.primaryPlatform ≠ "" then state.primaryPlatform else accessControlPrimaryPlatform cfg
  (if state.hasOAuthBinding then [] else ["先通过 HHHL 社区授权登录"])
    ++ (if state.hasRoomMembership then [] else ["加入当前站点要求的社区群"])
    ++ (if state.primaryBound then [] else [concat ["绑定 ", accessControlPrimaryPlatformLabel platform, " 主群"]])

/-- `accessControlAppendSteps`. -/
def accessControlAppendSteps (base : String) (steps : List String) : String :=
  let base := trimSpace base
  let filtered := (steps.map trimSpace).filter (· ≠ "")
  let cutset := ['；', '。', ' ']
  if filtered = [] then trimRight base cutset
  else if base = "" then concat ["当前还需：", joinStrings filtered "；", "。"]
  else concat [trimRight base cutset, "。当前还需：", joinStrings filtered "；", "。"]

/-- `accessControlReasonMessage` of a state. -/
def accessControlReasonMessage (state : UserSiteAccessState) (cfg : AccessControlSetting) : String :=
  if trimSpace state.manualOverrideReason ≠ "" then trimSpace state.manualOverrideReason
  else
    match state.accessLevel with
    | .none =>
      accessControlAppendSteps
        (if trimSpace cfg.denyMessage ≠ "" then trimSpace cfg.denyMessage else "当前账号尚未获得可用访问权限")
        (accessControlNextSteps cfg state)
    | .communityOnly =>
      accessControlAppendSteps
        (if trimSpace cfg.upgradeMessage ≠ "" then trimSpace cfg.upgradeMessage
          else "当前账号已完成社区授权，仅解锁社区分组")
        (if state.primaryBound then []
          else [concat ["绑定 ", accessControlPrimaryPlatformLabel state.primaryPlatform, " 主群以解锁更多分组"]])
    | _ => ""

/-! ## Evaluation -/

/-- `UpsertUserSiteAccessState`: the row that is written, with its columns normalized. -/
def UserSiteAccessState.normalized (state : UserSiteAccessState) (now : Int) : UserSiteAccessState :=
  { state with
    siteId := trimSpace state.siteId
    createdAt := if state.createdAt = 0 then now else state.createdAt
    lastEvaluatedAt := if state.lastEvaluatedAt = 0 then now else state.lastEvaluatedAt
    updatedAt := now
    primaryPlatform := normalizeAccessPlatform state.primaryPlatform
    matchedPrimaryGroupId := trimSpace state.matchedPrimaryGroupId
    manualOverrideMode := trimSpace state.manualOverrideMode
    manualOverrideGroups := normalizeStringSlice state.manualOverrideGroups
    effectiveGroups := normalizeStringSlice state.effectiveGroups }

/-- The columns that the update of an `UpsertUserSiteAccessState` assigns: all but the keys and the time of
the creation. -/
def UserSiteAccessState.assign (state : UserSiteAccessState) : Patch UserSiteAccessState where
  apply row := { state with id := row.id, siteId := row.siteId, userId := row.userId, createdAt := row.createdAt }
  id_apply _ := rfl
  key_apply _ := rfl

/-- The table of access states. -/
abbrev AccessTable := Table UserSiteAccessState

/-- `UpsertUserSiteAccessState`. -/
def upsertUserSiteAccessState (state : UserSiteAccessState) (now : Int) (rows : AccessTable) :
    Except Err (UserSiteAccessState × AccessTable) := do
  failIf (state.userId ≤ 0) (.text "invalid user site access state")
  failIf (trimSpace state.siteId = "") (.text "site_id is required")
  let state := state.normalized now
  match rows.create { state with id := rows.nextId } with
  | some rows' => pure ({ state with id := rows.nextId }, rows')
  | none => pure (state, (rows.updateWhere (fun row => Row.key row = Row.key state) state.assign).1)

/-- `GetUserSiteAccessState`, without the errors of the database. -/
def getUserSiteAccessState (siteID : String) (userID : Int) (rows : AccessTable) : Option UserSiteAccessState :=
  rows.byKey (trimSpace siteID, userID)

/-- `accessControlStateFresh` of a row, at a time in nanoseconds. -/
def accessControlStateFresh (cfg : AccessControlSetting) (row : UserSiteAccessState) (now : Int) : Bool :=
  now - row.lastEvaluatedAt * nanosPerSecond < cfg.stateCacheTTLSeconds * nanosPerSecond

/-- `accessControlHasPaidBypass`. -/
def accessControlHasPaidBypass (env : AccessEnv) (user : AccessUser) : Bool :=
  let userGroup := trimSpace user.group
  let candidates := if env.cfg.paidUserGroups = [] then env.cfg.paidBypassGroups else env.cfg.paidUserGroups
  env.cfg.allowPaidBypass && userGroup ≠ "" &&
    candidates.any fun groupName => trimSpace groupName ≠ "" && env.equalFold (trimSpace groupName) userGroup

/-- `accessControlPrimaryBinding`: the first room of the user's bindings that counts as primary. -/
def accessControlPrimaryBinding (env : AccessEnv) (userID : Int) : Except Err (Option String) := do
  let allowedRooms := (env.primaryGroupIDs.map trimSpace).filter (· ≠ "")
  let rooms ← env.chatBindings userID
  pure ((rooms.map trimSpace).find? fun roomID => roomID ≠ "" ∧ (allowedRooms = [] ∨ roomID ∈ allowedRooms))

/-- The override of a row. -/
structure AccessOverride where
  mode : String := ""
  groups : List String := []
  reason : String := ""
  deriving DecidableEq

/-- The override of a row, if there is one. -/
def overrideOf (existing : Option UserSiteAccessState) : AccessOverride :=
  match existing with
  | none => {}
  | some row => ⟨trimSpace row.manualOverrideMode, row.manualOverrideGroups, trimSpace row.manualOverrideReason⟩

/-- The level of an override and the code of its reason. -/
def overrideLevel (mode : String) : AccessLevel × String :=
  if mode = accessOverrideFullAccess then (.manual, "manual_full_access")
  else if mode = accessOverrideCommunity then (.manual, "manual_community_only")
  else if mode = accessOverrideCustom then (.manual, "manual_custom_groups")
  else if mode = accessOverrideDeny then (.none, "manual_deny")
  else (.manual, "manual_override")

/-- The level, the bindings and the reason that `evaluateUserAccessControl` decides on. -/
def decideAccessLevel (env : AccessEnv) (userID : Int) (user : AccessUser) (state : UserSiteAccessState) :
    Except Err UserSiteAccessState :=
  let cfg := env.cfg.get
  if cfg.allowAdminBypass ∧ roleAdminUser ≤ user.role then
    .ok { state with
      accessLevel := .adminBypass, primaryBound := true
      reasonCode := "admin_bypass", reasonMessage := "administrator bypass" }
  else if state.manualOverrideMode ≠ "" then
    let state := { state with
      accessLevel := (overrideLevel state.manualOverrideMode).1
      reasonCode := (overrideLevel state.manualOverrideMode).2 }
    .ok { state with reasonMessage := accessControlReasonMessage state cfg }
  else if accessControlHasPaidBypass env user then
    .ok { state with
      accessLevel := .paidBypass, reasonCode := "paid_bypass", reasonMessage := "paid user bypass" }
  else do
    let primary ← accessControlPrimaryBinding env userID
    let community ← env.community userID
    let state := { state with
      primaryBound := primary.isSome
      matchedPrimaryGroupId := primary.getD ""
      communityBound := community.communityBound
      hasOAuthBinding := community.hasOAuthBinding
      hasRoomMembership := community.hasRoomMembership }
    if primary.isSome then
      pure { state with
        accessLevel := .fullAccess, reasonCode := "primary_bound", reasonMessage := "primary group bound" }
    else if state.communityBound then
      pure { state with
        accessLevel := .communityOnly, reasonCode := "community_bound", reasonMessage := "community only" }
    else
      let state := { state with accessLevel := .none, reasonCode := "not_bound" }
      pure { state with reasonMessage := accessControlReasonMessage state cfg }

/-- The level is one that unlocks the full-access groups. -/
def AccessLevel.unlocksAll (level : AccessLevel) : Bool :=
  level = .fullAccess ∨ level = .paidBypass ∨ level = .adminBypass

/-- The groups that `evaluateUserAccessControl` stores. -/
def evaluatedGroups (base : Dict String String) (state : UserSiteAccessState) (cfg : AccessControlSetting) :
    Dict String String :=
  let allowed := accessControlAllowedGroups base state cfg
  if state.accessLevel.unlocksAll ∧ cfg.fullAccessGroups = [] ∧ allowed.entries = [] then base else allowed

/-- The state from which an evaluation starts. -/
def initialAccessState (env : AccessEnv) (now userID : Int) (o : AccessOverride) : UserSiteAccessState where
  siteId := env.siteID
  userId := userID
  accessLevel := .none
  primaryPlatform := accessControlPrimaryPlatform env.cfg.get
  manualOverrideMode := o.mode
  manualOverrideGroups := o.groups
  manualOverrideReason := o.reason
  reasonCode := "not_bound"
  lastEvaluatedAt := now
  createdAt := now
  updatedAt := now

/-- The state that `evaluateUserAccessControl` computes from what it has read, at a time in seconds. -/
def computeAccessState (env : AccessEnv) (now : Int) (userID : Int) (user : AccessUser)
    (o : AccessOverride) : Except Err UserSiteAccessState := do
  let cfg := env.cfg.get
  let state ← decideAccessLevel env userID user (initialAccessState env now userID o)
  let state := { state with
    effectiveGroups := sortStrings (evaluatedGroups (getUserUsableGroups env user.group) state cfg).keys }
  pure (if state.reasonMessage = "" then { state with reasonMessage := accessControlReasonMessage state cfg }
    else state)

/-- The state of a user while access control is disabled. -/
def disabledAccessState (env : AccessEnv) (now userID : Int) : UserSiteAccessState where
  siteId := env.siteID
  userId := userID
  accessLevel := .fullAccess
  reasonCode := "disabled"
  reasonMessage := "access control disabled"
  lastEvaluatedAt := now
  createdAt := now
  updatedAt := now

/-- The row that `evaluateUserAccessControl` returns without an evaluation. -/
def cachedAccessState (env : AccessEnv) (now userID : Int) (refresh : Bool) (rows : AccessTable) :
    Option UserSiteAccessState :=
  if refresh then none
  else (getUserSiteAccessState env.siteID userID rows).filter (accessControlStateFresh env.cfg.get · now)

/-- `EvaluateUserAccessControl`, at a time in nanoseconds. -/
def evaluateUserAccessControl (env : AccessEnv) (now userID : Int) (refresh : Bool) (rows : AccessTable) :
    Except Err UserSiteAccessState × AccessTable :=
  if env.cfg.get.enabled = false then
    let state := disabledAccessState env (unixSeconds now) userID
    match upsertUserSiteAccessState state (unixSeconds now) rows with
    | .ok (state, rows) => (.ok state, rows)
    | .error _ => (.ok state, rows)
  else
    match env.user userID with
    | .error err => (.error err, rows)
    | .ok user =>
      match cachedAccessState env now userID refresh rows with
      | some cached => (.ok cached, rows)
      | none =>
        let existing := getUserSiteAccessState env.siteID userID rows
        match computeAccessState env (unixSeconds now) userID user (overrideOf existing) with
        | .error err => (.error err, rows)
        | .ok state =>
          match upsertUserSiteAccessState state (unixSeconds now) rows with
          | .error err => (.error err, rows)
          | .ok (state, rows) => (.ok state, rows)

/-! ## Enforcement -/

/-- `AccessControlViolation`. -/
structure AccessControlViolation where
  action : String
  code : String
  message : String
  state : Option UserSiteAccessState
  requestedGroup : String
  allowedGroups : List String

/-- Why a group is refused. -/
inductive AccessError where
  | violation (v : AccessControlViolation)
  | other (err : Err)

/-- `accessControlActionLabel`. -/
def accessControlActionLabel (action : String) : String :=
  let action := toLowerAscii (trimSpace action)
  if action = "create" then "创建 API Key"
  else if action = "enable" then "启用 API Key"
  else if action = "update" then "更新 API Key 分组"
  else if action = "request" then "使用当前 API Key"
  else "执行当前操作"

/-- `accessControlAllowedGroupsSummary`. -/
def accessControlAllowedGroupsSummary (allowed : List String) : String :=
  let ordered := sortStrings (normalizeStringSlice allowed)
  if ordered = [] then "暂无"
  else if 6 < ordered.length then joinStrings (ordered.take 6) "、" ++ " 等"
  else joinStrings ordered "、"

/-- `accessControlViolationMessage` of a state. -/
def accessControlViolationMessage (action requestedGroup : String) (state : UserSiteAccessState)
    (allowed : List String) (cfg : AccessControlSetting) : String :=
  let requestedGroup := trimSpace requestedGroup
  let verb := accessControlActionLabel action
  let allowedText := accessControlAllowedGroupsSummary allowed
  let reason := trimRight (accessControlReasonMessage state cfg) ['。']
  match state.accessLevel with
  | .none => concat [reason, "，本次", verb, "已拒绝。"]
  | .communityOnly =>
    if requestedGroup ≠ "" then
      concat [reason, "。当前仅开放社区分组，请求分组：", requestedGroup, "；当前可用分组：", allowedText, "。"]
    else concat [reason, "。当前可用分组：", allowedText, "。"]
  | _ =>
    if requestedGroup ≠ "" then
      concat ["当前账号无权访问 ", requestedGroup, " 分组；当前可用分组：", allowedText, "。"]
    else concat [verb, "失败：当前账号暂无可用分组。"]

/-- `newAccessControlViolation` of a state. -/
def newAccessControlViolation (action code requestedGroup : String) (state : UserSiteAccessState)
    (allowed : Dict String String) (cfg : AccessControlSetting) : AccessControlViolation where
  action := toLowerAscii (trimSpace action)
  code := code
  message := accessControlViolationMessage action requestedGroup state (accessControlOrderedGroups allowed) cfg
  state := some state
  requestedGroup := trimSpace requestedGroup
  allowedGroups := accessControlOrderedGroups allowed

/-- The violation of enabling a key without a group. -/
def emptyGroupViolation (action : String) : AccessControlViolation where
  action := toLowerAscii (trimSpace action)
  code := "empty_group"
  message := "Key 未配置有效分组，已拒绝启用；请先重新完成社区认证并选择获准分组。"
  state := none
  requestedGroup := ""
  allowedGroups := []

/-- `accessControlMutationEnforced`. -/
def accessControlMutationEnforced (cfg : AccessControlSetting) (action : String) : Bool :=
  cfg.enabled &&
    if toLowerAscii (trimSpace action) = "create" then cfg.blockTokenCreate
    else if toLowerAscii (trimSpace action) = "enable" then cfg.blockTokenEnable
    else true

/-- An empty set of groups is replaced by all groups in the state. -/
def UserSiteAccessState.fallsBack (state : UserSiteAccessState) : Bool :=
  state.accessLevel.unlocksAll ∨ state.manualOverrideMode = accessOverrideFullAccess

/-- The groups with an empty set replaced by all groups, where the state says so. -/
def orAllGroups (base usable : Dict String String) (state : UserSiteAccessState) : Dict String String :=
  if usable.entries = [] ∧ state.fallsBack then base else usable

/-- `EnsureUserCanCreateOrEnableToken`, at a time in nanoseconds. -/
def ensureUserCanCreateOrEnableToken (env : AccessEnv) (now userID : Int) (requestedGroup action : String)
    (rows : AccessTable) : Except AccessError (String × UserSiteAccessState) × AccessTable :=
  let requestedGroup := trimSpace requestedGroup
  if env.equalFold (trimSpace action) "enable" ∧ requestedGroup = "" then
    (.error (.violation (emptyGroupViolation action)), rows)
  else
    match env.user userID with
    | .error err => (.error (.other err), rows)
    | .ok user =>
      match evaluateUserAccessControl env now userID false rows with
      | (.error err, rows) => (.error (.other err), rows)
      | (.ok state, rows) =>
        let cfg := env.cfg.get
        let baseUsable := getUserUsableGroups env user.group
        let usable :=
          if accessControlMutationEnforced cfg action then
            orAllGroups baseUsable (accessControlAllowedGroups baseUsable state cfg) state
          else baseUsable
        if usable.entries = [] then
          (.error (.violation (newAccessControlViolation action "no_usable_groups" requestedGroup state usable cfg)),
            rows)
        else if requestedGroup ≠ "" then
          if (usable.get requestedGroup).isSome then (.ok (requestedGroup, state), rows)
          else (.error (.violation
            (newAccessControlViolation action "group_denied" requestedGroup state usable cfg)), rows)
        else if (usable.get user.group).isSome then (.ok (user.group, state), rows)
        else (.ok ((accessControlOrderedGroups usable).headD "", state), rows)

/-- `GetUserUsableGroupsWithAccess`, at a time in nanoseconds. -/
def getUserUsableGroupsWithAccess (env : AccessEnv) (now userID : Int) (userGroup : String) (refresh : Bool)
    (rows : AccessTable) : Except Err (Dict String String × UserSiteAccessState) × AccessTable :=
  let base := getUserUsableGroups env userGroup
  match evaluateUserAccessControl env now userID refresh rows with
  | (.error err, rows) => (.error err, rows)
  | (.ok state, rows) =>
    let cfg := env.cfg.get
    let usable := if cfg.enabled then accessControlAllowedGroups base state cfg else base
    (.ok (orAllGroups base usable state, state), rows)

end Prox
