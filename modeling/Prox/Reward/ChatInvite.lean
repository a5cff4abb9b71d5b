import Prox.Reward.InviteGrant

/-! # Invitations in the chat

The embedding of `join` and `verify_claim` in `service/agent_chatops_invite.go`. A member of a group is led to
an edge, which says who invited him, by the id that the chat platform gives him or by his user. When he
proves to be a user, inviter and invitee get a claim each for a reward, which is paid out of pool and fund in
the transaction of the request.

What other parts of the program decide for a request (the user bound to an external id, the group's reward
policy, whether a member may receive benefits) is read from `ChatInviteEnv`. The journal of invitation
events, which nothing here reads, and the times of an edge are left out. -/

namespace Prox

open InPlace

/-! ## Tables -/

structure InviteCampaign where
  id : Int
  siteId : String
  campaignCode : String

instance : Row InviteCampaign String := ⟨InviteCampaign.id, InviteCampaign.campaignCode⟩

structure InviteLink where
  id : Int
  siteId : String
  campaignId : Int
  inviterUserId : Int
  inviteCode : String
  inviteUrl : String

instance : Row InviteLink String := ⟨InviteLink.id, InviteLink.inviteCode⟩

/-- The stages of an edge. -/
inductive EdgeStage where
  | blank
  | join
  | verified
  deriving DecidableEq

/-- The statuses of an edge. -/
inductive EdgeStatus where
  | blank
  | pending
  | verified
  deriving DecidableEq

/-- Who invited whom. -/
structure InviteEdge where
  id : Int
  siteId : String
  campaignId : Int := 0
  inviteLinkId : Int := 0
  inviterUserId : Int
  inviteeUserId : Int := 0
  inviteeProvider : String
  inviteeExternalId : String
  stage : EdgeStage := .join
  status : EdgeStatus := .pending
  deriving DecidableEq

instance : Row InviteEdge Int := ⟨InviteEdge.id, InviteEdge.id⟩

/-- The unique index `ux_invite_edge`; its columns change, and so `saveEdge` and `createEdge` look after it. -/
def InviteEdge.index (e : InviteEdge) : String × Int × String × String :=
  (e.siteId, e.inviteeUserId, e.inviteeProvider, e.inviteeExternalId)

/-- The two rewards of an invitation. -/
inductive RewardStage where
  | inviter
  | invitee
  deriving DecidableEq

def RewardStage.text : RewardStage → String
  | .inviter => "inviter"
  | .invitee => "invitee"

/-- `inviteRewardSourceType`. -/
def RewardStage.sourceType : RewardStage → String
  | .inviter => "invite_inviter_reward"
  | .invitee => "invite_invitee_reward"

/-- The statuses of a claim. -/
inductive ClaimStatus where
  | pending
  | paid
  | blockedDailyLimit
  | blockedMembership
  | failed
  | degradedFund
  | degradedBudget
  deriving DecidableEq

/-- The claim of one reward of an edge. -/
structure InviteRewardClaim where
  id : Int
  siteId : String
  campaignId : Int
  inviteEdgeId : Int
  rewardStage : RewardStage
  rewardUserId : Int
  quota : Int
  status : ClaimStatus
  opsFundLedgerId : Int := 0
  error : String := ""
  createdAt : Int
  updatedAt : Int
  deriving DecidableEq

instance : Row InviteRewardClaim (Int × RewardStage) :=
  ⟨InviteRewardClaim.id, fun c => (c.inviteEdgeId, c.rewardStage)⟩

/-- `status = ?, error = ?, updated_at = ?`. -/
def InviteRewardClaim.setStatus (status : ClaimStatus) (error : String) (now : Int) : Patch InviteRewardClaim :=
  ⟨fun c => { c with status, error, updatedAt := now }, fun _ => rfl, fun _ => rfl⟩

/-- `status = 'paid', ops_fund_ledger_id = ?, error = '', updated_at = ?`. -/
def InviteRewardClaim.setPaid (ledgerID now : Int) : Patch InviteRewardClaim :=
  ⟨fun c => { c with status := .paid, opsFundLedgerId := ledgerID, error := "", updatedAt := now },
    fun _ => rfl, fun _ => rfl⟩

/-- The reward ledger with the tables of the invitations. -/
structure ChatInviteDB where
  reward : RewardDB
  campaigns : Table InviteCampaign
  links : Table InviteLink
  edges : Table InviteEdge
  claims : Table InviteRewardClaim

/-! ## Requests -/

/-- A request of a chat adapter, normalised; without a code of its own it has the default code of its group. -/
structure ChatInviteRequest where
  source : String
  roomID : String := ""
  campaignCode : String
  inviteCode : String := ""
  inviteURL : String := ""
  userExternalID : String := ""
  inviterUserID : Int := 0
  inviterExternalID : String := ""
  operatorExternalID : String := ""
  inviteeUserID : Int := 0
  inviteeExternalID : String := ""

/-- `inviteRewardPolicy`. -/
structure InviteRewardPolicy where
  inviterQuota : Int
  inviteeQuota : Int
  budgetPool : String
  maxPerUserDay : Int

/-- What a request finds: the settings and the time, the user that is bound to an external id, the
`inviter_id` of a user, the reason why a user may not receive the benefit of a stage, the reward policy of
the group, and the metadata of a reward of an edge, a campaign, a stage and a user. -/
structure ChatInviteEnv where
  reward : RewardEnv
  now : Int
  bound : String → Option Int
  legacyInviter : Int → Option Int
  denied : Int → String → RewardStage → Option String
  policy : Except Err InviteRewardPolicy
  metadataJson : Int → Int → RewardStage → Int → String

namespace ChatInviteEnv

/-- `AgentSiteID`. -/
def site (env : ChatInviteEnv) : String := env.reward.canonicalSiteID env.reward.setting.siteID

/-- `ResolveAgentChatOpsIdentity`. -/
def resolveIdentity (env : ChatInviteEnv) (external : String) (newAPIUserID : Int) : Option Int :=
  if 0 < newAPIUserID then some newAPIUserID
  else if external = "" then none
  else (env.bound external).filter (0 < ·)

end ChatInviteEnv

/-- `firstNonEmptyAgent`. -/
def firstNonEmptyAgent (values : List String) : String := (values.find? (· ≠ "")).getD ""

/-- `AgentBusinessDayStartAt`, in seconds; the business calendar is eight hours ahead of UTC. -/
def agentBusinessDayStartAt (now : Int) : Int := now - (now + 8 * 60 * 60) % (24 * 60 * 60)

/-- `inviteeExternal`. -/
def ChatInviteRequest.inviteeExternal (r : ChatInviteRequest) : String :=
  firstNonEmptyAgent [r.inviteeExternalID, r.userExternalID]

/-- `inviteeID`: that of the request, or the user bound to the external id. -/
def ChatInviteRequest.inviteeID (r : ChatInviteRequest) (env : ChatInviteEnv) : Int :=
  if 0 < r.inviteeUserID then r.inviteeUserID
  else (env.resolveIdentity r.inviteeExternal r.inviteeUserID).getD r.inviteeUserID

/-! ## Edges -/

namespace ChatInviteDB

/-- `ensureAgentInviteCampaignTx`. -/
def ensureCampaign (env : ChatInviteEnv) (r : ChatInviteRequest) (db : ChatInviteDB) :
    Except Err (InviteCampaign × ChatInviteDB) :=
  let campaigns := (db.campaigns.insertIgnore
    { id := db.campaigns.nextId, siteId := env.site, campaignCode := r.campaignCode }).1
  match campaigns.byKey r.campaignCode with
  | none => throw (.sentinel .recordNotFound)
  | some campaign => pure (campaign, { db with campaigns })

/-- The link of a request, by its code or else by its address. -/
def linkOf (env : ChatInviteEnv) (r : ChatInviteRequest) (db : ChatInviteDB) : Option InviteLink :=
  let byCode := if r.inviteCode = "" then none
    else db.links.rows.find? fun l => l.siteId = env.site ∧ l.inviteCode = r.inviteCode
  let byURL := if r.inviteURL = "" then none
    else db.links.rows.find? fun l => l.siteId = env.site ∧ l.inviteUrl = r.inviteURL
  byCode.or byURL

/-- `resolveInviteCampaignLinkAndInviterTx`. The campaign of a link is looked for among the rows with the id
of the campaign at hand, and so the campaign stays. -/
def resolveInviter (env : ChatInviteEnv) (r : ChatInviteRequest) (db : ChatInviteDB) :
    Except Err ((InviteCampaign × Option InviteLink × Int) × ChatInviteDB) := do
  let (campaign, db) ← db.ensureCampaign env r
  match db.linkOf env r with
  | some link => return ((campaign, some link, link.inviterUserId), db)
  | none =>
    let external := firstNonEmptyAgent [r.inviterExternalID, r.operatorExternalID]
    let inviterID := if 0 < r.inviterUserID then r.inviterUserID
      else (env.resolveIdentity external 0).getD r.inviterUserID
    return ((campaign, none, inviterID), db)

/-- The edge of an invitee: by the external id, else by the user. -/
def findEdge (env : ChatInviteEnv) (r : ChatInviteRequest) (inviteeID : Int) (db : ChatInviteDB) :
    Option InviteEdge :=
  let byExternal := if r.inviteeExternal = "" then none
    else db.edges.rows.find? fun e =>
      e.siteId = env.site ∧ e.inviteeProvider = r.source ∧ e.inviteeExternalId = r.inviteeExternal
  let byUser := if inviteeID ≤ 0 then none
    else db.edges.rows.find? fun e => e.siteId = env.site ∧ e.inviteeUserId = inviteeID
  byExternal.or byUser

/-- `INSERT` of an edge. -/
def createEdge (e : InviteEdge) (db : ChatInviteDB) : Except Err (InviteEdge × ChatInviteDB) :=
  if ∃ x ∈ db.edges.rows, x.index = e.index then throw (.sentinel .duplicatedKey)
  else
    match db.edges.create e with
    | none => throw (.sentinel .duplicatedKey)
    | some edges => pure (e, { db with edges })

/-- The row becomes an edge. -/
def assignEdge (e : InviteEdge) : Patch InviteEdge :=
  ⟨fun x => { e with id := x.id }, fun _ => rfl, fun _ => rfl⟩

/-- `UPDATE` of an edge. -/
def saveEdge (e : InviteEdge) (db : ChatInviteDB) : Except Err (InviteEdge × ChatInviteDB) :=
  if ∃ x ∈ db.edges.rows, x.id ≠ e.id ∧ x.index = e.index then throw (.sentinel .duplicatedKey)
  else pure (e, { db with edges := (db.edges.updateWhere (fun x => x.id = e.id) (assignEdge e)).1 })

end ChatInviteDB

/-- What `upsertInviteEdgeTx` makes of an edge that is there. -/
def InviteEdge.fill (e : InviteEdge) (campaign : InviteCampaign) (link : Option InviteLink)
    (inviterID inviteeID : Int) (stage : EdgeStage) (status : EdgeStatus) : InviteEdge where
  id := e.id
  siteId := e.siteId
  campaignId := if e.campaignId ≤ 0 then campaign.id else e.campaignId
  inviteLinkId := if e.inviteLinkId ≤ 0 then (link.map InviteLink.id).getD e.inviteLinkId else e.inviteLinkId
  inviterUserId := if e.inviterUserId ≤ 0 then inviterID else e.inviterUserId
  inviteeUserId := if e.inviteeUserId ≤ 0 ∧ 0 < inviteeID then inviteeID else e.inviteeUserId
  inviteeProvider := e.inviteeProvider
  inviteeExternalId := e.inviteeExternalId
  stage := if e.stage = .blank ∨ e.stage = .join ∨ stage = .verified then stage else e.stage
  status := if e.status = .blank ∨ e.status = .pending ∨ status = .verified then status else e.status

namespace ChatInviteDB

/-- `upsertInviteEdgeTx`. -/
def upsertInviteEdgeTx (env : ChatInviteEnv) (r : ChatInviteRequest) (campaign : InviteCampaign)
    (link : Option InviteLink) (inviterID inviteeID : Int) (stage : EdgeStage) (status : EdgeStatus)
    (db : ChatInviteDB) : Except Err (InviteEdge × ChatInviteDB) :=
  match db.findEdge env r inviteeID with
  | some e => db.saveEdge (e.fill campaign link inviterID inviteeID stage status)
  | none => db.createEdge
      { id := db.edges.nextId, siteId := env.site, campaignId := campaign.id,
        inviteLinkId := (link.map InviteLink.id).getD 0, inviterUserId := inviterID, inviteeUserId := inviteeID,
        inviteeProvider := r.source, inviteeExternalId := r.inviteeExternal, stage, status }

/-- `findOrCreateClaimableInviteEdgeTx`. -/
def findOrCreateClaimableInviteEdgeTx (env : ChatInviteEnv) (r : ChatInviteRequest) (inviteeID : Int)
    (db : ChatInviteDB) : Except Err ((InviteCampaign × Option InviteEdge) × ChatInviteDB) := do
  let ((campaign, link, inviterID), db) ← db.resolveInviter env r
  match db.findEdge env r inviteeID with
  | some e => return ((campaign, some e), db)
  | none =>
    let inviterID := if 0 < inviterID then inviterID
      else ((env.legacyInviter inviteeID).filter (0 < ·)).getD inviterID
    if inviterID ≤ 0 then return ((campaign, none), db)
    else do
      let (e, db) ← db.upsertInviteEdgeTx env r campaign link inviterID inviteeID .verified .verified
      return ((campaign, some e), db)

end ChatInviteDB

/-! ## Claims -/

/-- The idempotency key of a reward. -/
def inviteRewardKey (siteID : String) (edgeID : Int) (stage : RewardStage) (userID : Int) : String :=
  "invite:" ++ siteID ++ ":" ++ toString edgeID ++ ":" ++ stage.text ++ ":" ++ toString userID

/-- The arguments of `payInviteRewardClaimTx`. -/
structure InvitePayment where
  campaign : InviteCampaign
  edgeID : Int
  stage : RewardStage
  rewardUserID : Int
  quota : Int
  pool : String
  maxPerUserDay : Int

/-- The status that a payment reports. -/
inductive PaymentStatus where
  | skipped
  | alreadyPaid
  | claim (status : ClaimStatus)
  deriving DecidableEq

/-- `AgentChatOpsInviteClaim`. -/
structure InviteClaimOut where
  stage : RewardStage
  rewardUserID : Int
  quota : Int
  status : PaymentStatus := .skipped
  claimID : Int := 0
  opsFundLedgerID : Int := 0
  error : String := ""

namespace ChatInviteDB

/-- The claim of a reward of an edge. -/
def claimOf (site : String) (edgeID : Int) (stage : RewardStage) (db : ChatInviteDB) : Option InviteRewardClaim :=
  (db.claims.byKey (edgeID, stage)).filter fun c => c.siteId = site

/-- `paidToday`: the claims of a user that are paid, or about to be, and were created on the business date. -/
def paidToday (env : ChatInviteEnv) (userID : Int) (db : ChatInviteDB) : Nat :=
  db.claims.rows.countP fun c => c.siteId = env.site ∧ c.rewardUserId = userID ∧
    (c.status = .pending ∨ c.status = .paid) ∧ agentBusinessDayStartAt env.now ≤ c.createdAt

/-- `UPDATE` of a claim. -/
def updateClaim (id : Int) (f : Patch InviteRewardClaim) (db : ChatInviteDB) : ChatInviteDB :=
  { db with claims := (db.claims.updateWhere (fun c => c.id = id) f).1 }

end ChatInviteDB

namespace InvitePayment

variable (env : ChatInviteEnv) (r : ChatInviteRequest) (p : InvitePayment)

/-- A new claim. -/
def newClaim (status : ClaimStatus) (error : String) (id : Int) : InviteRewardClaim where
  id := id
  siteId := env.site
  campaignId := p.campaign.id
  inviteEdgeId := p.edgeID
  rewardStage := p.stage
  rewardUserId := p.rewardUserID
  quota := p.quota
  status := status
  error := error
  createdAt := env.now
  updatedAt := env.now

/-- `INSERT … ON CONFLICT DO NOTHING` of a claim, which is read again where it was not inserted. -/
def createClaim (status : ClaimStatus) (error : String) (db : ChatInviteDB) :
    Except Err (InviteRewardClaim × ChatInviteDB) :=
  let claim := p.newClaim env status error db.claims.nextId
  let insert := db.claims.insertIgnore claim
  if insert.2 = 0 then
    match db.claimOf env.site p.edgeID p.stage with
    | none => throw (.sentinel .recordNotFound)
    | some claim => pure (claim, db)
  else pure (claim, { db with claims := insert.1 })

/-- The grant of a reward. -/
def grant : GrantClaim where
  userId := p.rewardUserID
  poolType := p.pool
  quota := p.quota
  idempotencyKey := inviteRewardKey env.site p.edgeID p.stage p.rewardUserID
  remark := s!"invite {p.stage.text} reward edge={p.edgeID} campaign={p.campaign.campaignCode}"
  sourceType := p.stage.sourceType
  metadataJson := env.metadataJson p.edgeID p.campaign.id p.stage p.rewardUserID

/-- `benefitExternalID`. -/
def benefitExternalID : String :=
  match p.stage with
  | .inviter => firstNonEmptyAgent [r.inviterExternalID, r.userExternalID, r.inviteeExternalID]
  | .invitee => firstNonEmptyAgent [r.inviteeExternalID, r.inviterExternalID, r.userExternalID]

/-- The status of a claim whose grant failed. -/
def failure (e : Err) : ClaimStatus :=
  if e.is .opsFundQuotaInsufficient then .degradedFund
  else if e.is .budgetPoolQuotaInsufficient then .degradedBudget
  else .failed

/-- The grant and what becomes of its claim: the error of the grant is dropped, what it wrote stays. -/
def settle (out : InviteClaimOut) (claim : InviteRewardClaim) (db : ChatInviteDB) : InviteClaimOut × ChatInviteDB :=
  let out := { out with claimID := claim.id }
  match grantInPlace env.reward (p.grant env) db.reward with
  | (.error e, reward) =>
    ({ out with status := .claim (failure e), error := e.message },
      { db with reward }.updateClaim claim.id (InviteRewardClaim.setStatus (failure e) e.message env.now))
  | (.ok (), reward) =>
    let ledger := (reward.budget.ledger.byKey (p.grant env).idempotencyKey).filter fun l => l.siteId = env.site
    let ledgerID := (ledger.map OpsFundLedger.id).getD 0
    ({ out with status := .claim .paid, opsFundLedgerID := ledgerID },
      { db with reward }.updateClaim claim.id (InviteRewardClaim.setPaid ledgerID env.now))

/-- A payment after the daily limit: the membership, the claim, the grant. -/
def proceed (out : InviteClaimOut) (found : Option InviteRewardClaim) (db : ChatInviteDB) :
    Except Err (InviteClaimOut × ChatInviteDB) :=
  match env.denied p.rewardUserID (p.benefitExternalID r) p.stage with
  | some reason =>
    let error := firstNonEmptyAgent [reason, "membership benefit denied"]
    let out := { out with status := .claim .blockedMembership, error }
    match found with
    | none => do
      let (claim, db) ← p.createClaim env .blockedMembership error db
      return ({ out with claimID := claim.id }, db)
    | some claim =>
      return ({ out with claimID := claim.id },
        db.updateClaim claim.id (InviteRewardClaim.setStatus .blockedMembership error env.now))
  | none =>
    match found with
    | none => do
      let (claim, db) ← p.createClaim env .pending "" db
      return p.settle env out claim db
    | some claim =>
      let db := if claim.status = .pending then db
        else db.updateClaim claim.id (InviteRewardClaim.setStatus .pending "" env.now)
      return p.settle env out claim db

/-- `payInviteRewardClaimTx`. The second look for the claim, under the lock of the user, finds what the first
one found, for the requests are transactions. -/
def payInviteRewardClaimTx (db : ChatInviteDB) : Except Err (InviteClaimOut × ChatInviteDB) :=
  let out : InviteClaimOut := { stage := p.stage, rewardUserID := p.rewardUserID, quota := p.quota }
  if p.rewardUserID ≤ 0 ∨ p.quota ≤ 0 then pure (out, db)
  else
    match db.claimOf env.site p.edgeID p.stage with
    | some claim =>
      let out := { out with claimID := claim.id, opsFundLedgerID := claim.opsFundLedgerId }
      if claim.status = .paid then pure ({ out with status := .alreadyPaid }, db)
      else if claim.status = .blockedDailyLimit then
        pure ({ out with status := .claim claim.status, error := claim.error }, db)
      else p.proceed env r out (some claim) db
    | none =>
      if 0 < p.maxPerUserDay then do
        let _ ← lockUserQuotaTx db.reward.wallet p.rewardUserID
        if p.maxPerUserDay ≤ db.paidToday env p.rewardUserID then
          let error := s!"invite daily reward limit reached: {p.maxPerUserDay}"
          let claim := p.newClaim env .blockedDailyLimit error db.claims.nextId
          let insert := db.claims.insertIgnore claim
          return ({ out with claimID := if insert.2 = 0 then 0 else claim.id,
                             status := .claim .blockedDailyLimit, error },
            { db with claims := insert.1 })
        else p.proceed env r out none db
      else p.proceed env r out none db

end InvitePayment

/-! ## Requests as transactions -/

/-- The status of a request. -/
inductive InviteStatus where
  | noInviter
  | ok
  | noEdge
  | invalidInviter
  | paid
  | alreadyClaimed

/-- `AgentChatOpsInviteResult`. -/
structure ChatInviteResult where
  status : InviteStatus
  campaignID : Int := 0
  inviteLinkID : Int := 0
  inviteEdgeID : Int := 0
  inviterUserID : Int := 0
  inviteeUserID : Int := 0
  inviterRewardQuota : Int := 0
  inviteeRewardQuota : Int := 0
  awarded : Bool := false
  claims : List InviteClaimOut := []

/-- `handleAgentChatOpsInviteJoin`. -/
def chatInviteJoin (env : ChatInviteEnv) (r : ChatInviteRequest) (db : ChatInviteDB) :
    Except Err (ChatInviteResult × ChatInviteDB) := do
  failIf (r.inviteeExternal = "" ∧ r.inviteeUserID ≤ 0)
    (.text "invite join requires invitee external id or user id")
  let ((campaign, link, inviterID), db) ← db.resolveInviter env r
  if inviterID ≤ 0 then return ({ status := .noInviter, campaignID := campaign.id }, db)
  else do
    let inviteeID := r.inviteeID env
    let (edge, db) ← db.upsertInviteEdgeTx env r campaign link inviterID inviteeID .join .pending
    return ({ status := .ok, campaignID := campaign.id, inviteLinkID := (link.map InviteLink.id).getD 0,
              inviteEdgeID := edge.id, inviterUserID := inviterID, inviteeUserID := inviteeID }, db)

/-- What `verify_claim` has decided before it pays: it is over, or the edge is verified and these claims are
to be paid. -/
inductive VerifyPlan where
  | ended (result : ChatInviteResult)
  | pay (payments : List InvitePayment) (result : ChatInviteResult)

/-- The claims of an edge that the policy rewards. -/
def InviteRewardPolicy.payments (policy : InviteRewardPolicy) (campaign : InviteCampaign) (edge : InviteEdge)
    (inviteeID : Int) : List InvitePayment :=
  (if 0 < policy.inviterQuota then
    [⟨campaign, edge.id, .inviter, edge.inviterUserId, policy.inviterQuota, policy.budgetPool,
      policy.maxPerUserDay⟩] else []) ++
  (if 0 < policy.inviteeQuota then
    [⟨campaign, edge.id, .invitee, inviteeID, policy.inviteeQuota, policy.budgetPool, policy.maxPerUserDay⟩]
    else [])

/-- The update of an edge by `verify_claim`. -/
def InviteEdge.verify (e : InviteEdge) (inviteeID : Int) : InviteEdge :=
  { e with stage := .verified, status := .verified,
           inviteeUserId := if e.inviteeUserId ≤ 0 then inviteeID else e.inviteeUserId }

/-- `handleAgentChatOpsInviteVerifyClaim` up to the payments. -/
def verifyPlan (env : ChatInviteEnv) (r : ChatInviteRequest) (db : ChatInviteDB) :
    Except Err (VerifyPlan × ChatInviteDB) := do
  let inviteeID := r.inviteeID env
  failIf (inviteeID ≤ 0) (.text "invite verify claim requires bound invitee")
  let ((campaign, edge), db) ← db.findOrCreateClaimableInviteEdgeTx env r inviteeID
  match edge with
  | none => return (.ended { status := .noEdge, inviteeUserID := inviteeID }, db)
  | some edge =>
    if edge.inviterUserId ≤ 0 ∨ edge.inviterUserId = inviteeID then
      return (.ended { status := .invalidInviter, inviteEdgeID := edge.id,
                       inviterUserID := edge.inviterUserId, inviteeUserID := inviteeID }, db)
    else do
      let policy ← env.policy
      let (edge, db) ← db.saveEdge (edge.verify inviteeID)
      return (.pay (policy.payments campaign edge inviteeID)
        { status := .alreadyClaimed, campaignID := campaign.id, inviteEdgeID := edge.id,
          inviteLinkID := edge.inviteLinkId, inviterUserID := edge.inviterUserId, inviteeUserID := inviteeID,
          inviterRewardQuota := policy.inviterQuota, inviteeRewardQuota := policy.inviteeQuota }, db)

/-- The payments of a request, one after the other. -/
def payClaims (env : ChatInviteEnv) (r : ChatInviteRequest) :
    List InvitePayment → ChatInviteDB → Except Err (List InviteClaimOut × ChatInviteDB)
  | [], db => pure ([], db)
  | p :: ps, db => do
    let (out, db) ← p.payInviteRewardClaimTx env r db
    let (outs, db) ← payClaims env r ps db
    return (out :: outs, db)

/-- `handleAgentChatOpsInviteVerifyClaim`. -/
def chatInviteVerifyClaim (env : ChatInviteEnv) (r : ChatInviteRequest) (db : ChatInviteDB) :
    Except Err (ChatInviteResult × ChatInviteDB) := do
  let (plan, db) ← verifyPlan env r db
  match plan with
  | .ended result => return (result, db)
  | .pay payments result =>
    let (claims, db) ← payClaims env r payments db
    let awarded := claims.any fun c => c.status = .claim .paid
    return ({ result with status := if awarded then .paid else .alreadyClaimed, awarded, claims }, db)

/-! ## Runs -/

/-- Money is added, or a pool set. -/
inductive MoneyOp where
  | fund (siteID : String) (minimumBalance : Int) (idempotencyKey remark sourceType : String)
  | pool (siteID poolType budgetDate : String) (targetAvailable : Int)
      (idempotencyKey remark sourceType : String) (exact : Bool)
  | reset (siteID budgetDate requestID remark : String)

/-- The body of its transaction. -/
def MoneyOp.tx (env : RewardEnv) (op : MoneyOp) (b : Budget) : Except Err (Unit × Budget) :=
  match op with
  | .fund siteID minimumBalance idempotencyKey remark sourceType => do
    let (_, b) ← ensureOpsFundMinimumWithSourceTx env b siteID minimumBalance idempotencyKey remark sourceType
    return ((), b)
  | .pool siteID poolType budgetDate targetAvailable idempotencyKey remark sourceType exact => do
    let (_, b) ← adjustBudgetPoolAvailableCapacityTx env b siteID poolType budgetDate targetAvailable
      idempotencyKey remark sourceType exact
    return ((), b)
  | .reset siteID budgetDate requestID remark => do
    let b ← ensureOpsDailyBudgetCapacityForDateTx env b siteID budgetDate requestID remark
    return ((), b)

/-- A request or a movement of money, under what it finds and with the fault that its transaction meets. -/
inductive ChatInviteEvent where
  | join (env : ChatInviteEnv) (fault : Option Err) (r : ChatInviteRequest)
  | verify (env : ChatInviteEnv) (fault : Option Err) (r : ChatInviteRequest)
  | money (env : RewardEnv) (fault : Option Err) (op : MoneyOp)

/-- The database after an event. -/
def ChatInviteDB.step (db : ChatInviteDB) : ChatInviteEvent → ChatInviteDB
  | .join env fault r => (transaction fault (chatInviteJoin env r) db).2
  | .verify env fault r => (transaction fault (chatInviteVerifyClaim env r) db).2
  | .money env fault op =>
    { db with reward.budget := (transaction fault (op.tx env) db.reward.budget).2 }

end Prox
