import Prox.Reward.ChatInvite

/-! # What a request of the invitations does

A request files an edge and then pays its claims. Filing moves no money and no claim, and an edge that is
filed keeps the inviter and the invitee that it has. A payment touches its own claim only: it is idle, it
refuses the claim, or it comes to the grant, which fails or pays. -/

namespace Prox

open List Option Table

/-! ## Edges -/

/-- What becomes of an edge: inviter and invitee stay once they are set. -/
structure InviteEdge.Continues (e e' : InviteEdge) : Prop where
  id_eq : e'.id = e.id
  inviter : 0 < e.inviterUserId → e'.inviterUserId = e.inviterUserId
  invitee : 0 < e.inviteeUserId → e'.inviteeUserId = e.inviteeUserId

/-- What a request does before it pays. -/
structure ChatInviteDB.Files (db db' : ChatInviteDB) : Prop where
  claims : db'.claims = db.claims
  reward : db'.reward = db.reward
  edges : ∀ e ∈ db.edges.rows, ∃ e' ∈ db'.edges.rows, e.Continues e'

namespace InviteEdge

variable (e : InviteEdge)

theorem Continues.refl : e.Continues e := ⟨rfl, fun _ => rfl, fun _ => rfl⟩

theorem Continues.trans {e e' e'' : InviteEdge} (h : e.Continues e') (h' : e'.Continues e'') :
    e.Continues e'' where
  id_eq := h'.id_eq.trans h.id_eq
  inviter hpos := (h'.inviter (h.inviter hpos ▸ hpos)).trans (h.inviter hpos)
  invitee hpos := (h'.invitee (h.invitee hpos ▸ hpos)).trans (h.invitee hpos)

theorem fill_continues (campaign : InviteCampaign) (link : Option InviteLink)
    (inviterID inviteeID : Int) (stage : EdgeStage) (status : EdgeStatus) :
    e.Continues (e.fill campaign link inviterID inviteeID stage status) where
  id_eq := rfl
  inviter hpos := if_neg (by omega)
  invitee hpos := if_neg (by omega)

theorem verify_continues (inviteeID : Int) : e.Continues (e.verify inviteeID) where
  id_eq := rfl
  inviter _ := rfl
  invitee hpos := if_neg (by omega)

end InviteEdge

namespace ChatInviteDB

variable {env : ChatInviteEnv} {r : ChatInviteRequest} {db db' db'' : ChatInviteDB} {e a : InviteEdge}

theorem Files.refl (db : ChatInviteDB) : db.Files db := ⟨rfl, rfl, fun e he => ⟨e, he, .refl e⟩⟩

theorem Files.trans (h : db.Files db') (h' : db'.Files db'') : db.Files db'' where
  claims := h'.claims.trans h.claims
  reward := h'.reward.trans h.reward
  edges e he := by
    obtain ⟨e', he', hcont⟩ := h.edges e he
    obtain ⟨e'', he'', hcont'⟩ := h'.edges e' he'
    exact ⟨e'', he'', hcont.trans hcont'⟩

/-! ## Statements -/

theorem findEdge_mem {inviteeID : Int} (h : db.findEdge env r inviteeID = some e) : e ∈ db.edges.rows := by
  rcases or_eq_some_iff.mp h with h | ⟨-, h⟩
  · split at h
    · cases h
    · exact List.mem_of_find?_eq_some h
  · split at h
    · cases h
    · exact List.mem_of_find?_eq_some h

/-- An edge that is saved goes on. -/
theorem saveEdge_files {x : InviteEdge} (hx : x ∈ db.edges.rows) (hcont : x.Continues e)
    (h : db.saveEdge e = .ok (a, db')) : db.Files db' ∧ a = e ∧ e ∈ db'.edges.rows := by
  unfold saveEdge at h
  split at h
  · cases h
  cases h
  have hrow : ∀ y ∈ db.edges.rows, y.id = e.id →
      e ∈ (db.edges.updateWhere (fun x => x.id = e.id) (assignEdge e)).1.rows := by
    intro y hy hid
    rw [rows_updateWhere, List.mem_map]
    exact ⟨y, hy, by rw [if_pos (decide_eq_true hid)]; exact congrArg (fun i => { e with id := i }) hid⟩
  have hmem := hrow x hx hcont.id_eq.symm
  refine ⟨⟨rfl, rfl, fun y hy => ?_⟩, rfl, hmem⟩
  by_cases hid : y.id = e.id
  · -- the row that is overwritten is the one the edge was read from
    obtain rfl : y = x := eq_of_id_eq hy hx (hid.trans hcont.id_eq)
    exact ⟨e, hmem, hcont⟩
  · refine ⟨y, ?_, .refl y⟩
    rw [rows_updateWhere, List.mem_map]
    exact ⟨y, hy, if_neg (by simpa using hid)⟩

/-- A new edge has an id of its own. -/
theorem createEdge_files (h : db.createEdge e = .ok (a, db')) :
    db.Files db' ∧ a = e ∧ e ∈ db'.edges.rows ∧ ∀ x ∈ db.edges.rows, x.id ≠ e.id := by
  unfold createEdge at h
  split at h
  · cases h
  cases hcreate : db.edges.create e with
  | none =>
    rw [hcreate] at h
    cases h
  | some edges =>
    rw [hcreate] at h
    cases h
    refine ⟨⟨rfl, rfl, fun y hy => ⟨y, (mem_of_create hcreate).mpr (.inl hy), .refl y⟩⟩, rfl,
      (mem_of_create hcreate).mpr (.inr rfl), fun x hx => ?_⟩
    exact id_ne_of_create hcreate hx

/-- Looking for the inviter writes campaigns only. -/
theorem resolveInviter_eq {out : InviteCampaign × Option InviteLink × Int}
    (h : db.resolveInviter env r = .ok (out, db')) : db' = { db with campaigns := db'.campaigns } := by
  obtain ⟨⟨campaign, db₁⟩, hcampaign, h⟩ := bind_eq_ok.mp h
  have hdb : db₁ = { db with campaigns := db₁.campaigns } := by
    unfold ensureCampaign at hcampaign
    dsimp only at hcampaign
    split at hcampaign
    · cases hcampaign
    · cases hcampaign
      rfl
  have hsame : db' = db₁ := by
    dsimp only at h
    split at h <;> cases h <;> rfl
  rw [hsame]
  exact hdb

theorem resolveInviter_files {out : InviteCampaign × Option InviteLink × Int}
    (h : db.resolveInviter env r = .ok (out, db')) : db.Files db' := by
  rw [resolveInviter_eq h]
  exact ⟨rfl, rfl, fun e he => ⟨e, he, .refl e⟩⟩

/-- The edge of an invitee is filled in or made. -/
theorem upsertInviteEdgeTx_files {campaign : InviteCampaign} {link : Option InviteLink}
    {inviterID inviteeID : Int} {stage : EdgeStage} {status : EdgeStatus}
    (h : db.upsertInviteEdgeTx env r campaign link inviterID inviteeID stage status = .ok (a, db')) :
    db.Files db' ∧ a ∈ db'.edges.rows ∧ (db.findEdge env r inviteeID = none →
      a.inviterUserId = inviterID ∧ a.inviteeUserId = inviteeID ∧ ∀ x ∈ db.edges.rows, x.id ≠ a.id) := by
  unfold upsertInviteEdgeTx at h
  split at h
  · next e hfound =>
    obtain ⟨hfiles, rfl, hmem⟩ := saveEdge_files (findEdge_mem hfound)
      (e.fill_continues campaign link inviterID inviteeID stage status) h
    refine ⟨hfiles, hmem, fun hnone => ?_⟩
    rw [hnone] at hfound
    cases hfound
  · obtain ⟨hfiles, rfl, hmem, hnew⟩ := createEdge_files h
    exact ⟨hfiles, hmem, fun _ => ⟨rfl, rfl, hnew⟩⟩

end ChatInviteDB

/-! ## Requests -/

section Requests

variable {env : ChatInviteEnv} {r : ChatInviteRequest} {db db' : ChatInviteDB}

open ChatInviteDB

/-- A join files an edge at most. -/
theorem chatInviteJoin_files {result : ChatInviteResult} (h : chatInviteJoin env r db = .ok (result, db')) :
    db.Files db' := by
  obtain ⟨-, -, h⟩ := bind_eq_ok.mp h
  obtain ⟨⟨⟨campaign, link, inviterID⟩, db₁⟩, hresolve, h⟩ := bind_eq_ok.mp h
  have hfiles := resolveInviter_files hresolve
  dsimp only at h
  split at h
  · cases h
    exact hfiles
  · obtain ⟨⟨edge, db₂⟩, hupsert, h⟩ := bind_eq_ok.mp h
    cases h
    exact hfiles.trans (upsertInviteEdgeTx_files hupsert).1

/-- The edge that a request pays for: the edge that was found, or a new one. -/
structure ChatInviteDB.Pays (env : ChatInviteEnv) (r : ChatInviteRequest) (db db' : ChatInviteDB)
    (edge : InviteEdge) : Prop where
  mem : edge ∈ db'.edges.rows
  invitee_pos : 0 < r.inviteeID env
  inviter_pos : 0 < edge.inviterUserId
  inviter_ne : edge.inviterUserId ≠ r.inviteeID env
  found : ∀ e, db.findEdge env r (r.inviteeID env) = some e → edge.id = e.id ∧
    edge.inviteeUserId = if e.inviteeUserId ≤ 0 then r.inviteeID env else e.inviteeUserId
  made : db.findEdge env r (r.inviteeID env) = none →
    edge.inviteeUserId = r.inviteeID env ∧ ∀ x ∈ db.edges.rows, x.id ≠ edge.id

/-- What a request has done when it comes to the payments. -/
inductive VerifyPlan.Filed (env : ChatInviteEnv) (r : ChatInviteRequest) (db : ChatInviteDB) :
    VerifyPlan → ChatInviteDB → Prop
  | ended {result : ChatInviteResult} {db' : ChatInviteDB} (hfiles : db.Files db') :
      VerifyPlan.Filed env r db (.ended result) db'
  | pay {policy : InviteRewardPolicy} {campaign : InviteCampaign} {edge : InviteEdge}
      {result : ChatInviteResult} {db' : ChatInviteDB} (hfiles : db.Files db') (hpolicy : env.policy = .ok policy)
      (hedge : db.Pays env r db' edge) :
      VerifyPlan.Filed env r db (.pay (policy.payments campaign edge (r.inviteeID env)) result) db'

/-- An edge to be paid for: one that was there, or a new one with the invitee. -/
theorem findOrCreateClaimableInviteEdgeTx_files {inviteeID : Int} {campaign : InviteCampaign}
    {edge : Option InviteEdge}
    (h : db.findOrCreateClaimableInviteEdgeTx env r inviteeID = .ok ((campaign, edge), db')) :
    db.Files db' ∧ ∀ e ∈ edge, e ∈ db'.edges.rows ∧
      (db.findEdge env r inviteeID = some e ∨ db.findEdge env r inviteeID = none ∧
        e.inviteeUserId = inviteeID ∧ ∀ x ∈ db.edges.rows, x.id ≠ e.id) := by
  obtain ⟨⟨⟨_, link, inviterID⟩, db₁⟩, hresolve, h⟩ := bind_eq_ok.mp h
  have hfiles := resolveInviter_files hresolve
  have heq := resolveInviter_eq hresolve
  -- the campaigns have no say in which edge is found
  have hfind : db₁.findEdge env r inviteeID = db.findEdge env r inviteeID := by rw [heq]; rfl
  have hedges : db₁.edges = db.edges := by rw [heq]
  dsimp only at h
  split at h
  · next e hfound =>
    cases h
    refine ⟨hfiles, fun e' he' => ?_⟩
    obtain rfl := Option.some.inj he'
    exact ⟨findEdge_mem hfound, .inl (hfind ▸ hfound)⟩
  · next hnone =>
    generalize (if 0 < inviterID then inviterID else _) = inviterID at h
    split at h
    · cases h
      exact ⟨hfiles, fun _ he => nomatch he⟩
    · obtain ⟨⟨e, db₂⟩, hupsert, h⟩ := bind_eq_ok.mp h
      cases h
      obtain ⟨hfiled, hmem, hmade⟩ := upsertInviteEdgeTx_files hupsert
      obtain ⟨-, hinvitee, hnew⟩ := hmade hnone
      refine ⟨hfiles.trans hfiled, fun e' he' => ?_⟩
      obtain rfl := Option.some.inj he'
      exact ⟨hmem, .inr ⟨hfind ▸ hnone, hinvitee, hedges ▸ hnew⟩⟩

/-- Up to its payments, a request files an edge, and it pays for an edge that another user made. -/
theorem verifyPlan_filed {plan : VerifyPlan} (h : verifyPlan env r db = .ok (plan, db')) :
    VerifyPlan.Filed env r db plan db' := by
  unfold verifyPlan at h
  obtain ⟨_, hinvitee, h⟩ := bind_eq_ok.mp h
  have hpos : 0 < r.inviteeID env := by
    have hle := failIf_eq_ok.mp hinvitee
    omega
  obtain ⟨⟨⟨campaign, edge⟩, db₁⟩, hclaimable, h⟩ := bind_eq_ok.mp h
  obtain ⟨hfiles, hedge⟩ := findOrCreateClaimableInviteEdgeTx_files hclaimable
  dsimp only at h
  split at h
  · cases h
    exact .ended hfiles
  · next e =>
    obtain ⟨hmem, hcase⟩ := hedge e rfl
    split at h
    · cases h
      exact .ended hfiles
    · next hvalid =>
      obtain ⟨policy, hpolicy, h⟩ := bind_eq_ok.mp h
      obtain ⟨⟨e', db₂⟩, hsave, h⟩ := bind_eq_ok.mp h
      cases h
      obtain ⟨hsaved, rfl, hmem'⟩ := saveEdge_files hmem (e.verify_continues _) hsave
      obtain ⟨hinviter, hother⟩ := not_or.mp hvalid
      refine .pay (hfiles.trans hsaved) hpolicy
        { mem := hmem', invitee_pos := hpos, inviter_pos := not_le.mp hinviter, inviter_ne := hother,
          found := fun e₀ hfound => ?_, made := fun hnone => ?_ }
      · rcases hcase with hsome | ⟨hnone, -⟩
        · obtain rfl : e = e₀ := mem_unique hsome hfound
          exact ⟨rfl, rfl⟩
        · rw [hnone] at hfound
          cases hfound
      · rcases hcase with hsome | ⟨-, hmade, hnew⟩
        · rw [hnone] at hsome
          cases hsome
        · refine ⟨?_, hnew⟩
          show (if e.inviteeUserId ≤ 0 then r.inviteeID env else e.inviteeUserId) = _
          rw [hmade, ite_self]

end Requests

/-! ## Payments -/

/-- What a claim keeps whatever becomes of it: site, user, quota and the time it was made. -/
def InviteRewardClaim.terms (c : InviteRewardClaim) : String × Int × Int × Int :=
  (c.siteId, c.rewardUserId, c.quota, c.createdAt)

namespace InvitePayment

section Definitions

variable (env : ChatInviteEnv) (r : ChatInviteRequest) (p : InvitePayment) (db : ChatInviteDB)

/-- The claim that is found can still be paid; without a claim, the daily limit is not reached. -/
def Open : Option InviteRewardClaim → Prop
  | some c => c.siteId = env.site ∧ c.status ≠ .paid ∧ c.status ≠ .blockedDailyLimit
  | none => 0 < p.maxPerUserDay →
      (db.reward.wallet.users.byId p.rewardUserID).isSome ∧ db.paidToday env p.rewardUserID < p.maxPerUserDay

instance : ∀ found, Decidable (p.Open env db found)
  | some _ => inferInstanceAs (Decidable (_ ∧ _ ∧ _))
  | none => inferInstanceAs (Decidable (_ → _ ∧ _))

/-- The payment comes to its grant. -/
def Grants : Prop :=
  0 < p.rewardUserID ∧ 0 < p.quota ∧ env.denied p.rewardUserID (p.benefitExternalID r) p.stage = none ∧
    p.Open env db (db.claims.byKey (p.edgeID, p.stage))
  deriving Decidable

/-- `c` is the claim of the payment in `claims`, made now or there before; the other claims are as they were. -/
structure Enters (claims : Table InviteRewardClaim) (c : InviteRewardClaim) : Prop where
  byKey : ∀ k, claims.byKey k = if (p.edgeID, p.stage) = k then some c else db.claims.byKey k
  made : db.claims.byKey (p.edgeID, p.stage) = none → c.terms = (env.site, p.rewardUserID, p.quota, env.now)
  kept : ∀ c₀, db.claims.byKey (p.edgeID, p.stage) = some c₀ →
    c₀.siteId = env.site ∧ c₀.status ≠ .paid ∧ c₀.status ≠ .blockedDailyLimit ∧ c.terms = c₀.terms

/-- What a payment does. -/
inductive Effect : InviteClaimOut → ChatInviteDB → Prop
  | idle {out : InviteClaimOut} (hstatus : out.status ≠ .claim .paid) (hgrants : ¬ p.Grants env r db) :
      Effect out db
  | refused {out : InviteClaimOut} {claims : Table InviteRewardClaim} {c : InviteRewardClaim}
      (hstatus : out.status ≠ .claim .paid) (hgrants : ¬ p.Grants env r db) (hc : c.status ≠ .paid)
      (henters : p.Enters env db claims c) : Effect out { db with claims }
  | failed {out : InviteClaimOut} {e : Err} {reward : RewardDB} {claims : Table InviteRewardClaim}
      {c : InviteRewardClaim} (hstatus : out.status ≠ .claim .paid) (hgrants : p.Grants env r db)
      (hgrant : grantInPlace env.reward (p.grant env) db.reward = (.error e, reward)) (hc : c.status ≠ .paid)
      (henters : p.Enters env db claims c) : Effect out { db with reward, claims }
  | paid {out : InviteClaimOut} {reward : RewardDB} {claims : Table InviteRewardClaim} {c : InviteRewardClaim}
      (hstatus : out.status = .claim .paid) (hgrants : p.Grants env r db)
      (hgrant : grantInPlace env.reward (p.grant env) db.reward = (.ok (), reward)) (hc : c.status = .paid)
      (hnow : c.updatedAt = env.now) (henters : p.Enters env db claims c) : Effect out { db with reward, claims }

end Definitions

variable {env : ChatInviteEnv} {r : ChatInviteRequest} {p : InvitePayment} {db db' : ChatInviteDB}
  {claims : Table InviteRewardClaim} {c : InviteRewardClaim}

/-- The claim that is entered is found under its own key. -/
theorem Enters.mem (h : p.Enters env db claims c) :
    c ∈ claims.rows ∧ (c.inviteEdgeId, c.rewardStage) = (p.edgeID, p.stage) := by
  have hfound := h.byKey (p.edgeID, p.stage)
  rw [if_pos rfl] at hfound
  exact byKey_eq_some.mp hfound

/-- A claim that is there is entered as it is. -/
theorem Enters.of_found (h : db.claims.byKey (p.edgeID, p.stage) = some c) (hsite : c.siteId = env.site)
    (hpaid : c.status ≠ .paid) (hlimit : c.status ≠ .blockedDailyLimit) : p.Enters env db db.claims c where
  byKey k := by
    split
    · next hk => exact hk ▸ h
    · rfl
  made hnone := by
    rw [hnone] at h
    cases h
  kept c₀ hc₀ := by
    obtain rfl : c = c₀ := mem_unique h hc₀
    exact ⟨hsite, hpaid, hlimit, rfl⟩

/-- An update of the claim that keeps its terms. -/
theorem Enters.update (h : p.Enters env db claims c) (f : Patch InviteRewardClaim)
    (hf : (f.apply c).terms = c.terms) :
    p.Enters env db (claims.updateWhere (fun x => x.id = c.id) f).1 (f.apply c) where
  byKey k := by
    obtain ⟨hmem, hkey⟩ := h.mem
    have hrow : Row.key c = (p.edgeID, p.stage) := hkey
    have hupdate := byKey_updateWhere_single (f := f) (p := fun x => decide (x.id = c.id)) hmem
      (decide_eq_true rfl) (fun x hx => of_decide_eq_true hx) k
    rw [hrow] at hupdate
    rw [hupdate, h.byKey k]
    split <;> rfl
  made hnone := hf.trans (h.made hnone)
  kept c₀ hc₀ := by
    obtain ⟨hsite, hpaid, hlimit, hterms⟩ := h.kept c₀ hc₀
    exact ⟨hsite, hpaid, hlimit, hf.trans hterms⟩

/-- A new claim is entered with the terms of the payment. -/
theorem Enters.of_create {status : ClaimStatus} {error : String}
    (h : db.claims.create (p.newClaim env status error db.claims.nextId) = some claims) :
    p.Enters env db claims (p.newClaim env status error db.claims.nextId) where
  byKey k := byKey_of_create h k
  made _ := rfl
  kept c₀ hc₀ := by
    have hnone : db.claims.byKey (p.edgeID, p.stage) = none := byKey_none_of_create h
    rw [hnone] at hc₀
    cases hc₀

/-- Where no claim is found, one is made, or the payment fails. -/
theorem createClaim_eq_ok {status : ClaimStatus} {error : String}
    (hnone : db.claimOf env.site p.edgeID p.stage = none) (h : p.createClaim env status error db = .ok (c, db')) :
    ∃ claims, db.claims.create c = some claims ∧ db' = { db with claims } ∧
      c = p.newClaim env status error db.claims.nextId := by
  unfold createClaim at h
  dsimp only at h
  rcases insertIgnore_cases db.claims (p.newClaim env status error db.claims.nextId) with
    ⟨-, heq⟩ | ⟨claims, hcreate, heq⟩
  · rw [heq, hnone] at h
    cases h
  · rw [heq] at h
    cases h
    exact ⟨claims, hcreate, rfl, rfl⟩

theorem failure_ne_paid (e : Err) : failure e ≠ .paid := by
  unfold failure
  split
  · decide
  · split <;> decide

/-- The grant fails, or it pays, and so does the claim. -/
theorem settle_effect {out out' : InviteClaimOut} (hgrants : p.Grants env r db) (henters : p.Enters env db claims c)
    (h : p.settle env out c { db with claims } = (out', db')) : p.Effect env r db out' db' := by
  unfold settle at h
  rcases hgrant : grantInPlace env.reward (p.grant env) db.reward with ⟨e | ⟨⟩, reward⟩
  · rw [hgrant] at h
    cases h
    refine .failed ?_ hgrants hgrant (failure_ne_paid e)
      (henters.update (InviteRewardClaim.setStatus (failure e) e.message env.now) rfl)
    exact fun heq => failure_ne_paid e (PaymentStatus.claim.inj heq)
  · rw [hgrant] at h
    cases h
    exact .paid rfl hgrants hgrant rfl rfl (henters.update (InviteRewardClaim.setPaid _ env.now) rfl)

/-- The status of a claim that is open does not say that it is paid, and its reading changes nothing. -/
theorem proceed_effect {out out' : InviteClaimOut} {found : Option InviteRewardClaim}
    (huser : 0 < p.rewardUserID) (hquota : 0 < p.quota)
    (hfound : found = db.claimOf env.site p.edgeID p.stage)
    (hopen : ∀ x ∈ found, x.status ≠ .paid ∧ x.status ≠ .blockedDailyLimit)
    (hlimit : found = none → p.Open env db none) (h : p.proceed env r out found db = .ok (out', db')) :
    p.Effect env r db out' db' := by
  unfold proceed at h
  cases hdenied : env.denied p.rewardUserID (p.benefitExternalID r) p.stage with
  | some reason =>
    have hgrants : ¬ p.Grants env r db := by
      intro hg
      obtain ⟨-, -, hallowed, -⟩ := hg
      rw [hdenied] at hallowed
      cases hallowed
    rw [hdenied] at h
    cases found with
    | none =>
      obtain ⟨⟨c, db₁⟩, hcreate, h⟩ := bind_eq_ok.mp h
      cases h
      obtain ⟨claims, hclaims, rfl, rfl⟩ := createClaim_eq_ok hfound.symm hcreate
      exact .refused (by simp) hgrants (by simp [newClaim]) (.of_create hclaims)
    | some c =>
      cases h
      obtain ⟨hbyKey, hsite⟩ := filter_eq_some_iff.mp hfound.symm
      obtain ⟨hpaid, hblocked⟩ := hopen c rfl
      exact .refused (by simp) hgrants (by simp [InviteRewardClaim.setStatus])
        ((Enters.of_found hbyKey (of_decide_eq_true hsite) hpaid hblocked).update _ rfl)
  | none =>
    rw [hdenied] at h
    cases found with
    | none =>
      obtain ⟨⟨c, db₁⟩, hcreate, h⟩ := bind_eq_ok.mp h
      obtain ⟨claims, hclaims, rfl, rfl⟩ := createClaim_eq_ok hfound.symm hcreate
      have hnone : db.claims.byKey (p.edgeID, p.stage) = none := byKey_none_of_create hclaims
      have hgrants : p.Grants env r db := ⟨huser, hquota, hdenied, hnone ▸ hlimit rfl⟩
      exact settle_effect hgrants (.of_create hclaims) (Except.ok.inj h)
    | some c =>
      obtain ⟨hbyKey, hsite⟩ := filter_eq_some_iff.mp hfound.symm
      obtain ⟨hpaid, hblocked⟩ := hopen c rfl
      have hgrants : p.Grants env r db :=
        ⟨huser, hquota, hdenied, hbyKey ▸ ⟨of_decide_eq_true hsite, hpaid, hblocked⟩⟩
      have henters : p.Enters env db db.claims c := .of_found hbyKey (of_decide_eq_true hsite) hpaid hblocked
      dsimp only at h
      split at h
      · exact settle_effect hgrants henters (Except.ok.inj h)
      · -- the claim is made pending first
        exact settle_effect hgrants (henters.update (InviteRewardClaim.setStatus .pending "" env.now) rfl)
          (Except.ok.inj h)

/-- **What a payment does.** -/
theorem payInviteRewardClaimTx_effect {out : InviteClaimOut}
    (h : p.payInviteRewardClaimTx env r db = .ok (out, db')) : p.Effect env r db out db' := by
  unfold payInviteRewardClaimTx at h
  dsimp only at h
  split at h
  · next hskip =>
    cases h
    refine .idle (by simp) fun hg => ?_
    obtain ⟨huser, hquota, -, -⟩ := hg
    omega
  next hpos =>
  have huser : 0 < p.rewardUserID := by omega
  have hquota : 0 < p.quota := by omega
  split at h
  · next c hfound =>
    obtain ⟨hbyKey, hsite⟩ := filter_eq_some_iff.mp hfound
    split at h
    · next hpaid =>
      cases h
      refine .idle (by simp) fun hg => ?_
      obtain ⟨-, -, -, hopen⟩ := hg
      rw [hbyKey] at hopen
      exact hopen.2.1 hpaid
    split at h
    · next hblocked =>
      cases h
      refine .idle (by simp [hblocked]) fun hg => ?_
      obtain ⟨-, -, -, hopen⟩ := hg
      rw [hbyKey] at hopen
      exact hopen.2.2 hblocked
    next hpaid hblocked =>
    refine proceed_effect huser hquota hfound.symm (fun x hx => ?_) (fun hnone => ?_) h
    · exact Option.some.inj hx ▸ ⟨hpaid, hblocked⟩
    · cases hnone
  · next hnone =>
    split at h
    · next hmax =>
      obtain ⟨u, hlock, h⟩ := bind_eq_ok.mp h
      split at h
      · next hreached =>
        -- the limit is reached: the claim is blocked for good
        have hgrants : ¬ p.Grants env r db := by
          intro hg
          obtain ⟨-, -, -, hopen⟩ := hg
          cases hbyKey : db.claims.byKey (p.edgeID, p.stage) with
          | none =>
            rw [hbyKey] at hopen
            have hbelow := (hopen hmax).2
            omega
          | some c =>
            rw [hbyKey] at hopen
            have hsome : db.claimOf env.site p.edgeID p.stage = some c :=
              filter_eq_some_iff.mpr ⟨hbyKey, decide_eq_true hopen.1⟩
            rw [hnone] at hsome
            cases hsome
        rcases insertIgnore_cases db.claims (p.newClaim env .blockedDailyLimit
            s!"invite daily reward limit reached: {p.maxPerUserDay}" db.claims.nextId) with
          ⟨-, heq⟩ | ⟨claims, hcreate, heq⟩
        · rw [heq] at h
          cases h
          exact .idle (by simp) hgrants
        · rw [heq] at h
          cases h
          exact .refused (by simp) hgrants (by simp [newClaim]) (.of_create hcreate)
      · next hbelow =>
        refine proceed_effect huser hquota hnone.symm (fun x hx => ?_) (fun _ _ => ⟨?_, by omega⟩) h
        · cases hx
        · exact isSome_iff_exists.mpr ⟨u, lockUserQuotaTx_eq_ok.mp hlock⟩
    · next hmax =>
      refine proceed_effect huser hquota hnone.symm (fun x hx => ?_) (fun _ hm => absurd hm hmax) h
      cases hx

end InvitePayment

/-! ## Payments of a run -/

section EachPayment

variable {env : ChatInviteEnv} {r : ChatInviteRequest} {P Q : InvitePayment → ChatInviteDB → Prop}
  {I : ChatInviteDB → Prop} {ps : List InvitePayment} {db db' : ChatInviteDB}

/-- The condition `P` is met at each payment, in the state that it finds. -/
def EachPayment (P : InvitePayment → ChatInviteDB → Prop) (env : ChatInviteEnv) (r : ChatInviteRequest) :
    List InvitePayment → ChatInviteDB → Prop
  | [], _ => True
  | p :: ps, db => P p db ∧ ∀ x ∈ (p.payInviteRewardClaimTx env r db).toOption, EachPayment P env r ps x.2

instance decidableEachPayment [∀ p db, Decidable (P p db)] : ∀ ps db, Decidable (EachPayment P env r ps db)
  | [], _ => inferInstanceAs (Decidable True)
  | p :: ps, db =>
    have := fun db => decidableEachPayment ps db
    inferInstanceAs (Decidable (P p db ∧ ∀ x ∈ (p.payInviteRewardClaimTx env r db).toOption,
      EachPayment P env r ps x.2))

variable (hpay : ∀ p ∈ ps, ∀ db out db', I db → P p db → p.payInviteRewardClaimTx env r db = .ok (out, db') → I db')

include hpay

/-- What each payment keeps, the payments of a request keep. -/
theorem payClaims_keeps {outs : List InviteClaimOut}
    (hI : I db) (hP : EachPayment P env r ps db) (h : payClaims env r ps db = .ok (outs, db')) : I db' := by
  induction ps generalizing db outs with
  | nil =>
    cases h
    exact hI
  | cons p ps ih =>
    obtain ⟨⟨out, db₁⟩, hfirst, h⟩ := bind_eq_ok.mp h
    obtain ⟨⟨outs', db₂⟩, hrest, h⟩ := bind_eq_ok.mp h
    cases h
    obtain ⟨hp, hps⟩ := hP
    refine ih (fun q hq => hpay q (mem_cons_of_mem p hq)) (hpay p mem_cons_self db out db₁ hI hp hfirst)
      (hps (out, db₁) ?_) hrest
    rw [hfirst]
    rfl

/-- A condition that follows at each payment from an invariant. -/
theorem EachPayment.of_keeps
    (hQ : ∀ p ∈ ps, ∀ db, I db → P p db → Q p db) (hI : I db) (hP : EachPayment P env r ps db) :
    EachPayment Q env r ps db := by
  induction ps generalizing db with
  | nil => trivial
  | cons p ps ih =>
    obtain ⟨hp, hps⟩ := hP
    refine ⟨hQ p mem_cons_self db hI hp, fun x hx => ?_⟩
    have hfirst : p.payInviteRewardClaimTx env r db = .ok (x.1, x.2) := by
      cases hres : p.payInviteRewardClaimTx env r db with
      | error e =>
        rw [hres] at hx
        cases hx
      | ok y =>
        rw [hres] at hx
        cases hx
        rfl
    exact ih (fun q hq => hpay q (mem_cons_of_mem p hq)) (fun q hq => hQ q (mem_cons_of_mem p hq))
      (hpay p mem_cons_self db x.1 x.2 hI hp hfirst) (hps x hx)

end EachPayment

/-- The condition `P` is met at each payment of a request that is planned so. -/
def VerifyPlan.Each (P : InvitePayment → ChatInviteDB → Prop) (env : ChatInviteEnv) (r : ChatInviteRequest)
    (db : ChatInviteDB) : VerifyPlan → Prop
  | .ended _ => True
  | .pay payments _ => EachPayment P env r payments db

instance {P : InvitePayment → ChatInviteDB → Prop} [∀ p db, Decidable (P p db)] (env : ChatInviteEnv)
    (r : ChatInviteRequest) (db : ChatInviteDB) : ∀ plan, Decidable (VerifyPlan.Each P env r db plan)
  | .ended _ => inferInstanceAs (Decidable True)
  | .pay _ _ => inferInstanceAs (Decidable (EachPayment _ _ _ _ _))

/-- The condition `P` is met at each payment of the event; a transaction that meets a fault pays nothing. -/
def ChatInviteDB.EachPaid (P : ChatInviteEnv → ChatInviteRequest → InvitePayment → ChatInviteDB → Prop)
    (db : ChatInviteDB) : ChatInviteEvent → Prop
  | .join _ _ _ => True
  | .verify _ (some _) _ => True
  | .verify env none r => ∀ x ∈ (verifyPlan env r db).toOption, x.1.Each (P env r) env r x.2
  | .money _ _ _ => True

instance {P : ChatInviteEnv → ChatInviteRequest → InvitePayment → ChatInviteDB → Prop}
    [∀ env r p db, Decidable (P env r p db)] (db : ChatInviteDB) : ∀ e, Decidable (db.EachPaid P e)
  | .join _ _ _ => inferInstanceAs (Decidable True)
  | .verify _ (some _) _ => inferInstanceAs (Decidable True)
  | .verify env none r =>
    inferInstanceAs (Decidable (∀ x ∈ (verifyPlan env r db).toOption, x.1.Each (P env r) env r x.2))
  | .money _ _ _ => inferInstanceAs (Decidable True)

section Step

variable {db : ChatInviteDB} {I : ChatInviteDB → Prop}
  {P Q : ChatInviteEnv → ChatInviteRequest → InvitePayment → ChatInviteDB → Prop}

/-- **The step rule.** What filing, each payment and each movement of money keep, an event keeps. -/
theorem ChatInviteDB.step_keeps (e : ChatInviteEvent) (hfiles : ∀ db', db.Files db' → I db')
    (hpay : ∀ env r p db out db', I db → P env r p db → p.payInviteRewardClaimTx env r db = .ok (out, db') → I db')
    (hmoney : ∀ env fault op, e = .money env fault op → ∀ b, op.tx env db.reward.budget = .ok ((), b) →
      I { db with reward.budget := b })
    (hP : db.EachPaid P e) : I (db.step e) := by
  have hI : I db := hfiles db (.refl db)
  cases e with
  | join env fault r => exact transaction_keeps hI fun _ db' h => hfiles db' (chatInviteJoin_files h)
  | money env fault op =>
    refine transaction_keeps (P := fun b => I { db with reward.budget := b }) hI fun _ b h => ?_
    exact hmoney env fault op rfl b h
  | verify env fault r =>
    cases fault with
    | some e => exact hI
    | none =>
      refine transaction_keeps hI fun _ db' h => ?_
      obtain ⟨⟨plan, db₁⟩, hplan, h⟩ := bind_eq_ok.mp h
      have heach := hP (plan, db₁) (mem_toOption.mpr hplan)
      cases verifyPlan_filed hplan with
      | ended hfiled =>
        cases h
        exact hfiles _ hfiled
      | pay hfiled hpolicy hedge =>
        obtain ⟨⟨claims, db₂⟩, hclaims, h⟩ := bind_eq_ok.mp h
        cases h
        exact payClaims_keeps (fun p _ => hpay env r p) (hfiles db₁ hfiled) heach hclaims

/-- What follows at each payment from an invariant, follows at each payment of an event. -/
theorem ChatInviteDB.EachPaid.of_keeps {e : ChatInviteEvent} (hfiles : ∀ db', db.Files db' → I db')
    (hpay : ∀ env r p db out db', I db → P env r p db → p.payInviteRewardClaimTx env r db = .ok (out, db') → I db')
    (hQ : ∀ env r p db, I db → P env r p db → Q env r p db) (hP : db.EachPaid P e) : db.EachPaid Q e := by
  cases e with
  | join env fault r => trivial
  | money env fault op => trivial
  | verify env fault r =>
    cases fault with
    | some e => trivial
    | none =>
      intro x hx
      have heach := hP x hx
      obtain ⟨plan, db₁⟩ := x
      cases verifyPlan_filed (mem_toOption.mp hx) with
      | ended hfiled => trivial
      | pay hfiled hpolicy hedge =>
        exact EachPayment.of_keeps (fun p _ => hpay env r p) (fun p _ => hQ env r p) (hfiles _ hfiled) heach

end Step

end Prox
