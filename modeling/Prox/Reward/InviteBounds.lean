import Prox.Reward.InvitePaid

/-! # Rewards of invitations for each person

An edge is found by the external id of a chat platform before it is found by the user, and it can be made
before the user is known. So a user can come to own two edges, and an edge can be verified for a user it does
not belong to. As long as every edge that is paid for belongs to the user who is verified, and this user has no
other edge with claims, nobody brings or receives a reward twice.

The daily limit counts claims by the time they were made, and only for a new claim. -/

namespace Prox

open List

/-! ## Bounds -/

/-- The user whom a reward of an edge is for. -/
def InviteEdge.rewardUser (e : InviteEdge) : RewardStage → Int
  | .inviter => e.inviterUserId
  | .invitee => e.inviteeUserId

namespace ChatInviteDB

/-- A paid claim and its edge. -/
structure PaidFor (db : ChatInviteDB) (c : InviteRewardClaim) (e : InviteEdge) : Prop where
  claim : c ∈ db.claims.rows
  paid : c.status = .paid
  edge : e ∈ db.edges.rows
  edge_id : e.id = c.inviteEdgeId

/-- The rewards that were paid are bounded for each person. -/
structure OncePerPerson (db : ChatInviteDB) : Prop where
  /-- An invitee brings one reward of an inviter. -/
  inviter : ∀ c c' e e', db.PaidFor c e → db.PaidFor c' e' → c.rewardStage = .inviter →
    c'.rewardStage = .inviter → e.inviteeUserId = e'.inviteeUserId → c = c'
  /-- A user receives one reward of an invitee. -/
  invitee : ∀ c ∈ db.claims.rows, ∀ c' ∈ db.claims.rows, c.status = .paid → c'.status = .paid →
    c.rewardStage = .invitee → c'.rewardStage = .invitee → c.rewardUserId = c'.rewardUserId → c = c'
  /-- Every reward is for an inviter and an invitee who are not the same user. -/
  others : ∀ c ∈ db.claims.rows, c.status = .paid → ∃ e, db.PaidFor c e ∧
    e.inviterUserId ≠ e.inviteeUserId ∧ c.rewardUserId = e.rewardUser c.rewardStage

/-- The edges that have an inviter keep him. -/
def InvitersStay (db db' : ChatInviteDB) : Prop :=
  ∀ e ∈ db.edges.rows, 0 < e.inviterUserId →
    ∃ e' ∈ db'.edges.rows, e'.id = e.id ∧ e'.inviterUserId = e.inviterUserId

/-- The claims of a user that were paid on the business date. -/
def creditedToday (env : ChatInviteEnv) (userID : Int) (db : ChatInviteDB) : Nat :=
  db.claims.rows.countP fun c => c.rewardUserId = userID ∧ c.status = .paid ∧
    agentBusinessDayStartAt c.updatedAt = agentBusinessDayStartAt env.now

end ChatInviteDB

namespace InvitePayment

variable (env : ChatInviteEnv) (r : ChatInviteRequest) (p : InvitePayment) (db : ChatInviteDB)

/-- A payment under a daily limit does not exceed it. -/
def WithinLimit : Prop :=
  0 < p.maxPerUserDay → ∀ out db', p.payInviteRewardClaimTx env r db = .ok (out, db') →
    out.status = .claim .paid → (db'.creditedToday env p.rewardUserID : Int) ≤ p.maxPerUserDay

/-- What the daily limit counts is what is paid: the claims of the user that were paid on the date were made on
it, on the same site, and a claim that is tried again is below the limit. -/
def CountedToday : Prop :=
  p.Grants env r db → 0 < p.maxPerUserDay →
    (∀ c ∈ db.claims.rows, c.rewardUserId = p.rewardUserID → c.status = .paid →
      agentBusinessDayStartAt c.updatedAt = agentBusinessDayStartAt env.now →
      c.siteId = env.site ∧ agentBusinessDayStartAt env.now ≤ c.createdAt) ∧
    ((db.claims.byKey (p.edgeID, p.stage)).isSome → db.paidToday env p.rewardUserID < p.maxPerUserDay)
  deriving Decidable

end InvitePayment

/-- The request goes on to the payments. -/
def VerifyPlan.Pays : VerifyPlan → Prop
  | .ended _ => False
  | .pay _ _ => True

instance : ∀ plan : VerifyPlan, Decidable plan.Pays
  | .ended _ => inferInstanceAs (Decidable False)
  | .pay _ _ => inferInstanceAs (Decidable True)

namespace ChatInviteDB

/-- The edge that is found is unbound or bound to the invitee, and no other edge of the invitee has claims. -/
def OneEdge (env : ChatInviteEnv) (r : ChatInviteRequest) (db : ChatInviteDB) : Prop :=
  (∀ e ∈ db.findEdge env r (r.inviteeID env), e.inviteeUserId ≤ 0 ∨ e.inviteeUserId = r.inviteeID env) ∧
  ∀ c ∈ db.claims.rows, ∀ e ∈ db.edges.rows, e.id = c.inviteEdgeId → e.inviteeUserId = r.inviteeID env →
    db.findEdge env r (r.inviteeID env) = some e
  deriving Decidable

/-- A request that goes on to its payments pays for the one edge of its invitee. -/
def PaysOneEdge (db : ChatInviteDB) : ChatInviteEvent → Prop
  | .join _ _ _ => True
  | .verify _ (some _) _ => True
  | .verify env none r => (∃ x ∈ (verifyPlan env r db).toOption, x.1.Pays) → db.OneEdge env r
  | .money _ _ _ => True

instance (db : ChatInviteDB) : ∀ e, Decidable (db.PaysOneEdge e)
  | .join _ _ _ => inferInstanceAs (Decidable True)
  | .verify _ (some _) _ => inferInstanceAs (Decidable True)
  | .verify env none r =>
    inferInstanceAs (Decidable ((∃ x ∈ (verifyPlan env r db).toOption, x.1.Pays) → db.OneEdge env r))
  | .money _ _ _ => inferInstanceAs (Decidable True)

/-- The event pays for the one edge of its invitee, and what the daily limit counts is what is paid. -/
def Counted (db : ChatInviteDB) (e : ChatInviteEvent) : Prop :=
  db.PaysOneEdge e ∧ db.EachPaid (fun env r p db => p.CountedToday env r db) e
  deriving Decidable

/-! ## Claims and their edges -/

/-- The invariant of a run: a claim is for the users of its edge, who are two, and edges with claims have
different invitees. -/
structure ClaimsOnEdges (db : ChatInviteDB) : Prop where
  edge : ∀ c ∈ db.claims.rows, ∃ e ∈ db.edges.rows, e.id = c.inviteEdgeId ∧ 0 < e.inviteeUserId ∧
    0 < e.inviterUserId ∧ e.inviterUserId ≠ e.inviteeUserId ∧ c.rewardUserId = e.rewardUser c.rewardStage
  one : ∀ c ∈ db.claims.rows, ∀ c' ∈ db.claims.rows, ∀ e ∈ db.edges.rows, ∀ e' ∈ db.edges.rows,
    e.id = c.inviteEdgeId → e'.id = c'.inviteEdgeId → e.inviteeUserId = e'.inviteeUserId → e.id = e'.id

variable {db db' : ChatInviteDB} {env : ChatInviteEnv} {r : ChatInviteRequest} {p : InvitePayment}

/-- Under the invariant the rewards are bounded for each person. -/
theorem ClaimsOnEdges.oncePerPerson (h : db.ClaimsOnEdges) : db.OncePerPerson where
  inviter c c' e e' hc hc' hstage hstage' hinvitee := by
    have hid := h.one c hc.claim c' hc'.claim e hc.edge e' hc'.edge hc.edge_id hc'.edge_id hinvitee
    refine Table.eq_of_key_eq hc.claim hc'.claim (Prod.ext ?_ (hstage.trans hstage'.symm))
    show c.inviteEdgeId = c'.inviteEdgeId
    rw [← hc.edge_id, ← hc'.edge_id, hid]
  invitee c hc c' hc' _ _ hstage hstage' huser := by
    obtain ⟨e, he, hid, -, -, -, hreward⟩ := h.edge c hc
    obtain ⟨e', he', hid', -, -, -, hreward'⟩ := h.edge c' hc'
    -- the user of a reward of an invitee is the invitee of the edge
    rw [hstage] at hreward
    rw [hstage'] at hreward'
    have hinvitee : e.inviteeUserId = e'.inviteeUserId := hreward.symm.trans (huser.trans hreward')
    have hsame := h.one c hc c' hc' e he e' he' hid hid' hinvitee
    have hedge : c.inviteEdgeId = c'.inviteEdgeId := by rw [← hid, ← hid', hsame]
    exact Table.eq_of_key_eq hc hc' (Prod.ext hedge (hstage.trans hstage'.symm))
  others c hc hpaid := by
    obtain ⟨e, he, hid, -, -, hne, hreward⟩ := h.edge c hc
    exact ⟨e, ⟨hc, hpaid, he, hid⟩, hne, hreward⟩

/-- Filing keeps the invariant: an edge with claims has both its users already. -/
theorem ClaimsOnEdges.files (h : db.ClaimsOnEdges) (hfiles : db.Files db') : db'.ClaimsOnEdges := by
  have hedge : ∀ c ∈ db.claims.rows, ∃ e ∈ db.edges.rows, ∃ e' ∈ db'.edges.rows, e.id = c.inviteEdgeId ∧
      e'.id = c.inviteEdgeId ∧ e'.inviteeUserId = e.inviteeUserId ∧ 0 < e'.inviteeUserId ∧
      0 < e'.inviterUserId ∧ e'.inviterUserId ≠ e'.inviteeUserId ∧
      c.rewardUserId = e'.rewardUser c.rewardStage := by
    intro c hc
    obtain ⟨e, he, hid, hinvitee, hinviter, hne, hreward⟩ := h.edge c hc
    obtain ⟨e', he', hcont⟩ := hfiles.edges e he
    have h1 := hcont.invitee hinvitee
    have h2 := hcont.inviter hinviter
    refine ⟨e, he, e', he', hid, hcont.id_eq.trans hid, h1, h1 ▸ hinvitee, h2 ▸ hinviter, ?_, ?_⟩
    · rw [h1, h2]
      exact hne
    · rw [hreward]
      cases c.rewardStage
      · exact h2.symm
      · exact h1.symm
  constructor
  · rw [hfiles.claims]
    intro c hc
    obtain ⟨-, -, e', he', -, hid, -, hrest⟩ := hedge c hc
    exact ⟨e', he', hid, hrest⟩
  · rw [hfiles.claims]
    intro c hc c' hc' e he e' he' hid hid' hinvitee
    obtain ⟨e₁, he₁, e₂, he₂, hid₁, hid₂, hsame, -⟩ := hedge c hc
    obtain ⟨e₁', he₁', e₂', he₂', hid₁', hid₂', hsame', -⟩ := hedge c' hc'
    obtain rfl : e = e₂ := Table.eq_of_id_eq he he₂ (hid.trans hid₂.symm)
    obtain rfl : e' = e₂' := Table.eq_of_id_eq he' he₂' (hid'.trans hid₂'.symm)
    have hone := h.one c hc c' hc' e₁ he₁ e₁' he₁' hid₁ hid₁' (hsame.symm.trans (hinvitee.trans hsame'))
    exact (hid₂.trans hid₁.symm).trans (hone.trans (hid₁'.trans hid₂'.symm))

/-! ## Payments for one edge -/

/-- The edge `E` may be paid for: it belongs to the invitee, who was invited by somebody else and has no other
edge with claims. -/
structure PayableEdge (db : ChatInviteDB) (E : InviteEdge) : Prop where
  mem : E ∈ db.edges.rows
  invitee_pos : 0 < E.inviteeUserId
  inviter_pos : 0 < E.inviterUserId
  inviter_ne : E.inviterUserId ≠ E.inviteeUserId
  only : ∀ c ∈ db.claims.rows, ∀ e ∈ db.edges.rows, e.id = c.inviteEdgeId →
    e.inviteeUserId = E.inviteeUserId → e.id = E.id

theorem ClaimsOnEdges.enters {E : InviteEdge} {reward : RewardDB} {claims : Table InviteRewardClaim}
    {c : InviteRewardClaim} (h : db.ClaimsOnEdges) (hE : db.PayableEdge E) (hedge : p.edgeID = E.id)
    (huser : p.rewardUserID = E.rewardUser p.stage) (henters : p.Enters env db claims c) :
    ({ db with reward, claims } : ChatInviteDB).ClaimsOnEdges ∧
      ({ db with reward, claims } : ChatInviteDB).PayableEdge E := by
  obtain ⟨hcedge, hcstage⟩ := Prod.mk.inj henters.mem.2
  have hid : E.id = c.inviteEdgeId := (hcedge.trans hedge).symm
  have hrewardUser : c.rewardUserId = E.rewardUser c.rewardStage := by
    cases hfound : db.claims.byKey (p.edgeID, p.stage) with
    | none =>
      have hterms := henters.made hfound
      simp only [InviteRewardClaim.terms, Prod.mk.injEq] at hterms
      rw [hterms.2.1, huser, hcstage]
    | some c₀ =>
      -- the claim that was there has the user already
      obtain ⟨-, -, -, hterms⟩ := henters.kept c₀ hfound
      simp only [InviteRewardClaim.terms, Prod.mk.injEq] at hterms
      obtain ⟨hc₀, hkey⟩ := Table.byKey_eq_some.mp hfound
      obtain ⟨hedge₀, hstage₀⟩ := Prod.mk.inj hkey
      obtain ⟨e, he, hid₀, -, -, -, hreward⟩ := h.edge c₀ hc₀
      obtain rfl : e = E := Table.eq_of_id_eq he hE.mem (hid₀.trans (hedge₀.trans hedge))
      rw [hterms.2.1, hreward, hcstage, hstage₀]
  have hcases : ∀ x ∈ claims.rows, x = c ∨ x ∈ db.claims.rows := fun x hx =>
    (henters.mem_iff.mp hx).imp_right And.left
  have honly : ∀ x ∈ claims.rows, ∀ e ∈ db.edges.rows, e.id = x.inviteEdgeId →
      e.inviteeUserId = E.inviteeUserId → e.id = E.id := by
    intro x hx e he hidx hinvitee
    rcases hcases x hx with rfl | hx
    · exact hidx.trans hid.symm
    · exact hE.only x hx e he hidx hinvitee
  refine ⟨⟨fun x hx => ?_, fun x hx x' hx' e he e' he' hidx hidx' hinvitee => ?_⟩,
    ⟨hE.mem, hE.invitee_pos, hE.inviter_pos, hE.inviter_ne, honly⟩⟩
  · rcases hcases x hx with rfl | hx
    · exact ⟨E, hE.mem, hid, hE.invitee_pos, hE.inviter_pos, hE.inviter_ne, hrewardUser⟩
    · exact h.edge x hx
  · -- the edge of the claim that was entered is `E`
    have hcE : ∀ y ∈ db.edges.rows, y.id = c.inviteEdgeId → y = E := fun y hy hidy =>
      Table.eq_of_id_eq hy hE.mem (hidy.trans hid.symm)
    rcases hcases x hx with rfl | hxold
    · obtain rfl := hcE e he hidx
      exact (honly x' hx' e' he' hidx' hinvitee.symm).symm
    · rcases hcases x' hx' with rfl | hxold'
      · obtain rfl := hcE e' he' hidx'
        exact honly x hx e he hidx hinvitee
      · exact h.one x hxold x' hxold' e he e' he' hidx hidx' hinvitee

/-- **A payment for the edge** keeps the invariant. -/
theorem ClaimsOnEdges.pay {E : InviteEdge} {out : InviteClaimOut} (h : db.ClaimsOnEdges ∧ db.PayableEdge E)
    (hedge : p.edgeID = E.id) (huser : p.rewardUserID = E.rewardUser p.stage)
    (hpay : p.payInviteRewardClaimTx env r db = .ok (out, db')) : db'.ClaimsOnEdges ∧ db'.PayableEdge E := by
  obtain ⟨hclaims, hE⟩ := h
  cases InvitePayment.payInviteRewardClaimTx_effect hpay with
  | idle => exact ⟨hclaims, hE⟩
  | refused _ _ _ henters => exact hclaims.enters hE hedge huser henters
  | failed _ _ _ _ henters => exact hclaims.enters hE hedge huser henters
  | paid _ _ _ _ _ henters => exact hclaims.enters hE hedge huser henters

/-! ## Events -/

/-- The edge that a request pays for is the one edge of its invitee. -/
theorem ClaimsOnEdges.payable {E : InviteEdge} (h : db.ClaimsOnEdges) (hone : db.OneEdge env r)
    (hfiles : db.Files db') (hpays : db.Pays env r db' E) :
    db'.PayableEdge E ∧ E.inviteeUserId = r.inviteeID env := by
  obtain ⟨hbound, honly⟩ := hone
  have hinvitee : E.inviteeUserId = r.inviteeID env := by
    cases hfound : db.findEdge env r (r.inviteeID env) with
    | none => exact (hpays.made hfound).1
    | some e =>
      obtain ⟨-, hE⟩ := hpays.found e hfound
      rw [hE]
      split
      · rfl
      · next hpos => exact (hbound e hfound).resolve_left hpos
  refine ⟨⟨hpays.mem, hinvitee ▸ hpays.invitee_pos, hpays.inviter_pos, hinvitee ▸ hpays.inviter_ne, ?_⟩,
    hinvitee⟩
  rw [hfiles.claims]
  intro c hc e' he' hid' hsame
  obtain ⟨e, he, hid, hpos, -⟩ := h.edge c hc
  obtain ⟨e₁, he₁, hcont⟩ := hfiles.edges e he
  obtain rfl : e' = e₁ := Table.eq_of_id_eq he' he₁ (hid'.trans (hid.symm.trans hcont.id_eq.symm))
  have hfound : db.findEdge env r (r.inviteeID env) = some e :=
    honly c hc e he hid ((hcont.invitee hpos).symm.trans (hsame.trans hinvitee))
  exact hcont.id_eq.trans (hpays.found e hfound).1.symm

/-- **The step lemma.** -/
theorem ClaimsOnEdges.step (h : db.ClaimsOnEdges) {e : ChatInviteEvent} (hguard : db.Counted e) :
    (db.step e).ClaimsOnEdges := by
  cases e with
  | join env fault r => exact transaction_keeps h fun _ db' hjoin => h.files (chatInviteJoin_files hjoin)
  | money env fault op =>
    exact transaction_keeps (P := fun b => ({ db with reward.budget := b } : ChatInviteDB).ClaimsOnEdges) h
      fun _ _ _ => ⟨h.edge, h.one⟩
  | verify env fault r =>
    cases fault with
    | some e => exact h
    | none =>
      refine transaction_keeps h fun _ db' hverify => ?_
      obtain ⟨⟨plan, db₁⟩, hplan, hverify⟩ := bind_eq_ok.mp hverify
      have hmem := mem_toOption.mpr hplan
      cases verifyPlan_filed hplan with
      | ended hfiles =>
        cases hverify
        exact h.files hfiles
      | @pay policy campaign E result _ hfiles _ hpays =>
        obtain ⟨hpayable, hinvitee⟩ := h.payable (hguard.1 ⟨_, hmem, trivial⟩) hfiles hpays
        obtain ⟨⟨claims, db₂⟩, hclaims, hverify⟩ := bind_eq_ok.mp hverify
        cases hverify
        have hpayments : ∀ p ∈ policy.payments campaign E (r.inviteeID env),
            p.edgeID = E.id ∧ p.rewardUserID = E.rewardUser p.stage := by
          intro p hp
          rcases mem_append.mp hp with hp | hp
          · split at hp
            · obtain rfl := mem_singleton.mp hp
              exact ⟨rfl, rfl⟩
            · cases hp
          · split at hp
            · obtain rfl := mem_singleton.mp hp
              exact ⟨rfl, hinvitee.symm⟩
            · cases hp
        have hkeeps := payClaims_keeps (I := fun db => db.ClaimsOnEdges ∧ db.PayableEdge E)
          (fun p hp db out db' hI _ hpay => ClaimsOnEdges.pay hI (hpayments p hp).1 (hpayments p hp).2 hpay)
          ⟨h.files hfiles, hpayable⟩ (hguard.2 _ hmem) hclaims
        exact hkeeps.1

/-- A payment leaves the edges alone. -/
theorem edges_of_pay {out : InviteClaimOut} (h : p.payInviteRewardClaimTx env r db = .ok (out, db')) :
    db'.edges = db.edges := by
  cases InvitePayment.payInviteRewardClaimTx_effect h <;> rfl

theorem step_invitersStay {e : ChatInviteEvent} (hguard : db.Counted e) : db.InvitersStay (db.step e) := by
  refine db.step_keeps e (fun db' hfiles => ?_) (fun env r p db₁ out db₂ hI _ hpay => ?_)
    (fun env fault op _ b _ => ?_) hguard.2
  · intro x hx hpos
    obtain ⟨x', hx', hcont⟩ := hfiles.edges x hx
    exact ⟨x', hx', hcont.id_eq, hcont.inviter hpos⟩
  · unfold InvitersStay
    rw [edges_of_pay hpay]
    exact hI
  · exact fun x hx _ => ⟨x, hx, rfl, rfl⟩

/-! ## The daily limit -/

/-- The claims of the date are counted, if they were made on it. -/
theorem creditedToday_le_paidToday {userID : Int}
    (h : ∀ c ∈ db.claims.rows, c.rewardUserId = userID → c.status = .paid →
      agentBusinessDayStartAt c.updatedAt = agentBusinessDayStartAt env.now →
      c.siteId = env.site ∧ agentBusinessDayStartAt env.now ≤ c.createdAt) :
    db.creditedToday env userID ≤ db.paidToday env userID := by
  refine countP_mono_left fun c hc hcredited => ?_
  obtain ⟨huser, hpaid, hday⟩ := of_decide_eq_true hcredited
  obtain ⟨hsite, hmade⟩ := h c hc huser hpaid hday
  exact decide_eq_true ⟨hsite, huser, .inr hpaid, hmade⟩

/-- A payment adds one claim at most. -/
theorem creditedToday_enters {reward : RewardDB} {claims : Table InviteRewardClaim} {c : InviteRewardClaim}
    (henters : p.Enters env db claims c) (userID : Int) :
    ({ db with reward, claims } : ChatInviteDB).creditedToday env userID ≤ db.creditedToday env userID + 1 := by
  unfold creditedToday
  rw [countP_eq_length_filter, countP_eq_length_filter, ← length_cons (a := c)]
  have hnodup : claims.rows.Nodup := claims.key_nodup.of_map
  refine (subperm_of_subset (hnodup.filter _) fun x hx => ?_).length_le
  obtain ⟨hx, hcounted⟩ := mem_filter.mp hx
  rcases henters.mem_iff.mp hx with rfl | ⟨hold, -⟩
  · exact mem_cons_self
  · exact mem_cons_of_mem _ (mem_filter.mpr ⟨hold, hcounted⟩)

end ChatInviteDB

/-- **A payment stays below the limit** when the limit counts what is paid. -/
theorem InvitePayment.CountedToday.withinLimit {env : ChatInviteEnv} {r : ChatInviteRequest}
    {p : InvitePayment} {db : ChatInviteDB} (h : p.CountedToday env r db) : p.WithinLimit env r db := by
  intro hmax out db' hpay hpaid
  cases InvitePayment.payInviteRewardClaimTx_effect hpay with
  | idle hstatus => exact absurd hpaid hstatus
  | refused hstatus => exact absurd hpaid hstatus
  | failed hstatus => exact absurd hpaid hstatus
  | @paid reward claims c _ hgrants hgrant hc hnow henters =>
    obtain ⟨hcounted, hretry⟩ := h hgrants hmax
    have hbelow : (db.paidToday env p.rewardUserID : Int) < p.maxPerUserDay := by
      cases hfound : db.claims.byKey (p.edgeID, p.stage) with
      | none =>
        -- for a new claim the limit was asked
        obtain ⟨-, -, -, hopen⟩ := hgrants
        rw [hfound] at hopen
        exact (hopen hmax).2
      | some c₀ => exact hretry (by rw [hfound]; rfl)
    have hle := ChatInviteDB.creditedToday_le_paidToday hcounted
    have hone : ({ db with reward, claims } : ChatInviteDB).creditedToday env p.rewardUserID
        ≤ db.creditedToday env p.rewardUserID + 1 :=
      ChatInviteDB.creditedToday_enters henters p.rewardUserID
    omega

/-! ## Runs -/

/-- **Rewards are bounded for each person**, in every run whose requests pay for the one edge of their invitee
and whose daily limit counts what is paid: an invitee brings one reward and receives one, nobody is rewarded
for himself, inviters stay, and no payment exceeds the daily limit. -/
theorem invite_rewards_bounded {db : ChatInviteDB} {events : List ChatInviteEvent}
    (hstart : db.claims.rows = []) (hguard : Along ChatInviteDB.step ChatInviteDB.Counted db events) :
    (run ChatInviteDB.step db events).OncePerPerson ∧
    Along ChatInviteDB.step (fun db e => db.InvitersStay (db.step e) ∧
      db.EachPaid (fun env r p db => p.WithinLimit env r db) e) db events := by
  have hclaims : db.ClaimsOnEdges :=
    ⟨fun c hc => by simp [hstart] at hc, fun c hc => by simp [hstart] at hc⟩
  refine ⟨(run_keeps_along (fun _ _ h hg => h.step hg) hclaims hguard).oncePerPerson, ?_⟩
  refine along_of_keeps (I := fun _ => True) (fun _ _ _ _ => trivial) (fun db e _ hg => ⟨?_, ?_⟩) trivial hguard
  · exact ChatInviteDB.step_invitersStay hg
  · exact ChatInviteDB.EachPaid.of_keeps (I := fun _ => True) (fun _ _ => trivial)
      (fun _ _ _ _ _ _ _ _ _ => trivial) (fun _ _ _ _ _ hcounted => hcounted.withinLimit) hg.2

/-! ## Two edges of one user -/

/-- The site, before and after the guests are known as user `2`. -/
def sampleGuestEnv (known : Bool) : ChatInviteEnv where
  reward := plainRewardEnv "2026-06-21"
  now := 1782000000
  bound _ := if known then some 2 else none
  legacyInviter _ := none
  denied _ _ _ := none
  policy := .ok { inviterQuota := 10, inviteeQuota := 0, budgetPool := "growth", maxPerUserDay := 5 }
  metadataJson _ _ _ _ := ""

/-- A guest of a platform, invited by user `1`. -/
def sampleGuest (source : String) : ChatInviteRequest :=
  { source, campaignCode := "room", inviterUserID := 1, inviteeExternalID := "guest" }

/-- A guest joins, is known as user `2`, and is verified twice. -/
theorem invite_rewards_bounded_sample :
    (run ChatInviteDB.step (sampleInviteDB plainRewardDB)
      [sampleRaise, .join (sampleGuestEnv false) none (sampleGuest "qq"),
        .verify (sampleGuestEnv true) none (sampleGuest "qq"),
        .verify (sampleGuestEnv true) none (sampleGuest "qq")]).OncePerPerson ∧
    Along ChatInviteDB.step (fun db e => db.InvitersStay (db.step e) ∧
        db.EachPaid (fun env r p db => p.WithinLimit env r db) e)
      (sampleInviteDB plainRewardDB)
      [sampleRaise, .join (sampleGuestEnv false) none (sampleGuest "qq"),
        .verify (sampleGuestEnv true) none (sampleGuest "qq"),
        .verify (sampleGuestEnv true) none (sampleGuest "qq")] :=
  invite_rewards_bounded rfl (by decide +kernel)

/-- A guest joins on two platforms before he is known, and is verified on both. -/
def sampleTwoEdges : List ChatInviteEvent :=
  [sampleRaise, .join (sampleGuestEnv false) none (sampleGuest "qq"),
    .join (sampleGuestEnv false) none (sampleGuest "telegram"),
    .verify (sampleGuestEnv true) none (sampleGuest "qq"),
    .verify (sampleGuestEnv true) none (sampleGuest "telegram")]

/-- **One user, two edges.** A guest joins on two platforms before he is known as user `2`, and is verified on
both: user `1` is paid twice for him. -/
theorem invite_two_edges_paid_twice :
    ¬ ∀ (db : ChatInviteDB) (events : List ChatInviteEvent), db.claims.rows = [] →
      (run ChatInviteDB.step db events).OncePerPerson := by
  intro h
  have honce := h (sampleInviteDB plainRewardDB) sampleTwoEdges rfl
  obtain ⟨c, hc, c', hc', e, he, e', he', hpaid, hpaid', hid, hid', hstage, hstage', hsame, hne⟩ :
      ∃ c ∈ (run ChatInviteDB.step (sampleInviteDB plainRewardDB) sampleTwoEdges).claims.rows,
      ∃ c' ∈ (run ChatInviteDB.step (sampleInviteDB plainRewardDB) sampleTwoEdges).claims.rows,
      ∃ e ∈ (run ChatInviteDB.step (sampleInviteDB plainRewardDB) sampleTwoEdges).edges.rows,
      ∃ e' ∈ (run ChatInviteDB.step (sampleInviteDB plainRewardDB) sampleTwoEdges).edges.rows,
      c.status = .paid ∧ c'.status = .paid ∧ e.id = c.inviteEdgeId ∧ e'.id = c'.inviteEdgeId ∧
        c.rewardStage = .inviter ∧ c'.rewardStage = .inviter ∧ e.inviteeUserId = e'.inviteeUserId ∧ c ≠ c' := by
    decide +kernel
  exact hne (honce.inviter c c' e e' ⟨hc, hpaid, he, hid⟩ ⟨hc', hpaid', he', hid'⟩ hstage hstage' hsame)

end Prox
