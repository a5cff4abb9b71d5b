import Prox.Access.Shown
import Prox.Access.LatestEvent

/-! # The end of grace periods

A pass over the grace periods updates all the rows that are due, but acts on the users of one page of a list:
the hundred states in grace that were updated last, whether they are due or not. A user is evaluated and
frozen exactly when a due state of the user is on that page and the evaluation succeeds. -/

namespace Prox

open ChatMembershipState List

/-! ## The property -/

section Property

variable (env : MembershipEnv) (access : AccessEnv) (now : Int) (db : MembershipDb)

/-- A user whose grace period has ended in a pass. -/
def MembershipEnv.Expires (userID : Int) : Prop :=
  0 < userID ∧ ∃ s ∈ db.states.rows, s.expires env.siteID (unixSeconds now) = true ∧ s.newAPIUserId = userID

/-- Tokens are frozen after the end of a grace period. -/
def MembershipEnv.freezes : Bool := env.cfg.freezeCommunityTokensAfterGrace || env.cfg.revokeCommunityAccessAfterGrace

/-- The user is an administrator, who is exempt. -/
def AccessEnv.isAdmin (userID : Int) : Bool := (access.user userID).toOption.any (roleAdminUser ≤ ·.role)

/-- What a pass is to do: the due states have expired, their users are evaluated, and their enabled tokens are
frozen, so that none is left enabled. -/
structure MembershipEnv.EnforcesGrace (r : ChatMembershipExpireResult × MembershipDb) : Prop where
  moved : ∀ s ∈ db.states.rows, s.expires env.siteID (unixSeconds now) = true →
    ∃ s' ∈ r.2.states.rows, s'.id = s.id ∧ s'.status = .leftExpired
  reevaluated : ∀ userID, env.Expires now db userID → userID ∈ r.1.reevaluatedUsers
  frozen : env.freezes = true → ∀ userID, env.Expires now db userID → access.isAdmin userID = false →
    r.2.keys.Frozen userID
  booked : env.freezes = true → ∀ userID, env.Expires now db userID → access.isAdmin userID = false →
    ∀ t ∈ db.keys.tokens.rows, t.enabledOf userID = true →
      (∃ t' ∈ r.2.keys.tokens.rows, t'.id = t.id ∧ t'.status = tokenStatusDisabled) ∧
        ∃ f ∈ r.2.keys.freezes.rows, f.activeFor t.id accessControlFreezeKey

/-- The state belongs to someone who has left the room and not joined since. -/
def ChatMembershipState.Left (s : ChatMembershipState) : Prop := 0 < s.leftAt ∧ s.joinedAt ≤ s.leftAt

/-- Clearing a bypass allows nothing to a state that has left. -/
def ClearKeepsOut (siteID : String) (now : Int) (states : Table ChatMembershipState) : Prop :=
  ∀ s ∈ states.rows, s.siteId = siteID → s.Left → ∀ reason metadataJson state states',
    clearChatMembershipBypass siteID s.id reason now metadataJson states = (.ok state, states') →
      ∀ t, membershipStateAllowsBenefit state t = false

/-! ## The condition -/

/-- An evaluation of the user succeeds: the site has a name, and what decides on the level can be read. -/
def AccessEnv.Evaluable (env : AccessEnv) (userID : Int) (rows : AccessTable) : Prop :=
  env.cfg.enabled = false ∨ trimSpace env.siteID ≠ "" ∧ ∃ user, env.user userID = .ok user ∧
    ((env.cfg.allowAdminBypass = true ∧ roleAdminUser ≤ user.role) ∨
      (overrideOf (getUserSiteAccessState env.siteID userID rows)).mode ≠ "" ∨
      accessControlHasPaidBypass env user = true ∨
      ((∃ rooms, env.chatBindings userID = .ok rooms) ∧ ∃ binding, env.community userID = .ok binding))

/-- The state is among the hundred states in grace of the site that were updated last. -/
def MembershipEnv.Listed (s : ChatMembershipState) : Prop :=
  db.states.rows.countP (fun y =>
    decide (y.siteId = env.siteID ∧ y.status = .grace) ∧ y.before s ∧ y.id ≠ s.id) < 100
  deriving Decidable

/-- The condition on a pass: a due state of every user with a due state is listed, and the user can be
evaluated. -/
def MembershipEnv.ReachesDue : Prop :=
  ∀ userID, env.Expires now db userID →
    (∃ s ∈ db.states.rows, s.expires env.siteID (unixSeconds now) = true ∧ s.newAPIUserId = userID ∧
      env.Listed db s) ∧
    (env.reads access).Evaluable userID db.access

end Property

/-! ## Evaluations -/

section Evaluations

variable {env : AccessEnv} {userID now : Int} {user : AccessUser} {st state s : UserSiteAccessState}
  {rows rows' : AccessTable}

/-- An upsert changes no row but its own. -/
theorem upsertUserSiteAccessState_others (h : upsertUserSiteAccessState state now rows = .ok (s, rows'))
    {k : String × Int} (hk : k ≠ (trimSpace state.siteId, state.userId)) : rows'.byKey k = rows.byKey k := by
  unfold upsertUserSiteAccessState at h
  simp only [failIf_bind_eq_ok] at h
  obtain ⟨-, -, h⟩ := h
  cases hcreate : rows.create { state.normalized now with id := rows.nextId } with
  | some rows₁ =>
    rw [hcreate] at h
    cases h
    exact (Table.byKey_of_create hcreate k).trans (if_neg (Ne.symm hk))
  | none =>
    rw [hcreate] at h
    cases h
    exact (Table.byKey_updateWhere_key _ k).trans (if_neg hk)

/-- What is computed is of the user on the site. -/
theorem computeAccessState_key {o : AccessOverride} (h : computeAccessState env now userID user o = .ok s) :
    s.siteId = env.siteID ∧ s.userId = userID := by
  obtain ⟨st, hst, h⟩ := bind_eq_ok.mp h
  obtain ⟨-, hsame⟩ := decideAccessLevel_ok hst
  rw [pure_eq_ok] at h
  rw [← h]
  split <;> exact ⟨hsame.siteId, hsame.userId⟩

/-- An evaluation changes no row but the one of its user. -/
theorem evaluateUserAccessControl_others (env : AccessEnv) (now userID : Int) (refresh : Bool) (rows : AccessTable)
    {k : String × Int} (hk : k ≠ (trimSpace env.siteID, userID)) :
    (evaluateUserAccessControl env now userID refresh rows).2.byKey k = rows.byKey k := by
  unfold evaluateUserAccessControl
  split
  · dsimp only
    split
    · next hupsert => exact upsertUserSiteAccessState_others hupsert hk
    · rfl
  · split
    · rfl
    · split
      · rfl
      · dsimp only
        split
        · rfl
        · next hcompute =>
          obtain ⟨hsite, huser⟩ := computeAccessState_key hcompute
          split
          · rfl
          · next hupsert => exact upsertUserSiteAccessState_others hupsert (by rwa [hsite, huser])

/-- A level can be decided on when what is read for it can be read. -/
theorem decideAccessLevel_isOk_iff :
    (∃ st', decideAccessLevel env userID user st = .ok st') ↔
      (env.cfg.allowAdminBypass = true ∧ roleAdminUser ≤ user.role) ∨ st.manualOverrideMode ≠ "" ∨
        accessControlHasPaidBypass env user = true ∨
        ((∃ rooms, env.chatBindings userID = .ok rooms) ∧ ∃ binding, env.community userID = .ok binding) := by
  unfold decideAccessLevel
  dsimp only
  rw [show env.cfg.get.allowAdminBypass = env.cfg.allowAdminBypass from rfl]
  split
  · next hadmin => exact iff_of_true ⟨_, rfl⟩ (.inl hadmin)
  · next hadmin =>
    split
    · next hmode => exact iff_of_true ⟨_, rfl⟩ (.inr (.inl hmode))
    · next hmode =>
      split
      · next hpaid => exact iff_of_true ⟨_, rfl⟩ (.inr (.inr (.inl hpaid)))
      · next hpaid =>
        simp only [hadmin, hmode, hpaid, false_or, Bool.false_eq_true]
        constructor
        · rintro ⟨st', h⟩
          obtain ⟨primary, hprimary, h⟩ := bind_eq_ok.mp h
          obtain ⟨binding, hbinding, -⟩ := bind_eq_ok.mp h
          obtain ⟨rooms, hrooms, -⟩ := bind_eq_ok.mp hprimary
          exact ⟨⟨rooms, hrooms⟩, binding, hbinding⟩
        · rintro ⟨⟨rooms, hrooms⟩, binding, hbinding⟩
          unfold accessControlPrimaryBinding
          rw [hrooms, hbinding]
          simp only [bind, Except.bind, pure, Except.pure]
          split
          · exact ⟨_, rfl⟩
          · split <;> exact ⟨_, rfl⟩

/-- **The evaluations that succeed.** -/
theorem evaluateUserAccessControl_isOk_iff (huser : 0 < userID) :
    (∃ s, (evaluateUserAccessControl env now userID true rows).1 = .ok s) ↔ env.Evaluable userID rows := by
  unfold AccessEnv.Evaluable
  cases henabled : env.cfg.enabled with
  | false =>
    have hget : env.cfg.get.enabled = false := henabled
    obtain ⟨s, rows', heval, -⟩ := evaluateUserAccessControl_disabled hget now userID true rows
    exact iff_of_true ⟨s, by rw [heval]⟩ (.inl rfl)
  | true =>
    have hcached : cachedAccessState env now userID true rows = none := rfl
    simp only [Bool.true_eq_false, false_or]
    cases hu : env.user userID with
    | error err =>
      refine iff_of_false ?_ ?_
      · unfold evaluateUserAccessControl
        rw [if_neg (by simp [AccessControlSetting.get, henabled]), hu]
        rintro ⟨s, h⟩
        cases h
      · rintro ⟨-, user, h, -⟩
        cases h
    | ok user =>
      rw [evaluateUserAccessControl_computed henabled hu hcached]
      simp only [Except.ok.injEq, exists_eq_left']
      have hdecides : (∃ st', decideAccessLevel env userID user (initialAccessState env (unixSeconds now) userID
          (overrideOf (getUserSiteAccessState env.siteID userID rows))) = .ok st') ↔ _ := decideAccessLevel_isOk_iff
      cases hcompute : computeAccessState env (unixSeconds now) userID user
          (overrideOf (getUserSiteAccessState env.siteID userID rows)) with
      | error err =>
        refine iff_of_false ?_ ?_
        · rintro ⟨s, h⟩
          cases h
        · rintro ⟨-, hreads⟩
          obtain ⟨st', hst'⟩ := hdecides.mpr hreads
          unfold computeAccessState at hcompute
          rw [hst'] at hcompute
          cases hcompute
      | ok state =>
        obtain ⟨hsite, hid⟩ := computeAccessState_key hcompute
        obtain ⟨st', hst', -⟩ := bind_eq_ok.mp hcompute
        have hreads := hdecides.mp ⟨st', hst'⟩
        dsimp only
        by_cases hblank : trimSpace env.siteID = ""
        · refine iff_of_false ?_ fun h => h.1 hblank
          have hfail : upsertUserSiteAccessState state (unixSeconds now) rows = .error (.text "site_id is required") := by
            unfold upsertUserSiteAccessState
            rw [hsite, failIf, if_neg (by omega), failIf, if_pos hblank]
            rfl
          rw [hfail]
          rintro ⟨s, h⟩
          cases h
        · have hpos : 0 < state.userId := by omega
          obtain ⟨s, rows', hupsert⟩ := upsertUserSiteAccessState_isOk hpos (by rwa [hsite]) (unixSeconds now) rows
          rw [hupsert]
          exact iff_of_true ⟨s, rfl⟩ ⟨hblank, hreads⟩

end Evaluations

/-! ## The loop over the users -/

section Loop

variable {env : MembershipEnv} {access : AccessEnv} {now : Int} {acc acc' : ChatMembershipExpireResult × MembershipDb}
  {us : List Int}

/-- What the loop does with a list of users: it evaluates the ones that can be evaluated and freezes their
tokens, unless they are administrators. -/
structure MembershipEnv.Enforces (env : MembershipEnv) (access : AccessEnv) (us : List Int)
    (acc acc' : ChatMembershipExpireResult × MembershipDb) : Prop where
  states : acc'.2.states = acc.2.states
  others : ∀ u ∉ us, getUserSiteAccessState env.siteID u acc'.2.access = getUserSiteAccessState env.siteID u acc.2.access
  users : ∀ u, u ∈ acc'.1.reevaluatedUsers ↔ u ∈ acc.1.reevaluatedUsers ∨
    (u ∈ us ∧ (env.reads access).Evaluable u acc.2.access)
  frozenTo : acc.2.keys.FrozenTo accessControlFreezeKey acc'.2.keys
  frozen : env.freezes = true → ∀ u ∈ us,
    (env.reads access).Evaluable u acc.2.access →
      access.isAdmin u = false → acc'.2.keys.Frozen u

/-- Whether a user can be evaluated depends on the row of the user alone. -/
theorem AccessEnv.evaluable_congr {env : AccessEnv} {userID : Int} {rows rows' : AccessTable}
    (h : getUserSiteAccessState env.siteID userID rows' = getUserSiteAccessState env.siteID userID rows) :
    env.Evaluable userID rows' ↔ env.Evaluable userID rows := by
  unfold Evaluable
  rw [h]

/-- The loop body. -/
theorem enforceExpiredGrace_enforces {u : Int} (hpos : 0 < u) (acc : ChatMembershipExpireResult × MembershipDb) :
    env.Enforces access [u] acc (enforceExpiredGrace env access now acc u) := by
  obtain ⟨result, db⟩ := acc
  have hok : (∃ s, (evaluateUserAccessControl (env.reads access) now u true db.access).1 = .ok s) ↔
      (env.reads access).Evaluable u db.access := evaluateUserAccessControl_isOk_iff hpos
  have hothers : ∀ v ∉ [u], getUserSiteAccessState env.siteID v
      (evaluateUserAccessControl (env.reads access) now u true db.access).2
        = getUserSiteAccessState env.siteID v db.access := fun v hv =>
    evaluateUserAccessControl_others _ _ _ _ _ fun hk => hv (mem_singleton.mpr (Prod.mk.inj hk).2)
  unfold enforceExpiredGrace
  dsimp only
  rcases heval : evaluateUserAccessControl (env.reads access) now u true db.access with
    ⟨_ | s, rows⟩
  · rw [heval] at hok hothers
    have hnot : ¬ (env.reads access).Evaluable u db.access := by
      rw [← hok]
      rintro ⟨s, hs⟩
      cases hs
    refine ⟨rfl, hothers, fun v => ?_, .refl _ _, fun _ v hv hev => ?_⟩
    · refine (or_iff_left ?_).symm
      rintro ⟨hv, hev⟩
      exact hnot (mem_singleton.mp hv ▸ hev)
    · exact absurd (mem_singleton.mp hv ▸ hev) hnot
  · rw [heval] at hok hothers
    have hev : (env.reads access).Evaluable u db.access := hok.mp ⟨s, rfl⟩
    have husers : ∀ v, v ∈ result.reevaluatedUsers ++ [u] ↔ v ∈ result.reevaluatedUsers ∨
        (v ∈ [u] ∧ (env.reads access).Evaluable v db.access) := by
      intro v
      rw [mem_append]
      refine or_congr_right ⟨fun hv => ⟨hv, mem_singleton.mp hv ▸ hev⟩, And.left⟩
    dsimp only
    split
    · obtain ⟨stats, keys, hfreeze, hto, hfrozen⟩ := freezeUserTokensForAccessControl_frozenTo access.user
        "membership grace expired" (unixSeconds now) hpos db.keys
      rw [hfreeze]
      refine ⟨rfl, hothers, husers, hto, fun _ v hv _ hadmin => ?_⟩
      obtain rfl := mem_singleton.mp hv
      exact hfrozen hadmin
    · next hoff => exact ⟨rfl, hothers, husers, .refl _ _, fun hon => absurd hon hoff⟩

/-- A user and then others. -/
theorem MembershipEnv.Enforces.cons {u : Int} {acc'' : ChatMembershipExpireResult × MembershipDb}
    (h : env.Enforces access [u] acc acc') (hu : u ∉ us) (h' : env.Enforces access us acc' acc'') :
    env.Enforces access (u :: us) acc acc'' := by
  -- the others can be evaluated afterwards exactly when they could before
  have hev : ∀ v ∈ us, ((env.reads access).Evaluable v acc'.2.access ↔
      (env.reads access).Evaluable v acc.2.access) := by
    intro v hv
    refine AccessEnv.evaluable_congr (h.others v fun hmem => hu ?_)
    exact mem_singleton.mp hmem ▸ hv
  refine ⟨h'.states.trans h.states, fun v hv => ?_, fun v => ?_, h.frozenTo.trans h'.frozenTo, ?_⟩
  · rw [h'.others v fun hm => hv (mem_cons_of_mem _ hm),
      h.others v fun hm => hv (mem_cons.mpr (.inl (mem_singleton.mp hm)))]
  · have hmem : v ∈ u :: us ↔ v ∈ [u] ∨ v ∈ us := by simp
    rw [h'.users, h.users, or_assoc, hmem, or_and_right]
    exact or_congr_right (or_congr_right (and_congr_right fun hv => hev v hv))
  · intro hon v hv hevaluable hadmin
    rcases mem_cons.mp hv with rfl | hv
    · exact (h.frozen hon v (mem_singleton_self v) hevaluable hadmin).frozenTo h'.frozenTo
    · exact h'.frozen hon v hv ((hev v hv).mpr hevaluable) hadmin

/-- The loop. -/
theorem foldl_enforceExpiredGrace (env : MembershipEnv) (access : AccessEnv) (now : Int) (hnodup : us.Nodup)
    (hpos : ∀ u ∈ us, 0 < u) (acc : ChatMembershipExpireResult × MembershipDb) :
    env.Enforces access us acc (us.foldl (enforceExpiredGrace env access now) acc) := by
  induction us generalizing acc with
  | nil => exact ⟨rfl, fun _ _ => rfl, fun _ => by simp, .refl _ _, fun _ _ hu => absurd hu not_mem_nil⟩
  | cons u us ih =>
    obtain ⟨hu, hnodup⟩ := nodup_cons.mp hnodup
    obtain ⟨hupos, hpos⟩ := forall_mem_cons.mp hpos
    exact (enforceExpiredGrace_enforces hupos acc).cons hu (ih hnodup hpos _)

end Loop

/-! ## The users of a pass -/

instance : Std.Total ChatMembershipState.before where
  total a b := by
    unfold ChatMembershipState.before
    omega

instance : IsTrans ChatMembershipState ChatMembershipState.before where
  trans a b c := by
    unfold ChatMembershipState.before
    omega

/-- Two states that come before each other are one. -/
theorem ChatMembershipState.before_antisymm {a b : ChatMembershipState} (h : a.before b) (h' : b.before a) :
    a.id = b.id := by
  unfold before at h h'
  omega

variable {s : ChatMembershipState} {siteID : String} {states : Table ChatMembershipState}

section Pass

variable {env : MembershipEnv} {access : AccessEnv} {now : Int} {db : MembershipDb}

theorem mem_listChatMembershipStates :
    s ∈ listChatMembershipStates env.siteID .grace 1000 db.states ↔
      (s ∈ db.states.rows ∧ s.siteId = env.siteID ∧ s.status = .grace) ∧ env.Listed db s := by
  have hpage := Table.mem_page (t := db.states) (n := 100) (x := s)
    (p := fun s => s.siteId = env.siteID ∧ s.status = .grace) (r := before)
    fun a _ b _ hab hba => before_antisymm hab hba
  rw [decide_eq_true_iff] at hpage
  exact hpage

/-- The users that a pass collects. -/
theorem mem_dueUserIDs {userID : Int} :
    userID ∈ dueUserIDs env.siteID (unixSeconds now) db.states ↔ 0 < userID ∧
      ∃ s ∈ db.states.rows, s.expires env.siteID (unixSeconds now) = true ∧ s.newAPIUserId = userID ∧
        env.Listed db s := by
  unfold dueUserIDs
  simp only [mem_firstOccurrences, mem_map, mem_filter, mem_listChatMembershipStates,
    expires, decide_eq_true_iff]
  constructor
  · rintro ⟨s, ⟨⟨⟨hs, hsite, hgrace⟩, hlisted⟩, hdue, hpos⟩, rfl⟩
    exact ⟨hpos, s, hs, ⟨hsite, hgrace, hdue⟩, rfl, hlisted⟩
  · rintro ⟨hpos, s, hs, ⟨hsite, hgrace, hdue⟩, rfl, hlisted⟩
    exact ⟨s, ⟨⟨⟨hs, hsite, hgrace⟩, hlisted⟩, hdue, hpos⟩, rfl⟩

/-- The due states of a pass outside of a dry run have expired. -/
theorem expireChatMembershipGrace_moved {t : Int} (hs : s ∈ states.rows)
    (hdue : s.expires siteID t = true) :
    ∃ s' ∈ (expireChatMembershipGrace siteID t false states).2.rows, s'.id = s.id ∧ s'.status = .leftExpired := by
  refine ⟨(setStatus .leftExpired t).apply s, ?_, rfl, rfl⟩
  refine mem_map.mpr ⟨s, hs, ?_⟩
  rw [if_pos hdue]

/-- A pass enforces the end of the grace periods exactly when it reaches the due states. -/
theorem enforcesGrace_iff {order : List Int → List Int} (horder : ∀ users, (order users).Perm users)
    (hdry : env.cfg.dryRun = false) :
    env.EnforcesGrace access now db (expireChatMembershipGraceAndEnforce env access now order db) ↔
      env.ReachesDue access now db := by
  unfold expireChatMembershipGraceAndEnforce
  dsimp only
  rw [show env.cfg.get.dryRun = false from hdry]
  by_cases hnone : (expireChatMembershipGrace env.siteID (unixSeconds now) false db.states).1 = 0
  · -- nothing is due: neither side asks for anything
    have hdue : ∀ s ∈ db.states.rows, ¬ s.expires env.siteID (unixSeconds now) = true :=
      countP_eq_zero.mp hnone
    have hno : ∀ userID, ¬ env.Expires now db userID := fun userID ⟨_, s, hs, hexp, _⟩ => hdue s hs hexp
    refine iff_of_true ⟨fun s hs hexp => absurd hexp (hdue s hs), ?_, ?_, ?_⟩ fun u hu => absurd hu (hno u)
    · exact fun u hu => absurd hu (hno u)
    · exact fun _ u hu => absurd hu (hno u)
    · exact fun _ u hu => absurd hu (hno u)
  · rw [if_neg (by simp [hnone])]
    generalize husers : dueUserIDs env.siteID (unixSeconds now) db.states = users
    have hmem : ∀ u, u ∈ order users ↔ 0 < u ∧ ∃ s ∈ db.states.rows,
        s.expires env.siteID (unixSeconds now) = true ∧ s.newAPIUserId = u ∧ env.Listed db s := fun u => by
      rw [(horder users).mem_iff, ← husers, mem_dueUserIDs]
    have hnodup : (order users).Nodup := (horder users).nodup_iff.mpr (husers ▸ nodup_firstOccurrences _)
    have hloop := foldl_enforceExpiredGrace env access now hnodup
      (fun u hu => ((hmem u).mp hu).1)
      ({ expired := (expireChatMembershipGrace env.siteID (unixSeconds now) false db.states).1, dryRun := false },
        { db with states := (expireChatMembershipGrace env.siteID (unixSeconds now) false db.states).2 })
    constructor
    · intro h u hu
      rcases (hloop.users u).mp (h.reevaluated u hu) with hnil | ⟨huser, hev⟩
      · cases hnil
      · exact ⟨((hmem u).mp huser).2, hev⟩
    · intro h
      have hvisited : ∀ u, env.Expires now db u → u ∈ order users ∧ (env.reads access).Evaluable u db.access :=
        fun u hu => ⟨(hmem u).mpr ⟨hu.1, (h u hu).1⟩, (h u hu).2⟩
      refine ⟨fun s hs hexp => ?_, fun u hu => ?_, fun hon u hu hadmin => ?_, fun hon u hu hadmin t ht henabled => ?_⟩
      · rw [hloop.states]
        exact expireChatMembershipGrace_moved hs hexp
      · exact (hloop.users u).mpr (.inr (hvisited u hu))
      · exact hloop.frozen hon u (hvisited u hu).1 (hvisited u hu).2 hadmin
      · exact hloop.frozenTo.frozen_token (hloop.frozen hon u (hvisited u hu).1 (hvisited u hu).2 hadmin) ht henabled

end Pass

/-! ## Clearing a bypass -/

/-- What the clearing of a bypass returns. -/
theorem clearChatMembershipBypass_ok (reason metadataJson : String) (now : Int)
    (hs : s ∈ states.rows) (hsite : s.siteId = siteID) :
    ∃ states', clearChatMembershipBypass siteID s.id reason now metadataJson states
      = (.ok ((clearBypass (s.clearedStatus now) reason now metadataJson).apply s), states') := by
  have hpos : 0 < s.id := states.id_pos s hs
  have hfind : states.byId s.id = some s := Table.byId_eq_some.mpr ⟨hs, rfl⟩
  have hfilter : ∀ x : ChatMembershipState, x.siteId = siteID →
      (some x).filter (fun s : ChatMembershipState => decide (s.siteId = siteID)) = some x := fun x hx => by
    simp [hx]
  unfold clearChatMembershipBypass
  rw [if_neg (by omega), hfind, hfilter s hsite]
  dsimp only
  rw [Table.byId_updateWhere, hfind, Option.map_some, if_pos (by simp [hsite]),
    hfilter ((clearBypass (s.clearedStatus now) reason now metadataJson).apply s) hsite]
  exact ⟨_, rfl⟩

/-- A state that is cleared and has left is allowed nothing exactly when its grace period has an end. -/
theorem clearKeepsOut_iff {now : Int} :
    ClearKeepsOut siteID now states ↔
      ∀ s ∈ states.rows, s.siteId = siteID → s.Left → now < s.graceUntil ∨ 0 < s.graceUntil := by
  refine forall₄_congr fun s hs hsite hleft => ?_
  have hstatus : s.clearedStatus now = if now < s.graceUntil then .grace
      else if 0 < s.graceUntil then .leftExpired else .restored := if_pos hleft
  constructor
  · intro h
    obtain ⟨states', hok⟩ := clearChatMembershipBypass_ok "" "" now hs hsite
    have hout := h "" "" _ _ hok 0
    by_contra hnever
    rw [not_or] at hnever
    -- without an end of the grace period the state is restored
    rw [hstatus, if_neg hnever.1, if_neg hnever.2] at hout
    cases hout
  · intro h reason metadataJson state states' hclear t
    obtain ⟨states'', hok⟩ := clearChatMembershipBypass_ok reason metadataJson now hs hsite
    rw [hok] at hclear
    obtain ⟨hstate, -⟩ := Prod.mk.inj hclear
    rw [← Except.ok.inj hstate]
    rcases h with hgrace | hpast
    · rw [hstatus, if_pos hgrace]
      rfl
    · rw [hstatus]
      split <;> rfl

/-- **The end of grace periods is enforced exactly when** a due state of every user with a due state is among
the hundred states in grace that were updated last, the users can be evaluated, and every state that has left
has an end of its grace period. -/
theorem grace_enforced_iff (env : MembershipEnv) (access : AccessEnv) (now : Int) {order : List Int → List Int}
    (horder : ∀ users, (order users).Perm users) (db : MembershipDb) (hdry : env.cfg.dryRun = false) :
    (env.EnforcesGrace access now db (expireChatMembershipGraceAndEnforce env access now order db) ∧
      ClearKeepsOut env.siteID (unixSeconds now) db.states) ↔
    (env.ReachesDue access now db ∧
      ∀ s ∈ db.states.rows, s.siteId = env.siteID → s.Left → unixSeconds now < s.graceUntil ∨ 0 < s.graceUntil) :=
  and_congr (enforcesGrace_iff horder hdry) clearKeepsOut_iff

/-! ## A user beyond the page -/

/-- States in grace of one room: the first was updated first, and it alone is due after 1000 seconds. -/
def graceRow (i : Nat) : ChatMembershipState where
  id := i + 1
  siteId := "prox"
  source := "qq"
  roomId := "100200"
  externalUserId := toString i
  newAPIUserId := i + 1
  status := .grace
  leftAt := 100
  graceUntil := if i = 0 then 500 else 2000
  updatedAt := i

/-- No two states are of one user, so that deciding it need not compare them. -/
instance (n : Nat) : Decidable ((List.range n).map (Row.key ∘ graceRow)).Nodup :=
  .isTrue (nodup_range.map fun _ _ hij => Int.ofNat.inj (toString_int_inj (congrArg (·.2.2.2) hij)))

/-- A table of states in grace. -/
def graceTable (n : Nat) (h : ((List.range n).map (Row.key ∘ graceRow)).Nodup) : Table ChatMembershipState where
  rows := (List.range n).map graceRow
  id_pos := by
    intro r hr
    obtain ⟨i, -, rfl⟩ := mem_map.mp hr
    show (0 : Int) < i + 1
    omega
  id_nodup := by
    rw [map_map]
    refine nodup_range.map fun i j hij => ?_
    have hij : (i : Int) + 1 = j + 1 := hij
    omega
  key_nodup := by rwa [map_map]

/-- The states in grace, and an enabled token of the user of the first. -/
def graceDb (n : Nat) (h : ((List.range n).map (Row.key ∘ graceRow)).Nodup) : MembershipDb :=
  { emptyMembershipDb with
    states := graceTable n h
    keys := ⟨⟨[{ id := 1, userId := 1, key := "sk-1" }], by decide, by decide, by decide⟩, .empty⟩ }

/-- A due state alone on the page. -/
theorem grace_enforced_iff_listed :
    sampleMembership.EnforcesGrace (sampleAccessEnv []) (1000 * nanosPerSecond) (graceDb 1 (by decide +kernel))
        (expireChatMembershipGraceAndEnforce sampleMembership (sampleAccessEnv []) (1000 * nanosPerSecond) id
          (graceDb 1 (by decide +kernel))) ∧
      ClearKeepsOut "prox" 1000 (graceDb 1 (by decide +kernel)).states := by
  have hrow : ∀ s ∈ (graceDb 1 (by decide +kernel)).states.rows, s = graceRow 0 := fun s hs =>
    mem_singleton.mp hs
  refine (grace_enforced_iff sampleMembership (sampleAccessEnv []) (1000 * nanosPerSecond) (fun _ => .refl _)
    (graceDb 1 (by decide +kernel)) rfl).mpr ⟨fun u hu => ?_, fun s hs _ _ => ?_⟩
  · obtain ⟨-, s, hs, hexp, huser⟩ := hu
    obtain rfl := hrow s hs
    refine ⟨⟨_, hs, hexp, huser, by decide +kernel⟩, .inr ⟨by decide +kernel, ⟨1, "default"⟩, rfl, ?_⟩⟩
    exact .inr (.inr (.inr ⟨⟨_, rfl⟩, _, rfl⟩))
  · obtain rfl := hrow s hs
    exact .inr (by decide)

/-- A hundred states that were updated later push a due state off the page: it expires, but its user is not
evaluated. -/
theorem due_state_off_page :
    ¬ sampleMembership.EnforcesGrace (sampleAccessEnv []) (1000 * nanosPerSecond) (graceDb 101 (by decide +kernel))
        (expireChatMembershipGraceAndEnforce sampleMembership (sampleAccessEnv []) (1000 * nanosPerSecond) id
          (graceDb 101 (by decide +kernel))) := by
  intro h
  have hmem := h.reevaluated 1 ⟨by decide, graceRow 0, mem_map_of_mem (by decide), by decide +kernel, rfl⟩
  have hnone : (expireChatMembershipGraceAndEnforce sampleMembership (sampleAccessEnv []) (1000 * nanosPerSecond) id
      (graceDb 101 (by decide +kernel))).1.reevaluatedUsers = [] := by decide +kernel
  rw [hnone] at hmem
  cases hmem

end Prox
