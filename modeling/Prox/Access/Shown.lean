import Prox.Access.Control

/-! # Access that is shown is enforced

The groups of a stored access state, the groups that a token may be created for, and the groups returned as
usable. They are the same unless an empty set of groups is replaced by all groups: the evaluation does so when
no full-access groups are configured, the two others also when some are. -/

namespace Prox

open AccessEnv List Option

-- Texts are compared by the lemmas on `trimSpace`, not computed.
attribute [local irreducible] trimSpace

/-! ## The property -/

/-- A token is accepted for a group: some request for an action results in it. -/
def AccessEnv.Accepts (env : AccessEnv) (now userID : Int) (action group : String) (rows : AccessTable) : Prop :=
  ∃ requested state, (ensureUserCanCreateOrEnableToken env now userID requested action rows).1 = .ok (group, state)

/-- The groups of a state are the ones that are enforced for its user, with `rows` stored. -/
structure UserSiteAccessState.Shown (s : UserSiteAccessState) (env : AccessEnv) (now userID : Int)
    (user : AccessUser) (rows : AccessTable) : Prop where
  accepted : ∀ action, accessControlMutationEnforced env.cfg.get action = true →
    ∀ group, env.Accepts now userID action group rows ↔ group ∈ s.effectiveGroups
  returned : ∀ refresh, ∃ usable state,
    (getUserUsableGroupsWithAccess env now userID user.group refresh rows).1 = .ok (usable, state) ∧
      ∀ group, group ∈ usable.keys ↔ group ∈ s.effectiveGroups
  /-- A manual deny leaves no group. -/
  denied : s.manualOverrideMode = accessOverrideDeny → s.effectiveGroups = []
  /-- A full-access list without a usable group leaves none. -/
  unusable : s.manualOverrideMode = "" → s.accessLevel.unlocksAll = true → env.cfg.fullAccessGroups ≠ [] →
    (∀ c ∈ env.cfg.fullAccessGroups, trimSpace c ∉ (getUserUsableGroups env user.group).keys) →
    s.effectiveGroups = []

/-- An evaluation stores a state. -/
structure AccessEnv.Stores (env : AccessEnv) (now userID : Int) (refresh : Bool) (rows : AccessTable)
    (s : UserSiteAccessState) (rows' : AccessTable) : Prop where
  evaluates : evaluateUserAccessControl env now userID refresh rows = (.ok s, rows')
  not_cached : env.cfg.get.enabled = true → cachedAccessState env now userID refresh rows = none
  userID_pos : 0 < userID
  siteID : trimSpace env.siteID ≠ ""

/-! ## The condition -/

section Condition

variable (env : AccessEnv) (userID : Int) (user : AccessUser) (o : AccessOverride)

/-- The user is bound to a primary room. -/
def AccessEnv.primaryBound : Bool := (accessControlPrimaryBinding env userID).toOption.join.isSome

/-- The user is bound in the community. -/
def AccessEnv.communityBound : Bool := ((env.community userID).toOption.map (·.communityBound)).getD false

/-- The user has a level that unlocks the full-access groups. -/
def AccessEnv.unlocksAll : Bool :=
  (env.cfg.allowAdminBypass ∧ roleAdminUser ≤ user.role) ∨
    (o.mode = "" ∧ (accessControlHasPaidBypass env user ∨ env.primaryBound userID))

/-- The groups that the override or the bindings of a user grant; `none` stands for all. -/
def AccessEnv.candidates : Option (List String) :=
  let groups := normalizeStringSlice o.groups
  if o.mode = accessOverrideDeny then some []
  else if o.mode = accessOverrideCommunity then some (if groups = [] then env.cfg.communityOnlyGroups else groups)
  else if o.mode = accessOverrideCustom then some groups
  else if o.mode = accessOverrideFullAccess ∧ groups ≠ [] then some groups
  else if o.mode = accessOverrideFullAccess ∨ env.unlocksAll userID user o then
    if env.cfg.fullAccessGroups = [] then none else some env.cfg.fullAccessGroups
  else if o.mode = "" ∧ env.communityBound userID then some env.cfg.communityOnlyGroups
  else some []

/-- The usable groups of a user that are granted. -/
def AccessEnv.granted : List String :=
  (getUserUsableGroups env user.group).keys.filter fun group =>
    (env.candidates userID user o).all fun cs => group ∈ cs.map trimSpace

/-- The name of a group is not blank and has no blanks around it. -/
def CleanName (group : String) : Prop := trimSpace group = group ∧ group ≠ ""
  deriving Decidable

/-- The condition: the names of the granted groups are clean, and where no group is granted, none is usable
or nothing replaces the empty set, or the evaluation itself replaces it. -/
def AccessEnv.ShowsEnforced : Prop :=
  let usable := (getUserUsableGroups env user.group).keys
  if env.cfg.enabled = false then usable = []
  else if env.granted userID user o ≠ [] then ∀ group ∈ env.granted userID user o, CleanName group
  else if env.unlocksAll userID user o = true ∧ env.cfg.fullAccessGroups = [] ∧ o.mode ≠ accessOverrideDeny then
    ∀ group ∈ usable, CleanName group
  else usable = [] ∨ (env.unlocksAll userID user o = false ∧ o.mode ≠ accessOverrideFullAccess)

end Condition

instance (env : AccessEnv) (userID : Int) (user : AccessUser) (o : AccessOverride) :
    Decidable (env.ShowsEnforced userID user o) := by
  unfold AccessEnv.ShowsEnforced
  infer_instance

/-! ## Sets of groups -/

theorem mem_normalizeStringSlice {items : List String} {g : String} :
    g ∈ normalizeStringSlice items ↔ ∃ item ∈ items, trimSpace item = g ∧ g ≠ "" := by
  simp only [normalizeStringSlice, mem_firstOccurrences, mem_filter, List.mem_map, decide_eq_true_iff]
  constructor
  · rintro ⟨⟨item, hitem, rfl⟩, hne⟩
    exact ⟨item, hitem, rfl, hne⟩
  · rintro ⟨item, hitem, rfl, hne⟩
    exact ⟨⟨item, hitem, rfl⟩, hne⟩

@[simp] theorem mem_sortStrings {items : List String} {g : String} : g ∈ sortStrings items ↔ g ∈ items :=
  (perm_insertionSort _ items).mem_iff

namespace Dict

variable {β : Type} {d : Dict String β} {k : String}

/-- A key has a value. -/
theorem mem_keys : k ∈ d.keys ↔ ∃ v, d.get k = some v := by
  simp only [keys, List.mem_map, Prod.exists, get_eq_some]
  constructor
  · rintro ⟨_, v, h, rfl⟩
    exact ⟨v, h⟩
  · rintro ⟨v, h⟩
    exact ⟨k, v, h, rfl⟩

theorem isSome_get : (d.get k).isSome = true ↔ k ∈ d.keys := by
  rw [mem_keys, isSome_iff_exists]

theorem entries_eq_nil : d.entries = [] ↔ d.keys = [] := by
  simp [keys]

end Dict

theorem mem_keys_accessControlFilterGroups {base : Dict String String} {candidates : List String} {k : String} :
    k ∈ (accessControlFilterGroups base candidates).keys ↔ k ∈ base.keys ∧ k ∈ candidates.map trimSpace := by
  have hfold : ∀ out : Dict String String, (k ∈ (candidates.foldl (fun out candidate =>
      (base.get (trimSpace candidate)).elim out (out.set (trimSpace candidate))) out).keys ↔
        k ∈ out.keys ∨ (k ∈ base.keys ∧ k ∈ candidates.map trimSpace)) := by
    induction candidates with
    | nil => simp
    | cons c cs ih =>
      intro out
      rw [foldl_cons, ih, map_cons, mem_cons]
      cases hc : base.get (trimSpace c) with
      | none =>
        have hnot : k = trimSpace c → k ∉ base.keys := by
          rintro rfl hk
          obtain ⟨v, hv⟩ := Dict.mem_keys.mp hk
          rw [hc] at hv
          cases hv
        tauto
      | some desc =>
        have hbase : trimSpace c ∈ base.keys := Dict.mem_keys.mpr ⟨desc, hc⟩
        have hset : k ∈ (out.set (trimSpace c) desc).keys ↔ k = trimSpace c ∨ k ∈ out.keys := by
          simp only [Dict.mem_keys, Dict.get_set]
          by_cases hk : trimSpace c = k
          · simp [hk]
          · simp [hk, Ne.symm hk]
        rw [Option.elim_some, hset]
        constructor
        · rintro ((rfl | h) | h)
          · exact .inr ⟨hbase, .inl rfl⟩
          · exact .inl h
          · exact .inr ⟨h.1, .inr h.2⟩
        · rintro (h | ⟨hk, rfl | h⟩)
          · exact .inl (.inr h)
          · exact .inl (.inl rfl)
          · exact .inr ⟨hk, h⟩
  have hgroups : accessControlFilterGroups base candidates = candidates.foldl (fun out candidate =>
      (base.get (trimSpace candidate)).elim out (out.set (trimSpace candidate))) .empty := by
    refine congrArg (foldl · _ _) (funext fun out => funext fun candidate => ?_)
    cases base.get (trimSpace candidate) <;> rfl
  rw [hgroups, hfold]
  exact or_iff_right not_mem_nil

/-! ## Levels -/

section Levels

variable {env : AccessEnv} {userID : Int} {user : AccessUser} {o : AccessOverride} {st st' : UserSiteAccessState}

/-- What the decision on a level keeps of a state. -/
structure UserSiteAccessState.SameOverride (st st' : UserSiteAccessState) : Prop where
  siteId : st'.siteId = st.siteId
  userId : st'.userId = st.userId
  manualOverrideMode : st'.manualOverrideMode = st.manualOverrideMode
  manualOverrideGroups : st'.manualOverrideGroups = st.manualOverrideGroups
  manualOverrideReason : st'.manualOverrideReason = st.manualOverrideReason
  lastEvaluatedAt : st'.lastEvaluatedAt = st.lastEvaluatedAt

/-- The level that is decided on. -/
def AccessEnv.level (env : AccessEnv) (userID : Int) (user : AccessUser) (mode : String) : AccessLevel :=
  if env.cfg.allowAdminBypass ∧ roleAdminUser ≤ user.role then .adminBypass
  else if mode ≠ "" then (overrideLevel mode).1
  else if accessControlHasPaidBypass env user then .paidBypass
  else if env.primaryBound userID then .fullAccess
  else if env.communityBound userID then .communityOnly
  else .none

/-- What a decision on a level returns. -/
theorem decideAccessLevel_ok (h : decideAccessLevel env userID user st = .ok st') :
    st'.accessLevel = env.level userID user st.manualOverrideMode ∧ st.SameOverride st' := by
  unfold decideAccessLevel at h
  dsimp only at h
  have hadmin : env.cfg.get.allowAdminBypass = env.cfg.allowAdminBypass := rfl
  rw [hadmin] at h
  unfold level
  split at h
  · next hc =>
    cases h
    rw [if_pos hc]
    exact ⟨rfl, rfl, rfl, rfl, rfl, rfl, rfl⟩
  · next hc =>
    rw [if_neg hc]
    split at h
    · next hmode =>
      cases h
      rw [if_pos hmode]
      exact ⟨rfl, rfl, rfl, rfl, rfl, rfl, rfl⟩
    · next hmode =>
      rw [if_neg hmode]
      split at h
      · next hpaid =>
        cases h
        rw [if_pos hpaid]
        exact ⟨rfl, rfl, rfl, rfl, rfl, rfl, rfl⟩
      · next hpaid =>
        rw [if_neg hpaid]
        obtain ⟨primary, hprimary, h⟩ := bind_eq_ok.mp h
        obtain ⟨community, hcommunity, h⟩ := bind_eq_ok.mp h
        have hp : env.primaryBound userID = primary.isSome := by
          simp [primaryBound, hprimary, Except.toOption]
        have hc : env.communityBound userID = community.communityBound := by
          simp [communityBound, hcommunity, Except.toOption]
        rw [hp, hc]
        split at h
        · next hprim =>
          cases h
          rw [if_pos hprim]
          exact ⟨rfl, rfl, rfl, rfl, rfl, rfl, rfl⟩
        · next hprim =>
          rw [if_neg hprim]
          split at h
          · next hcomm =>
            cases h
            rw [if_pos hcomm]
            exact ⟨rfl, rfl, rfl, rfl, rfl, rfl, rfl⟩
          · next hcomm =>
            cases h
            rw [if_neg hcomm]
            exact ⟨rfl, rfl, rfl, rfl, rfl, rfl, rfl⟩

/-- Whether a level is decided on depends on the mode of the override alone. -/
theorem decideAccessLevel_isOk (h : decideAccessLevel env userID user st = .ok st')
    {st₁ : UserSiteAccessState} (hmode : st₁.manualOverrideMode = st.manualOverrideMode) :
    ∃ st₂, decideAccessLevel env userID user st₁ = .ok st₂ := by
  unfold decideAccessLevel at h ⊢
  dsimp only at h ⊢
  rw [hmode]
  split at h
  · next hc => exact ⟨_, if_pos hc⟩
  · next hc =>
    rw [if_neg hc]
    split at h
    · next hm => exact ⟨_, if_pos hm⟩
    · next hm =>
      rw [if_neg hm]
      split at h
      · next hpaid => exact ⟨_, if_pos hpaid⟩
      · next hpaid =>
        rw [if_neg hpaid]
        obtain ⟨primary, hprimary, h⟩ := bind_eq_ok.mp h
        obtain ⟨community, hcommunity, -⟩ := bind_eq_ok.mp h
        rw [hprimary, hcommunity]
        simp only [bind, Except.bind]
        split
        · exact ⟨_, rfl⟩
        · split
          · exact ⟨_, rfl⟩
          · exact ⟨_, rfl⟩

/-- The levels that unlock the full-access groups. -/
theorem level_unlocksAll : (env.level userID user o.mode).unlocksAll = env.unlocksAll userID user o := by
  unfold level unlocksAll
  by_cases hadmin : env.cfg.allowAdminBypass ∧ roleAdminUser ≤ user.role
  · simp [hadmin, AccessLevel.unlocksAll]
  · rw [if_neg hadmin]
    by_cases hmode : o.mode = ""
    · rw [if_neg (not_not.mpr hmode)]
      by_cases hpaid : accessControlHasPaidBypass env user = true
      · simp [hmode, hpaid, AccessLevel.unlocksAll]
      · rw [if_neg hpaid]
        by_cases hprim : env.primaryBound userID = true
        · simp [hmode, hprim, AccessLevel.unlocksAll]
        · rw [if_neg hprim]
          split <;> simp [hadmin, hpaid, hprim, AccessLevel.unlocksAll]
    · unfold overrideLevel
      split_ifs <;> simp [hadmin, hmode, AccessLevel.unlocksAll]

/-- Without an override, the level of a user who does not unlock all groups is the one of the community. -/
theorem level_of_mode_eq (hmode : o.mode = "") (hunlocks : env.unlocksAll userID user o = false) :
    env.level userID user o.mode = if env.communityBound userID then .communityOnly else .none := by
  have hlevel : (env.level userID user o.mode).unlocksAll = env.unlocksAll userID user o := level_unlocksAll
  rw [hunlocks] at hlevel
  unfold level at hlevel ⊢
  split at hlevel
  · cases hlevel
  · next hadmin =>
    rw [if_neg hadmin]
    rw [if_neg (not_not.mpr hmode)] at hlevel ⊢
    split at hlevel
    · cases hlevel
    · next hpaid =>
      rw [if_neg hpaid]
      split at hlevel
      · cases hlevel
      · next hprim => rw [if_neg hprim]

/-- With another override, the level of a user who does not unlock all groups unlocks none. -/
theorem level_of_mode_ne (hmode : o.mode ≠ "") (hunlocks : env.unlocksAll userID user o = false) :
    env.level userID user o.mode = (overrideLevel o.mode).1 := by
  unfold level
  rw [if_neg, if_pos hmode]
  intro hadmin
  simp [unlocksAll, hadmin] at hunlocks

/-- The groups that a state allows are the ones that are granted. -/
theorem mem_keys_accessControlAllowedGroups (htrim : trimSpace o.mode = o.mode)
    (hmode : st.manualOverrideMode = o.mode)
    (hgroups : normalizeStringSlice st.manualOverrideGroups = normalizeStringSlice o.groups)
    (hlevel : st.accessLevel = env.level userID user o.mode) {k : String} :
    k ∈ (accessControlAllowedGroups (getUserUsableGroups env user.group) st env.cfg.get).keys ↔
      k ∈ env.granted userID user o := by
  have hfull : env.cfg.get.fullAccessGroups = env.cfg.fullAccessGroups := rfl
  have hcommunity : env.cfg.get.communityOnlyGroups = env.cfg.communityOnlyGroups := rfl
  have hempty : k ∈ (Dict.empty : Dict String String).keys ↔ False := by simp [Dict.keys, Dict.empty]
  unfold accessControlAllowedGroups granted candidates
  rw [hmode, htrim, hgroups, hlevel, hfull, hcommunity]
  dsimp only
  split
  · simp [hempty]
  · split
    · simp [mem_keys_accessControlFilterGroups]
    · split
      · simp [mem_keys_accessControlFilterGroups]
      · split
        · next hfullmode =>
          by_cases hg : normalizeStringSlice o.groups = []
          · by_cases hf : env.cfg.fullAccessGroups = [] <;>
              simp [hfullmode, hg, hf, mem_keys_accessControlFilterGroups]
          · simp [hfullmode, hg, mem_keys_accessControlFilterGroups]
        · next hdeny hcomm hcustom hfullmode =>
          have hunlocks : (env.level userID user o.mode).unlocksAll = env.unlocksAll userID user o :=
            level_unlocksAll
          cases hu : env.unlocksAll userID user o with
          | true =>
            by_cases hf : env.cfg.fullAccessGroups = [] <;>
              cases hl : env.level userID user o.mode <;> rw [hl] at hunlocks <;>
              simp_all [AccessLevel.unlocksAll, mem_keys_accessControlFilterGroups]
          | false =>
            by_cases hm : o.mode = ""
            · rw [level_of_mode_eq hm hu]
              by_cases hc : env.communityBound userID = true <;>
                by_cases hf : env.cfg.communityOnlyGroups = [] <;>
                simp [hc, hf, hm, hempty, mem_keys_accessControlFilterGroups, accessOverrideFullAccess]
            · rw [level_of_mode_ne hm hu]
              simp [overrideLevel, hm, hdeny, hcomm, hcustom, hfullmode, hempty]

end Levels

/-! ## Stored states -/

/-- A list that is normalized stays as it is. -/
theorem normalizeStringSlice_normalizeStringSlice (items : List String) :
    normalizeStringSlice (normalizeStringSlice items) = normalizeStringSlice items := by
  have hclean : ∀ item ∈ normalizeStringSlice items, trimSpace item = item ∧ item ≠ "" := by
    intro item hitem
    obtain ⟨x, -, rfl, hne⟩ := mem_normalizeStringSlice.mp hitem
    exact ⟨trimSpace_trimSpace x, hne⟩
  have hmap : (normalizeStringSlice items).map trimSpace = normalizeStringSlice items :=
    (map_congr_left fun item hitem => (hclean item hitem).1).trans (List.map_id' _)
  have hfilter : (normalizeStringSlice items).filter (· ≠ "") = normalizeStringSlice items :=
    filter_eq_self.mpr fun item hitem => decide_eq_true (hclean item hitem).2
  show firstOccurrences (((normalizeStringSlice items).map trimSpace).filter (· ≠ "")) = _
  rw [hmap, hfilter]
  exact firstOccurrences_of_nodup (nodup_firstOccurrences _)

section Stored

variable {env : AccessEnv} {userID now : Int} {user : AccessUser} {o : AccessOverride}
  {state s row : UserSiteAccessState} {rows rows' : AccessTable} {refresh : Bool}

/-- An upsert leaves a row with the columns of the state that it returns. -/
theorem upsertUserSiteAccessState_ok (h : upsertUserSiteAccessState state now rows = .ok (s, rows')) :
    (∃ id, s = { state.normalized now with id := id }) ∧
      ∃ id createdAt, rows'.byKey (trimSpace state.siteId, state.userId)
        = some { state.normalized now with id := id, createdAt := createdAt } := by
  unfold upsertUserSiteAccessState at h
  simp only [failIf_bind_eq_ok] at h
  obtain ⟨-, -, h⟩ := h
  cases hcreate : rows.create { state.normalized now with id := rows.nextId } with
  | some rows₁ =>
    rw [hcreate] at h
    cases h
    exact ⟨⟨_, rfl⟩, _, _, (Table.byKey_of_create hcreate _).trans (if_pos rfl)⟩
  | none =>
    rw [hcreate] at h
    cases h
    obtain ⟨x, hx⟩ := (Table.create_eq_none rfl).mp hcreate
    have hkey : Row.key x = Row.key (state.normalized now) := (Table.byKey_eq_some.mp hx).2
    refine ⟨⟨state.id, rfl⟩, x.id, x.createdAt, ?_⟩
    have hx' : rows.byKey (trimSpace state.siteId, state.userId) = some x := hx
    rw [Table.byKey_updateWhere, hx', map_some, if_pos (decide_eq_true hkey)]
    obtain ⟨hsite, huser⟩ := Prod.mk.inj hkey
    have huser : x.userId = state.userId := huser
    simp only [UserSiteAccessState.assign, hsite, huser]
    rfl

/-- An upsert with a user and a site succeeds. -/
theorem upsertUserSiteAccessState_isOk (huser : 0 < state.userId) (hsite : trimSpace state.siteId ≠ "")
    (now : Int) (rows : AccessTable) : ∃ s rows', upsertUserSiteAccessState state now rows = .ok (s, rows') := by
  unfold upsertUserSiteAccessState
  rw [failIf, if_neg (by omega), failIf, if_neg hsite]
  simp only [bind, Except.bind]
  split <;> exact ⟨_, _, rfl⟩

/-- The groups that an evaluation stores. -/
def AccessEnv.evaluated (env : AccessEnv) (userID : Int) (user : AccessUser) (o : AccessOverride) : List String :=
  if env.unlocksAll userID user o = true ∧ env.cfg.fullAccessGroups = [] ∧ env.granted userID user o = [] then
    (getUserUsableGroups env user.group).keys
  else env.granted userID user o

/-- The columns of a state that result from an evaluation with an override. -/
structure AccessEnv.Evaluated (env : AccessEnv) (userID : Int) (user : AccessUser) (o : AccessOverride)
    (s : UserSiteAccessState) : Prop where
  mode : s.manualOverrideMode = o.mode
  groups : normalizeStringSlice s.manualOverrideGroups = normalizeStringSlice o.groups
  level : s.accessLevel = env.level userID user o.mode
  effective : ∀ g, g ∈ s.effectiveGroups ↔ ∃ k ∈ env.evaluated userID user o, trimSpace k = g ∧ g ≠ ""

theorem computeAccessState_ok {o' : AccessOverride} (htrim : trimSpace o.mode = o.mode)
    (hmode : o'.mode = o.mode) (hgroups : normalizeStringSlice o'.groups = normalizeStringSlice o.groups)
    (h : computeAccessState env now userID user o' = .ok s) :
    s.siteId = env.siteID ∧ s.userId = userID ∧
      ∀ now' id createdAt,
        env.Evaluated userID user o { s.normalized now' with id := id, createdAt := createdAt } := by
  obtain ⟨st, hst, h⟩ := bind_eq_ok.mp h
  obtain ⟨hlevel, hsame⟩ := decideAccessLevel_ok hst
  have hstate : s.siteId = env.siteID ∧ s.userId = userID ∧ s.manualOverrideMode = o.mode ∧
      s.manualOverrideGroups = o'.groups ∧ s.accessLevel = env.level userID user o.mode ∧
      s.effectiveGroups = sortStrings (evaluatedGroups (getUserUsableGroups env user.group) st env.cfg.get).keys := by
    have hlevel' : st.accessLevel = env.level userID user o.mode := hmode ▸ hlevel
    rw [pure_eq_ok] at h
    rw [← h]
    split <;>
      exact ⟨hsame.siteId, hsame.userId, hsame.manualOverrideMode.trans hmode, hsame.manualOverrideGroups,
        hlevel', rfl⟩
  obtain ⟨hsite, huser, hm, hg, hl, he⟩ := hstate
  refine ⟨hsite, huser, fun now' id createdAt => ⟨?_, ?_, hl, fun g => ?_⟩⟩
  · exact (congrArg trimSpace hm).trans htrim
  · show normalizeStringSlice (normalizeStringSlice s.manualOverrideGroups) = _
    rw [normalizeStringSlice_normalizeStringSlice, hg, hgroups]
  · have hkeys : ∀ k, k ∈ (evaluatedGroups (getUserUsableGroups env user.group) st env.cfg.get).keys ↔
        k ∈ env.evaluated userID user o := by
      have hallowed : ∀ k, k ∈ (accessControlAllowedGroups (getUserUsableGroups env user.group) st env.cfg.get).keys ↔
          k ∈ env.granted userID user o := fun k =>
        mem_keys_accessControlAllowedGroups htrim (hsame.manualOverrideMode.trans hmode)
          ((congrArg normalizeStringSlice hsame.manualOverrideGroups).trans hgroups) (hmode ▸ hlevel)
      have hunlocks : st.accessLevel.unlocksAll = env.unlocksAll userID user o := by
        rw [hlevel, ← level_unlocksAll]
        exact congrArg (fun m => (env.level userID user m).unlocksAll) hmode
      have hnil : (accessControlAllowedGroups (getUserUsableGroups env user.group) st env.cfg.get).entries = [] ↔
          env.granted userID user o = [] := by
        rw [Dict.entries_eq_nil, eq_nil_iff_forall_not_mem, eq_nil_iff_forall_not_mem]
        exact forall_congr' fun k => not_congr (hallowed k)
      intro k
      unfold evaluatedGroups evaluated
      simp only [hunlocks, hnil]
      rw [show env.cfg.get.fullAccessGroups = env.cfg.fullAccessGroups from rfl]
      split
      · rfl
      · exact hallowed k
    show g ∈ normalizeStringSlice s.effectiveGroups ↔ _
    rw [he, mem_normalizeStringSlice]
    simp [hkeys]

theorem trimSpace_overrideOf_mode (existing : Option UserSiteAccessState) :
    trimSpace (overrideOf existing).mode = (overrideOf existing).mode := by
  cases existing with
  | none => exact trimSpace_empty
  | some row => exact trimSpace_trimSpace _

/-- A stored row with the columns of an evaluation, of a user whose level can be decided on. -/
structure AccessEnv.Holds (env : AccessEnv) (userID : Int) (user : AccessUser) (o : AccessOverride)
    (rows : AccessTable) : Prop where
  row : ∃ row, getUserSiteAccessState env.siteID userID rows = some row ∧ env.Evaluated userID user o row
  decides : ∃ st st', decideAccessLevel env userID user st = .ok st' ∧ st.manualOverrideMode = o.mode

/-- What an evaluation computes while access control is enabled, and nothing is cached. -/
theorem evaluateUserAccessControl_computed (henabled : env.cfg.get.enabled = true)
    (huser : env.user userID = .ok user) (hcached : cachedAccessState env now userID refresh rows = none) :
    evaluateUserAccessControl env now userID refresh rows =
      match computeAccessState env (unixSeconds now) userID user
          (overrideOf (getUserSiteAccessState env.siteID userID rows)) with
      | .error err => (.error err, rows)
      | .ok state =>
        match upsertUserSiteAccessState state (unixSeconds now) rows with
        | .error err => (.error err, rows)
        | .ok (state, rows) => (.ok state, rows) := by
  unfold evaluateUserAccessControl
  rw [if_neg (by simp [henabled]), huser]
  generalize cachedAccessState env now userID refresh rows = cached at hcached ⊢
  subst hcached
  rfl

/-- What an evaluation that stores a state returns and leaves. -/
theorem AccessEnv.Stores.evaluated (h : env.Stores now userID refresh rows s rows')
    (henabled : env.cfg.get.enabled = true) (huser : env.user userID = .ok user) :
    env.Evaluated userID user (overrideOf (getUserSiteAccessState env.siteID userID rows)) s ∧
      env.Holds userID user (overrideOf (getUserSiteAccessState env.siteID userID rows)) rows' := by
  have hevaluates := h.evaluates
  rw [evaluateUserAccessControl_computed henabled huser (h.not_cached henabled)] at hevaluates
  cases hcompute : computeAccessState env (unixSeconds now) userID user
      (overrideOf (getUserSiteAccessState env.siteID userID rows)) with
  | error err =>
    rw [hcompute] at hevaluates
    cases hevaluates
  | ok state =>
    rw [hcompute] at hevaluates
    obtain ⟨hsite, huid, hevaluated⟩ :=
      computeAccessState_ok (trimSpace_overrideOf_mode _) rfl rfl hcompute
    cases hupsert : upsertUserSiteAccessState state (unixSeconds now) rows with
    | error err =>
      simp only [hupsert] at hevaluates
      cases hevaluates
    | ok r =>
      simp only [hupsert] at hevaluates
      cases hevaluates
      obtain ⟨⟨id, hs⟩, id', createdAt, hrow⟩ := upsertUserSiteAccessState_ok hupsert
      rw [hsite, huid] at hrow
      refine ⟨?_, ⟨_, hrow, hevaluated _ _ _⟩, ?_⟩
      · rw [hs]
        exact hevaluated _ id _
      · obtain ⟨st, hst, -⟩ := bind_eq_ok.mp hcompute
        exact ⟨_, _, hst, rfl⟩

/-- Whatever is evaluated from a stored state has the columns of its evaluation. -/
theorem AccessEnv.Holds.again (h : env.Holds userID user o rows) (henabled : env.cfg.get.enabled = true)
    (huser : env.user userID = .ok user) (htrim : trimSpace o.mode = o.mode) (hpos : 0 < userID)
    (hsite : trimSpace env.siteID ≠ "") (now : Int) (refresh : Bool) :
    ∃ s' rows', evaluateUserAccessControl env now userID refresh rows = (.ok s', rows') ∧
      env.Evaluated userID user o s' := by
  obtain ⟨⟨row, hrow, hevaluated⟩, st, st', hdecides, hmode⟩ := h
  cases hcached : cachedAccessState env now userID refresh rows with
  | some cached =>
    have heq : cached = row := by
      unfold cachedAccessState at hcached
      split at hcached
      · cases hcached
      · exact Option.some.inj ((filter_eq_some_iff.mp hcached).1.symm.trans hrow)
    refine ⟨cached, rows, ?_, heq ▸ hevaluated⟩
    unfold evaluateUserAccessControl
    rw [if_neg (by simp [henabled]), huser]
    simp [hcached]
  | none =>
    rw [evaluateUserAccessControl_computed henabled huser hcached, hrow]
    have hmode' : (overrideOf (some row)).mode = o.mode := (congrArg trimSpace hevaluated.mode).trans htrim
    -- the level is decided on as it was before
    have hcompute : ∃ state, computeAccessState env (unixSeconds now) userID user (overrideOf (some row))
        = .ok state := by
      have hst : (initialAccessState env (unixSeconds now) userID (overrideOf (some row))).manualOverrideMode
          = st.manualOverrideMode := hmode'.trans hmode.symm
      obtain ⟨st₂, hst₂⟩ := decideAccessLevel_isOk hdecides hst
      exact ⟨_, bind_eq_ok.mpr ⟨st₂, hst₂, rfl⟩⟩
    obtain ⟨state, hcompute⟩ := hcompute
    obtain ⟨hsite', huid, hagain⟩ := computeAccessState_ok htrim hmode' hevaluated.groups hcompute
    obtain ⟨s', rows', hupsert⟩ := upsertUserSiteAccessState_isOk (huid ▸ hpos) (hsite' ▸ hsite)
      (unixSeconds now) rows
    refine ⟨s', rows', ?_, ?_⟩
    · rw [hcompute]
      simp [hupsert]
    · obtain ⟨⟨id, hs⟩, -⟩ := upsertUserSiteAccessState_ok hupsert
      rw [hs]
      exact hagain _ id _

end Stored

/-! ## Enforced groups -/

/-- The groups that are enforced. -/
def AccessEnv.enforced (env : AccessEnv) (userID : Int) (user : AccessUser) (o : AccessOverride) : List String :=
  if env.granted userID user o = [] ∧ (env.unlocksAll userID user o = true ∨ o.mode = accessOverrideFullAccess) then
    (getUserUsableGroups env user.group).keys
  else env.granted userID user o

section Enforced

variable {env : AccessEnv} {userID now : Int} {user : AccessUser} {o : AccessOverride}
  {s : UserSiteAccessState} {rows rows' : AccessTable} {group : String}

/-- The groups that both places compute from a state. -/
theorem AccessEnv.Evaluated.mem_keys (h : env.Evaluated userID user o s) (htrim : trimSpace o.mode = o.mode) :
    group ∈ (orAllGroups (getUserUsableGroups env user.group)
      (accessControlAllowedGroups (getUserUsableGroups env user.group) s env.cfg.get) s).keys ↔
      group ∈ env.enforced userID user o := by
  have hallowed : ∀ k, k ∈ (accessControlAllowedGroups (getUserUsableGroups env user.group) s env.cfg.get).keys ↔
      k ∈ env.granted userID user o := fun k =>
    mem_keys_accessControlAllowedGroups htrim h.mode h.groups h.level
  have hnil : (accessControlAllowedGroups (getUserUsableGroups env user.group) s env.cfg.get).entries = [] ↔
      env.granted userID user o = [] := by
    rw [Dict.entries_eq_nil, eq_nil_iff_forall_not_mem, eq_nil_iff_forall_not_mem]
    exact forall_congr' fun k => not_congr (hallowed k)
  have hfalls : s.fallsBack = true ↔
      (env.unlocksAll userID user o = true ∨ o.mode = accessOverrideFullAccess) := by
    unfold UserSiteAccessState.fallsBack
    rw [decide_eq_true_iff, h.level, level_unlocksAll, h.mode]
  unfold enforced orAllGroups
  simp only [hnil, hfalls]
  split
  · rfl
  · exact hallowed group

/-- The groups that are returned as usable. -/
theorem getUserUsableGroupsWithAccess_ok (henabled : env.cfg.get.enabled = true) {refresh : Bool}
    (heval : evaluateUserAccessControl env now userID refresh rows = (.ok s, rows'))
    (h : env.Evaluated userID user o s) (htrim : trimSpace o.mode = o.mode) :
    ∃ usable, (getUserUsableGroupsWithAccess env now userID user.group refresh rows).1 = .ok (usable, s) ∧
      ∀ group, group ∈ usable.keys ↔ group ∈ env.enforced userID user o := by
  refine ⟨_, ?_, fun group => h.mem_keys htrim⟩
  unfold getUserUsableGroupsWithAccess
  simp [heval, henabled]

/-- The first of the groups of a map is one of them. -/
theorem headD_mem_keys {d : Dict String String} (h : ¬ d.entries = []) :
    (accessControlOrderedGroups d).headD "" ∈ d.keys := by
  have hsorted : accessControlOrderedGroups d ≠ [] := by
    intro hnil
    refine h (Dict.entries_eq_nil.mpr (eq_nil_iff_forall_not_mem.mpr fun k hk => ?_))
    have hk' : k ∈ accessControlOrderedGroups d := mem_sortStrings.mpr hk
    rw [hnil] at hk'
    cases hk'
  obtain ⟨first, rest, hcons⟩ := exists_cons_of_ne_nil hsorted
  have hfirst : first ∈ accessControlOrderedGroups d := hcons ▸ mem_cons_self
  rw [hcons]
  exact mem_sortStrings.mp hfirst

theorem mem_enforced_of_accepts (huser : env.user userID = .ok user)
    (heval : evaluateUserAccessControl env now userID false rows = (.ok s, rows'))
    (h : env.Evaluated userID user o s) (htrim : trimSpace o.mode = o.mode) {action : String}
    (haction : accessControlMutationEnforced env.cfg.get action = true)
    (haccepts : env.Accepts now userID action group rows) : group ∈ env.enforced userID user o := by
  obtain ⟨requested, state, hok⟩ := haccepts
  unfold ensureUserCanCreateOrEnableToken at hok
  dsimp only at hok
  split at hok
  · cases hok
  · rw [huser] at hok
    simp only [heval] at hok
    rw [← h.mem_keys htrim]
    split at hok
    · cases hok
    · next hne =>
      split at hok
      · split at hok
        · next hsome =>
          cases hok
          exact Dict.isSome_get.mp hsome
        · cases hok
      · split at hok
        · next hsome =>
          cases hok
          exact Dict.isSome_get.mp hsome
        · cases hok
          exact headD_mem_keys hne

theorem accepts_of_mem_enforced (huser : env.user userID = .ok user)
    (heval : evaluateUserAccessControl env now userID false rows = (.ok s, rows'))
    (h : env.Evaluated userID user o s) (htrim : trimSpace o.mode = o.mode) {action : String}
    (haction : accessControlMutationEnforced env.cfg.get action = true) (hclean : CleanName group)
    (hmem : group ∈ env.enforced userID user o) : env.Accepts now userID action group rows := by
  refine ⟨group, s, ?_⟩
  have hkeys := (h.mem_keys htrim).mpr hmem
  unfold ensureUserCanCreateOrEnableToken
  rw [hclean.1, if_neg (fun hc => hclean.2 hc.2), huser]
  simp only [heval, haction, if_true]
  rw [if_neg, if_pos hclean.2, if_pos (Dict.isSome_get.mpr hkeys)]
  rw [Dict.entries_eq_nil]
  exact ne_nil_of_mem hkeys

end Enforced

/-! ## Shown and enforced -/

section Shown

variable {env : AccessEnv} {userID now t : Int} {user : AccessUser} {o : AccessOverride}
  {s : UserSiteAccessState} {rows rows' : AccessTable} {refresh : Bool}

/-- A denied user is granted no group. -/
theorem granted_of_deny (hdeny : o.mode = accessOverrideDeny) : env.granted userID user o = [] := by
  unfold granted candidates
  rw [if_pos hdeny]
  exact filter_eq_nil_iff.mpr fun _ _ => by simp

/-- A full-access list without a usable group grants none. -/
theorem granted_of_unusable (hmode : o.mode = "") (hunlocks : env.unlocksAll userID user o = true)
    (hfull : env.cfg.fullAccessGroups ≠ [])
    (hnone : ∀ c ∈ env.cfg.fullAccessGroups, trimSpace c ∉ (getUserUsableGroups env user.group).keys) :
    env.granted userID user o = [] := by
  have hcandidates : env.candidates userID user o = some env.cfg.fullAccessGroups := by
    simp [candidates, hmode, hunlocks, hfull, accessOverrideDeny, accessOverrideCommunity,
      accessOverrideCustom, accessOverrideFullAccess]
  unfold granted
  rw [hcandidates]
  refine filter_eq_nil_iff.mpr fun g hg hmem => ?_
  obtain ⟨c, hc, rfl⟩ := List.mem_map.mp (of_decide_eq_true hmem)
  exact hnone c hc hg

/-- A set of groups is shown as itself when the names are clean. -/
theorem shown_self_iff (l : List String) :
    (∀ g, g ∈ l ↔ ∃ k ∈ l, trimSpace k = g ∧ g ≠ "") ↔ ∀ g ∈ l, CleanName g := by
  constructor
  · intro h g hg
    obtain ⟨k, -, rfl, hne⟩ := (h g).mp hg
    exact ⟨trimSpace_trimSpace k, hne⟩
  · intro h g
    constructor
    · exact fun hg => ⟨g, hg, (h g hg).1, (h g hg).2⟩
    · rintro ⟨k, hk, rfl, -⟩
      rwa [(h k hk).1]

/-- Where nothing is shown, nothing may be enforced. -/
theorem shown_nil_iff (l : List String) :
    (∀ g, g ∈ l ↔ ∃ k ∈ ([] : List String), trimSpace k = g ∧ g ≠ "") ↔ l = [] := by
  simp [eq_nil_iff_forall_not_mem]

/-- The condition, of the groups that are enforced and the ones that the evaluation stores. -/
theorem showsEnforced_iff (henabled : env.cfg.get.enabled = true) :
    env.ShowsEnforced userID user o ↔
      (∀ g, g ∈ env.enforced userID user o ↔
        ∃ k ∈ env.evaluated userID user o, trimSpace k = g ∧ g ≠ "") ∧
      (o.mode = accessOverrideDeny → ∀ k ∈ env.evaluated userID user o, trimSpace k = "") := by
  have hon : ¬ env.cfg.enabled = false := by simp [show env.cfg.enabled = true from henabled]
  by_cases hgranted : env.granted userID user o = []
  · by_cases hunlocks : env.unlocksAll userID user o = true
    · have henforced : env.enforced userID user o = (getUserUsableGroups env user.group).keys :=
        if_pos ⟨hgranted, .inl hunlocks⟩
      by_cases hfull : env.cfg.fullAccessGroups = []
      · have hevaluated : env.evaluated userID user o = (getUserUsableGroups env user.group).keys :=
          if_pos ⟨hunlocks, hfull, hgranted⟩
        rw [henforced, hevaluated, shown_self_iff]
        by_cases hdeny : o.mode = accessOverrideDeny
        · simp only [ShowsEnforced, hon, hgranted, hunlocks, hfull, hdeny, ne_eq, not_true_eq_false,
            and_false, if_false, Bool.true_eq_false, false_and, or_false, true_imp_iff]
          constructor
          · intro h
            simp [h]
          · rintro ⟨hclean, hnone⟩
            exact eq_nil_iff_forall_not_mem.mpr fun g hg =>
              (hclean g hg).2 ((hclean g hg).1.symm.trans (hnone g hg))
        · simp [ShowsEnforced, hon, hgranted, hunlocks, hfull, hdeny]
      · have hevaluated : env.evaluated userID user o = [] :=
          (if_neg fun h => hfull h.2.1).trans hgranted
        rw [henforced, hevaluated, shown_nil_iff]
        simp [ShowsEnforced, hgranted, hunlocks, hfull]
    · have hevaluated : env.evaluated userID user o = [] := (if_neg fun h => hunlocks h.1).trans hgranted
      by_cases hmode : o.mode = accessOverrideFullAccess
      · have henforced : env.enforced userID user o = (getUserUsableGroups env user.group).keys :=
          if_pos ⟨hgranted, .inr hmode⟩
        rw [henforced, hevaluated, shown_nil_iff]
        simp [ShowsEnforced, hgranted, hunlocks, hmode]
      · have henforced : env.enforced userID user o = [] :=
          (if_neg fun h => h.2.elim hunlocks hmode).trans hgranted
        rw [henforced, hevaluated]
        simp [ShowsEnforced, hon, hgranted, hunlocks, hmode]
  · have henforced : env.enforced userID user o = env.granted userID user o := if_neg fun h => hgranted h.1
    have hevaluated : env.evaluated userID user o = env.granted userID user o := if_neg fun h => hgranted h.2.2
    rw [henforced, hevaluated, shown_self_iff]
    simp only [ShowsEnforced, hon, hgranted, ne_eq, not_false_eq_true, if_true]
    exact ⟨fun h => ⟨h, fun hdeny => absurd (granted_of_deny hdeny) hgranted⟩, fun h => h.1⟩

/-- The groups of a state that is stored while access control is enabled. -/
theorem AccessEnv.Stores.shown_iff_of_enabled (h : env.Stores now userID refresh rows s rows')
    (henabled : env.cfg.get.enabled = true) (huser : env.user userID = .ok user) :
    s.Shown env t userID user rows' ↔
      env.ShowsEnforced userID user (overrideOf (getUserSiteAccessState env.siteID userID rows)) := by
  obtain ⟨hevaluated, hholds⟩ := h.evaluated henabled huser
  have htrim := trimSpace_overrideOf_mode (getUserSiteAccessState env.siteID userID rows)
  have hagain := hholds.again henabled huser htrim h.userID_pos h.siteID t
  rw [showsEnforced_iff henabled]
  constructor
  · intro hshown
    obtain ⟨usable, state, hok, hkeys⟩ := hshown.returned false
    obtain ⟨s', rows'', heval, hev⟩ := hagain false
    obtain ⟨usable', hok', hkeys'⟩ := getUserUsableGroupsWithAccess_ok henabled heval hev htrim
    rw [hok] at hok'
    cases hok'
    refine ⟨fun g => ?_, fun hdeny k hk => ?_⟩
    · rw [← hkeys' g, hkeys g, hevaluated.effective]
    · by_contra hne
      have hmem := (hevaluated.effective (trimSpace k)).mpr ⟨k, hk, rfl, hne⟩
      rw [hshown.denied (hevaluated.mode.trans hdeny)] at hmem
      cases hmem
  · rintro ⟨henforced, hdenied⟩
    refine ⟨fun action haction g => ?_, fun refresh' => ?_, fun hmode => ?_, fun hmode hlevel hfull hnone => ?_⟩
    · obtain ⟨s', rows'', heval, hev⟩ := hagain false
      rw [hevaluated.effective]
      constructor
      · exact fun haccepts => (henforced g).mp (mem_enforced_of_accepts huser heval hev htrim haction haccepts)
      · intro hg
        have hclean : CleanName g := by
          obtain ⟨k, -, rfl, hne⟩ := hg
          exact ⟨trimSpace_trimSpace k, hne⟩
        exact accepts_of_mem_enforced huser heval hev htrim haction hclean ((henforced g).mpr hg)
    · obtain ⟨s', rows'', heval, hev⟩ := hagain refresh'
      obtain ⟨usable, hok, hkeys⟩ := getUserUsableGroupsWithAccess_ok henabled heval hev htrim
      refine ⟨usable, s', hok, fun g => ?_⟩
      rw [hkeys, hevaluated.effective, henforced]
    · refine eq_nil_iff_forall_not_mem.mpr fun g hg => ?_
      obtain ⟨k, hk, rfl, hne⟩ := (hevaluated.effective g).mp hg
      exact hne (hdenied (hevaluated.mode.symm.trans hmode) k hk)
    · have hgranted := granted_of_unusable (hevaluated.mode.symm.trans hmode)
        (level_unlocksAll.symm.trans (hevaluated.level ▸ hlevel)) hfull hnone
      refine eq_nil_iff_forall_not_mem.mpr fun g hg => ?_
      obtain ⟨k, hk, -⟩ := (hevaluated.effective g).mp hg
      rw [AccessEnv.evaluated, if_neg (fun h => hfull h.2.1), hgranted] at hk
      cases hk

/-- While access control is disabled, every evaluation returns a state without groups. -/
theorem evaluateUserAccessControl_disabled (hdisabled : env.cfg.get.enabled = false) (now userID : Int)
    (refresh : Bool) (rows : AccessTable) :
    ∃ s rows', evaluateUserAccessControl env now userID refresh rows = (.ok s, rows') ∧
      s.effectiveGroups = [] := by
  unfold evaluateUserAccessControl
  rw [if_pos hdisabled]
  dsimp only
  cases hupsert : upsertUserSiteAccessState (disabledAccessState env (unixSeconds now) userID)
      (unixSeconds now) rows with
  | error err => exact ⟨_, _, rfl, rfl⟩
  | ok r =>
    obtain ⟨state, rows'⟩ := r
    obtain ⟨⟨id, hs⟩, -⟩ := upsertUserSiteAccessState_ok hupsert
    refine ⟨state, rows', rfl, ?_⟩
    rw [hs]
    rfl

/-- The groups of a state that is stored while access control is disabled. -/
theorem AccessEnv.Stores.shown_iff_of_disabled (h : env.Stores now userID refresh rows s rows')
    (hdisabled : env.cfg.get.enabled = false) :
    s.Shown env t userID user rows' ↔ (getUserUsableGroups env user.group).keys = [] := by
  have hnone : s.effectiveGroups = [] := by
    obtain ⟨s', rows'', heval, hnone⟩ := evaluateUserAccessControl_disabled hdisabled now userID refresh rows
    rw [h.evaluates] at heval
    cases heval
    exact hnone
  have hreturned : ∀ refresh', ∃ state,
      (getUserUsableGroupsWithAccess env t userID user.group refresh' rows').1
        = .ok (getUserUsableGroups env user.group, state) := by
    intro refresh'
    obtain ⟨s', rows'', heval, -⟩ := evaluateUserAccessControl_disabled hdisabled t userID refresh' rows'
    refine ⟨s', ?_⟩
    unfold getUserUsableGroupsWithAccess
    simp [heval, hdisabled, orAllGroups]
  constructor
  · intro hshown
    obtain ⟨usable, state, hok, hkeys⟩ := hshown.returned false
    obtain ⟨state', hok'⟩ := hreturned false
    rw [hok'] at hok
    cases hok
    refine eq_nil_iff_forall_not_mem.mpr fun g hg => ?_
    have hmem := (hkeys g).mp hg
    rw [hnone] at hmem
    cases hmem
  · intro hnil
    refine ⟨fun action haction => ?_, fun refresh' => ?_, fun _ => hnone, fun _ _ _ _ => hnone⟩
    · simp [accessControlMutationEnforced, hdisabled] at haction
    · obtain ⟨state, hok⟩ := hreturned refresh'
      refine ⟨_, state, hok, fun g => ?_⟩
      rw [hnil, hnone]

end Shown

/-- **What is shown is what is enforced** exactly under the condition, for a state that an evaluation has
stored and at any later time. -/
theorem access_shown_iff (env : AccessEnv) (now t userID : Int) (refresh : Bool) (user : AccessUser)
    (rows : AccessTable) (s : UserSiteAccessState) (rows' : AccessTable) (huser : env.user userID = .ok user)
    (h : env.Stores now userID refresh rows s rows') :
    s.Shown env t userID user rows' ↔
      env.ShowsEnforced userID user (overrideOf (getUserSiteAccessState env.siteID userID rows)) := by
  cases henabled : env.cfg.get.enabled with
  | true => exact h.shown_iff_of_enabled henabled huser
  | false =>
    have hoff : env.cfg.enabled = false := henabled
    rw [h.shown_iff_of_disabled henabled]
    exact (iff_of_eq (if_pos hoff)).symm

/-! ## A user of a primary room -/

/-- A site with two usable groups, whose users are all bound to a primary room. -/
def sampleAccessEnv (fullAccessGroups : List String) : AccessEnv where
  siteID := "prox"
  equalFold s t := toLowerAscii s = toLowerAscii t
  cfg :=
    { enabled := true
      primaryPlatform := "qq"
      communityOnlyGroups := []
      fullAccessGroups := fullAccessGroups
      paidBypassGroups := []
      paidUserGroups := []
      allowPaidBypass := false
      allowAdminBypass := true
      blockTokenCreate := true
      blockTokenEnable := true
      stateCacheTTLSeconds := 900
      denyMessage := ""
      upgradeMessage := "" }
  userUsableGroups := (Dict.empty.set "default" "默认分组").set "vip" "vip分组"
  groupSpecialUsableGroup _ := none
  user _ := .ok ⟨1, "default"⟩
  primaryGroupIDs := []
  chatBindings _ := .ok ["100200"]
  community _ := .ok ⟨true, true, true⟩

/-- The user's access is evaluated and stored. -/
theorem sampleAccessEnv_stores (fullAccessGroups : List String)
    (h : (evaluateUserAccessControl (sampleAccessEnv fullAccessGroups) 0 7 true .empty).1.toOption.isSome = true) :
    ∃ s rows', (sampleAccessEnv fullAccessGroups).Stores 0 7 true .empty s rows' := by
  obtain ⟨s, hs⟩ := isSome_iff_exists.mp h
  refine ⟨s, _, Prod.ext (eq_ok_of_toOption hs) rfl, fun _ => rfl, by decide, ?_⟩
  show trimSpace "prox" ≠ ""
  decide +kernel

/-- **A group that is not shown is accepted.** The only full-access group is not usable for the user, so the
stored state has no groups, and a token is accepted for every usable one. -/
theorem unusable_list_not_shown :
    ∃ s rows', (sampleAccessEnv ["svip"]).Stores 0 7 true .empty s rows' ∧
      ¬ s.Shown (sampleAccessEnv ["svip"]) 0 7 ⟨1, "default"⟩ rows' := by
  obtain ⟨s, rows', h⟩ := sampleAccessEnv_stores ["svip"] (by decide +kernel)
  refine ⟨s, rows', h, fun hshown => ?_⟩
  exact absurd ((h.shown_iff_of_enabled rfl rfl).mp hshown) (by decide +kernel)

/-- A usable full-access group is shown and enforced. -/
theorem access_shown_iff_usable :
    ∃ s rows', (sampleAccessEnv ["vip"]).Stores 0 7 true .empty s rows' ∧
      s.Shown (sampleAccessEnv ["vip"]) 0 7 ⟨1, "default"⟩ rows' := by
  obtain ⟨s, rows', h⟩ := sampleAccessEnv_stores ["vip"] (by decide +kernel)
  refine ⟨s, rows', h, ?_⟩
  exact (access_shown_iff (sampleAccessEnv ["vip"]) 0 0 7 true ⟨1, "default"⟩ .empty s rows' rfl h).mpr
    (by decide +kernel)

end Prox
