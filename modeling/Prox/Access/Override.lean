import Prox.Access.Grace
import Prox.Lib.Threads

/-! # Overrides of administrators

The override of a user lives in the row that every evaluation rewrites as a whole, and the bypass of a
membership in the row that every event of the identity rewrites. Evaluations read and write in separate steps.
The override lasts while every evaluation that writes has read it, with access control on, and no event deletes
the row; the bypass lasts while no event of the identity is delivered. -/

namespace Prox

open Option

/-! ## Setting and clearing -/

/-- The override that a call stores. -/
def accessOverride (mode : String) (groups : List String) (reason : String) : AccessOverride :=
  ⟨trimSpace mode, normalizeStringSlice groups, trimSpace reason⟩

/-- The assignment of an override to access states, at a time in seconds. -/
def UserSiteAccessState.override (o : AccessOverride) (now : Int) : Patch UserSiteAccessState where
  apply row := { row with
    manualOverrideMode := o.mode, manualOverrideGroups := o.groups, manualOverrideReason := o.reason, updatedAt := now }
  id_apply _ := rfl
  key_apply _ := rfl

/-- `SetUserSiteAccessOverride`, at a time in seconds. -/
def setUserSiteAccessOverride (siteID : String) (userID : Int) (mode : String) (groups : List String)
    (reason : String) (now : Int) (rows : AccessTable) : Except Err Unit × AccessTable :=
  if userID ≤ 0 then (.error (.text "invalid user id"), rows)
  else if trimSpace siteID = "" then (.error (.text "site_id is required"), rows)
  else
    let o := accessOverride mode groups reason
    let (updated, rowsAffected) :=
      rows.updateWhere (Row.key · = (trimSpace siteID, userID)) (UserSiteAccessState.override o now)
    if 0 < rowsAffected then (.ok (), updated)
    else
      let row : UserSiteAccessState :=
        { id := rows.nextId, siteId := trimSpace siteID, userId := userID, accessLevel := .none
          manualOverrideMode := o.mode, manualOverrideGroups := o.groups, manualOverrideReason := o.reason
          lastEvaluatedAt := 0, createdAt := now, updatedAt := now }
      match rows.create row with
      | none => (.error (.sentinel .duplicatedKey), rows)
      | some rows => (.ok (), rows)

/-- `ClearUserSiteAccessOverride`, at a time in seconds. -/
def clearUserSiteAccessOverride (siteID : String) (userID now : Int) (rows : AccessTable) :
    Except Err Unit × AccessTable :=
  if userID ≤ 0 then (.error (.text "invalid user id"), rows)
  else
    (.ok (), (rows.updateWhere (Row.key · = (trimSpace siteID, userID)) (UserSiteAccessState.override {} now)).1)

/-! ## Evaluations in steps -/

/-- An evaluation of a user's access with what it knows: its settings and the site, the time in nanoseconds at
which it has started, the user that it has read and the override that it has read. -/
inductive AccessThread where
  | start (env : AccessEnv) (userID : Int) (refresh : Bool)
  /-- Access control is off: the row is about to be written. -/
  | disabled (env : AccessEnv) (now userID : Int)
  | cached (env : AccessEnv) (now userID : Int) (user : AccessUser) (refresh : Bool)
  | existing (env : AccessEnv) (now userID : Int) (user : AccessUser)
  /-- The row is about to be computed and written. -/
  | write (env : AccessEnv) (now userID : Int) (user : AccessUser) (o : AccessOverride)
  | done (result : Except Err UserSiteAccessState)

/-- A step of `evaluateUserAccessControl`, at a time in nanoseconds; `fault` is an error of a read of the row,
which counts as no row. -/
def AccessThread.step (fault : Bool) (now : Int) (t : AccessThread) (rows : AccessTable) : AccessThread × AccessTable :=
  let read (env : AccessEnv) (userID : Int) :=
    if fault then none else getUserSiteAccessState env.siteID userID rows
  match t with
  | .start env userID refresh =>
    if env.cfg.get.enabled = false then (.disabled env now userID, rows)
    else
      match env.user userID with
      | .error err => (.done (.error err), rows)
      | .ok user => (.cached env now userID user refresh, rows)
  | .disabled env began userID =>
    let state := disabledAccessState env (unixSeconds began) userID
    match upsertUserSiteAccessState state (unixSeconds now) rows with
    | .ok (state, rows) => (.done (.ok state), rows)
    | .error _ => (.done (.ok state), rows)
  | .cached env began userID user refresh =>
    if refresh then (.existing env began userID user, rows)
    else
      match (read env userID).filter (accessControlStateFresh env.cfg.get · now) with
      | some row => (.done (.ok row), rows)
      | none => (.existing env began userID user, rows)
  | .existing env began userID user => (.write env began userID user (overrideOf (read env userID)), rows)
  | .write env began userID user o =>
    match computeAccessState env (unixSeconds began) userID user o with
    | .error err => (.done (.error err), rows)
    | .ok state =>
      match upsertUserSiteAccessState state (unixSeconds now) rows with
      | .error err => (.done (.error err), rows)
      | .ok (state, rows) => (.done (.ok state), rows)
  | .done result => (.done result, rows)

/-- The tables, and the evaluations that run. -/
structure AccessSystem where
  db : MembershipDb
  threads : List AccessThread

/-- The tables of access states and the evaluations as a pool of threads. -/
def AccessSystem.pool (s : AccessSystem) : Pool AccessTable AccessThread := ⟨s.db.access, s.threads⟩

/-- A step of an evaluation. -/
def AccessSystem.stepThread (s : AccessSystem) (thread : Nat) (fault : Bool) (now : Int) : AccessSystem :=
  let pool := s.pool.stepAt (AccessThread.step fault now) thread
  { db := { s.db with access := pool.shared }, threads := pool.threads }

/-- What happens: evaluations start and make steps, administrators set and clear overrides and bypasses, events
are delivered, and grace periods end. -/
inductive AccessEvent where
  | evaluate (access : AccessEnv) (userID : Int) (refresh : Bool)
  | step (thread : Nat) (fault : Bool) (now : Int)
  | set (userID : Int) (mode : String) (groups : List String) (reason : String) (now : Int)
  | clear (userID now : Int)
  | deliver (d : MembershipDelivery)
  | expire (access : AccessEnv) (now : Int) (order : List Int → List Int)
  | bypass (id : Int) (reason : String) (untilHours now : Int) (metadataJson : String)
  | clearBypass (id : Int) (reason : String) (now : Int) (metadataJson : String)

/-- An event as a step. The evaluations that it causes start as threads of their own; the freezes after them
touch only tokens. -/
def MembershipEnv.happen (env : MembershipEnv) (s : AccessSystem) : AccessEvent → AccessSystem
  | .evaluate access userID refresh =>
    { s with threads := s.threads ++ [.start (env.reads access) userID refresh] }
  | .step thread fault now => s.stepThread thread fault now
  | .set userID mode groups reason now =>
    let access := (setUserSiteAccessOverride env.siteID userID mode groups reason now s.db.access).2
    { s with db := { s.db with access } }
  | .clear userID now =>
    { s with db := { s.db with access := (clearUserSiteAccessOverride env.siteID userID now s.db.access).2 } }
  | .deliver d =>
    match recordMembershipEvent env d s.db with
    | (.error _, db) => { s with db }
    | (.ok (_, _, _, userID), db) =>
      { db, threads := s.threads ++ if 0 < userID then [.start (env.reads d.access) userID true] else [] }
  | .expire access now order =>
    let users := dueUserIDs env.siteID (unixSeconds now) s.db.states
    let states := (expireChatMembershipGrace env.siteID (unixSeconds now) env.cfg.get.dryRun s.db.states).2
    { db := { s.db with states }
      threads := s.threads ++
        if env.cfg.get.dryRun then [] else (order users).map fun userID => .start (env.reads access) userID true }
  | .bypass id reason untilHours now metadataJson =>
    let states := (bypassChatMembershipState env.siteID id reason untilHours now metadataJson s.db.states).2
    { s with db := { s.db with states } }
  | .clearBypass id reason now metadataJson =>
    let states := (clearChatMembershipBypass env.siteID id reason now metadataJson s.db.states).2
    { s with db := { s.db with states } }

/-! ## The properties and their conditions -/

/-- The override that is stored for a user. -/
def Overridden (siteID : String) (userID : Int) (o : AccessOverride) (rows : AccessTable) : Prop :=
  ∃ row, rows.byKey (trimSpace siteID, userID) = some row ∧
    row.manualOverrideMode = o.mode ∧ row.manualOverrideGroups = o.groups ∧ row.manualOverrideReason = o.reason

/-- The state under a key is bypassed. -/
def Bypassed (k : MembershipKey) (states : Table ChatMembershipState) : Prop :=
  ∃ row, states.byKey k = some row ∧ row.status = .manualBypass

/-- The delivery of an event deletes the access state of a user. -/
def MembershipDelivery.Deletes (env : MembershipEnv) (db : MembershipDb) (d : MembershipDelivery) (userID : Int) : Prop :=
  ∃ input, d.Accepted env db input userID ∧ 0 < userID ∧ (input.eventType.leaves = true → env.cfg.dryRun = false)

/-- An evaluation that writes the row of a user has been made with access control on and has read the override
that is stored. -/
def AccessThread.Carries (t : AccessThread) (siteID : String) (userID : Int) (rows : AccessTable) : Prop :=
  match t with
  | .disabled env _ user => (trimSpace env.siteID, user) ≠ (trimSpace siteID, userID)
  | .write env _ user _ o => (trimSpace env.siteID, user) = (trimSpace siteID, userID) →
      o = overrideOf (getUserSiteAccessState siteID userID rows)
  | _ => True

/-- The condition of an override: evaluations that write have read it, no event deletes the row, and no
administrator sets or clears another one. -/
def KeepsOverride (env : MembershipEnv) (userID : Int) (s : AccessSystem) : AccessEvent → Prop
  | .step thread _ _ => ∀ t, s.threads[thread]? = some t → t.Carries env.siteID userID s.db.access
  | .set user _ _ _ _ | .clear user _ => user ≠ userID
  | .deliver d => ¬ d.Deletes env s.db userID
  | _ => True

/-- The condition of a bypass: no event of the identity is delivered, and no administrator clears it. -/
def KeepsBypass (env : MembershipEnv) (k : MembershipKey) (s : AccessSystem) : AccessEvent → Prop
  | .deliver d => ∀ input userID, d.Accepted env s.db input userID → input.key env.siteID ≠ k
  | .clearBypass id _ _ _ => ∀ row, s.db.states.byKey k = some row → row.id ≠ id
  | _ => True

/-! ## Overrides -/

variable {now userID : Int}

section Overrides

variable {env : MembershipEnv} {siteID mode reason : String} {groups : List String}
  {o : AccessOverride} {rows rows' : AccessTable}

/-- An override that is stored as a call stores it. -/
structure AccessOverride.Normal (o : AccessOverride) : Prop where
  mode : trimSpace o.mode = o.mode
  groups : normalizeStringSlice o.groups = o.groups
  reason : trimSpace o.reason = o.reason

theorem accessOverride_normal (mode : String) (groups : List String) (reason : String) :
    (accessOverride mode groups reason).Normal :=
  ⟨trimSpace_trimSpace mode, normalizeStringSlice_normalizeStringSlice groups, trimSpace_trimSpace reason⟩

/-- A call that succeeds stores its override. -/
theorem setUserSiteAccessOverride_ok
    (h : setUserSiteAccessOverride siteID userID mode groups reason now rows = (.ok (), rows')) :
    Overridden siteID userID (accessOverride mode groups reason) rows' := by
  unfold setUserSiteAccessOverride at h
  split at h
  · cases h
  · split at h
    · cases h
    · dsimp only at h
      split at h
      · next hrows =>
        cases h
        obtain ⟨row, hrow, hkey⟩ := Table.exists_of_rowsAffected_ne_zero (Nat.ne_of_gt hrows)
        have hfound := Table.byKey_eq_some.mpr ⟨hrow, of_decide_eq_true hkey⟩
        refine ⟨(UserSiteAccessState.override (accessOverride mode groups reason) now).apply row, ?_, rfl, rfl, rfl⟩
        rw [Table.byKey_updateWhere_key, if_pos rfl, hfound]
        rfl
      · split at h
        · cases h
        · next hcreate =>
          cases h
          exact ⟨_, (Table.byKey_of_create hcreate _).trans (if_pos rfl), rfl, rfl, rfl⟩

/-- A stored override is what an evaluation reads. -/
theorem Overridden.read (h : Overridden siteID userID o rows) (ho : o.Normal) :
    overrideOf (getUserSiteAccessState siteID userID rows) = o := by
  obtain ⟨row, hrow, hmode, hgroups, hreason⟩ := h
  unfold getUserSiteAccessState overrideOf
  rw [hrow]
  dsimp only
  rw [hmode, hgroups, hreason, ho.mode, ho.reason]

theorem Overridden.of_byKey (h : Overridden siteID userID o rows)
    (hrow : rows'.byKey (trimSpace siteID, userID) = rows.byKey (trimSpace siteID, userID)) :
    Overridden siteID userID o rows' := by
  unfold Overridden
  rw [hrow]
  exact h

/-- The override columns of a state that is computed are the ones of the override that was read. -/
theorem computeAccessState_override {env : AccessEnv} {user : AccessUser} {t : Int} {s : UserSiteAccessState}
    (h : computeAccessState env t userID user o = .ok s) :
    s.manualOverrideMode = o.mode ∧ s.manualOverrideGroups = o.groups ∧ s.manualOverrideReason = o.reason := by
  obtain ⟨st, hst, h⟩ := bind_eq_ok.mp h
  obtain ⟨-, hsame⟩ := decideAccessLevel_ok hst
  rw [pure_eq_ok] at h
  rw [← h]
  split <;> exact ⟨hsame.manualOverrideMode, hsame.manualOverrideGroups, hsame.manualOverrideReason⟩

/-- A step of an evaluation keeps an override that the evaluation carries. -/
theorem AccessThread.step_keeps_override {t : AccessThread} {fault : Bool} (ho : o.Normal)
    (h : Overridden siteID userID o rows) (hcarries : t.Carries siteID userID rows) :
    Overridden siteID userID o (t.step fault now rows).2 := by
  cases t with
  | start access user refresh =>
    unfold AccessThread.step
    dsimp only
    split
    · exact h
    · split <;> exact h
  | disabled access began user =>
    unfold AccessThread.step
    dsimp only
    split
    · next hupsert => exact h.of_byKey (upsertUserSiteAccessState_others hupsert (Ne.symm hcarries))
    · exact h
  | cached access began user u refresh =>
    unfold AccessThread.step
    dsimp only
    split
    · exact h
    · split <;> exact h
  | existing access began user u => exact h
  | write access began user u read =>
    unfold AccessThread.step
    dsimp only
    split
    · exact h
    · next state hcompute =>
      obtain ⟨hsite, huser⟩ := computeAccessState_key hcompute
      split
      · exact h
      · next s rows'' hupsert =>
        by_cases hkey : (trimSpace access.siteID, user) = (trimSpace siteID, userID)
        · -- the evaluation writes back the override that it has read, which is the stored one
          have hread : read = o := (hcarries hkey).trans (h.read ho)
          obtain ⟨hmode, hgroups, hreason⟩ := computeAccessState_override hcompute
          obtain ⟨-, id, createdAt, hrow⟩ := upsertUserSiteAccessState_ok hupsert
          rw [hsite, huser, hkey] at hrow
          refine ⟨_, hrow, ?_, ?_, ?_⟩
          · exact (congrArg trimSpace (hmode.trans (congrArg _ hread))).trans ho.mode
          · exact (congrArg normalizeStringSlice (hgroups.trans (congrArg _ hread))).trans ho.groups
          · exact hreason.trans (congrArg _ hread)
        · refine h.of_byKey (upsertUserSiteAccessState_others hupsert ?_)
          rw [hsite, huser]
          exact Ne.symm hkey
  | done result => exact h

/-- A call for another user keeps the override. -/
theorem setUserSiteAccessOverride_others {user : Int} (hne : user ≠ userID)
    (h : Overridden siteID userID o rows) :
    Overridden siteID userID o (setUserSiteAccessOverride siteID user mode groups reason now rows).2 := by
  have hkey : (trimSpace siteID, userID) ≠ (trimSpace siteID, user) := fun heq => hne (Prod.mk.inj heq).2.symm
  unfold setUserSiteAccessOverride
  split
  · exact h
  · split
    · exact h
    · dsimp only
      split
      · exact h.of_byKey ((Table.byKey_updateWhere_key _ _).trans (if_neg hkey))
      · split
        · exact h
        · next hcreate => exact h.of_byKey ((Table.byKey_of_create hcreate _).trans (if_neg (Ne.symm hkey)))

/-- The clearing of another user's override keeps the override. -/
theorem clearUserSiteAccessOverride_others {user : Int} (hne : user ≠ userID)
    (h : Overridden siteID userID o rows) :
    Overridden siteID userID o (clearUserSiteAccessOverride siteID user now rows).2 := by
  have hkey : (trimSpace siteID, userID) ≠ (trimSpace siteID, user) := fun heq => hne (Prod.mk.inj heq).2.symm
  unfold clearUserSiteAccessOverride
  split
  · exact h
  · exact h.of_byKey ((Table.byKey_updateWhere_key _ _).trans (if_neg hkey))

end Overrides

/-! ## Events -/

variable {k : MembershipKey}

section Records

variable {env : MembershipEnv} {d : MembershipDelivery} {db db' : MembershipDb}

/-- An event that is refused changes nothing. -/
theorem recordMembershipEvent_error {err : Err} (h : recordMembershipEvent env d db = (.error err, db')) : db' = db := by
  unfold recordMembershipEvent at h
  split at h
  · cases h
    rfl
  · next input userID hinput =>
    split at h
    · next hupsert =>
      cases h
      unfold upsertChatMembershipEvent at hupsert
      split at hupsert
      · cases hupsert
        rfl
      · dsimp only at hupsert
        split at hupsert <;> cases hupsert
    · cases h

/-- An event that is recorded is accepted; it changes the access state of its user at most by deleting it, and
the membership state of its identity alone. -/
theorem recordMembershipEvent_ok {event : ChatMembershipEvent} {inserted : Bool}
    {input : ChatMembershipEventInput}
    (h : recordMembershipEvent env d db = (.ok (event, inserted, input, userID), db')) :
    d.Accepted env db input userID ∧
      (db'.access = db.access ∨ (0 < userID ∧ (input.eventType.leaves = true → env.cfg.dryRun = false) ∧
        db'.access = deleteUserSiteAccessState env.siteID userID db.access)) ∧
      ∀ k ≠ input.key env.siteID, db'.states.byKey k = db.states.byKey k := by
  unfold recordMembershipEvent at h
  split at h
  · cases h
  · next input' userID' hinput =>
    split at h
    · cases h
    · next event' inserted' db₁ hupsert =>
      cases h
      have hblank : trimSpace input.eventID ≠ "" := by
        intro hblank
        unfold upsertChatMembershipEvent at hupsert
        rw [if_pos hblank] at hupsert
        cases hupsert
      have hkept : db₁.access = db.access ∧
          ∀ k ≠ input.key env.siteID, db₁.states.byKey k = db.states.byKey k := by
        unfold upsertChatMembershipEvent at hupsert
        rw [if_neg hblank] at hupsert
        dsimp only at hupsert
        split at hupsert
        · cases hupsert
          exact ⟨rfl, fun _ _ => rfl⟩
        · cases hupsert
          exact ⟨rfl, (byKey_upsertChatMembershipState env (unixSeconds d.now) input _ db.states).2⟩
      refine ⟨⟨hinput, hblank⟩, ?_, fun k hk => ?_⟩
      · unfold applyMembershipSideEffects
        dsimp only
        split
        · next hleaves =>
          split
          · next huser =>
            exact .inr ⟨huser.1, fun _ => huser.2, congrArg (deleteUserSiteAccessState env.siteID userID) hkept.1⟩
          · exact .inl hkept.1
        · next hstays =>
          split
          · next huser =>
            exact .inr ⟨huser, fun hleaves => absurd hleaves hstays,
              congrArg (deleteUserSiteAccessState env.siteID userID) hkept.1⟩
          · exact .inl hkept.1
      · rw [(applyMembershipSideEffects_states env d.access.user (unixSeconds d.now) input userID db₁).2,
          Table.byKey_updateWhere_key, if_neg hk]
        exact hkept.2 k hk

/-- An event that does not delete the row of a user keeps the user's override. -/
theorem recordMembershipEvent_keeps_override {o : AccessOverride}
    (h : Overridden env.siteID userID o db.access) (hnot : ¬ d.Deletes env db userID) :
    Overridden env.siteID userID o (recordMembershipEvent env d db).2.access := by
  rcases hrecord : recordMembershipEvent env d db with ⟨err | ⟨event, inserted, input, user⟩, db'⟩
  · rw [recordMembershipEvent_error hrecord]
    exact h
  · obtain ⟨hacc, haccess, -⟩ := recordMembershipEvent_ok hrecord
    rcases haccess with heq | ⟨hpos, hdry, heq⟩
    · exact heq ▸ h
    · have hne : user ≠ userID := by
        rintro rfl
        exact hnot ⟨input, hacc, hpos, hdry⟩
      refine h.of_byKey ?_
      rw [heq, deleteUserSiteAccessState, Table.byKey_deleteWhere_key, if_neg]
      exact fun hkey => hne (Prod.mk.inj hkey).2.symm

/-- An event of another identity keeps a bypass. -/
theorem recordMembershipEvent_keeps_bypass (h : Bypassed k db.states)
    (hnot : ∀ input userID, d.Accepted env db input userID → input.key env.siteID ≠ k) :
    Bypassed k (recordMembershipEvent env d db).2.states := by
  rcases hrecord : recordMembershipEvent env d db with ⟨err | ⟨event, inserted, input, user⟩, db'⟩
  · rw [recordMembershipEvent_error hrecord]
    exact h
  · obtain ⟨hacc, -, hstates⟩ := recordMembershipEvent_ok hrecord
    unfold Bypassed
    rw [hstates k (Ne.symm (hnot input user hacc))]
    exact h

end Records

/-! ## Runs -/

section Runs

variable {env : MembershipEnv} {s : AccessSystem} {e : AccessEvent}

/-- The tables after the delivery of an event. -/
theorem happen_deliver (d : MembershipDelivery) :
    (env.happen s (.deliver d)).db = (recordMembershipEvent env d s.db).2 := by
  rw [MembershipEnv.happen]
  rcases recordMembershipEvent env d s.db with ⟨err | ⟨event, inserted, input, user⟩, db'⟩ <;> rfl

/-- A step that meets the condition keeps an override. -/
theorem happen_keeps_override {o : AccessOverride} (ho : o.Normal)
    (h : Overridden env.siteID userID o s.db.access) (he : KeepsOverride env userID s e) :
    Overridden env.siteID userID o (env.happen s e).db.access := by
  cases e with
  | step thread fault now =>
    refine Pool.stepAt_elim (P := fun p : Pool AccessTable AccessThread => Overridden env.siteID userID o p.shared)
      (fun _ => h) fun t ht => ?_
    exact AccessThread.step_keeps_override ho h (he t ht)
  | set user mode groups reason now => exact setUserSiteAccessOverride_others he h
  | clear user now => exact clearUserSiteAccessOverride_others he h
  | deliver d =>
    rw [happen_deliver]
    exact recordMembershipEvent_keeps_override h he
  | evaluate _ _ _ | expire _ _ _ | bypass _ _ _ _ _ | clearBypass _ _ _ _ => exact h

/-- An update of states that are not bypassed, or that leaves them bypassed, keeps a bypass. -/
theorem Bypassed.updateWhere {states : Table ChatMembershipState} (h : Bypassed k states)
    {p : ChatMembershipState → Bool} {f : Patch ChatMembershipState}
    (hf : ∀ row, states.byKey k = some row → row.status = .manualBypass → p row = true →
      (f.apply row).status = .manualBypass) : Bypassed k (states.updateWhere p f).1 := by
  obtain ⟨row, hrow, hstatus⟩ := h
  refine ⟨if p row then f.apply row else row, by rw [Table.byKey_updateWhere, hrow, map_some], ?_⟩
  split
  · next hp => exact hf row hrow hstatus hp
  · exact hstatus

/-- A step that meets the condition keeps a bypass. -/
theorem happen_keeps_bypass (h : Bypassed k s.db.states) (he : KeepsBypass env k s e) :
    Bypassed k (env.happen s e).db.states := by
  cases e with
  | deliver d =>
    rw [happen_deliver]
    exact recordMembershipEvent_keeps_bypass h he
  | expire access now order =>
    show Bypassed k (expireChatMembershipGrace env.siteID (unixSeconds now) env.cfg.get.dryRun s.db.states).2
    unfold expireChatMembershipGrace
    split
    · exact h
    · refine h.updateWhere fun row _ hstatus hexp => ?_
      -- only states in grace expire
      have hgrace : row.status = .grace := (of_decide_eq_true hexp).2.1
      rw [hstatus] at hgrace
      cases hgrace
  | bypass id reason untilHours now metadataJson =>
    show Bypassed k (bypassChatMembershipState env.siteID id reason untilHours now metadataJson s.db.states).2
    unfold bypassChatMembershipState
    split
    · exact h
    · have hkept := h.updateWhere (p := fun s => s.siteId = env.siteID ∧ s.id = id)
        (f := ChatMembershipState.bypass reason (bypassUntil untilHours now) (unixSeconds now) metadataJson)
        fun _ _ _ _ => rfl
      dsimp only
      split <;> exact hkept
  | clearBypass id reason now metadataJson =>
    show Bypassed k (clearChatMembershipBypass env.siteID id reason now metadataJson s.db.states).2
    unfold clearChatMembershipBypass
    split
    · exact h
    · split
      · exact h
      · next current _ =>
        have hkept := h.updateWhere (p := fun s => s.siteId = env.siteID ∧ s.id = id)
          (f := ChatMembershipState.clearBypass (current.clearedStatus now) reason now metadataJson)
          fun row hrow _ hid => absurd (of_decide_eq_true hid).2 (he row hrow)
        dsimp only
        split <;> exact hkept
  | step _ _ _ | set _ _ _ _ _ | clear _ _ | evaluate _ _ _ => exact h

/-- A call that succeeds bypasses its state. -/
theorem bypassChatMembershipState_ok {siteID reason metadataJson : String} {id untilHours : Int}
    {states states' : Table ChatMembershipState} {state : ChatMembershipState}
    (h : bypassChatMembershipState siteID id reason untilHours now metadataJson states = (.ok state, states')) :
    Bypassed (Row.key state) states' := by
  unfold bypassChatMembershipState at h
  split at h
  · cases h
  · dsimp only at h
    split at h
    · cases h
    · next hfound =>
      cases h
      obtain ⟨hfound, hsite⟩ := filter_eq_some_iff.mp hfound
      obtain ⟨hmem, hid⟩ := Table.byId_eq_some.mp hfound
      refine ⟨state, Table.byKey_eq_some.mpr ⟨hmem, rfl⟩, ?_⟩
      obtain ⟨row, hrow, hstate⟩ := List.mem_map.mp hmem
      have hrow_id : row.id = id := by
        rw [← hid, ← hstate]
        split <;> rfl
      have hrow_site : row.siteId = siteID := by
        rw [← of_decide_eq_true hsite, ← hstate]
        split <;> rfl
      rw [if_pos (decide_eq_true ⟨hrow_site, hrow_id⟩)] at hstate
      rw [← hstate]
      rfl

end Runs

/-- **What administrators decide lasts**: after a call that sets an override, the override is stored in every
state of a run whose steps carry it and do not delete it; after a call that bypasses a membership, it is
bypassed in every state of a run without an event of the identity and without its clearing. -/
theorem decisions_last (env : MembershipEnv) (s : AccessSystem) (es : List AccessEvent) :
    (∀ userID mode groups reason now rows,
      setUserSiteAccessOverride env.siteID userID mode groups reason now s.db.access = (.ok (), rows) →
      Along env.happen (KeepsOverride env userID) { s with db := { s.db with access := rows } } es →
      Overridden env.siteID userID (accessOverride mode groups reason)
        (run env.happen { s with db := { s.db with access := rows } } es).db.access) ∧
    ∀ id reason untilHours now metadataJson state states,
      bypassChatMembershipState env.siteID id reason untilHours now metadataJson s.db.states = (.ok state, states) →
      Along env.happen (KeepsBypass env (Row.key state)) { s with db := { s.db with states } } es →
      Bypassed (Row.key state) (run env.happen { s with db := { s.db with states } } es).db.states := by
  constructor
  · intro userID mode groups reason now rows hset hes
    exact run_keeps_along
      (I := fun s : AccessSystem => Overridden env.siteID userID (accessOverride mode groups reason) s.db.access)
      (fun _ _ h he => happen_keeps_override (accessOverride_normal mode groups reason) h he)
      (setUserSiteAccessOverride_ok hset) hes
  · intro id reason untilHours now metadataJson state states hbypass hes
    exact run_keeps_along (I := fun s : AccessSystem => Bypassed (Row.key state) s.db.states)
      (fun _ _ h he => happen_keeps_bypass h he) (bypassChatMembershipState_ok hbypass) hes

/-! ## A lifted denial -/

/-- A denied user, before anything else happens. -/
def deniedSystem : AccessSystem :=
  ⟨{ emptyMembershipDb with access := (setUserSiteAccessOverride "prox" 7 "none" [] "abuse" 900 .empty).2 }, []⟩

/-- A whole evaluation of the denied user keeps the denial. -/
theorem decisions_last_evaluated :
    Overridden "prox" 7 (accessOverride "none" [] "abuse")
      (run sampleMembership.happen deniedSystem
        [.evaluate (sampleAccessEnv []) 7 true, .step 0 false 0, .step 0 false 0, .step 0 false 0,
         .step 0 false 0]).db.access := by
  refine (decisions_last sampleMembership ⟨emptyMembershipDb, []⟩ _).1 7 "none" [] "abuse" 900 _ rfl
    ⟨trivial, ?_, ?_, ?_, ?_, trivial⟩
  · intro t ht
    cases ht
    trivial
  · intro t ht
    cases ht
    trivial
  · intro t ht
    cases ht
    trivial
  · intro t ht
    cases ht
    intro _
    decide +kernel

/-- A join of a denied user, and an evaluation while access control is off, lift the denial; a join ends a
bypass. -/
theorem join_lifts_denial :
    ¬ Overridden "prox" 7 (accessOverride "none" [] "abuse")
        (run sampleMembership.happen deniedSystem [.deliver (sampleDelivery "join-1" "join" 200)]).db.access ∧
    ¬ Overridden "prox" 7 (accessOverride "none" [] "abuse")
        (run sampleMembership.happen deniedSystem
          [.evaluate { sampleAccessEnv [] with cfg := { (sampleAccessEnv []).cfg with enabled := false } } 7 true,
           .step 0 false 0, .step 0 false 0]).db.access ∧
    ¬ Bypassed sampleMembershipKey
        (run sampleMembership.happen deniedSystem
          [.deliver (sampleDelivery "leave-1" "leave" 100), .bypass 1 "trusted" 0 (900 * nanosPerSecond) "",
           .deliver (sampleDelivery "join-1" "join" 200)]).db.states := by
  refine ⟨?_, ?_, ?_⟩
  · rintro ⟨row, hrow, -⟩
    have hnone : (run sampleMembership.happen deniedSystem
        [.deliver (sampleDelivery "join-1" "join" 200)]).db.access.byKey (trimSpace "prox", 7) = none := by
      decide +kernel
    rw [hnone] at hrow
    cases hrow
  · rintro ⟨row, hrow, hmode, -⟩
    have hlost : ((run sampleMembership.happen deniedSystem
        [.evaluate { sampleAccessEnv [] with cfg := { (sampleAccessEnv []).cfg with enabled := false } } 7 true,
         .step 0 false 0, .step 0 false 0]).db.access.byKey (trimSpace "prox", 7)).map (·.manualOverrideMode)
          = some "" := by decide +kernel
    rw [hrow, map_some, hmode] at hlost
    exact absurd hlost (by decide +kernel)
  · rintro ⟨row, hrow, hstatus⟩
    have hactive : ((run sampleMembership.happen deniedSystem
        [.deliver (sampleDelivery "leave-1" "leave" 100), .bypass 1 "trusted" 0 (900 * nanosPerSecond) "",
         .deliver (sampleDelivery "join-1" "join" 200)]).db.states.byKey sampleMembershipKey).map (·.status)
          = some .active := by decide +kernel
    rw [hrow, map_some, hstatus] at hactive
    cases hactive

end Prox
