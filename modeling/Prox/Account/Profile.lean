import Prox.Access.Control
import Prox.Lib.Threads
import Prox.Reward.InvitationCost
import Prox.Subscription.Groups

/-! # Saving a profile

`User.Update` writes every field of a `model.User` value that is not zero, except three counters. Most
callers load the row, change one field and save the whole copy, so a save also writes the role, the
status, the group and the invitation columns as they were when the row was loaded. The main result says
when this does no harm: as long as every copy still agrees with the row in these columns, profiles and
rights do not interfere.

The columns of `users` are spread over the tables of the operations that use them: the wallet has the
group, `UserAff` the invitation columns and `UserProfile` the others. Columns that no operation here looks
at are left out. -/

namespace Prox

open List Option

/-! ## Rows -/

def roleCommonUser : Int := 1
def roleRootUser : Int := 100

def userStatusEnabled : Int := 1
def userStatusDisabled : Int := 2

/-- The columns of a user that are in no other table. `deleted` says that `deleted_at` is set. -/
structure UserProfile where
  id : Int
  username : String
  password : String := ""
  displayName : String := ""
  role : Int := roleCommonUser
  status : Int := userStatusEnabled
  email : String := ""
  accessToken : Option String := none
  affCode : String := ""
  setting : String := ""
  deleted : Bool := false

/-- The unique columns are not modelled: a name that is taken is a fault of the statement. -/
instance : Row UserProfile Int := ⟨UserProfile.id, UserProfile.id⟩

/-- The tables behind a user account. -/
structure AccountDB where
  invite : InviteDB
  subscriptions : SubscriptionDB
  orders : Table SubscriptionOrder
  profiles : Table UserProfile

namespace AccountDB

/-- The tables of the subscriptions. -/
def purchases (db : AccountDB) : PurchaseDB := ⟨db.invite.reward.wallet, db.subscriptions, db.orders⟩

/-- Replaces the tables of the subscriptions. -/
def setPurchases (db : AccountDB) (p : PurchaseDB) : AccountDB :=
  { db with
    invite := { db.invite with reward := { db.invite.reward with wallet := p.wallet } }
    subscriptions := p.subscriptions
    orders := p.orders }

end AccountDB

/-- What a user may do and owns beside the wallet. -/
structure UserRights where
  role : Int
  status : Int
  group : String
  affQuota : Int
  affCount : Int
  affHistory : Int

/-- The rights of a user. -/
def AccountDB.rights (db : AccountDB) (id : Int) : Option UserRights := do
  let p ← db.profiles.byId id
  let u ← db.invite.reward.wallet.users.byId id
  let a ← db.invite.affs.byId id
  return { role := p.role, status := p.status, group := u.group, affQuota := a.affQuota
           affCount := a.affCount, affHistory := a.affHistory }

/-! ## Loading and saving -/

/-- A `model.User` value. -/
structure UserCopy where
  id : Int
  username : String := ""
  password : String := ""
  displayName : String := ""
  role : Int := 0
  status : Int := 0
  email : String := ""
  accessToken : Option String := none
  affCode : String := ""
  setting : String := ""
  group : String := ""
  affQuota : Int := 0
  affCount : Int := 0
  affHistory : Int := 0

/-- The row of a user, deleted or not. -/
def AccountDB.copyOf (db : AccountDB) (p : UserProfile) : UserCopy :=
  let group := ((db.invite.reward.wallet.users.byId p.id).map User.group).getD ""
  let aff := (db.invite.affs.byId p.id).getD { id := p.id }
  { id := p.id, username := p.username, password := p.password, displayName := p.displayName
    role := p.role, status := p.status, email := p.email, accessToken := p.accessToken
    affCode := p.affCode, setting := p.setting, group, affQuota := aff.affQuota
    affCount := aff.affCount, affHistory := aff.affHistory }

/-- `GetUserById`. -/
def getUserById (fault : Option Err) (id : Int) (selectAll : Bool) (db : AccountDB) :
    Except Err UserCopy :=
  if id = 0 then .error (.text "id 为空！")
  else
    match fault with
    | some e => .error e
    | none =>
      match db.profiles.byId id with
      | none => .error (.sentinel .recordNotFound)
      | some p =>
        if p.deleted then .error (.sentinel .recordNotFound)
        else if selectAll then .ok (db.copyOf p)
        else .ok { db.copyOf p with password := "", accessToken := none }

/-- `FillUserById`, which drops the error of its query. -/
def fillUserById (fault : Option Err) (id : Int) (db : AccountDB) : Except Err UserCopy :=
  if id = 0 then .error (.text "id 为空！")
  else
    match getUserById fault id true db with
    | .error _ => .ok { id }
    | .ok user => .ok user

/-- What an update from a struct writes to a number: its value, unless it is zero. -/
def nonZero (new old : Int) : Int := if new = 0 then old else new

/-- What an update from a struct writes to a text. -/
def nonEmpty (new old : String) : String := if new = "" then old else new

namespace UserCopy

/-- What a save writes to the profile. -/
def profile (copy : UserCopy) : Patch UserProfile where
  apply p := { p with
    username := nonEmpty copy.username p.username
    password := nonEmpty copy.password p.password
    displayName := nonEmpty copy.displayName p.displayName
    role := nonZero copy.role p.role
    status := nonZero copy.status p.status
    email := nonEmpty copy.email p.email
    accessToken := copy.accessToken.or p.accessToken
    affCode := nonEmpty copy.affCode p.affCode
    setting := nonEmpty copy.setting p.setting }
  id_apply _ := rfl
  key_apply _ := rfl

/-- What a save writes to the group. -/
def user (copy : UserCopy) : Patch User where
  apply u := { u with group := nonEmpty copy.group u.group }
  id_apply _ := rfl
  key_apply _ := rfl

/-- What a save writes to the invitation columns. -/
def aff (copy : UserCopy) : Patch UserAff where
  apply a := { a with
    affQuota := nonZero copy.affQuota a.affQuota
    affCount := nonZero copy.affCount a.affCount
    affHistory := nonZero copy.affHistory a.affHistory }
  id_apply _ := rfl
  key_apply _ := rfl

end UserCopy

/-- `UpdateWithTx`, with the password already hashed: `quota`, `used_quota` and `request_count` are
omitted, and every other field that is not zero is written. -/
def AccountDB.save (copy : UserCopy) (db : AccountDB) : Except Err (Unit × AccountDB) :=
  match db.profiles.byId copy.id with
  | none => .error (.sentinel .recordNotFound)
  | some current =>
    if current.deleted then .error (.sentinel .recordNotFound)
    else .ok ((), { db with
      invite :=
        { reward := { db.invite.reward with
            wallet := db.invite.reward.wallet.updateUser copy.id copy.user }
          affs := (db.invite.affs.updateWhere (fun a => a.id = copy.id) copy.aff).1 }
      profiles := (db.profiles.updateWhere (fun p => p.id = copy.id) copy.profile).1 })

/-! ## Rights and money -/

/-- `canManageTargetRole`. -/
def canManageTargetRole (myRole targetRole : Int) : Bool := myRole = roleRootUser || targetRole < myRole

/-- The actions of `ManageUser` that change a row of `users` alone. -/
inductive ManageAction where
  | disable
  | enable
  | promote
  | demote

/-- What an action makes of the loaded row. The errors are keys of the translations. -/
def ManageAction.change (myRole : Int) (action : ManageAction) (user : UserCopy) : Except Err UserCopy := do
  match action with
  | .disable =>
    failIf (user.role = roleRootUser) (.text "user.cannot_disable_root_user")
    return { user with status := userStatusDisabled }
  | .enable => return { user with status := userStatusEnabled }
  | .promote =>
    failIf (myRole ≠ roleRootUser) (.text "user.admin_cannot_promote")
    failIf (roleAdminUser ≤ user.role) (.text "user.already_admin")
    return { user with role := roleAdminUser }
  | .demote =>
    failIf (user.role = roleRootUser) (.text "user.cannot_demote_root_user")
    failIf (user.role = roleCommonUser) (.text "user.already_common")
    return { user with role := roleCommonUser }

/-- The user that `ManageUser` loads: an id of 0 is no condition, and the first row is taken. -/
def manageTarget (id : Int) (profiles : Table UserProfile) : Int :=
  if id = 0 then (profiles.rows.map UserProfile.id).min?.getD 0 else id

/-- `ManageUser` as one step: the row is loaded, deleted or not, changed and saved. -/
def manageUser (myRole : Int) (action : ManageAction) (id : Int) (db : AccountDB) :
    Except Err (Unit × AccountDB) :=
  match db.profiles.byId (manageTarget id db.profiles) with
  | none => .error (.text "user.not_exists")
  | some p => do
    failIf (canManageTargetRole myRole p.role = false) (.text "user.no_permission_higher_level")
    let user ← action.change myRole (db.copyOf p)
    db.save user

/-- `Insert`, with the rewards of the invitation. -/
def registerTx (env : InviteEnv) (user : User) (profile : UserProfile) (inviterId : Int)
    (db : AccountDB) : Except Err (Unit × AccountDB) := do
  let (userId, invite) ← db.invite.createUser user
  let row := { profile with
    id := userId, role := roleCommonUser, status := userStatusEnabled, deleted := false }
  match db.profiles.create row with
  | none => throw (.sentinel .duplicatedKey)
  | some profiles =>
    let (_, invite) ← applyRegistrationGrowthBudgetTx env userId inviterId invite
    return ((), { db with invite, profiles })

/-- An operation on rights or money, as one step. -/
inductive RightsEvent where
  | manage (fault : Option Err) (myRole : Int) (action : ManageAction) (id : Int)
  | register (fault : Option Err) (env : InviteEnv) (user : User) (profile : UserProfile)
      (inviterId : Int)
  | transfer (fault : Option Err) (env : InviteEnv) (userId quota : Int)
  | group (e : GroupEvent)

/-- The tables after an operation on rights or money. -/
def AccountDB.apply (db : AccountDB) : RightsEvent → AccountDB
  | .manage fault myRole action id => (transaction fault (manageUser myRole action id) db).2
  | .register fault env user profile inviterId =>
    (transaction fault (registerTx env user profile inviterId) db).2
  | .transfer fault env userId quota =>
    { db with invite := db.invite.step ⟨env, fault, .transfer userId quota⟩ }
  | .group e => db.setPurchases (e.exec db.purchases)

/-! ## Requests of a user -/

/-- The settings of a user; `others` are the fields that the requests here leave alone. -/
structure UserSetting where
  sidebarModules : String
  language : String
  others : String

/-- The JSON library, as the settings use it. -/
structure ProfileEnv where
  unmarshal : String → UserSetting
  marshal : UserSetting → Option String

/-- A request that saves the row of its user. The values are those of the request after its checks: a
field that is no text is `none`, a password is hashed, and empty when it is kept. -/
inductive ProfileRequest where
  | sidebarModules (userId : Int) (value : Option String)
  | language (userId : Int) (value : Option String)
  | profile (userId : Int) (username password displayName : String)
  | emailBind (userId : Int) (email : String)
  | getAffCode (userId : Int) (code : String)
  | generateAccessToken (userId : Int) (key : String)

/-- `GetSetting`, a change and `SetSetting`. -/
def UserCopy.changeSetting (env : ProfileEnv) (change : UserSetting → UserSetting) (user : UserCopy) :
    UserCopy :=
  { user with setting := (env.marshal (change (env.unmarshal user.setting))).getD user.setting }

/-- The first part of a request: the value it is going to save, if any. -/
def ProfileRequest.load (env : ProfileEnv) (fault : Option Err) (db : AccountDB) :
    ProfileRequest → Option UserCopy
  | .sidebarModules userId value =>
    (getUserById fault userId false db).toOption.map
      (UserCopy.changeSetting env fun s => { s with sidebarModules := value.getD s.sidebarModules })
  | .language userId value =>
    (getUserById fault userId false db).toOption.map
      (UserCopy.changeSetting env fun s => { s with language := value.getD s.language })
  | .profile userId username password displayName =>
    some { id := userId, username, password, displayName }
  | .emailBind userId email =>
    (fillUserById fault userId db).toOption.map fun user => { user with email }
  | .getAffCode userId code =>
    (getUserById fault userId true db).toOption.bind fun user =>
      if user.affCode = "" then some { user with affCode := code } else none
  | .generateAccessToken userId key =>
    (getUserById fault userId true db).toOption.map fun user => { user with accessToken := some key }

/-- A request before its next step. -/
inductive ProfileThread where
  | load (r : ProfileRequest)
  | save (copy : UserCopy)
  | done

/-- The next step of a request. -/
def ProfileThread.step (env : ProfileEnv) (fault : Option Err) (t : ProfileThread) (db : AccountDB) :
    ProfileThread × AccountDB :=
  match t with
  | .load r =>
    match r.load env fault db with
    | none => (.done, db)
    | some copy => (.save copy, db)
  | .save copy => (.done, (transaction fault (AccountDB.save copy) db).2)
  | .done => (.done, db)

/-- Any number of requests over the tables. -/
abbrev AccountSystem := Pool AccountDB ProfileThread

/-- A step of the system: a request begins or makes its next step, or an operation on rights or money
runs. -/
inductive AccountEvent where
  | request (r : ProfileRequest)
  | step (thread : Nat) (fault : Option Err)
  | rights (e : RightsEvent)

/-- The operation on rights or money that an event is. -/
def AccountEvent.right? : AccountEvent → Option RightsEvent
  | .request _ => none
  | .step .. => none
  | .rights e => some e

/-- A step of the system. -/
def AccountSystem.step (env : ProfileEnv) (s : AccountSystem) : AccountEvent → AccountSystem
  | .request r => s.spawn (.load r)
  | .step thread fault => s.stepAt (ProfileThread.step env fault) thread
  | .rights e => { s with shared := s.shared.apply e }

/-! ## Similar tables -/

@[simp] theorem nonZero_self (x : Int) : nonZero x x = x := by simp [nonZero]

@[simp] theorem nonEmpty_self (s : String) : nonEmpty s s = s := by simp [nonEmpty]

/-- The columns of a profile that belong to the rights. -/
def UserProfile.rights (p : UserProfile) : Int × Int × Int × Bool := (p.id, p.role, p.status, p.deleted)

/-- Tables that differ in names, texts and settings of the profiles alone. -/
structure AccountDB.Similar (db db' : AccountDB) : Prop where
  invite : db.invite = db'.invite
  subscriptions : db.subscriptions = db'.subscriptions
  orders : db.orders = db'.orders
  profiles : db.profiles.rows.map UserProfile.rights = db'.profiles.rows.map UserProfile.rights

section Similar

variable {db db' db'' : AccountDB}

theorem AccountDB.Similar.refl (db : AccountDB) : db.Similar db := ⟨rfl, rfl, rfl, rfl⟩

theorem AccountDB.Similar.trans (h : db.Similar db') (h' : db'.Similar db'') : db.Similar db'' :=
  ⟨h.invite.trans h'.invite, h.subscriptions.trans h'.subscriptions, h.orders.trans h'.orders,
    h.profiles.trans h'.profiles⟩

/-- Lists with the same rights find rows with the same rights. -/
theorem find?_rights {ps ps' : List UserProfile} (h : ps.map UserProfile.rights = ps'.map UserProfile.rights)
    (id : Int) : (ps.find? fun p => p.id = id).map UserProfile.rights
      = (ps'.find? fun p => p.id = id).map UserProfile.rights := by
  have hfind : ∀ ps : List UserProfile, (ps.find? fun p => p.id = id).map UserProfile.rights
      = (ps.map UserProfile.rights).find? fun r => r.1 = id := by
    intro ps
    rw [List.find?_map]
    rfl
  rw [hfind, hfind, h]

/-- The ids of the profiles are among their rights. -/
theorem ids_eq_of_rights {ps ps' : List UserProfile}
    (h : ps.map UserProfile.rights = ps'.map UserProfile.rights) :
    ps.map UserProfile.id = ps'.map UserProfile.id := by
  have hids := congrArg (List.map Prod.fst) h
  rwa [List.map_map, List.map_map] at hids

/-- `ManageUser` loads the same user from similar tables. -/
theorem AccountDB.Similar.manageTarget (h : db.Similar db') (id : Int) :
    manageTarget id db.profiles = manageTarget id db'.profiles := by
  simp [Prox.manageTarget, ids_eq_of_rights h.profiles]

/-- Similar tables have profiles with the same rights. -/
theorem AccountDB.Similar.byId (h : db.Similar db') (id : Int) :
    (db.profiles.byId id).map UserProfile.rights = (db'.profiles.byId id).map UserProfile.rights :=
  find?_rights h.profiles id

/-- The rights depend on the profiles through their rights alone. -/
theorem AccountDB.rights_eq (db : AccountDB) (id : Int) :
    db.rights id = ((db.profiles.byId id).map UserProfile.rights).bind fun r =>
      (db.invite.reward.wallet.users.byId id).bind fun u =>
        (db.invite.affs.byId id).map fun a =>
          { role := r.2.1, status := r.2.2.1, group := u.group, affQuota := a.affQuota
            affCount := a.affCount, affHistory := a.affHistory } := by
  unfold AccountDB.rights
  cases db.profiles.byId id with
  | none => rfl
  | some p =>
    cases db.invite.reward.wallet.users.byId id with
    | none => rfl
    | some u => cases db.invite.affs.byId id <;> rfl

/-- Similar tables agree on the rights. -/
theorem AccountDB.Similar.rights_eq (h : db.Similar db') (id : Int) : db.rights id = db'.rights id := by
  rw [AccountDB.rights_eq, AccountDB.rights_eq, h.byId, h.invite]

end Similar

/-! ## Saves -/

/-- A copy agrees with the stored row in every column of the rights that it is going to write. -/
structure UserCopy.Fresh (copy : UserCopy) (db : AccountDB) : Prop where
  role : ∀ p ∈ db.profiles.byId copy.id, nonZero copy.role p.role = p.role
  status : ∀ p ∈ db.profiles.byId copy.id, nonZero copy.status p.status = p.status
  group : ∀ u ∈ db.invite.reward.wallet.users.byId copy.id, nonEmpty copy.group u.group = u.group
  aff : ∀ a ∈ db.invite.affs.byId copy.id, copy.aff.apply a = a

section Save

variable {db db' : AccountDB} {copy : UserCopy}

/-- What a save writes when it goes through. -/
theorem AccountDB.save_eq_ok (h : db.save copy = .ok ((), db')) :
    db' = { db with
      invite :=
        { reward := { db.invite.reward with
            wallet := db.invite.reward.wallet.updateUser copy.id copy.user }
          affs := (db.invite.affs.updateWhere (fun a => a.id = copy.id) copy.aff).1 }
      profiles := (db.profiles.updateWhere (fun p => p.id = copy.id) copy.profile).1 } := by
  unfold AccountDB.save at h
  split at h
  · cases h
  · split at h
    · cases h
    · exact (Prod.mk.inj (Except.ok.inj h)).2.symm

/-- A save that agrees with the row in group and invitation columns leaves these tables alone. -/
theorem AccountDB.save_invite
    (hgroup : ∀ u ∈ db.invite.reward.wallet.users.byId copy.id, nonEmpty copy.group u.group = u.group)
    (haff : ∀ a ∈ db.invite.affs.byId copy.id, copy.aff.apply a = a)
    (h : db.save copy = .ok ((), db')) :
    db' = { db with
      profiles := (db.profiles.updateWhere (fun p => p.id = copy.id) copy.profile).1 } := by
  rw [AccountDB.save_eq_ok h]
  have husers : db.invite.reward.wallet.updateUser copy.id copy.user = db.invite.reward.wallet := by
    have hsame : (db.invite.reward.wallet.users.updateWhere (fun u => u.id = copy.id) copy.user).1
        = db.invite.reward.wallet.users :=
      Table.updateWhere_byId_self fun u hu => by
        show { u with group := nonEmpty copy.group u.group } = u
        rw [hgroup u hu]
    rw [Wallet.updateUser, hsame]
  have haffs : (db.invite.affs.updateWhere (fun a => a.id = copy.id) copy.aff).1 = db.invite.affs :=
    Table.updateWhere_byId_self haff
  rw [husers, haffs]

/-- **A fresh save does not touch the rights.** -/
theorem UserCopy.Fresh.save (h : copy.Fresh db) (fault : Option Err) :
    (transaction fault (AccountDB.save copy) db).2.Similar db := by
  refine transaction_keeps (P := fun db' : AccountDB => db'.Similar db) (.refl db) fun _ db' hsave => ?_
  rw [AccountDB.save_invite h.group h.aff hsave]
  refine ⟨rfl, rfl, rfl, ?_⟩
  rw [Table.rows_updateWhere, List.map_map]
  refine map_congr_left fun p hp => ?_
  by_cases hid : p.id = copy.id
  · have hbyId : db.profiles.byId copy.id = some p := Table.byId_eq_some.mpr ⟨hp, hid⟩
    have hrole := h.role p hbyId
    have hstatus := h.status p hbyId
    simp [hid, UserProfile.rights, UserCopy.profile, hrole, hstatus]
  · simp [hid]

end Save

/-! ## Operations on similar tables -/

/-- Two results of an operation: two errors, or similar tables. -/
def SimilarResults (r r' : Except Err (Unit × AccountDB)) : Prop :=
  ((∃ e, r = .error e) ∧ ∃ e, r' = .error e) ∨
    ∃ db db', r = .ok ((), db) ∧ r' = .ok ((), db') ∧ db.Similar db'

section Operations

variable {db db' : AccountDB}

/-- An operation with similar results has them as a transaction as well. -/
theorem SimilarResults.transaction {body : AccountDB → Except Err (Unit × AccountDB)}
    (h : SimilarResults (body db) (body db')) (hdb : db.Similar db') (fault : Option Err) :
    (transaction fault body db).2.Similar (transaction fault body db').2 := by
  cases fault with
  | some e => exact hdb
  | none =>
    rcases h with ⟨⟨e, he⟩, e', he'⟩ | ⟨db₁, db₁', hok, hok', hsimilar⟩
    · rw [transaction_error he, transaction_error he']
      exact hdb
    · rw [transaction_ok hok, transaction_ok hok']
      exact hsimilar

/-- A loaded row agrees with itself in group and invitation columns. -/
theorem copyOf_fresh (db : AccountDB) (p : UserProfile) :
    (∀ u ∈ db.invite.reward.wallet.users.byId p.id,
      nonEmpty (db.copyOf p).group u.group = u.group) ∧
      ∀ a ∈ db.invite.affs.byId p.id, (db.copyOf p).aff.apply a = a := by
  constructor
  · intro u hu
    have hu : db.invite.reward.wallet.users.byId p.id = some u := hu
    simp [AccountDB.copyOf, hu]
  · intro a ha
    have ha : db.invite.affs.byId p.id = some a := ha
    simp [AccountDB.copyOf, ha, UserCopy.aff]

/-- An action of an administrator looks at role and status alone, and changes nothing else. -/
theorem ManageAction.change_cases (myRole : Int) (action : ManageAction) {user user' : UserCopy}
    (hrole : user.role = user'.role) (hstatus : user.status = user'.status) :
    ((∃ e, action.change myRole user = .error e) ∧ ∃ e, action.change myRole user' = .error e) ∨
      ∃ role status, action.change myRole user = .ok { user with role, status } ∧
        action.change myRole user' = .ok { user' with role, status } := by
  have hfail : ∀ (c : Prop) [Decidable c] (e : Err), failIf c e = if c then .error e else .ok () :=
    fun _ _ _ => rfl
  cases action with
  | disable =>
    simp only [ManageAction.change, hfail, ← hrole]
    split
    · exact .inl ⟨⟨_, rfl⟩, _, rfl⟩
    · exact .inr ⟨user.role, userStatusDisabled, rfl, by rfl⟩
  | enable => exact .inr ⟨user.role, userStatusEnabled, rfl, by rw [hrole]; rfl⟩
  | promote =>
    simp only [ManageAction.change, hfail, ← hrole]
    split
    · exact .inl ⟨⟨_, rfl⟩, _, rfl⟩
    · split
      · exact .inl ⟨⟨_, rfl⟩, _, rfl⟩
      · exact .inr ⟨roleAdminUser, user.status, rfl, by rw [hstatus]; rfl⟩
  | demote =>
    simp only [ManageAction.change, hfail, ← hrole]
    split
    · exact .inl ⟨⟨_, rfl⟩, _, rfl⟩
    · split
      · exact .inl ⟨⟨_, rfl⟩, _, rfl⟩
      · exact .inr ⟨roleCommonUser, user.status, rfl, by rw [hstatus]; rfl⟩

/-- What a save makes of the rights of a profile. -/
def UserCopy.saveRights (copy : UserCopy) (r : Int × Int × Int × Bool) : Int × Int × Int × Bool :=
  if r.1 = copy.id then (r.1, nonZero copy.role r.2.1, nonZero copy.status r.2.2.1, r.2.2.2) else r

theorem rights_updateWhere (copy : UserCopy) (ps : Table UserProfile) :
    (ps.updateWhere (fun p => p.id = copy.id) copy.profile).1.rows.map UserProfile.rights
      = (ps.rows.map UserProfile.rights).map copy.saveRights := by
  rw [Table.rows_updateWhere, List.map_map, List.map_map]
  refine map_congr_left fun p _ => ?_
  by_cases hid : p.id = copy.id <;>
    simp [hid, UserProfile.rights, UserCopy.saveRights, UserCopy.profile]

theorem manageUser_similar (h : db.Similar db') (myRole : Int) (action : ManageAction) (id : Int) :
    SimilarResults (manageUser myRole action id db) (manageUser myRole action id db') := by
  unfold manageUser
  rw [← h.manageTarget]
  generalize manageTarget id db.profiles = id
  have hbyId := h.byId id
  cases hp : db.profiles.byId id with
  | none =>
    rw [hp, map_none, eq_comm, map_eq_none_iff] at hbyId
    rw [hbyId]
    exact .inl ⟨⟨_, rfl⟩, _, rfl⟩
  | some p =>
    rw [hp, map_some, eq_comm, map_eq_some_iff] at hbyId
    obtain ⟨p', hp', hrights⟩ := hbyId
    simp only [UserProfile.rights, Prod.mk.injEq] at hrights
    obtain ⟨hid, hrole, hstatus, hdeleted⟩ := hrights
    rw [hp']
    dsimp only
    rw [hrole]
    by_cases hcan : canManageTargetRole myRole p.role = false
    · rw [failIf, if_pos hcan]
      exact .inl ⟨⟨_, rfl⟩, _, rfl⟩
    rw [failIf, if_neg hcan]
    have hsame : (db.copyOf p).role = (db'.copyOf p').role := hrole.symm
    rcases action.change_cases myRole hsame hstatus.symm with ⟨⟨e, he⟩, e', he'⟩ | ⟨role, status, hchange, hchange'⟩
    · rw [he, he']
      exact .inl ⟨⟨_, rfl⟩, _, rfl⟩
    rw [hchange, hchange']
    -- the row is deleted in both tables or in none
    have hcopy : (db.copyOf p).id = id := (Table.byId_eq_some.mp hp).2
    have hcopy' : (db'.copyOf p').id = id := (Table.byId_eq_some.mp hp').2
    cases hdel : p.deleted with
    | true =>
      have herror : ∃ e, db.save { db.copyOf p with role, status } = .error e := by
        simp only [AccountDB.save, hcopy, hp, hdel]
        exact ⟨_, rfl⟩
      have herror' : ∃ e, db'.save { db'.copyOf p' with role, status } = .error e := by
        simp only [AccountDB.save, hcopy', hp', hdeleted.trans hdel]
        exact ⟨_, rfl⟩
      exact .inl ⟨herror, herror'⟩
    | false =>
      obtain ⟨db₁, hsave⟩ : ∃ db₁, db.save { db.copyOf p with role, status } = .ok ((), db₁) := by
        simp only [AccountDB.save, hcopy, hp, hdel]
        exact ⟨_, rfl⟩
      obtain ⟨db₁', hsave'⟩ : ∃ db₁', db'.save { db'.copyOf p' with role, status } = .ok ((), db₁') := by
        simp only [AccountDB.save, hcopy', hp', hdeleted.trans hdel]
        exact ⟨_, rfl⟩
      refine .inr ⟨db₁, db₁', hsave, hsave', ?_⟩
      rw [AccountDB.save_invite (copyOf_fresh db p).1 (copyOf_fresh db p).2 hsave,
        AccountDB.save_invite (copyOf_fresh db' p').1 (copyOf_fresh db' p').2 hsave']
      refine ⟨h.invite, h.subscriptions, h.orders, ?_⟩
      rw [rights_updateWhere, rights_updateWhere, h.profiles]
      have hsame : UserCopy.saveRights { db.copyOf p with role, status }
          = UserCopy.saveRights { db'.copyOf p' with role, status } := by
        funext r
        simp [UserCopy.saveRights, hcopy, hcopy']
      rw [hsame]

/-- A new profile is refused by similar tables alike. -/
theorem create_rights {ps ps' : Table UserProfile}
    (h : ps.rows.map UserProfile.rights = ps'.rows.map UserProfile.rights) (row : UserProfile) :
    (ps.create row = none ∧ ps'.create row = none) ∨
      ∃ t t', ps.create row = some t ∧ ps'.create row = some t' ∧
        t.rows.map UserProfile.rights = t'.rows.map UserProfile.rights := by
  -- the keys of the rows are part of their rights
  have hids := ids_eq_of_rights h
  have hfresh : ∀ ps : Table UserProfile,
      ps.create row = none ↔ ¬ (0 < row.id ∧ row.id ∉ ps.rows.map UserProfile.id) := by
    intro ps
    have hne : (∀ x ∈ ps.rows, Row.id x ≠ Row.id row) ↔ row.id ∉ ps.rows.map UserProfile.id := by
      simp only [List.mem_map, not_exists, not_and]
      exact Iff.rfl
    have hkey : (∀ x ∈ ps.rows, Row.key x ≠ Row.key row) ↔ row.id ∉ ps.rows.map UserProfile.id := hne
    unfold Table.create
    split
    · next hc => exact ⟨(fun hs => by cases hs), fun hn => absurd ⟨hc.1, hne.mp hc.2.1⟩ hn⟩
    · next hc => exact ⟨fun _ hn => hc ⟨hn.1, hne.mpr hn.2, hkey.mpr hn.2⟩, fun _ => rfl⟩
  cases ht : ps.create row with
  | none =>
    have hnone := (hfresh ps).mp ht
    rw [hids] at hnone
    exact .inl ⟨rfl, (hfresh ps').mpr hnone⟩
  | some t =>
    cases ht' : ps'.create row with
    | none =>
      have hnone := (hfresh ps').mp ht'
      rw [← hids, ← hfresh ps, ht] at hnone
      cases hnone
    | some t' =>
      refine .inr ⟨t, t', rfl, rfl, ?_⟩
      rw [Table.rows_of_create ht, Table.rows_of_create ht', map_append, map_append, h]

theorem registerTx_similar (h : db.Similar db') (env : InviteEnv) (user : User) (profile : UserProfile)
    (inviterId : Int) : SimilarResults (registerTx env user profile inviterId db)
      (registerTx env user profile inviterId db') := by
  unfold registerTx
  rw [← h.invite]
  cases hcreate : db.invite.createUser user with
  | error e => exact .inl ⟨⟨_, rfl⟩, _, rfl⟩
  | ok r =>
    obtain ⟨userId, invite⟩ := r
    show SimilarResults (match db.profiles.create _ with | none => _ | some profiles => _)
      (match db'.profiles.create _ with | none => _ | some profiles => _)
    rcases create_rights h.profiles { profile with
      id := userId, role := roleCommonUser, status := userStatusEnabled, deleted := false } with
      ⟨hnone, hnone'⟩ | ⟨t, t', hsome, hsome', hrights⟩
    · rw [hnone, hnone']
      exact .inl ⟨⟨_, rfl⟩, _, rfl⟩
    · rw [hsome, hsome']
      cases applyRegistrationGrowthBudgetTx env userId inviterId invite with
      | error e => exact .inl ⟨⟨_, rfl⟩, _, rfl⟩
      | ok r => exact .inr ⟨_, _, rfl, rfl, rfl, h.subscriptions, h.orders, hrights⟩

/-- **Operations on rights and money depend on rights and money alone.** -/
theorem AccountDB.Similar.apply (h : db.Similar db') (e : RightsEvent) :
    (db.apply e).Similar (db'.apply e) := by
  cases e with
  | manage fault myRole action id => exact (manageUser_similar h myRole action id).transaction h fault
  | register fault env user profile inviterId =>
    exact (registerTx_similar h env user profile inviterId).transaction h fault
  | transfer fault env userId quota =>
    refine ⟨?_, h.subscriptions, h.orders, h.profiles⟩
    show db.invite.step _ = db'.invite.step _
    rw [h.invite]
  | group e =>
    have hpurchases : db.purchases = db'.purchases := by
      rw [AccountDB.purchases, AccountDB.purchases, h.invite, h.subscriptions, h.orders]
    refine ⟨?_, ?_, ?_, h.profiles⟩
    · show (db.setPurchases (e.exec db.purchases)).invite
        = (db'.setPurchases (e.exec db'.purchases)).invite
      rw [hpurchases, AccountDB.setPurchases, AccountDB.setPurchases, h.invite]
    · show (e.exec db.purchases).subscriptions = (e.exec db'.purchases).subscriptions
      rw [hpurchases]
    · show (e.exec db.purchases).orders = (e.exec db'.purchases).orders
      rw [hpurchases]

end Operations

/-! ## Runs -/

/-- A request that is about to save has a fresh copy. -/
def ProfileThread.Fresh (db : AccountDB) : ProfileThread → Prop
  | .load _ => True
  | .save copy => copy.Fresh db
  | .done => True

/-- A save finds the rights that its copy is going to write as they were loaded. -/
def AccountSystem.Fresh (s : AccountSystem) : AccountEvent → Prop
  | .request _ => True
  | .step i _ => ∀ t ∈ s.threads[i]?, t.Fresh s.shared
  | .rights _ => True

instance (copy : UserCopy) (db : AccountDB) : Decidable (copy.Fresh db) :=
  decidable_of_iff ((∀ p ∈ db.profiles.byId copy.id, nonZero copy.role p.role = p.role) ∧
      (∀ p ∈ db.profiles.byId copy.id, nonZero copy.status p.status = p.status) ∧
      (∀ u ∈ db.invite.reward.wallet.users.byId copy.id, nonEmpty copy.group u.group = u.group) ∧
      ∀ a ∈ db.invite.affs.byId copy.id, copy.aff.apply a = a)
    ⟨fun ⟨hrole, hstatus, hgroup, haff⟩ => ⟨hrole, hstatus, hgroup, haff⟩,
      fun h => ⟨h.role, h.status, h.group, h.aff⟩⟩

instance (db : AccountDB) (t : ProfileThread) : Decidable (t.Fresh db) :=
  match t with
  | .load _ => inferInstanceAs (Decidable True)
  | .save copy => inferInstanceAs (Decidable (copy.Fresh db))
  | .done => inferInstanceAs (Decidable True)

instance (s : AccountSystem) (e : AccountEvent) : Decidable (s.Fresh e) :=
  match e with
  | .request _ => inferInstanceAs (Decidable True)
  | .step i _ => inferInstanceAs (Decidable (∀ t ∈ s.threads[i]?, t.Fresh s.shared))
  | .rights _ => inferInstanceAs (Decidable True)

/-- **Step lemma**: a request leaves the rights alone, and the other operations do what they would do
without it. -/
theorem AccountSystem.step_similar {env : ProfileEnv} {s : AccountSystem} {db : AccountDB}
    (h : s.shared.Similar db) {e : AccountEvent} (he : s.Fresh e) :
    (AccountSystem.step env s e).shared.Similar (run AccountDB.apply db e.right?.toList) := by
  cases e with
  | request r => exact h
  | rights e => exact h.apply e
  | step i fault =>
    refine Pool.stepAt_elim (P := fun p => AccountDB.Similar p.shared db) (fun _ => h) fun t ht => ?_
    cases t with
    | load r =>
      have hload : ((ProfileThread.load r).step env fault s.shared).2 = s.shared := by
        unfold ProfileThread.step
        dsimp only
        split <;> rfl
      rw [hload]
      exact h
    | save copy => exact ((he (.save copy) ht).save fault).trans h
    | done => exact h

/-- A user without settings, whose inviter rewards are on a plain site. -/
def AccountDB.sample : AccountDB where
  invite := plainInviteDB
  subscriptions := ⟨.empty, .empty, .empty, fun _ => 0⟩
  orders := .empty
  profiles := ⟨[{ id := 1, username := "user" }], by decide, by decide, by decide⟩

/-- Settings are stored as their language. -/
def ProfileEnv.sample : ProfileEnv where
  unmarshal s := ⟨"", s, ""⟩
  marshal s := some s.language

/-- The root user disables the sample user. -/
def sampleDisable : AccountEvent := .rights (.manage none roleRootUser .disable 1)

/-- The sample user chooses a language. -/
def sampleLanguage : AccountEvent := .request (.language 1 (some "en"))

/-- Someone signs up on the invitation of the sample user. -/
def sampleSignUp : AccountEvent :=
  .rights (.register none (plainInviteEnv "2026-06-21") { id := 0, quota := 0 }
    { id := 0, username := "invitee" } 1)

/-- The sample user moves the reward for it to the wallet. -/
def sampleTransfer : AccountEvent := .rights (.transfer none (plainInviteEnv "2026-06-21") 1 10)

end Prox
