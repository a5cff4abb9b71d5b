import Prox.Account.Profile
import Prox.Lib.Run

/-! # Revoking rights

The embedding of `authHelper` and `TokenAuth` in `middleware/auth.go`, of `GetUserCache` in
`model/user_cache.go` and of `ManageUser` in `controller/user.go`, with Redis switched on. Role and status of
a user are read from three places: the row, the values of a login session, and a copy of the status in Redis
that is filled after the row was read. `ManageUser` writes the first and deletes the third. The main result
says that this is enough as long as no session or copy of the user is around, or on its way, that a write
takes the rights away from.

The keys of a user are parameters: a request with a key brings the user of the key and what the checks of
the key itself say. -/

namespace Prox

open List Option

/-! ## State -/

def roleGuestUser : Int := 0

/-- The values of a login session. -/
structure LoginSession where
  id : Int
  username : String
  role : Int
  status : Int

/-- The profiles, the status in the hash `user:<id>` of Redis, and the sessions. -/
structure AuthDB where
  profiles : Table UserProfile
  cache : Int → Option Int
  sessions : List LoginSession

namespace AuthDB

/-- Profiles with nothing in Redis and nobody logged in. -/
def start (profiles : Table UserProfile) : AuthDB := ⟨profiles, fun _ => none, []⟩

/-- The row of a user that is not deleted. -/
def live (db : AuthDB) (id : Int) : Option UserProfile := (db.profiles.byId id).filter fun p => p.deleted = false

/-- The stored role of a user, who is neither disabled nor deleted, is at least a role. -/
def allows (db : AuthDB) (id role : Int) : Bool :=
  (db.live id).any fun p => p.status ≠ userStatusDisabled ∧ role ≤ p.role

/-- A user is neither disabled nor deleted. -/
def usable (db : AuthDB) (id : Int) : Bool := (db.live id).any fun p => p.status ≠ userStatusDisabled

/-- A write to Redis. -/
def setCache (db : AuthDB) (id : Int) (status : Option Int) : AuthDB :=
  { db with cache := fun i => if i = id then status else db.cache i }

end AuthDB

/-! ## Sessions and access tokens -/

/-- `IsValidateRole`. -/
def isValidateRole (role : Int) : Bool :=
  role = roleGuestUser ∨ role = roleCommonUser ∨ role = roleAdminUser ∨ role = roleRootUser

/-- `validUserInfo`. -/
def validUserInfo (username : String) (role : Int) : Bool :=
  if trimSpace username = "" then false else isValidateRole role

/-- `extractSessionAuth`; the values of a session have the types of `setupLogin`. -/
def extractSessionAuth (session : Option LoginSession) : Option LoginSession :=
  session.filter fun s => trimSpace s.username ≠ ""

/-- `strings.Replace` of the first occurrence of a text by nothing. -/
def removeFirst (pattern : List Char) : List Char → List Char
  | [] => []
  | c :: cs => if pattern.isPrefixOf (c :: cs) then (c :: cs).drop pattern.length else c :: removeFirst pattern cs

/-- `ValidateAccessToken`. -/
def validateAccessToken (fault : Option Err) (token : String) (profiles : Table UserProfile) :
    Except Err (Option UserProfile) :=
  if token = "" then .ok none
  else
    match fault with
    | some e => .error (.wrap .database e.message)
    | none =>
      let token := String.ofList (removeFirst "Bearer ".toList token.toList)
      .ok (profiles.rows.find? fun p => p.accessToken = some token ∧ p.deleted = false)

/-- What `authHelper` puts into the context. -/
structure AuthUser where
  username : String
  role : Int
  id : Int
  status : Int
  useAccessToken : Bool
  deriving DecidableEq

/-- A request to an endpoint for a role, with a session or an access token; a header that is missing is
empty. -/
structure AuthRequest where
  session : Option Nat := none
  accessToken : String := ""
  apiUser : String := ""
  minRole : Int
  fault : Option Err := none

/-- The user of a request: that of its session, or that of its access token. -/
def AuthRequest.user (r : AuthRequest) (db : AuthDB) : Except Err AuthUser :=
  match extractSessionAuth (r.session.bind fun i => db.sessions[i]?) with
  | some s => .ok ⟨s.username, s.role, s.id, s.status, false⟩
  | none =>
    if r.accessToken = "" then .error (.text "auth.not_logged_in")
    else
      match validateAccessToken r.fault r.accessToken db.profiles with
      | .error _ => .error (.text "common.database_error")
      | .ok none => .error (.text "auth.access_token_invalid")
      | .ok (some p) =>
        if p.username = "" then .error (.text "auth.access_token_invalid")
        else if validUserInfo p.username p.role = false then .error (.text "auth.user_info_invalid")
        else .ok ⟨p.username, p.role, p.id, p.status, true⟩

/-- The check of the header `New-Api-User`, which counts for access tokens only. -/
def checkAPIUser (apiUser : String) (user : AuthUser) : Except Err Unit :=
  if apiUser = "" then .ok ()
  else
    match atoi apiUser with
    | none => failIf (user.useAccessToken = true) (.text "auth.user_id_format_error")
    | some id => failIf (user.useAccessToken = true ∧ user.id ≠ id) (.text "auth.user_id_mismatch")

/-- `authHelper`. -/
def authHelper (r : AuthRequest) (db : AuthDB) : Except Err AuthUser := do
  let user ← r.user db
  checkAPIUser r.apiUser user
  failIf (user.status = userStatusDisabled) (.text "auth.user_banned")
  failIf (user.role < r.minRole) (.text "auth.insufficient_privilege")
  failIf (validUserInfo user.username user.role = false) (.text "auth.user_info_invalid")
  pure user

/-! ## Steps -/

/-- What an administrator asks `ManageUser` for. -/
inductive AdminAction where
  | change (action : ManageAction)
  | delete

/-- After these actions `ManageUser` deletes the copy in Redis. -/
def AdminAction.invalidates : AdminAction → Bool
  | .change .disable | .change .promote | .change .demote => true
  | .change .enable | .delete => false

/-- The profile as a `model.User` value. -/
def UserProfile.copy (p : UserProfile) : UserCopy where
  id := p.id
  username := p.username
  password := p.password
  displayName := p.displayName
  role := p.role
  status := p.status
  email := p.email
  accessToken := p.accessToken
  affCode := p.affCode
  setting := p.setting

/-- `deleted_at` is set. -/
def UserProfile.softDelete : Patch UserProfile where
  apply p := { p with deleted := true }
  id_apply _ := rfl
  key_apply _ := rfl

namespace AuthDB

/-- `DB.Delete` of a user. -/
def delete (db : AuthDB) (id : Int) : AuthDB :=
  { db with profiles := (db.profiles.updateWhere (fun p => p.id = id ∧ p.deleted = false) UserProfile.softDelete).1 }

/-- The update of `UpdateWithTx`. -/
def update (db : AuthDB) (copy : UserCopy) : AuthDB :=
  { db with profiles := (db.profiles.updateWhere (fun p => p.id = copy.id ∧ p.deleted = false) copy.profile).1 }

end AuthDB

/-- A request before its next step. -/
inductive AuthThread where
  /-- A login that has checked its credentials loads the row. -/
  | login (id : Int)
  /-- `setupLogin`. -/
  | session (s : LoginSession)
  /-- `TokenAuth` with a key of a user, up to the lookup in Redis. -/
  | token (userId : Int) (refusal : Option Err)
  /-- `GetUserCache` after a miss. -/
  | lookup (userId : Int) (refusal : Option Err)
  /-- What `GetUserCache` does in the background. -/
  | fill (userId status : Int) (result : Except Err Unit)
  /-- `ManageUser`, up to the deletion or the update. -/
  | manage (myRole : Int) (action : AdminAction) (id : Int)
  /-- `User.Delete`. -/
  | delete (copy : UserCopy)
  | forget (copy : UserCopy)
  /-- `UpdateWithTx`. -/
  | current (action : AdminAction) (copy : UserCopy)
  | update (action : AdminAction) (copy : UserCopy)
  | reread (action : AdminAction) (id : Int)
  /-- `updateUserCache`. -/
  | cache (action : AdminAction) (id status : Int)
  /-- `InvalidateUserCache`. -/
  | invalidate (id : Int)
  | returned (result : Except Err Unit)

/-- What `TokenAuth` makes of the status of the user and of the other checks of the key. -/
def tokenResult (status : Int) (refusal : Option Err) : Except Err Unit :=
  if status ≠ userStatusEnabled then .error (.text "auth.user_banned")
  else
    match refusal with
    | some e => .error e
    | none => .ok ()

/-- What `ManageUser` does with the row that it has loaded; the errors are keys of the translations. -/
def AdminAction.begin (myRole : Int) (action : AdminAction) (user : UserCopy) : AuthThread :=
  if canManageTargetRole myRole user.role = false then .returned (.error (.text "user.no_permission_higher_level"))
  else
    match action with
    | .change a =>
      match a.change myRole user with
      | .error e => .returned (.error e)
      | .ok user => .current action user
    | .delete =>
      if user.role = roleRootUser then .returned (.error (.text "user.cannot_delete_root_user"))
      else .delete user

/-- What `ManageUser` does when it has looked for the row; a user without a row has zero values. -/
def AdminAction.found (myRole : Int) (action : AdminAction) (id : Int) (row : Option UserProfile) : AuthThread :=
  if id = 0 then .returned (.error (.text "user.not_exists"))
  else action.begin myRole ((row.map UserProfile.copy).getD { id })

/-- The next step of a request. A fault is an error of the database or of Redis. -/
def AuthThread.step (fault : Option Err) (t : AuthThread) (db : AuthDB) : AuthThread × AuthDB :=
  match t with
  | .login id =>
    match fault, db.live id with
    | some e, _ => (.returned (.error (.wrap .database e.message)), db)
    | none, none => (.returned (.error (.text "invalid credentials")), db)
    | none, some p =>
      if p.status ≠ userStatusEnabled then (.returned (.error (.text "invalid credentials")), db)
      else (.session ⟨p.id, p.username, p.role, p.status⟩, db)
  | .session s =>
    match fault with
    | some _ => (.returned (.error (.text "user.session_save_failed")), db)
    | none => (.returned (.ok ()), { db with sessions := db.sessions ++ [s] })
  | .token userId refusal =>
    match fault, db.cache userId with
    | none, some status => (.returned (tokenResult status refusal), db)
    | _, _ => (.lookup userId refusal, db)
  | .lookup userId refusal =>
    match fault, db.live userId with
    | none, some p => (.fill userId p.status (tokenResult p.status refusal), db)
    | _, _ => (.returned (.error (.text "common.database_error")), db)
  | .fill userId status result => (.returned result, if fault.isSome then db else db.setCache userId (some status))
  | .manage myRole action id =>
    -- the error of the query is dropped
    let id := if fault.isSome then id else manageTarget id db.profiles
    (action.found myRole id (if fault.isSome then none else db.profiles.byId id), db)
  | .delete copy =>
    match fault with
    | some e => (.returned (.error e), db)
    | none => (.forget copy, db.delete copy.id)
  | .forget copy =>
    match fault with
    | some e => (.returned (.error e), db)
    | none => (.current .delete copy, db.setCache copy.id none)
  | .current action copy =>
    match fault, db.live copy.id with
    | some e, _ => (.returned (.error e), db)
    | none, none => (.returned (.error (.sentinel .recordNotFound)), db)
    | none, some _ => (.update action copy, db)
  | .update action copy =>
    match fault with
    | some e => (.returned (.error e), db)
    | none => (.reread action copy.id, db.update copy)
  | .reread action id =>
    match fault, db.live id with
    | some e, _ => (.returned (.error e), db)
    | none, none => (.returned (.error (.sentinel .recordNotFound)), db)
    | none, some p => (.cache action id p.status, db)
  | .cache action id status =>
    match fault with
    | some e => (.returned (.error e), db)
    | none =>
      (if action.invalidates then .invalidate id else .returned (.ok ()), db.setCache id (some status))
  | .invalidate id =>
    -- an error is logged and dropped
    (.returned (.ok ()), if fault.isSome then db else db.setCache id none)
  | .returned r => (.returned r, db)

/-- Any number of requests. -/
abbrev AuthSystem := Pool AuthDB AuthThread

/-- A step of the system: a login, a request with a key or a `ManageUser` call begins, a request makes its
next step, an entry in Redis expires, or a request passes `authHelper` or not. -/
inductive AuthEvent where
  | login (id : Int)
  | token (userId : Int) (refusal : Option Err)
  | manage (myRole : Int) (action : AdminAction) (id : Int)
  | step (thread : Nat) (fault : Option Err)
  | expire (id : Int)
  | auth (r : AuthRequest)

/-- A step of the system. -/
def AuthSystem.step (s : AuthSystem) : AuthEvent → AuthSystem
  | .login id => s.spawn (.login id)
  | .token userId refusal => s.spawn (.token userId refusal)
  | .manage myRole action id => s.spawn (.manage myRole action id)
  | .step thread fault => s.stepAt (AuthThread.step fault) thread
  | .expire id => { s with shared := s.shared.setCache id none }
  | .auth _ => s

/-! ## The property -/

namespace AuthThread

/-- The user whose request with a key the next step accepts. -/
def accepts (fault : Option Err) (db : AuthDB) : AuthThread → Option Int
  | token userId refusal =>
    match fault, db.cache userId with
    | none, some status => if (tokenResult status refusal).toOption.isSome then some userId else none
    | _, _ => none
  | lookup userId refusal =>
    match fault, db.live userId with
    | none, some p => if (tokenResult p.status refusal).toOption.isSome then some userId else none
    | _, _ => none
  | _ => none

/-- The user whose `ManageUser` call returns success in the next step. -/
def succeeds (fault : Option Err) : AuthThread → Option Int
  | cache action id _ => if fault.isSome ∨ action.invalidates then none else some id
  | invalidate id => some id
  | _ => none

end AuthThread

/-- The user whose `ManageUser` call returns success in a step of the system. -/
def AuthSystem.succeeds (s : AuthSystem) : AuthEvent → Option Int
  | .step i fault => s.threads[i]?.bind fun t => t.succeeds fault
  | _ => none

/-- The system together with the users who have been disabled or deleted ever since a `ManageUser` call for
them returned success. -/
structure AuthRun where
  system : AuthSystem
  revoked : Int → Bool

/-- A run starts with a system where nobody is logged in and no call has returned. -/
def AuthRun.start (profiles : Table UserProfile) : AuthRun := ⟨⟨.start profiles, []⟩, fun _ => false⟩

/-- A step of the system, and what it makes of the revoked users. -/
def AuthRun.step (r : AuthRun) (e : AuthEvent) : AuthRun where
  system := r.system.step e
  revoked u := !(r.system.step e).shared.usable u && (r.revoked u || r.system.succeeds e = some u)

/-- What is accepted is allowed: by `authHelper` by the row of the user, with a key as long as the user is not
revoked. -/
def AuthRun.Honours (r : AuthRun) : AuthEvent → Prop
  | .auth q => ∀ user, authHelper q r.system.shared = .ok user →
    r.system.shared.allows user.id q.minRole = true
  | .step i fault => ∀ t ∈ r.system.threads[i]?, ∀ u ∈ t.accepts fault r.system.shared, r.revoked u = false
  | .login _ => True
  | .token .. => True
  | .manage .. => True
  | .expire _ => True

/-! ## The condition -/

namespace AuthThread

/-- The session that is saved next. -/
def opens : AuthThread → Option LoginSession
  | session s => some s
  | _ => none

/-- The copy of a status that is on its way to Redis. -/
def carries : AuthThread → Option (Int × Int)
  | fill userId status _ => some (userId, status)
  | cache _ id status => some (id, status)
  | _ => none

/-- The user whose copy in Redis stays when the next step meets an error that is dropped. -/
def leaves : AuthThread → Option Int
  | invalidate id => some id
  | _ => none

/-- The tables after the next step, and the user whose row it writes. -/
def writes (db : AuthDB) : AuthThread → Option (Int × AuthDB)
  | delete copy => some (copy.id, db.delete copy.id)
  | update _ copy => some (copy.id, db.update copy)
  | _ => none

end AuthThread

/-- Nothing is around that a row does not allow: the sessions of its user, open or about to be, are for its
role or less, and the copies on their way to Redis that say that the user is enabled are right. -/
structure AuthSystem.Clear (s : AuthSystem) (id : Int) (db : AuthDB) : Prop where
  sessions : ∀ x ∈ s.shared.sessions, x.id = id → db.allows id x.role = true
  logins : ∀ t ∈ s.threads, ∀ x ∈ t.opens, x.id = id → db.allows id x.role = true
  copies : ∀ t ∈ s.threads, ∀ c ∈ t.carries, c.1 = id → c.2 = userStatusEnabled → db.usable id = true

instance AuthSystem.decidableClear (s : AuthSystem) (id : Int) (db : AuthDB) : Decidable (s.Clear id db) :=
  decidable_of_iff
    ((∀ x ∈ s.shared.sessions, x.id = id → db.allows id x.role = true) ∧
      (∀ t ∈ s.threads, ∀ x ∈ t.opens, x.id = id → db.allows id x.role = true) ∧
      ∀ t ∈ s.threads, ∀ c ∈ t.carries, c.1 = id → c.2 = userStatusEnabled → db.usable id = true)
    ⟨fun h => ⟨h.1, h.2.1, h.2.2⟩, fun h => ⟨h.sessions, h.logins, h.copies⟩⟩

/-- When `ManageUser` writes, nothing is around that the row will not allow; and where it cannot delete the
copy in Redis, the copy does not say of a user who is disabled or deleted that he is enabled. -/
def AuthSystem.Guarded (s : AuthSystem) : AuthEvent → Prop
  | .step i fault => ∀ t ∈ s.threads[i]?,
    (fault = none → ∀ w ∈ t.writes s.shared, s.Clear w.1 w.2) ∧
      (fault ≠ none → ∀ u ∈ t.leaves, s.shared.cache u = some userStatusEnabled → s.shared.usable u = true)
  | .login _ => True
  | .token .. => True
  | .manage .. => True
  | .expire _ => True
  | .auth _ => True

instance AuthSystem.decidableGuarded (s : AuthSystem) (e : AuthEvent) : Decidable (s.Guarded e) :=
  match e with
  | .step i fault => inferInstanceAs (Decidable (∀ t ∈ s.threads[i]?,
      (fault = none → ∀ w ∈ t.writes s.shared, s.Clear w.1 w.2) ∧
        (fault ≠ none → ∀ u ∈ t.leaves, s.shared.cache u = some userStatusEnabled → s.shared.usable u = true)))
  | .login _ => inferInstanceAs (Decidable True)
  | .token .. => inferInstanceAs (Decidable True)
  | .manage .. => inferInstanceAs (Decidable True)
  | .expire _ => inferInstanceAs (Decidable True)
  | .auth _ => inferInstanceAs (Decidable True)

/-! ## Rows after a write -/

section Rows

variable {db db' : AuthDB} {id : Int} {copy : UserCopy} {f : Patch UserProfile}

/-- An update of the row of a user that is not deleted. -/
theorem live_updateWhere (ps : Table UserProfile) (f : Patch UserProfile) (id v : Int) (cache : Int → Option Int)
    (sessions : List LoginSession) :
    AuthDB.live ⟨(ps.updateWhere (fun p => p.id = id ∧ p.deleted = false) f).1, cache, sessions⟩ v
      = if v = id then ((AuthDB.live ⟨ps, cache, sessions⟩ v).map f.apply).filter (fun p => p.deleted = false)
        else AuthDB.live ⟨ps, cache, sessions⟩ v := by
  unfold AuthDB.live
  rw [Table.byId_updateWhere]
  cases hrow : ps.byId v with
  | none => simp
  | some p =>
    have hid : p.id = v := (Table.byId_eq_some.mp hrow).2
    by_cases hv : v = id
    · cases hdeleted : p.deleted <;> simp [hid, hv, hdeleted, Option.filter]
    · simp [hid, hv]

/-- A deletion concerns one user. -/
theorem AuthDB.live_delete (db : AuthDB) (id v : Int) :
    (db.delete id).live v = if v = id then none else db.live v := by
  refine (live_updateWhere db.profiles UserProfile.softDelete id v db.cache db.sessions).trans ?_
  split
  · cases AuthDB.live ⟨db.profiles, db.cache, db.sessions⟩ v <;> rfl
  · rfl

/-- An update concerns one user, and does not bring a deleted row back. -/
theorem AuthDB.live_update (db : AuthDB) (copy : UserCopy) (v : Int) :
    (db.update copy).live v = if v = copy.id then (db.live v).map copy.profile.apply else db.live v := by
  refine (live_updateWhere db.profiles copy.profile copy.id v db.cache db.sessions).trans ?_
  split
  · cases hlive : db.live v with
    | none => rfl
    | some p =>
      have hdeleted : p.deleted = false := by
        have := filter_eq_some_iff.mp hlive
        simpa using this.2
      simp [UserCopy.profile, hdeleted]
  · rfl

/-- What the row of a user allows depends on the row alone. -/
theorem AuthDB.allows_congr (h : db'.live id = db.live id) (role : Int) : db'.allows id role = db.allows id role := by
  unfold AuthDB.allows
  rw [h]

theorem AuthDB.usable_congr (h : db'.live id = db.live id) : db'.usable id = db.usable id := by
  unfold AuthDB.usable
  rw [h]

/-- A row with the same profiles is the same. -/
theorem AuthDB.live_congr (h : db'.profiles = db.profiles) (id : Int) : db'.live id = db.live id := by
  unfold AuthDB.live
  rw [h]

/-- The row of an enabled user is usable. -/
theorem AuthDB.usable_of_enabled {p : UserProfile} (hlive : db.live id = some p)
    (hstatus : p.status = userStatusEnabled) : db.usable id = true := by
  unfold AuthDB.usable
  rw [hlive]
  simp [hstatus, userStatusEnabled, userStatusDisabled]

end Rows

/-! ## The invariant -/

/-- What holds between steps that meet the condition. -/
structure AuthSystem.Inv (s : AuthSystem) : Prop where
  sessions : ∀ x ∈ s.shared.sessions, s.shared.allows x.id x.role = true
  logins : ∀ t ∈ s.threads, ∀ x ∈ t.opens, s.shared.allows x.id x.role = true
  copies : ∀ t ∈ s.threads, ∀ c ∈ t.carries, c.2 = userStatusEnabled → s.shared.usable c.1 = true

section Steps

variable {s : AuthSystem} {i : Nat} {t t' : AuthThread} {db : AuthDB} {u : Int} {fault : Option Err}

/-- **Steps that write no row** keep the invariant if they bring nothing that a row does not allow. -/
theorem AuthSystem.Inv.move (h : s.Inv) (hprofiles : db.profiles = s.shared.profiles)
    (hsessions : ∀ x ∈ db.sessions, s.shared.allows x.id x.role = true)
    (hlogins : ∀ x ∈ t'.opens, s.shared.allows x.id x.role = true)
    (hcopies : ∀ c ∈ t'.carries, c.2 = userStatusEnabled → s.shared.usable c.1 = true) :
    AuthSystem.Inv ⟨db, s.threads.set i t'⟩ := by
  have hlive := AuthDB.live_congr hprofiles
  have hallows := fun (id role : Int) => AuthDB.allows_congr (hlive id) role
  have husable := fun (id : Int) => AuthDB.usable_congr (hlive id)
  constructor
  · intro x hx
    rw [hallows]
    exact hsessions x hx
  · refine Pool.forall_mem_set (fun x hx y hy => ?_) fun y hy => ?_
    · rw [hallows]
      exact h.logins x hx y hy
    · rw [hallows]
      exact hlogins y hy
  · refine Pool.forall_mem_set (fun x hx c hc henabled => ?_) fun c hc henabled => ?_
    · rw [husable]
      exact h.copies x hx c hc henabled
    · rw [husable]
      exact hcopies c hc henabled

/-- **Steps that write the row of a user** keep the invariant if nothing is around that the row will not
allow. -/
theorem AuthSystem.Inv.write (h : s.Inv) (hsessions : db.sessions = s.shared.sessions) (hclear : s.Clear u db)
    (hother : ∀ v, v ≠ u → db.live v = s.shared.live v) (hlogins : t'.opens = none) (hcopies : t'.carries = none) :
    AuthSystem.Inv ⟨db, s.threads.set i t'⟩ := by
  constructor
  · intro x hx
    have hx : x ∈ s.shared.sessions := hsessions ▸ hx
    by_cases hid : x.id = u
    · exact hid ▸ hclear.sessions x hx hid
    · rw [AuthDB.allows_congr (hother x.id hid)]
      exact h.sessions x hx
  · refine Pool.forall_mem_set (fun x hx y hy => ?_) (by simp [hlogins])
    by_cases hid : y.id = u
    · exact hid ▸ hclear.logins x hx y hy hid
    · rw [AuthDB.allows_congr (hother y.id hid)]
      exact h.logins x hx y hy
  · refine Pool.forall_mem_set (fun x hx c hc henabled => ?_) (by simp [hcopies])
    by_cases hid : c.1 = u
    · exact hid ▸ hclear.copies x hx c hc hid henabled
    · rw [AuthDB.usable_congr (hother c.1 hid)]
      exact h.copies x hx c hc henabled

/-- What a request that begins brings: nothing yet. -/
theorem AuthSystem.Inv.spawn (h : s.Inv) (hlogins : t.opens = none) (hcopies : t.carries = none) :
    AuthSystem.Inv (s.spawn t) where
  sessions := h.sessions
  logins := Pool.forall_spawn h.logins (by simp [hlogins])
  copies := Pool.forall_spawn h.copies (by simp [hcopies])

/-- A step that changes nothing but its thread. -/
theorem AuthSystem.Inv.stay (h : s.Inv) (hlogins : ∀ x ∈ t'.opens, s.shared.allows x.id x.role = true)
    (hcopies : ∀ c ∈ t'.carries, c.2 = userStatusEnabled → s.shared.usable c.1 = true) :
    AuthSystem.Inv ⟨s.shared, s.threads.set i t'⟩ := h.move rfl h.sessions hlogins hcopies

/-- A step after which its thread brings nothing. -/
theorem AuthSystem.Inv.rest (h : s.Inv) (hprofiles : db.profiles = s.shared.profiles)
    (hsessions : db.sessions = s.shared.sessions) (hlogins : t'.opens = none) (hcopies : t'.carries = none) :
    AuthSystem.Inv ⟨db, s.threads.set i t'⟩ :=
  h.move hprofiles (hsessions ▸ h.sessions) (by simp [hlogins]) (by simp [hcopies])

/-- What `ManageUser` has loaded is not on its way to a session or to Redis. -/
theorem AdminAction.found_quiet (myRole : Int) (action : AdminAction) (id : Int) (row : Option UserProfile) :
    (action.found myRole id row).opens = none ∧ (action.found myRole id row).carries = none := by
  unfold AdminAction.found AdminAction.begin
  split
  · exact ⟨rfl, rfl⟩
  split
  · exact ⟨rfl, rfl⟩
  split
  · split <;> exact ⟨rfl, rfl⟩
  · split <;> exact ⟨rfl, rfl⟩

/-- **Step lemma**: a step of a request that writes only where nothing is in the way keeps the invariant. -/
theorem AuthSystem.Inv.stepThread (h : s.Inv) (hmem : t ∈ s.threads)
    (hwrites : fault = none → ∀ w ∈ t.writes s.shared, s.Clear w.1 w.2) :
    AuthSystem.Inv ⟨(t.step fault s.shared).2, s.threads.set i (t.step fault s.shared).1⟩ := by
  cases t with
  | login id =>
    simp only [AuthThread.step]
    split
    · exact h.stay nofun nofun
    · exact h.stay nofun nofun
    · next _ _ p hlive =>
      split
      · exact h.stay nofun nofun
      · next hstatus =>
        -- the session has the role of the row
        refine h.stay ?_ nofun
        rintro _ ⟨⟩
        have hid : p.id = id := (Table.byId_eq_some.mp (filter_eq_some_iff.mp hlive).1).2
        have hstatus : p.status = userStatusEnabled := not_not.mp hstatus
        rw [hid, AuthDB.allows, hlive]
        simp [hstatus, userStatusEnabled, userStatusDisabled]
  | session x =>
    simp only [AuthThread.step]
    split
    · exact h.stay nofun nofun
    · refine h.move rfl (fun y hy => ?_) nofun nofun
      rcases mem_append.mp hy with hold | hnew
      · exact h.sessions y hold
      · exact mem_singleton.mp hnew ▸ h.logins _ hmem x rfl
  | token userId refusal =>
    simp only [AuthThread.step]
    split <;> exact h.stay nofun nofun
  | lookup userId refusal =>
    simp only [AuthThread.step]
    split
    · next _ _ p hlive =>
      refine h.stay nofun ?_
      rintro _ ⟨⟩ henabled
      exact AuthDB.usable_of_enabled hlive henabled
    · exact h.stay nofun nofun
  | fill userId status result =>
    simp only [AuthThread.step]
    split
    · exact h.stay nofun nofun
    · exact h.rest rfl rfl rfl rfl
  | manage myRole action id =>
    obtain ⟨hlogins, hcopies⟩ := action.found_quiet myRole _ _
    exact h.rest rfl rfl hlogins hcopies
  | delete copy =>
    simp only [AuthThread.step]
    split
    · exact h.stay nofun nofun
    · exact h.write rfl (hwrites rfl _ rfl)
        (fun v hv => (s.shared.live_delete copy.id v).trans (if_neg hv)) rfl rfl
  | forget copy =>
    simp only [AuthThread.step]
    split
    · exact h.stay nofun nofun
    · exact h.rest rfl rfl rfl rfl
  | current action copy =>
    simp only [AuthThread.step]
    split <;> exact h.stay nofun nofun
  | update action copy =>
    simp only [AuthThread.step]
    split
    · exact h.stay nofun nofun
    · exact h.write rfl (hwrites rfl _ rfl)
        (fun v hv => (s.shared.live_update copy v).trans (if_neg hv)) rfl rfl
  | reread action id =>
    simp only [AuthThread.step]
    split
    · exact h.stay nofun nofun
    · exact h.stay nofun nofun
    · next _ _ p hlive =>
      refine h.stay nofun ?_
      rintro _ ⟨⟩ henabled
      exact AuthDB.usable_of_enabled hlive henabled
  | cache action id status =>
    simp only [AuthThread.step]
    split
    · exact h.stay nofun nofun
    · split <;> exact h.rest rfl rfl rfl rfl
  | invalidate id =>
    simp only [AuthThread.step]
    split
    · exact h.stay nofun nofun
    · exact h.rest rfl rfl rfl rfl
  | returned r => exact h.stay nofun nofun

/-- What Redis says after a write. -/
theorem cache_setCache {status : Option Int} {v : Int}
    (hv : (db.setCache u status).cache v = some userStatusEnabled) :
    (v = u ∧ status = some userStatusEnabled) ∨ (v ≠ u ∧ db.cache v = some userStatusEnabled) := by
  have hv : (if v = u then status else db.cache v) = some userStatusEnabled := hv
  split at hv
  · next h => exact .inl ⟨h, hv⟩
  · next h => exact .inr ⟨h, hv⟩

/-- **A copy that says that a user is enabled** after a step is right, or it was there before and no call for
the user returned success. -/
theorem AuthSystem.Inv.cached_stepThread (h : s.Inv) (hmem : t ∈ s.threads)
    (hleaves : fault ≠ none → ∀ v ∈ t.leaves, s.shared.cache v = some userStatusEnabled → s.shared.usable v = true)
    (hu : (t.step fault s.shared).2.cache u = some userStatusEnabled) :
    (t.step fault s.shared).2.usable u = true ∨
      (s.shared.cache u = some userStatusEnabled ∧ t.succeeds fault ≠ some u) := by
  -- most steps leave Redis alone
  have hsame : (t.step fault s.shared).2.cache = s.shared.cache → t.succeeds fault = none →
      s.shared.cache u = some userStatusEnabled ∧ t.succeeds fault ≠ some u := by
    intro hcache hnone
    rw [hcache] at hu
    exact ⟨hu, by rw [hnone]; exact nofun⟩
  cases t with
  | login id =>
    refine .inr (hsame ?_ rfl)
    simp only [AuthThread.step]
    split
    · rfl
    · rfl
    · split <;> rfl
  | session x =>
    refine .inr (hsame ?_ rfl)
    simp only [AuthThread.step]
    split <;> rfl
  | token userId refusal =>
    refine .inr (hsame ?_ rfl)
    simp only [AuthThread.step]
    split <;> rfl
  | lookup userId refusal =>
    refine .inr (hsame ?_ rfl)
    simp only [AuthThread.step]
    split <;> rfl
  | fill userId status result =>
    cases fault with
    | some e => exact .inr (hsame rfl rfl)
    | none =>
      rcases cache_setCache hu with ⟨rfl, hstatus⟩ | ⟨-, hold⟩
      · exact .inl (h.copies _ hmem (u, status) rfl (Option.some.inj hstatus))
      · exact .inr ⟨hold, nofun⟩
  | manage myRole action id => exact .inr (hsame rfl rfl)
  | delete copy => cases fault <;> exact .inr (hsame rfl rfl)
  | forget copy =>
    cases fault with
    | some e => exact .inr (hsame rfl rfl)
    | none =>
      rcases cache_setCache hu with ⟨-, hnone⟩ | ⟨-, hold⟩
      · cases hnone
      · exact .inr ⟨hold, nofun⟩
  | current action copy =>
    refine .inr (hsame ?_ rfl)
    simp only [AuthThread.step]
    split <;> rfl
  | update action copy => cases fault <;> exact .inr (hsame rfl rfl)
  | reread action id =>
    refine .inr (hsame ?_ rfl)
    simp only [AuthThread.step]
    split <;> rfl
  | cache action id status =>
    cases fault with
    | some e => exact .inr (hsame rfl (by simp [AuthThread.succeeds]))
    | none =>
      rcases cache_setCache hu with ⟨rfl, hstatus⟩ | ⟨hne, hold⟩
      · exact .inl (h.copies _ hmem (u, status) rfl (Option.some.inj hstatus))
      · refine .inr ⟨hold, ?_⟩
        simp only [AuthThread.succeeds]
        split
        · exact nofun
        · exact fun hid => hne (Option.some.inj hid).symm
  | invalidate id =>
    cases fault with
    | some e =>
      by_cases hid : u = id
      · exact .inl (hleaves nofun u (hid ▸ rfl) hu)
      · exact .inr ⟨hu, fun hsome => hid (Option.some.inj hsome).symm⟩
    | none =>
      rcases cache_setCache hu with ⟨-, hnone⟩ | ⟨hne, hold⟩
      · cases hnone
      · exact .inr ⟨hold, fun hid => hne (Option.some.inj hid).symm⟩
  | returned r => exact .inr (hsame rfl rfl)

/-- **Step lemma**: a step of the system that meets the condition keeps the invariant. -/
theorem AuthSystem.Inv.step (h : s.Inv) {e : AuthEvent} (he : s.Guarded e) : (s.step e).Inv := by
  cases e with
  | login id => exact h.spawn rfl rfl
  | token userId refusal => exact h.spawn rfl rfl
  | manage myRole action id => exact h.spawn rfl rfl
  | step i fault =>
    refine Pool.stepAt_elim (fun _ => h) fun t ht => ?_
    exact h.stepThread (mem_of_getElem? ht) (he t ht).1
  | expire id => exact ⟨h.sessions, h.logins, h.copies⟩
  | auth q => exact h

/-- A copy in Redis over a step of the system. -/
theorem AuthSystem.Inv.cached (h : s.Inv) {e : AuthEvent} (he : s.Guarded e)
    (hu : (s.step e).shared.cache u = some userStatusEnabled) :
    (s.step e).shared.usable u = true ∨ (s.shared.cache u = some userStatusEnabled ∧ s.succeeds e ≠ some u) := by
  cases e with
  | login id => exact .inr ⟨hu, nofun⟩
  | token userId refusal => exact .inr ⟨hu, nofun⟩
  | manage myRole action id => exact .inr ⟨hu, nofun⟩
  | step i fault =>
    cases ht : s.threads[i]? with
    | none =>
      have hstep : s.step (.step i fault) = s := Pool.stepAt_of_none ht
      have hsucceeds : s.succeeds (.step i fault) = none := by simp [AuthSystem.succeeds, ht]
      rw [hstep] at hu ⊢
      exact .inr ⟨hu, by rw [hsucceeds]; exact nofun⟩
    | some t =>
      have hstep : s.step (.step i fault)
          = ⟨(t.step fault s.shared).2, s.threads.set i (t.step fault s.shared).1⟩ := Pool.stepAt_of_some ht
      have hsucceeds : s.succeeds (.step i fault) = t.succeeds fault := by simp [AuthSystem.succeeds, ht]
      rw [hstep] at hu ⊢
      rw [hsucceeds]
      exact h.cached_stepThread (mem_of_getElem? ht) (he t ht).2 hu
  | expire id =>
    rcases cache_setCache hu with ⟨-, hnone⟩ | ⟨-, hold⟩
    · cases hnone
    · exact .inr ⟨hold, nofun⟩
  | auth q => exact .inr ⟨hu, nofun⟩

end Steps

/-! ## Runs -/

/-- What holds in a run whose steps meet the condition: nothing says of a revoked user that he is enabled. -/
structure AuthRun.Inv (r : AuthRun) : Prop where
  system : r.system.Inv
  usable : ∀ u, r.revoked u = true → r.system.shared.usable u = false
  cached : ∀ u, r.revoked u = true → r.system.shared.cache u ≠ some userStatusEnabled

section Runs

variable {r : AuthRun} {e : AuthEvent}

theorem AuthRun.inv_start (profiles : Table UserProfile) : (AuthRun.start profiles).Inv := by
  have hnone : ∀ u, (AuthRun.start profiles).revoked u ≠ true := fun _ => Bool.false_ne_true
  constructor
  · constructor
    · intro x hx
      cases hx
    · intro t ht
      cases ht
    · intro t ht
      cases ht
  · intro u hu
    exact absurd hu (hnone u)
  · intro u hu
    exact absurd hu (hnone u)

/-- **Step lemma**: a step that meets the condition revokes no user whose copy in Redis says enabled. -/
theorem AuthRun.Inv.step (h : r.Inv) (he : r.system.Guarded e) : (r.step e).Inv := by
  have hrevoked : ∀ u, (r.step e).revoked u = true →
      (r.system.step e).shared.usable u = false ∧ (r.revoked u = true ∨ r.system.succeeds e = some u) := by
    intro u hu
    simpa [AuthRun.step] using hu
  refine ⟨h.system.step he, fun u hu => (hrevoked u hu).1, fun u hu hcache => ?_⟩
  obtain ⟨husable, hwhy⟩ := hrevoked u hu
  rcases h.system.cached he hcache with hok | ⟨hold, hnot⟩
  · rw [hok] at husable
    cases husable
  · -- the copy was there before, so the user was not revoked, and no call for him has returned
    rcases hwhy with hbefore | hnow
    · exact h.cached u hbefore hold
    · exact hnot hnow

/-- A role that is allowed allows the lower ones. -/
theorem AuthDB.allows_mono {db : AuthDB} {id role minRole : Int} (h : db.allows id role = true)
    (hle : minRole ≤ role) : db.allows id minRole = true := by
  simp only [AuthDB.allows, Option.any_eq_true, decide_eq_true_eq] at h ⊢
  obtain ⟨p, hp, hstatus, hrole⟩ := h
  exact ⟨p, hp, hstatus, by omega⟩

/-- What `authHelper` has checked of the user that it accepts. -/
theorem authHelper_ok {q : AuthRequest} {db : AuthDB} {user : AuthUser} (h : authHelper q db = .ok user) :
    q.user db = .ok user ∧ user.status ≠ userStatusDisabled ∧ q.minRole ≤ user.role := by
  obtain ⟨user', huser, h⟩ := bind_eq_ok.mp h
  obtain ⟨_, _, h⟩ := bind_eq_ok.mp h
  obtain ⟨hstatus, h⟩ := failIf_bind_eq_ok.mp h
  obtain ⟨hrole, h⟩ := failIf_bind_eq_ok.mp h
  obtain ⟨_, h⟩ := failIf_bind_eq_ok.mp h
  cases h
  exact ⟨huser, hstatus, by omega⟩

/-- The user of a request comes from an open session or has the role and the status of the row. -/
theorem AuthRequest.user_ok {q : AuthRequest} {db : AuthDB} {user : AuthUser} (h : q.user db = .ok user) :
    (∃ x ∈ db.sessions, x.id = user.id ∧ x.role = user.role) ∨
      ∃ p, db.live user.id = some p ∧ p.role = user.role ∧ p.status = user.status := by
  unfold AuthRequest.user at h
  split at h
  · next x hx =>
    cases h
    have hx := (filter_eq_some_iff.mp hx).1
    obtain ⟨i, -, hi⟩ := bind_eq_some_iff.mp hx
    exact .inl ⟨x, mem_of_getElem? hi, rfl, rfl⟩
  · split at h
    · cases h
    split at h
    · cases h
    · cases h
    · next p htoken =>
      split at h
      · cases h
      split at h
      · cases h
      cases h
      -- the row of an access token is one that is not deleted
      have hrow : p ∈ db.profiles.rows ∧ p.deleted = false := by
        unfold validateAccessToken at htoken
        split at htoken
        · cases htoken
        split at htoken
        · cases htoken
        · have hfind := Except.ok.inj htoken
          have hp := List.find?_some hfind
          exact ⟨List.mem_of_find?_eq_some hfind, (of_decide_eq_true hp).2⟩
      have hbyId : db.profiles.byId p.id = some p := Table.byId_eq_some.mpr ⟨hrow.1, rfl⟩
      refine .inr ⟨p, ?_, rfl, rfl⟩
      show (db.profiles.byId p.id).filter _ = some p
      rw [hbyId]
      simp [hrow.2]

/-- A key is accepted for the status enabled alone. -/
theorem tokenResult_ok {status : Int} {refusal : Option Err} (h : (tokenResult status refusal).toOption.isSome) :
    status = userStatusEnabled := by
  unfold tokenResult at h
  split at h
  · cases h
  · next hstatus => exact not_not.mp hstatus

/-- While the invariant holds, nothing is accepted that is not allowed. -/
theorem AuthRun.Inv.honours (h : r.Inv) (e : AuthEvent) : r.Honours e := by
  cases e with
  | auth q =>
    intro user hok
    obtain ⟨huser, hstatus, hrole⟩ := authHelper_ok hok
    rcases AuthRequest.user_ok huser with ⟨x, hx, hid, hxrole⟩ | ⟨p, hlive, hprole, hpstatus⟩
    · have hallows := h.system.sessions x hx
      rw [hid, hxrole] at hallows
      exact AuthDB.allows_mono hallows hrole
    · unfold AuthDB.allows
      rw [hlive]
      simp [hprole, hpstatus, hstatus, hrole]
  | step i fault =>
    intro t ht u hu
    rw [← Bool.not_eq_true]
    intro hrevoked
    cases t with
    | token userId refusal =>
      simp only [AuthThread.accepts] at hu
      split at hu
      · next status hcache =>
        split at hu
        · next hok =>
          cases hu
          exact h.cached u hrevoked (tokenResult_ok hok ▸ hcache)
        · cases hu
      · cases hu
    | lookup userId refusal =>
      simp only [AuthThread.accepts] at hu
      split at hu
      · next p hlive =>
        split at hu
        · next hok =>
          cases hu
          have husable := AuthDB.usable_of_enabled hlive (tokenResult_ok hok)
          rw [h.usable u hrevoked] at husable
          cases husable
        · cases hu
      · cases hu
    | _ => cases hu
  | _ => trivial

end Runs

/-- **Revoked rights are not used.** In a run in which every write of `ManageUser` finds no session and no copy
on its way to Redis that the row will not allow, and no deletion in Redis fails that was needed, `authHelper`
accepts what the row allows alone, and no key of a revoked user is accepted. -/
theorem revocation_takes_effect (profiles : Table UserProfile) (past : List AuthEvent) (e : AuthEvent)
    (h : Along AuthRun.step (fun r => r.system.Guarded) (.start profiles) past) :
    (run AuthRun.step (.start profiles) past).Honours e :=
  (run_keeps_along (fun _ _ hr he => AuthRun.Inv.step hr he) (AuthRun.inv_start profiles) h).honours e

/-- A user and an administrator. -/
def sampleProfiles : Table UserProfile :=
  ⟨[{ id := 1, username := "user" }, { id := 2, username := "admin", role := roleAdminUser }],
    by decide, by decide, by decide⟩

/-- A request with a key of the sample user fills the copy in Redis. -/
def sampleKey : List AuthEvent := [.token 1 none, .step 0 none, .step 0 none, .step 0 none]

/-- The root user asks for an action, and the call goes through to its end. -/
def sampleManage (action : ManageAction) (id : Int) (thread : Nat) : List AuthEvent :=
  .manage roleRootUser (.change action) id :: List.replicate 6 (.step thread none)

/-- A user logs in. -/
def sampleLogin (id : Int) : List AuthEvent := [.login id, .step 0 none, .step 0 none]

/-- The copy in Redis is filled before the user is disabled, and a request with the key is refused after. -/
theorem revocation_takes_effect_sample :
    (run AuthRun.step (.start sampleProfiles) (sampleKey ++ sampleManage .disable 1 1 ++ [.token 1 none])).Honours
        (.step 2 none) ∧
      (run AuthRun.step (.start sampleProfiles) (sampleKey ++ sampleManage .disable 1 1)).revoked 1 = true :=
  ⟨revocation_takes_effect sampleProfiles _ _ (by decide), by decide⟩

/-- After a ban that returned success the session of the user is accepted, and so is a key for which
`GetUserCache` read the row before the ban and filled Redis after it; after a demotion that returned success
the session of the former administrator is accepted for administrators. -/
theorem revoked_rights_are_used :
    ((run AuthRun.step (.start sampleProfiles) (sampleLogin 1 ++ sampleManage .disable 1 1)).revoked 1 = true ∧
      ¬ (run AuthRun.step (.start sampleProfiles) (sampleLogin 1 ++ sampleManage .disable 1 1)).Honours
        (.auth { session := some 0, minRole := roleCommonUser })) ∧
    ((run AuthRun.step (.start sampleProfiles)
        (sampleLogin 2 ++ (sampleManage .demote 2 1).dropLast)).system.succeeds (.step 1 none) = some 2 ∧
      ¬ (run AuthRun.step (.start sampleProfiles) (sampleLogin 2 ++ sampleManage .demote 2 1)).Honours
        (.auth { session := some 0, minRole := roleAdminUser })) ∧
    ¬ (run AuthRun.step (.start sampleProfiles)
        (sampleKey.dropLast ++ sampleManage .disable 1 1 ++ [.step 0 none, .token 1 none])).Honours
      (.step 2 none) := by
  refine ⟨⟨by decide, fun h => ?_⟩, ⟨by decide, fun h => ?_⟩, fun h => ?_⟩
  · exact absurd (h ⟨"user", roleCommonUser, 1, userStatusEnabled, false⟩ (by decide +kernel)) (by decide)
  · exact absurd (h ⟨"admin", roleAdminUser, 2, userStatusEnabled, false⟩ (by decide +kernel)) (by decide)
  · exact absurd (h (.token 1 none) (by rfl) 1 (by decide)) (by decide)

end Prox
