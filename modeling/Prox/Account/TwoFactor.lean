import Prox.Lib.Run
import Prox.Lib.Table
import Prox.Lib.Threads
import Prox.Lib.Time
import Prox.Model.Errors

/-! # The second factor

The embedding of `model/twofa.go`, `common/totp.go` and of the requests of `controller/twofa.go` that
compare codes or disable the second factor of one user. A request loads the row, works on its copy and
saves the copy as a whole, so requests that overlap lose each other's counts, accept one backup code twice,
and bring a deleted row back. The main result says that nothing of this happens as long as a code is
compared on a copy that counts and locks like the row, while no other comparison is waiting to be saved,
and every save goes through to a row that is still there.

There is no `Setup2FA` here, so the row of the user keeps its primary key, which is left out. The session of
a login and the role of an administrator are taken to be in order. -/

namespace Prox

open List

/-! ## Rows and codes -/

/-- `MaxFailAttempts`. -/
def maxFailAttempts : Nat := 5

/-- `LockoutDuration`, in nanoseconds. -/
def lockoutDuration : Int := 300 * nanosPerSecond

/-- `BackupCodeLength`. -/
def backupCodeLength : Nat := 8

/-- The row of the user in `two_fas`. -/
structure TwoFA where
  secret : String
  isEnabled : Bool := true
  failedAttempts : Nat := 0
  lockedUntil : Option Int := none
  lastUsedAt : Option Int := none

/-- A row of `two_fa_backup_codes`. -/
structure TwoFABackupCode where
  id : Int
  codeHash : String
  isUsed : Bool := false
  usedAt : Option Int := none
  deleted : Bool := false

namespace TwoFA

/-- `IsLocked`. -/
def isLocked (t : TwoFA) (now : Int) : Bool :=
  match t.lockedUntil with
  | none => false
  | some lockedUntil => now < lockedUntil

/-- `IncrementFailedAttempts`, up to its save. -/
def incrementFailedAttempts (t : TwoFA) (now : Int) : TwoFA :=
  let failedAttempts := t.failedAttempts + 1
  { t with
    failedAttempts
    lockedUntil := if maxFailAttempts ≤ failedAttempts then some (now + lockoutDuration) else t.lockedUntil }

/-- What a code that is right makes of the row. -/
def updateUsage (t : TwoFA) (now : Int) : TwoFA :=
  { t with failedAttempts := 0, lockedUntil := none, lastUsedAt := some now }

end TwoFA

/-- `strings.ReplaceAll` of a character by nothing. -/
def removeChar (c : Char) (s : String) : String := String.ofList (s.toList.filter (· ≠ c))

/-- `strings.ToUpper`, as far as the result can be compared with an ASCII text: the dotless `ı` and the long
`ſ` are the only characters beyond ASCII whose upper case is within it. -/
def toUpperText (s : String) : String :=
  s.map fun c => if c.toNat = 0x131 then 'I' else if c.toNat = 0x17F then 'S' else c.toUpper

/-- `ValidateNumericCode`. -/
def validateNumericCode (code : String) : Except Err String :=
  let code := removeChar ' ' code
  if byteLen code ≠ 6 then .error (.text "验证码必须是6位数字")
  else if (atoi code).isNone then .error (.text "验证码只能包含数字")
  else .ok code

/-- `ValidateBackupCode` of `common`: the format of a backup code. -/
def validBackupCode (code : String) : Bool :=
  let cleanCode := toUpperText (removeChar '-' code)
  byteLen cleanCode = backupCodeLength ∧
    cleanCode.toList.all fun c => ('A' ≤ c ∧ c ≤ 'Z') ∨ ('0' ≤ c ∧ c ≤ '9')

/-- `NormalizeBackupCode`. -/
def normalizeBackupCode (code : String) : String :=
  let cleanCode := toUpperText (removeChar '-' code)
  if byteLen cleanCode = backupCodeLength then
    concat [String.ofList (cleanCode.toList.take 4), "-", String.ofList (cleanCode.toList.drop 4)]
  else code

/-- `totp.Validate` of a code and a secret, `ValidatePasswordAndHash` and the format of a time. -/
structure TwoFAEnv where
  totp : String → String → Bool
  validatePasswordAndHash : String → String → Bool
  formatTime : Int → String

/-- `ValidateTOTPCode`. -/
def validateTOTPCode (env : TwoFAEnv) (secret code : String) : Bool :=
  let cleanCode := removeChar ' ' code
  byteLen cleanCode = 6 && env.totp cleanCode secret

/-! ## Tables -/

/-- What has happened to the second factor. -/
inductive TwoFAMark where
  /-- A code was compared, and it was right or wrong. -/
  | compared (right : Bool) (now : Int)
  /-- A code was accepted: the backup code with a number, or a time-based one. -/
  | accepted (code : Option Int)
  /-- `DisableTwoFA` has returned. -/
  | disabled
  deriving DecidableEq

/-- The tables of the user, the auto-increment key of the codes, and what has happened, the newest first. -/
structure TwoFADB where
  row : Option TwoFA
  codes : List TwoFABackupCode
  nextCode : Int
  history : List TwoFAMark := []

namespace TwoFADB

/-- The tables with a row and codes, before anything has happened. -/
def start (row : Option TwoFA) (codes : List TwoFABackupCode) : TwoFADB where
  row := row
  codes := codes
  nextCode := (codes.map TwoFABackupCode.id).foldr max 0 + 1

/-- Adds to what has happened. -/
def mark (db : TwoFADB) (m : TwoFAMark) : TwoFADB := { db with history := m :: db.history }

/-- `Update`: the save of a copy, which inserts the row when there is none. -/
def save (db : TwoFADB) (copy : TwoFA) : TwoFADB := { db with row := some copy }

/-- The save of a backup code: the whole row is written, deleted or not, and inserted when there is none. -/
def saveCode (db : TwoFADB) (code : TwoFABackupCode) : TwoFADB :=
  if code.id ∈ db.codes.map TwoFABackupCode.id then
    { db with codes := db.codes.map fun c => if c.id = code.id then code else c }
  else { db with codes := db.codes ++ [code] }

/-- `Delete`: the row and all codes. -/
def delete (db : TwoFADB) : TwoFADB := { db with row := none, codes := [] }

/-- The codes that are inserted from a key on. -/
def numberCodes : Int → List String → List TwoFABackupCode
  | _, [] => []
  | i, hash :: hashes => { id := i, codeHash := hash } :: numberCodes (i + 1) hashes

/-- `CreateBackupCodes`, given the hashes of the codes: the ones that are there are deleted softly. -/
def createBackupCodes (db : TwoFADB) (hashes : List String) : TwoFADB :=
  { db with
    codes := db.codes.map (fun c => { c with deleted := true }) ++ numberCodes db.nextCode hashes
    nextCode := db.nextCode + hashes.length }

/-- The code that `ValidateBackupCode` finds. -/
def findBackupCode (env : TwoFAEnv) (code : String) (db : TwoFADB) : Option TwoFABackupCode :=
  db.codes.find? fun c => !c.isUsed && !c.deleted &&
    env.validatePasswordAndHash (normalizeBackupCode code) c.codeHash

end TwoFADB

/-! ## Requests -/

/-- A request of the user or of an administrator. -/
inductive TwoFARequest where
  | verify2FALogin (code : String)
  | disable2FA (code : String)
  /-- The hashes are those of the codes that are generated. -/
  | regenerateBackupCodes (code : String) (hashes : List String)
  | adminDisable2FA

/-- A request before its next step. -/
inductive TwoFAThread where
  /-- `GetTwoFAByUserId`. -/
  | load (r : TwoFARequest)
  /-- `ValidateTOTPAndUpdateUsage` of a code, up to its save. -/
  | totp (r : TwoFARequest) (cleanCode : String) (copy : TwoFA)
  | saveTOTP (r : TwoFARequest) (copy : TwoFA) (valid : Bool)
  /-- `ValidateBackupCodeAndUpdateUsage`, up to the save of the code. -/
  | backup (r : TwoFARequest) (code : String) (copy : TwoFA)
  | saveCode (r : TwoFARequest) (copy : TwoFA) (code : TwoFABackupCode)
  | saveBackup (r : TwoFARequest) (copy : TwoFA) (valid : Bool)
  /-- `DisableTwoFA`, up to the deletion. -/
  | find
  | delete
  | create (hashes : List String)
  | returned (result : Except Err Unit)

/-- The error of a second factor that is not enabled. -/
def errTwoFADisabled : Err := .text "用户未启用2FA"

/-- The error of a wrong code. -/
def errWrongCode : Err := .text "验证码或备用码错误，请重试"

/-- The error of a locked account. -/
def errTwoFALocked (env : TwoFAEnv) (copy : TwoFA) : Err :=
  .text (concat ["账户已被锁定，请在", env.formatTime (copy.lockedUntil.getD 0), "后重试"])

namespace TwoFARequest

/-- What a request does with the row that it has loaded. -/
def begin (r : TwoFARequest) (copy : TwoFA) : TwoFAThread :=
  match r with
  | verify2FALogin code | disable2FA code =>
    match validateNumericCode code with
    | .error _ => .backup r code copy
    | .ok cleanCode => .totp r cleanCode copy
  | regenerateBackupCodes code _ =>
    match validateNumericCode code with
    | .error e => .returned (.error e)
    | .ok cleanCode => .totp r cleanCode copy
  | adminDisable2FA => .find

/-- What a request does when the time-based code was not compared or was wrong. -/
def fallBack (r : TwoFARequest) (e : Err) (copy : TwoFA) : TwoFAThread :=
  match r with
  | verify2FALogin code | disable2FA code => .backup r code copy
  | regenerateBackupCodes .. | adminDisable2FA => .returned (.error e)

/-- What a request does when its code was accepted. -/
def accept : TwoFARequest → TwoFAThread
  | verify2FALogin _ => .returned (.ok ())
  | disable2FA _ | adminDisable2FA => .find
  | regenerateBackupCodes _ hashes => .create hashes

end TwoFARequest

/-- A save whose error is logged and dropped. -/
def TwoFADB.trySave (fault : Option Err) (copy : TwoFA) (db : TwoFADB) : TwoFADB :=
  if fault.isSome then db else db.save copy

/-- The next step of a request, at a time in nanoseconds. A fault is an error of the database. -/
def TwoFAThread.step (env : TwoFAEnv) (now : Int) (fault : Option Err) (t : TwoFAThread) (db : TwoFADB) :
    TwoFAThread × TwoFADB :=
  match t with
  | .load r =>
    match fault, db.row with
    | some e, _ => (.returned (.error e), db)
    | none, none => (.returned (.error errTwoFADisabled), db)
    | none, some copy => (if copy.isEnabled then r.begin copy else .returned (.error errTwoFADisabled), db)
  | .totp r cleanCode copy =>
    if copy.isLocked now then (r.fallBack (errTwoFALocked env copy) copy, db)
    else if validateTOTPCode env copy.secret cleanCode then
      (.saveTOTP r (copy.updateUsage now) true, (db.mark (.compared true now)).mark (.accepted none))
    else (.saveTOTP r (copy.incrementFailedAttempts now) false, db.mark (.compared false now))
  | .saveTOTP r copy valid => (if valid then r.accept else r.fallBack errWrongCode copy, db.trySave fault copy)
  | .backup r code copy =>
    if copy.isLocked now then (.returned (.error (errTwoFALocked env copy)), db)
    else if validBackupCode code = false then (.returned (.error (.text "验证码或备用码不正确")), db)
    else
      match fault with
      | some e => (.returned (.error e), db)
      | none =>
        match db.findBackupCode env code with
        | some c => (.saveCode r copy c, db.mark (.compared true now))
        | none => (.saveBackup r (copy.incrementFailedAttempts now) false, db.mark (.compared false now))
  | .saveCode r copy code =>
    match fault with
    | some e => (.returned (.error e), db)
    | none =>
      (.saveBackup r (copy.updateUsage now) true,
        (db.saveCode { code with isUsed := true, usedAt := some now }).mark (.accepted (some code.id)))
  | .saveBackup r copy valid =>
    (if valid then r.accept else .returned (.error errWrongCode), db.trySave fault copy)
  | .find =>
    match fault, db.row with
    | some e, _ => (.returned (.error e), db)
    | none, none => (.returned (.error (.sentinel .twoFANotEnabled)), db)
    | none, some _ => (.delete, db)
  | .delete =>
    match fault with
    | some e => (.returned (.error e), db)
    | none => (.returned (.ok ()), db.delete.mark .disabled)
  | .create hashes =>
    match fault with
    | some e => (.returned (.error e), db)
    | none => (.returned (.ok ()), db.createBackupCodes hashes)
  | .returned r => (.returned r, db)

/-- The beginning of a request. -/
def TwoFARequest.start : TwoFARequest → TwoFAThread
  | adminDisable2FA => .find
  | r => .load r

/-- Any number of requests for the user. -/
abbrev TwoFASystem := Pool TwoFADB TwoFAThread

/-- A step of the system: a request begins, or it makes its next step. -/
inductive TwoFAEvent where
  | request (r : TwoFARequest)
  | step (thread : Nat) (now : Int) (fault : Option Err)

/-- A step of the system. -/
def TwoFASystem.step (env : TwoFAEnv) (s : TwoFASystem) : TwoFAEvent → TwoFASystem
  | .request r => s.spawn r.start
  | .step thread now fault => s.stepAt (TwoFAThread.step env now fault) thread

/-! ## The property -/

/-- The number of wrong codes since one was accepted. -/
def wrongSince : List TwoFAMark → Nat
  | [] => 0
  | .accepted _ :: _ => 0
  | .compared false _ :: past => wrongSince past + 1
  | .compared true _ :: past => wrongSince past
  | .disabled :: past => wrongSince past

/-- The time of the last wrong code. -/
def lastWrong : List TwoFAMark → Option Int
  | [] => none
  | .compared false now :: _ => some now
  | .compared true _ :: past => lastWrong past
  | .accepted _ :: past => lastWrong past
  | .disabled :: past => lastWrong past

/-- The backup code that was accepted. -/
def TwoFAMark.backupCode? : TwoFAMark → Option Int
  | .accepted code => code
  | .compared .. => none
  | .disabled => none

/-- A code that is compared after too many wrong ones is compared after the lockout. -/
def TwoFAMark.Late (past : List TwoFAMark) : TwoFAMark → Prop
  | .compared _ now => maxFailAttempts ≤ wrongSince past → ∃ t, lastWrong past = some t ∧ t + lockoutDuration ≤ now
  | .accepted _ => True
  | .disabled => True

/-- The second factor has not been worn down. -/
structure TwoFADB.Kept (db : TwoFADB) : Prop where
  /-- Every backup code was accepted at most once. -/
  once : (db.history.filterMap TwoFAMark.backupCode?).Nodup
  /-- No code was compared during a lockout. -/
  locked : Throughout TwoFAMark.Late db.history
  /-- Once disabled, it is gone. -/
  gone : .disabled ∈ db.history → db.row = none

/-! ## The condition -/

namespace TwoFAThread

/-- The copy that is saved next. -/
def owes : TwoFAThread → Option TwoFA
  | saveTOTP _ copy _ => some copy
  | saveBackup _ copy _ => some copy
  | load _ | totp .. | backup .. | saveCode .. | find | delete | create _ | returned _ => none

/-- The backup code that was right and is saved next. -/
def found : TwoFAThread → Option TwoFABackupCode
  | saveCode _ _ code => some code
  | load _ | totp .. | backup .. | saveTOTP .. | saveBackup .. | find | delete | create _ | returned _ => none

/-- A code was compared, and what came of it has yet to be saved. -/
def waits (t : TwoFAThread) : Bool := t.owes.isSome || t.found.isSome

/-- The copy on which the next step compares a code. -/
def compares (now : Int) (fault : Option Err) : TwoFAThread → Option TwoFA
  | totp _ _ copy => if copy.isLocked now then none else some copy
  | backup _ code copy => if copy.isLocked now ∨ validBackupCode code = false ∨ fault.isSome then none else some copy
  | load _ | saveTOTP .. | saveCode .. | saveBackup .. | find | delete | create _ | returned _ => none

end TwoFAThread

/-- A copy counts and locks like the row. -/
def TwoFADB.Agrees (db : TwoFADB) (copy : TwoFA) : Prop :=
  (db.row.map fun row => (row.failedAttempts, row.lockedUntil)) = some (copy.failedAttempts, copy.lockedUntil)
  deriving Decidable

/-- A code is compared on a copy that counts and locks like the row, while no comparison waits to be saved;
and a save goes through to a row that is there. -/
def TwoFASystem.Guarded (s : TwoFASystem) : TwoFAEvent → Prop
  | .request _ => True
  | .step i now fault => ∀ t ∈ s.threads[i]?,
    (∀ copy ∈ t.compares now fault, s.shared.Agrees copy ∧ ∀ t' ∈ s.threads, t'.waits = false) ∧
      (t.owes.isSome → fault = none ∧ s.shared.row.isSome)

instance TwoFASystem.decidableGuarded (s : TwoFASystem) (e : TwoFAEvent) : Decidable (s.Guarded e) :=
  match e with
  | .request _ => inferInstanceAs (Decidable True)
  | .step i now fault => inferInstanceAs (Decidable (∀ t ∈ s.threads[i]?,
      (∀ copy ∈ t.compares now fault, s.shared.Agrees copy ∧ ∀ t' ∈ s.threads, t'.waits = false) ∧
        (t.owes.isSome → fault = none ∧ s.shared.row.isSome)))

/-! ## Counting -/

/-- A row counts at least the wrong codes of a history, and locks after too many of them. -/
structure TwoFA.Counts (row : TwoFA) (history : List TwoFAMark) : Prop where
  enough : wrongSince history ≤ row.failedAttempts
  lock : maxFailAttempts ≤ wrongSince history →
    ∃ t, lastWrong history = some t ∧ row.lockedUntil = some (t + lockoutDuration)

namespace TwoFA.Counts

variable {row copy : TwoFA} {history : List TwoFAMark} {now : Int}

/-- Nothing has to be counted before anything has happened. -/
theorem nil (row : TwoFA) : row.Counts [] := ⟨Nat.zero_le _, fun h => absurd h (by decide)⟩

/-- Nothing has to be counted after a code was accepted. -/
theorem accepted (row : TwoFA) (code : Option Int) (history : List TwoFAMark) :
    row.Counts (.accepted code :: history) :=
  ⟨Nat.zero_le _, fun h => absurd h (by simp [wrongSince, maxFailAttempts])⟩

variable (h : row.Counts history)

include h

theorem right : row.Counts (.compared true now :: history) := ⟨h.enough, h.lock⟩

/-- The end of the second factor is not counted. -/
theorem disabled : row.Counts (.disabled :: history) := ⟨h.enough, h.lock⟩

/-- A wrong code is counted, and locks if it was one too many. -/
theorem wrong (now : Int) :
    (row.incrementFailedAttempts now).Counts (.compared false now :: history) := by
  have henough : wrongSince history + 1 ≤ row.failedAttempts + 1 := Nat.succ_le_succ h.enough
  refine ⟨henough, fun hmany => ⟨now, rfl, ?_⟩⟩
  exact if_pos (hmany.trans henough)

/-- Only what is counted and locked matters. -/
theorem congr (hcount : copy.failedAttempts = row.failedAttempts)
    (hlock : copy.lockedUntil = row.lockedUntil) : copy.Counts history :=
  ⟨hcount ▸ h.enough, fun hmany => hlock ▸ h.lock hmany⟩

/-- A code that is compared on a row that counts and is not locked is late enough. -/
theorem late (hlock : row.isLocked now = false) (right : Bool) :
    TwoFAMark.Late history (.compared right now) := by
  intro hmany
  obtain ⟨t, hlast, huntil⟩ := h.lock hmany
  refine ⟨t, hlast, ?_⟩
  rw [TwoFA.isLocked, huntil] at hlock
  exact Int.not_lt.mp (of_decide_eq_false hlock)

end TwoFA.Counts

/-! ## The invariant -/

/-- The backup codes that were accepted. -/
def TwoFADB.accepted (db : TwoFADB) : List Int := db.history.filterMap TwoFAMark.backupCode?

/-- What holds between the steps of requests that meet the condition. -/
structure TwoFASystem.Inv (s : TwoFASystem) : Prop where
  kept : s.shared.Kept
  /-- While no copy waits to be saved, the row counts what has happened. -/
  counted : (∀ t ∈ s.threads, t.owes = none) → ∀ row ∈ s.shared.row, row.Counts s.shared.history
  /-- A copy that waits to be saved counts what has happened. -/
  owed : ∀ t ∈ s.threads, ∀ copy ∈ t.owes, copy.Counts s.shared.history
  alone : Pool.Exclusive (fun t : TwoFAThread => t.waits = true) s.threads
  /-- A code that was accepted is used. -/
  used : ∀ c ∈ s.shared.codes, c.id ∈ s.shared.accepted → c.isUsed = true
  numbered : ∀ c ∈ s.shared.codes, c.id < s.shared.nextCode
  issued : ∀ i ∈ s.shared.accepted, i < s.shared.nextCode
  /-- A code that waits to be saved was not accepted before. -/
  found : ∀ t ∈ s.threads, ∀ c ∈ t.found, c.id ∉ s.shared.accepted ∧ c.id < s.shared.nextCode

section Steps

variable {s : TwoFASystem} {i : Nat} {t t' : TwoFAThread} {db : TwoFADB} {now : Int} {copy : TwoFA}

/-- A thread that owes or has found something waits. -/
theorem TwoFAThread.not_waits (h : t.waits = false) : t.owes = none ∧ t.found = none := by
  simpa [TwoFAThread.waits] using h

theorem TwoFAThread.waits_of (howes : t.owes = none) (hfound : t.found = none) : t.waits = false := by
  simp [TwoFAThread.waits, howes, hfound]

/-- The invariant looks at rows, codes and history, and at what the threads owe and have found. -/
theorem TwoFASystem.Inv.quiet (h : s.Inv) (ht : s.threads[i]? = some t) (howes : t.owes = none)
    (howes' : t'.owes = none) (hfound' : t'.found = none) :
    TwoFASystem.Inv ⟨s.shared, s.threads.set i t'⟩ where
  kept := h.kept
  counted hnone := by
    refine h.counted fun x hx => ?_
    obtain ⟨j, hj⟩ := mem_iff_getElem?.mp hx
    by_cases hij : i = j
    · subst hij
      rw [ht] at hj
      exact Option.some.inj hj ▸ howes
    · exact hnone x (mem_iff_getElem?.mpr ⟨j, by rw [List.getElem?_set_ne hij, hj]⟩)
  owed := Pool.forall_mem_set h.owed (by simp [howes'])
  alone := h.alone.set ht fun hw => by simp [TwoFAThread.waits_of howes' hfound'] at hw
  used := h.used
  numbered := h.numbered
  issued := h.issued
  found := Pool.forall_mem_set h.found (by simp [hfound'])

/-- A request that begins owes nothing. -/
theorem TwoFASystem.Inv.spawn (h : s.Inv) (howes : t.owes = none) (hfound : t.found = none) :
    TwoFASystem.Inv (s.spawn t) where
  kept := h.kept
  counted hnone := h.counted fun x hx => hnone x (mem_append_left _ hx)
  owed := Pool.forall_spawn h.owed (by simp [howes])
  alone := h.alone.append (by simp [TwoFAThread.waits_of howes hfound])
  used := h.used
  numbered := h.numbered
  issued := h.issued
  found := Pool.forall_spawn h.found (by simp [hfound])

/-- A code is compared in time while nothing waits to be saved. -/
theorem TwoFASystem.Inv.compare (h : s.Inv) (ht : s.threads[i]? = some t)
    (hnone : ∀ x ∈ s.threads, x.waits = false) {right : Bool}
    (hlate : TwoFAMark.Late s.shared.history (.compared right now))
    (howes : ∀ copy ∈ t'.owes, copy.Counts (.compared right now :: s.shared.history))
    (hright : t'.owes = none → right = true)
    (hfound : ∀ c ∈ t'.found, c ∈ s.shared.codes ∧ c.isUsed = false) :
    TwoFASystem.Inv ⟨s.shared.mark (.compared right now), s.threads.set i t'⟩ where
  kept :=
    { once := h.kept.once
      locked := ⟨hlate, h.kept.locked⟩
      gone := fun hmem => h.kept.gone (by simpa [TwoFADB.mark] using hmem) }
  counted hall row hrow := by
    -- the thread owes nothing, so the code was right, and the row counted before
    have hlt : i < s.threads.length := (List.getElem?_eq_some_iff.mp ht).1
    cases hright (hall t' (mem_iff_getElem?.mpr ⟨i, List.getElem?_set_self hlt⟩))
    exact (h.counted (fun x hx => (TwoFAThread.not_waits (hnone x hx)).1) row hrow).right
  owed := by
    refine Pool.forall_mem_set (fun x hx copy hcopy => ?_) howes
    rw [(TwoFAThread.not_waits (hnone x hx)).1] at hcopy
    cases hcopy
  alone := h.alone.set ht fun _ => .inr fun x hx => by simp [hnone x hx]
  used := h.used
  numbered := h.numbered
  issued := h.issued
  found := by
    refine Pool.forall_mem_set h.found fun c hc => ?_
    obtain ⟨hmem, hunused⟩ := hfound c hc
    refine ⟨fun haccepted => ?_, h.numbered c hmem⟩
    rw [h.used c hmem haccepted] at hunused
    cases hunused

/-- A time-based code is accepted, and any copy may be saved after it. -/
theorem TwoFASystem.Inv.accept {r : TwoFARequest} (h : s.Inv)
    (ht : s.threads[i]? = some (.saveTOTP r copy true)) (copy' : TwoFA) :
    TwoFASystem.Inv ⟨s.shared.mark (.accepted none), s.threads.set i (.saveTOTP r copy' true)⟩ where
  kept :=
    { once := h.kept.once
      locked := ⟨trivial, h.kept.locked⟩
      gone := fun hmem => h.kept.gone (by simpa [TwoFADB.mark] using hmem) }
  counted _ row _ := .accepted row none _
  owed _ _ copy _ := .accepted copy none _
  alone := h.alone.set ht fun _ => .inl rfl
  used := h.used
  numbered := h.numbered
  issued := h.issued
  found := Pool.forall_mem_set h.found nofun

/-- A code whose row is saved is used. -/
theorem TwoFADB.mem_saveCode {code c : TwoFABackupCode} (hc : c ∈ (db.saveCode code).codes) :
    c = code ∨ (c ∈ db.codes ∧ c.id ≠ code.id) := by
  unfold TwoFADB.saveCode at hc
  split at hc
  · obtain ⟨x, hx, rfl⟩ := mem_map.mp hc
    split
    · exact .inl rfl
    · next hid => exact .inr ⟨hx, hid⟩
  · next hnew =>
    rcases mem_append.mp hc with hmem | hmem
    · refine .inr ⟨hmem, fun hid => hnew ?_⟩
      exact hid ▸ mem_map_of_mem hmem
    · exact .inl (mem_singleton.mp hmem)

theorem TwoFADB.saveCode_fields (db : TwoFADB) (code : TwoFABackupCode) :
    (db.saveCode code).row = db.row ∧ (db.saveCode code).nextCode = db.nextCode ∧
      (db.saveCode code).history = db.history := by
  unfold TwoFADB.saveCode
  split <;> exact ⟨rfl, rfl, rfl⟩

/-- **A backup code is accepted** for the first time. -/
theorem TwoFASystem.Inv.acceptCode {r : TwoFARequest} {code : TwoFABackupCode} (h : s.Inv)
    (ht : s.threads[i]? = some (.saveCode r copy code)) (now : Int) :
    TwoFASystem.Inv ⟨(s.shared.saveCode { code with isUsed := true, usedAt := some now }).mark
      (.accepted (some code.id)), s.threads.set i (.saveBackup r (copy.updateUsage now) true)⟩ := by
  obtain ⟨hrow, hnext, hhistory⟩ :=
    s.shared.saveCode_fields { code with isUsed := true, usedAt := some now }
  obtain ⟨hfresh, hbelow⟩ := h.found _ (mem_of_getElem? ht) code rfl
  have haccepted : ((s.shared.saveCode { code with isUsed := true, usedAt := some now }).mark
      (.accepted (some code.id))).accepted = code.id :: s.shared.accepted := by
    show (TwoFAMark.accepted (some code.id) :: (s.shared.saveCode _).history).filterMap _ = _
    rw [hhistory]
    rfl
  have hothers : ∀ x ∈ s.threads.set i (.saveBackup r (copy.updateUsage now) true), x.found = none := by
    -- the only thread that waits has just saved its code
    refine Pool.forall_mem_set_of_others (fun j x hj hx => ?_) rfl
    by_contra hfound
    have hwaits : x.waits = true := by
      rw [TwoFAThread.waits, Option.isSome_iff_ne_none.mpr hfound, Bool.or_true]
    exact hj (h.alone j i x _ hx ht hwaits rfl)
  constructor
  · refine ⟨?_, ⟨trivial, ?_⟩, fun hmem => ?_⟩
    · show (TwoFADB.accepted _).Nodup
      rw [haccepted]
      exact nodup_cons.mpr ⟨hfresh, h.kept.once⟩
    · rw [hhistory]
      exact h.kept.locked
    · show (s.shared.saveCode _).row = none
      rw [hrow]
      refine h.kept.gone ?_
      have hmem : TwoFAMark.disabled ∈ TwoFAMark.accepted (some code.id) :: (s.shared.saveCode _).history := hmem
      rw [hhistory] at hmem
      simpa using hmem
  · exact fun _ row _ => .accepted row _ _
  · exact fun _ _ copy _ => .accepted copy _ _
  · exact h.alone.set ht fun _ => .inl rfl
  · intro c hc hmem
    rw [haccepted] at hmem
    rcases TwoFADB.mem_saveCode hc with rfl | ⟨hold, hne⟩
    · rfl
    · rcases mem_cons.mp hmem with heq | hmem
      · exact absurd heq hne
      · exact h.used c hold hmem
  · intro c hc
    show c.id < (s.shared.saveCode _).nextCode
    rw [hnext]
    rcases TwoFADB.mem_saveCode hc with rfl | ⟨hold, -⟩
    · exact hbelow
    · exact h.numbered c hold
  · intro j hj
    show j < (s.shared.saveCode _).nextCode
    rw [haccepted] at hj
    rw [hnext]
    rcases mem_cons.mp hj with rfl | hj
    · exact hbelow
    · exact h.issued j hj
  · intro x hx c hc
    rw [hothers x hx] at hc
    cases hc

/-- A copy that counts is saved to the row. -/
theorem TwoFASystem.Inv.save (h : s.Inv) (ht : s.threads[i]? = some t) (howes : t.owes = some copy)
    (hrow : s.shared.row.isSome) (howes' : t'.owes = none) (hfound' : t'.found = none) :
    TwoFASystem.Inv ⟨s.shared.save copy, s.threads.set i t'⟩ where
  kept :=
    { once := h.kept.once
      locked := h.kept.locked
      gone := fun hmem => by
        rw [h.kept.gone hmem] at hrow
        cases hrow }
  counted _ row hmem := by
    cases hmem
    exact h.owed t (mem_of_getElem? ht) copy howes
  owed := Pool.forall_mem_set h.owed (by simp [howes'])
  alone := h.alone.set ht fun hw => by simp [TwoFAThread.waits_of howes' hfound'] at hw
  used := h.used
  numbered := h.numbered
  issued := h.issued
  found := Pool.forall_mem_set h.found (by simp [hfound'])

/-- The second factor is disabled. -/
theorem TwoFASystem.Inv.delete (h : s.Inv) (ht : s.threads[i]? = some t) (howes' : t'.owes = none)
    (hfound' : t'.found = none) :
    TwoFASystem.Inv ⟨s.shared.delete.mark .disabled, s.threads.set i t'⟩ where
  kept :=
    { once := h.kept.once
      locked := ⟨trivial, h.kept.locked⟩
      gone := fun _ => rfl }
  counted _ _ hrow := nomatch hrow
  owed := by
    refine Pool.forall_mem_set (fun x hx copy hcopy => (h.owed x hx copy hcopy).disabled) ?_
    simp [howes']
  alone := h.alone.set ht fun hw => by simp [TwoFAThread.waits_of howes' hfound'] at hw
  used _ hc := (not_mem_nil hc).elim
  numbered _ hc := (not_mem_nil hc).elim
  issued := h.issued
  found := Pool.forall_mem_set h.found (by simp [hfound'])

/-- New codes are numbered from the auto-increment key on. -/
theorem TwoFADB.mem_numberCodes {c : TwoFABackupCode} {hashes : List String} {n : Int}
    (h : c ∈ TwoFADB.numberCodes n hashes) : n ≤ c.id ∧ c.id < n + hashes.length := by
  induction hashes generalizing n with
  | nil => exact (not_mem_nil h).elim
  | cons hash hashes ih =>
    rw [length_cons]
    rcases mem_cons.mp h with rfl | hmem
    · dsimp only
      omega
    · have := ih hmem
      omega

/-- New codes were not accepted before. -/
theorem TwoFASystem.Inv.create (h : s.Inv) (ht : s.threads[i]? = some t) (howes : t.owes = none)
    (howes' : t'.owes = none) (hfound' : t'.found = none) (hashes : List String) :
    TwoFASystem.Inv ⟨s.shared.createBackupCodes hashes, s.threads.set i t'⟩ := by
  have hquiet := h.quiet ht howes howes' hfound'
  have hnext : s.shared.nextCode ≤ s.shared.nextCode + hashes.length := by omega
  -- a code is an old one, deleted, or it is new
  have hcodes : ∀ c ∈ (s.shared.createBackupCodes hashes).codes,
      (∃ x ∈ s.shared.codes, c = { x with deleted := true }) ∨
        s.shared.nextCode ≤ c.id ∧ c.id < s.shared.nextCode + hashes.length := by
    intro c hc
    rcases mem_append.mp hc with hmem | hmem
    · obtain ⟨x, hx, rfl⟩ := mem_map.mp hmem
      exact .inl ⟨x, hx, rfl⟩
    · exact .inr (TwoFADB.mem_numberCodes hmem)
  exact
    { kept := ⟨h.kept.once, h.kept.locked, h.kept.gone⟩
      counted := hquiet.counted
      owed := hquiet.owed
      alone := hquiet.alone
      used := by
        intro c hc hmem
        rcases hcodes c hc with ⟨x, hx, rfl⟩ | ⟨hge, -⟩
        · exact h.used x hx hmem
        · have := h.issued c.id hmem
          omega
      numbered := by
        intro c hc
        rcases hcodes c hc with ⟨x, hx, rfl⟩ | ⟨-, hlt⟩
        · exact Int.lt_of_lt_of_le (h.numbered x hx) hnext
        · exact hlt
      issued := fun j hj => Int.lt_of_lt_of_le (h.issued j hj) hnext
      found := fun x hx c hc => ⟨(hquiet.found x hx c hc).1, Int.lt_of_lt_of_le (hquiet.found x hx c hc).2 hnext⟩ }

variable (r : TwoFARequest)

/-- A request begins by loading or looking for the row. -/
theorem TwoFARequest.start_quiet : r.start.owes = none ∧ r.start.found = none := by
  cases r <;> exact ⟨rfl, rfl⟩

theorem TwoFARequest.begin_quiet (copy : TwoFA) :
    (r.begin copy).owes = none ∧ (r.begin copy).found = none := by
  unfold TwoFARequest.begin
  split
  · split <;> exact ⟨rfl, rfl⟩
  · split <;> exact ⟨rfl, rfl⟩
  · split <;> exact ⟨rfl, rfl⟩
  · exact ⟨rfl, rfl⟩

theorem TwoFARequest.fallBack_quiet (e : Err) (copy : TwoFA) :
    (r.fallBack e copy).owes = none ∧ (r.fallBack e copy).found = none := by
  cases r <;> exact ⟨rfl, rfl⟩

theorem TwoFARequest.accept_quiet : r.accept.owes = none ∧ r.accept.found = none := by
  cases r <;> exact ⟨rfl, rfl⟩

/-- A copy that agrees with the row counts what has happened. -/
theorem TwoFASystem.Inv.counts (h : s.Inv) (hagrees : s.shared.Agrees copy)
    (hnone : ∀ x ∈ s.threads, x.waits = false) : copy.Counts s.shared.history := by
  obtain ⟨row, hrow, heq⟩ := Option.map_eq_some_iff.mp hagrees
  obtain ⟨hcount, hlock⟩ := Prod.mk.inj heq
  have hcounts := h.counted (fun x hx => (TwoFAThread.not_waits (hnone x hx)).1) row hrow
  exact hcounts.congr hcount.symm hlock.symm

/-- **Step lemma**: a step of a request that meets the condition keeps the invariant. -/
theorem TwoFASystem.Inv.stepThread {env : TwoFAEnv} {fault : Option Err} (h : s.Inv)
    (ht : s.threads[i]? = some t)
    (hcompare : ∀ copy ∈ t.compares now fault, s.shared.Agrees copy ∧ ∀ x ∈ s.threads, x.waits = false)
    (hsave : t.owes.isSome → fault = none ∧ s.shared.row.isSome) :
    TwoFASystem.Inv ⟨(t.step env now fault s.shared).2, s.threads.set i (t.step env now fault s.shared).1⟩ := by
  cases t with
  | load r =>
    simp only [TwoFAThread.step]
    split
    · exact h.quiet ht rfl rfl rfl
    · exact h.quiet ht rfl rfl rfl
    · split
      · exact h.quiet ht rfl (r.begin_quiet _).1 (r.begin_quiet _).2
      · exact h.quiet ht rfl rfl rfl
  | totp r cleanCode copy =>
    simp only [TwoFAThread.step]
    split
    · exact h.quiet ht rfl (r.fallBack_quiet _ copy).1 (r.fallBack_quiet _ copy).2
    · next hlocked =>
      have hlocked : copy.isLocked now = false := by simpa using hlocked
      obtain ⟨hagrees, hnone⟩ := hcompare copy (by simp [TwoFAThread.compares, hlocked])
      have hcounts := h.counts hagrees hnone
      split
      · -- the copy counts nothing, which is right once the code is accepted
        have hcompared : TwoFASystem.Inv ⟨s.shared.mark (.compared true now),
            s.threads.set i (.saveTOTP r copy true)⟩ := by
          refine h.compare ht hnone (hcounts.late hlocked true) ?_ (fun _ => rfl) nofun
          rintro _ ⟨⟩
          exact hcounts.right
        have hlt : i < s.threads.length := (List.getElem?_eq_some_iff.mp ht).1
        have haccepted := hcompared.accept (List.getElem?_set_self hlt) (copy.updateUsage now)
        rwa [set_set] at haccepted
      · refine h.compare ht hnone (hcounts.late hlocked false) ?_ nofun nofun
        rintro _ ⟨⟩
        exact hcounts.wrong now
  | saveTOTP r copy valid =>
    obtain ⟨rfl, hrow⟩ := hsave rfl
    have hquiet : (if valid then r.accept else r.fallBack errWrongCode copy).owes = none ∧
        (if valid then r.accept else r.fallBack errWrongCode copy).found = none := by
      split
      · exact r.accept_quiet
      · exact r.fallBack_quiet errWrongCode copy
    exact h.save ht rfl hrow hquiet.1 hquiet.2
  | backup r code copy =>
    simp only [TwoFAThread.step]
    split
    · exact h.quiet ht rfl rfl rfl
    next hlocked =>
    split
    · exact h.quiet ht rfl rfl rfl
    next hvalid =>
    split
    · exact h.quiet ht rfl rfl rfl
    have hlocked : copy.isLocked now = false := by simpa using hlocked
    obtain ⟨hagrees, hnone⟩ := hcompare copy (by simp [TwoFAThread.compares, hlocked, hvalid])
    have hcounts := h.counts hagrees hnone
    split
    · next c hc =>
      refine h.compare ht hnone (hcounts.late hlocked true) nofun (fun _ => rfl) ?_
      rintro _ ⟨⟩
      have hfind := List.find?_some hc
      simp only [Bool.and_eq_true, Bool.not_eq_true'] at hfind
      exact ⟨List.mem_of_find?_eq_some hc, hfind.1.1⟩
    · refine h.compare ht hnone (hcounts.late hlocked false) ?_ nofun nofun
      rintro _ ⟨⟩
      exact hcounts.wrong now
  | saveCode r copy code =>
    cases fault with
    | some e => exact h.quiet ht rfl rfl rfl
    | none => exact h.acceptCode ht now
  | saveBackup r copy valid =>
    obtain ⟨rfl, hrow⟩ := hsave rfl
    have hquiet : (if valid then r.accept else .returned (.error errWrongCode)).owes = none ∧
        (if valid then r.accept else .returned (.error errWrongCode)).found = none := by
      split
      · exact r.accept_quiet
      · exact ⟨rfl, rfl⟩
    exact h.save ht rfl hrow hquiet.1 hquiet.2
  | find =>
    simp only [TwoFAThread.step]
    split <;> exact h.quiet ht rfl rfl rfl
  | delete =>
    simp only [TwoFAThread.step]
    split
    · exact h.quiet ht rfl rfl rfl
    · exact h.delete ht rfl rfl
  | create hashes =>
    simp only [TwoFAThread.step]
    split
    · exact h.quiet ht rfl rfl rfl
    · exact h.create ht rfl rfl rfl hashes
  | returned r => exact h.quiet ht rfl rfl rfl

end Steps

/-! ## Runs -/

/-- Before anything has happened. -/
theorem TwoFASystem.Inv.start (row : Option TwoFA) (codes : List TwoFABackupCode) :
    TwoFASystem.Inv ⟨.start row codes, []⟩ where
  kept := ⟨nodup_nil, trivial, fun h => (not_mem_nil h).elim⟩
  counted _ row _ := .nil row
  owed _ ht := (not_mem_nil ht).elim
  alone := Pool.exclusive_nil
  used _ _ h := (not_mem_nil h).elim
  numbered c hc := by
    have hle : c.id ≤ (codes.map TwoFABackupCode.id).foldr max 0 :=
      Table.le_foldr_max (mem_map_of_mem hc)
    show c.id < (codes.map TwoFABackupCode.id).foldr max 0 + 1
    omega
  issued _ h := (not_mem_nil h).elim
  found _ ht := (not_mem_nil ht).elim

/-- **The second factor is not worn down** in any run in which codes are compared on copies that count and
lock like the row, while no other comparison waits to be saved, and every save goes through to a row that is
there: each backup code is accepted at most once, after too many wrong codes none is compared before the
lockout has passed, and once disabled the second factor is gone. -/
theorem second_factor_kept (env : TwoFAEnv) (row : Option TwoFA) (codes : List TwoFABackupCode)
    (events : List TwoFAEvent)
    (h : Along (TwoFASystem.step env) TwoFASystem.Guarded ⟨.start row codes, []⟩ events) :
    (run (TwoFASystem.step env) ⟨.start row codes, []⟩ events).shared.Kept := by
  refine (run_keeps_along (I := TwoFASystem.Inv) (fun s e hs hguard => ?_) (.start row codes) h).kept
  cases e with
  | request r => exact hs.spawn r.start_quiet.1 r.start_quiet.2
  | step i now fault =>
    refine Pool.stepAt_elim (P := TwoFASystem.Inv) (fun _ => hs) fun t ht => ?_
    obtain ⟨hcompare, hsave⟩ := hguard t ht
    exact hs.stepThread ht hcompare hsave

/-! ## Two requests at a time -/

/-- Codes are right when they equal the secret or the hash. -/
def TwoFAEnv.sample : TwoFAEnv where
  totp code secret := code = secret
  validatePasswordAndHash code hash := code = hash
  formatTime := toString

/-- A second factor with one backup code, after some steps. -/
def sampleTwoFA (events : List TwoFAEvent) : TwoFASystem :=
  run (TwoFASystem.step .sample)
    ⟨.start (some { secret := "123456" }) [{ id := 1, codeHash := "ABCD-EFGH" }], []⟩ events

/-- Steps of requests at time zero. -/
def sampleTwoFASteps (threads : List Nat) : List TwoFAEvent := threads.map fun i => .step i 0 none

/-- A wrong code and the backup code, one after the other, and then the end of the second factor. -/
theorem second_factor_kept_sample :
    (sampleTwoFA ([.request (.verify2FALogin "654321"), .request (.verify2FALogin "abcdefgh"),
        .request .adminDisable2FA] ++ sampleTwoFASteps [0, 0, 0, 0, 1, 1, 1, 1, 2, 2])).shared.Kept ∧
      (sampleTwoFA ([.request (.verify2FALogin "654321"), .request (.verify2FALogin "abcdefgh"),
        .request .adminDisable2FA] ++ sampleTwoFASteps [0, 0, 0, 0, 1, 1, 1, 1, 2, 2])).shared.history
          = [.disabled, .accepted (some 1), .compared true 0, .compared false 0] :=
  ⟨second_factor_kept .sample _ _ _ (by decide +kernel), by decide +kernel⟩

/-- Two logins with the same backup code are both accepted, six wrong codes are compared at once, and a wrong
code brings a second factor back that an administrator has disabled. -/
theorem second_factor_worn_down :
    (¬ (sampleTwoFA ([.request (.verify2FALogin "abcdefgh"), .request (.verify2FALogin "abcdefgh")]
        ++ sampleTwoFASteps [0, 1, 0, 1, 0, 1])).shared.Kept) ∧
    (¬ (sampleTwoFA (List.replicate 6 (.request (.verify2FALogin "654321"))
        ++ sampleTwoFASteps [0, 1, 2, 3, 4, 5, 0, 1, 2, 3, 4, 5])).shared.Kept) ∧
    ¬ (sampleTwoFA ([.request (.verify2FALogin "654321"), .request .adminDisable2FA]
        ++ sampleTwoFASteps [0, 0, 1, 1, 0])).shared.Kept := by
  refine ⟨fun h => absurd h.once (by decide +kernel), fun h => ?_, fun h => ?_⟩
  · have hhistory : (sampleTwoFA (List.replicate 6 (.request (.verify2FALogin "654321"))
        ++ sampleTwoFASteps [0, 1, 2, 3, 4, 5, 0, 1, 2, 3, 4, 5])).shared.history
          = List.replicate 6 (.compared false 0) := by decide
    have hlocked := h.locked
    -- the sixth code is compared at the time of the fifth
    obtain ⟨t, hlast, hlate⟩ := hlocked.1 (by decide)
    cases hlast
    exact absurd hlate (by decide)
  · have hrow := h.gone (by decide)
    exact absurd hrow (by decide)

end Prox
