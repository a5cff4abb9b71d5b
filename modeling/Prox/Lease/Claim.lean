import Prox.Lib.Fencing
import Prox.Lib.Run
import Prox.Lib.Table
import Prox.Lib.Threads
import Prox.Lib.Time
import Prox.Model.Errors

/-! # Leases on scheduled jobs and bot messages

The embedding of `ClaimScheduledJobExecution`, `CompleteScheduledJobExecution` and
`FailScheduledJobExecution` of `model/scheduled_job_execution.go` and of `ClaimCommunityBotMessage` and
`CompleteCommunityBotMessageClaim` of `model/community_bot.go`. Both tables hold a row for each run with an
owner, a fencing token and the end of a lease. The two families are one with different keys and statuses,
so the statements are written once for a `LeaseKind`.

A call is a thread whose steps are the SQL statements. Time goes on between any two steps, and so do the
other calls. -/

namespace Prox

/-! ## Rows -/

/-- A row of `scheduled_job_executions` or of `community_bot_message_claims`; `κ` is the composite key and
`σ` the status. -/
structure LeaseRow (κ σ : Type) where
  id : Int
  key : κ
  status : σ
  ownerId : String
  fencingToken : Int
  leaseUntil : Int
  attempts : Int
  lastError : String := ""
  completedAt : Int := 0
  updatedAt : Int
  createdAt : Int

instance {κ σ : Type} : Row (LeaseRow κ σ) κ := ⟨LeaseRow.id, LeaseRow.key⟩

/-- What tells the two families of leases apart. -/
structure LeaseKind (σ : Type) where
  /-- The status of a row that a claim writes. -/
  held : σ
  /-- The status of a completed row. -/
  completed : σ
  /-- The statuses that the condition of a takeover admits. -/
  takeable : σ → Bool
  /-- A claim reads the clock again for the end of the lease it writes. -/
  readsClockAgain : Bool
  held_ne_completed : held ≠ completed
  not_takeable_completed : takeable completed = false

/-- The status of a scheduled job. -/
inductive ScheduledJobStatus where
  | pending
  | running
  | completed
  deriving DecidableEq

/-- The unique key of a scheduled job. -/
structure ScheduledJobKey where
  siteId : String
  jobName : String
  runKey : String
  deriving DecidableEq

/-- The status of a bot message claim. -/
inductive CommunityBotClaimStatus where
  | processing
  | completed
  deriving DecidableEq

/-- The unique key of a bot message claim. -/
structure CommunityBotMessageKey where
  siteId : String
  roomId : String
  messageId : String
  actionType : String
  deriving DecidableEq

/-- A scheduled job is taken over while its status is not completed. -/
def scheduledJobKind : LeaseKind ScheduledJobStatus where
  held := .running
  completed := .completed
  takeable status := status ≠ .completed
  readsClockAgain := false
  held_ne_completed := by decide
  not_takeable_completed := by decide

/-- A message claim is taken over while it is processing. -/
def communityBotKind : LeaseKind CommunityBotClaimStatus where
  held := .processing
  completed := .completed
  takeable status := status = .processing
  readsClockAgain := true
  held_ne_completed := by decide
  not_takeable_completed := by decide

/-! ## Calls as threads -/

variable {κ σ : Type}

/-- The checked arguments of a claim. -/
structure LeaseClaim (κ : Type) where
  key : κ
  ownerId : String
  /-- At least 30 seconds, in nanoseconds. -/
  leaseTTL : Int

/-- The checked arguments of a completion or a failure. -/
structure LeaseRelease where
  id : Int
  ownerId : String
  fencingToken : Int

/-- A call before its next statement, or with its result. -/
inductive LeaseThread (κ σ : Type) where
  /-- A claim that has read the clock inserts the row. -/
  | insert (c : LeaseClaim κ) (now : Int)
  /-- There is a row, it reads it. -/
  | find (c : LeaseClaim κ) (now : Int)
  /-- The row is not completed, it takes it over when the lease is over. -/
  | takeover (c : LeaseClaim κ) (now : Int) (existing : LeaseRow κ σ)
  /-- It has taken the row over and reads it again. -/
  | reread (existing : LeaseRow κ σ)
  /-- The row and whether the claim has it. -/
  | claimed (result : Except Err (LeaseRow κ σ × Bool))
  | complete (c : LeaseRelease)
  /-- A failure, with the status and the error it leaves. -/
  | fail (c : LeaseRelease) (status : σ) (lastError : String)
  /-- Whether the row was updated. -/
  | released (result : Except Err Bool)

/-- The shortest lease. -/
def minLeaseTTL : Int := 30 * nanosPerSecond

/-- `ClaimScheduledJobExecution` up to its first statement. -/
def claimScheduledJobExecution (siteID jobName runKey ownerID : String) (leaseTTL now : Int) :
    LeaseThread ScheduledJobKey ScheduledJobStatus :=
  let siteID := trimSpace siteID
  let jobName := trimSpace jobName
  let runKey := trimSpace runKey
  let ownerID := trimSpace ownerID
  if siteID = "" ∨ jobName = "" ∨ runKey = "" ∨ ownerID = "" then
    .claimed (.error (.text "invalid scheduled job execution key"))
  else .insert ⟨⟨siteID, jobName, runKey⟩, ownerID, if leaseTTL < minLeaseTTL then minLeaseTTL else leaseTTL⟩ now

/-- `CompleteScheduledJobExecution` up to its statement. -/
def completeScheduledJobExecution (id : Int) (ownerID : String) (fencingToken : Int) :
    LeaseThread ScheduledJobKey ScheduledJobStatus :=
  if id ≤ 0 ∨ trimSpace ownerID = "" ∨ fencingToken ≤ 0 then
    .released (.error (.text "invalid scheduled job completion"))
  else .complete ⟨id, trimSpace ownerID, fencingToken⟩

/-- `FailScheduledJobExecution` up to its statement. -/
def failScheduledJobExecution (id : Int) (ownerID : String) (fencingToken : Int) (lastError : String) :
    LeaseThread ScheduledJobKey ScheduledJobStatus :=
  if id ≤ 0 ∨ trimSpace ownerID = "" ∨ fencingToken ≤ 0 then
    .released (.error (.text "invalid scheduled job failure"))
  else .fail ⟨id, trimSpace ownerID, fencingToken⟩ .pending (trimSpace lastError)

/-- `ClaimCommunityBotMessage` up to its first statement. -/
def claimCommunityBotMessage (siteId roomId messageId actionType ownerId : String) (leaseTTL now : Int) :
    LeaseThread CommunityBotMessageKey CommunityBotClaimStatus :=
  let siteId := trimSpace siteId
  let roomId := trimSpace roomId
  let messageId := trimSpace messageId
  let actionType := trimSpace actionType
  let ownerId := trimSpace ownerId
  if siteId = "" ∨ roomId = "" ∨ messageId = "" ∨ actionType = "" ∨ ownerId = "" then
    .claimed (.error (.text "invalid community bot message claim"))
  else .insert ⟨⟨siteId, roomId, messageId, actionType⟩, ownerId,
    if leaseTTL < minLeaseTTL then minLeaseTTL else leaseTTL⟩ now

/-- `CompleteCommunityBotMessageClaim` up to its statement. -/
def completeCommunityBotMessageClaim (claimId : Int) (ownerId : String) (fencingToken : Int) :
    LeaseThread CommunityBotMessageKey CommunityBotClaimStatus :=
  if claimId ≤ 0 ∨ trimSpace ownerId = "" ∨ fencingToken ≤ 0 then
    .released (.error (.text "invalid community bot claim completion"))
  else .complete ⟨claimId, trimSpace ownerId, fencingToken⟩

/-! ## Statements -/

/-- The row that a claim inserts. -/
def LeaseClaim.row (kind : LeaseKind σ) (c : LeaseClaim κ) (id leaseUntil now : Int) : LeaseRow κ σ where
  id := id
  key := c.key
  status := kind.held
  ownerId := c.ownerId
  fencingToken := 1
  leaseUntil := leaseUntil
  attempts := 1
  updatedAt := now
  createdAt := now

/-- The columns that a takeover assigns. -/
def LeaseRow.take (status : σ) (ownerId : String) (leaseUntil now : Int) : Patch (LeaseRow κ σ) where
  apply r := { r with
    status := status, ownerId := ownerId, fencingToken := r.fencingToken + 1, leaseUntil := leaseUntil,
    attempts := r.attempts + 1, lastError := "", updatedAt := now }
  id_apply _ := rfl
  key_apply _ := rfl

/-- The columns that a completion assigns. -/
def LeaseRow.complete (status : σ) (now : Int) : Patch (LeaseRow κ σ) where
  apply r := { r with status := status, leaseUntil := 0, completedAt := now, lastError := "", updatedAt := now }
  id_apply _ := rfl
  key_apply _ := rfl

/-- The columns that a failure assigns. -/
def LeaseRow.fail (status : σ) (lastError : String) (now : Int) : Patch (LeaseRow κ σ) where
  apply r := { r with status := status, leaseUntil := 0, lastError := lastError, updatedAt := now }
  id_apply _ := rfl
  key_apply _ := rfl

/-- The end of the lease that a claim writes. -/
def LeaseClaim.leaseUntil (kind : LeaseKind σ) (c : LeaseClaim κ) (now clock : Int) : Int :=
  unixSeconds ((if kind.readsClockAgain then clock else now) + c.leaseTTL)

/-- A call whose statement the database refuses. -/
def LeaseThread.refused (err : Err) : LeaseThread κ σ → LeaseThread κ σ
  | .insert .. | .find .. | .takeover .. | .reread .. => .claimed (.error err)
  | .complete .. | .fail .. => .released (.error err)
  | th => th

variable [DecidableEq κ] [DecidableEq σ]

/-- The condition of the takeover. -/
def LeaseRow.takeable (kind : LeaseKind σ) (existing : LeaseRow κ σ) (now : Int) (r : LeaseRow κ σ) : Bool :=
  r.id = existing.id ∧ r.fencingToken = existing.fencingToken ∧ kind.takeable r.status ∧
    r.leaseUntil ≤ unixSeconds now

/-- The condition of a completion and of a failure. -/
def LeaseRow.releasable (kind : LeaseKind σ) (c : LeaseRelease) (r : LeaseRow κ σ) : Bool :=
  r.id = c.id ∧ r.ownerId = c.ownerId ∧ r.fencingToken = c.fencingToken ∧ r.status = kind.held

/-- The next statement of a call, at a time. -/
def LeaseThread.statement (kind : LeaseKind σ) (clock : Int) (t : Table (LeaseRow κ σ)) :
    LeaseThread κ σ → LeaseThread κ σ × Table (LeaseRow κ σ)
  | .insert c now =>
    let row := c.row kind t.nextId (c.leaseUntil kind now clock) (unixSeconds clock)
    let (t, rowsAffected) := t.insertIgnore row
    if rowsAffected > 0 then (.claimed (.ok (row, true)), t) else (.find c now, t)
  | .find c now =>
    match t.byKey c.key with
    | none => (.claimed (.error (.sentinel .recordNotFound)), t)
    | some existing =>
      if existing.status = kind.completed then (.claimed (.ok (existing, false)), t)
      else (.takeover c now existing, t)
  | .takeover c now existing =>
    let (t, rowsAffected) := t.updateWhere (LeaseRow.takeable kind existing now)
      (LeaseRow.take kind.held c.ownerId (c.leaseUntil kind now clock) (unixSeconds now))
    if rowsAffected = 0 then (.claimed (.ok (existing, false)), t) else (.reread existing, t)
  | .reread existing =>
    match t.byId existing.id with
    | none => (.claimed (.error (.sentinel .recordNotFound)), t)
    | some existing => (.claimed (.ok (existing, true)), t)
  | .complete c =>
    let (t, rowsAffected) := t.updateWhere (LeaseRow.releasable kind c)
      (LeaseRow.complete kind.completed (unixSeconds clock))
    (.released (.ok (rowsAffected > 0)), t)
  | .fail c status lastError =>
    let (t, rowsAffected) := t.updateWhere (LeaseRow.releasable kind c)
      (LeaseRow.fail status lastError (unixSeconds clock))
    (.released (.ok (rowsAffected > 0)), t)
  | th => (th, t)

/-! ## Interleavings -/

/-- What a statement adds to the history of the runs, newest first, seen from the call before and after
it; `t` is the table before. -/
def LeaseThread.events (t : Table (LeaseRow κ σ)) : LeaseThread κ σ → LeaseThread κ σ → List (LeaseEvent κ)
  | .insert c _, .claimed (.ok (row, true)) =>
    [.returned row.key row.fencingToken, .took row.key c.ownerId row.fencingToken]
  | .takeover c _ existing, .reread _ => [.took existing.key c.ownerId (existing.fencingToken + 1)]
  | .reread _, .claimed (.ok (row, true)) => [.returned row.key row.fencingToken]
  | .complete c, .released (.ok true) =>
    ((t.byId c.id).map fun row => .completed row.key c.ownerId c.fencingToken).toList
  | .fail c _ _, .released (.ok true) =>
    ((t.byId c.id).map fun row => .failed row.key c.ownerId c.fencingToken).toList
  | _, _ => []

/-- The clock in nanoseconds, the table, and the history of its runs. -/
structure LeaseWorld (κ σ : Type) where
  clock : Int
  table : Table (LeaseRow κ σ)
  history : List (LeaseEvent κ)

/-- Any number of calls on the table. -/
abbrev LeaseSystem (κ σ : Type) := Pool (LeaseWorld κ σ) (LeaseThread κ σ)

/-- A call executes its next statement, unless the database refuses it. -/
def LeaseThread.step (kind : LeaseKind σ) (fault : Option Err) (th : LeaseThread κ σ)
    (w : LeaseWorld κ σ) : LeaseThread κ σ × LeaseWorld κ σ :=
  match fault with
  | some err => (th.refused err, w)
  | none =>
    ((th.statement kind w.clock w.table).1,
      { w with
        table := (th.statement kind w.clock w.table).2
        history := th.events w.table (th.statement kind w.clock w.table).1 ++ w.history })

/-- A step of the system: time goes on, a call begins, or a call executes its next statement. -/
inductive LeaseStep (γ : Type) where
  | wait (nanos : Nat)
  | call (c : γ)
  | step (thread : Nat) (fault : Option Err)

/-- The system after a step; `start` is a call that has read the clock. -/
def LeaseSystem.step {γ : Type} (kind : LeaseKind σ) (start : γ → Int → LeaseThread κ σ)
    (s : LeaseSystem κ σ) : LeaseStep γ → LeaseSystem κ σ
  | .wait nanos => { s with shared := { s.shared with clock := s.shared.clock + nanos } }
  | .call c => s.spawn (start c s.shared.clock)
  | .step thread fault => s.stepAt (LeaseThread.step kind fault) thread

/-- A system without rows and calls. -/
def LeaseSystem.initial (κ σ : Type) (clock : Int) : LeaseSystem κ σ := ⟨⟨clock, .empty, []⟩, []⟩

/-- The calls on scheduled job executions. -/
inductive ScheduledJobCall where
  | claim (siteID jobName runKey ownerID : String) (leaseTTL : Int)
  | complete (id : Int) (ownerID : String) (fencingToken : Int)
  | fail (id : Int) (ownerID : String) (fencingToken : Int) (lastError : String)

/-- A call on scheduled job executions at a time. -/
def ScheduledJobCall.start (c : ScheduledJobCall) (now : Int) :
    LeaseThread ScheduledJobKey ScheduledJobStatus :=
  match c with
  | .claim siteID jobName runKey ownerID leaseTTL =>
    claimScheduledJobExecution siteID jobName runKey ownerID leaseTTL now
  | .complete id ownerID fencingToken => completeScheduledJobExecution id ownerID fencingToken
  | .fail id ownerID fencingToken lastError => failScheduledJobExecution id ownerID fencingToken lastError

/-- The calls on bot message claims. -/
inductive CommunityBotCall where
  | claim (siteId roomId messageId actionType ownerId : String) (leaseTTL : Int)
  | complete (claimId : Int) (ownerId : String) (fencingToken : Int)

/-- A call on bot message claims at a time. -/
def CommunityBotCall.start (c : CommunityBotCall) (now : Int) :
    LeaseThread CommunityBotMessageKey CommunityBotClaimStatus :=
  match c with
  | .claim siteId roomId messageId actionType ownerId leaseTTL =>
    claimCommunityBotMessage siteId roomId messageId actionType ownerId leaseTTL now
  | .complete claimId ownerId fencingToken => completeCommunityBotMessageClaim claimId ownerId fencingToken

end Prox
