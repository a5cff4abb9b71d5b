import Prox.Lib.Run
import Prox.Lib.Table
import Prox.Model.Errors

/-! # The wallet ledger

The embedding of `model/user_quota_ledger.go`. A `Wallet` is the three tables the ledger works on:
users with their balance, the durable holds (`UserQuotaReservation`, one row per request id) and the
wallet journal (`UserQuotaTransaction`, one row per idempotency key). Functions ending in `Tx` run
inside a transaction: they take the tables and return the tables, and an error means that the caller
rolls back. The exported operations wrap them in `transaction`. Cache invalidation after a commit
does not touch the tables and is left out, as are the columns that no ledger function reads. -/

namespace Prox

/-! ## Rows -/

/-- A row of `users`. -/
structure User where
  id : Int
  /-- The wallet balance. -/
  quota : Int
  /-- The aggregate of everything the user was charged. -/
  usedQuota : Int := 0
  group : String := ""
  email : String := ""
  stripeCustomer : String := ""
  deriving DecidableEq

instance : Row User Int := ⟨User.id, User.id⟩

/-- `quota = quota + d`. -/
def User.addQuota (d : Int) : Patch User :=
  ⟨fun u => { u with quota := u.quota + d }, fun _ => rfl, fun _ => rfl⟩

/-- The `status` column of a reservation. -/
inductive ReservationStatus where
  | active
  | settled
  | refunded
  deriving DecidableEq

/-- The stored text of a status. -/
def ReservationStatus.text : ReservationStatus → String
  | .active => "active"
  | .settled => "settled"
  | .refunded => "refunded"

/-- The durable wallet hold for one billable request. -/
structure UserQuotaReservation where
  id : Int
  requestId : String
  userId : Int
  sourceType : String
  initialQuota : Int
  reservedQuota : Int
  settledQuota : Int := 0
  status : ReservationStatus
  balanceAfter : Int := 0
  version : Int := 1
  expiresAt : Int := 0
  deriving DecidableEq

instance : Row UserQuotaReservation String :=
  ⟨UserQuotaReservation.id, UserQuotaReservation.requestId⟩

/-- One entry of the wallet journal; `deltaQuota` is signed from the user's perspective. -/
structure UserQuotaTransaction where
  id : Int
  userId : Int
  reservationId : Int := 0
  requestId : String
  sourceType : String
  transactionType : String
  deltaQuota : Int
  balanceBefore : Int := 0
  balanceAfter : Int := 0
  idempotencyKey : String
  remark : String
  deriving DecidableEq

instance : Row UserQuotaTransaction String :=
  ⟨UserQuotaTransaction.id, UserQuotaTransaction.idempotencyKey⟩

/-- A signed wallet mutation requested by another component. -/
structure UserQuotaMutation where
  userID : Int
  deltaQuota : Int
  requestID : String
  sourceType : String
  transactionType : String
  idempotencyKey : String
  remark : String

/-- The tables of the ledger. -/
structure Wallet where
  users : Table User
  reservations : Table UserQuotaReservation
  transactions : Table UserQuotaTransaction

/-- The tables with one user, who has the given balance and group. -/
def Wallet.ofUser (quota : Int) (group : String) : Wallet :=
  ⟨⟨[{ id := 1, quota, group }], by simp [Row.id], by simp, by simp⟩, .empty, .empty⟩

/-- `userQuotaReservationTTL`, in seconds. -/
def userQuotaReservationTTL : Int := 2 * 60 * 60

/-! ## Column assignments -/

namespace UserQuotaReservation

/-- `balance_after = b`. -/
def setBalanceAfter (b : Int) : Patch UserQuotaReservation :=
  ⟨fun r => { r with balanceAfter := b }, fun _ => rfl, fun _ => rfl⟩

/-- The columns a resize writes. -/
def resize (target after version expiresAt : Int) : Patch UserQuotaReservation :=
  ⟨fun r => { r with reservedQuota := target, balanceAfter := after, version, expiresAt },
    fun _ => rfl, fun _ => rfl⟩

/-- The columns a settlement writes. -/
def settle (actual after version : Int) : Patch UserQuotaReservation :=
  ⟨fun r => { r with settledQuota := actual, status := .settled, balanceAfter := after, version,
                     expiresAt := 0 },
    fun _ => rfl, fun _ => rfl⟩

/-- The columns a refund writes. -/
def refund (after version : Int) : Patch UserQuotaReservation :=
  ⟨fun r => { r with status := .refunded, balanceAfter := after, version, expiresAt := 0 },
    fun _ => rfl, fun _ => rfl⟩

end UserQuotaReservation

/-- `balance_before = before, balance_after = after`. -/
def UserQuotaTransaction.setBalances (before after : Int) : Patch UserQuotaTransaction :=
  ⟨fun t => { t with balanceBefore := before, balanceAfter := after }, fun _ => rfl, fun _ => rfl⟩

/-! ## Argument normalisation -/

/-- Request ids are trimmed and hold 1 to 128 bytes. -/
def normalizeUserQuotaRequest (requestID : String) : Except Err String := do
  let requestID := trimSpace requestID
  failIf (requestID = "" ∨ 128 < byteLen requestID)
    (.text "wallet request id must contain 1 to 128 characters")
  return requestID

/-- Source types are trimmed, default to `api_billing` and hold at most 64 bytes. -/
def normalizeUserQuotaSource (sourceType : String) : Except Err String :=
  let sourceType := trimSpace sourceType
  if sourceType = "" then pure "api_billing" else do
  failIf (64 < byteLen sourceType) (.text "wallet source type cannot exceed 64 characters")
  return sourceType

/-- Validation and trimming of a mutation. -/
def normalizeUserQuotaMutation (mutation : UserQuotaMutation) : Except Err UserQuotaMutation := do
  failIf (mutation.userID ≤ 0) (.text "user id must be positive")
  let requestID ← normalizeUserQuotaRequest mutation.requestID
  let sourceType ← normalizeUserQuotaSource mutation.sourceType
  let transactionType := trimSpace mutation.transactionType
  failIf (transactionType = "" ∨ 32 < byteLen transactionType)
    (.text "wallet transaction type must contain 1 to 32 characters")
  let idempotencyKey := trimSpace mutation.idempotencyKey
  failIf (idempotencyKey = "" ∨ 191 < byteLen idempotencyKey)
    (.text "wallet idempotency key must contain 1 to 191 characters")
  return { mutation with requestID, sourceType, transactionType, idempotencyKey,
                         remark := trimSpace mutation.remark }

/-! ## Balance primitives -/

/-- `SELECT … FOR UPDATE` of one user. -/
def lockUserQuotaTx (w : Wallet) (userID : Int) : Except Err User :=
  match w.users.byId userID with
  | none => throw (.sentinel .recordNotFound)
  | some user => pure user

/-- Conditional debit; returns the balance before and after. -/
def debitUserQuotaTx (w : Wallet) (userID quota : Int) : Except Err ((Int × Int) × Wallet) := do
  failIf (userID ≤ 0 ∨ quota < 0) (.text "user id must be positive and quota cannot be negative")
  let user ← lockUserQuotaTx w userID
  if quota = 0 then return ((user.quota, user.quota), w) else
  failIf (user.quota < quota) (.wrap .userQuotaInsufficient
    s!"balance={user.quota} required={quota} user_id={userID}")
  let debit := w.users.updateWhere (fun u => u.id = userID ∧ quota ≤ u.quota)
    (User.addQuota (-quota))
  failIf (debit.2 ≠ 1) (.wrap .userQuotaInsufficient
    s!"concurrent debit user_id={userID} required={quota}")
  return ((user.quota, user.quota - quota), { w with users := debit.1 })

/-- Credit; returns the balance before and after. -/
def creditUserQuotaTx (w : Wallet) (userID quota : Int) : Except Err ((Int × Int) × Wallet) := do
  failIf (userID ≤ 0 ∨ quota < 0) (.text "user id must be positive and quota cannot be negative")
  let user ← lockUserQuotaTx w userID
  if quota = 0 then return ((user.quota, user.quota), w) else
  let credit := w.users.updateWhere (fun u => u.id = userID) (User.addQuota quota)
  failIf (credit.2 ≠ 1) (.text s!"credit user quota affected {credit.2} rows: user_id={userID}")
  return ((user.quota, user.quota + quota), { w with users := credit.1 })

/-- `INSERT` into the journal. -/
def createUserQuotaTransactionTx (w : Wallet) (row : UserQuotaTransaction) : Except Err Wallet :=
  match w.transactions.create row with
  | none => throw (.sentinel .duplicatedKey)
  | some transactions => pure { w with transactions }

/-! ## Direct mutations -/

/-- A used idempotency key must belong to the same mutation. -/
def validateUserQuotaMutationReplay (existing : UserQuotaTransaction)
    (mutation : UserQuotaMutation) : Except Err Unit :=
  failIf (existing.userId ≠ mutation.userID ∨ existing.requestId ≠ mutation.requestID ∨
      existing.sourceType ≠ mutation.sourceType ∨
      existing.transactionType ≠ mutation.transactionType ∨
      existing.deltaQuota ≠ mutation.deltaQuota)
    (.wrap .userQuotaMutationConflict s!"idempotency_key={mutation.idempotencyKey}")

/-- The signed balance change of a mutation, without the journal. -/
def moveUserQuotaTx (w : Wallet) (userID delta : Int) : Except Err ((Int × Int) × Wallet) :=
  if delta < 0 then debitUserQuotaTx w userID (-delta)
  else if 0 < delta then creditUserQuotaTx w userID delta
  else do
    let user ← lockUserQuotaTx w userID
    return ((user.quota, user.quota), w)

/-- Applies one signed mutation exactly once: the journal row claims the idempotency key, then the
balance moves, then the row gets its balance snapshot. The flag says whether it was applied now. -/
def applyUserQuotaMutationTx (w : Wallet) (mutation : UserQuotaMutation) :
    Except Err (Bool × Wallet) := do
  let mutation ← normalizeUserQuotaMutation mutation
  let journal : UserQuotaTransaction :=
    { id := w.transactions.nextId, userId := mutation.userID, requestId := mutation.requestID,
      sourceType := mutation.sourceType, transactionType := mutation.transactionType,
      deltaQuota := mutation.deltaQuota, idempotencyKey := mutation.idempotencyKey,
      remark := mutation.remark }
  match w.transactions.create journal with
  | none =>
    match w.transactions.byKey mutation.idempotencyKey with
    | none => throw (.sentinel .recordNotFound)
    | some existing => do
      validateUserQuotaMutationReplay existing mutation
      return (false, w)
  | some transactions => do
    let ((before, after), w) ←
      moveUserQuotaTx { w with transactions } mutation.userID mutation.deltaQuota
    let finalize := w.transactions.updateWhere (fun t => t.id = journal.id)
      (UserQuotaTransaction.setBalances before after)
    failIf (finalize.2 ≠ 1) (.text
      s!"finalize wallet journal affected {finalize.2} rows: idempotency_key={mutation.idempotencyKey}")
    return (true, { w with transactions := finalize.1 })

/-- `ApplyUserQuotaMutationWithResult`; `ApplyUserQuotaMutation` drops the flag. -/
def applyUserQuotaMutation (fault : Option Err) (mutation : UserQuotaMutation) (w : Wallet) :
    Except Err Bool × Wallet :=
  transaction fault (fun w => applyUserQuotaMutationTx w mutation) w

/-- The transaction of `SetUserQuotaBalance`, its arguments already normalised. -/
def setUserQuotaBalanceTx (userID targetQuota : Int) (requestID sourceType remark : String)
    (w : Wallet) : Except Err (Unit × Wallet) := do
  let user ← lockUserQuotaTx w userID
  match w.transactions.byKey requestID with
  | some replay => do
    failIf (¬ (replay.userId = userID ∧ replay.sourceType = sourceType ∧
        replay.transactionType = "quota_override" ∧ replay.balanceAfter = targetQuota))
      (.wrap .userQuotaMutationConflict s!"idempotency_key={requestID}")
    return ((), w)
  | none => do
    let (_, w) ← applyUserQuotaMutationTx w
      { userID, deltaQuota := targetQuota - user.quota, requestID, sourceType,
        transactionType := "quota_override", idempotencyKey := requestID,
        remark := trimSpace remark }
    return ((), w)

/-- Sets a balance to an absolute value. -/
def setUserQuotaBalance (fault : Option Err) (userID targetQuota : Int)
    (requestID sourceType remark : String) : Wallet → Except Err Unit × Wallet :=
  checked (do
    failIf (userID ≤ 0 ∨ targetQuota < 0)
      (.text "user id must be positive and target quota cannot be negative")
    let requestID ← normalizeUserQuotaRequest requestID
    let sourceType ← normalizeUserQuotaSource sourceType
    return (requestID, sourceType))
  fun (requestID, sourceType) =>
    transaction fault (setUserQuotaBalanceTx userID targetQuota requestID sourceType remark)

/-! ## Reservations -/

/-- `SELECT … WHERE request_id = ? FOR UPDATE`. -/
def lockUserQuotaReservationTx (w : Wallet) (requestID : String) :
    Except Err UserQuotaReservation :=
  match w.reservations.byKey requestID with
  | none => throw (.sentinel .recordNotFound)
  | some reservation => pure reservation

/-- `UPDATE … WHERE id = ? AND status = 'active' AND version = ?`. -/
def updateActiveReservationTx (w : Wallet) (reservation : UserQuotaReservation)
    (patch : Patch UserQuotaReservation) (what requestID : String) : Except Err Wallet := do
  let update := w.reservations.updateWhere
    (fun r => r.id = reservation.id ∧ r.status = .active ∧ r.version = reservation.version) patch
  failIf (update.2 ≠ 1) (.wrap .userQuotaReservationState
    s!"concurrent {what} request_id={requestID}")
  return { w with reservations := update.1 }

/-- A repeated reservation must carry the arguments of the first one and find it still active. -/
def validateUserQuotaReservationReplay (reservation : UserQuotaReservation)
    (userID initialQuota : Int) (sourceType : String) : Except Err Unit := do
  failIf (reservation.userId ≠ userID ∨ reservation.initialQuota ≠ initialQuota ∨
      reservation.sourceType ≠ sourceType)
    (.wrap .userQuotaReservationConflict s!"request_id={reservation.requestId}")
  failIf (reservation.status ≠ .active) (.wrap .userQuotaReservationState
    s!"status={reservation.status.text} request_id={reservation.requestId}")

/-- The transaction of `ReserveUserQuota`. -/
def reserveUserQuotaTx (requestID : String) (userID quota : Int) (sourceType : String) (now : Int)
    (w : Wallet) : Except Err (Unit × Wallet) :=
  let reservation : UserQuotaReservation :=
    { id := w.reservations.nextId, requestId := requestID, userId := userID, sourceType,
      initialQuota := quota, reservedQuota := quota, status := .active,
      expiresAt := now + userQuotaReservationTTL }
  match w.reservations.create reservation with
  | none => do
    let existing ← lockUserQuotaReservationTx w requestID
    validateUserQuotaReservationReplay existing userID quota sourceType
    return ((), w)
  | some reservations => do
    let ((before, after), w) ← debitUserQuotaTx { w with reservations } userID quota
    let w := { w with
      reservations := (w.reservations.updateWhere (fun r => r.id = reservation.id)
        (UserQuotaReservation.setBalanceAfter after)).1 }
    let w ← createUserQuotaTransactionTx w
      { id := w.transactions.nextId, userId := userID, reservationId := reservation.id,
        requestId := requestID, sourceType, transactionType := "reserve", deltaQuota := -quota,
        balanceBefore := before, balanceAfter := after, idempotencyKey := requestID ++ ":reserve",
        remark := "wallet quota reserved" }
    return ((), w)

/-- Takes the hold of a request. -/
def reserveUserQuota (fault : Option Err) (requestID : String) (userID quota : Int)
    (sourceType : String) (now : Int) : Wallet → Except Err Unit × Wallet :=
  checked (do
    let requestID ← normalizeUserQuotaRequest requestID
    failIf (userID ≤ 0 ∨ quota ≤ 0) (.text "user id and reservation quota must be positive")
    let sourceType ← normalizeUserQuotaSource sourceType
    return (requestID, sourceType))
  fun (requestID, sourceType) =>
    transaction fault (reserveUserQuotaTx requestID userID quota sourceType now)

/-- The transaction of `ResizeUserQuotaReservation`. -/
def resizeUserQuotaReservationTx (requestID : String) (userID targetQuota now : Int)
    (w : Wallet) : Except Err (Unit × Wallet) := do
  let reservation ← lockUserQuotaReservationTx w requestID
  failIf (reservation.userId ≠ userID)
    (.wrap .userQuotaReservationConflict s!"request_id={requestID}")
  failIf (reservation.status ≠ .active) (.wrap .userQuotaReservationState
    s!"status={reservation.status.text} request_id={requestID}")
  if reservation.reservedQuota = targetQuota then return ((), w) else
  let delta := targetQuota - reservation.reservedQuota
  let ((before, after), w) ←
    (if 0 < delta then debitUserQuotaTx w userID delta else creditUserQuotaTx w userID (-delta))
  let nextVersion := reservation.version + 1
  let w ← updateActiveReservationTx w reservation
    (UserQuotaReservation.resize targetQuota after nextVersion (now + userQuotaReservationTTL))
    "resize" requestID
  let w ← createUserQuotaTransactionTx w
    { id := w.transactions.nextId, userId := userID, reservationId := reservation.id,
      requestId := requestID, sourceType := reservation.sourceType, transactionType := "resize",
      deltaQuota := -delta, balanceBefore := before, balanceAfter := after,
      idempotencyKey := s!"{requestID}:resize:{nextVersion}",
      remark := s!"wallet reservation resized to {targetQuota}" }
  return ((), w)

/-- Changes an active hold to an absolute target. -/
def resizeUserQuotaReservation (fault : Option Err) (requestID : String)
    (userID targetQuota now : Int) : Wallet → Except Err Unit × Wallet :=
  checked (do
    let requestID ← normalizeUserQuotaRequest requestID
    failIf (userID ≤ 0 ∨ targetQuota < 0)
      (.text "user id must be positive and target quota cannot be negative")
    return requestID)
  fun requestID => transaction fault (resizeUserQuotaReservationTx requestID userID targetQuota now)

/-- The part of `SettleUserQuotaReservation` that works on a stored reservation. -/
def settleStoredReservationTx (reservation : UserQuotaReservation) (requestID : String)
    (userID actualQuota : Int) (sourceType : String) (w : Wallet) : Except Err (Unit × Wallet) := do
  failIf (reservation.userId ≠ userID ∨ reservation.sourceType ≠ sourceType)
    (.wrap .userQuotaReservationConflict s!"request_id={requestID}")
  match reservation.status with
  | .settled => do
    failIf (reservation.settledQuota ≠ actualQuota) (.wrap .userQuotaReservationConflict
      s!"settled={reservation.settledQuota} requested={actualQuota} request_id={requestID}")
    return ((), w)
  | .refunded => throw (.wrap .userQuotaReservationState
      s!"reservation already refunded request_id={requestID}")
  | .active => do
    let userDelta := reservation.reservedQuota - actualQuota
    let ((before, after), w) ←
      (if 0 < userDelta then creditUserQuotaTx w userID userDelta
        else debitUserQuotaTx w userID (-userDelta))
    let nextVersion := reservation.version + 1
    let w ← updateActiveReservationTx w reservation
      (UserQuotaReservation.settle actualQuota after nextVersion) "settlement" requestID
    let w ← createUserQuotaTransactionTx w
      { id := w.transactions.nextId, userId := userID, reservationId := reservation.id,
        requestId := requestID, sourceType, transactionType := "settle", deltaQuota := userDelta,
        balanceBefore := before, balanceAfter := after, idempotencyKey := requestID ++ ":settle",
        remark := s!"wallet request settled at {actualQuota}" }
    return ((), w)

/-- The transaction of `SettleUserQuotaReservation`. A request without an earlier hold gets a
reservation that is born settled and one conditional debit. -/
def settleUserQuotaReservationTx (requestID : String) (userID actualQuota : Int)
    (sourceType : String) (w : Wallet) : Except Err (Unit × Wallet) :=
  match w.reservations.byKey requestID with
  | some reservation =>
    settleStoredReservationTx reservation requestID userID actualQuota sourceType w
  | none =>
    let reservation : UserQuotaReservation :=
      { id := w.reservations.nextId, requestId := requestID, userId := userID, sourceType,
        initialQuota := 0, reservedQuota := actualQuota, settledQuota := actualQuota,
        status := .settled }
    match w.reservations.create reservation with
    | none => do
      -- lost the insert to a concurrent writer: settle the row it stored
      let reservation ← lockUserQuotaReservationTx w requestID
      settleStoredReservationTx reservation requestID userID actualQuota sourceType w
    | some reservations => do
      let ((before, after), w) ← debitUserQuotaTx { w with reservations } userID actualQuota
      let w := { w with
        reservations := (w.reservations.updateWhere (fun r => r.id = reservation.id)
          (UserQuotaReservation.setBalanceAfter after)).1 }
      let w ← createUserQuotaTransactionTx w
        { id := w.transactions.nextId, userId := userID, reservationId := reservation.id,
          requestId := requestID, sourceType, transactionType := "settle",
          deltaQuota := -actualQuota, balanceBefore := before, balanceAfter := after,
          idempotencyKey := requestID ++ ":settle", remark := "trusted wallet request settled" }
      return ((), w)

/-- Commits the absolute quota charged by a request. -/
def settleUserQuotaReservation (fault : Option Err) (requestID : String)
    (userID actualQuota : Int) (sourceType : String) : Wallet → Except Err Unit × Wallet :=
  checked (do
    let requestID ← normalizeUserQuotaRequest requestID
    failIf (userID ≤ 0 ∨ actualQuota < 0)
      (.text "user id must be positive and actual quota cannot be negative")
    let sourceType ← normalizeUserQuotaSource sourceType
    return (requestID, sourceType))
  fun (requestID, sourceType) =>
    transaction fault (settleUserQuotaReservationTx requestID userID actualQuota sourceType)

/-- The transaction of `RefundUserQuotaReservation`. -/
def refundUserQuotaReservationTx (requestID : String) (userID : Int) (remark : String)
    (w : Wallet) : Except Err (Unit × Wallet) := do
  let reservation ← lockUserQuotaReservationTx w requestID
  failIf (reservation.userId ≠ userID)
    (.wrap .userQuotaReservationConflict s!"request_id={requestID}")
  if reservation.status = .refunded then return ((), w) else
  failIf (reservation.status ≠ .active) (.wrap .userQuotaReservationState
    s!"status={reservation.status.text} request_id={requestID}")
  let ((before, after), w) ← creditUserQuotaTx w userID reservation.reservedQuota
  let nextVersion := reservation.version + 1
  let w ← updateActiveReservationTx w reservation (UserQuotaReservation.refund after nextVersion)
    "refund" requestID
  let w ← createUserQuotaTransactionTx w
    { id := w.transactions.nextId, userId := userID, reservationId := reservation.id,
      requestId := requestID, sourceType := reservation.sourceType, transactionType := "refund",
      deltaQuota := reservation.reservedQuota, balanceBefore := before, balanceAfter := after,
      idempotencyKey := requestID ++ ":refund", remark := trimSpace remark }
  return ((), w)

/-- Returns the whole hold of a request. -/
def refundUserQuotaReservation (fault : Option Err) (requestID : String) (userID : Int)
    (remark : String) : Wallet → Except Err Unit × Wallet :=
  checked (do
    let requestID ← normalizeUserQuotaRequest requestID
    failIf (userID ≤ 0) (.text "user id must be positive")
    return requestID)
  fun requestID => transaction fault (refundUserQuotaReservationTx requestID userID remark)

end Prox
