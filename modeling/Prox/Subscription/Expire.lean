import Prox.Lib.Batch
import Prox.Subscription.Purchase

/-! # The end of a subscription

The embedding of `ExpireDueSubscriptions`, `AdminInvalidateUserSubscription`,
`AdminDeleteUserSubscription` and `downgradeUserGroupForSubscriptionTx` in `model/subscription.go`:
the three ways a subscription ends. Each of them may take the user back to an earlier group. -/

namespace Prox

namespace UserSubscription

/-- `status = 'expired'`. -/
def expire : Patch UserSubscription :=
  ⟨fun s => { s with status := .expired }, fun _ => rfl, fun _ => rfl⟩

/-- `status = 'cancelled', end_time = now`. -/
def cancel (now : Int) : Patch UserSubscription :=
  ⟨fun s => { s with status := .cancelled, endTime := now }, fun _ => rfl, fun _ => rfl⟩

/-- `status = 'active' AND end_time > 0 AND end_time <= now`. -/
def Ended (now : Int) (s : UserSubscription) : Prop :=
  s.status = .active ∧ 0 < s.endTime ∧ s.endTime ≤ now
  deriving Decidable

/-- `status = 'active' AND end_time > now AND upgrade_group <> ''`. -/
def Upgrading (now : Int) (s : UserSubscription) : Prop :=
  s.status = .active ∧ now < s.endTime ∧ s.upgradeGroup ≠ ""
  deriving Decidable

end UserSubscription

/-- `UPDATE users SET group = ? WHERE id = ?`. -/
def PurchaseDB.setGroup (db : PurchaseDB) (userId : Int) (group : String) : PurchaseDB :=
  { db with wallet := db.wallet.updateUser userId (User.setGroup group) }

/-- The subscriptions, replaced. -/
def PurchaseDB.setSubs (db : PurchaseDB) (subs : Table UserSubscription) : PurchaseDB :=
  { db with subscriptions := { db.subscriptions with subs } }

/-! ## Expiry -/

/-- The subscriptions whose end has passed, the one that ended first in front. -/
def selectEndedSubscriptions (db : PurchaseDB) (now limit : Int) : List UserSubscription :=
  ((db.subscriptions.subs.rows.filter (fun s => s.Ended now)).insertionSort
    UserSubscription.endsBefore).take (if limit ≤ 0 then 200 else limit.toNat)

/-- `ORDER BY end_time DESC, id DESC LIMIT 1` among the expired upgrades of a user. -/
def lastExpiredUpgrade (db : PurchaseDB) (userId : Int) : Option UserSubscription :=
  ((db.subscriptions.subs.rows.filter
    (fun s => s.userId = userId ∧ s.status = .expired ∧ s.upgradeGroup ≠ "")).insertionSort
    (fun a b => b.endsBefore a)).head?

/-- The group of a user after the end of its subscriptions: what the last expired upgrade has stored,
unless another upgrade is still active or the user has left the group since. -/
def restoreGroupTx (now userId : Int) (db : PurchaseDB) : PurchaseDB :=
  if db.subscriptions.subs.rows.any (fun s => s.userId = userId ∧ s.Upgrading now) then db else
  match lastExpiredUpgrade db userId with
  | none => db
  | some lastExpired =>
    let upgradeGroup := trimSpace lastExpired.upgradeGroup
    let prevGroup := trimSpace lastExpired.prevUserGroup
    if upgradeGroup = "" ∨ prevGroup = "" then db else
    let currentGroup := getUserGroupByIdTx db.wallet userId
    if currentGroup ≠ upgradeGroup ∨ currentGroup = prevGroup then db else
    db.setGroup userId prevGroup

/-- The transaction that expires the subscriptions of one user, with the number of them. -/
def expireUserTx (now userId : Int) (db : PurchaseDB) : Except Err (Nat × PurchaseDB) :=
  let update := db.subscriptions.subs.updateWhere (fun s => s.userId = userId ∧ s.Ended now)
    UserSubscription.expire
  pure (update.2, restoreGroupTx now userId (db.setSubs update.1))

/-- The loop over the users of a batch; a failing transaction ends it. -/
def expireUsers (env : SubscriptionEnv) :
    Nat → List Int → PurchaseDB → (Nat × Option Err) × PurchaseDB
  | _, [], db => ((0, none), db)
  | n, userId :: rest, db =>
    match transaction (env.faults n) (expireUserTx env.now userId) db with
    | (.error e, db) => ((0, some e), db)
    | (.ok count, db) =>
      let ((counts, err), db) := expireUsers env (n + 1) rest db
      ((count + counts, err), db)

/-- Expires the subscriptions of the users in a batch. The users are visited in no particular order,
which does not matter, since the transactions touch different rows. -/
def expireDueSubscriptions (env : SubscriptionEnv) (limit : Int) (db : PurchaseDB) :
    (Nat × Option Err) × PurchaseDB :=
  match env.faults 0 with
  | some e => ((0, some e), db)
  | none =>
    let userIds := ((selectEndedSubscriptions db env.now limit).map UserSubscription.userId).filter
      (fun userId => 0 < userId)
    expireUsers env 1 userIds.dedup db

/-! ## Administration -/

/-- Takes a user back to the group a subscription has stored, when the subscription is the one the
user's group comes from and no other upgrade is active. -/
def downgradeUserGroupForSubscriptionTx (sub : UserSubscription) (now : Int) (db : PurchaseDB) :
    PurchaseDB :=
  let upgradeGroup := trimSpace sub.upgradeGroup
  if upgradeGroup = "" then db else
  let currentGroup := getUserGroupByIdTx db.wallet sub.userId
  if currentGroup ≠ upgradeGroup then db else
  if db.subscriptions.subs.rows.any
      (fun s => s.userId = sub.userId ∧ s.Upgrading now ∧ s.id ≠ sub.id) then db else
  let prevGroup := trimSpace sub.prevUserGroup
  if prevGroup = "" ∨ prevGroup = currentGroup then db else
  db.setGroup sub.userId prevGroup

/-- The transaction of `AdminInvalidateUserSubscription`. -/
def adminInvalidateUserSubscriptionTx (now id : Int) (db : PurchaseDB) :
    Except Err (Unit × PurchaseDB) :=
  match db.subscriptions.subs.byId id with
  | none => throw (.sentinel .recordNotFound)
  | some sub =>
    let subs := (db.subscriptions.subs.updateWhere (fun s => s.id = id)
      (UserSubscription.cancel now)).1
    pure ((), downgradeUserGroupForSubscriptionTx sub now (db.setSubs subs))

/-- Cancels a subscription. -/
def adminInvalidateUserSubscription (env : SubscriptionEnv) (id : Int) :
    PurchaseDB → Except Err Unit × PurchaseDB :=
  checked (failIf (id ≤ 0) (.text "invalid userSubscriptionId"))
    fun _ => transaction (env.faults 0) (adminInvalidateUserSubscriptionTx env.now id)

/-- The transaction of `AdminDeleteUserSubscription`. -/
def adminDeleteUserSubscriptionTx (now id : Int) (db : PurchaseDB) :
    Except Err (Unit × PurchaseDB) :=
  match db.subscriptions.subs.byId id with
  | none => throw (.sentinel .recordNotFound)
  | some sub =>
    let db := downgradeUserGroupForSubscriptionTx sub now db
    pure ((), db.setSubs (db.subscriptions.subs.deleteWhere (fun s => s.id = id)))

/-- Deletes a subscription. -/
def adminDeleteUserSubscription (env : SubscriptionEnv) (id : Int) :
    PurchaseDB → Except Err Unit × PurchaseDB :=
  checked (failIf (id ≤ 0) (.text "invalid userSubscriptionId"))
    fun _ => transaction (env.faults 0) (adminDeleteUserSubscriptionTx env.now id)

end Prox
