import Prox.Reward.Calls

/-! # Invitations

The embedding of `applyRegistrationGrowthBudgetTx` and `TransferAffQuotaToQuota` of `model/user.go`. A
registration promises its inviter a reward: the promise is reserved in the growth pool of the day, the
operations fund pays for it at once, and the invitation columns of the inviter count it. A transfer pays
promised rewards out to the wallet of the inviter, from the growth pool of its own day.

The checks of a registration that come before its user is created (e-mail, user name, password) write
nothing and are left out; where one fails, the event is a fault. -/

namespace Prox

/-! ## Tables -/

/-- The invitation columns of a row of `users`. -/
structure UserAff where
  id : Int
  affCount : Int := 0
  affQuota : Int := 0
  affHistory : Int := 0
  deriving DecidableEq

instance : Row UserAff Int := ⟨UserAff.id, UserAff.id⟩

namespace UserAff

/-- `aff_count = aff_count + 1, aff_quota = aff_quota + q, aff_history = aff_history + q`. -/
def addReward (q : Int) : Patch UserAff :=
  ⟨fun a => { a with affCount := a.affCount + 1, affQuota := a.affQuota + q,
                     affHistory := a.affHistory + q },
    fun _ => rfl, fun _ => rfl⟩

/-- `aff_quota = aff_quota - q`. -/
def takeQuota (q : Int) : Patch UserAff :=
  ⟨fun a => { a with affQuota := a.affQuota - q }, fun _ => rfl, fun _ => rfl⟩

end UserAff

/-- The reward ledger with the invitation columns of its users. -/
structure InviteDB where
  reward : RewardDB
  affs : Table UserAff

/-- The settings of invitations, beside those of the reward ledger. `belowQuotaPerUnit` is the comparison
`float64(quota) < common.QuotaPerUnit`. -/
structure InviteEnv where
  reward : RewardEnv
  quotaForNewUser : Int
  quotaForInvitee : Int
  quotaForInviter : Int
  paymentComplianceConfirmed : Bool
  belowQuotaPerUnit : Int → Bool
  quotaPerUnitText : String

/-! ## Keys -/

/-- The key of a sign-up reward. -/
def signupKey (userId : Int) : String := s!"signup:{userId}"

/-- The key of an invitee's reward. -/
def inviteeKey (userId inviterId : Int) : String := s!"invitee:{userId}:{inviterId}"

/-- The key of a promised inviter reward. -/
def inviterReserveKey (inviterId userId : Int) : String := s!"inviter-reserve:{inviterId}:{userId}"

/-- The key of a transfer: user, balance before and amount. -/
def affTransferKey (userId affQuota quota : Int) : String :=
  s!"invite-aff-transfer:{userId}:{affQuota}:{quota}"

/-! ## Registration -/

/-- `tx.First(user, user.Id)`. -/
def InviteDB.firstUser (s : InviteDB) (userId : Int) : Except Err UserAff :=
  match s.affs.byId userId with
  | none => throw (.sentinel .recordNotFound)
  | some user => pure user

/-- `tx.Create(user)` with an empty wallet and empty invitation columns. -/
def InviteDB.createUser (s : InviteDB) (user : User) : Except Err (Int × InviteDB) :=
  let id := s.affs.nextId
  match s.affs.create { id }, s.reward.wallet.users.create { user with id, quota := 0 } with
  | some affs, some users =>
    pure (id, { s with reward.wallet := { s.reward.wallet with users }, affs })
  | _, _ => throw (.text "UNIQUE constraint failed: users.id")

/-- The promise to the inviter. -/
def rewardInviterTx (env : InviteEnv) (userId inviterId : Int) (s : InviteDB) :
    Except Err InviteDB := do
  let b ← reserveQuotaFromBudgetPoolWithSourceTx env.reward s.reward.budget inviterId "growth"
    env.quotaForInviter (inviterReserveKey inviterId userId) "邀请人奖励冻结" "invite_inviter_reserve"
  let update := s.affs.updateWhere (fun a => a.id = inviterId) (UserAff.addReward env.quotaForInviter)
  failIf (update.2 ≠ 1) (.text "inviter not found")
  return ⟨{ s.reward with budget := b }, update.1⟩

/-- The rewards of a registration: for the new user, for the invitee, and the promise to the inviter. -/
def applyRegistrationGrowthBudgetTx (env : InviteEnv) (userId inviterId : Int) (s : InviteDB) :
    Except Err (Unit × InviteDB) := do
  failIf (userId ≤ 0) (.text "invalid registration budget context")
  let (_, reward) ← (if 0 < env.quotaForNewUser then
      grantQuotaFromBudgetPoolWithSourceTx env.reward userId "growth" env.quotaForNewUser
        (signupKey userId) "新用户注册赠额" "signup_reward" "" s.reward
    else pure ((), s.reward))
  let s := { s with reward }
  if inviterId ≤ 0 ∨ env.paymentComplianceConfirmed = false then do
    let _ ← s.firstUser userId
    return ((), s)
  else do
    let (_, reward) ← (if 0 < env.quotaForInvitee then
        grantQuotaFromBudgetPoolWithSourceTx env.reward userId "growth" env.quotaForInvitee
          (inviteeKey userId inviterId) "被邀请用户赠额" "invitee_reward" "" s.reward
      else pure ((), s.reward))
    let s := { s with reward }
    let s ← (if 0 < env.quotaForInviter then rewardInviterTx env userId inviterId s else pure s)
    let _ ← s.firstUser userId
    return ((), s)

/-- The transaction of `Insert`. -/
def insertTx (env : InviteEnv) (user : User) (inviterId : Int) (s : InviteDB) :
    Except Err (Unit × InviteDB) := do
  let (userId, s) ← s.createUser user
  applyRegistrationGrowthBudgetTx env userId inviterId s

/-! ## Transfer -/

/-- Pays out `quota` of the promised rewards of a user. -/
def transferAffQuotaToQuota (env : InviteEnv) (userId quota : Int) (s : InviteDB) :
    Except Err (Unit × InviteDB) := do
  failIf (env.belowQuotaPerUnit quota = true)
    (.text ("转移额度最小为" ++ env.quotaPerUnitText ++ "！"))
  let user ← s.firstUser userId
  failIf (user.affQuota < quota) (.text "邀请额度不足！")
  let idempotencyKey := affTransferKey user.id user.affQuota quota
  let b ← ensureUserReservedQuotaTx env.reward s.reward.budget user.id "growth" quota
    (idempotencyKey ++ ":reserve-repair") "补齐历史邀请额度冻结记录"
  let (_, reward) ← consumeReservedQuotaFromBudgetPoolTx env.reward user.id "growth" quota
    idempotencyKey "兑现邀请奖励额度" { s.reward with budget := b }
  let update := s.affs.updateWhere (fun a => a.id = user.id ∧ quota ≤ a.affQuota)
    (UserAff.takeQuota quota)
  failIf (update.2 ≠ 1) (.text "邀请额度不足！")
  return ((), ⟨reward, update.1⟩)

/-! ## Runs -/

/-- A registration, with the columns of the new user, or a transfer. -/
inductive InviteOp where
  | register (user : User) (inviterId : Int)
  | transfer (userId quota : Int)

/-- An operation under the settings and the business date of its moment. -/
structure InviteEvent where
  env : InviteEnv
  fault : Option Err
  op : InviteOp

/-- The body of an operation's transaction. -/
def InviteOp.tx (env : InviteEnv) : InviteOp → InviteDB → Except Err (Unit × InviteDB)
  | .register user inviterId => insertTx env user inviterId
  | .transfer userId quota => transferAffQuotaToQuota env userId quota

/-- The database after an operation. -/
def InviteDB.step (s : InviteDB) (e : InviteEvent) : InviteDB :=
  (transaction e.fault (e.op.tx e.env) s).2

end Prox
