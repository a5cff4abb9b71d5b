import Prox.Reward.InvitationCost
import Prox.Wallet.Accounting

/-! # A transfer of invitation rewards moves the quota

A transfer pays promised rewards out under a key of its user, the promised rewards before it, and its amount.
When the balance of promised rewards recurs, so does the key, and the payout is taken for a replay: the
promised rewards are lowered all the same. On runs of registrations and transfers, a successful transfer moves
its amount exactly when its key is new to the journals of the budget and of the wallet. -/

namespace Prox

open Option

namespace InviteDB

/-- The promised rewards of a user. -/
def affQuota (s : InviteDB) (i : Int) : Option Int := (s.affs.byId i).map UserAff.affQuota

/-- The quota of a user. -/
def quota (s : InviteDB) (i : Int) : Option Int := s.reward.wallet.balance i

/-- `quota` moves from the promised rewards of a user to the quota of the same user, and nothing else does. -/
structure Moved (s s' : InviteDB) (userId quota : Int) : Prop where
  promised : ∃ a, s.affQuota userId = some a ∧ s'.affQuota userId = some (a - quota)
  credited : ∃ b, s.quota userId = some b ∧ s'.quota userId = some (b + quota)
  others : ∀ i, i ≠ userId → s'.affQuota i = s.affQuota i ∧ s'.quota i = s.quota i

/-- No promised reward and no quota moves. -/
def Unmoved (s s' : InviteDB) : Prop := ∀ i, s'.affQuota i = s.affQuota i ∧ s'.quota i = s.quota i

/-- The key under which a transfer would pay is new to both journals. -/
def TransferFresh (s : InviteDB) (userId quota : Int) : Prop :=
  ∀ user, s.affs.byId userId = some user →
    s.reward.budget.transactions.byKey (affTransferKey userId user.affQuota quota) = none ∧
    s.reward.wallet.transactions.byKey ("user:" ++ affTransferKey userId user.affQuota quota) = none

end InviteDB

/-! ## The keys of a transfer -/

theorem affTransferKey_ne_empty (userId affQuota quota : Int) : affTransferKey userId affQuota quota ≠ "" := by
  intro h
  have htext : affTransferKey userId affQuota quota = "invite-aff-transfer:" ++ (toString userId ++ ":"
      ++ toString affQuota ++ ":" ++ toString quota) := by
    rfl
  rw [htext] at h
  exact absurd (String.append_eq_empty_iff.mp h).1 (by decide)

/-- The repair of a transfer has another key than the transfer. -/
theorem trimSpace_repairKey_ne (userId affQuota quota : Int) :
    trimSpace (trimSpace (affTransferKey userId affQuota quota ++ ":reserve-repair"))
      ≠ affTransferKey userId affQuota quota := by
  rw [trimSpace_trimSpace, trimSpace_append (trimSpace_affTransferKey _ _ _) (by decide +kernel)
    (affTransferKey_ne_empty _ _ _) (by decide)]
  intro h
  have hlen := congrArg (fun key : String => key.toList.length) h
  simp [String.toList_append] at hlen

theorem trimSpace_userTransferKey (userId affQuota quota : Int) :
    trimSpace ("user:" ++ affTransferKey userId affQuota quota)
      = "user:" ++ affTransferKey userId affQuota quota :=
  trimSpace_append (by decide +kernel) (trimSpace_affTransferKey _ _ _) (by decide) (affTransferKey_ne_empty _ _ _)

/-! ## The two parts of a transfer -/

section Parts

variable {env : RewardEnv} {b b' : Budget} {db db' : RewardDB} {userId quota : Int} {poolType key remark : String}

/-- A repair enters its own key and those of the daily reset. -/
theorem ensureUserReservedQuotaTx_byKey
    (h : ensureUserReservedQuotaTx env b userId poolType quota key remark = .ok b') {k : String}
    (hreset : ¬ (payoutAllowance env (env.canonicalSiteID env.setting.siteID) poolType).adjustKey k)
    (hk : trimSpace (trimSpace key) ≠ k) : b'.transactions.byKey k = b.transactions.byKey k := by
  simp only [ensureUserReservedQuotaTx, currentAgentBudgetPoolMeta, ok_iff] at h
  obtain ⟨-, b₁, hopen, pool, -, h⟩ := h
  have hprepared : Prepared (payoutAllowance env (env.canonicalSiteID env.setting.siteID) poolType) b b₁ :=
    prepared_of_pool hopen
  rw [← hprepared.transactions_byKey hreset]
  split at h
  · cases h
    rfl
  · have houtcome : Outcome _ False _ _ _ _ _ _ _ _ _ _ :=
      reserveQuotaFromBudgetPoolWithSourceTx_outcome h False.elim ⟨.empty, .empty, .empty⟩
    cases houtcome with
    | replayed hprepared' hfound hresult =>
      have hb : b' = _ := congrArg RewardDB.budget hresult
      rw [hb, hprepared'.transactions_byKey hreset]
    | paid hprepared' hpayout hkey =>
      rw [Table.byKey_of_create hpayout.claim, ← hprepared'.transactions_byKey hreset]
      exact if_neg fun heq => hk (hkey.symm.trans heq)

/-- The payout of a reservation credits its user, unless either journal has its key. -/
theorem consumeReservedQuotaFromBudgetPoolTx_credits
    (h : consumeReservedQuotaFromBudgetPoolTx env userId poolType quota key remark db = .ok ((), db'))
    (hreset : ¬ (payoutAllowance env (env.canonicalSiteID env.setting.siteID) poolType).adjustKey
      (trimSpace key)) :
    0 < quota ∧ db'.wallet = db.wallet ∧
      ¬ (db.budget.transactions.byKey (trimSpace key) = none ∧
        db.wallet.transactions.byKey (trimSpace ("user:" ++ trimSpace key)) = none) ∨
    0 < quota ∧ db.wallet.balance userId ≠ none ∧
      (∀ i, db'.wallet.balance i = (db.wallet.balance i).map (· + if userId = i then quota else 0)) ∧
      db.budget.transactions.byKey (trimSpace key) = none ∧
      db.wallet.transactions.byKey (trimSpace ("user:" ++ trimSpace key)) = none := by
  have hpos : 0 < quota := by
    simp only [consumeReservedQuotaFromBudgetPoolTx, rewardArguments, ok_iff, not_le] at h
    obtain ⟨_, ⟨-, hquota, -⟩, -⟩ := h
    exact hquota
  have houtcome : Outcome _ False _ _ _ _ _ _ _ _ _ _ := consumeReservedQuotaFromBudgetPoolTx_outcome h
  cases houtcome with
  | replayed hprepared hfound hresult =>
    -- the budget journal has the key
    rw [hprepared.transactions_byKey hreset] at hfound
    refine .inl ⟨hpos, by rw [hresult], fun hfresh => ?_⟩
    rw [hfresh.1] at hfound
    cases hfound
  | @paid b t hprepared hpayout hkey htype hsource huser hquota =>
    have hbudget : db.budget.transactions.byKey (trimSpace key) = none := by
      rw [← hprepared.transactions_byKey hreset, ← hkey]
      exact Table.byKey_none_of_create hpayout.claim
    rcases hpayout.user.cases with ⟨hzero, -⟩ | ⟨m, applied, happly, hmuser, hmdelta, hmkey, -⟩
    · omega
    · rw [hkey] at hmkey
      rw [huser] at hmuser
      rcases applyUserQuotaMutationTx_cases happly with ⟨-, hsame, r, hr, -⟩ | ⟨-, -, r, hpost, -, hrkey, hruser, hrdelta⟩
      · -- the wallet journal has it
        rw [hmkey] at hr
        refine .inl ⟨hpos, hsame, fun hfresh => ?_⟩
        rw [hfresh.2] at hr
        cases hr
      · rw [hmkey] at hrkey
        have hruser : r.userId = userId := hruser.trans hmuser
        have hrdelta : r.deltaQuota = quota := hrdelta.trans hmdelta
        refine .inr ⟨hpos, ?_, fun i => ?_, hbudget, ?_⟩
        · obtain ⟨u, hu, -⟩ := hpost.user
          rw [hruser] at hu
          rw [Wallet.balance, hu]
          exact some_ne_none _
        · rw [hpost.balance, hruser, hrdelta]
        · rw [← hrkey]
          exact Table.byKey_none_of_create hpost.journal

end Parts

/-! ## One transfer -/

namespace InviteDB

variable {env : InviteEnv} {s s' : InviteDB} {userId quota : Int}

theorem firstUser_eq_ok {user : UserAff} : s.firstUser userId = .ok user ↔ s.affs.byId userId = some user := by
  unfold firstUser
  split
  · next hnone => simp [hnone]
  · next x hx => simp [hx, pure_eq_ok]

/-- **Step lemma**: a successful transfer lowers the promised rewards of its user. It moves them to the user's
quota if its key is new, and moves no quota at all if it is not. -/
theorem transferAffQuotaToQuota_moves (h : transferAffQuotaToQuota env userId quota s = .ok ((), s')) :
    (s.TransferFresh userId quota ∧ s.Moved s' userId quota) ∨
      ¬ s.TransferFresh userId quota ∧ 0 < quota ∧
        (∃ a, s.affQuota userId = some a ∧ s'.affQuota userId = some (a - quota)) ∧
        ∀ i, s'.quota i = s.quota i := by
  simp only [transferAffQuotaToQuota, ok_iff, Prod.exists, not_not, Prod.mk.injEq, true_and, not_lt,
      firstUser_eq_ok] at h
  obtain ⟨-, user, huser, henough, b, hrepair, ⟨⟩, reward, hconsume, -, rfl⟩ := h
  obtain rfl : user.id = userId := (Table.byId_eq_some.mp huser).2
  -- the repair leaves the key of the transfer alone
  have hbudget := ensureUserReservedQuotaTx_byKey hrepair affTransferKey_not_adjust
    (trimSpace_repairKey_ne user.id user.affQuota quota)
  have hreset : ¬ (payoutAllowance env.reward (env.reward.canonicalSiteID env.reward.setting.siteID)
      "growth").adjustKey (trimSpace (affTransferKey user.id user.affQuota quota)) := by
    rw [trimSpace_affTransferKey]
    exact affTransferKey_not_adjust
  have hcredits := consumeReservedQuotaFromBudgetPoolTx_credits hconsume hreset
  rw [trimSpace_affTransferKey, trimSpace_userTransferKey] at hcredits
  have hfresh : s.TransferFresh user.id quota ↔
      b.transactions.byKey (affTransferKey user.id user.affQuota quota) = none ∧
      s.reward.wallet.transactions.byKey ("user:" ++ affTransferKey user.id user.affQuota quota) = none := by
    rw [hbudget]
    refine ⟨fun hf => hf user huser, fun hf user' huser' => ?_⟩
    obtain rfl : user = user' := mem_unique huser huser'
    exact hf
  have hafter : ∀ i, (s.affs.updateWhere (fun a => a.id = user.id ∧ quota ≤ a.affQuota)
      (UserAff.takeQuota quota)).1.byId i
      = if i = user.id then some ((UserAff.takeQuota quota).apply user) else s.affs.byId i := fun i =>
    byId_update huser (by simp [henough]) fun a ha => (of_decide_eq_true ha).1
  have hpromised : ∃ a, s.affQuota user.id = some a ∧
      (⟨reward, (s.affs.updateWhere (fun a => a.id = user.id ∧ quota ≤ a.affQuota)
        (UserAff.takeQuota quota)).1⟩ : InviteDB).affQuota user.id = some (a - quota) := by
    refine ⟨user.affQuota, by rw [affQuota, huser, map_some], ?_⟩
    rw [affQuota, hafter, if_pos rfl]
    rfl
  rcases hcredits with ⟨hpos, hsame, hnot⟩ | ⟨hpos, hexists, hbalance, hnew⟩
  · refine .inr ⟨fun hf => hnot (hfresh.mp hf), hpos, hpromised, fun i => ?_⟩
    rw [InviteDB.quota, InviteDB.quota, hsame]
  · obtain ⟨balance, hb⟩ := ne_none_iff_exists'.mp hexists
    refine .inl ⟨hfresh.mpr hnew, hpromised, ⟨balance, hb, ?_⟩, fun i hi => ⟨?_, ?_⟩⟩
    · rw [InviteDB.quota, hbalance, hb, map_some, if_pos rfl]
    · rw [affQuota, hafter, if_neg hi, affQuota]
    · rw [InviteDB.quota, hbalance, if_neg (Ne.symm hi), InviteDB.quota]
      simp

end InviteDB

/-! ## Runs -/

namespace InviteEvent

/-- The event commits. -/
def Succeeds (s : InviteDB) (e : InviteEvent) : Prop := errorOf (transaction e.fault (e.op.tx e.env) s).1 = none
  deriving Decidable

/-- A transfer that returns success moves its amount, one that returns an error moves nothing. -/
def Kept (s : InviteDB) (e : InviteEvent) : Prop :=
  match e.op with
  | .register .. => True
  | .transfer userId quota =>
    (e.Succeeds s → s.Moved (s.step e) userId quota) ∧ (¬ e.Succeeds s → s.Unmoved (s.step e))

/-- The key of a transfer is new. -/
def Fresh (s : InviteDB) (e : InviteEvent) : Prop :=
  match e.op with
  | .register .. => True
  | .transfer userId quota => s.TransferFresh userId quota

/-- **Step lemma**: a transfer that succeeds keeps its word exactly when its key is new, and one that fails
always does. -/
theorem kept_iff (s : InviteDB) (e : InviteEvent) : e.Kept s ↔ (e.Succeeds s → e.Fresh s) := by
  obtain ⟨env, fault, op⟩ := e
  cases op with
  | register user inviterId => exact iff_of_true trivial fun _ => trivial
  | transfer userId quota =>
    show (_ ∧ _) ↔ (_ → s.TransferFresh userId quota)
    rcases transaction_cases fault ((InviteOp.transfer userId quota).tx env) s
      with ⟨err, herr⟩ | ⟨⟨⟩, s', hbody, hok⟩
    · -- a failed transfer is rolled back
      have hfails : ¬ Succeeds s ⟨env, fault, .transfer userId quota⟩ := by
        rw [Succeeds, herr]
        simp
      have hstep : s.step ⟨env, fault, .transfer userId quota⟩ = s := by rw [InviteDB.step, herr]
      refine iff_of_true ⟨fun h => absurd h hfails, fun _ => ?_⟩ fun h => absurd h hfails
      rw [hstep]
      exact fun i => ⟨rfl, rfl⟩
    · have hsucceeds : Succeeds s ⟨env, fault, .transfer userId quota⟩ := by
        rw [Succeeds, hok]
        rfl
      have hstep : s.step ⟨env, fault, .transfer userId quota⟩ = s' := by rw [InviteDB.step, hok]
      rw [hstep]
      rcases InviteDB.transferAffQuotaToQuota_moves hbody with ⟨hfresh, hmoved⟩ | ⟨hstale, hpos, -, hquota⟩
      · exact iff_of_true ⟨fun _ => hmoved, fun h => absurd hsucceeds h⟩ fun _ => hfresh
      · refine iff_of_false (fun h => ?_) fun h => hstale (h hsucceeds)
        obtain ⟨b, hb, hb'⟩ := (h.1 hsucceeds).credited
        rw [hquota, hb, Option.some.injEq] at hb'
        omega

end InviteEvent

/-- **A transfer moves its amount once per key.** In every run of registrations and transfers, on any dates,
under any settings and with faults, in which the key of each transfer is new, every transfer that returns
success moves its amount from the promised rewards to the quota of its user, and every one that returns an error
moves nothing; and a transfer that succeeds does so only under a new key. -/
theorem transfers_move (s : InviteDB) (events : List InviteEvent) :
    (Along InviteDB.step (fun s e => e.Fresh s) s events → Along InviteDB.step (fun s e => e.Kept s) s events) ∧
    Along InviteDB.step (fun s e => e.Succeeds s → (e.Kept s ↔ e.Fresh s)) s events := by
  refine ⟨fun h => ?_, along_of_forall InviteDB.step (fun s e hok => ?_) s events⟩
  · refine along_of_keeps (I := fun _ => True) (fun _ _ _ _ => trivial) (fun s e _ hfresh => ?_) trivial h
    exact (e.kept_iff s).mpr fun _ => hfresh
  · rw [e.kept_iff s]
    exact ⟨fun h => h hok, fun h _ => h⟩

/-- Two invitees register, and the reward for each is paid out before the next one comes. -/
def recurringTransfers : List InviteEvent :=
  [plainRegistration "2026-06-21", plainTransfer "2026-06-21", plainRegistration "2026-06-21",
    plainTransfer "2026-06-21"]

/-- The second payout succeeds and takes the promised reward, and the inviter gets nothing for it. -/
theorem recurringTransfers_lost :
    (plainTransfer "2026-06-21").Succeeds (run InviteDB.step plainInviteDB (recurringTransfers.take 3)) ∧
    (run InviteDB.step plainInviteDB (recurringTransfers.take 3)).affQuota 1 = some 10 ∧
    (run InviteDB.step plainInviteDB recurringTransfers).affQuota 1 = some 0 ∧
    (run InviteDB.step plainInviteDB recurringTransfers).quota 1 =
      (run InviteDB.step plainInviteDB (recurringTransfers.take 3)).quota 1 ∧
    ¬ Along InviteDB.step (fun s e => e.Kept s) plainInviteDB recurringTransfers := by
  have hruns : (plainTransfer "2026-06-21").Succeeds
        (run InviteDB.step plainInviteDB (recurringTransfers.take 3)) ∧
      (run InviteDB.step plainInviteDB (recurringTransfers.take 3)).affQuota 1 = some 10 ∧
      (run InviteDB.step plainInviteDB recurringTransfers).affQuota 1 = some 0 ∧
      (run InviteDB.step plainInviteDB recurringTransfers).quota 1 =
        (run InviteDB.step plainInviteDB (recurringTransfers.take 3)).quota 1 := by decide +kernel
  obtain ⟨hok, htaken, hnone, hsame⟩ := hruns
  have hlast : recurringTransfers = recurringTransfers.take 3 ++ [plainTransfer "2026-06-21"] := rfl
  refine ⟨hok, htaken, hnone, hsame, fun h => ?_⟩
  rw [hlast, along_append] at h
  rw [(congrArg (run _ _) hlast).trans (run_append ..), run_cons, run_nil] at hsame
  obtain ⟨b, hb, hb'⟩ := (h.2.1.1 hok).credited
  have hbalance := hb.symm.trans (hsame.symm.trans hb')
  rw [Option.some.injEq] at hbalance
  omega

end Prox
