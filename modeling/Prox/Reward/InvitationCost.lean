import Prox.Reward.Invitation
import Prox.Reward.Reset

/-! # The cost of invitations

An invitation reward costs the operations fund once as long as it is paid out on the business date it was
promised on. A transfer looks only at the growth pool of its own day: what it does not find reserved there
it reserves again, and the fund pays a second time while the first reservation stays frozen. -/

namespace Prox

open List Option Table

/-! ## Keys -/

/-- The journal key belongs to no promise for a user with an id from `n` on. -/
def ForeignKey (n : Int) (key : String) : Prop :=
  ∀ inviterId userId : Int, 0 < inviterId → n ≤ userId → ∀ s ∈ ["", "_fund"],
    key ≠ inviterReserveKey inviterId userId ++ s

variable {d f n quota u userId : Int} {key p poolType remark siteID source : String}
  {env : RewardEnv}

namespace ForeignKey

theorem mono {m : Int} (h : ForeignKey m key) (hmn : m ≤ n) : ForeignKey n key :=
  fun i u hi hu => h i u hi (hmn.trans hu)

/-- The characters of a promise. -/
theorem toList_inviterReserveKey (i u : Nat) (s : String) :
    (inviterReserveKey i u ++ s).toList
      = "inviter-reserve:".toList ++ (Nat.toDigits 10 i ++ ':' :: (Nat.toDigits 10 u ++ s.toList)) := by
  have htext : inviterReserveKey i u
      = "inviter-reserve:" ++ toString (i : Int) ++ ":" ++ toString (u : Int) := rfl
  rw [htext]
  simp only [String.toList_append, toList_toString_natCast, append_assoc]
  rfl

/-- A key with another beginning is foreign. -/
theorem of_stem {s : String} (hp : ¬ p.toList <+: "inviter-reserve:".toList)
    (hp' : ¬ "inviter-reserve:".toList <+: p.toList) (hn : 0 ≤ n) : ForeignKey n (p ++ s) := by
  intro i u hi hu t _ heq
  obtain ⟨i, rfl⟩ := Int.eq_ofNat_of_zero_le hi.le
  obtain ⟨u, rfl⟩ := Int.eq_ofNat_of_zero_le (hn.trans hu)
  have hlist := congrArg String.toList heq
  rw [String.toList_append, toList_inviterReserveKey] at hlist
  have hstart : "inviter-reserve:".toList <+: p.toList ++ s.toList := by
    rw [hlist]
    exact prefix_append _ _
  rcases prefix_or_prefix_of_prefix (prefix_append p.toList s.toList) hstart with h | h
  · exact hp h
  · exact hp' h

/-- The promise for an earlier user is foreign. -/
theorem of_lt {i : Int} (hi : 0 < i) (hu : 0 ≤ u) (hun : u < n) {s : String}
    (hs : s ∈ ["", "_fund"]) : ForeignKey n (inviterReserveKey i u ++ s) := by
  intro i' u' hi' hu' s' hs' heq
  obtain ⟨i, rfl⟩ := Int.eq_ofNat_of_zero_le hi.le
  obtain ⟨u, rfl⟩ := Int.eq_ofNat_of_zero_le hu
  obtain ⟨i', rfl⟩ := Int.eq_ofNat_of_zero_le hi'.le
  obtain ⟨u', rfl⟩ := Int.eq_ofNat_of_zero_le (by omega : (0 : Int) ≤ u')
  have hlist := congrArg String.toList heq
  have hsuffix : ∀ s ∈ ["", "_fund"], ∀ c ∈ s.toList.head?, c.isDigit = false := by
    intro s hs c hc
    rcases mem_cons.mp hs with rfl | hs
    · cases hc
    · obtain rfl : s = "_fund" := mem_singleton.mp hs
      obtain rfl : '_' = c := Option.some.inj hc
      rfl
  simp only [toList_inviterReserveKey, append_cancel_left_eq] at hlist
  obtain ⟨-, hrest⟩ := toDigits_append_inj (by simp) (by simp) hlist
  obtain ⟨huu, -⟩ := toDigits_append_inj (hsuffix s hs) (hsuffix s' hs') (cons_eq_cons.mp hrest).2
  omega

/-- The keys of the daily reset begin with its name. -/
theorem exists_resetKey (env : RewardEnv) (siteID budgetDate suffix : String) :
    ∃ s, trimSpace (trimSpace (agentDailyBudgetResetRequestID env siteID budgetDate) ++ suffix)
      = "daily-budget-reset:" ++ s := by
  have htrim : trimSpace "daily-budget-reset:" = "daily-budget-reset:" := by decide +kernel
  have hne : "daily-budget-reset:" ≠ "" := by decide
  have hkey : ∃ s, trimSpace (agentDailyBudgetResetRequestID env siteID budgetDate)
      = "daily-budget-reset:" ++ s := by
    unfold agentDailyBudgetResetRequestID stableQuotaReplaySettlementID
    dsimp only
    rw [String.append_assoc, String.append_assoc]
    obtain ⟨s, hs⟩ := exists_trimSpace_append htrim hne
      (env.canonicalSiteID siteID ++ (":" ++ trimSpace budgetDate))
    rw [hs]
    split
    · next h => exact absurd (String.append_eq_empty_iff.mp h).1 hne
    · split
      · exact exists_trimSpace_append htrim hne s
      · -- the digest replaces the tail of a long id
        obtain ⟨t, ht⟩ : ∃ t, bytePrefix 47 ("daily-budget-reset:" ++ s) = "daily-budget-reset:" ++ t := by
          obtain ⟨t, ht⟩ := takeBytes_append (n := 47) (l := "daily-budget-reset:".toList)
            (r := s.toList) (by decide)
          exact ⟨String.ofList t, by rw [bytePrefix, String.toList_append, ht, String.ofList_append,
            String.ofList_toList]⟩
        rw [ht, String.append_assoc, String.append_assoc]
        exact exists_trimSpace_append htrim hne _
  obtain ⟨s, hs⟩ := hkey
  rw [hs]
  exact exists_trimSpace_append htrim hne (s ++ suffix)

theorem of_reset {budgetDate : String} (hn : 0 ≤ n) (suffix : String) : ForeignKey n
      (trimSpace (trimSpace (agentDailyBudgetResetRequestID env siteID budgetDate) ++ suffix)) := by
  obtain ⟨s, hs⟩ := exists_resetKey env siteID budgetDate suffix
  rw [hs]
  exact of_stem (by decide) (by decide) hn

end ForeignKey

theorem trimSpace_inviterReserveKey (inviterId userId : Int) :
    trimSpace (inviterReserveKey inviterId userId) = inviterReserveKey inviterId userId := by
  have htext : inviterReserveKey inviterId userId
      = "inviter-reserve:" ++ toString inviterId ++ ":" ++ toString userId := rfl
  obtain ⟨h, hne⟩ := trimSpace_append_colon
    (trimSpace_label_append (s := "inviter-reserve:") (by decide +kernel) (by decide) inviterId)
  exact (trimSpace_label_append h hne userId).1

theorem trimSpace_affTransferKey (userId affQuota quota : Int) :
    trimSpace (affTransferKey userId affQuota quota) = affTransferKey userId affQuota quota := by
  have htext : affTransferKey userId affQuota quota = "invite-aff-transfer:" ++ toString userId ++ ":"
      ++ toString affQuota ++ ":" ++ toString quota := rfl
  obtain ⟨h, hne⟩ := trimSpace_append_colon
    (trimSpace_label_append (s := "invite-aff-transfer:") (by decide +kernel) (by decide) userId)
  obtain ⟨h, hne⟩ := trimSpace_append_colon (trimSpace_label_append h hne affQuota)
  exact (trimSpace_label_append h hne quota).1

/-! ## The accounts of an inviter -/

/-- The sources under which invitation rewards are reserved: promises and repairs. -/
def inviteSources : List String := ["invite_inviter_reserve", "legacy_invite_reserve_repair"]

namespace Budget

/-- What the fund was debited for the invitation rewards of a user. -/
def inviteDebits (b : Budget) (userId : Int) : Int :=
  -b.ledger.total (fun l => l.userId = userId ∧ l.sourceType ∈ inviteSources) OpsFundLedger.deltaQuota

/-- What the journal holds frozen for a user, in the pools of all days. -/
def frozenFor (b : Budget) (userId : Int) : Int :=
  b.transactions.total (fun t => t.userId = userId) AgentBudgetTransaction.frozenDelta

/-- The frozen column of every pool is what its entries in the journal say. -/
structure FrozenJournaled (b : Budget) : Prop where
  referenced : ∀ t ∈ b.transactions.rows, t.frozenDelta ≠ 0 → ∃ p ∈ b.pools.rows, p.id = t.poolId
  column : ∀ p ∈ b.pools.rows, p.frozenQuota
    = b.transactions.total (fun t => t.poolId = p.id) AgentBudgetTransaction.frozenDelta

/-- The keys of both journals belong to no promise for a user with an id from `n` on. -/
structure KeysForeign (b : Budget) (n : Int) : Prop where
  transactions : ∀ t ∈ b.transactions.rows, ForeignKey n t.idempotencyKey
  ledger : ∀ l ∈ b.ledger.rows, ForeignKey n l.idempotencyKey

end Budget

variable {t : AgentBudgetTransaction}

/-- Adjustments freeze nothing. -/
theorem AgentBudgetTransaction.Adjusts.frozenDelta (h : t.Adjusts) : t.frozenDelta = 0 := by
  unfold AgentBudgetTransaction.frozenDelta
  rcases h with h | h <;> simp [h]

section Accounts

variable {A : Allowance} {booked : Prop} {b b' : Budget} {db db' : RewardDB} {i : Int}

/-- A preparation neither pays nor freezes for a user. -/
theorem Prepared.accounts (h : Prepared A b b') (hi : 0 < i) :
    b'.inviteDebits i = b.inviteDebits i ∧ b'.frozenFor i = b.frozenFor i := by
  refine h.keeps (I := fun c => c.inviteDebits i = b.inviteDebits i ∧ c.frozenFor i = b.frozenFor i)
    (fun c c' hc hmove => ?_) ⟨rfl, rfl⟩
  cases hmove with
  | poolOpened => exact hc
  | fundOpened => exact hc
  | adjusted hp hcreate hadjusts =>
    refine ⟨hc.1, Eq.trans ?_ hc.2⟩
    simp [Budget.frozenFor, total_of_create hcreate, hadjusts.frozenDelta]
  | raised ha hcreate huser =>
    refine ⟨Eq.trans ?_ hc.1, hc.2⟩
    have hne : ¬ (0 : Int) = i := by omega
    simp [Budget.inviteDebits, total_of_create hcreate, huser, hne]

/-- What an entry freezes is frozen for its user. -/
theorem Payout.frozenFor (h : Payout booked db db' t u f d) (i : Int) :
    db'.budget.frozenFor i = db.budget.frozenFor i + if t.userId = i then t.frozenDelta else 0 := by
  simp [Budget.frozenFor, total_of_create h.claim]

/-- What the fund pays for an invitation reward is debited for its user, unless the entry gets lost. -/
theorem Payout.inviteDebits (h : Payout booked db db' t u f d)
    (hbooked : booked ∨ t.sourceType ∉ inviteSources ∨ f = 0) :
    db'.budget.inviteDebits i = db.budget.inviteDebits i
      - if t.userId = i ∧ t.sourceType ∈ inviteSources then f else 0 := by
  obtain ⟨c, hmove, -, hledger⟩ := h.fund
  unfold Budget.inviteDebits
  rw [hledger]
  cases hmove with
  | untouched hf => simp [hf]
  | entered ha hcovered hcreate huser hsource hfund hdelta =>
    rw [total_of_create hcreate]
    simp only [huser, hsource, hdelta, decide_eq_true_eq]
    omega
  | skipped ha hcovered hskip =>
    have hzero : (if t.userId = i ∧ t.sourceType ∈ inviteSources then f else 0) = 0 := by
      split
      · next hc =>
        rcases hbooked with hb | hs | hf
        · exact absurd hb hskip
        · exact absurd hc.2 hs
        · exact hf
      · rfl
    rw [hzero, Int.sub_zero]
    rfl

theorem mem_updatePool {id : Int} {f : Patch AgentBudgetPool} {p' : AgentBudgetPool} :
    p' ∈ (b.updatePool id f).pools.rows ↔
      ∃ p ∈ b.pools.rows, (if p.id = id then f.apply p else p) = p' := by
  simp [Budget.updatePool]

/-- A pool is there after an update, too. -/
theorem exists_mem_updatePool {id : Int} {f : Patch AgentBudgetPool} {k : Int}
    (h : ∃ p ∈ b.pools.rows, p.id = k) : ∃ p ∈ (b.updatePool id f).pools.rows, p.id = k := by
  obtain ⟨p, hp, rfl⟩ := h
  refine ⟨_, mem_updatePool.mpr ⟨p, hp, rfl⟩, ?_⟩
  split
  · exact f.id_apply p
  · rfl

/-- A new entry of one pool and the same change of its frozen column keep the journal of the columns. -/
theorem Budget.FrozenJournaled.entered (h : b.FrozenJournaled)
    (hcreate : b.transactions.create t = some b'.transactions) {f : Patch AgentBudgetPool}
    (hpools : b'.pools = (b.updatePool t.poolId f).pools)
    (hpool : ∃ p ∈ b.pools.rows, p.id = t.poolId)
    (hf : ∀ p, (f.apply p).frozenQuota = p.frozenQuota + t.frozenDelta) : b'.FrozenJournaled where
  referenced x hx hne := by
    rw [hpools]
    rcases (mem_of_create hcreate).mp hx with hx | rfl
    · exact exists_mem_updatePool (h.referenced x hx hne)
    · exact exists_mem_updatePool hpool
  column p' hp' := by
    rw [hpools] at hp'
    obtain ⟨p, hp, rfl⟩ := mem_updatePool.mp hp'
    have hcolumn := h.column p hp
    have hid : (if p.id = t.poolId then f.apply p else p).id = p.id := by
      split
      · exact f.id_apply p
      · rfl
    rw [hid, total_of_create hcreate, ← hcolumn]
    by_cases heq : p.id = t.poolId
    · rw [if_pos heq, hf]
      simp [heq]
    · rw [if_neg heq]
      simp [Ne.symm heq]

/-- **Step lemma**: every move keeps the journal of the frozen columns. -/
theorem Budget.FrozenJournaled.move (h : db.budget.FrozenJournaled) (hmove : RewardMove A booked db db') :
    db'.budget.FrozenJournaled := by
  cases hmove with
  | paid hpayout =>
    obtain ⟨p, hp, hid, -⟩ := hpayout.pool
    exact h.entered hpayout.claim hpayout.pools ⟨p, hp, hid.symm⟩ fun _ => rfl
  | prepared hmove =>
    cases hmove with
    | fundOpened => exact ⟨h.referenced, h.column⟩
    | raised => exact ⟨h.referenced, h.column⟩
    | @adjusted p t transactions hp hcreate hadjusts hpool =>
      have hzero := hadjusts.frozenDelta
      exact h.entered hcreate (by rw [hpool]) ⟨p, hp, hpool.symm⟩ fun x => by
        simp [AgentBudgetPool.addTotal, hzero]
    | @poolOpened p pools hcreate hseed hused hfrozen =>
      have hmem : ∀ {x}, x ∈ pools.rows ↔ x ∈ db.budget.pools.rows ∨ x = p := mem_of_create hcreate
      refine ⟨fun t ht hne => ?_, fun x hx => ?_⟩
      · obtain ⟨x, hx, hid⟩ := h.referenced t ht hne
        exact ⟨x, hmem.mpr (.inl hx), hid⟩
      · rcases hmem.mp hx with hx | rfl
        · exact h.column x hx
        · -- nothing refers to a new pool
          rw [hfrozen]
          refine (total_eq_zero_of_weight _ _ fun t ht hid => ?_).symm
          by_contra hne
          obtain ⟨y, hy, hyid⟩ := h.referenced t ht hne
          exact id_ne_of_create hcreate hy (hyid.trans (of_decide_eq_true hid))

theorem Prepared.keysForeign (h : Prepared A b b') (hb : b.KeysForeign n)
    (hA : ∀ k, A.adjustKey k ∨ A.raiseKey k → ForeignKey n k) : b'.KeysForeign n := by
  refine h.keeps (I := fun c => c.KeysForeign n) (fun c c' hc hmove => ?_) hb
  cases hmove with
  | poolOpened => exact ⟨hc.transactions, hc.ledger⟩
  | fundOpened => exact ⟨hc.transactions, hc.ledger⟩
  | adjusted hp hcreate hadjusts hpool hkey =>
    refine ⟨fun x hx => ?_, hc.ledger⟩
    rcases (mem_of_create hcreate).mp hx with hx | rfl
    · exact hc.transactions x hx
    · exact hA _ (.inl hkey)
  | raised ha hcreate huser hfund hkey =>
    refine ⟨hc.transactions, fun x hx => ?_⟩
    rcases (mem_of_create hcreate).mp hx with hx | rfl
    · exact hc.ledger x hx
    · exact hA _ (.inr hkey)

theorem Payout.keysForeign (h : Payout booked db db' t u f d) (hb : db.budget.KeysForeign n)
    (hkeys : ∀ k ∈ [t.idempotencyKey, t.idempotencyKey ++ "_fund"], ForeignKey n k) :
    db'.budget.KeysForeign n := by
  obtain ⟨c, hmove, -, hledger⟩ := h.fund
  refine ⟨fun x hx => ?_, ?_⟩
  · rcases (mem_of_create h.claim).mp hx with hx | rfl
    · exact hb.transactions x hx
    · exact hkeys _ (.head _)
  · rw [hledger]
    cases hmove with
    | untouched => exact hb.ledger
    | skipped => exact hb.ledger
    | entered ha hcovered hcreate huser hsource hfund hdelta hkey =>
      intro x hx
      rcases (mem_of_create hcreate).mp hx with hx | rfl
      · exact hb.ledger x hx
      · exact hkeys _ hkey

/-- What a claim of this type and quota freezes. -/
def frozenBy (type : String) (quota : Int) : Int :=
  if type = "reserve" then quota else if type = "consume_frozen" then -quota else 0

/-- The keys that a payout writes while it prepares are foreign. -/
theorem foreignKey_of_payoutAllowance {k : String} (hn : 0 ≤ n)
    (h : (payoutAllowance env siteID poolType).adjustKey k ∨
      (payoutAllowance env siteID poolType).raiseKey k) : ForeignKey n k := by
  rcases h with ⟨t, -, rfl⟩ | rfl
  · rw [String.append_assoc]
    exact .of_reset hn _
  · exact .of_reset hn _

/-- What an outcome leaves in the books of an inviter, whose journals had no promise for a user with an
id from `n` on: nothing new when the key was `taken`, else what the claim freezes and the fund pays. -/
structure BooksAfter (db db' : RewardDB) (n i : Int) (key type source : String)
    (userId quota f : Int) (taken : Bool) : Prop where
  keys : ∀ m, n ≤ m → (∀ k ∈ [key, key ++ "_fund"], ForeignKey m k) → db'.budget.KeysForeign m
  journaled : db'.budget.FrozenJournaled
  debits : db'.budget.inviteDebits i = db.budget.inviteDebits i
    - if taken = false ∧ userId = i ∧ source ∈ inviteSources then f else 0
  frozen : db'.budget.frozenFor i = db.budget.frozenFor i
    + if taken = false ∧ userId = i then frozenBy type quota else 0

theorem Outcome.books {type : String}
    (h : Outcome (payoutAllowance env siteID poolType) booked db db' key type source userId quota u f d)
    (hi : 0 < i) (hn : 0 ≤ n) (hkeys : db.budget.KeysForeign n)
    (hjournaled : db.budget.FrozenJournaled) (hbooked : booked ∨ source ∉ inviteSources ∨ f = 0) :
    ∃ taken, BooksAfter db db' n i key type source userId quota f taken ∧
      (taken = true → ∃ b, Prepared (payoutAllowance env siteID poolType) db.budget b ∧
        ∃ r, b.transactions.byKey key = some r) := by
  have hjournaled' : db'.budget.FrozenJournaled :=
    h.moves.keeps (I := fun db => db.budget.FrozenJournaled) (fun _ _ h hmove => h.move hmove) hjournaled
  cases h with
  | @replayed b r hprepared hfound hresult =>
    subst hresult
    obtain ⟨hdebits, hfrozen⟩ := hprepared.accounts hi
    have hforeign := hprepared.keysForeign hkeys fun k => foreignKey_of_payoutAllowance hn
    refine ⟨true, ⟨fun m hm _ => ?_, hjournaled', by simpa using hdebits, by simpa using hfrozen⟩,
      fun _ => ⟨b, hprepared, r, hfound⟩⟩
    exact ⟨fun t ht => (hforeign.transactions t ht).mono hm, fun l hl => (hforeign.ledger l hl).mono hm⟩
  | @paid b t hprepared hpayout hkey htype hsource huser hquota =>
    subst hkey htype hsource huser hquota
    obtain ⟨hdebits, hfrozen⟩ := hprepared.accounts hi
    have hforeign := hprepared.keysForeign hkeys fun k => foreignKey_of_payoutAllowance hn
    refine ⟨false, ⟨fun m hm hkey => hpayout.keysForeign ?_ hkey, hjournaled', ?_, ?_⟩,
      fun h => by cases h⟩
    · exact ⟨fun t ht => (hforeign.transactions t ht).mono hm, fun l hl => (hforeign.ledger l hl).mono hm⟩
    · rw [hpayout.inviteDebits hbooked]
      simp [hdebits]
    · rw [hpayout.frozenFor]
      simp only [hfrozen, true_and]
      rfl

end Accounts

/-! ## Operations -/

namespace InviteDB

/-- The rewards promised to a user so far. -/
def promised (s : InviteDB) (userId : Int) : Int :=
  ((s.affs.byId userId).map UserAff.affHistory).getD 0

/-- The promised rewards of a user that were not paid out. -/
def unpaid (s : InviteDB) (userId : Int) : Int :=
  ((s.affs.byId userId).map UserAff.affQuota).getD 0

/-- The books of an inviter agree, and the journals have no promise for a user with an id from `n` on. -/
structure Sound (s : InviteDB) (n i : Int) : Prop where
  keys : s.reward.budget.KeysForeign n
  journaled : s.reward.budget.FrozenJournaled
  /-- Each promise was paid by the fund, once. -/
  debits : s.reward.budget.inviteDebits i = s.promised i
  /-- Frozen is what was promised and not paid out. -/
  frozen : s.reward.budget.frozenFor i = s.unpaid i

section Steps

variable {env : InviteEnv} {s s' : InviteDB} {i : Int}

theorem Sound.mono {m : Int} (h : s.Sound n i) (hnm : n ≤ m) : s.Sound m i :=
  { h with
    keys := ⟨fun t ht => (h.keys.transactions t ht).mono hnm,
      fun l hl => (h.keys.ledger l hl).mono hnm⟩ }

/-- A new user has no promises. -/
theorem Sound.createUser {user : User} (h : s.Sound s.affs.nextId i)
    (hc : s.createUser user = .ok (userId, s')) : s'.Sound userId i ∧ userId < s'.affs.nextId := by
  unfold InviteDB.createUser at hc
  dsimp only at hc
  split at hc
  · next affs users haffs husers =>
    cases hc
    have hbyId : ∀ w : UserAff → Int, w { id := s.affs.nextId } = 0 →
        ((affs.byId i).map w).getD 0 = ((s.affs.byId i).map w).getD 0 := by
      intro w hw
      by_cases hi : i = s.affs.nextId
      · have hnew : affs.byId i = some { id := s.affs.nextId } :=
          byId_eq_some.mpr ⟨(mem_of_create haffs).mpr (.inr rfl), hi.symm⟩
        have hold : s.affs.byId i = none := by
          cases hx : s.affs.byId i with
          | none => rfl
          | some x =>
            obtain ⟨hmem, hid⟩ := byId_eq_some.mp hx
            have := id_lt_nextId hmem
            omega
        rw [hnew, hold]
        exact hw
      · rw [byId_of_create haffs hi]
    refine ⟨⟨h.keys, h.journaled, h.debits.trans (hbyId _ rfl).symm, h.frozen.trans (hbyId _ rfl).symm⟩, ?_⟩
    exact id_lt_nextId ((mem_of_create haffs).mpr (.inr rfl))
  · cases hc

/-- A grant under a key and a source of its own does not touch the books of invitations. -/
theorem Sound.grant (h : s.Sound n i) (hi : 0 < i) (hn : 0 ≤ n) {reward : RewardDB}
    (hp : trimSpace p = p ∧ p ≠ "" ∧ ¬ p.toList <+: "inviter-reserve:".toList ∧
      ¬ "inviter-reserve:".toList <+: p.toList)
    (hsource : (if trimSpace source = "" then "reward_grant" else trimSpace source) ∉ inviteSources)
    (hg : grantQuotaFromBudgetPoolWithSourceTx env.reward userId poolType quota (p ++ key) remark source
      "" s.reward = .ok ((), reward)) : ({ s with reward } : InviteDB).Sound n i := by
  obtain ⟨hptrim, hpne, hp, hp'⟩ := hp
  have houtcome : Outcome _ False _ _ _ _ _ _ _ _ _ _ :=
    grantQuotaFromBudgetPoolWithSourceTx_outcome hg False.elim
  obtain ⟨taken, hbooks, -⟩ := houtcome.books hi hn h.keys h.journaled (.inr (.inl hsource))
  obtain ⟨t, ht⟩ := exists_trimSpace_append hptrim hpne key
  refine ⟨hbooks.keys n le_rfl ?_, hbooks.journaled, ?_, ?_⟩
  · rw [ht]
    refine forall_mem_cons.mpr ⟨.of_stem hp hp' hn, forall_mem_singleton.mpr ?_⟩
    rw [String.append_assoc]
    exact .of_stem hp hp' hn
  · rw [hbooks.debits, if_neg fun hc => hsource hc.2.2, Int.sub_zero]
    exact h.debits
  · have hzero : frozenBy "grant" quota = 0 := rfl
    rw [hbooks.frozen, hzero, ite_self, Int.add_zero]
    exact h.frozen

/-- An update of one user's columns, as the lookup of a user sees it. -/
theorem byId_update {f : Patch UserAff} {affs : Table UserAff} {user : UserAff}
    (huser : affs.byId user.id = some user) {c : UserAff → Bool} (hc : c user = true)
    (honly : ∀ a, c a = true → a.id = user.id) :
    (affs.updateWhere c f).1.byId i = if i = user.id then some (f.apply user) else affs.byId i := by
  rw [byId_updateWhere]
  by_cases hi : i = user.id
  · rw [if_pos hi, hi, huser, map_some, if_pos hc]
  · rw [if_neg hi]
    cases ha : affs.byId i with
    | none => rfl
    | some a =>
      have hid : a.id = i := (byId_eq_some.mp ha).2
      rw [map_some, if_neg fun h => hi (hid.symm.trans (honly a h))]

/-- **The promise to the inviter** is booked once: the fund pays what the columns promise. -/
theorem Sound.rewardInviter (h : s.Sound n i) (hi : 0 < i) (hn : 0 ≤ n) {inviterId : Int}
    (hinviter : 0 < inviterId) (hr : rewardInviterTx env n inviterId s = .ok s') :
    s'.Sound (n + 1) i ∧ s'.affs.nextId = s.affs.nextId := by
  simp only [rewardInviterTx, ok_iff, not_not] at hr
  obtain ⟨b, hreserve, haffected, rfl⟩ := hr
  have hkey := trimSpace_inviterReserveKey inviterId n
  -- the entry of the fund's journal cannot get lost
  have hfree : s.reward.budget.FundKeyFree env.reward
      (env.reward.canonicalSiteID env.reward.setting.siteID)
      (trimSpace (inviterReserveKey inviterId n))
      (trimSpace (inviterReserveKey inviterId n) ++ "_fund") := by
    rw [hkey]
    intro _
    refine ⟨byKey_eq_none.mpr fun l hl => ?_, ?_⟩
    · exact h.keys.ledger l hl inviterId n hinviter le_rfl "_fund" (by simp)
    · exact (ForeignKey.of_reset hn ":fund" inviterId n hinviter le_rfl "_fund" (by simp)).symm
  have houtcome : Outcome _ True _ _ _ _ _ _ _ _ _ _ :=
    reserveQuotaFromBudgetPoolWithSourceTx_outcome hreserve (fun _ => hfree) s.reward.wallet
  obtain ⟨taken, hbooks, htaken⟩ := houtcome.books hi hn h.keys h.journaled (.inl trivial)
  rw [hkey] at hbooks htaken
  obtain rfl : taken = false := by
    by_contra ht
    obtain ⟨c, hprepared, r, hr⟩ := htaken (by simpa using ht)
    have hforeign := hprepared.keysForeign h.keys fun k => foreignKey_of_payoutAllowance hn
    obtain ⟨hmem, hrkey⟩ := byKey_eq_some.mp hr
    exact hforeign.transactions r hmem inviterId n hinviter le_rfl "" (by simp)
      (by rw [String.append_empty]; exact hrkey)
  have hsource : (if trimSpace "invite_inviter_reserve" = "" then "reserve"
      else trimSpace "invite_inviter_reserve") ∈ inviteSources := by
    decide +kernel
  obtain ⟨user, hmem, hid⟩ := exists_of_rowsAffected_ne_zero (haffected.trans_ne Nat.one_ne_zero)
  have hid : user.id = inviterId := of_decide_eq_true hid
  have huser : s.affs.byId user.id = some user := byId_eq_some.mpr ⟨hmem, rfl⟩
  have hafter : (s.affs.updateWhere (fun a => a.id = inviterId)
      (UserAff.addReward env.quotaForInviter)).1.byId i
      = if i = user.id then some ((UserAff.addReward env.quotaForInviter).apply user)
        else s.affs.byId i :=
    byId_update huser (by simpa using hid) fun a ha => (of_decide_eq_true ha).trans hid.symm
  have hreserved : frozenBy "reserve" env.quotaForInviter = env.quotaForInviter := rfl
  refine ⟨⟨hbooks.keys _ (by omega) ?_, hbooks.journaled, ?_, ?_⟩, nextId_updateWhere⟩
  · have hown := fun t (ht : t ∈ ["", "_fund"]) =>
      ForeignKey.of_lt (n := n + 1) hinviter hn (by omega) ht
    refine forall_mem_cons.mpr ⟨?_, forall_mem_singleton.mpr (hown "_fund" (by simp))⟩
    simpa using hown "" (by simp)
  · have hdebits := h.debits
    rw [hbooks.debits, hdebits]
    simp only [promised, hafter, hsource, true_and, and_true]
    by_cases hiu : i = user.id
    · rw [if_pos (hid ▸ hiu).symm, hiu, huser]
      simp [UserAff.addReward]
    · rw [if_neg fun h => hiu (h.symm.trans hid.symm), if_neg hiu, Int.sub_zero]
  · have hfrozen := h.frozen
    rw [hbooks.frozen, hfrozen, hreserved]
    simp only [unpaid, hafter, true_and]
    by_cases hiu : i = user.id
    · rw [if_pos (hid ▸ hiu).symm, hiu, huser]
      simp [UserAff.addReward]
    · rw [if_neg fun h => hiu (h.symm.trans hid.symm), if_neg hiu, Int.add_zero]

/-- A reward of a registration that is granted to the new user, if it is configured. -/
theorem Sound.optionalGrant (h : s.Sound n i) (hi : 0 < i) (hn : 0 ≤ n) {reward : RewardDB}
    (hp : trimSpace p = p ∧ p ≠ "" ∧ ¬ p.toList <+: "inviter-reserve:".toList ∧
      ¬ "inviter-reserve:".toList <+: p.toList)
    (hsource : (if trimSpace source = "" then "reward_grant" else trimSpace source) ∉ inviteSources)
    (hg : (if 0 < quota then grantQuotaFromBudgetPoolWithSourceTx env.reward userId "growth" quota
        (p ++ key) remark source "" s.reward else pure ((), s.reward)) = .ok ((), reward)) :
    ({ s with reward } : InviteDB).Sound n i := by
  split at hg
  · exact h.grant hi hn hp hsource hg
  · cases hg
    exact h

/-- The rewards of a registration keep the books of every inviter. -/
theorem Sound.registration (h : s.Sound n i) (hi : 0 < i) (hlt : n < s.affs.nextId) {inviterId : Int}
    (hr : applyRegistrationGrowthBudgetTx env n inviterId s = .ok ((), s')) :
    s'.Sound s'.affs.nextId i := by
  simp only [applyRegistrationGrowthBudgetTx, ok_iff, Prod.exists] at hr
  obtain ⟨hpos, ⟨⟩, reward₁, hsignup, hr⟩ := hr
  have hn : 0 ≤ n := by omega
  have hsignupKey : signupKey n = "signup:" ++ toString n := rfl
  have hinviteeKey : inviteeKey n inviterId
      = "invitee:" ++ (toString n ++ (":" ++ toString inviterId)) := by
    rw [← String.append_assoc, ← String.append_assoc]
    rfl
  rw [hinviteeKey] at hr
  have h₁ : ({ s with reward := reward₁ } : InviteDB).Sound n i :=
    h.optionalGrant hi hn (by decide +kernel) (by decide +kernel) hsignup
  split at hr
  · simp only [ok_iff, Prod.mk.injEq, true_and] at hr
    obtain ⟨_, -, rfl⟩ := hr
    exact h₁.mono hlt.le
  · next hinviter =>
    simp only [ok_iff, Prod.mk.injEq, true_and, Prod.exists] at hr
    obtain ⟨⟨⟩, reward₂, hinvitee, s₃, hreserve, _, -, rfl⟩ := hr
    have h₂ : ({ s with reward := reward₂ } : InviteDB).Sound n i :=
      h₁.optionalGrant hi hn (by decide +kernel) (by decide +kernel) hinvitee
    split at hreserve
    · obtain ⟨h₃, hnext⟩ := h₂.rewardInviter hi hn (by omega) hreserve
      have hnext : s₃.affs.nextId = s.affs.nextId := hnext
      exact h₃.mono (by omega)
    · cases hreserve
      exact h₂.mono hlt.le

/-- What the growth pool of the day holds reserved for a user. -/
def reservedToday (s : InviteDB) (env : RewardEnv) (userId : Int) : Int :=
  match s.reward.budget.pools.byKey (env.canonicalSiteID env.setting.siteID, "growth", env.budgetDate) with
  | none => 0
  | some pool => s.reward.budget.transactions.total
      (fun t => t.poolId = pool.id ∧ t.userId = userId ∧
        t.transactionType ∈ ["reserve", "consume_frozen"]) AgentBudgetTransaction.reservedDelta

/-- A transfer that the pool of the day covers reserves nothing. -/
theorem ensureUserReservedQuotaTx_covered {env : RewardEnv} {b : Budget}
    (hcovered : quota ≤ s.reservedToday env userId)
    (hr : ensureUserReservedQuotaTx env s.reward.budget userId "growth" quota key remark = .ok b) :
    Prepared (payoutAllowance env (env.canonicalSiteID env.setting.siteID) "growth")
      s.reward.budget b ∧ 0 < quota := by
  simp only [ensureUserReservedQuotaTx, currentAgentBudgetPoolMeta, ok_iff, not_or, not_le,
      lockAgentBudgetPoolTx_eq_ok] at hr
  obtain ⟨⟨-, hquota⟩, b₁, hopen, pool, hpool, hr⟩ := hr
  have htransactions := (ensureAgentBudgetPoolTx_prepared (A := Budget.Extends.anything) hopen trivial).2.2.2
  have htrim : trimSpace "growth" = "growth" := by decide +kernel
  -- the pool was there before, as something is reserved in it
  have hreserved : s.reservedToday env userId = b₁.transactions.total
      (fun t => t.poolId = pool.id ∧ t.userId = userId ∧
        t.transactionType ∈ ["reserve", "consume_frozen"]) AgentBudgetTransaction.reservedDelta := by
    unfold reservedToday at hcovered ⊢
    split at hcovered
    · omega
    · next pool₀ hpool₀ =>
      obtain ⟨pool', hpool', hid⟩ := (Budget.Extends.of_pool hopen).pools hpool₀
      rw [show trimSpace "growth" = "growth" by decide +kernel] at hpool
      obtain rfl : pool = pool' := mem_unique hpool hpool'
      rw [htransactions]
      simp [hid]
  rw [if_pos (by omega)] at hr
  cases hr
  exact ⟨prepared_of_pool hopen, hquota⟩

/-- A preparation keeps the books. -/
theorem Sound.prepared (h : s.Sound n i) (hi : 0 < i) (hn : 0 ≤ n) {env : RewardEnv}
    {b : Budget} (hb : Prepared (payoutAllowance env siteID poolType) s.reward.budget b) :
    ({ s with reward := { s.reward with budget := b } } : InviteDB).Sound n i := by
  obtain ⟨hdebits, hfrozen⟩ := hb.accounts hi
  refine ⟨hb.keysForeign h.keys fun k => foreignKey_of_payoutAllowance hn, ?_, hdebits.trans h.debits,
    hfrozen.trans h.frozen⟩
  exact (show RewardMoves _ False _ _ from .of_prepared hb).keeps
    (I := fun db => db.budget.FrozenJournaled) (fun _ _ h hmove => h.move hmove) h.journaled

/-- The daily reset does not use the key of a transfer. -/
theorem affTransferKey_not_adjust {env : RewardEnv} {affQuota : Int} :
    ¬ (payoutAllowance env siteID poolType).adjustKey (affTransferKey userId affQuota quota) := by
  rintro ⟨t, -, heq⟩
  rw [String.append_assoc] at heq
  obtain ⟨x, hx⟩ := ForeignKey.exists_resetKey env siteID env.budgetDate (":pool:" ++ t)
  have htext : affTransferKey userId affQuota quota = "invite-aff-transfer:" ++ (toString userId ++ (":"
      ++ (toString affQuota ++ (":" ++ toString quota)))) := by
    simp only [← String.append_assoc]
    rfl
  rw [hx, htext] at heq
  have hhead := congrArg (fun key : String => key.toList.head?) heq
  simp [String.toList_append] at hhead

/-- The transfer can pay from what the pool of the day holds reserved for the user, under a key of its
own. A transfer beyond the promised rewards fails anyway. -/
def TransferCovered (s : InviteDB) (env : InviteEnv) (userId quota : Int) : Prop :=
  match s.affs.byId userId with
  | none => True
  | some user => quota ≤ user.affQuota → quota ≤ s.reservedToday env.reward user.id ∧
      s.reward.budget.transactions.byKey (affTransferKey user.id user.affQuota quota) = none

instance (s : InviteDB) (env : InviteEnv) (userId quota : Int) :
    Decidable (s.TransferCovered env userId quota) :=
  show Decidable (match s.affs.byId userId with
    | none => True
    | some user => quota ≤ user.affQuota → quota ≤ s.reservedToday env.reward user.id ∧
        s.reward.budget.transactions.byKey (affTransferKey user.id user.affQuota quota) = none) from
  match s.affs.byId userId with
  | none => inferInstanceAs (Decidable True)
  | some _ => inferInstanceAs (Decidable (_ → _))

/-- **A covered transfer** thaws what it pays out and costs the fund nothing. -/
theorem Sound.transfer (h : s.Sound s.affs.nextId i) (hi : 0 < i)
    (hcovered : s.TransferCovered env userId quota)
    (hr : transferAffQuotaToQuota env userId quota s = .ok ((), s')) :
    s'.Sound s'.affs.nextId i := by
  simp only [transferAffQuotaToQuota, ok_iff, Prod.exists, not_not, Prod.mk.injEq, true_and, not_lt]
      at hr
  obtain ⟨-, user, hfirst, henough, b, hrepair, ⟨⟩, reward, hconsume, haffected, rfl⟩ := hr
  have huser : s.affs.byId userId = some user := by
    unfold firstUser at hfirst
    split at hfirst
    · cases hfirst
    · next x hx => rw [hx, pure_eq_ok.mp hfirst]
  obtain rfl : user.id = userId := (byId_eq_some.mp huser).2
  unfold TransferCovered at hcovered
  rw [huser] at hcovered
  obtain ⟨hcovered, hfresh⟩ := hcovered henough
  obtain ⟨hprepared, hquota⟩ := ensureUserReservedQuotaTx_covered hcovered hrepair
  have hn : 0 ≤ s.affs.nextId := (nextId_pos _).le
  have h₁ := h.prepared hi hn hprepared
  have houtcome : Outcome _ False _ _ _ _ _ _ _ _ _ _ := consumeReservedQuotaFromBudgetPoolTx_outcome hconsume
  rw [trimSpace_affTransferKey] at houtcome
  obtain ⟨taken, hbooks, htaken⟩ := houtcome.books hi hn h₁.keys h₁.journaled (.inr (.inr rfl))
  obtain rfl : taken = false := by
    by_contra ht
    obtain ⟨c, hc, r, hr⟩ := htaken (by simpa using ht)
    rw [(hprepared.trans hc).transactions_byKey affTransferKey_not_adjust, hfresh] at hr
    cases hr
  have hafter : (s.affs.updateWhere (fun a => a.id = user.id ∧ quota ≤ a.affQuota)
      (UserAff.takeQuota quota)).1.byId i
      = if i = user.id then some ((UserAff.takeQuota quota).apply user) else s.affs.byId i :=
    byId_update huser (by simp [henough]) fun a ha => (of_decide_eq_true ha).1
  have hthawed : frozenBy "consume_frozen" quota = -quota := rfl
  have hkey : ∀ t, ForeignKey s.affs.nextId (affTransferKey user.id user.affQuota quota ++ t) := by
    intro t
    have htext : affTransferKey user.id user.affQuota quota ++ t = "invite-aff-transfer:"
        ++ (toString user.id ++ (":" ++ (toString user.affQuota ++ (":" ++ (toString quota ++ t))))) := by
      simp only [← String.append_assoc]
      rfl
    rw [htext]
    exact .of_stem (by decide) (by decide) hn
  refine ⟨?_, hbooks.journaled, ?_, ?_⟩
  · rw [nextId_updateWhere]
    refine hbooks.keys _ le_rfl (forall_mem_cons.mpr ⟨?_, forall_mem_singleton.mpr (hkey _)⟩)
    simpa using hkey ""
  · have hdebits := h₁.debits
    rw [hbooks.debits, ite_self, Int.sub_zero, hdebits]
    simp only [promised, hafter]
    by_cases hiu : i = user.id
    · rw [if_pos hiu, hiu, huser]
      rfl
    · rw [if_neg hiu]
  · have hfrozen := h₁.frozen
    rw [hbooks.frozen, hfrozen, hthawed]
    simp only [unpaid, hafter, true_and]
    by_cases hiu : i = user.id
    · rw [hiu, huser]
      simp [UserAff.takeQuota, Int.sub_eq_add_neg]
    · rw [if_neg (Ne.symm hiu), if_neg hiu, Int.add_zero]

end Steps

/-- **Invitation rewards cost once**: the fund was debited what was promised, frozen is what was not paid
out, and the frozen columns of the pools hold nothing else. -/
structure CostsOnce (s : InviteDB) (i : Int) : Prop where
  debits : s.reward.budget.inviteDebits i = s.promised i
  frozen : s.reward.budget.frozenFor i = s.unpaid i
  column : ∀ p ∈ s.reward.budget.pools.rows, p.frozenQuota
    = s.reward.budget.transactions.total (fun t => t.poolId = p.id) AgentBudgetTransaction.frozenDelta

end InviteDB

/-! ## Runs -/

/-- A transfer is covered; a registration always is. -/
def InviteEvent.Covered (s : InviteDB) (e : InviteEvent) : Prop :=
  match e.op with
  | .register .. => True
  | .transfer userId quota => s.TransferCovered e.env userId quota

instance (s : InviteDB) (e : InviteEvent) : Decidable (e.Covered s) :=
  match e with
  | ⟨_, _, .register ..⟩ => inferInstanceAs (Decidable True)
  | ⟨env, _, .transfer userId quota⟩ => inferInstanceAs (Decidable (s.TransferCovered env userId quota))

/-- **Step lemma**: a covered event keeps the books of an inviter. -/
theorem InviteDB.Sound.step {s : InviteDB} {i : Int} (h : s.Sound s.affs.nextId i) (hi : 0 < i)
    {e : InviteEvent} (he : e.Covered s) : (s.step e).Sound (s.step e).affs.nextId i := by
  refine transaction_keeps (P := fun s' : InviteDB => s'.Sound s'.affs.nextId i) h fun _ s' hs' => ?_
  obtain ⟨env, fault, op⟩ := e
  cases op with
  | register user inviterId =>
    simp only [InviteOp.tx, insertTx, bind_eq_ok, Prod.exists] at hs'
    obtain ⟨userId, s₁, hcreate, hreg⟩ := hs'
    obtain ⟨h₁, hlt⟩ := h.createUser hcreate
    exact h₁.registration hi hlt hreg
  | transfer userId quota => exact h.transfer hi he hs'

/-- **Invitation rewards cost the fund exactly once.** Over every run of registrations and transfers, on
any dates and under any settings, where each transfer finds the quota reserved in the pool of its day and
its key unused: the fund is debited what was promised to the inviter, and no pool keeps frozen quota for
a reward that was paid out. -/
theorem invitation_costs_once {s : InviteDB} {i : Int} (hi : 0 < i) (h : s.Sound s.affs.nextId i)
    (events : List InviteEvent) (hcovered : Along InviteDB.step (fun s e => e.Covered s) s events) :
    (run InviteDB.step s events).CostsOnce i := by
  have hsound := run_keeps_along (I := fun s : InviteDB => s.Sound s.affs.nextId i)
    (fun _ _ hs he => hs.step hi he) h hcovered
  exact ⟨hsound.debits, hsound.frozen, hsound.journaled.column⟩

/-! ## A promise and its payout -/

/-- Rewards of `5` for a sign-up, `3` for an invitee and `10` for an inviter. -/
def plainInviteEnv (budgetDate : String) : InviteEnv where
  reward := plainRewardEnv budgetDate
  quotaForNewUser := 5
  quotaForInvitee := 3
  quotaForInviter := 10
  paymentComplianceConfirmed := true
  belowQuotaPerUnit quota := decide (quota < 1)
  quotaPerUnitText := "1"

/-- The inviter, before anybody was invited. -/
def plainInviteDB : InviteDB := ⟨fundedRewardDB, ⟨[{ id := 1 }], by decide, by decide, by decide⟩⟩

/-- A registration on the given date. -/
def plainRegistration (budgetDate : String) : InviteEvent :=
  ⟨plainInviteEnv budgetDate, none, .register { id := 0, quota := 0 } 1⟩

/-- The payout of its reward on the given date. -/
def plainTransfer (budgetDate : String) : InviteEvent :=
  ⟨plainInviteEnv budgetDate, none, .transfer 1 10⟩

theorem sound_plainInviteDB : plainInviteDB.Sound plainInviteDB.affs.nextId 1 := by
  have htransactions : plainInviteDB.reward.budget.transactions.rows = [] := by decide +kernel
  have hpools : plainInviteDB.reward.budget.pools.rows = [] := by decide +kernel
  have hledger : ∀ l ∈ plainInviteDB.reward.budget.ledger.rows, l.idempotencyKey = "raise" ++ "" := by
    decide +kernel
  refine ⟨⟨fun t ht => ?_, fun l hl => ?_⟩, ⟨fun t ht => ?_, fun p hp => ?_⟩, by decide +kernel,
    by decide +kernel⟩
  · exact absurd (htransactions ▸ ht) not_mem_nil
  · rw [hledger l hl]
    exact .of_stem (by decide) (by decide) (nextId_pos _).le
  · exact absurd (htransactions ▸ ht) not_mem_nil
  · exact absurd (hpools ▸ hp) not_mem_nil

theorem invitation_costs_once_same_day :
    (run InviteDB.step plainInviteDB
      [plainRegistration "2026-06-21", plainTransfer "2026-06-21"]).CostsOnce 1 :=
  invitation_costs_once (by decide) sound_plainInviteDB _ (by decide +kernel)

/-- Paid out on the next day, the reward costs the fund twice. -/
theorem invitation_costs_twice :
    ¬ ∀ (s : InviteDB) (i : Int) (events : List InviteEvent), 0 < i → s.Sound s.affs.nextId i →
      (run InviteDB.step s events).CostsOnce i := by
  intro h
  have hdebits := (h plainInviteDB 1 [plainRegistration "2026-06-21", plainTransfer "2026-06-22"]
    (by decide) sound_plainInviteDB).debits
  revert hdebits
  decide +kernel

end Prox
