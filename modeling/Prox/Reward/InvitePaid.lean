import Prox.Reward.Calls
import Prox.Reward.InvitationCost
import Prox.Reward.InviteEffect

/-! # Paid invitations

A claim is paid exactly when its user was credited, as long as every payment that comes to its grant can be
made. A grant that fails after it has entered its own claim leaves the entry behind, and the next attempt takes
the entry for a payment: the claim is marked as paid and nobody is credited. -/

namespace Prox

open List

attribute [local irreducible] trimSpace

/-! ## Keys -/

theorem RewardStage.text_inj {s t : RewardStage} (h : s.text = t.text) : s = t := by
  cases s <;> cases t <;> first | rfl | exact absurd h (by decide)

/-- The key of a reward tells the site, the edge, the stage and the user. -/
theorem inviteRewardKey_inj {s s' : String} {e e' u u' : Int} {t t' : RewardStage}
    (h : inviteRewardKey s e t u = inviteRewardKey s' e' t' u') : s = s' ∧ e = e' ∧ t = t' ∧ u = u' := by
  have hstage : ∀ t : RewardStage, ':' ∉ t.text.toList := by
    intro t
    cases t <;> decide
  obtain ⟨h, hu⟩ := append_colon_inj (colon_notMem_toString u) (colon_notMem_toString u') h
  obtain ⟨h, ht⟩ := append_colon_inj (hstage t) (hstage t') h
  obtain ⟨h, he⟩ := append_colon_inj (colon_notMem_toString e) (colon_notMem_toString e') h
  have hlist := congrArg String.toList h
  rw [String.toList_append, String.toList_append] at hlist
  exact ⟨String.toList_inj.mp (append_cancel_left hlist), toString_int_inj he, RewardStage.text_inj ht,
    toString_int_inj hu⟩

/-- The journal key is of the form that rewards of invitations have. -/
def IsInviteKey (key : String) : Prop := "invite:".toList <+: key.toList
  deriving Decidable

variable (s : String)

theorem isInviteKey_inviteRewardKey (e : Int) (t : RewardStage) (u : Int) :
    IsInviteKey (inviteRewardKey s e t u) := by
  unfold IsInviteKey inviteRewardKey
  simp only [String.append_assoc]
  rw [String.toList_append]
  exact prefix_append _ _

/-- A key with another beginning is no key of an invitation. -/
theorem not_isInviteKey_append {p s : String} (hp : ¬ p.toList <+: "invite:".toList)
    (hp' : ¬ "invite:".toList <+: p.toList) : ¬ IsInviteKey (p ++ s) := by
  intro h
  unfold IsInviteKey at h
  rw [String.toList_append] at h
  rcases prefix_or_prefix_of_prefix (prefix_append p.toList s.toList) h with hle | hle
  · exact hp hle
  · exact hp' hle

theorem inviteRewardKey_eq (e : Int) (t : RewardStage) (u : Int) :
    inviteRewardKey s e t u = "invite:" ++ (s ++ ":" ++ toString e ++ ":" ++ t.text ++ ":") ++ toString u := by
  simp [inviteRewardKey, String.append_assoc]

theorem trimSpace_inviteRewardKey (e : Int) (t : RewardStage) (u : Int) :
    trimSpace (inviteRewardKey s e t u) = inviteRewardKey s e t u ∧
      trimSpace ("user:" ++ inviteRewardKey s e t u) = "user:" ++ inviteRewardKey s e t u := by
  obtain ⟨htrim, hne⟩ := trimSpace_toString u
  have huser : "user:" ++ inviteRewardKey s e t u
      = "user:invite:" ++ (s ++ ":" ++ toString e ++ ":" ++ t.text ++ ":") ++ toString u := by
    rw [inviteRewardKey_eq, ← String.append_assoc, ← String.append_assoc]
    rfl
  constructor
  · rw [inviteRewardKey_eq]
    exact trimSpace_enclosed _ (by decide +kernel) htrim (by decide) hne
  · rw [huser]
    exact trimSpace_enclosed _ (by decide +kernel) htrim (by decide) hne

theorem inviteRewardKey_ne_empty (e : Int) (t : RewardStage) (u : Int) :
    inviteRewardKey s e t u ≠ "" := by
  intro h
  rw [inviteRewardKey_eq] at h
  exact (trimSpace_toString u).2 (String.append_eq_empty_iff.mp h).2

/-! ## Credited claims -/

/-- The journals have no entry under the key. -/
structure RewardDB.Untouched (db : RewardDB) (key : String) : Prop where
  budget : db.budget.transactions.byKey key = none
  fund : db.budget.ledger.byKey key = none
  wallet : db.wallet.transactions.byKey ("user:" ++ key) = none

variable {c x : InviteRewardClaim}

namespace InviteRewardClaim

/-- The key that the claim is paid under. -/
def key (c : InviteRewardClaim) : String := inviteRewardKey c.siteId c.inviteEdgeId c.rewardStage c.rewardUserId

/-- The user was credited the quota of the claim, and the fund debited by it: the journals, in which a key
occurs once, say so. -/
structure Credited (c : InviteRewardClaim) (db : RewardDB) : Prop where
  wallet : ∃ t, db.wallet.transactions.byKey ("user:" ++ c.key) = some t ∧ t.userId = c.rewardUserId ∧
    t.deltaQuota = c.quota
  fund : ∃ l, db.budget.ledger.byKey c.key = some l ∧ l.deltaQuota = -c.quota

/-- **Paid exactly when credited**; a claim that is not paid has left no trace. -/
structure Agrees (c : InviteRewardClaim) (db : RewardDB) : Prop where
  credited : c.status = .paid → c.Credited db
  untouched : c.status ≠ .paid → db.Untouched c.key

/-- The status says whether the user was credited. -/
theorem Agrees.paid_iff {db : RewardDB} (h : c.Agrees db) : c.status = .paid ↔ c.Credited db := by
  refine ⟨h.credited, fun hcredited => ?_⟩
  by_contra hne
  obtain ⟨t, ht, -⟩ := hcredited.wallet
  rw [(h.untouched hne).wallet] at ht
  cases ht

end InviteRewardClaim

/-! ## Payments -/

/-- Where the preparation of a grant fails, it has moved nothing. -/
def GrantClaim.Clean (env : RewardEnv) (g : GrantClaim) (db : RewardDB) : Prop :=
  (prepareGrantTx env g.poolType db.budget).toOption = none →
    (prepareGrantInPlace env g.poolType db.budget).2.pools.rows = db.budget.pools.rows ∧
    (prepareGrantInPlace env g.poolType db.budget).2.funds.rows = db.budget.funds.rows
  deriving Decidable

namespace InvitePayment

section Definitions

variable (env : ChatInviteEnv) (r : ChatInviteRequest) (p : InvitePayment) (db : ChatInviteDB)

/-- A payment that comes to its grant can be made: it pays the user and the quota of its claim, pool and fund
suffice, and the wallet takes the credit. -/
def Guarded : Prop :=
  p.Grants env r db →
    (∀ c ∈ db.claims.byKey (p.edgeID, p.stage), c.rewardUserId = p.rewardUserID ∧ c.quota = p.quota) ∧
      (p.grant env).Funded env.reward db.reward ∧ (p.grant env).Clean env.reward db.reward ∧
      (p.grant env).Creditable db.reward
  deriving Decidable

/-- The claim is open, the user may have the benefit, and pool and fund suffice. -/
def Ready : Prop :=
  p.Grants env r db ∧ (prepareGrantTx env.reward p.pool db.reward.budget).toOption ≠ none ∧
    (p.grant env).Funded env.reward db.reward ∧ (p.grant env).Creditable db.reward

/-- What a payment owes: a user who is credited for a claim that is marked, or balances as they were. -/
structure Honours (out : InviteClaimOut) (db' : ChatInviteDB) : Prop where
  /-- The user gets the quota, a fund of the site loses it, and the claim was not paid before. -/
  paid : out.status = .claim .paid →
    (∃ u, db.reward.wallet.users.byId p.rewardUserID = some u) ∧
    db'.reward.wallet.users = (db.reward.wallet.addQuota p.rewardUserID p.quota).users ∧
    (∃ b fund, Prepared (grantAllowance env.reward p.pool) db.reward.budget b ∧ fund ∈ b.funds.rows ∧
      db'.reward.budget.funds = (b.setFund fund.id (fund.balanceQuota - p.quota)).funds) ∧
    (∃ c, db'.claims.byKey (p.edgeID, p.stage) = some c ∧ c.status = .paid ∧
      c.rewardUserId = p.rewardUserID ∧ c.quota = p.quota) ∧
    ∀ c ∈ db.claims.byKey (p.edgeID, p.stage), c.status ≠ .paid
  /-- Otherwise no balance changes. -/
  unpaid : out.status ≠ .claim .paid → db'.reward.wallet = db.reward.wallet ∧
    db'.reward.budget.pools.rows = db.reward.budget.pools.rows ∧
    db'.reward.budget.funds.rows = db.reward.budget.funds.rows
  /-- Whatever failed before, the claim is paid once pool and fund suffice. -/
  ready : p.Ready env r db → out.status = .claim .paid

/-- A payment that is made honours the claim. -/
def Honoured : Prop := ∀ out db', p.payInviteRewardClaimTx env r db = .ok (out, db') → p.Honours env r db out db'

end Definitions

variable {env : ChatInviteEnv} {r : ChatInviteRequest} {p : InvitePayment} {db db' : ChatInviteDB}
  {claims : Table InviteRewardClaim}

variable (h : p.Enters env db claims c)

include h

/-- The claims after a payment: its own, and those of other edges and stages. -/
theorem Enters.mem_iff :
    x ∈ claims.rows ↔ x = c ∨ x ∈ db.claims.rows ∧ (x.inviteEdgeId, x.rewardStage) ≠ (p.edgeID, p.stage) := by
  have hrows : ∀ t : Table InviteRewardClaim, x ∈ t.rows ↔ t.byKey (x.inviteEdgeId, x.rewardStage) = some x :=
    fun t => ⟨fun hx => Table.byKey_eq_some.mpr ⟨hx, rfl⟩, fun hx => (Table.byKey_eq_some.mp hx).1⟩
  rw [hrows, hrows, h.byKey]
  by_cases hk : (p.edgeID, p.stage) = (x.inviteEdgeId, x.rewardStage)
  · rw [if_pos hk]
    simp [hk, eq_comm]
  · rw [if_neg hk]
    constructor
    · exact fun hx => .inr ⟨hx, fun heq => hk heq.symm⟩
    · rintro (rfl | ⟨hx, -⟩)
      · exact absurd h.mem.2.symm hk
      · exact hx

/-- The claim of a payment was not paid. -/
theorem Enters.key_ne (hx : x ∈ db.claims.rows)
    (hpaid : x.status = .paid) : (x.inviteEdgeId, x.rewardStage) ≠ (p.edgeID, p.stage) := by
  intro hkey
  obtain ⟨-, hne, -, -⟩ := h.kept x (Table.byKey_eq_some.mpr ⟨hx, hkey⟩)
  exact hne hpaid

/-- A payment that does not mark its claim leaves the paid claims as they are. -/
theorem Enters.paid_iff (hc : c.status ≠ .paid)
    (hpaid : x.status = .paid) : x ∈ claims.rows ↔ x ∈ db.claims.rows := by
  rw [h.mem_iff]
  constructor
  · rintro (rfl | ⟨hx, -⟩)
    · exact absurd hpaid hc
    · exact hx
  · exact fun hx => .inr ⟨hx, h.key_ne hx hpaid⟩

/-- The claim of a payment of the same user and quota has the terms of the payment. -/
theorem Enters.terms_eq
    (hmatch : ∀ c ∈ db.claims.byKey (p.edgeID, p.stage), c.rewardUserId = p.rewardUserID ∧ c.quota = p.quota) :
    c.key = (p.grant env).idempotencyKey ∧ c.rewardUserId = p.rewardUserID ∧ c.quota = p.quota := by
  obtain ⟨hsite, huser, hquota⟩ : c.siteId = env.site ∧ c.rewardUserId = p.rewardUserID ∧ c.quota = p.quota := by
    cases hfound : db.claims.byKey (p.edgeID, p.stage) with
    | none =>
      have hterms := h.made hfound
      simp only [InviteRewardClaim.terms, Prod.mk.injEq] at hterms
      exact ⟨hterms.1, hterms.2.1, hterms.2.2.1⟩
    | some c₀ =>
      obtain ⟨hsite, -, -, hterms⟩ := h.kept c₀ hfound
      obtain ⟨huser, hquota⟩ := hmatch c₀ hfound
      simp only [InviteRewardClaim.terms, Prod.mk.injEq] at hterms
      exact ⟨hterms.1.trans hsite, hterms.2.1.trans huser, hterms.2.2.1.trans hquota⟩
  obtain ⟨hedge, hstage⟩ := Prod.mk.inj h.mem.2
  refine ⟨?_, huser, hquota⟩
  simp only [InviteRewardClaim.key, hsite, hedge, hstage, huser]
  rfl

end InvitePayment

/-! ## The books of a run -/

/-- Paid claims are credited, and a key under which no claim is paid occurs in no journal. -/
structure ChatInviteDB.Booked (db : ChatInviteDB) : Prop where
  credited : ∀ c ∈ db.claims.rows, c.status = .paid → c.Credited db.reward
  free : ∀ key, IsInviteKey key → (∀ c ∈ db.claims.rows, c.status = .paid → c.key ≠ key) → db.reward.Untouched key

section Booked

variable {env : ChatInviteEnv} {r : ChatInviteRequest} {p : InvitePayment} {db db' : ChatInviteDB}

/-- Claims of one edge and stage are the same claim, and so keys tell claims apart. -/
theorem InviteRewardClaim.eq_of_key {t : Table InviteRewardClaim} {c' : InviteRewardClaim}
    (hc : c ∈ t.rows) (hc' : c' ∈ t.rows) (h : c.key = c'.key) : c = c' := by
  obtain ⟨-, hedge, hstage, -⟩ := inviteRewardKey_inj h
  exact Table.eq_of_key_eq hc hc' (Prod.ext hedge hstage)

/-- Every claim is paid exactly when it was credited. -/
theorem ChatInviteDB.Booked.agrees (h : db.Booked) (hc : c ∈ db.claims.rows) :
    c.Agrees db.reward where
  credited := h.credited c hc
  untouched hne := by
    refine h.free c.key (isInviteKey_inviteRewardKey _ _ _ _) fun c' hc' hpaid heq => ?_
    obtain rfl := InviteRewardClaim.eq_of_key hc' hc heq
    exact hne hpaid

/-- The journals are entered under other keys only. -/
def Allowance.SparesInvites (A : Allowance) : Prop := ∀ key, IsInviteKey key → ¬ A.adjustKey key ∧ ¬ A.raiseKey key

/-- The books agree as long as the paid claims stay and preparations spare their keys. -/
theorem ChatInviteDB.Booked.prepared {A : Allowance} (h : db.Booked)
    (hclaims : ∀ x : InviteRewardClaim, x.status = .paid → (x ∈ db'.claims.rows ↔ x ∈ db.claims.rows))
    (hwallet : db'.reward.wallet = db.reward.wallet) (hbudget : Prepared A db.reward.budget db'.reward.budget)
    (hA : A.SparesInvites) : db'.Booked where
  credited c hc hpaid := by
    obtain ⟨hw, hf⟩ := h.credited c ((hclaims c hpaid).mp hc) hpaid
    obtain ⟨-, hraise⟩ := hA c.key (isInviteKey_inviteRewardKey _ _ _ _)
    exact ⟨hwallet ▸ hw, by rwa [hbudget.ledger_byKey hraise]⟩
  free key hkey hnone := by
    obtain ⟨hadjust, hraise⟩ := hA key hkey
    obtain ⟨hb, hf, hw⟩ := h.free key hkey fun c hc hpaid => hnone c ((hclaims c hpaid).mpr hc) hpaid
    exact ⟨(hbudget.transactions_byKey hadjust).trans hb, (hbudget.ledger_byKey hraise).trans hf, hwallet ▸ hw⟩

/-- The daily reset has keys of its own. -/
theorem grantAllowance_spares (env : RewardEnv) (poolType : String) :
    (grantAllowance env poolType).SparesInvites := by
  have hreset : ∀ site suffix : String, ¬ IsInviteKey
      (trimSpace (trimSpace (agentDailyBudgetResetRequestID env site env.budgetDate) ++ suffix)) := by
    intro site suffix
    obtain ⟨s, hs⟩ := ForeignKey.exists_resetKey env site env.budgetDate suffix
    rw [hs]
    exact not_isInviteKey_append (by decide) (by decide)
  intro key hkey
  constructor
  · rintro ⟨poolType', -, rfl⟩
    rw [String.append_assoc] at hkey
    exact hreset _ _ hkey
  · intro heq
    exact hreset _ _ (heq ▸ hkey)

/-- A grant for an open claim finds no trace of an earlier one. -/
theorem ChatInviteDB.Booked.fresh (h : db.Booked) (hg : p.Grants env r db) :
    (p.grant env).Fresh env.reward db.reward := by
  obtain ⟨huser, hquota, -, hopen⟩ := hg
  have hkey : IsInviteKey (p.grant env).idempotencyKey := isInviteKey_inviteRewardKey _ _ _ _
  obtain ⟨htrim, htrimUser⟩ := trimSpace_inviteRewardKey env.site p.edgeID p.stage p.rewardUserID
  obtain ⟨hadjust, hraise⟩ := grantAllowance_spares env.reward p.pool _ hkey
  obtain ⟨hbudget, hfund, hwallet⟩ : db.reward.Untouched (p.grant env).idempotencyKey := by
    refine h.free _ hkey fun c hc hpaid heq => ?_
    obtain ⟨-, hedge, hstage, -⟩ := inviteRewardKey_inj heq
    rw [Table.byKey_eq_some.mpr ⟨hc, Prod.ext hedge hstage⟩] at hopen
    exact hopen.2.1 hpaid
  exact ⟨huser, hquota, htrim, inviteRewardKey_ne_empty _ _ _ _, hbudget, hfund,
    (congrArg db.reward.wallet.transactions.byKey htrimUser).trans hwallet, hadjust, hraise⟩

/-- What a funded grant for an open claim has done: it failed in its preparation and moved nothing, or it paid. -/
theorem ChatInviteDB.Booked.result (h : db.Booked) (hguard : p.Guarded env r db) (hg : p.Grants env r db) :
    GrantClaim.Result env.reward (p.grant env) db.reward (grantInPlace env.reward (p.grant env) db.reward) := by
  obtain ⟨-, hfunded, -, hcredit⟩ := hguard hg
  exact grantInPlace_result (h.fresh hg) hfunded hcredit

theorem RewardDB.paid_journals {reward reward' : RewardDB} {g : GrantClaim} {env : RewardEnv}
    (hresult : GrantClaim.Result env g reward (.ok (), reward')) :
    (∃ t, t.userId = g.userId ∧ t.deltaQuota = g.quota ∧ ∀ k, reward'.wallet.transactions.byKey k
      = if trimSpace ("user:" ++ g.idempotencyKey) = k then some t else reward.wallet.transactions.byKey k) ∧
    (∃ l, l.deltaQuota = -g.quota ∧ ∀ k, ¬ (grantAllowance env g.poolType).raiseKey k →
      reward'.budget.ledger.byKey k = if g.idempotencyKey = k then some l else reward.budget.ledger.byKey k) ∧
    ∀ k, ¬ (grantAllowance env g.poolType).adjustKey k → g.idempotencyKey ≠ k →
      reward'.budget.transactions.byKey k = reward.budget.transactions.byKey k := by
  cases hresult with
  | @paid pool fund b w transactions ledger hprepare hprepared hclaim hwallet hledger =>
    refine ⟨?_, ⟨g.fundEntry env (env.canonicalSiteID env.setting.siteID) fund b.ledger.nextId, rfl,
      fun k hk => ?_⟩, fun k hk hne => ?_⟩
    · -- the wallet has posted, for its key was new
      rcases applyUserQuotaMutationTx_cases hwallet with ⟨habsurd, -⟩ | ⟨-, -, t, hpost, -, hkey, huser, hdelta⟩
      · cases habsurd
      · refine ⟨t, huser, hdelta, fun k => ?_⟩
        have hrow : Row.key t = trimSpace ("user:" ++ g.idempotencyKey) := hkey
        exact hrow ▸ Table.byKey_of_create hpost.journal k
    · rw [← hprepared.ledger_byKey hk]
      exact Table.byKey_of_create hledger k
    · rw [← hprepared.transactions_byKey hk]
      exact (Table.byKey_of_create hclaim k).trans (if_neg hne)

/-- **A payment keeps the books.** -/
theorem ChatInviteDB.Booked.pay {out : InviteClaimOut} (h : db.Booked) (hguard : p.Guarded env r db)
    (hpay : p.payInviteRewardClaimTx env r db = .ok (out, db')) : db'.Booked := by
  have hspares := grantAllowance_spares env.reward p.pool
  cases InvitePayment.payInviteRewardClaimTx_effect hpay with
  | idle => exact h
  | refused _ _ hc henters =>
    exact h.prepared (fun x hx => henters.paid_iff hc hx) rfl (.refl _) hspares
  | @failed e reward claims c _ hgrants hgrant hc henters =>
    have hresult := h.result hguard hgrants
    rw [hgrant] at hresult
    cases hresult with
    | failed hfails hprepared => exact h.prepared (fun x hx => henters.paid_iff hc hx) rfl hprepared hspares
  | @paid reward claims c _ hgrants hgrant hc hnow henters =>
    have hresult := h.result hguard hgrants
    rw [hgrant] at hresult
    obtain ⟨⟨t, htuser, htdelta, hwallet⟩, ⟨l, hldelta, hledger⟩, hbudget⟩ :=
      RewardDB.paid_journals hresult
    obtain ⟨hkey, huser, hquota⟩ := henters.terms_eq (hguard hgrants).1
    have htrim : trimSpace ("user:" ++ (p.grant env).idempotencyKey) = "user:" ++ c.key := by
      rw [hkey]
      exact (trimSpace_inviteRewardKey _ _ _ _).2
    have hraise : ∀ k, IsInviteKey k → ¬ (grantAllowance env.reward (p.grant env).poolType).raiseKey k :=
      fun k hk => (hspares k hk).2
    constructor
    · intro x hx hpaid
      have hxkey : IsInviteKey x.key := isInviteKey_inviteRewardKey _ _ _ _
      rcases henters.mem_iff.mp hx with rfl | ⟨hx, hrow⟩
      · refine ⟨⟨t, ?_, htuser.trans huser.symm, htdelta.trans hquota.symm⟩, ⟨l, ?_, ?_⟩⟩
        · rw [hwallet, htrim, if_pos rfl]
        · rw [hledger _ (hraise _ hxkey), hkey, if_pos rfl]
        · rw [hldelta, hquota]
          rfl
      · -- another claim was paid under another key
        obtain ⟨hw, hf⟩ := h.credited x hx hpaid
        have hne : c.key ≠ x.key := by
          intro heq
          obtain ⟨-, hedge, hstage, -⟩ := inviteRewardKey_inj heq
          exact hrow ((Prod.ext hedge.symm hstage.symm).trans henters.mem.2)
        constructor
        · rw [hwallet, htrim, if_neg fun heq => hne ?_]
          · exact hw
          · have hlist := congrArg String.toList heq
            rw [String.toList_append, String.toList_append] at hlist
            exact String.toList_inj.mp (append_cancel_left hlist)
        · rw [hledger _ (hraise _ hxkey), ← hkey, if_neg hne]
          exact hf
    · intro key hinvite hnone
      have hne : c.key ≠ key := hnone c henters.mem.1 hc
      obtain ⟨hb, hf, hw⟩ := h.free key hinvite fun x hx hpaid =>
        hnone x (henters.mem_iff.mpr (.inr ⟨hx, henters.key_ne hx hpaid⟩)) hpaid
      refine ⟨?_, ?_, ?_⟩
      · rw [hbudget key (hspares key hinvite).1 (hkey ▸ hne)]
        exact hb
      · rw [hledger key (hraise key hinvite), ← hkey, if_neg hne]
        exact hf
      · rw [hwallet, htrim, if_neg fun heq => hne ?_]
        · exact hw
        · have hlist := congrArg String.toList heq
          rw [String.toList_append, String.toList_append] at hlist
          exact String.toList_inj.mp (append_cancel_left hlist)

/-- The fund that a grant locks is a fund of the prepared budget. -/
theorem prepareGrantTx_fund {reward : RewardEnv} {poolType : String} {b b' : Budget} {pool : AgentBudgetPool}
    {fund : OpsFundAccount} (h : prepareGrantTx reward poolType b = .ok ((pool, fund), b')) :
    fund ∈ b'.funds.rows := by
  unfold prepareGrantTx at h
  dsimp only [currentAgentBudgetPoolMeta] at h
  obtain ⟨b₁, -, h⟩ := bind_eq_ok.mp h
  obtain ⟨b₂, -, h⟩ := bind_eq_ok.mp h
  obtain ⟨pool', -, h⟩ := bind_eq_ok.mp h
  obtain ⟨⟨fund', b₃⟩, hfund, h⟩ := bind_eq_ok.mp h
  cases h
  exact (ensureOpsFundAccountTx_prepared (A := grantAllowance reward poolType) hfund).2.1

/-- **A payment under these books honours its claim.** -/
theorem ChatInviteDB.Booked.honoured (h : db.Booked) (hguard : p.Guarded env r db) : p.Honoured env r db := by
  intro out db' hpay
  cases InvitePayment.payInviteRewardClaimTx_effect hpay with
  | idle hstatus hgrants =>
    exact ⟨fun hpaid => absurd hpaid hstatus, fun _ => ⟨rfl, rfl, rfl⟩, fun hready => absurd hready.1 hgrants⟩
  | refused hstatus hgrants =>
    exact ⟨fun hpaid => absurd hpaid hstatus, fun _ => ⟨rfl, rfl, rfl⟩, fun hready => absurd hready.1 hgrants⟩
  | @failed e reward claims c hstatus hgrants hgrant hc henters =>
    obtain ⟨-, -, hclean, -⟩ := hguard hgrants
    have hresult := h.result hguard hgrants
    rw [hgrant] at hresult
    cases hresult with
    | failed hfails hprepared =>
      have hnone : (prepareGrantTx env.reward p.pool db.reward.budget).toOption = none := by
        rw [show prepareGrantTx env.reward p.pool db.reward.budget = _ from hfails]
        rfl
      obtain ⟨hpools, hfunds⟩ := hclean hnone
      exact ⟨fun hpaid => absurd hpaid hstatus, fun _ => ⟨rfl, hpools, hfunds⟩,
        fun hready => absurd hnone hready.2.1⟩
  | @paid reward claims c hstatus hgrants hgrant hc hnow henters =>
    have hresult := h.result hguard hgrants
    rw [hgrant] at hresult
    obtain ⟨-, huser, hquota⟩ := henters.terms_eq (hguard hgrants).1
    have hfound : claims.byKey (p.edgeID, p.stage) = some c := by
      rw [henters.byKey, if_pos rfl]
    refine ⟨fun _ => ?_, fun hne => absurd hstatus hne, fun _ => hstatus⟩
    cases hresult with
    | @paid pool fund b w transactions ledger hprepare hprepared hclaim hwallet hledger =>
      rcases applyUserQuotaMutationTx_cases hwallet with ⟨habsurd, -⟩ | ⟨-, -, t, hpost, -, -, htuser, htdelta⟩
      · cases habsurd
      obtain ⟨u, hu, -⟩ := hpost.user
      have husers := hpost.users
      rw [htuser] at hu
      rw [htuser, htdelta] at husers
      exact ⟨⟨u, hu⟩, husers, ⟨b, fund, hprepared, prepareGrantTx_fund hprepare, rfl⟩,
        ⟨c, hfound, hc, huser, hquota⟩, fun c₀ hc₀ => (henters.kept c₀ hc₀).2.1⟩

end Booked

/-! ## Runs -/

/-- The keys under which money is moved. -/
def MoneyOp.keys : MoneyOp → List String
  | .fund _ _ idempotencyKey _ _ => [trimSpace idempotencyKey]
  | .pool _ _ _ _ idempotencyKey _ _ _ => [trimSpace idempotencyKey]
  | .reset _ _ requestID _ => trimSpace (trimSpace requestID ++ ":fund") ::
      agentDailyBudgetPoolTypes.map fun poolType => trimSpace (trimSpace requestID ++ ":pool:" ++ poolType)

/-- Money is moved under other keys than those of the invitations. -/
def ChatInviteEvent.Apart : ChatInviteEvent → Prop
  | .join _ _ _ => True
  | .verify _ _ _ => True
  | .money _ _ op => ∀ key ∈ op.keys, ¬ IsInviteKey key

instance : ∀ e : ChatInviteEvent, Decidable e.Apart
  | .join _ _ _ => inferInstanceAs (Decidable True)
  | .verify _ _ _ => inferInstanceAs (Decidable True)
  | .money _ _ op => inferInstanceAs (Decidable (∀ key ∈ op.keys, ¬ IsInviteKey key))

/-- What a movement of money may do. -/
def MoneyOp.allowance (op : MoneyOp) : Allowance := ⟨fun _ _ => True, (· ∈ op.keys), (· ∈ op.keys)⟩

theorem MoneyOp.tx_prepared {env : RewardEnv} {op : MoneyOp} {b b' : Budget} (h : op.tx env b = .ok ((), b')) :
    Prepared op.allowance b b' := by
  cases op with
  | fund siteID minimumBalance idempotencyKey remark sourceType =>
    obtain ⟨⟨fund, b₁⟩, hraise, h⟩ := bind_eq_ok.mp h
    cases h
    exact (ensureOpsFundMinimumWithSourceTx_prepared hraise mem_cons_self).1
  | pool siteID poolType budgetDate targetAvailable idempotencyKey remark sourceType exact =>
    obtain ⟨⟨pool, b₁⟩, hadjust, h⟩ := bind_eq_ok.mp h
    cases h
    exact (adjustBudgetPoolAvailableCapacityTx_prepared hadjust (fun _ => trivial) mem_cons_self).1
  | reset siteID budgetDate requestID remark =>
    obtain ⟨b₁, hreset, h⟩ := bind_eq_ok.mp h
    cases h
    refine (ensureOpsDailyBudgetCapacityForDateTx_prepared hreset).mono (fun _ _ _ => trivial) ?_ ?_
    · rintro key ⟨poolType, hmem, rfl⟩
      exact mem_cons_of_mem _ (mem_map.mpr ⟨poolType, hmem, rfl⟩)
    · rintro key rfl
      exact mem_cons_self

namespace ChatInviteDB

/-- No claim was made yet, and no journal has an entry of one. -/
structure Start (db : ChatInviteDB) : Prop where
  claims : db.claims.rows = []
  budget : ∀ t ∈ db.reward.budget.transactions.rows, ¬ IsInviteKey t.idempotencyKey
  fund : ∀ l ∈ db.reward.budget.ledger.rows, ¬ IsInviteKey l.idempotencyKey
  wallet : ∀ t ∈ db.reward.wallet.transactions.rows, ¬ "user:invite:".toList <+: t.idempotencyKey.toList

/-- The event makes no payment that goes wrong. -/
def Guarded (db : ChatInviteDB) (e : ChatInviteEvent) : Prop :=
  db.EachPaid (fun env r p db => p.Guarded env r db) e ∧ e.Apart

instance (db : ChatInviteDB) (e : ChatInviteEvent) : Decidable (db.Guarded e) :=
  inferInstanceAs (Decidable (_ ∧ _))

variable {db : ChatInviteDB} {events : List ChatInviteEvent}

theorem Start.booked (h : db.Start) : db.Booked where
  credited c hc := by
    rw [h.claims] at hc
    cases hc
  free key hkey _ := by
    refine ⟨?_, ?_, ?_⟩
    · refine Table.byKey_eq_none.mpr fun t ht heq => h.budget t ht ?_
      have htext : t.idempotencyKey = key := heq
      exact htext ▸ hkey
    · refine Table.byKey_eq_none.mpr fun l hl heq => h.fund l hl ?_
      have htext : l.idempotencyKey = key := heq
      exact htext ▸ hkey
    · refine Table.byKey_eq_none.mpr fun t ht heq => h.wallet t ht ?_
      have htext : t.idempotencyKey = "user:" ++ key := heq
      have hlist : "user:invite:".toList = "user:".toList ++ "invite:".toList := rfl
      rw [htext, String.toList_append, hlist]
      exact (prefix_append_right_inj _).mpr hkey

/-- An event without a payment that goes wrong keeps the books. -/
theorem Booked.step (h : db.Booked) {e : ChatInviteEvent} (hguard : db.Guarded e) : (db.step e).Booked := by
  have hspare : (⟨fun _ _ => True, fun _ => False, fun _ => False⟩ : Allowance).SparesInvites :=
    fun _ _ => ⟨id, id⟩
  have hfiles : ∀ db', db.Files db' → db'.Booked := fun db' hf =>
    h.prepared (fun x _ => by rw [hf.claims]) (by rw [hf.reward]) (hf.reward ▸ .refl _) hspare
  refine db.step_keeps e hfiles (fun env r p db out db' hb hp => hb.pay hp) (fun env fault op he b hb => ?_) hguard.1
  subst he
  refine h.prepared (A := op.allowance) (fun _ _ => Iff.rfl) rfl (MoneyOp.tx_prepared hb) fun key hkey => ?_
  exact ⟨fun hmem => hguard.2 key hmem hkey, fun hmem => hguard.2 key hmem hkey⟩

/-- Its payments honour their claims. -/
theorem Booked.honours (h : db.Booked) {e : ChatInviteEvent} (hguard : db.Guarded e) :
    db.EachPaid (fun env r p db => p.Honoured env r db) e := by
  have hspare : (⟨fun _ _ => True, fun _ => False, fun _ => False⟩ : Allowance).SparesInvites :=
    fun _ _ => ⟨id, id⟩
  refine EachPaid.of_keeps (I := Booked) (fun db' hf => ?_) (fun env r p db out db' hb hp => hb.pay hp)
    (fun env r p db hb hp => hb.honoured hp) hguard.1
  exact h.prepared (fun x _ => by rw [hf.claims]) (by rw [hf.reward]) (hf.reward ▸ .refl _) hspare

end ChatInviteDB

/-- **A claim is paid exactly when its user was credited**, in every run whose payments can be made; then every
payment moves the quota of its claim or nothing, and an open claim is paid as soon as pool and fund suffice. -/
theorem invite_paid_iff_credited {db : ChatInviteDB} {events : List ChatInviteEvent} (hstart : db.Start)
    (hguard : Along ChatInviteDB.step ChatInviteDB.Guarded db events) :
    (∀ c ∈ (run ChatInviteDB.step db events).claims.rows,
      (c.status = .paid ↔ c.Credited (run ChatInviteDB.step db events).reward) ∧
      (c.status ≠ .paid → (run ChatInviteDB.step db events).reward.Untouched c.key)) ∧
    Along ChatInviteDB.step (fun db e => db.EachPaid (fun env r p db => p.Honoured env r db) e) db events := by
  have hbooked := run_keeps_along (fun _ _ h hg => h.step hg) hstart.booked hguard
  refine ⟨fun c hc => ?_,
    along_of_keeps (fun _ _ h hg => h.step hg) (fun _ _ h hg => h.honours hg) hstart.booked hguard⟩
  have hagrees := hbooked.agrees hc
  exact ⟨hagrees.paid_iff, hagrees.untouched⟩

/-! ## A retried claim -/

/-- A site that rewards the inviter out of the growth pool, without a daily limit. -/
def sampleInviteEnv : ChatInviteEnv where
  reward := plainRewardEnv "2026-06-21"
  now := 1782000000
  bound _ := none
  legacyInviter _ := none
  denied _ _ _ := none
  policy := .ok { inviterQuota := 10, inviteeQuota := 0, budgetPool := "growth", maxPerUserDay := 0 }
  metadataJson _ _ _ _ := ""

/-- User `2` was invited by user `1`. -/
def sampleVerify : ChatInviteRequest :=
  { source := "qq", campaignCode := "room", inviterUserID := 1, inviteeUserID := 2, inviteeExternalID := "guest" }

/-- No one was invited yet. -/
def sampleInviteDB (reward : RewardDB) : ChatInviteDB := ⟨reward, .empty, .empty, .empty, .empty⟩

/-- The fund is raised to `100`. -/
def sampleRaise : ChatInviteEvent :=
  .money (plainRewardEnv "2026-06-21") none (.fund "site" 100 "raise" "" "admin_budget_restore")

theorem sampleInviteDB_start : (sampleInviteDB plainRewardDB).Start := by
  constructor <;> decide +kernel

/-- With money in the fund, the claim is paid and its user credited. -/
theorem invite_paid_iff_credited_sample :
    (∀ c ∈ (run ChatInviteDB.step (sampleInviteDB plainRewardDB)
        [sampleRaise, .join sampleInviteEnv none sampleVerify, .verify sampleInviteEnv none sampleVerify,
          .verify sampleInviteEnv none sampleVerify]).claims.rows,
      (c.status = .paid ↔ c.Credited (run ChatInviteDB.step (sampleInviteDB plainRewardDB)
        [sampleRaise, .join sampleInviteEnv none sampleVerify, .verify sampleInviteEnv none sampleVerify,
          .verify sampleInviteEnv none sampleVerify]).reward) ∧
      (c.status ≠ .paid → (run ChatInviteDB.step (sampleInviteDB plainRewardDB)
        [sampleRaise, .join sampleInviteEnv none sampleVerify, .verify sampleInviteEnv none sampleVerify,
          .verify sampleInviteEnv none sampleVerify]).reward.Untouched c.key)) ∧
    Along ChatInviteDB.step (fun db e => db.EachPaid (fun env r p db => p.Honoured env r db) e)
      (sampleInviteDB plainRewardDB)
      [sampleRaise, .join sampleInviteEnv none sampleVerify, .verify sampleInviteEnv none sampleVerify,
        .verify sampleInviteEnv none sampleVerify] :=
  invite_paid_iff_credited sampleInviteDB_start (by decide +kernel)

/-- **A retry pays nobody.** The fund is empty when the claim is made and filled before it is retried: the
claim becomes paid, but the journal of the users has no entry and the balance stays. -/
theorem invite_retry_credits_nobody :
    ¬ ∀ (db : ChatInviteDB) (events : List ChatInviteEvent), db.Start →
      ∀ c ∈ (run ChatInviteDB.step db events).claims.rows, c.status = .paid →
        c.Credited (run ChatInviteDB.step db events).reward := by
  intro h
  obtain ⟨c, hc, hpaid, hnone⟩ : ∃ c ∈ (run ChatInviteDB.step (sampleInviteDB plainRewardDB)
      [.verify sampleInviteEnv none sampleVerify, sampleRaise,
        .verify sampleInviteEnv none sampleVerify]).claims.rows, c.status = .paid ∧
      (run ChatInviteDB.step (sampleInviteDB plainRewardDB)
        [.verify sampleInviteEnv none sampleVerify, sampleRaise,
          .verify sampleInviteEnv none sampleVerify]).reward.wallet.transactions.byKey ("user:" ++ c.key)
        = none := by decide +kernel
  obtain ⟨t, ht, -⟩ := (h _ _ sampleInviteDB_start c hc hpaid).wallet
  rw [hnone] at ht
  cases ht

end Prox
