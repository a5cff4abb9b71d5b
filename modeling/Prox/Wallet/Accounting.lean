import Prox.Wallet.Calls

/-! # The three-way balance of the wallet

Users, reservations and journal stay in balance over every run: a balance is the initial balance plus
the user's journal entries, the entries of a reservation add up to minus its charge, and no balance
is ever negative. `Balanced` collects these laws with the reference facts that carry them through the
induction, `Effect.balanced` is the step lemma. -/

namespace Prox

open List Option Table

/-- The sum of the journal entries of a user. -/
def Wallet.journalOf (w : Wallet) (i : Int) : Int :=
  w.transactions.total (fun t => t.userId = i) UserQuotaTransaction.deltaQuota

/-- The sum of the journal entries that refer to a reservation. -/
def Wallet.journalFor (w : Wallet) (id : Int) : Int :=
  w.transactions.total (fun t => t.reservationId = id) UserQuotaTransaction.deltaQuota

/-- The balance of a user, if there is one. -/
def Wallet.balance (w : Wallet) (i : Int) : Option Int := (w.users.byId i).map User.quota

/-- The invariant of the ledger, relative to the wallet `w₀` a run started from. -/
structure Balanced (w₀ w : Wallet) : Prop where
  /-- Balances are recoverable from the journal. -/
  balance : ∀ i, w.balance i = (w₀.balance i).map (· + w.journalOf i)
  /-- No balance is overdrawn. -/
  covered : ∀ u ∈ w.users.rows, 0 ≤ u.quota
  /-- The entries of a reservation add up to minus its charge. -/
  ledger : ∀ r ∈ w.reservations.rows, w.journalFor r.id = -r.charge
  /-- A journal entry refers to no reservation or to a stored one. -/
  referenced : ∀ t ∈ w.transactions.rows, t.reservationId ≠ 0 →
    ∃ r ∈ w.reservations.rows, t.IsFor r
  /-- Stored reservations are well formed and belong to a stored user. -/
  wellFormed : ∀ r ∈ w.reservations.rows, r.WellFormed ∧ (w.users.byId r.userId).isSome

/-! ## Postings -/

namespace Posting

variable {w w' : Wallet} {t : UserQuotaTransaction}

variable (h : Posting w w' t)

include h

theorem byId_users (i : Int) :
    w'.users.byId i = (w.users.byId i).map
      (fun u => if u.id = t.userId then { u with quota := u.quota + t.deltaQuota } else u) := by
  rw [h.users, Wallet.byId_addQuota]

theorem journalOf (i : Int) :
    w'.journalOf i = w.journalOf i + if t.userId = i then t.deltaQuota else 0 := by
  simp [Wallet.journalOf, total_of_create h.journal]

theorem journalFor (id : Int) :
    w'.journalFor id = w.journalFor id + if t.reservationId = id then t.deltaQuota else 0 := by
  simp [Wallet.journalFor, total_of_create h.journal]

/-- **The balance moves by what the journal records**: user by user, a posting changes balance and
journal sum by the same amount. -/
theorem balance (i : Int) :
    w'.balance i = (w.balance i).map (· + if t.userId = i then t.deltaQuota else 0) := by
  rw [Wallet.balance, Wallet.balance, h.byId_users]
  cases hu : w.users.byId i with
  | none => rfl
  | some u =>
    have huid : u.id = i := (byId_eq_some.mp hu).2
    by_cases hi : t.userId = i
    · simp [huid, hi]
    · simp [huid, hi, Ne.symm hi]

/-- A posting keeps covered balances covered. -/
theorem covered (hcov : ∀ u ∈ w.users.rows, 0 ≤ u.quota) :
    ∀ u ∈ w'.users.rows, 0 ≤ u.quota := by
  intro u' hu'
  have hbyId : w'.users.byId u'.id = some u' := byId_eq_some.mpr ⟨hu', rfl⟩
  rw [h.byId_users] at hbyId
  obtain ⟨u, hu, rfl⟩ := map_eq_some_iff.mp hbyId
  have humem := (byId_eq_some.mp hu).1
  split
  · next huid =>
    -- the posting's own user: the debit was checked against this very row
    obtain ⟨v, hv, hdelta⟩ := h.user
    obtain rfl : v = u :=
      eq_of_id_eq (byId_eq_some.mp hv).1 humem ((byId_eq_some.mp hv).2.trans huid.symm)
    exact hdelta (hcov v humem)
  · exact hcov u humem

theorem isSome_users (i : Int) :
    (w'.users.byId i).isSome = (w.users.byId i).isSome := by
  rw [h.byId_users, isSome_map]

theorem mem_journal {x : UserQuotaTransaction} :
    x ∈ w'.transactions.rows ↔ x ∈ w.transactions.rows ∨ x = t :=
  mem_of_create h.journal

end Posting

/-! ## Effects -/

namespace Effect

variable {request : Option String} {w w' : Wallet}

/-- Every effect posts one journal entry. -/
theorem posting (h : Effect request w w') : ∃ t, Posting w w' t := by
  cases h with
  | direct t _ hpost => exact ⟨t, hpost⟩
  | opened _ t _ hpost => exact ⟨t, hpost⟩
  | moved _ _ t _ hpost => exact ⟨t, hpost⟩

/-- **Step lemma**: an effect keeps users, reservations and journal in balance. -/
theorem balanced {w₀ : Wallet} (h : Effect request w w') (hinv : Balanced w₀ w) :
    Balanced w₀ w' := by
  obtain ⟨t₀, hpost₀⟩ := h.posting
  have hbalance : ∀ i, w'.balance i = (w₀.balance i).map (· + w'.journalOf i) := by
    intro i
    rw [hpost₀.balance, hinv.balance, hpost₀.journalOf]
    simp
  have hcovered := hpost₀.covered hinv.covered
  cases h with
  | direct t _ hpost href hres =>
    refine ⟨hbalance, hcovered, ?_, ?_, ?_⟩
    · intro r hr
      rw [hres] at hr
      have hid : r.id ≠ 0 := (w.reservations.id_pos r hr).ne'
      rw [hpost.journalFor, if_neg (href ▸ hid.symm), add_zero, hinv.ledger r hr]
    · intro x hx hx0
      rw [hres]
      rcases hpost.mem_journal.mp hx with hx | rfl
      · exact hinv.referenced x hx hx0
      · exact absurd href hx0
    · intro r hr
      rw [hpost.isSome_users]
      exact hinv.wellFormed r (hres ▸ hr)
  | opened r t _ hpost href hdelta hwf hid hres =>
    refine ⟨hbalance, hcovered, ?_, ?_, ?_⟩
    · intro x hx
      rcases (mem_of_create hres).mp hx with hx | rfl
      · have hne : r.id ≠ x.id := fun h => by
          have := id_lt_nextId hx
          exact absurd (h ▸ hid : x.id = w.reservations.nextId) this.ne
        rw [hpost.journalFor, if_neg (href.reservationId_eq ▸ hne), add_zero, hinv.ledger x hx]
      · -- nothing in the old journal refers to a row that did not exist
        have hzero : w.journalFor x.id = 0 := by
          refine total_eq_zero _ fun t ht => decide_eq_false fun htid => ?_
          have hpos : x.id ≠ 0 := by rw [hid]; exact (nextId_pos _).ne'
          obtain ⟨y, hy, hyt⟩ := hinv.referenced t ht (htid ▸ hpos)
          have := id_lt_nextId hy
          exact absurd ((hyt.reservationId_eq.symm.trans htid).trans hid) this.ne
        rw [hpost.journalFor, if_pos href.reservationId_eq, hzero, zero_add, hdelta]
    · intro x hx hx0
      rcases hpost.mem_journal.mp hx with hx | rfl
      · obtain ⟨y, hy, hyt⟩ := hinv.referenced x hx hx0
        exact ⟨y, (mem_of_create hres).mpr (.inl hy), hyt⟩
      · exact ⟨r, (mem_of_create hres).mpr (.inr rfl), href⟩
    · intro x hx
      rw [hpost.isSome_users]
      rcases (mem_of_create hres).mp hx with hx | rfl
      · exact hinv.wellFormed x hx
      · obtain ⟨u, hu, -⟩ := hpost.user
        rw [href.userId_eq] at hu
        exact ⟨hwf, by rw [hu]; rfl⟩
  | moved r r' t _ hpost href hdelta hr _ hsame hwf hres =>
    have hmem : ∀ x, x ∈ w'.reservations.rows →
        x = r' ∨ (x ∈ w.reservations.rows ∧ x.id ≠ r.id) := by
      intro x hx
      have hkey : w'.reservations.byKey x.requestId = some x := byKey_eq_some.mpr ⟨hx, rfl⟩
      rw [hres] at hkey
      split at hkey
      · exact .inl (Option.some.inj hkey).symm
      · next hk =>
        have hxw := (byKey_eq_some.mp hkey).1
        refine .inr ⟨hxw, fun hid => hk ?_⟩
        rw [eq_of_id_eq hxw hr hid]
    have hr' : r' ∈ w'.reservations.rows := by
      have := hres r.requestId
      rw [if_pos rfl] at this
      exact (byKey_eq_some.mp this).1
    refine ⟨hbalance, hcovered, ?_, ?_, ?_⟩
    · intro x hx
      rcases hmem x hx with rfl | ⟨hxw, hne⟩
      · rw [hpost.journalFor, if_pos (href.reservationId_eq.trans hsame.id_eq.symm), hsame.id_eq,
          hinv.ledger r hr]
        omega
      · rw [hpost.journalFor, if_neg (href.reservationId_eq ▸ hne.symm), add_zero,
          hinv.ledger x hxw]
    · intro x hx hx0
      have hfor : ∀ {y}, UserQuotaTransaction.IsFor y r → UserQuotaTransaction.IsFor y r' :=
        fun hy => ⟨hy.1.trans hsame.id_eq.symm, hy.2.trans hsame.userId_eq.symm,
          hy.3.trans hsame.requestId_eq.symm⟩
      rcases hpost.mem_journal.mp hx with hx | rfl
      · obtain ⟨y, hy, hyt⟩ := hinv.referenced x hx hx0
        by_cases hyr : r.requestId = y.requestId
        · obtain rfl : y = r := by
            have := (byKey_eq_some (k := y.requestId)).mpr ⟨hy, rfl⟩
            rw [(byKey_eq_some (k := y.requestId)).mpr ⟨hr, hyr⟩] at this
            exact (Option.some.inj this).symm
          exact ⟨r', hr', hfor hyt⟩
        · refine ⟨y, (byKey_eq_some (k := y.requestId)).mp ?_ |>.1, hyt⟩
          rw [hres, if_neg hyr]
          exact byKey_eq_some.mpr ⟨hy, rfl⟩
      · exact ⟨r', hr', hfor href⟩
    · intro x hx
      rw [hpost.isSome_users]
      rcases hmem x hx with rfl | ⟨hxw, -⟩
      · rw [hsame.userId_eq]
        exact ⟨hwf (hinv.wellFormed r hr).1, (hinv.wellFormed r hr).2⟩
      · exact hinv.wellFormed x hxw

end Effect

/-! ## Runs -/

theorem Wallet.Fresh.balanced {w : Wallet} (h : w.Fresh) : Balanced w w where
  balance i := by
    rw [Wallet.journalOf, total_of_rows_nil h.no_transactions]
    simp
  covered := h.covered
  ledger r hr := by rw [h.no_reservations] at hr; cases hr
  referenced t ht := by rw [h.no_transactions] at ht; cases ht
  wellFormed r hr := by rw [h.no_reservations] at hr; cases hr

/-- Every run from a fresh wallet stays in balance. -/
theorem Wallet.Fresh.run_balanced {w : Wallet} (h : w.Fresh) (events : List Event) :
    Balanced w (run Wallet.step w events) :=
  Wallet.run_keeps (fun _ _ _ hinv heff => heff.balanced hinv) h.balanced events

theorem UserQuotaReservation.expectedDelta_eq (r : UserQuotaReservation) :
    r.expectedDelta = -r.charge := by
  unfold UserQuotaReservation.expectedDelta UserQuotaReservation.charge
  cases r.status <;> simp

/-- A wallet in balance reconciles: the report finds no overdrawn user, no orphan reservation and no
mismatch between reservations and journal. -/
theorem Balanced.reconcile {w₀ w : Wallet} (h : Balanced w₀ w) (now : Int) :
    (reconcileUserQuotaAccounting now w).negativeUsers = 0 ∧
      (reconcileUserQuotaAccounting now w).orphanReservations = 0 ∧
      (reconcileUserQuotaAccounting now w).reservationLedgerMismatches = 0 := by
  refine ⟨?_, ?_, ?_⟩
  · exact countP_eq_zero.mpr fun u hu => by simpa using h.covered u hu
  · refine countP_eq_zero.mpr fun r hr => ?_
    simpa [isSome_iff_ne_none] using (h.wellFormed r hr).2
  · refine countP_eq_zero.mpr fun r hr => ?_
    have hpos : 0 < r.id := w.reservations.id_pos r hr
    have hsum : w.transactions.total (fun t => 0 < t.reservationId ∧ t.reservationId = r.id)
        UserQuotaTransaction.deltaQuota = w.journalFor r.id := by
      unfold Wallet.journalFor Table.total
      congr 2
      refine filter_congr fun t _ => decide_eq_decide.mpr ?_
      constructor
      · exact And.right
      · intro ht; exact ⟨ht ▸ hpos, ht⟩
    simp only [hsum, h.ledger r hr, r.expectedDelta_eq, ne_eq, not_true_eq_false, decide_false,
      Bool.false_eq_true, not_false_eq_true]

/-- **Accounting of the wallet.** After every finite sequence of ledger calls, with any arguments,
replays and faults, from a wallet without holds and journal entries: (i) every balance is the initial
balance plus the user's journal entries, (ii) the entries of every reservation add up to minus the
hold, minus the settled quota or zero, by its status, so that reconciliation reports no mismatch, and
(iii) no balance is negative. -/
theorem wallet_accounting (w : Wallet) (hfresh : w.Fresh) (events : List Event) :
    (∀ i, (run Wallet.step w events).balance i
      = (w.balance i).map (· + (run Wallet.step w events).journalOf i)) ∧
    (∀ r ∈ (run Wallet.step w events).reservations.rows,
      (run Wallet.step w events).journalFor r.id = match r.status with
        | .active => -r.reservedQuota
        | .settled => -r.settledQuota
        | .refunded => 0) ∧
    (∀ now, (reconcileUserQuotaAccounting now
      (run Wallet.step w events)).reservationLedgerMismatches = 0) ∧
    (∀ u ∈ (run Wallet.step w events).users.rows, 0 ≤ u.quota) := by
  have h := hfresh.run_balanced events
  refine ⟨h.balance, fun r hr => ?_, fun now => (h.reconcile now).2.2, h.covered⟩
  rw [h.ledger r hr, ← r.expectedDelta_eq]
  rfl

/-- A wallet with one user, for the concrete runs below. -/
def Wallet.single (quota : Int) : Wallet :=
  ⟨⟨[{ id := 1, quota }], by simp [Row.id], by simp, by simp⟩, .empty, .empty⟩

theorem Wallet.single_fresh {quota : Int} (h : 0 ≤ quota) : (Wallet.single quota).Fresh :=
  ⟨by simpa [Wallet.single] using h, rfl, rfl⟩

/-- A hold of 30 that is settled at 45, with the settlement repeated, and a hold that expires. -/
def Wallet.sampleRun : List Event :=
  [(Call.reserve "a" 1 30 "" 0).faultless, (Call.settle "a" 1 45 "").faultless,
    (Call.settle " a " 1 45 "api_billing").faultless, (Call.reserve "b" 1 20 "" 0).faultless,
    (Call.refundExpired 7200 0).faultless]

theorem wallet_accounting_sample :
    (Wallet.single 100).Fresh ∧
    (run Wallet.step (Wallet.single 100) Wallet.sampleRun).balance 1 = some 55 ∧
    (run Wallet.step (Wallet.single 100) Wallet.sampleRun).balance 1 = ((Wallet.single 100).balance 1).map
      (· + (run Wallet.step (Wallet.single 100) Wallet.sampleRun).journalOf 1) :=
  ⟨Wallet.single_fresh (by decide), by decide +kernel,
    (wallet_accounting _ (Wallet.single_fresh (by decide)) _).1 1⟩

end Prox
