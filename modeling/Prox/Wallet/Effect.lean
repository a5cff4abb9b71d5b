import Prox.Wallet.Ledger

/-! # What a ledger transaction does

Every committed ledger transaction either leaves the tables alone or has one of three effects: it
posts a direct mutation, it opens a reservation, or it moves an active reservation on, each time
together with one journal entry and the matching balance change. `Effect` states this once for all
operations, and the lemmas `*_effect` show it of each of them; the accounting laws are derived from
`Effect` alone. -/

namespace Prox

open Table UserQuotaReservation

/-- The net amount a reservation takes from its user: the hold while it is active, the settled quota
afterwards, nothing once it is refunded. -/
def UserQuotaReservation.charge (r : UserQuotaReservation) : Int :=
  match r.status with
  | .active => r.reservedQuota
  | .settled => r.settledQuota
  | .refunded => 0

/-- The columns every stored reservation satisfies. -/
structure UserQuotaReservation.WellFormed (r : UserQuotaReservation) : Prop where
  userId_pos : 0 < r.userId
  requestId_normal : normalizeUserQuotaRequest r.requestId = .ok r.requestId
  sourceType_normal : normalizeUserQuotaSource r.sourceType = .ok r.sourceType
  reserved_nonneg : 0 ≤ r.reservedQuota
  settled_nonneg : 0 ≤ r.settledQuota

/-- The columns no operation changes once a reservation is stored. -/
structure UserQuotaReservation.SameHold (r r' : UserQuotaReservation) : Prop where
  id_eq : r'.id = r.id
  requestId_eq : r'.requestId = r.requestId
  userId_eq : r'.userId = r.userId
  sourceType_eq : r'.sourceType = r.sourceType

/-- A journal entry that belongs to a reservation. -/
structure UserQuotaTransaction.IsFor (t : UserQuotaTransaction) (r : UserQuotaReservation) :
    Prop where
  reservationId_eq : t.reservationId = r.id
  userId_eq : t.userId = r.userId
  requestId_eq : t.requestId = r.requestId

/-- `quota = quota + d` for user `i`. -/
def Wallet.addQuota (w : Wallet) (i d : Int) : Wallet :=
  { w with users := (w.users.updateWhere (fun u => u.id = i) (User.addQuota d)).1 }

/-- One journal entry, posted together with the balance change it records. -/
structure Posting (w w' : Wallet) (t : UserQuotaTransaction) : Prop where
  /-- The user exists, and the change does not overdraw a covered balance. -/
  user : ∃ u, w.users.byId t.userId = some u ∧ (0 ≤ u.quota → 0 ≤ u.quota + t.deltaQuota)
  users : w'.users = (w.addQuota t.userId t.deltaQuota).users
  journal : w.transactions.create t = some w'.transactions

/-- What a committed transaction that changes the tables did; `request` is the reservation it
touched, if any. -/
inductive Effect (request : Option String) (w w' : Wallet) : Prop
  | direct (t : UserQuotaTransaction) (hreq : request = none) (hpost : Posting w w' t)
      (href : t.reservationId = 0) (hres : w'.reservations = w.reservations)
  | opened (r : UserQuotaReservation) (t : UserQuotaTransaction) (hreq : request = some r.requestId)
      (hpost : Posting w w' t) (href : t.IsFor r) (hdelta : t.deltaQuota = -r.charge)
      (hwf : r.WellFormed) (hid : r.id = w.reservations.nextId)
      (hres : w.reservations.create r = some w'.reservations)
  | moved (r r' : UserQuotaReservation) (t : UserQuotaTransaction)
      (hreq : request = some r.requestId) (hpost : Posting w w' t) (href : t.IsFor r)
      (hdelta : t.deltaQuota = r.charge - r'.charge) (hr : r ∈ w.reservations.rows)
      (hactive : r.status = .active) (hsame : r.SameHold r')
      (hwf : r.WellFormed → r'.WellFormed)
      (hres : ∀ k, w'.reservations.byKey k
        = if r.requestId = k then some r' else w.reservations.byKey k)

/-! ## Normalisation -/

/-- An accepted request id is trimmed, non-empty and short, so it is accepted again unchanged. -/
theorem normalizeUserQuotaRequest_idem {raw r : String}
    (h : normalizeUserQuotaRequest raw = .ok r) : normalizeUserQuotaRequest r = .ok r := by
  simp only [normalizeUserQuotaRequest, failIf_bind_eq_ok, pure_eq_ok] at h ⊢
  obtain ⟨hguard, rfl⟩ := h
  exact ⟨by simpa using hguard, by simp⟩

/-- An accepted source type is accepted again unchanged; the default is its own normal form. -/
theorem normalizeUserQuotaSource_idem {raw s : String}
    (h : normalizeUserQuotaSource raw = .ok s) : normalizeUserQuotaSource s = .ok s := by
  simp only [normalizeUserQuotaSource] at h
  split at h
  · cases h; decide +kernel
  · next hne =>
    simp only [failIf_bind_eq_ok, pure_eq_ok] at h
    obtain ⟨hguard, rfl⟩ := h
    simp only [normalizeUserQuotaSource, trimSpace_trimSpace, if_neg hne, failIf_bind_eq_ok,
      pure_eq_ok, and_true]
    exact hguard

/-! ## Balance primitives -/

variable {w w' w₁ : Wallet} {a b i q : Int}

theorem lockUserQuotaTx_eq_ok {u : User} :
    lockUserQuotaTx w i = .ok u ↔ w.users.byId i = some u := by
  unfold lockUserQuotaTx
  split <;> simp_all [pure_eq_ok, throw_ne_ok]

@[simp] theorem Wallet.addQuota_zero (w : Wallet) (i : Int) : w.addQuota i 0 = w := by
  have : (w.users.updateWhere (fun u => u.id = i) (User.addQuota 0)).1 = w.users := by
    refine Table.ext ?_
    refine (List.map_congr_left fun u _ => ?_).trans (List.map_id _)
    simp [User.addQuota]
  simp [Wallet.addQuota, this]

@[simp] theorem Wallet.addQuota_transactions (w : Wallet) (i d : Int) :
    (w.addQuota i d).transactions = w.transactions := rfl

/-- `byId` after a balance change. -/
theorem Wallet.byId_addQuota (w : Wallet) (i d j : Int) :
    (w.addQuota i d).users.byId j
      = (w.users.byId j).map (fun u => if u.id = i then { u with quota := u.quota + d } else u) := by
  rw [Wallet.addQuota, byId_updateWhere]
  simp [User.addQuota]

/-- On a table that holds user `i`, an update conditioned on the id of `i` and a fact about it is the
update conditioned on the id alone, and it affects one row. -/
theorem updateWhere_user {t : Table User} {u : User} (hu : t.byId i = some u) {c : User → Prop}
    [DecidablePred c] (hc : c u) (f : Patch User) :
    t.updateWhere (fun x => x.id = i ∧ c x) f = t.updateWhere (fun x => x.id = i) f ∧
      (t.updateWhere (fun x => x.id = i) f).2 = 1 := by
  obtain ⟨humem, huid⟩ := byId_eq_some.mp hu
  constructor
  · refine updateWhere_congr fun x hx => ?_
    by_cases hxi : x.id = i
    · have hxu : x = u := eq_of_id_eq hx humem (hxi.trans huid.symm)
      simp [hxu, hc]
    · simp [hxi]
  · exact rowsAffected_eq_one humem (decide_eq_true huid)
      (fun x hx => (of_decide_eq_true hx).trans huid.symm)

/-- A debit succeeds exactly when the user exists and the balance covers it. -/
theorem debitUserQuotaTx_eq_ok :
    debitUserQuotaTx w i q = .ok ((b, a), w') ↔
      0 < i ∧ 0 ≤ q ∧ ∃ u, w.users.byId i = some u ∧ (q = 0 ∨ q ≤ u.quota) ∧
        u.quota = b ∧ u.quota - q = a ∧ w.addQuota i (-q) = w' := by
  simp only [debitUserQuotaTx, ok_iff, lockUserQuotaTx_eq_ok, not_or, not_le, not_lt, and_assoc]
  refine and_congr_right fun hi => and_congr_right fun hq => exists_congr fun u =>
    and_congr_right fun hu => ?_
  by_cases h0 : q = 0
  · subst h0
    simp [pure_eq_ok, and_assoc]
  · rw [if_neg h0]
    simp only [ok_iff, not_lt, h0, false_or]
    refine and_congr_right fun hle => ?_
    obtain ⟨hcongr, hone⟩ := updateWhere_user hu (c := fun x => q ≤ x.quota) hle (User.addQuota (-q))
    rw [hcongr, hone]
    simp [and_assoc, Wallet.addQuota]

/-- A credit succeeds exactly when the user exists. -/
theorem creditUserQuotaTx_eq_ok :
    creditUserQuotaTx w i q = .ok ((b, a), w') ↔
      0 < i ∧ 0 ≤ q ∧ ∃ u, w.users.byId i = some u ∧
        u.quota = b ∧ u.quota + q = a ∧ w.addQuota i q = w' := by
  simp only [creditUserQuotaTx, ok_iff, lockUserQuotaTx_eq_ok, not_or, not_le, not_lt, and_assoc]
  refine and_congr_right fun hi => and_congr_right fun hq => exists_congr fun u =>
    and_congr_right fun hu => ?_
  by_cases h0 : q = 0
  · subst h0
    simp [pure_eq_ok, and_assoc]
  · rw [if_neg h0]
    have hone := (updateWhere_user hu (c := fun _ => True) trivial (User.addQuota q)).2
    simp only [ok_iff, hone, ne_eq, not_true_eq_false, not_false_eq_true, true_and, Prod.mk.injEq,
        and_assoc, Wallet.addQuota]

/-- `Moved w i d b a w'`: the balance of user `i` went from `b` to `a = b + d`, without overdrawing
it, and nothing else changed. -/
structure Moved (w : Wallet) (i d b a : Int) (w' : Wallet) : Prop where
  pos : 0 < i
  user : ∃ u, w.users.byId i = some u ∧ u.quota = b
  after : a = b + d
  covered : 0 ≤ b → 0 ≤ a
  result : w' = w.addQuota i d

theorem debitUserQuotaTx_moved (h : debitUserQuotaTx w i q = .ok ((b, a), w')) :
    Moved w i (-q) b a w' := by
  obtain ⟨hi, hq, u, hu, hcov, rfl, rfl, rfl⟩ := debitUserQuotaTx_eq_ok.mp h
  exact ⟨hi, ⟨u, hu, rfl⟩, by omega, by omega, rfl⟩

theorem creditUserQuotaTx_moved (h : creditUserQuotaTx w i q = .ok ((b, a), w')) :
    Moved w i q b a w' := by
  obtain ⟨hi, hq, u, hu, rfl, rfl, rfl⟩ := creditUserQuotaTx_eq_ok.mp h
  exact ⟨hi, ⟨u, hu, rfl⟩, rfl, by omega, rfl⟩

/-- The three-way balance change of a direct mutation. -/
theorem moveUserQuotaTx_moved {d : Int} (hi : 0 < i) (h : moveUserQuotaTx w i d = .ok ((b, a), w')) :
    Moved w i d b a w' := by
  unfold moveUserQuotaTx at h
  split at h
  · simpa using debitUserQuotaTx_moved h
  · split at h
    · exact creditUserQuotaTx_moved h
    · obtain rfl : d = 0 := by omega
      simp only [ok_iff, lockUserQuotaTx_eq_ok, Prod.mk.injEq, and_assoc] at h
      obtain ⟨u, hu, rfl, rfl, rfl⟩ := h
      exact ⟨hi, ⟨u, hu, rfl⟩, by omega, id, by simp⟩

/-- The two-way balance changes of a resize and of a settlement, told apart by the sign of `d`. -/
theorem debit_or_credit_moved {d : Int} {c : Prop} [Decidable c]
    (h : (if c then debitUserQuotaTx w i (-d) else creditUserQuotaTx w i d) = .ok ((b, a), w')) :
    Moved w i d b a w' := by
  split at h
  · simpa using debitUserQuotaTx_moved h
  · exact creditUserQuotaTx_moved h

/-! ## Statements on reservations and journal -/

variable {t : UserQuotaTransaction}

theorem createUserQuotaTransactionTx_eq_ok :
    createUserQuotaTransactionTx w t = .ok w' ↔
      ∃ ts, w.transactions.create t = some ts ∧ { w with transactions := ts } = w' := by
  unfold createUserQuotaTransactionTx
  split <;> simp_all [pure_eq_ok, throw_ne_ok]

variable {k source : String} {r : UserQuotaReservation}

theorem lockUserQuotaReservationTx_eq_ok :
    lockUserQuotaReservationTx w k = .ok r ↔ w.reservations.byKey k = some r := by
  unfold lockUserQuotaReservationTx
  split <;> simp_all [pure_eq_ok, throw_ne_ok]

/-- A stored active reservation always passes the version check of its own row, since row and
version were read under the same lock. -/
theorem updateActiveReservationTx_eq_ok {patch : Patch UserQuotaReservation} {what : String}
    (hr : r ∈ w.reservations.rows) (hactive : r.status = .active)
    (h : updateActiveReservationTx w r patch what k = .ok w') :
    w'.users = w.users ∧ w'.transactions = w.transactions ∧
      ∀ k, w'.reservations.byKey k
        = if r.requestId = k then some (patch.apply r) else w.reservations.byKey k := by
  simp only [updateActiveReservationTx, ok_iff] at h
  obtain ⟨-, rfl⟩ := h
  refine ⟨rfl, rfl, fun k => ?_⟩
  exact byKey_updateWhere_single hr (by simp [hactive])
    (fun x hx => (of_decide_eq_true hx).1) k

/-- The journal entry that follows a balance change. -/
theorem Moved.posting {w₂ w₃ : Wallet} (hm : Moved w t.userId t.deltaQuota b a w₁)
    (h : createUserQuotaTransactionTx w₂ t = .ok w₃) (husers : w₂.users = w₁.users)
    (hts : w₂.transactions = w₁.transactions) :
    Posting w w₃ t ∧ w₃.reservations = w₂.reservations := by
  obtain ⟨-, ⟨u, hu, rfl⟩, rfl, hcov, rfl⟩ := hm
  obtain ⟨ts, hts', rfl⟩ := createUserQuotaTransactionTx_eq_ok.mp h
  rw [hts] at hts'
  exact ⟨⟨⟨u, hu, hcov⟩, husers, hts'⟩, rfl⟩

/-! ## The effect of each operation -/

variable {m : UserQuotaMutation}

/-- A successful mutation was skipped as a replay of the same mutation, or it was posted under its
idempotency key. -/
theorem applyUserQuotaMutationTx_cases {applied : Bool}
    (h : applyUserQuotaMutationTx w m = .ok (applied, w')) :
    (applied = false ∧ w' = w ∧ ∃ t, w.transactions.byKey (trimSpace m.idempotencyKey) = some t ∧
      t.userId = m.userID ∧ t.deltaQuota = m.deltaQuota) ∨
    (applied = true ∧ w'.reservations = w.reservations ∧ ∃ t, Posting w w' t ∧
      t.reservationId = 0 ∧ t.idempotencyKey = trimSpace m.idempotencyKey ∧
      t.userId = m.userID ∧ t.deltaQuota = m.deltaQuota) := by
  simp only [applyUserQuotaMutationTx] at h
  obtain ⟨m', hm, h⟩ := bind_eq_ok.mp h
  simp only [normalizeUserQuotaMutation, ok_iff, not_le] at hm
  obtain ⟨hpos, _, -, _, -, -, -, rfl⟩ := hm
  split at h
  · -- the idempotency key is taken: the stored row is compared, nothing is written
    left
    split at h
    · cases h
    · next t ht =>
      simp only [validateUserQuotaMutationReplay, ok_iff, not_or, not_not, Prod.mk.injEq] at h
      obtain ⟨⟨huser, -, -, -, hdelta⟩, rfl, rfl⟩ := h
      exact ⟨rfl, rfl, t, ht, huser, hdelta⟩
  · next ts hts =>
    right
    simp only [ok_iff, Prod.mk.injEq, Prod.exists] at h
    obtain ⟨b, a, w₁, hmove, -, rfl, rfl⟩ := h
    obtain ⟨-, ⟨u, hu, rfl⟩, rfl, hcov, rfl⟩ := moveUserQuotaTx_moved hpos hmove
    -- the snapshot update hits the row just inserted, so it is as if it had been inserted complete
    have hjournal := create_updateWhere hts
      (UserQuotaTransaction.setBalances u.quota (u.quota + m.deltaQuota))
      (p := fun t => t.id = w.transactions.nextId) (fun x => by simp [Row.id])
    exact ⟨rfl, rfl, _, ⟨⟨u, hu, hcov⟩, rfl, hjournal⟩, rfl, rfl, rfl, rfl⟩

section NewKey

/-- A mutation under a new key ends as its balance change does. -/
theorem applyUserQuotaMutationTx_new (hnormal : ∃ m', normalizeUserQuotaMutation m = .ok m')
    (hkey : w.transactions.byKey (trimSpace m.idempotencyKey) = none) :
    0 < m.userID ∧ ∃ transactions,
      (∀ e, moveUserQuotaTx { w with transactions } m.userID m.deltaQuota = .error e →
        applyUserQuotaMutationTx w m = .error e) ∧
      ∀ b a w₁, moveUserQuotaTx { w with transactions } m.userID m.deltaQuota = .ok ((b, a), w₁) →
        ∃ w', applyUserQuotaMutationTx w m = .ok (true, w') := by
  obtain ⟨m', hm⟩ := hnormal
  have hm' := hm
  simp only [normalizeUserQuotaMutation, ok_iff, not_le] at hm'
  obtain ⟨huserID, _, -, _, -, -, -, rfl⟩ := hm'
  refine ⟨huserID, ?_⟩
  simp only [applyUserQuotaMutationTx, hm, bind, Except.bind]
  generalize hcreate : w.transactions.create _ = created
  cases created with
  | none =>
    obtain ⟨x, hx⟩ := (create_eq_none rfl).mp hcreate
    have hx : w.transactions.byKey (trimSpace m.idempotencyKey) = some x := hx
    rw [hkey] at hx
    cases hx
  | some transactions =>
    refine ⟨transactions, fun e hmove => by dsimp only; rw [hmove], fun b a w₁ hmove => ?_⟩
    -- the update of the journal hits the entry just made
    have hone : ∀ f : Patch UserQuotaTransaction,
        (transactions.updateWhere (fun t => t.id = w.transactions.nextId) f).2 = 1 := fun f =>
      rowsAffected_eq_one ((mem_of_create hcreate).mpr (.inr rfl)) (decide_eq_true rfl)
        fun x hx => of_decide_eq_true hx
    have hjournal : w₁.transactions = transactions := by
      rw [(moveUserQuotaTx_moved huserID hmove).result]
      rfl
    dsimp only
    rw [hmove]
    simp only [hjournal, hone, failIf, ne_eq, not_true_eq_false, if_false]
    exact ⟨_, rfl⟩

/-- A mutation under a new key credits a user who exists. -/
theorem applyUserQuotaMutationTx_credits {u : User} (huser : w.users.byId m.userID = some u)
    (hpos : 0 < m.deltaQuota) (hnormal : ∃ m', normalizeUserQuotaMutation m = .ok m')
    (hkey : w.transactions.byKey (trimSpace m.idempotencyKey) = none) :
    ∃ w', applyUserQuotaMutationTx w m = .ok (true, w') := by
  obtain ⟨huserID, transactions, -, hok⟩ := applyUserQuotaMutationTx_new hnormal hkey
  refine hok u.quota (u.quota + m.deltaQuota) (Wallet.addQuota { w with transactions } m.userID m.deltaQuota) ?_
  unfold moveUserQuotaTx
  rw [if_neg (by omega), if_pos hpos]
  exact creditUserQuotaTx_eq_ok.mpr ⟨by omega, by omega, u, huser, rfl, rfl, rfl⟩

/-- A credit under a new key finds its user missing. -/
theorem applyUserQuotaMutationTx_missing (huser : w.users.byId m.userID = none) (hpos : 0 < m.deltaQuota)
    (hnormal : ∃ m', normalizeUserQuotaMutation m = .ok m')
    (hkey : w.transactions.byKey (trimSpace m.idempotencyKey) = none) :
    applyUserQuotaMutationTx w m = .error (.sentinel .recordNotFound) := by
  obtain ⟨huserID, transactions, herror, -⟩ := applyUserQuotaMutationTx_new hnormal hkey
  refine herror _ ?_
  unfold moveUserQuotaTx
  rw [if_neg (by omega), if_pos hpos]
  simp only [creditUserQuotaTx, lockUserQuotaTx, huser, bind_eq_error, failIf_eq_error, ok_iff]
  exact .inr ⟨by omega, .inl rfl⟩

end NewKey

/-- After a successful mutation its key belongs to a journal entry of its type. -/
theorem applyUserQuotaMutationTx_type {applied : Bool}
    (h : applyUserQuotaMutationTx w m = .ok (applied, w')) :
    ∃ t, w'.transactions.byKey (trimSpace m.idempotencyKey) = some t ∧
      t.transactionType = trimSpace m.transactionType := by
  simp only [applyUserQuotaMutationTx] at h
  obtain ⟨m', hm, h⟩ := bind_eq_ok.mp h
  simp only [normalizeUserQuotaMutation, ok_iff, not_le] at hm
  obtain ⟨hpos, _, -, _, -, -, -, rfl⟩ := hm
  split at h
  · split at h
    · cases h
    · next t ht =>
      simp only [validateUserQuotaMutationReplay, ok_iff, not_or, not_not, Prod.mk.injEq] at h
      obtain ⟨⟨-, -, -, htype, -⟩, rfl, rfl⟩ := h
      exact ⟨t, ht, htype⟩
  · next ts hts =>
    simp only [ok_iff, Prod.mk.injEq, Prod.exists] at h
    obtain ⟨b, a, w₁, hmove, -, rfl, rfl⟩ := h
    have hjournal : w₁.transactions = ts := by rw [(moveUserQuotaTx_moved hpos hmove).result]; rfl
    have hfound := (byKey_of_create hts _).trans (if_pos rfl)
    rw [← hjournal] at hfound
    refine ⟨_, (byKey_updateWhere _).trans (congrArg (Option.map _) hfound), ?_⟩
    beta_reduce
    split <;> rfl

/-- The outcome of a direct mutation: a replay leaves the tables alone. -/
theorem applyUserQuotaMutationTx_effect {applied : Bool}
    (h : applyUserQuotaMutationTx w m = .ok (applied, w')) : w' = w ∨ Effect none w w' := by
  rcases applyUserQuotaMutationTx_cases h with ⟨-, hw, -⟩ | ⟨-, hres, t, hpost, href, -⟩
  · exact .inl hw
  · exact .inr (.direct t rfl hpost href hres)

theorem setUserQuotaBalanceTx_effect {target : Int} {remark : String}
    (h : setUserQuotaBalanceTx i target k source remark w = .ok ((), w')) :
    w' = w ∨ Effect none w w' := by
  obtain ⟨u, -, h⟩ := bind_eq_ok.mp h
  split at h
  · simp only [ok_iff, Prod.mk.injEq, true_and] at h
    obtain ⟨-, -, rfl⟩ := h
    exact .inl rfl
  · simp only [ok_iff, Prod.mk.injEq, true_and, Prod.exists] at h
    obtain ⟨applied, w₁, happly, rfl⟩ := h
    exact applyUserQuotaMutationTx_effect happly

/-- The rows a new reservation leaves behind, for a hold and for a settlement without a hold. -/
theorem opened_effect {rs : Table UserQuotaReservation} (hrs : w.reservations.create r = some rs)
    (hdebit : debitUserQuotaTx { w with reservations := rs } r.userId r.charge
      = .ok ((b, a), w₁)) (hpost : createUserQuotaTransactionTx { w₁ with
      reservations := (w₁.reservations.updateWhere (fun x => x.id = r.id)
        (setBalanceAfter a)).1 } t = .ok w')
    (hid : r.id = w.reservations.nextId) (hwf : r.WellFormed) (href : t.IsFor r)
    (hdelta : t.deltaQuota = -r.charge) :
    Effect (some r.requestId) w w' ∧
      w'.reservations.byKey r.requestId = some { r with balanceAfter := a } := by
  have hm : Moved { w with reservations := rs } t.userId t.deltaQuota b a w₁ := by
    rw [href.userId_eq, hdelta]; exact debitUserQuotaTx_moved hdebit
  obtain ⟨hposting, hres⟩ := hm.posting hpost rfl rfl
  have hcreate := create_updateWhere hrs (setBalanceAfter a)
    (p := fun x => x.id = r.id) (fun x => by simp [Row.id])
  have hw' : w'.reservations = (rs.updateWhere (fun x => x.id = r.id)
      (setBalanceAfter a)).1 := by
    rw [hres, hm.result]; rfl
  rw [← hw'] at hcreate
  refine ⟨.opened { r with balanceAfter := a } t rfl ⟨hposting.user, hposting.users,
    hposting.journal⟩ ⟨href.1, href.2, href.3⟩ hdelta ⟨hwf.1, hwf.2, hwf.3, hwf.4, hwf.5⟩ hid
    hcreate, ?_⟩
  rw [byKey_of_create hcreate]
  exact if_pos rfl

theorem reserveUserQuotaTx_effect {now : Int} (hk : normalizeUserQuotaRequest k = .ok k)
    (hsource : normalizeUserQuotaSource source = .ok source) (hi : 0 < i) (hq : 0 < q)
    (h : reserveUserQuotaTx k i q source now w = .ok ((), w')) :
    (w' = w ∨ Effect (some k) w w') ∧
      ∃ r, w'.reservations.byKey k = some r ∧ r.status = .active ∧ r.userId = i ∧
        (w.reservations.byKey k = none → r.reservedQuota = q) := by
  simp only [reserveUserQuotaTx] at h
  split at h
  · simp only [ok_iff, Prod.mk.injEq, true_and, lockUserQuotaReservationTx_eq_ok,
      validateUserQuotaReservationReplay, not_not, not_or] at h
    obtain ⟨r, hr, ⟨⟨hi, -, -⟩, hactive⟩, rfl⟩ := h
    exact ⟨.inl rfl, r, hr, hactive, hi, fun hnone => by rw [hnone] at hr; cases hr⟩
  · next rs hrs =>
    simp only [ok_iff, Prod.mk.injEq, true_and, Prod.exists] at h
    obtain ⟨b, a, w₁, hdebit, w₂, hpost, rfl⟩ := h
    obtain ⟨heff, hrow⟩ := opened_effect hrs hdebit hpost rfl
      ⟨hi, hk, hsource, hq.le, le_rfl⟩ ⟨rfl, rfl, rfl⟩ rfl
    exact ⟨.inr heff, _, hrow, rfl, rfl, fun _ => rfl⟩

/-- The rows a transition of an active reservation leaves behind. -/
theorem moved_effect {w₂ : Wallet} {patch : Patch UserQuotaReservation} {what : String}
    (hr : w.reservations.byKey k = some r) (hactive : r.status = .active) (href : t.IsFor r)
    (hm : Moved w r.userId (r.charge - (patch.apply r).charge) b a w₁)
    (hupdate : updateActiveReservationTx w₁ r patch what k = .ok w₂)
    (hdelta : t.deltaQuota = r.charge - (patch.apply r).charge) (hsame : r.SameHold (patch.apply r))
    (hwf : r.WellFormed → (patch.apply r).WellFormed)
    (hpost : createUserQuotaTransactionTx w₂ t = .ok w') :
    Effect (some k) w w' ∧ w'.reservations.byKey k = some (patch.apply r) := by
  obtain ⟨hrmem, hrk⟩ := byKey_eq_some.mp hr
  have hres₁ : w₁.reservations = w.reservations := by rw [hm.result]; rfl
  obtain ⟨husers, hts, hrows⟩ := updateActiveReservationTx_eq_ok (hres₁ ▸ hrmem) hactive hupdate
  rw [← href.userId_eq, ← hdelta] at hm
  obtain ⟨hposting, hres⟩ := hm.posting hpost husers hts
  simp only [← hres, hres₁] at hrows
  refine ⟨.moved r _ t (by rw [← hrk]; rfl) hposting href hdelta hrmem hactive hsame hwf hrows, ?_⟩
  rw [hrows]
  exact if_pos hrk

theorem resizeUserQuotaReservationTx_effect {target now : Int} (htarget : 0 ≤ target)
    (h : resizeUserQuotaReservationTx k i target now w = .ok ((), w')) :
    (w' = w ∨ Effect (some k) w w') ∧
      ∃ r, w'.reservations.byKey k = some r ∧ r.status = .active ∧ r.userId = i ∧
        r.reservedQuota = target := by
  simp only [resizeUserQuotaReservationTx, ok_iff, not_not, lockUserQuotaReservationTx_eq_ok] at h
  obtain ⟨r, hr, hi, hactive, h⟩ := h
  split at h
  · next htarget =>
    simp only [pure_eq_ok, Prod.mk.injEq, true_and] at h
    exact ⟨.inl h.symm, r, h ▸ hr, hactive, hi, htarget⟩
  · simp only [ok_iff, Prod.mk.injEq, true_and, Prod.exists] at h
    obtain ⟨b, a, w₁, hmove, w₂, hupdate, w₃, hpost, rfl⟩ := h
    have hm : Moved w r.userId (r.reservedQuota - target) b a w₁ := by
      rw [hi]
      exact debit_or_credit_moved (c := 0 < target - r.reservedQuota) (by simpa using hmove)
    have hrk := (byKey_eq_some.mp hr).2
    obtain ⟨heff, hrow⟩ := moved_effect hr hactive ⟨rfl, hi.symm, hrk.symm⟩
      (by simpa only [charge, resize, hactive] using hm)
      hupdate (by simp [charge, resize, hactive])
      ⟨rfl, rfl, rfl, rfl⟩ (fun hwf => ⟨hwf.1, hwf.2, hwf.3, htarget, hwf.5⟩) hpost
    exact ⟨.inr heff, _, hrow, hactive, hi, rfl⟩

theorem settleStoredReservationTx_effect {actual : Int} (hactual : 0 ≤ actual)
    (hr : w.reservations.byKey k = some r)
    (h : settleStoredReservationTx r k i actual source w = .ok ((), w')) :
    (w' = w ∨ Effect (some k) w w') ∧
      ∃ r, w'.reservations.byKey k = some r ∧ r.status = .settled ∧ r.userId = i ∧
        r.sourceType = source ∧ r.settledQuota = actual := by
  simp only [settleStoredReservationTx, ok_iff, not_not, not_or] at h
  obtain ⟨⟨hi, hsource⟩, h⟩ := h
  split at h
  · next hsettled =>
    simp only [ok_iff, not_not, Prod.mk.injEq, true_and] at h
    exact ⟨.inl h.2.symm, r, h.2 ▸ hr, hsettled, hi, hsource, h.1⟩
  · cases h
  · next hactive =>
    simp only [ok_iff, Prod.mk.injEq, true_and, Prod.exists] at h
    obtain ⟨b, a, w₁, hmove, w₂, hupdate, w₃, hpost, rfl⟩ := h
    have hm : Moved w r.userId (r.reservedQuota - actual) b a w₁ := by
      rw [hi]
      refine debit_or_credit_moved (c := ¬ 0 < r.reservedQuota - actual) ?_
      rw [ite_not]; exact hmove
    have hrk := (byKey_eq_some.mp hr).2
    obtain ⟨heff, hrow⟩ := moved_effect hr hactive ⟨rfl, hi.symm, hrk.symm⟩
      (by simpa only [charge, settle, hactive] using hm)
      hupdate (by simp [charge, settle, hactive])
      ⟨rfl, rfl, rfl, rfl⟩ (fun hwf => ⟨hwf.1, hwf.2, hwf.3, hwf.4, hactual⟩) hpost
    exact ⟨.inr heff, _, hrow, rfl, hi, hsource, rfl⟩

theorem settleUserQuotaReservationTx_effect {actual : Int}
    (hk : normalizeUserQuotaRequest k = .ok k)
    (hsource : normalizeUserQuotaSource source = .ok source) (hi : 0 < i) (hactual : 0 ≤ actual)
    (h : settleUserQuotaReservationTx k i actual source w = .ok ((), w')) :
    (w' = w ∨ Effect (some k) w w') ∧
      ∃ r, w'.reservations.byKey k = some r ∧ r.status = .settled ∧ r.userId = i ∧
        r.sourceType = source ∧ r.settledQuota = actual := by
  simp only [settleUserQuotaReservationTx] at h
  split at h
  · next r hr => exact settleStoredReservationTx_effect hactual hr h
  · split at h
    · simp only [bind_eq_ok, lockUserQuotaReservationTx_eq_ok] at h
      obtain ⟨r, hr, h⟩ := h
      exact settleStoredReservationTx_effect hactual hr h
    · next rs hrs =>
      simp only [ok_iff, Prod.mk.injEq, true_and, Prod.exists] at h
      obtain ⟨b, a, w₁, hdebit, w₂, hpost, rfl⟩ := h
      obtain ⟨heff, hrow⟩ := opened_effect hrs hdebit hpost rfl
        ⟨hi, hk, hsource, hactual, hactual⟩ ⟨rfl, rfl, rfl⟩ rfl
      exact ⟨.inr heff, _, hrow, rfl, rfl, rfl, rfl⟩

theorem refundUserQuotaReservationTx_effect {remark : String}
    (h : refundUserQuotaReservationTx k i remark w = .ok ((), w')) :
    (w' = w ∨ Effect (some k) w w') ∧
      ∃ r, w'.reservations.byKey k = some r ∧ r.status = .refunded ∧ r.userId = i := by
  simp only [refundUserQuotaReservationTx, ok_iff, not_not, lockUserQuotaReservationTx_eq_ok] at h
  obtain ⟨r, hr, hi, h⟩ := h
  split at h
  · next hrefunded =>
    simp only [pure_eq_ok, Prod.mk.injEq, true_and] at h
    exact ⟨.inl h.symm, r, h ▸ hr, hrefunded, hi⟩
  · simp only [ok_iff, not_not, Prod.mk.injEq, true_and, Prod.exists] at h
    obtain ⟨hactive, b, a, w₁, hmove, w₂, hupdate, w₃, hpost, rfl⟩ := h
    have hm := creditUserQuotaTx_moved hmove
    rw [← hi] at hm
    have hrk := (byKey_eq_some.mp hr).2
    obtain ⟨heff, hrow⟩ := moved_effect hr hactive ⟨rfl, hi.symm, hrk.symm⟩
      (by simpa [charge, refund, hactive] using hm)
      hupdate (by simp [charge, refund, hactive])
      ⟨rfl, rfl, rfl, rfl⟩ (fun hwf => ⟨hwf.1, hwf.2, hwf.3, hwf.4, hwf.5⟩) hpost
    exact ⟨.inr heff, _, hrow, rfl, hi⟩

/-! ## The exported operations -/

/-- A call on the reservation of `requestID` fails and changes nothing, or it commits at most one
effect on that request and leaves its row in a state `Q`. -/
def ReservationOutcome (requestID : String) (Q : UserQuotaReservation → Prop) (w : Wallet)
    (result : Except Err Unit × Wallet) : Prop :=
  (∃ e, result = (.error e, w)) ∨
    ∃ k w', normalizeUserQuotaRequest requestID = .ok k ∧ result = (.ok (), w') ∧
      (w' = w ∨ Effect (some k) w w') ∧ ∃ row, w'.reservations.byKey k = some row ∧ Q row

section Outcome

variable (fault : Option Err) (requestID : String) (userID : Int) (w : Wallet)

theorem reserveUserQuota_outcome (quota : Int) (sourceType : String) (now : Int) :
    ReservationOutcome requestID
      (fun row => row.status = .active ∧ row.userId = userID ∧
        ∀ k, normalizeUserQuotaRequest requestID = .ok k → w.reservations.byKey k = none →
          row.reservedQuota = quota) w
      (reserveUserQuota fault requestID userID quota sourceType now w) := by
  refine (checked_transaction_cases _ fault _ w).imp_right ?_
  rintro ⟨⟨k, source⟩, ⟨⟩, w', hargs, hbody, he⟩
  simp only [ok_iff, Prod.mk.injEq, not_or, not_le] at hargs
  obtain ⟨_, hk, ⟨hi, hq⟩, _, hsource, rfl, rfl⟩ := hargs
  obtain ⟨heff, row, hrow, hstatus, huser, hquota⟩ := reserveUserQuotaTx_effect
    (normalizeUserQuotaRequest_idem hk) (normalizeUserQuotaSource_idem hsource) hi hq hbody
  refine ⟨_, w', hk, he, heff, row, hrow, hstatus, huser, fun k' hk' hnone => hquota ?_⟩
  obtain rfl := Except.ok.inj (hk.symm.trans hk')
  exact hnone

theorem resizeUserQuotaReservation_outcome (targetQuota now : Int) :
    ReservationOutcome requestID
      (fun row => row.status = .active ∧ row.userId = userID ∧ row.reservedQuota = targetQuota) w
      (resizeUserQuotaReservation fault requestID userID targetQuota now w) := by
  refine (checked_transaction_cases _ fault _ w).imp_right ?_
  rintro ⟨k, ⟨⟩, w', hargs, hbody, he⟩
  simp only [ok_iff, not_or, not_le, not_lt] at hargs
  obtain ⟨_, hk, ⟨-, htarget⟩, rfl⟩ := hargs
  exact ⟨_, w', hk, he, resizeUserQuotaReservationTx_effect htarget hbody⟩

theorem settleUserQuotaReservation_outcome (actualQuota : Int) (sourceType : String) :
    ReservationOutcome requestID
      (fun row => row.status = .settled ∧ row.userId = userID ∧
        normalizeUserQuotaSource sourceType = .ok row.sourceType ∧ row.settledQuota = actualQuota) w
      (settleUserQuotaReservation fault requestID userID actualQuota sourceType w) := by
  refine (checked_transaction_cases _ fault _ w).imp_right ?_
  rintro ⟨⟨k, source⟩, ⟨⟩, w', hargs, hbody, he⟩
  simp only [ok_iff, Prod.mk.injEq, not_or, not_le, not_lt] at hargs
  obtain ⟨_, hk, ⟨hi, hactual⟩, _, hsource, rfl, rfl⟩ := hargs
  obtain ⟨heff, row, hrow, hstatus, huser, hrsource, hquota⟩ :=
    settleUserQuotaReservationTx_effect (normalizeUserQuotaRequest_idem hk)
      (normalizeUserQuotaSource_idem hsource) hi hactual hbody
  exact ⟨_, w', hk, he, heff, row, hrow, hstatus, huser, hrsource ▸ hsource, hquota⟩

theorem refundUserQuotaReservation_outcome (remark : String) :
    ReservationOutcome requestID (fun row => row.status = .refunded ∧ row.userId = userID) w
      (refundUserQuotaReservation fault requestID userID remark w) := by
  refine (checked_transaction_cases _ fault _ w).imp_right ?_
  rintro ⟨k, ⟨⟩, w', hargs, hbody, he⟩
  simp only [ok_iff, not_le] at hargs
  obtain ⟨_, hk, -, rfl⟩ := hargs
  exact ⟨_, w', hk, he, refundUserQuotaReservationTx_effect hbody⟩

end Outcome

end Prox
