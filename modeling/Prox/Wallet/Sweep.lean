import Prox.Wallet.Maintenance

/-! # Poisoned sweeps

The sweep over the expired holds skips a row whose state has changed, but any other error ends it. A hold
whose user was deleted fails with another error, and since the rows come in the order of their expiry, it
comes first again in every later sweep. Until then a sweep refunds what it selects. The table of users holds
those that are not deleted. -/

namespace Prox

open List Option Table UserQuotaReservation

namespace Wallet

/-! ## One row -/

/-- The user of the hold is there. -/
def HasUser (w : Wallet) (r : UserQuotaReservation) : Prop := (w.users.byId r.userId).isSome = true
  deriving Decidable

/-- The hold can be refunded: its user is there, and neither its columns nor the journal are in the way. -/
structure Refundable (w : Wallet) (r : UserQuotaReservation) : Prop where
  user : w.HasUser r
  user_pos : 0 < r.userId
  quota_nonneg : 0 ≤ r.reservedQuota
  request : normalizeUserQuotaRequest r.requestId = .ok r.requestId
  journal : w.transactions.byKey (r.requestId ++ ":refund") = none

/-- The request id of the row is not normal and leads to a closed hold of the same user, which is skipped. -/
def Passed (w : Wallet) (r : UserQuotaReservation) : Prop :=
  0 < r.userId ∧ ∃ k, normalizeUserQuotaRequest r.requestId = .ok k ∧
    ∃ x, w.reservations.byKey k = some x ∧ x.userId = r.userId ∧ x.status ≠ .active

/-- The hold of the request is refunded. -/
def Refunded (w : Wallet) (k : String) : Prop := ∃ r, w.reservations.byKey k = some r ∧ r.status = .refunded

/-- What the refund of a hold changes. -/
structure Refund (w : Wallet) (x : UserQuotaReservation) (w' : Wallet) : Prop where
  users : ∀ i, (w'.users.byId i).isSome = (w.users.byId i).isSome
  reservations : ∃ x' : UserQuotaReservation, x'.status = .refunded ∧ x'.userId = x.userId ∧
    ∀ k, w'.reservations.byKey k = if x.requestId = k then some x' else w.reservations.byKey k
  transactions : ∀ k, x.requestId ++ ":refund" ≠ k → w'.transactions.byKey k = w.transactions.byKey k

/-- What the refund of a selected row comes to. -/
inductive Attempt (w : Wallet) (r : UserQuotaReservation) : Except Err Unit × Wallet → Prop
  | refunded {x : UserQuotaReservation} {w' : Wallet} (hx : x ∈ w.reservations.rows) (hactive : x.status = .active)
      (hkey : normalizeUserQuotaRequest r.requestId = .ok x.requestId) (huser : x.userId = r.userId)
      (hrefundable : w.Refundable x) (hrefund : w.Refund x w') : Attempt w r (.ok (), w')
  | passed {result : Except Err Unit} (hpassed : w.Passed r)
      (hresult : ∀ e, result = .error e → e.is .userQuotaReservationState = true) : Attempt w r (result, w)
  | stuck {e : Err} (he : e.is .userQuotaReservationState = false) (hpassed : ¬ w.Passed r)
      (hrefundable : r ∈ w.reservations.rows → r.status = .active → ¬ w.Refundable r) : Attempt w r (.error e, w)

variable {w w' : Wallet} {x r : UserQuotaReservation}

theorem isSome_byId_addQuota (i q j : Int) : ((w.addQuota i q).users.byId j).isSome = (w.users.byId j).isSome := by
  show ((w.users.updateWhere (fun u => u.id = i) (User.addQuota q)).1.byId j).isSome = _
  rw [byId_updateWhere, isSome_map]

/-- The refund of a hold that can be refunded. -/
theorem refundUserQuotaReservationTx_refundable {remark : String} (hx : x ∈ w.reservations.rows)
    (hactive : x.status = .active) (h : w.Refundable x) :
    ∃ w', refundUserQuotaReservationTx x.requestId x.userId remark w = .ok ((), w') ∧ w.Refund x w' := by
  obtain ⟨u, hu⟩ := isSome_iff_exists.mp h.user
  have hlock : lockUserQuotaReservationTx w x.requestId = .ok x :=
    lockUserQuotaReservationTx_eq_ok.mpr (byKey_eq_some.mpr ⟨hx, rfl⟩)
  have hcredit : creditUserQuotaTx w x.userId x.reservedQuota
      = .ok ((u.quota, u.quota + x.reservedQuota), w.addQuota x.userId x.reservedQuota) :=
    creditUserQuotaTx_eq_ok.mpr ⟨h.user_pos, h.quota_nonneg, u, hu, rfl, rfl, rfl⟩
  -- the row is as it was read, and the journal takes the entry
  have hone : ∀ f : Patch UserQuotaReservation, ((w.addQuota x.userId x.reservedQuota).reservations.updateWhere
      (fun r => r.id = x.id ∧ r.status = .active ∧ r.version = x.version) f).2 = 1 := fun f =>
    rowsAffected_eq_one hx (by simp [hactive]) fun y hy => (of_decide_eq_true hy).1
  obtain ⟨ts, hts⟩ := exists_create (t := w.transactions)
    (r := { id := w.transactions.nextId, userId := x.userId, reservationId := x.id, requestId := x.requestId,
            sourceType := x.sourceType, transactionType := "refund", deltaQuota := x.reservedQuota,
            balanceBefore := u.quota, balanceAfter := u.quota + x.reservedQuota,
            idempotencyKey := x.requestId ++ ":refund", remark := trimSpace remark }) rfl h.journal
  have hresult : refundUserQuotaReservationTx x.requestId x.userId remark w = .ok ((),
      { w.addQuota x.userId x.reservedQuota with
        reservations := (w.reservations.updateWhere
          (fun r => r.id = x.id ∧ r.status = .active ∧ r.version = x.version)
          (refund (u.quota + x.reservedQuota) (x.version + 1))).1,
        transactions := ts }) := by
    unfold refundUserQuotaReservationTx
    rw [hlock]
    simp only [bind, Except.bind, failIf, ne_eq, not_true_eq_false, if_false, hactive, reduceCtorEq, hcredit,
      updateActiveReservationTx, hone, createUserQuotaTransactionTx, Wallet.addQuota_transactions, pure,
      Except.pure, hts]
    rfl
  refine ⟨_, hresult, isSome_byId_addQuota _ _,
    ⟨(refund (u.quota + x.reservedQuota) (x.version + 1)).apply x, rfl, rfl, fun k => ?_⟩,
    fun k hk => ?_⟩
  · exact byKey_updateWhere_single hx (by simp [hactive]) (fun y hy => (of_decide_eq_true hy).1) k
  · exact (byKey_of_create hts k).trans (if_neg hk)

/-- The refund of a hold that cannot be refunded fails, and not because of its state. -/
theorem refundUserQuotaReservationTx_not_refundable {remark : String} (hx : x ∈ w.reservations.rows)
    (hactive : x.status = .active) (hpos : 0 < x.userId)
    (hrequest : normalizeUserQuotaRequest x.requestId = .ok x.requestId) (h : ¬ w.Refundable x) :
    ∃ e, refundUserQuotaReservationTx x.requestId x.userId remark w = .error e ∧
      e.is .userQuotaReservationState = false := by
  have hlock : lockUserQuotaReservationTx w x.requestId = .ok x :=
    lockUserQuotaReservationTx_eq_ok.mpr (byKey_eq_some.mpr ⟨hx, rfl⟩)
  unfold refundUserQuotaReservationTx
  rw [hlock]
  simp only [bind, Except.bind, failIf, ne_eq, not_true_eq_false, if_false, hactive, reduceCtorEq]
  cases hu : w.users.byId x.userId with
  | none =>
    -- the user was deleted
    by_cases hquota : 0 ≤ x.reservedQuota
    · refine ⟨.sentinel .recordNotFound, ?_, rfl⟩
      have hnot : ¬ (x.userId ≤ 0 ∨ x.reservedQuota < 0) := by omega
      simp only [creditUserQuotaTx, failIf, if_neg hnot, lockUserQuotaTx, hu]
      rfl
    · refine ⟨.text "user id must be positive and quota cannot be negative", ?_, rfl⟩
      have hneg : x.userId ≤ 0 ∨ x.reservedQuota < 0 := by omega
      simp only [creditUserQuotaTx, failIf, if_pos hneg]
      rfl
  | some u =>
    by_cases hquota : 0 ≤ x.reservedQuota
    · have hcredit : creditUserQuotaTx w x.userId x.reservedQuota
          = .ok ((u.quota, u.quota + x.reservedQuota), w.addQuota x.userId x.reservedQuota) :=
        creditUserQuotaTx_eq_ok.mpr ⟨hpos, hquota, u, hu, rfl, rfl, rfl⟩
      have hone : ∀ f : Patch UserQuotaReservation, ((w.addQuota x.userId x.reservedQuota).reservations.updateWhere
          (fun r => r.id = x.id ∧ r.status = .active ∧ r.version = x.version) f).2 = 1 := fun f =>
        rowsAffected_eq_one hx (by simp [hactive]) fun y hy => (of_decide_eq_true hy).1
      -- all that is left to be in the way is the journal
      obtain ⟨t, ht⟩ : ∃ t, w.transactions.byKey (x.requestId ++ ":refund") = some t := by
        refine ne_none_iff_exists'.mp fun hnone => h ⟨?_, hpos, hquota, hrequest, hnone⟩
        exact isSome_iff_exists.mpr ⟨u, hu⟩
      have hcreate : w.transactions.create
          { id := w.transactions.nextId, userId := x.userId, reservationId := x.id, requestId := x.requestId,
            sourceType := x.sourceType, transactionType := "refund", deltaQuota := x.reservedQuota,
            balanceBefore := u.quota, balanceAfter := u.quota + x.reservedQuota,
            idempotencyKey := x.requestId ++ ":refund", remark := trimSpace remark } = none :=
        (create_eq_none rfl).mpr ⟨t, ht⟩
      refine ⟨.sentinel .duplicatedKey, ?_, rfl⟩
      simp only [hcredit, updateActiveReservationTx, bind, Except.bind, failIf, hone, ne_eq, not_true_eq_false,
        if_false, createUserQuotaTransactionTx, Wallet.addQuota_transactions, pure, Except.pure, hcreate]
      rfl
    · refine ⟨.text "user id must be positive and quota cannot be negative", ?_, rfl⟩
      have hneg : x.userId ≤ 0 ∨ x.reservedQuota < 0 := by omega
      simp only [creditUserQuotaTx, failIf, if_pos hneg]
      rfl

/-- **What the refund of a row comes to**: the hold that its request id leads to decides. -/
theorem refundUserQuotaReservation_attempt (w : Wallet) (r : UserQuotaReservation) (remark : String) :
    w.Attempt r (refundUserQuotaReservation none r.requestId r.userId remark w) := by
  unfold refundUserQuotaReservation
  cases hkey : normalizeUserQuotaRequest r.requestId with
  | error e =>
    have he : e.is .userQuotaReservationState = false := by
      rcases bind_eq_error.mp hkey with hfail | ⟨_, -, hok⟩
      · unfold failIf at hfail
        split at hfail
        · cases hfail
          rfl
        · cases hfail
      · cases hok
    refine .stuck he (fun hpassed => ?_) fun _ _ hrefundable => ?_
    · obtain ⟨-, k, hk, -⟩ := hpassed
      rw [hkey] at hk
      cases hk
    · have hk := hrefundable.request
      rw [hkey] at hk
      cases hk
  | ok k =>
    have hself : r ∈ w.reservations.rows → w.Refundable r → w.reservations.byKey k = some r := by
      intro hr hrefundable
      obtain rfl : k = r.requestId := Except.ok.inj (hkey.symm.trans hrefundable.request)
      exact byKey_eq_some.mpr ⟨hr, rfl⟩
    by_cases hpos : r.userId ≤ 0
    · simp only [bind, Except.bind, failIf, if_pos hpos]
      refine .stuck rfl (fun hpassed => ?_) fun _ _ hrefundable => ?_
      · have hlt := hpassed.1
        omega
      · have hlt := hrefundable.user_pos
        omega
    have hpos : 0 < r.userId := not_le.mp hpos
    simp only [bind, Except.bind, failIf, if_neg (not_le.mpr hpos)]
    show w.Attempt r (transaction none (refundUserQuotaReservationTx k r.userId remark) w)
    cases hx : w.reservations.byKey k with
    | none =>
      have hbody : refundUserQuotaReservationTx k r.userId remark w = .error (.sentinel .recordNotFound) := by
        simp only [refundUserQuotaReservationTx, lockUserQuotaReservationTx, hx]
        rfl
      rw [transaction_error hbody]
      refine .stuck rfl (fun hpassed => ?_) fun hr _ hrefundable => ?_
      · obtain ⟨-, k', hk', x, hx', -⟩ := hpassed
        obtain rfl : k = k' := Except.ok.inj (hkey.symm.trans hk')
        rw [hx] at hx'
        cases hx'
      · rw [hself hr hrefundable] at hx
        cases hx
    | some x =>
      obtain ⟨hmem, hxk⟩ := byKey_eq_some.mp hx
      obtain rfl : x.requestId = k := hxk
      have hsame : ∀ {k' y}, normalizeUserQuotaRequest r.requestId = .ok k' → w.reservations.byKey k' = some y →
          y = x := by
        intro k' y hk' hy
        obtain rfl : x.requestId = k' := Except.ok.inj (hkey.symm.trans hk')
        exact mem_unique hy hx
      have hlock : lockUserQuotaReservationTx w x.requestId = .ok x := lockUserQuotaReservationTx_eq_ok.mpr hx
      by_cases huser : x.userId = r.userId
      swap
      · have hbody : refundUserQuotaReservationTx x.requestId r.userId remark w
            = .error (.wrap .userQuotaReservationConflict s!"request_id={x.requestId}") := by
          simp [refundUserQuotaReservationTx, hlock, bind, Except.bind, failIf, ne_eq, huser]
        rw [transaction_error hbody]
        refine .stuck rfl (fun hpassed => ?_) fun hr _ hrefundable => ?_
        · obtain ⟨-, k', hk', y, hy, hyuser, -⟩ := hpassed
          rw [hsame hk' hy] at hyuser
          exact huser hyuser
        · obtain rfl : r = x := Option.some.inj ((hself hr hrefundable).symm.trans hx)
          exact huser rfl
      cases hstatus : x.status with
      | refunded =>
        have hbody : refundUserQuotaReservationTx x.requestId r.userId remark w = .ok ((), w) := by
          simp only [refundUserQuotaReservationTx, hlock, bind, Except.bind, failIf, ne_eq, huser, not_true_eq_false,
            if_false, hstatus, if_true]
          rfl
        rw [transaction_ok hbody]
        exact .passed ⟨hpos, _, hkey, x, hx, huser, by simp [hstatus]⟩ (fun e he => by cases he)
      | settled =>
        have hbody : refundUserQuotaReservationTx x.requestId r.userId remark w
            = .error (.wrap .userQuotaReservationState s!"status={x.status.text} request_id={x.requestId}") := by
          simp [refundUserQuotaReservationTx, hlock, bind, Except.bind, failIf, ne_eq, huser,
              hstatus, reduceCtorEq, not_false_eq_true]
        rw [transaction_error hbody]
        refine .passed ⟨hpos, _, hkey, x, hx, huser, by simp [hstatus]⟩ fun e he => ?_
        cases he
        rfl
      | active =>
        by_cases hrefundable : w.Refundable x
        · obtain ⟨w', hbody, hrefund⟩ := refundUserQuotaReservationTx_refundable hmem hstatus
            hrefundable
          rw [huser] at hbody
          rw [transaction_ok hbody]
          exact .refunded hmem hstatus hkey huser hrefundable hrefund
        · obtain ⟨e, hbody, he⟩ := refundUserQuotaReservationTx_not_refundable hmem hstatus
            (huser ▸ hpos) (normalizeUserQuotaRequest_idem hkey) hrefundable
          rw [huser] at hbody
          rw [transaction_error hbody]
          refine .stuck he (fun hpassed => ?_) fun hr _ hr' => ?_
          · obtain ⟨-, k', hk', y, hy, -, hne⟩ := hpassed
            rw [hsame hk' hy] at hne
            exact hne hstatus
          · obtain rfl : r = x := Option.some.inj ((hself hr hr').symm.trans hx)
            exact hrefundable hr'

/-! ## What a refund keeps -/

namespace Refund

variable (h : w.Refund x w')

include h

theorem hasUser : w'.HasUser r ↔ w.HasUser r := by
  unfold HasUser
  rw [h.users]

theorem byKey {k : String} (hne : x.requestId ≠ k) :
    w'.reservations.byKey k = w.reservations.byKey k := by
  obtain ⟨x', -, -, hbyKey⟩ := h.reservations
  rw [hbyKey, if_neg hne]

/-- The hold is refunded. -/
theorem refunded : w'.Refunded x.requestId := by
  obtain ⟨x', hstatus, -, hbyKey⟩ := h.reservations
  exact ⟨x', by rw [hbyKey, if_pos rfl], hstatus⟩

/-- Another row is where it was. -/
theorem mem (hne : x.requestId ≠ r.requestId) (hr : r ∈ w.reservations.rows) :
    r ∈ w'.reservations.rows := by
  have hbyKey : w.reservations.byKey r.requestId = some r := byKey_eq_some.mpr ⟨hr, rfl⟩
  exact (byKey_eq_some.mp ((h.byKey hne).trans hbyKey)).1

/-- Whether another hold can be refunded does not change. -/
theorem refundable (hne : x.requestId ≠ r.requestId) : w'.Refundable r ↔ w.Refundable r := by
  have hkey : x.requestId ++ ":refund" ≠ r.requestId ++ ":refund" := by
    intro heq
    have hlist := congrArg String.toList heq
    rw [String.toList_append, String.toList_append] at hlist
    exact hne (String.toList_inj.mp (append_cancel_right hlist))
  have hjournal := h.transactions _ hkey
  constructor
  · rintro ⟨huser, hpos, hquota, hrequest, hnone⟩
    exact ⟨h.hasUser.mp huser, hpos, hquota, hrequest, hjournal ▸ hnone⟩
  · rintro ⟨huser, hpos, hquota, hrequest, hnone⟩
    exact ⟨h.hasUser.mpr huser, hpos, hquota, hrequest, hjournal.trans hnone⟩

/-- Nor does it change which rows without a user are skipped: they lead to holds of that user. -/
theorem passed (hx : x ∈ w.reservations.rows) (huser : w.HasUser x) (hr : ¬ w.HasUser r) :
    w'.Passed r ↔ w.Passed r := by
  have hother : x.userId ≠ r.userId := by
    intro heq
    unfold HasUser at huser hr
    rw [heq] at huser
    exact hr huser
  obtain ⟨x', -, hx', hbyKey⟩ := h.reservations
  refine and_congr_right fun _ => exists_congr fun k => and_congr_right fun _ => ?_
  by_cases hk : x.requestId = k
  · have hold : w.reservations.byKey k = some x := hk ▸ byKey_eq_some.mpr ⟨hx, rfl⟩
    rw [hbyKey, if_pos hk, hold]
    constructor
    · rintro ⟨y, hy, hyuser, -⟩
      obtain rfl := Option.some.inj hy
      exact absurd (hx'.symm.trans hyuser) hother
    · rintro ⟨y, hy, hyuser, -⟩
      obtain rfl := Option.some.inj hy
      exact absurd hyuser hother
  · rw [hbyKey, if_neg hk]

end Refund

/-! ## The sweep -/

/-- The state after the head of the selection. -/
theorem refundSelected_cons (faults : Nat → Option Err) (n : Nat) (r : UserQuotaReservation)
    (rows : List UserQuotaReservation) (w : Wallet) :
    (refundSelected faults n (r :: rows) w).2
      = match refundUserQuotaReservation (faults n) r.requestId r.userId "expired wallet reservation refunded" w with
        | (.ok (), w') => (refundSelected faults (n + 1) rows w').2
        | (.error e, w') =>
          if e.is .userQuotaReservationState then (refundSelected faults (n + 1) rows w').2 else w' := by
  rw [refundSelected]
  rcases refundUserQuotaReservation (faults n) r.requestId r.userId "expired wallet reservation refunded" w with
    ⟨e | ⟨⟩, w'⟩
  · dsimp only
    split <;> rfl
  · rfl

/-- What every refund of a hold keeps, the sweep keeps. -/
theorem refundSelected_keeps {I : Wallet → Prop} (hrefund : ∀ w x w', I w → x ∈ w.reservations.rows →
    x.status = .active → w.Refundable x → w.Refund x w' → I w') (rows : List UserQuotaReservation) (n : Nat)
    (hI : I w) : I (refundSelected (fun _ => none) n rows w).2 := by
  induction rows generalizing n w with
  | nil => exact hI
  | cons r rows ih =>
    rw [refundSelected_cons]
    have hattempt := refundUserQuotaReservation_attempt w r "expired wallet reservation refunded"
    generalize refundUserQuotaReservation none r.requestId r.userId "expired wallet reservation refunded" w
      = result at hattempt
    cases hattempt with
    | refunded hx hactive hkey huser hrefundable h => exact ih (n + 1) (hrefund w _ _ hI hx hactive hrefundable h)
    | @passed result hpassed hresult =>
      cases result with
      | ok _ => exact ih (n + 1) hI
      | error e =>
        dsimp only
        rw [if_pos (hresult e rfl)]
        exact ih (n + 1) hI
    | stuck he =>
      dsimp only
      rw [if_neg (by simp [he])]
      exact hI

/-- A refund is final. -/
theorem Refunded.sweep {k : String} (h : w.Refunded k) (rows : List UserQuotaReservation) (n : Nat) :
    (refundSelected (fun _ => none) n rows w).2.Refunded k := by
  refine refundSelected_keeps (I := (·.Refunded k)) (fun w x w' hk hx hactive _ hrefund => ?_) rows n h
  obtain ⟨y, hy, hstatus⟩ := hk
  refine ⟨y, ?_, hstatus⟩
  rw [hrefund.byKey fun heq => ?_]
  · exact hy
  · -- the hold under the key would be active
    have hxk : w.reservations.byKey k = some x := heq ▸ byKey_eq_some.mpr ⟨hx, rfl⟩
    obtain rfl : x = y := mem_unique hxk hy
    rw [hactive] at hstatus
    cases hstatus

/-- A hold that cannot be refunded is still active after the sweep. -/
theorem not_refunded_of_not_refundable (hr : r ∈ w.reservations.rows) (hactive : r.status = .active)
    (h : ¬ w.Refundable r) (rows : List UserQuotaReservation) (n : Nat) :
    ¬ (refundSelected (fun _ => none) n rows w).2.Refunded r.requestId := by
  have hkept : r ∈ (refundSelected (fun _ => none) n rows w).2.reservations.rows ∧
      ¬ (refundSelected (fun _ => none) n rows w).2.Refundable r := by
    refine refundSelected_keeps (I := fun w => r ∈ w.reservations.rows ∧ ¬ w.Refundable r) ?_ rows n ⟨hr, h⟩
    rintro w x w' ⟨hmem, hnot⟩ hx - hrefundable hrefund
    have hne : x.requestId ≠ r.requestId := by
      intro heq
      have hsame : x = r := Option.some.inj ((byKey_eq_some.mpr ⟨hx, heq⟩).symm.trans
        (byKey_eq_some.mpr ⟨hmem, rfl⟩))
      exact hnot (hsame ▸ hrefundable)
    exact ⟨hrefund.mem hne hmem, fun hr' => hnot ((hrefund.refundable hne).mp hr')⟩
  rintro ⟨y, hy, hstatus⟩
  have hself := byKey_eq_some.mpr ⟨hkept.1, rfl⟩
  obtain rfl : r = y := mem_unique hself hy
  rw [hactive] at hstatus
  cases hstatus

/-- The selected rows are active holds, each of its own request. -/
structure Selected (w : Wallet) (rows : List UserQuotaReservation) : Prop where
  mem : ∀ r ∈ rows, r ∈ w.reservations.rows ∧ r.status = .active
  nodup : (rows.map UserQuotaReservation.requestId).Nodup

/-- **The sweep of a selection**: of the holds that can be refunded, those are refunded that come before the
first row that ends the sweep. -/
theorem refundSelected_refunds_iff {rows : List UserQuotaReservation} (n : Nat) (hrows : w.Selected rows)
    (hrefundable : ∀ r ∈ rows, w.HasUser r → w.Refundable r) :
    (∀ r ∈ rows, w.HasUser r → (refundSelected (fun _ => none) n rows w).2.Refunded r.requestId) ↔
      rows.Pairwise fun x y => ¬ w.HasUser x → w.HasUser y → w.Passed x := by
  induction rows generalizing n w with
  | nil => simp
  | cons r rows ih =>
    obtain ⟨⟨hr, hactive⟩, hmem⟩ := forall_mem_cons.mp hrows.mem
    obtain ⟨hrself, hrest⟩ := forall_mem_cons.mp hrefundable
    obtain ⟨hnotin, hnodup⟩ := nodup_cons.mp hrows.nodup
    have hne : ∀ y ∈ rows, r.requestId ≠ y.requestId := fun y hy heq => hnotin (heq ▸ List.mem_map_of_mem hy)
    have hattempt := refundUserQuotaReservation_attempt w r "expired wallet reservation refunded"
    rw [refundSelected_cons, forall_mem_cons, pairwise_cons]
    generalize refundUserQuotaReservation none r.requestId r.userId "expired wallet reservation refunded" w
      = result at hattempt
    cases hattempt with
    | @refunded x w' hx hx' hkey huserx hrefundablex h =>
      -- the row has its user, so it is the hold that it leads to
      have huser : w.HasUser r := by
        have hxuser := hrefundablex.user
        unfold HasUser at hxuser ⊢
        rwa [huserx] at hxuser
      have hid : r.requestId = x.requestId := Except.ok.inj ((hrself huser).request.symm.trans hkey)
      obtain rfl : r = x := Option.some.inj ((byKey_eq_some.mpr ⟨hr, hid⟩).symm.trans
        (byKey_eq_some.mpr ⟨hx, rfl⟩))
      have hselected : w'.Selected rows := ⟨fun y hy => ⟨h.mem (hne y hy) (hmem y hy).1, (hmem y hy).2⟩, hnodup⟩
      have hstep := ih (n + 1) hselected fun y hy hy' =>
        (h.refundable (hne y hy)).mpr (hrest y hy (h.hasUser.mp hy'))
      have hpair : (rows.Pairwise fun x y => ¬ w'.HasUser x → w'.HasUser y → w'.Passed x) ↔
          rows.Pairwise fun x y => ¬ w.HasUser x → w.HasUser y → w.Passed x := by
        refine List.Pairwise.iff fun {a b} => ?_
        rw [h.hasUser, h.hasUser]
        exact forall_congr' fun ha => forall_congr' fun _ => h.passed hx huser ha
      rw [hpair] at hstep
      simp only [h.hasUser] at hstep
      constructor
      · rintro ⟨-, htail⟩
        exact ⟨fun y _ hnot => absurd huser hnot, hstep.mp htail⟩
      · rintro ⟨-, htail⟩
        exact ⟨fun _ => h.refunded.sweep rows (n + 1), hstep.mpr htail⟩
    | @passed result hpassed hresult =>
      -- a closed hold is skipped, and an active row with its user leads to itself
      have hnone : ¬ w.HasUser r := by
        intro huser
        obtain ⟨-, k, hk, y, hy, -, hclosed⟩ := hpassed
        obtain rfl : r.requestId = k := Except.ok.inj ((hrself huser).request.symm.trans hk)
        obtain rfl : r = y := Option.some.inj ((byKey_eq_some.mpr ⟨hr, rfl⟩).symm.trans hy)
        exact hclosed hactive
      have hstep := ih (n + 1) ⟨hmem, hnodup⟩ hrest
      have hnext : ∀ w', (match ((result, w) : Except Err Unit × Wallet) with
          | (.ok (), w') => (refundSelected (fun _ => none) (n + 1) rows w').2
          | (.error e, w') => if e.is .userQuotaReservationState
            then (refundSelected (fun _ => none) (n + 1) rows w').2 else w') = w' →
          w' = (refundSelected (fun _ => none) (n + 1) rows w).2 := by
        rintro w' rfl
        cases result with
        | ok _ => rfl
        | error e => exact if_pos (hresult e rfl)
      rw [hnext _ rfl, ← hstep]
      constructor
      · rintro ⟨-, htail⟩
        exact ⟨fun y _ _ _ => hpassed, htail⟩
      · rintro ⟨-, htail⟩
        exact ⟨fun huser => absurd huser hnone, htail⟩
    | @stuck e he hpassed hnot =>
      -- the sweep ends here
      have hnone : ¬ w.HasUser r := fun huser => hnot hr hactive (hrself huser)
      dsimp only
      rw [if_neg (by simp [he])]
      constructor
      · rintro ⟨-, htail⟩
        have hgone : ∀ y ∈ rows, ¬ w.HasUser y := by
          intro y hy huser
          obtain ⟨z, hz, hstatus⟩ := htail y hy huser
          obtain rfl : y = z := Option.some.inj ((byKey_eq_some.mpr ⟨(hmem y hy).1, rfl⟩).symm.trans hz)
          rw [(hmem y hy).2] at hstatus
          cases hstatus
        exact ⟨fun y hy _ huser => absurd huser (hgone y hy),
          pairwise_of_forall_mem_list fun a _ b hb _ huser => absurd huser (hgone b hb)⟩
      · rintro ⟨hhead, -⟩
        refine ⟨fun huser => absurd huser hnone, fun y hy huser => ?_⟩
        exact absurd (hhead y hy hnone huser) hpassed

/-- What a sweep selects. -/
theorem selectExpired_selected (w : Wallet) (now limit : Int) : w.Selected (selectExpired w now limit) := by
  have hperm := perm_insertionSort expiresBefore
    (w.reservations.rows.filter (expired now))
  constructor
  · intro r hr
    obtain ⟨hmem, hexpired⟩ := mem_filter.mp (hperm.mem_iff.mp (mem_of_mem_take hr))
    simp only [expired, decide_eq_true_eq] at hexpired
    exact ⟨hmem, hexpired.1⟩
  · have hkeys : ((w.reservations.rows.filter (expired now)).map
        requestId).Nodup :=
      w.reservations.key_nodup.sublist (filter_sublist.map _)
    exact ((hperm.map _).nodup_iff.mpr hkeys).sublist ((take_sublist _ _).map _)

end Wallet

/-- **A sweep refunds every hold whose user is there** exactly when no hold without a user stands before one
with a user, and the holds of users who are there can be refunded. -/
theorem refundExpiredUserQuotaReservations_refunds_iff (w : Wallet) (now limit : Int) :
    (∀ r ∈ selectExpired w now limit, w.HasUser r →
      (refundExpiredUserQuotaReservations (fun _ => none) now limit w).2.Refunded r.requestId) ↔
    (∀ r ∈ selectExpired w now limit, w.HasUser r → w.Refundable r) ∧
      (selectExpired w now limit).Pairwise fun x y => ¬ w.HasUser x → w.HasUser y → w.Passed x := by
  have hselected := w.selectExpired_selected now limit
  unfold refundExpiredUserQuotaReservations
  constructor
  · intro h
    have hrefundable : ∀ r ∈ selectExpired w now limit, w.HasUser r → w.Refundable r := by
      intro r hr huser
      obtain ⟨hmem, hactive⟩ := hselected.mem r hr
      by_contra hnot
      exact Wallet.not_refunded_of_not_refundable hmem hactive hnot _ _ (h r hr huser)
    exact ⟨hrefundable, (Wallet.refundSelected_refunds_iff 1 hselected hrefundable).mp h⟩
  · rintro ⟨hrefundable, hpair⟩
    exact (Wallet.refundSelected_refunds_iff 1 hselected hrefundable).mpr hpair

/-- The hold of user `2`, who was deleted, expired before that of user `1`. -/
def poisonedWallet : Wallet where
  users := (Wallet.ofUser 5 "").users
  reservations := ⟨[
    { id := 1, requestId := "a", userId := 2, sourceType := "api_billing", initialQuota := 10,
      reservedQuota := 10, status := .active, expiresAt := 100 },
    { id := 2, requestId := "b", userId := 1, sourceType := "api_billing", initialQuota := 20,
      reservedQuota := 20, status := .active, expiresAt := 200 }], by decide, by decide, by decide⟩
  transactions := .empty

/-- **A deleted user stops the sweep**, and the hold of the other user stays active. -/
theorem deleted_user_stops_the_sweep :
    ¬ ∀ (w : Wallet) (now limit : Int), ∀ r ∈ selectExpired w now limit, w.HasUser r →
      (refundExpiredUserQuotaReservations (fun _ => none) now limit w).2.Refunded r.requestId := by
  intro h
  obtain ⟨r, hr, huser, hactive⟩ : ∃ r ∈ selectExpired poisonedWallet 1000 0, poisonedWallet.HasUser r ∧
      (refundExpiredUserQuotaReservations (fun _ => none) 1000 0 poisonedWallet).2.reservations.byKey r.requestId
        = some r := by decide +kernel
  obtain ⟨r', hr', hstatus⟩ := h poisonedWallet 1000 0 r hr huser
  obtain rfl := mem_unique hactive hr'
  have hopen := (poisonedWallet.selectExpired_selected 1000 0).mem r hr
  rw [hopen.2] at hstatus
  cases hstatus

end Prox
