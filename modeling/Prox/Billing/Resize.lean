import Prox.Billing.Agreement

/-! # When a resize goes through

A resize of a hold can only move a row that is there. These are the two directions for the wallet and
for a subscription: what a successful resize says about the row it found and leaves, and what is
enough for it to succeed, an active row, a source that covers the difference and a free journal key
for the next version. -/

namespace Prox

open List Table

/-! ## Resizing a reservation -/

/-- The journal key of the resize that produces a version. -/
def reservationResizeKey (requestID : String) (version : Int) : String :=
  s!"{requestID}:resize:{version}"

theorem toList_reservationResizeKey (k : String) (n : Nat) :
    (reservationResizeKey k n).toList = k.toList ++ (":resize:".toList ++ Nat.toDigits 10 n) := by
  have hn : toString (n : Int) = Nat.repr n := rfl
  rw [reservationResizeKey, hn, ← append_assoc]
  simp only [String.toList_append, Nat.toList_repr]
  rfl

variable {k : String}

/-- Different versions have different keys. -/
theorem reservationResizeKey_injective {v v' : Int} (hv : 0 ≤ v) (hv' : 0 ≤ v')
    (h : reservationResizeKey k v = reservationResizeKey k v') : v = v' := by
  obtain ⟨n, rfl⟩ := Int.eq_ofNat_of_zero_le hv
  obtain ⟨n', rfl⟩ := Int.eq_ofNat_of_zero_le hv'
  have hlist := congrArg String.toList h
  rw [toList_reservationResizeKey, toList_reservationResizeKey, append_cancel_left_eq,
    append_cancel_left_eq] at hlist
  have hdigits := congrArg (fun l => Nat.ofDigitChars 10 l 0) hlist
  simp only [Nat.ofDigitChars_ten_toDigits] at hdigits
  rw [hdigits]

/-- The update of an active reservation that is stored goes through. -/
theorem updateActiveReservationTx_isOk {w : Wallet} {r : UserQuotaReservation}
    (patch : Patch UserQuotaReservation) (what k : String) (hr : r ∈ w.reservations.rows)
    (hactive : r.status = .active) :
    ∃ w', updateActiveReservationTx w r patch what k = .ok w' ∧
      w'.transactions = w.transactions := by
  have hone : (w.reservations.updateWhere
      (fun x => x.id = r.id ∧ x.status = .active ∧ x.version = r.version) patch).2 = 1 :=
    rowsAffected_eq_one hr (by simp [hactive]) fun x hx => (of_decide_eq_true hx).1
  refine ⟨{ w with reservations := (w.reservations.updateWhere
    (fun x => x.id = r.id ∧ x.status = .active ∧ x.version = r.version) patch).1 }, ?_, rfl⟩
  simp only [updateActiveReservationTx, bind_eq_ok, failIf_eq_ok, exists_const, not_not]
  exact ⟨hone, rfl⟩

/-- What a successful resize leaves: the row was there and active, and either it stood at the target
already or it moved on to the next version, under the key of that version. -/
theorem resizeUserQuotaReservationTx_spec {w w' : Wallet} {i target now : Int}
    (h : resizeUserQuotaReservationTx k i target now w = .ok ((), w')) :
    ∃ r, w.reservations.byKey k = some r ∧ r.userId = i ∧ r.status = .active ∧
      ((r.reservedQuota = target ∧ w' = w) ∨
        ∃ after t, w'.reservations.byKey k
            = some ((UserQuotaReservation.resize target after (r.version + 1)
                (now + userQuotaReservationTTL)).apply r) ∧
          t.idempotencyKey = reservationResizeKey k (r.version + 1) ∧
          w.transactions.create t = some w'.transactions ∧
          (w'.users.byId i).isSome ∧
          ∃ u, w.users.byId i = some u ∧
            (target - r.reservedQuota ≤ 0 ∨ target - r.reservedQuota ≤ u.quota)) := by
  simp only [resizeUserQuotaReservationTx, ok_iff, not_not, lockUserQuotaReservationTx_eq_ok] at h
  obtain ⟨r, hr, hi, hactive, h⟩ := h
  refine ⟨r, hr, hi, hactive, ?_⟩
  split at h
  · next htarget =>
    simp only [pure_eq_ok, Prod.mk.injEq, true_and] at h
    exact .inl ⟨htarget, h.symm⟩
  · simp only [ok_iff, Prod.mk.injEq, true_and, Prod.exists] at h
    obtain ⟨b, a, w₁, hmove, w₂, hupdate, w₃, hpost, rfl⟩ := h
    obtain ⟨hrmem, hrk⟩ := byKey_eq_some.mp hr
    have hm : Moved w i (r.reservedQuota - target) b a w₁ :=
      debit_or_credit_moved (c := 0 < target - r.reservedQuota) (by simpa using hmove)
    have hres₁ : w₁.reservations = w.reservations := by rw [hm.result]; rfl
    have hts₁ : w₁.transactions = w.transactions := by rw [hm.result]; rfl
    have huser : (w₁.users.byId i).isSome := by
      obtain ⟨u, hu, -⟩ := hm.user
      rw [hm.result, Wallet.byId_addQuota, hu]
      rfl
    obtain ⟨husers₂, hts₂, hrows⟩ := updateActiveReservationTx_eq_ok (hres₁ ▸ hrmem) hactive hupdate
    obtain ⟨ts, hts, rfl⟩ := createUserQuotaTransactionTx_eq_ok.mp hpost
    rw [hts₂, hts₁] at hts
    have hcovers : ∃ u, w.users.byId i = some u ∧
        (target - r.reservedQuota ≤ 0 ∨ target - r.reservedQuota ≤ u.quota) := by
      obtain ⟨u, hu, -⟩ := hm.user
      refine ⟨u, hu, ?_⟩
      split at hmove
      · obtain ⟨-, -, u', hu', hle, -⟩ := debitUserQuotaTx_eq_ok.mp hmove
        obtain rfl := Option.mem_unique hu hu'
        omega
      · exact .inl (by omega)
    refine .inr ⟨a, _, (hrows k).trans (if_pos hrk), rfl, hts, ?_, hcovers⟩
    rw [husers₂]
    exact huser

/-- A resize of an active row goes through when the user exists and covers an increase and the key of
the next version is free. -/
theorem resizeUserQuotaReservationTx_isOk {w : Wallet} {i target now : Int}
    {r : UserQuotaReservation} {u : User} (hr : w.reservations.byKey k = some r) (hi : r.userId = i)
    (hpos : 0 < i) (hactive : r.status = .active) (hu : w.users.byId i = some u)
    (havail : target - r.reservedQuota ≤ 0 ∨ target - r.reservedQuota ≤ u.quota)
    (hkey : w.transactions.byKey (reservationResizeKey k (r.version + 1)) = none) :
    ∃ w', resizeUserQuotaReservationTx k i target now w = .ok ((), w') := by
  by_cases hsame : r.reservedQuota = target
  · refine ⟨w, ?_⟩
    simp only [resizeUserQuotaReservationTx, ok_iff, not_not, lockUserQuotaReservationTx_eq_ok]
    exact ⟨r, hr, hi, hactive, by rw [if_pos hsame]; rfl⟩
  obtain ⟨hrmem, -⟩ := byKey_eq_some.mp hr
  -- the balance moves by the difference, whichever its sign
  have hmove : ∃ b a w₁, (if 0 < target - r.reservedQuota
        then debitUserQuotaTx w i (target - r.reservedQuota)
        else creditUserQuotaTx w i (-(target - r.reservedQuota))) = .ok ((b, a), w₁) ∧
      w₁.reservations = w.reservations ∧ w₁.transactions = w.transactions := by
    split
    · next hlt =>
      exact ⟨_, _, _, debitUserQuotaTx_eq_ok.mpr ⟨hpos, hlt.le, u, hu, .inr (by omega), rfl, rfl,
        rfl⟩, rfl, rfl⟩
    · exact ⟨_, _, _, creditUserQuotaTx_eq_ok.mpr ⟨hpos, by omega, u, hu, rfl, rfl, rfl⟩, rfl, rfl⟩
  obtain ⟨b, a, w₁, hmove, hres₁, hts₁⟩ := hmove
  obtain ⟨w₂, hupdate, hts₂⟩ := updateActiveReservationTx_isOk
    (UserQuotaReservation.resize target a (r.version + 1) (now + userQuotaReservationTTL)) "resize" k
    (hres₁ ▸ hrmem) hactive
  obtain ⟨ts, hts⟩ := exists_create (t := w₂.transactions)
    (r := { id := w₂.transactions.nextId, userId := i, reservationId := r.id, requestId := k
            sourceType := r.sourceType, transactionType := "resize"
            deltaQuota := -(target - r.reservedQuota), balanceBefore := b, balanceAfter := a
            idempotencyKey := reservationResizeKey k (r.version + 1)
            remark := s!"wallet reservation resized to {target}" }) rfl
    (by rw [hts₂, hts₁]; exact hkey)
  refine ⟨{ w₂ with transactions := ts }, ?_⟩
  simp only [resizeUserQuotaReservationTx, ok_iff, not_not, lockUserQuotaReservationTx_eq_ok]
  refine ⟨r, hr, hi, hactive, ?_⟩
  rw [if_neg hsame]
  simp only [bind_eq_ok, Prod.exists]
  exact ⟨b, a, w₁, hmove, w₂, hupdate, { w₂ with transactions := ts },
    createUserQuotaTransactionTx_eq_ok.mpr ⟨ts, hts, rfl⟩, rfl⟩

/-! ## Resizing a pre-consumption -/

variable {db : SubscriptionDB}

/-- The update of a stored record goes through. -/
theorem updateRecordTx_isOk {r : SubscriptionPreConsumeRecord} {status : PreConsumeStatus}
    (patch : Patch SubscriptionPreConsumeRecord) (err : Err) (hr : r ∈ db.records.rows)
    (hstatus : r.status = status) : ∃ db', updateRecordTx db r status patch err = .ok db' := by
  have hone : (db.records.updateWhere
      (fun x => x.id = r.id ∧ x.status = status ∧ x.version = r.version) patch).2 = 1 :=
    rowsAffected_eq_one hr (by simp [hstatus]) fun x hx => (of_decide_eq_true hx).1
  refine ⟨{ db with records := (db.records.updateWhere
    (fun x => x.id = r.id ∧ x.status = status ∧ x.version = r.version) patch).1 }, ?_⟩
  simp only [updateRecordTx, bind_eq_ok, failIf_eq_ok, exists_const, not_not]
  exact ⟨hone, rfl⟩

/-- A mutation goes through when its arguments are accepted, the subscription is there and covers it,
and the key is free. -/
theorem applySubscriptionQuotaMutationTx_isOk {id delta : Int} {requestID type key : String}
    {x : UserSubscription} (hid : 0 < id) (hdelta : delta ≠ 0)
    (hreq : ¬ (trimSpace requestID = "" ∨ 128 < byteLen (trimSpace requestID)))
    (htype : ¬ (trimSpace type = "" ∨ 32 < byteLen (trimSpace type)))
    (hkey : ¬ (trimSpace key = "" ∨ 191 < byteLen (trimSpace key))) (hx : db.subs.byId id = some x)
    (hfree : db.journal.byKey (trimSpace key) = none)
    (hcovers : x.amountTotal ≤ 0 ∨ amountUsedAfter x.amountUsed delta ≤ x.amountTotal) :
    ∃ res, applySubscriptionQuotaMutationTx db id delta requestID type key = .ok res := by
  obtain ⟨hxmem, -⟩ := byId_eq_some.mp hx
  have hone : (db.subs.updateWhere (fun s => s.id = x.id ∧ s.amountUsed = x.amountUsed)
      (UserSubscription.setAmountUsed (amountUsedAfter x.amountUsed delta))).2 = 1 :=
    rowsAffected_eq_one hxmem (by simp) fun y hy => (of_decide_eq_true hy).1
  obtain ⟨journal, hjournal⟩ := exists_create (t := db.journal)
    (r := { id := db.journal.nextId, userSubscriptionId := x.id, userId := x.userId
            requestId := trimSpace requestID, transactionType := trimSpace type
            requestedDeltaQuota := delta
            deltaQuota := amountUsedAfter x.amountUsed delta - x.amountUsed
            amountUsedBefore := x.amountUsed
            amountUsedAfter := amountUsedAfter x.amountUsed delta
            idempotencyKey := trimSpace key }) rfl hfree
  simp only [applySubscriptionQuotaMutationTx, exists_bind_eq_ok, failIf_eq_ok, exists_const,
    lockUserSubscriptionTx_eq_ok]
  refine ⟨by omega, hreq, htype, hkey, x, hx, ?_⟩
  rw [hfree]
  simp only [exists_bind_eq_ok, failIf_eq_ok, exists_const]
  refine ⟨by omega, fun hne => hne.2 hone, ?_⟩
  rw [hjournal]
  exact ⟨_, rfl⟩

/-- The journal key of a resize is accepted: a request id has at most 128 bytes, and a version of 64
bits has no more than 20 digits. -/
theorem resizeKey_accepted {v : Int} (hk : byteLen k ≤ 128) (hv : 0 ≤ v) (hfits : v < 10 ^ 20) :
    ¬ (resizeKey k v = "" ∨ 191 < byteLen (resizeKey k v)) := by
  obtain ⟨n, rfl⟩ := Int.eq_ofNat_of_zero_le hv
  have htext : resizeKey k n
      = "subscription:" ++ k ++ ":resize:" ++ String.ofList (Nat.toDigits 10 n) := by
    apply String.toList_injective
    rw [toList_resizeKey]
    simp
  have hdigits : byteLen (String.ofList (Nat.toDigits 10 n)) ≤ 20 := by
    rw [byteLen_ofList_digits fun c hc => Nat.isDigit_of_mem_toDigits (by decide) (by decide) hc,
      Nat.length_toDigits_le_iff (by decide) (by decide)]
    omega
  have hlen : byteLen (resizeKey k n)
      = 13 + byteLen k + 8 + byteLen (String.ofList (Nat.toDigits 10 n)) := by
    rw [htext]
    simp only [byteLen, String.utf8ByteSize_append]
    rfl
  have hne : resizeKey k n ≠ "" := by
    intro hempty
    rw [hempty] at hlen
    have hzero : byteLen "" = 0 := rfl
    omega
  rw [not_or]
  exact ⟨hne, by omega⟩

theorem normalizeSubscriptionRequest_accepted {raw : String}
    (h : normalizeSubscriptionRequest raw = .ok k) : k ≠ "" ∧ byteLen k ≤ 128 := by
  simp only [normalizeSubscriptionRequest, ok_iff, not_or, not_lt] at h
  obtain ⟨⟨hne, hlen⟩, rfl⟩ := h
  exact ⟨hne, hlen⟩

/-- A resize of a consumed record goes through when the subscription is there and covers it and the
key of the next version is free. -/
theorem resizeSubscriptionPreConsumeTx_isOk {raw : String} {userID subID target : Int}
    {r : SubscriptionPreConsumeRecord} {x : UserSubscription}
    (hk : normalizeSubscriptionRequest raw = .ok k) (hr : db.records.byKey k = some r)
    (hown : r.userId = userID ∧ r.userSubscriptionId = subID) (hpos : 0 < subID)
    (hstatus : r.status = .consumed) (hx : db.subs.byId subID = some x)
    (hcovers : x.amountTotal ≤ 0 ∨
      amountUsedAfter x.amountUsed (target - r.preConsumed) ≤ x.amountTotal)
    (hfits : max r.version 1 + 1 < 10 ^ 20)
    (hfree : db.journal.byKey (resizeKey k (max r.version 1 + 1)) = none) :
    ∃ res, resizeSubscriptionPreConsumeTx k userID subID target db = .ok res := by
  have htrim := normalizeSubscriptionRequest_eq_ok hk
  obtain ⟨hne, hlen⟩ := normalizeSubscriptionRequest_accepted hk
  have hversion : (if r.version < 1 then 1 else r.version) + 1 = max r.version 1 + 1 := by
    split <;> omega
  simp only [resizeSubscriptionPreConsumeTx, exists_bind_eq_ok, failIf_eq_ok, exists_const, not_not,
    not_or, lockSubscriptionPreConsumeRecordTx_eq_ok]
  refine ⟨r, hr, hown, hstatus, ?_⟩
  by_cases hsame : r.preConsumed = target
  · rw [if_pos hsame]
    exact ⟨_, rfl⟩
  rw [if_neg hsame, hversion]
  simp only [exists_bind_eq_ok]
  obtain ⟨⟨applied, db₁⟩, hmutate⟩ : ∃ res, applySubscriptionQuotaMutationTx db subID
      (target - r.preConsumed) k "preconsume_resize"
      s!"subscription:{k}:resize:{max r.version 1 + 1}" = .ok res :=
    applySubscriptionQuotaMutationTx_isOk hpos (by omega)
      (by rw [htrim, not_or]; exact ⟨hne, by omega⟩) (by decide +kernel)
      (resizeKey_accepted hlen (by omega) hfits) hx hfree hcovers
  have hrecords := applySubscriptionQuotaMutationTx_records hmutate
  have hstored : r ∈ db₁.records.rows := hrecords ▸ (byKey_eq_some.mp hr).1
  obtain ⟨db₂, hupdate⟩ := updateRecordTx_isOk
    (SubscriptionPreConsumeRecord.resize target (max r.version 1 + 1))
    (.wrap .subscriptionPreConsumeState s!"concurrent resize request_id={k}") hstored hstatus
  exact ⟨(applied, db₁), hmutate, db₂, hupdate, _, rfl⟩

/-- What a successful resize leaves: the record was there and consumed, and either it stood at the
target already or it moved on to the next version, under the key of that version. -/
theorem resizeSubscriptionPreConsumeTx_spec {db' : SubscriptionDB} {userID subID target : Int}
    {x : Unit} (h : resizeSubscriptionPreConsumeTx k userID subID target db = .ok (x, db')) :
    ∃ r, db.records.byKey k = some r ∧ r.userId = userID ∧ r.userSubscriptionId = subID ∧
      r.status = .consumed ∧
      ((r.preConsumed = target ∧ db' = db) ∨
        (db'.records.byKey k
            = some ((SubscriptionPreConsumeRecord.resize target (max r.version 1 + 1)).apply r) ∧
          (∀ key, db.journal.byKey key = none → key ≠ resizeKey k (max r.version 1 + 1) →
            db'.journal.byKey key = none) ∧
          (db.journal.byKey (resizeKey k (max r.version 1 + 1)) = none →
            (∃ x, db.subs.byId subID = some x ∧ (x.amountTotal ≤ 0 ∨
              amountUsedAfter x.amountUsed (target - r.preConsumed) ≤ x.amountTotal)) ∧
            ∃ x, db'.subs.byId subID = some x ∧ 0 ≤ x.amountUsed ∧
              (0 < x.amountTotal → x.amountUsed ≤ x.amountTotal)))) := by
  have hversion : ∀ v : Int, (if v < 1 then 1 else v) + 1 = max v 1 + 1 := by
    intro v
    split <;> omega
  simp only [resizeSubscriptionPreConsumeTx, ok_iff, not_not, not_or,
      lockSubscriptionPreConsumeRecordTx_eq_ok, hversion] at h
  obtain ⟨r, hr, ⟨huser, hsub⟩, hstatus, h⟩ := h
  refine ⟨r, hr, huser, hsub, hstatus, ?_⟩
  split at h
  · next heq =>
    simp only [pure_eq_ok, Prod.mk.injEq, true_and] at h
    exact .inl ⟨heq, h.symm⟩
  · simp only [ok_iff, Prod.mk.injEq, true_and, Prod.exists] at h
    obtain ⟨applied, db₁, hmutate, db₂, hupdate, rfl⟩ := h
    have hrecords := applySubscriptionQuotaMutationTx_records hmutate
    have hdb₂ := updateRecordTx_eq_ok (hrecords ▸ (byKey_eq_some.mp hr).1) hstatus hupdate
    have hrow : db₂.records.byKey k
        = some ((SubscriptionPreConsumeRecord.resize target (max r.version 1 + 1)).apply r) := by
      rw [hdb₂]
      exact byKey_updateRecord (hrecords ▸ hr) _
    refine .inr ⟨hrow, ?_⟩
    have hsubs : db₂.subs = db₁.subs := by rw [hdb₂]
    have hjournal : db₂.journal = db₁.journal := by rw [hdb₂]
    rw [hsubs, hjournal]
    rcases applySubscriptionQuotaMutationTx_cases hmutate with
      ⟨-, rfl, t, ht, -, -, -, hkey⟩ | ⟨-, -, t, hpost, hid, -, -, hkey, hdelta⟩
    · refine ⟨fun key hfree _ => hfree, fun hfree => ?_⟩
      exact absurd hkey (byKey_eq_none.mp hfree t ht)
    · refine ⟨fun key hfree hne => ?_, fun _ => ?_⟩
      · rw [byKey_of_create hpost.journal]
        rw [if_neg fun heq => hne (heq.symm.trans hkey), hfree]
      · obtain ⟨x, hx, hafter, -, htotal⟩ := hpost.sub
        have hxid : x.id = t.userSubscriptionId := (byId_eq_some.mp hx).2
        refine ⟨⟨x, hid ▸ hx, ?_⟩, (UserSubscription.setAmountUsed t.amountUsedAfter).apply x, ?_, ?_,
          htotal⟩
        · rw [← hdelta, ← hafter]
          rcases le_or_gt x.amountTotal 0 with hunlimited | hlimited
          · exact .inl hunlimited
          · exact .inr (htotal hlimited)
        · rw [hpost.subs, ← hid, byId_updateWhere, hx]
          simp [hxid]
        · rw [hafter]
          exact amountUsedAfter_nonneg _ _

end Prox
