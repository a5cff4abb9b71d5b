import Prox.Wallet.Terminal

/-! # Requests that were served but not settled

A settlement above the hold needs the balance to cover the excess. When it does not, the settlement
fails, its callers only log the error, and the hold stays active, so that the expiry sweep later
returns all of it. This module proves when a served request keeps its charge, and exhibits the run in
which it does not. -/

namespace Prox

/-! ## Why a settlement fails -/

/-- A debit reports insufficient funds only when the balance is below it. -/
theorem debitUserQuotaTx_insufficient {w : Wallet} {i q : Int} {e : Err}
    (h : debitUserQuotaTx w i q = .error e) (he : e.is .userQuotaInsufficient) :
    ∃ u, w.users.byId i = some u ∧ u.quota < q := by
  simp only [debitUserQuotaTx, bind_eq_error, failIf_eq_error, ok_iff, lockUserQuotaTx_eq_ok] at h
  obtain ⟨-, rfl⟩ | ⟨-, hlock | ⟨u, hu, h⟩⟩ := h
  · cases he
  · unfold lockUserQuotaTx at hlock
    split at hlock
    · cases hlock; cases he
    · cases hlock
  · refine ⟨u, hu, ?_⟩
    split at h
    · cases h
    · simp only [bind_eq_error, failIf_eq_error, ok_iff, pure_ne_error, or_false, and_false] at h
      obtain ⟨hlt, -⟩ | ⟨hle, hrows, -⟩ := h
      · exact hlt
      · -- the locked row meets the condition of the update
        obtain ⟨hcongr, hone⟩ := updateWhere_user hu (c := fun x => q ≤ x.quota) (not_lt.mp hle)
          (User.addQuota (-q))
        rw [hcongr] at hrows
        exact absurd hone hrows

/-- A credit never reports insufficient funds. -/
theorem creditUserQuotaTx_sufficient {w : Wallet} {i q : Int} {e : Err}
    (h : creditUserQuotaTx w i q = .error e) : e.is .userQuotaInsufficient = false := by
  simp only [creditUserQuotaTx, bind_eq_error, failIf_eq_error, ok_iff, lockUserQuotaTx_eq_ok] at h
  obtain ⟨-, rfl⟩ | ⟨-, hlock | ⟨u, hu, h⟩⟩ := h
  · rfl
  · unfold lockUserQuotaTx at hlock
    split at hlock
    · cases hlock; rfl
    · cases hlock
  · split at h
    · cases h
    · simp only [bind_eq_error, failIf_eq_error, ok_iff, pure_ne_error, or_false, and_false] at h
      obtain ⟨-, rfl⟩ := h
      rfl

/-- The settlement of an active hold reports insufficient funds only when the balance does not cover
the excess over the hold. -/
theorem settleStoredReservationTx_insufficient {w : Wallet} {r : UserQuotaReservation}
    {k source : String} {i actual : Int} {e : Err} (hactive : r.status = .active)
    (h : settleStoredReservationTx r k i actual source w = .error e)
    (he : e.is .userQuotaInsufficient) :
    ∃ u, w.users.byId r.userId = some u ∧ u.quota < actual - r.reservedQuota := by
  simp only [settleStoredReservationTx, bind_eq_error, failIf_eq_error, ok_iff, hactive, not_or,
      not_not, pure_ne_error, and_false, or_false, exists_false] at h
  obtain ⟨-, rfl⟩ | ⟨⟨hi, -⟩, hmove | ⟨⟨⟨b, a⟩, w₁⟩, -, hrest⟩⟩ := h
  · cases he
  · split at hmove
    · rw [creditUserQuotaTx_sufficient hmove] at he
      cases he
    · obtain ⟨u, hu, hlt⟩ := debitUserQuotaTx_insufficient hmove he
      exact ⟨u, hi ▸ hu, by omega⟩
  · obtain hupdate | ⟨w₂, -, hcreate⟩ := hrest
    · simp only [updateActiveReservationTx, bind_eq_error, failIf_eq_error, pure_ne_error,
        and_false, exists_false, or_false] at hupdate
      obtain ⟨-, rfl⟩ := hupdate
      cases he
    · unfold createUserQuotaTransactionTx at hcreate
      split at hcreate
      · cases hcreate; cases he
      · cases hcreate

/-- The same for the exported operation, on a request with an active hold. -/
theorem settleUserQuotaReservation_insufficient {w : Wallet} {r : UserQuotaReservation}
    {requestID k source : String} {i actual : Int} {e : Err}
    (hk : normalizeUserQuotaRequest requestID = .ok k) (hr : w.reservations.byKey k = some r)
    (hactive : r.status = .active)
    (h : (settleUserQuotaReservation none requestID i actual source w).1 = .error e)
    (he : e.is .userQuotaInsufficient) :
    ∃ u, w.users.byId r.userId = some u ∧ u.quota < actual - r.reservedQuota := by
  rcases checked_transaction_eq_error h with hargs | ⟨⟨k', source'⟩, hargs, hbody⟩
  · -- argument errors are plain texts
    simp only [hk, bind_eq_error, failIf_eq_error, failIf_eq_ok, exists_const, pure_ne_error,
      and_false, or_false, reduceCtorEq, false_or, Except.ok.injEq] at hargs
    obtain ⟨_, rfl, ⟨-, rfl⟩ | ⟨-, hsource⟩⟩ := hargs
    · cases he
    · simp only [normalizeUserQuotaSource] at hsource
      split at hsource
      · cases hsource
      · simp only [bind_eq_error, failIf_eq_error, pure_ne_error, and_false, exists_false,
          or_false] at hsource
        obtain ⟨-, rfl⟩ := hsource
        cases he
  · simp only [hk, bind_eq_ok, failIf_eq_ok, exists_const, pure_eq_ok, Except.ok.injEq,
      Prod.mk.injEq] at hargs
    obtain ⟨_, rfl, -, _, -, rfl, rfl⟩ := hargs
    simp only [settleUserQuotaReservationTx, hr] at hbody
    exact settleStoredReservationTx_insufficient hactive hbody he

/-! ## When a served request keeps its charge -/

/-- What request `k` has cost its user so far: minus the sum of its journal entries. -/
def Wallet.netCharge (w : Wallet) (row : UserQuotaReservation) : Int := -w.journalFor row.id

/-- **A settled request stays charged.** In a reachable state a request holds `h > 0`, and its
settlement with quota `a` succeeds or is refused for lack of funds. When the balance covers the
excess `a - h`, every later run leaves the net charge of the request at `a`, hence at least
`min a h`. -/
theorem served_request_charged (w : Wallet) (hfresh : w.Fresh) (before after : List Event)
    (k requestID source : String) (i a : Int) (row : UserQuotaReservation)
    (hk : normalizeUserQuotaRequest requestID = .ok k)
    (hrow : (run Wallet.step w before).reservations.byKey k = some row)
    (hactive : row.status = .active)
    (houtcome : ∀ e, ((Call.settle requestID i a source).exec (fun _ => none)
      (run Wallet.step w before)).1 = some e → e.is .userQuotaInsufficient)
    (hcovers : ∀ q, (run Wallet.step w before).balance row.userId = some q →
      a - row.reservedQuota ≤ q) :
    min a row.reservedQuota ≤ (run Wallet.step w
      (before ++ (Call.settle requestID i a source).faultless :: after)).netCharge row := by
  have hbal := hfresh.run_balanced (before ++ (Call.settle requestID i a source).faultless :: after)
  rw [run_append, run_cons] at hbal ⊢
  generalize hs : run Wallet.step w before = s at *
  obtain ⟨row', hrow', hsettled, hid⟩ : ∃ row',
      (s.step (Call.settle requestID i a source).faultless).reservations.byKey k = some row' ∧
        (row'.status = .settled ∧ row'.settledQuota = a) ∧ row'.id = row.id := by
    have hout := settleUserQuotaReservation_outcome none requestID i s a source
    rw [Wallet.step, Call.faultless, Call.exec]
    obtain ⟨e, he⟩ | ⟨k', w', hk', he, heff, row', hrow', hQ⟩ := hout
    · -- the only error the call may return is excluded by the covered excess
      have hinsufficient := houtcome e (by rw [Call.exec, he]; rfl)
      obtain ⟨u, hu, hlt⟩ := settleUserQuotaReservation_insufficient hk hrow hactive
        (by rw [he]) hinsufficient
      have := hcovers u.quota (by rw [Wallet.balance, hu]; rfl)
      omega
    · obtain rfl : k' = k := by rw [hk'] at hk; exact Except.ok.inj hk
      rw [he]
      refine ⟨row', hrow', ⟨hQ.1, hQ.2.2.2⟩, ?_⟩
      rcases heff with rfl | heff
      · rw [hrow] at hrow'
        have := hQ.1
        rw [← Option.some.inj hrow', hactive] at this
        cases this
      · obtain ⟨row'', hrow'', hsame⟩ := heff.sameHold hrow
        rw [hrow'] at hrow''
        rw [Option.some.inj hrow'', hsame.id_eq]
  have hfinal := Wallet.run_keeps_terminal_row hrow' (by rw [hsettled.1]; decide) after
  have hledger := hbal.ledger row' (Table.byKey_eq_some.mp hfinal).1
  rw [Wallet.netCharge, ← hid, hledger, UserQuotaReservation.charge, hsettled.1, neg_neg]
  simp only [hsettled.2]
  exact min_le_left _ _

/-- A hold of 30 settled at 45 out of a balance of 100, followed by an expiry sweep. -/
theorem served_request_charged_single :
    ∃ row, (run Wallet.step (Wallet.single 100)
        [(Call.reserve "a" 1 30 "" 0).faultless]).reservations.byKey "a" = some row ∧
      row.status = .active ∧ row.reservedQuota = 30 ∧
      min 45 row.reservedQuota ≤ (run Wallet.step (Wallet.single 100)
        ([(Call.reserve "a" 1 30 "" 0).faultless] ++ (Call.settle "a" 1 45 "").faultless ::
          [(Call.refundExpired 9000 0).faultless])).netCharge row :=
  ⟨{ id := 1, requestId := "a", userId := 1, sourceType := "api_billing", initialQuota := 30,
      reservedQuota := 30, status := .active, balanceAfter := 70, expiresAt := 7200 },
    by decide +kernel, rfl, rfl,
    served_request_charged _ (Wallet.single_fresh (by decide)) _ _ "a" "a" "" 1 45 _
      (by decide +kernel) (by decide +kernel) rfl
      (fun e he => by
        have hok : ((Call.settle "a" 1 45 "").exec (fun _ => none) (run Wallet.step
          (Wallet.single 100) [(Call.reserve "a" 1 30 "" 0).faultless])).1 = none := by
            decide +kernel
        cases hok.symm.trans he)
      (fun q hq => by
        have hbal : (run Wallet.step (Wallet.single 100)
          [(Call.reserve "a" 1 30 "" 0).faultless]).balance 1 = some 70 := by decide +kernel
        obtain rfl : 70 = q := Option.mem_unique hbal hq
        decide)⟩

/-- **A served request can end up free.** A request holds the whole balance of 100 and completes at
150. Its settlement fails because nothing is left to cover the excess of 50, and the next expiry
sweep returns the hold: the net charge is 0 although `min 150 100 = 100`. -/
theorem served_request_becomes_free :
    ¬ ∀ (w : Wallet), w.Fresh → ∀ (before after : List Event) (k requestID source : String)
      (i a : Int) (row : UserQuotaReservation),
      normalizeUserQuotaRequest requestID = .ok k →
      (run Wallet.step w before).reservations.byKey k = some row →
      row.status = .active → 0 < row.reservedQuota →
      (∀ e, ((Call.settle requestID i a source).exec (fun _ => none)
        (run Wallet.step w before)).1 = some e → e.is .userQuotaInsufficient) →
      min a row.reservedQuota ≤ (run Wallet.step w
        (before ++ (Call.settle requestID i a source).faultless :: after)).netCharge row := by
  intro h
  have hsettle : ((Call.settle "a" 1 150 "").exec (fun _ => none) (run Wallet.step
      (Wallet.single 100) [(Call.reserve "a" 1 100 "" 0).faultless])).1
      = some (.wrap .userQuotaInsufficient "balance=0 required=50 user_id=1") := by
    decide +kernel
  have hcharge := h (Wallet.single 100) (Wallet.single_fresh (by decide))
    [(Call.reserve "a" 1 100 "" 0).faultless] [(Call.refundExpired 7200 0).faultless] "a" "a" "" 1 150
    { id := 1, requestId := "a", userId := 1, sourceType := "api_billing", initialQuota := 100,
      reservedQuota := 100, status := .active, balanceAfter := 0, expiresAt := 7200 }
    (by decide +kernel) (by decide +kernel) rfl (by decide)
    (fun e he => by cases hsettle.symm.trans he; rfl)
  exact absurd hcharge (by decide +kernel)

end Prox
