import Prox.Wallet.Accounting

/-! # Terminal reservations

A settled or refunded reservation is absorbing: no later call on reservations changes its row or its
journal entries, the matching replay succeeds and every other call that names it fails. The argument
is short because every change goes through `Effect`: an effect opens a request whose key is free or
moves an active one, so it never touches a terminal row. -/

namespace Prox

attribute [local irreducible] trimSpace

/-- The journal entries of a request: those that carry its id or refer to its reservation. -/
def Wallet.journalRows (w : Wallet) (k : String) (id : Int) : List UserQuotaTransaction :=
  w.transactions.rows.filter (fun t => t.requestId = k ∨ t.reservationId = id)

/-- The calls that repeat what already happened to a terminal reservation: settling it with the same
user, source and quota, or refunding it for the same user. -/
def Call.replays (row : UserQuotaReservation) : Call → Prop
  | .settle _ userID actualQuota sourceType =>
    row.status = .settled ∧ userID = row.userId ∧
      normalizeUserQuotaSource sourceType = .ok row.sourceType ∧ actualQuota = row.settledQuota
  | .refund _ userID _ => row.status = .refunded ∧ userID = row.userId
  | _ => False

/-! ## Effects leave terminal rows alone -/

namespace Effect

variable {request : Option String} {w w' : Wallet} {k : String} {row : UserQuotaReservation}

/-- The reservation an effect touches is not a terminal one. -/
theorem request_ne (h : Effect request w w') (hrow : w.reservations.byKey k = some row)
    (hterminal : row.status ≠ .active) : request ≠ some k := by
  rintro rfl
  cases h with
  | direct _ hreq => cases hreq
  | opened r _ hreq _ _ _ _ _ hres =>
    have hfree := Table.byKey_none_of_create hres
    have : k = r.requestId := Option.some.inj hreq
    rw [this] at hrow
    exact absurd (hrow.symm.trans hfree) (by simp)
  | moved r _ _ hreq _ _ _ hr hactive =>
    have hr' : w.reservations.byKey k = some r :=
      Table.byKey_eq_some.mpr ⟨hr, (Option.some.inj hreq).symm⟩
    rw [hrow] at hr'
    exact hterminal (Option.some.inj hr' ▸ hactive)

/-- An effect keeps the rows of the requests it does not touch. -/
theorem byKey_of_ne (h : Effect request w w') (hne : request ≠ some k) :
    w'.reservations.byKey k = w.reservations.byKey k := by
  cases h with
  | direct _ _ _ _ hres => rw [hres]
  | opened r _ hreq _ _ _ _ _ hres =>
    rw [Table.byKey_of_create hres]
    exact if_neg fun h => hne (hreq.trans (congrArg some h))
  | moved r _ _ hreq _ _ _ _ _ _ _ hres =>
    rw [hres]
    exact if_neg fun h => hne (hreq.trans (congrArg some h))

/-- An effect on a stored request keeps the identity of its row. -/
theorem sameHold (h : Effect (some k) w w') (hrow : w.reservations.byKey k = some row) :
    ∃ row', w'.reservations.byKey k = some row' ∧ row.SameHold row' := by
  cases h with
  | direct _ hreq => cases hreq
  | opened r _ hreq _ _ _ _ _ hres =>
    have hfree := Table.byKey_none_of_create hres
    rw [Option.some.inj hreq] at hrow
    exact absurd (hrow.symm.trans hfree) (by simp)
  | moved r r' _ hreq _ _ _ hr _ hsame _ hres =>
    have hk : r.requestId = k := (Option.some.inj hreq).symm
    obtain rfl : row = r := by
      rw [Table.byKey_eq_some.mpr ⟨hr, hk⟩] at hrow
      exact (Option.some.inj hrow).symm
    exact ⟨r', by rw [hres, if_pos hk], hsame⟩

/-- An effect on another reservation adds no entry to the journal of a stored one. -/
theorem journalRows_of_ne {k' : String} (h : Effect (some k') w w') (hne : k' ≠ k)
    (hrow : w.reservations.byKey k = some row) :
    w'.journalRows k row.id = w.journalRows k row.id := by
  obtain ⟨hmem, hkey⟩ := Table.byKey_eq_some.mp hrow
  -- the entry belongs to a reservation with another request id and hence another primary key
  have key : ∀ (r : UserQuotaReservation) (t : UserQuotaTransaction), Posting w w' t → t.IsFor r →
      r.requestId = k' → r.id ≠ row.id → w'.journalRows k row.id = w.journalRows k row.id := by
    intro r t hpost href hk' hid
    have ht : ¬ (t.requestId = k ∨ t.reservationId = row.id) := by
      rw [href.requestId_eq, href.reservationId_eq, hk', not_or]
      exact ⟨hne, hid⟩
    rw [Wallet.journalRows, Table.rows_of_create hpost.journal]
    simp [ht, Wallet.journalRows]
  cases h with
  | direct _ hreq => cases hreq
  | opened r t hreq hpost href _ _ hid _ =>
    refine key r t hpost href (Option.some.inj hreq).symm ?_
    have := Table.id_lt_nextId hmem
    rw [hid]
    exact this.ne'
  | moved r _ t hreq hpost href _ hr =>
    refine key r t hpost href (Option.some.inj hreq).symm fun hid => hne ?_
    rw [Option.some.inj hreq, Table.eq_of_id_eq hr hmem hid]
    exact hkey

end Effect

/-! ## Calls on a terminal reservation -/

variable {k : String} {w : Wallet} {row : UserQuotaReservation}

/-- A call on a terminal reservation fails and changes nothing, or finds it in the state the call
asks for. -/
theorem ReservationOutcome.of_terminal {requestID : String} {Q : UserQuotaReservation → Prop}
    {result : Except Err Unit × Wallet} (h : ReservationOutcome requestID Q w result)
    (hk : (normalizeUserQuotaRequest requestID).toOption = some k)
    (hrow : w.reservations.byKey k = some row) (hterminal : row.status ≠ .active) :
    (errorOf result.1 ≠ none ∧ result.2 = w) ∨ Q row := by
  obtain ⟨e, rfl⟩ | ⟨k', w', hk', rfl, heff, row', hrow', hQ⟩ := h
  · exact .inl ⟨by simp, rfl⟩
  · right
    obtain rfl : k' = k := by rw [hk'] at hk; exact Option.some.inj hk
    have hkept : w'.reservations.byKey k' = some row := by
      rcases heff with rfl | heff
      · exact hrow
      · rw [heff.byKey_of_ne (heff.request_ne hrow hterminal), hrow]
    rw [hkept] at hrow'
    exact Option.some.inj hrow' ▸ hQ

/-- Every call that names a terminal reservation and is not its replay fails without effect. -/
theorem Call.exec_of_not_replays {c : Call} (hk : c.requestId = some k)
    (hrow : w.reservations.byKey k = some row) (hterminal : row.status ≠ .active)
    (hc : ¬ c.replays row) (faults : Nat → Option Err) :
    (c.exec faults w).1 ≠ none ∧ (c.exec faults w).2 = w := by
  cases c with
  | reserve requestID userID quota sourceType now =>
    rw [Call.exec, outcome_fst, outcome_snd]
    refine ((reserveUserQuota_outcome (faults 0) requestID userID w quota sourceType
      now).of_terminal hk hrow hterminal).resolve_right fun h => hterminal h.1
  | resize requestID userID targetQuota now =>
    rw [Call.exec, outcome_fst, outcome_snd]
    refine ((resizeUserQuotaReservation_outcome (faults 0) requestID userID w targetQuota
      now).of_terminal hk hrow hterminal).resolve_right fun h => hterminal h.1
  | settle requestID userID actualQuota sourceType =>
    rw [Call.exec, outcome_fst, outcome_snd]
    refine ((settleUserQuotaReservation_outcome (faults 0) requestID userID w actualQuota
      sourceType).of_terminal hk hrow hterminal).resolve_right fun h => hc ?_
    exact ⟨h.1, h.2.1.symm, h.2.2.1, h.2.2.2.symm⟩
  | refund requestID userID remark =>
    rw [Call.exec, outcome_fst, outcome_snd]
    refine ((refundUserQuotaReservation_outcome (faults 0) requestID userID w
      remark).of_terminal hk hrow hterminal).resolve_right fun h => hc ?_
    exact ⟨h.1, h.2.symm⟩
  | refundExpired now limit => cases hk
  | applyMutation mutation => cases hk
  | setBalance userID targetQuota requestID sourceType remark => cases hk

/-- The replay of a terminal reservation succeeds and changes nothing. -/
theorem Call.exec_of_replays {c : Call} (hk : c.requestId = some k)
    (hrow : w.reservations.byKey k = some row) (hwf : row.WellFormed) (hc : c.replays row) :
    c.exec (fun _ => none) w = (none, w) := by
  have hnormal : ∀ {raw : String}, (normalizeUserQuotaRequest raw).toOption = some k →
      normalizeUserQuotaRequest raw = .ok k := by
    intro raw h
    cases hr : normalizeUserQuotaRequest raw <;> simp_all [Except.toOption]
  cases c with
  | settle requestID userID actualQuota sourceType =>
    obtain ⟨hsettled, rfl, hsource, rfl⟩ := hc
    have hguard : ¬ (row.userId ≤ 0 ∨ row.settledQuota < 0) := by
      have := hwf.userId_pos
      have := hwf.settled_nonneg
      omega
    simp [Call.exec, settleUserQuotaReservation, checked, transaction, hnormal hk, hsource, hguard,
        settleUserQuotaReservationTx, hrow, settleStoredReservationTx, hsettled, outcome, failIf,
        bind, Except.bind, pure, Except.pure]
  | refund requestID userID remark =>
    obtain ⟨hrefunded, rfl⟩ := hc
    have hguard : ¬ row.userId ≤ 0 := by
      have := hwf.userId_pos
      omega
    simp [Call.exec, refundUserQuotaReservation, checked, transaction, hnormal hk, hguard,
      refundUserQuotaReservationTx, lockUserQuotaReservationTx, hrow, hrefunded, outcome, errorOf,
      failIf, bind, Except.bind, pure, Except.pure]
  | _ => exact hc.elim

/-! ## Runs -/

/-- A terminal row survives every run, direct mutations included. -/
theorem Wallet.run_keeps_terminal_row (hrow : w.reservations.byKey k = some row)
    (hterminal : row.status ≠ .active) (events : List Event) :
    (run Wallet.step w events).reservations.byKey k = some row := by
  refine Wallet.run_keeps (I := fun w => w.reservations.byKey k = some row) ?_ hrow events
  intro request a b ha heff
  rw [heff.byKey_of_ne (heff.request_ne ha hterminal), ha]

/-- Calls on reservations also keep the journal entries of a terminal row. -/
theorem Wallet.run_keeps_terminal_journal (hrow : w.reservations.byKey k = some row)
    (hterminal : row.status ≠ .active) {events : List Event}
    (hevents : ∀ e ∈ events, e.call.onReservations) :
    (run Wallet.step w events).journalRows k row.id = w.journalRows k row.id := by
  refine (Wallet.run_keeps_onReservations
    (I := fun w' => w'.reservations.byKey k = some row ∧
      w'.journalRows k row.id = w.journalRows k row.id) ?_ ⟨hrow, rfl⟩ hevents).2
  rintro k' a b ⟨ha, hja⟩ heff
  have hne := heff.request_ne ha hterminal
  refine ⟨by rw [heff.byKey_of_ne hne, ha], ?_⟩
  rw [heff.journalRows_of_ne (fun h => hne (congrArg some h)) ha, hja]

end Prox
