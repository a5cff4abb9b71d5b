import Prox.Wallet.Accounting

/-! # The journal as a history

The journal grows at its end only, one entry at a time, and each entry was covered when it was
written: read from its beginning, it never overdraws a balance. -/

namespace Prox

open List Table

/-- The sum of the entries of a user in a part of the journal. -/
def entriesOf (i : Int) (entries : List UserQuotaTransaction) : Int :=
  ((entries.filter fun t => t.userId = i).map UserQuotaTransaction.deltaQuota).sum

/-- No part of the journal from its beginning overdraws a balance of the wallet `w₀`. -/
def Wallet.Solvent (w₀ w : Wallet) : Prop :=
  ∀ entries, entries <+: w.transactions.rows →
    ∀ i q, w₀.balance i = some q → 0 ≤ q + entriesOf i entries

variable {request : Option String} {w₀ w w' : Wallet}

/-- The whole journal leads to the balances, which are covered. -/
theorem Balanced.covers_rows (h : Balanced w₀ w) {i q : Int} (hq : w₀.balance i = some q) :
    0 ≤ q + entriesOf i w.transactions.rows := by
  have hbalance : w.balance i = some (q + entriesOf i w.transactions.rows) := by
    rw [h.balance, hq]
    rfl
  obtain ⟨u, hu, hquota⟩ := Option.map_eq_some_iff.mp hbalance
  exact hquota ▸ h.covered u (byId_eq_some.mp hu).1

theorem Effect.rows_prefix (h : Effect request w w') : w.transactions.rows <+: w'.transactions.rows := by
  obtain ⟨t, hpost⟩ := h.posting
  exact rows_of_create hpost.journal ▸ prefix_append _ _

/-- **Step lemma**: the only part of the journal that is new with an effect is the whole of it. -/
theorem Effect.solvent (h : Effect request w w') (hinv : Balanced w₀ w) (hsolvent : w₀.Solvent w) :
    w₀.Solvent w' := by
  obtain ⟨t, hpost⟩ := h.posting
  intro entries hentries i q hq
  rw [rows_of_create hpost.journal, prefix_concat_iff, ← rows_of_create hpost.journal] at hentries
  rcases hentries with rfl | hentries
  · exact (h.balanced hinv).covers_rows hq
  · exact hsolvent entries hentries i q hq

/-- **The journal is the history of the wallet.** Between two moments of a run, with any calls, replays
and faults, the journal is only continued, and no part of it from its beginning overdraws a balance. -/
theorem journal_is_history (w : Wallet) (hfresh : w.Fresh) (before after : List Event) :
    (run Wallet.step w before).transactions.rows
      <+: (run Wallet.step w (before ++ after)).transactions.rows ∧
    w.Solvent (run Wallet.step w (before ++ after)) := by
  constructor
  · rw [run_append]
    exact Wallet.run_keeps (I := fun w' => _ <+: w'.transactions.rows)
      (fun _ _ _ hpre heff => hpre.trans heff.rows_prefix) prefix_rfl after
  · have hinit : Balanced w w ∧ w.Solvent w := by
      refine ⟨hfresh.balanced, fun entries hentries i q hq => ?_⟩
      rw [hfresh.no_transactions, prefix_nil] at hentries
      rw [hentries, ← hfresh.no_transactions]
      exact hfresh.balanced.covers_rows hq
    exact (Wallet.run_keeps (I := fun w' => Balanced w w' ∧ w.Solvent w')
      (fun _ _ _ h heff => ⟨heff.balanced h.1, heff.solvent h.1 h.2⟩) hinit (before ++ after)).2

/-- A hold of 30 that is settled at 45, and then a refund that fails. -/
theorem journal_is_history_single :
    (Wallet.single 100).Solvent (run Wallet.step (Wallet.single 100)
      ([(Call.reserve "a" 1 30 "" 0).faultless, (Call.settle "a" 1 45 "").faultless] ++
        [(Call.refund "a" 1 "").faultless])) :=
  (journal_is_history _ (Wallet.single_fresh (by decide)) _ _).2

end Prox
