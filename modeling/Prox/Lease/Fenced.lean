import Mathlib.Algebra.Order.BigOperators.Group.List
import Prox.Lease.Claim

/-! # Leases are fenced

A completion or a failure goes through only for the owner and the token of the latest takeover, and a
completed run stays so, in every interleaving. That no token is returned twice, and none after a completion,
rests on the last statement of a claim: it reads the row again, and by then another call may have taken the
run over or completed it. -/

namespace Prox

open LeaseRow LeaseThread List Option Table

variable {κ σ : Type} [DecidableEq κ]

/-! ## Rows -/

/-- A table in which one row is replaced. -/
structure Replaces (t : Table (LeaseRow κ σ)) (row row' : LeaseRow κ σ) (t' : Table (LeaseRow κ σ)) :
    Prop where
  found : t.byKey row.key = some row
  id_eq : row'.id = row.id
  key_eq : row'.key = row.key
  byKey : ∀ k, t'.byKey k = if row.key = k then some row' else t.byKey k

section Rows

variable {t : Table (LeaseRow κ σ)}

/-- A row is found by its primary key and by its unique key alike. -/
theorem byId_of_byKey {k : κ} {row : LeaseRow κ σ} (h : t.byKey k = some row) : t.byId row.id = some row :=
  byId_eq_some.mpr ⟨(byKey_eq_some.mp h).1, rfl⟩

theorem key_of_byKey {k : κ} {row : LeaseRow κ σ} (h : t.byKey k = some row) : row.key = k :=
  (byKey_eq_some.mp h).2

/-- An update of the row with a primary key that matches replaces that row. -/
theorem replaces_updateWhere {p : LeaseRow κ σ → Bool} {f : Patch (LeaseRow κ σ)} {i : Int}
    (honly : ∀ x, p x = true → x.id = i) (h : (t.updateWhere p f).2 ≠ 0) :
    ∃ row, p row = true ∧ Replaces t row (f.apply row) (t.updateWhere p f).1 := by
  obtain ⟨row, hmem, hp⟩ := exists_of_rowsAffected_ne_zero h
  have hsingle := byKey_updateWhere_single (f := f) hmem hp fun x hx =>
    (honly x hx).trans (honly row hp).symm
  exact ⟨row, hp, byKey_eq_some.mpr ⟨hmem, rfl⟩, f.id_apply row, f.key_apply row, hsingle⟩

end Rows

/-! ## What a statement does -/

/-- A call that waits for a row has seen it, and a failure does not complete. -/
def LeaseThread.WellFormed (kind : LeaseKind σ) (t : Table (LeaseRow κ σ)) : LeaseThread κ σ → Prop
  | .takeover _ _ existing | .reread existing => ∃ row, t.byKey existing.key = some row ∧ row.id = existing.id
  | .fail _ status _ => status ≠ kind.completed
  | _ => True

/-- A call that has not begun with its statements. -/
def LeaseThread.Fresh (kind : LeaseKind σ) : LeaseThread κ σ → Prop
  | .insert .. | .claimed (.error _) | .complete _ | .released (.error _) => True
  | .fail _ status _ => status ≠ kind.completed
  | _ => False

/-- The call has taken the run over with the token and has not returned it. -/
def LeaseThread.pending (run : κ) (token : Int) : LeaseThread κ σ → Int
  | .reread existing => if existing.key = run ∧ existing.fencingToken + 1 = token then 1 else 0
  | _ => 0

/-- When the call reads its run again, the row still has the token of its takeover and is not completed. -/
def LeaseThread.Unmoved (kind : LeaseKind σ) (t : Table (LeaseRow κ σ)) : LeaseThread κ σ → Prop
  | .reread existing =>
    ∀ row ∈ t.byId existing.id, row.fencingToken = existing.fencingToken + 1 ∧ row.status ≠ kind.completed
  | _ => True

instance [DecidableEq σ] (kind : LeaseKind σ) (t : Table (LeaseRow κ σ)) :
    ∀ th : LeaseThread κ σ, Decidable (th.Unmoved kind t)
  | .reread existing => inferInstanceAs (Decidable (∀ row ∈ t.byId existing.id,
      row.fencingToken = existing.fencingToken + 1 ∧ row.status ≠ kind.completed))
  | .insert .. | .find .. | .takeover .. | .claimed _ | .complete _ | .fail .. | .released _ => .isTrue trivial

/-- What a step of a call does to the table and adds to the history. -/
inductive LeaseMove (kind : LeaseKind σ) (t : Table (LeaseRow κ σ)) :
    LeaseThread κ σ → LeaseThread κ σ → Table (LeaseRow κ σ) → List (LeaseEvent κ) → Prop where
  | quiet {th th'} (hwell : th'.WellFormed kind t) (hpending : ∀ run token, th'.pending run token = 0) :
    LeaseMove kind t th th' t []
  | inserted {c now row t'} (hcreate : t.create row = some t') (hstatus : row.status = kind.held)
    (howner : row.ownerId = c.ownerId) : LeaseMove kind t (.insert c now) (.claimed (.ok (row, true))) t'
      [.returned row.key row.fencingToken, .took row.key row.ownerId row.fencingToken]
  | took {c now existing row row' t'} (hrow : Replaces t row row' t') (hexisting : row.id = existing.id)
    (hkey : existing.key = row.key) (htoken : existing.fencingToken = row.fencingToken)
    (htoken' : row'.fencingToken = row.fencingToken + 1) (howner : row'.ownerId = c.ownerId)
    (hopen : row.status ≠ kind.completed) (hstatus : row'.status = kind.held) :
    LeaseMove kind t (.takeover c now existing) (.reread existing) t'
      [.took row.key row'.ownerId row'.fencingToken]
  | returned {existing row} (hrow : t.byKey existing.key = some row) (hid : row.id = existing.id) :
    LeaseMove kind t (.reread existing) (.claimed (.ok (row, true))) t [.returned row.key row.fencingToken]
  | completed {c row row' t'} (hrow : Replaces t row row' t') (hopen : row.status = kind.held)
    (howner : row'.ownerId = row.ownerId) (htoken : row'.fencingToken = row.fencingToken)
    (hstatus : row'.status = kind.completed) :
    LeaseMove kind t (.complete c) (.released (.ok true)) t'
      [.completed row.key row.ownerId row.fencingToken]
  | failed {c status lastError row row' t'} (hrow : Replaces t row row' t') (hopen : row.status = kind.held)
    (howner : row'.ownerId = row.ownerId) (htoken : row'.fencingToken = row.fencingToken)
    (hstatus : row'.status ≠ kind.completed) :
    LeaseMove kind t (.fail c status lastError) (.released (.ok true)) t'
      [.failed row.key row.ownerId row.fencingToken]

section Statement

variable [DecidableEq σ] {kind : LeaseKind σ} {t : Table (LeaseRow κ σ)} {th : LeaseThread κ σ}

omit [DecidableEq κ] in
/-- The row an update of a released lease matches is the one with its primary key. -/
theorem releasable_iff {c : LeaseRelease} {row : LeaseRow κ σ} :
    releasable kind c row = true ↔
      row.id = c.id ∧ row.ownerId = c.ownerId ∧ row.fencingToken = c.fencingToken ∧
        row.status = kind.held := by
  rw [releasable, decide_eq_true_eq]

/-- A statement that releases a lease updates nothing, or it replaces the held row of its owner and token. -/
theorem release_cases (kind : LeaseKind σ) (t : Table (LeaseRow κ σ)) (c : LeaseRelease) (f : Patch (LeaseRow κ σ)) :
    ((t.updateWhere (releasable kind c) f).2 = 0 ∧
      (t.updateWhere (releasable kind c) f).1 = t) ∨
    ∃ row, (t.updateWhere (releasable kind c) f).2 > 0 ∧ t.byId c.id = some row ∧
      row.ownerId = c.ownerId ∧ row.fencingToken = c.fencingToken ∧ row.status = kind.held ∧
      Replaces t row (f.apply row) (t.updateWhere (releasable kind c) f).1 := by
  by_cases h : (t.updateWhere (releasable kind c) f).2 = 0
  · exact .inl ⟨h, updateWhere_of_rowsAffected_eq_zero h⟩
  · obtain ⟨row, hp, hrow⟩ := replaces_updateWhere (fun x hx => (releasable_iff.mp hx).1) h
    obtain ⟨hid, howner, htoken, hstatus⟩ := releasable_iff.mp hp
    exact .inr ⟨row, Nat.pos_of_ne_zero h, hid ▸ byId_of_byKey hrow.found, howner, htoken, hstatus, hrow⟩

/-- **Spec lemma**: the next statement of a call makes a move. -/
theorem LeaseThread.statement_move (clock : Int) (hwell : th.WellFormed kind t) :
    LeaseMove kind t th (th.statement kind clock t).1 (th.statement kind clock t).2
      (th.events t (th.statement kind clock t).1) := by
  cases th with
  | insert c now =>
    simp only [statement]
    rcases insertIgnore_cases t
      (c.row kind t.nextId (c.leaseUntil kind now clock) (unixSeconds clock)) with ⟨-, heq⟩ | ⟨t', hcreate, heq⟩
    · rw [heq]
      exact .quiet trivial fun _ _ => rfl
    · rw [heq]
      exact .inserted hcreate rfl rfl
  | find c now =>
    simp only [statement]
    cases hrow : t.byKey c.key with
    | none => exact .quiet trivial fun _ _ => rfl
    | some existing =>
      by_cases hstatus : existing.status = kind.completed
      · simp only [hstatus, if_true]
        exact .quiet trivial fun _ _ => rfl
      · simp only [hstatus, if_false]
        exact .quiet ⟨existing, (key_of_byKey hrow).symm ▸ hrow, rfl⟩ fun _ _ => rfl
  | takeover c now existing =>
    simp only [statement]
    by_cases h : (t.updateWhere (LeaseRow.takeable kind existing now) (LeaseRow.take kind.held c.ownerId
      (c.leaseUntil kind now clock) (unixSeconds now))).2 = 0
    · rw [if_pos h, updateWhere_of_rowsAffected_eq_zero h]
      exact .quiet trivial fun _ _ => rfl
    · rw [if_neg h]
      have htakeable {x : LeaseRow κ σ} : LeaseRow.takeable kind existing now x = true ↔
          x.id = existing.id ∧ x.fencingToken = existing.fencingToken ∧ kind.takeable x.status = true ∧
            x.leaseUntil ≤ unixSeconds now := by
        rw [LeaseRow.takeable, decide_eq_true_eq]
      obtain ⟨row, hp, hrow⟩ := replaces_updateWhere (fun x hx => (htakeable.mp hx).1) h
      obtain ⟨hid, htoken, htake, -⟩ := htakeable.mp hp
      obtain ⟨row', hrow', hid'⟩ := hwell
      -- the row with the primary key is the one with the unique key
      obtain rfl : row' = row := eq_of_id_eq (byKey_eq_some.mp hrow').1
        (byKey_eq_some.mp hrow.found).1 (hid'.trans hid.symm)
      have hkey : existing.key = row'.key := (key_of_byKey hrow').symm
      have hopen : row'.status ≠ kind.completed := fun h => by
        rw [h, kind.not_takeable_completed] at htake
        cases htake
      have hmove : LeaseMove kind t (.takeover c now existing) (.reread existing) _ _ :=
        .took hrow hid hkey htoken.symm rfl rfl hopen rfl
      simp only [events, hkey, ← htoken]
      exact hmove
  | reread existing =>
    obtain ⟨row, hrow, hid⟩ := hwell
    have hfound : t.byId existing.id = some row := hid ▸ byId_of_byKey hrow
    simp only [statement, hfound]
    exact .returned hrow hid
  | claimed result => exact .quiet trivial fun _ _ => rfl
  | complete c =>
    simp only [statement]
    rcases release_cases kind t c (LeaseRow.complete kind.completed (unixSeconds clock))
      with ⟨hnone, hsame⟩ | ⟨row, hsome, hfound, howner, htoken, hstatus, hrow⟩
    · rw [hsame, hnone]
      exact .quiet trivial fun _ _ => rfl
    · simp only [hsome, decide_true, events, hfound, map_some, toList_some, ← howner, ← htoken]
      exact .completed hrow hstatus rfl rfl rfl
  | fail c status lastError =>
    simp only [statement]
    rcases release_cases kind t c (LeaseRow.fail status lastError (unixSeconds clock))
      with ⟨hnone, hsame⟩ | ⟨row, hsome, hfound, howner, htoken, hstatus, hrow⟩
    · rw [hsame, hnone]
      exact .quiet trivial fun _ _ => rfl
    · simp only [hsome, decide_true, events, hfound, map_some, toList_some, ← howner, ← htoken]
      exact .failed hrow hstatus rfl rfl hwell
  | released result => exact .quiet trivial fun _ _ => rfl

end Statement

/-! ## The history follows the table -/

/-- What the history of the runs says about the rows. -/
structure LeaseLedger (kind : LeaseKind σ) (t : Table (LeaseRow κ σ)) (h : List (LeaseEvent κ)) : Prop where
  holder : ∀ {k row}, t.byKey k = some row → holder k h = some (row.ownerId, row.fencingToken)
  completed : ∀ {k row}, t.byKey k = some row → (Completed k h ↔ row.status = kind.completed)
  unused : ∀ {k}, t.byKey k = none → ∀ e ∈ h, e.run ≠ k
  taken_le : ∀ {k row owner token}, t.byKey k = some row → .took k owner token ∈ h →
    token ≤ row.fencingToken
  takeovers_le : ∀ k token, takeovers k token h ≤ 1

/-- Every row stays, with its primary key. -/
def KeepsRows (t t' : Table (LeaseRow κ σ)) : Prop :=
  ∀ k row, t.byKey k = some row → ∃ row', t'.byKey k = some row' ∧ row'.id = row.id

section Moves

variable {kind : LeaseKind σ} {t t' : Table (LeaseRow κ σ)} {h added : List (LeaseEvent κ)}
  {th th' : LeaseThread κ σ} {row row' : LeaseRow κ σ} {k : κ} {owner : String} {token : Int}

theorem Replaces.keepsRows (hrow : Replaces t row row' t') : KeepsRows t t' := by
  intro k x hx
  by_cases hk : row.key = k
  · subst hk
    obtain rfl := mem_unique hrow.found hx
    exact ⟨row', (hrow.byKey _).trans (if_pos rfl), hrow.id_eq⟩
  · exact ⟨x, (hrow.byKey k).trans ((if_neg hk).trans hx), rfl⟩

theorem LeaseMove.keepsRows (hmove : LeaseMove kind t th th' t' added) : KeepsRows t t' := by
  cases hmove with
  | quiet | returned => exact fun _ _ hx => ⟨_, hx, rfl⟩
  | inserted hcreate => exact fun _ _ hx => ⟨_, byKey_create_of_some hcreate hx, rfl⟩
  | took hrow | completed hrow | failed hrow => exact hrow.keepsRows

theorem LeaseThread.WellFormed.of_keepsRows (hwell : th.WellFormed kind t) (hkeeps : KeepsRows t t') :
    th.WellFormed kind t' := by
  cases th with
  | takeover _ _ existing | reread existing =>
    obtain ⟨row, hrow, hid⟩ := hwell
    obtain ⟨row', hrow', hid'⟩ := hkeeps _ _ hrow
    exact ⟨row', hrow', hid'.trans hid⟩
  | fail => exact hwell
  | insert | find | claimed | complete | released => trivial

theorem LeaseMove.wellFormed (hmove : LeaseMove kind t th th' t' added) (hwell : th.WellFormed kind t) :
    th'.WellFormed kind t' := by
  have hkeeps := hmove.keepsRows
  cases hmove with
  | quiet hwell' => exact hwell'
  | inserted | returned | completed | failed => trivial
  | @took c now existing =>
    have hread : (reread existing : LeaseThread κ σ).WellFormed kind t := hwell
    exact hread.of_keepsRows hkeeps

section

variable (hledger : LeaseLedger kind t h)

include hledger

/-- The row of an open run gets an owner, with a token above all that the run has had. -/
theorem LeaseLedger.own (hbyKey : ∀ x, t'.byKey x = if k = x then some row else t.byKey x)
    (hopen : ¬ Completed k h) (hstatus : row.status = kind.held)
    (habove : ∀ o tok, .took k o tok ∈ h → tok < row.fencingToken) :
    LeaseLedger kind t' (.took k row.ownerId row.fencingToken :: h) := by
  refine ⟨fun {k x} hx => ?_, fun {k x} hx => ?_, fun {k} hk e he => ?_, fun {k x o tok} hx htook => ?_,
    fun k tok => ?_⟩
  · rw [hbyKey] at hx
    simp only [Prox.holder]
    split at hx
    · next hk =>
      obtain rfl := Option.some.inj hx
      exact if_pos hk
    · next hk => exact (if_neg hk).trans (hledger.holder hx)
  · rw [hbyKey] at hx
    rw [completed_took]
    split at hx
    · next hk =>
      obtain rfl := Option.some.inj hx
      subst hk
      rw [hstatus]
      exact iff_of_false hopen kind.held_ne_completed
    · exact hledger.completed hx
  · rw [hbyKey] at hk
    split at hk
    · cases hk
    · next hne =>
      rcases mem_cons.mp he with rfl | he
      · exact hne
      · exact hledger.unused hk e he
  · rw [hbyKey] at hx
    rcases mem_cons.mp htook with heq | hmem
    · injection heq with hk _ htok
      rw [if_pos hk.symm] at hx
      obtain rfl := Option.some.inj hx
      exact htok.le
    · split at hx
      · next hk =>
        obtain rfl := Option.some.inj hx
        exact (habove o tok (hk ▸ hmem)).le
      · exact hledger.taken_le hx hmem
  · rw [takeovers_took]
    split
    · next heq =>
      obtain ⟨rfl, rfl⟩ := heq
      rw [takeovers_eq_zero fun o hmem => (habove o _ hmem).false]
      omega
    · have := hledger.takeovers_le k tok
      omega

/-- A new row has an owner and a token, and no history before. -/
theorem LeaseLedger.insert (hcreate : t.create row = some t')
    (hstatus : row.status = kind.held) :
    LeaseLedger kind t' (.took row.key row.ownerId row.fencingToken :: h) := by
  have hunused : ∀ e ∈ h, e.run ≠ row.key := hledger.unused (byKey_none_of_create hcreate)
  exact hledger.own (byKey_of_create hcreate) (fun ⟨_, _, hmem⟩ => hunused _ hmem rfl) hstatus
    fun o tok hmem => absurd rfl (hunused _ hmem)

/-- A takeover names the new owner and a token above all before. -/
theorem LeaseLedger.take (hrow : Replaces t row row' t')
    (htoken : row'.fencingToken = row.fencingToken + 1) (hopen : row.status ≠ kind.completed)
    (hstatus : row'.status = kind.held) :
    LeaseLedger kind t' (.took row.key row'.ownerId row'.fencingToken :: h) := by
  refine hledger.own hrow.byKey (fun hc => hopen ((hledger.completed hrow.found).mp hc)) hstatus fun o tok hmem => ?_
  have := hledger.taken_le hrow.found hmem
  omega

/-- A release keeps owner and token; the status says whether it completes the run. -/
theorem LeaseLedger.release {e : LeaseEvent κ} (hrow : Replaces t row row' t')
    (howner : row'.ownerId = row.ownerId) (htoken : row'.fencingToken = row.fencingToken)
    (hrun : e.run = row.key) (htook : ∀ k o tok, e ≠ .took k o tok)
    (hcompleted : ∀ k, Completed k (e :: h) ↔ row.key = k ∧ row'.status = kind.completed ∨ Completed k h)
    (hopen : row.status ≠ kind.completed) : LeaseLedger kind t' (e :: h) := by
  have hbyKey := hrow.byKey
  have hholder : ∀ k, Prox.holder k (e :: h) = Prox.holder k h := fun k => by
    cases e with
    | took k o tok => exact absurd rfl (htook k o tok)
    | returned | completed | failed => rfl
  have htakeovers : ∀ k tok, takeovers k tok (e :: h) = takeovers k tok h := fun k tok => by
    cases e with
    | took k o tok => exact absurd rfl (htook k o tok)
    | returned | completed | failed => simp
  refine ⟨fun {k x} hx => ?_, fun {k x} hx => ?_, fun {k} hk e' he => ?_, fun {k x o tok} hx hmem => ?_,
    fun k tok => (htakeovers k tok).trans_le (hledger.takeovers_le k tok)⟩
  · rw [hbyKey] at hx
    rw [hholder]
    split at hx
    · next hk =>
      obtain rfl := Option.some.inj hx
      rw [howner, htoken, ← hk]
      exact hledger.holder hrow.found
    · exact hledger.holder hx
  · rw [hbyKey] at hx
    rw [hcompleted]
    split at hx
    · next hk =>
      obtain rfl := Option.some.inj hx
      subst hk
      have hnot : ¬ Completed row.key h := fun hc => hopen ((hledger.completed hrow.found).mp hc)
      exact ⟨fun hc => hc.elim And.right fun hc => absurd hc hnot, fun hc => .inl ⟨rfl, hc⟩⟩
    · next hk =>
      rw [← hledger.completed hx]
      exact ⟨fun hc => hc.elim (fun hc => absurd hc.1 hk) id, .inr⟩
  · rw [hbyKey] at hk
    split at hk
    · cases hk
    · next hne =>
      rcases mem_cons.mp he with rfl | he
      · exact hrun.trans_ne hne
      · exact hledger.unused hk e' he
  · rw [hbyKey] at hx
    rcases mem_cons.mp hmem with heq | hmem
    · exact absurd heq.symm (htook k o tok)
    · split at hx
      · next hk =>
        obtain rfl := Option.some.inj hx
        have := hledger.taken_le hrow.found (hk ▸ hmem)
        omega
      · exact hledger.taken_le hx hmem

/-- A returned token changes nothing that the rows say. -/
theorem LeaseLedger.return (hrow : t.byKey k = some row) :
    LeaseLedger kind t (.returned k token :: h) := by
  refine ⟨hledger.holder, fun hx => completed_returned.trans (hledger.completed hx), fun {k'} hk e he => ?_,
    fun {_ _ o _} hx hmem => ?_, fun k' tok => ?_⟩
  · rcases mem_cons.mp he with rfl | he
    · rintro rfl
      rw [LeaseEvent.run, hrow] at hk
      cases hk
    · exact hledger.unused hk e he
  · rcases mem_cons.mp hmem with heq | hmem
    · cases heq
    · exact hledger.taken_le hx hmem
  · rw [takeovers_returned]
    exact hledger.takeovers_le k' tok

end

variable (hmove : LeaseMove kind t th th' t' added)

include hmove

theorem LeaseMove.ledger (hledger : LeaseLedger kind t h) :
    LeaseLedger kind t' (added ++ h) := by
  cases hmove with
  | quiet => exact hledger
  | @inserted c now row t' hcreate hstatus =>
    have hrow : t'.byKey row.key = some row := (byKey_of_create hcreate _).trans (if_pos rfl)
    exact (hledger.insert hcreate hstatus).return hrow
  | took hrow hexisting hkey htoken htoken' howner hopen hstatus =>
    exact hledger.take hrow htoken' hopen hstatus
  | returned hrow =>
    rw [key_of_byKey hrow]
    exact hledger.return hrow
  | completed hrow hopen howner htoken hstatus =>
    refine hledger.release hrow howner htoken rfl (fun _ _ _ h => by cases h) (fun k => ?_)
      (hopen.trans_ne kind.held_ne_completed)
    exact completed_completed.trans (or_congr_left (and_iff_left hstatus).symm)
  | failed hrow hopen howner htoken hstatus =>
    refine hledger.release hrow howner htoken rfl (fun _ _ _ h => by cases h) (fun k => ?_)
      (hopen.trans_ne kind.held_ne_completed)
    exact completed_failed.trans ⟨.inr, fun h => h.resolve_left fun h => hstatus h.2⟩

/-- A move that finishes a run is made by its holder, before any completion. -/
theorem LeaseMove.writeFenced (hledger : LeaseLedger kind t h)
    (hh : Throughout LeaseEvent.WriteFenced h) : Throughout LeaseEvent.WriteFenced (added ++ h) := by
  have hheld {row : LeaseRow κ σ} (hfound : t.byKey row.key = some row) (hopen : row.status = kind.held) :
      Prox.holder row.key h = some (row.ownerId, row.fencingToken) ∧ ¬ Completed row.key h := by
    refine ⟨hledger.holder hfound, fun hc => ?_⟩
    exact kind.held_ne_completed (hopen.symm.trans ((hledger.completed hfound).mp hc))
  cases hmove with
  | quiet => exact hh
  | inserted => exact ⟨trivial, trivial, hh⟩
  | took | returned => exact ⟨trivial, hh⟩
  | completed hrow hopen | failed hrow hopen => exact ⟨hheld hrow.found hopen, hh⟩

/-- A move of a call whose run is unmoved returns only what a takeover left pending. -/
theorem LeaseMove.pending_le (hunmoved : th.Unmoved kind t)
    (run : κ) (token : Int) :
    th'.pending run token + returns run token (added ++ h) + takeovers run token h
      ≤ th.pending run token + returns run token h + takeovers run token (added ++ h) := by
  have hnonneg : 0 ≤ th.pending run token := by
    cases th with
    | reread existing =>
      rw [pending]
      split <;> omega
    | _ => exact Int.le_refl 0
  cases hmove with
  | quiet hwell hpending =>
    rw [hpending]
    simp only [nil_append]
    omega
  | inserted | completed | failed => simp [pending]; try omega
  | took hrow hexisting hkey htoken htoken' =>
    simp only [cons_append, nil_append, returns_took, takeovers_took, pending, hkey,
      htoken, htoken']
    omega
  | returned hrow hid =>
    obtain ⟨htoken, -⟩ := hunmoved _ (hid ▸ byId_of_byKey hrow)
    simp only [cons_append, nil_append, returns_returned, takeovers_returned, pending,
      key_of_byKey hrow, htoken]
    omega

/-- A move of a call whose run is unmoved returns a new token, before any completion. -/
theorem LeaseMove.claimFenced (hunmoved : th.Unmoved kind t)
    (hledger : LeaseLedger kind t h)
    (hcount : ∀ run token, th.pending run token + returns run token h ≤ takeovers run token h)
    (hh : Throughout LeaseEvent.ClaimFenced h) : Throughout LeaseEvent.ClaimFenced (added ++ h) := by
  cases hmove with
  | quiet => exact hh
  | @inserted c now row t' hcreate =>
    have hunused := hledger.unused (byKey_none_of_create hcreate)
    refine ⟨⟨fun hmem => ?_, fun hc => ?_⟩, trivial, hh⟩
    · rcases mem_cons.mp hmem with heq | hmem
      · cases heq
      · exact hunused _ hmem rfl
    · obtain ⟨_, _, hmem⟩ := completed_took.mp hc
      exact hunused _ hmem rfl
  | took | completed | failed => exact ⟨trivial, hh⟩
  | @returned existing row hrow hid =>
    obtain ⟨htoken, hopen⟩ := hunmoved _ (hid ▸ byId_of_byKey hrow)
    have hkey := key_of_byKey hrow
    -- the token is this call's to return
    have hpending : (reread existing : LeaseThread κ σ).pending row.key row.fencingToken = 1 :=
      if_pos ⟨hkey.symm, htoken.symm⟩
    have hle := hcount row.key row.fencingToken
    have honce := hledger.takeovers_le row.key row.fencingToken
    have hnot : LeaseEvent.returned row.key row.fencingToken ∉ h := not_mem_of_returns (by omega)
    exact ⟨⟨hnot, fun hc => hopen ((hledger.completed hrow).mp (hkey ▸ hc))⟩, hh⟩

end Moves

/-! ## Runs -/

section Runs

variable {kind : LeaseKind σ}

/-- The rows and the calls fit the history, and runs were finished by their holders only. -/
structure LeaseSystem.WriteInv (kind : LeaseKind σ) (s : LeaseSystem κ σ) : Prop where
  ledger : LeaseLedger kind s.shared.table s.shared.history
  threads : ∀ th ∈ s.threads, th.WellFormed kind s.shared.table
  fenced : Throughout LeaseEvent.WriteFenced s.shared.history

/-- Tokens are returned once, by the calls that took them. -/
structure LeaseSystem.ClaimInv (s : LeaseSystem κ σ) : Prop where
  returns_le : ∀ run token, s.total (LeaseThread.pending run token) + returns run token s.shared.history
    ≤ takeovers run token s.shared.history
  fenced : Throughout LeaseEvent.ClaimFenced s.shared.history

/-- A claim that reads its run again finds the token of its takeover and no completion. -/
def LeaseSystem.Unmoved (kind : LeaseKind σ) (s : LeaseSystem κ σ) : LeaseStep γ → Prop
  | .step thread fault =>
    fault = none → ∀ th ∈ s.threads[thread]?, th.Unmoved kind s.shared.table
  | _ => True

instance [DecidableEq σ] {γ : Type} (kind : LeaseKind σ) (s : LeaseSystem κ σ) :
    ∀ e : LeaseStep γ, Decidable (s.Unmoved kind e)
  | .step thread fault =>
    inferInstanceAs (Decidable (fault = none → ∀ th ∈ s.threads[thread]?, th.Unmoved kind s.shared.table))
  | .wait _ | .call _ => .isTrue trivial

theorem LeaseThread.Fresh.wellFormed {th : LeaseThread κ σ} (h : th.Fresh kind)
    (t : Table (LeaseRow κ σ)) : th.WellFormed kind t := by
  cases th with
  | fail => exact h
  | takeover | reread => exact h.elim
  | insert | find | claimed | complete | released => trivial

theorem LeaseThread.Fresh.pending {th : LeaseThread κ σ} (h : th.Fresh kind) (run : κ) (token : Int) :
    th.pending run token = 0 := by
  cases th with
  | reread => exact h.elim
  | _ => rfl

theorem LeaseThread.pending_nonneg (th : LeaseThread κ σ) (run : κ) (token : Int) :
    0 ≤ th.pending run token := by
  cases th with
  | reread existing =>
    rw [pending]
    split <;> omega
  | _ => exact Int.le_refl 0

theorem LeaseThread.refused_pending (th : LeaseThread κ σ) (err : Err) (run : κ) (token : Int) :
    (th.refused err).pending run token = 0 := by
  cases th <;> rfl

variable [DecidableEq σ] {γ : Type} {start : γ → Int → LeaseThread κ σ} {s : LeaseSystem κ σ}
  {th : LeaseThread κ σ} {w : LeaseWorld κ σ}

/-- A step of a call is a move, also when the database refuses it. -/
theorem LeaseThread.step_move (hwell : th.WellFormed kind w.table) (fault : Option Err) :
    ∃ added, LeaseMove kind w.table th (th.step kind fault w).1 (th.step kind fault w).2.table added ∧
      (th.step kind fault w).2.history = added ++ w.history := by
  cases fault with
  | some err => exact ⟨[], .quiet (by cases th <;> trivial) (th.refused_pending err), rfl⟩
  | none => exact ⟨_, th.statement_move w.clock hwell, rfl⟩

/-- A step of a call whose run is unmoved returns only tokens that are new and its own. -/
theorem LeaseThread.step_returns {fault : Option Err} (hwell : th.WellFormed kind w.table)
    (hledger : LeaseLedger kind w.table w.history)
    (hcount : ∀ run token, th.pending run token + returns run token w.history ≤ takeovers run token w.history)
    (hh : Throughout LeaseEvent.ClaimFenced w.history)
    (hunmoved : fault = none → th.Unmoved kind w.table) :
    Throughout LeaseEvent.ClaimFenced (th.step kind fault w).2.history ∧
      ∀ run token, (th.step kind fault w).1.pending run token
          + returns run token (th.step kind fault w).2.history + takeovers run token w.history
        ≤ th.pending run token + returns run token w.history
          + takeovers run token (th.step kind fault w).2.history := by
  cases fault with
  | some err =>
    refine ⟨hh, fun run token => ?_⟩
    have hnonneg := th.pending_nonneg run token
    simp only [LeaseThread.step, refused_pending]
    omega
  | none =>
    have hmove := th.statement_move w.clock hwell
    exact ⟨hmove.claimFenced (hunmoved rfl) hledger hcount hh, hmove.pending_le (hunmoved rfl)⟩

/-- **Step lemma**: runs are finished by their holders only, whatever happens. -/
theorem LeaseSystem.WriteInv.step (hs : s.WriteInv kind) (hstart : ∀ c now, (start c now).Fresh kind)
    (e : LeaseStep γ) : (s.step kind start e).WriteInv kind := by
  cases e with
  | wait nanos => exact ⟨hs.ledger, hs.threads, hs.fenced⟩
  | call c =>
    exact ⟨hs.ledger, Pool.forall_spawn hs.threads ((hstart c _).wellFormed _), hs.fenced⟩
  | step thread fault =>
    refine Pool.stepAt_elim (P := fun q => LeaseSystem.WriteInv kind q) (fun _ => hs) fun th hth => ?_
    have hwell := hs.threads th (mem_of_getElem? hth)
    obtain ⟨added, hmove, hhistory⟩ := step_move hwell fault
    refine ⟨?_, Pool.forall_mem_set (fun th' hth' => ?_) (hmove.wellFormed hwell), ?_⟩
    · rw [hhistory]
      exact hmove.ledger hs.ledger
    · exact (hs.threads th' hth').of_keepsRows hmove.keepsRows
    · rw [hhistory]
      exact hmove.writeFenced hs.ledger hs.fenced

/-- **Step lemma**: tokens are returned once while claims find their runs unmoved. -/
theorem LeaseSystem.ClaimInv.step (hs : s.ClaimInv) (hwrite : s.WriteInv kind)
    (hstart : ∀ c now, (start c now).Fresh kind) {e : LeaseStep γ} (he : s.Unmoved kind e) :
    (s.step kind start e).ClaimInv := by
  cases e with
  | wait nanos => exact ⟨hs.returns_le, hs.fenced⟩
  | call c =>
    refine ⟨fun run token => ?_, hs.fenced⟩
    have hle := hs.returns_le run token
    simp only [LeaseSystem.step, Pool.total_spawn, Pool.shared_spawn, (hstart c _).pending]
    omega
  | step thread fault =>
    cases hth : s.threads[thread]? with
    | none =>
      have hsame : s.step kind start (.step thread fault) = s := Pool.stepAt_of_none hth
      rw [hsame]
      exact hs
    | some th =>
      have hwell := hwrite.threads th (mem_of_getElem? hth)
      have hstep : s.step kind start (.step thread fault)
          = ⟨(th.step kind fault s.shared).2, s.threads.set thread (th.step kind fault s.shared).1⟩ :=
        Pool.stepAt_of_some hth
      have hsingle (run : κ) (token : Int) :
          th.pending run token ≤ s.total (pending run token) := by
        refine single_le_sum (fun n hn => ?_) _ (List.mem_map_of_mem (mem_of_getElem? hth))
        obtain ⟨th', -, rfl⟩ := List.mem_map.mp hn
        exact th'.pending_nonneg run token
      have hcount (run : κ) (token : Int) : th.pending run token + returns run token s.shared.history
          ≤ takeovers run token s.shared.history := by
        have hle := hs.returns_le run token
        have hth := hsingle run token
        omega
      obtain ⟨hfenced, hchange⟩ := step_returns hwell hwrite.ledger hcount hs.fenced
        fun hfault => he hfault th hth
      rw [hstep]
      refine ⟨fun run token => ?_, hfenced⟩
      have hle := hs.returns_le run token
      have hrun := hchange run token
      rw [Pool.total] at hle ⊢
      dsimp only
      rw [Pool.sum_map_set _ hth]
      omega

/-- **Run lemma**: from an empty table, runs are finished by their holders only, and tokens are returned
once while claims find their runs unmoved. -/
theorem LeaseSystem.run_fenced (hstart : ∀ c now, (start c now).Fresh kind) (clock : Int)
    (steps : List (LeaseStep γ)) :
    (run (LeaseSystem.step kind start) (.initial κ σ clock) steps).WriteInv kind ∧
      (Along (LeaseSystem.step kind start) (LeaseSystem.Unmoved kind) (.initial κ σ clock) steps →
        (run (LeaseSystem.step kind start) (.initial κ σ clock) steps).ClaimInv) := by
  have hwrite : (LeaseSystem.initial κ σ clock).WriteInv kind :=
    ⟨⟨nofun, nofun, nofun, nofun, fun _ _ => zero_le_one⟩, forall_mem_nil _, trivial⟩
  have hclaim : (LeaseSystem.initial κ σ clock).ClaimInv := ⟨fun _ _ => le_refl 0, trivial⟩
  refine ⟨run_keeps (I := LeaseSystem.WriteInv kind) (fun s e hs => hs.step hstart e) hwrite steps,
    fun hsteps => ?_⟩
  exact (run_keeps_along (I := fun s => s.WriteInv kind ∧ s.ClaimInv)
    (fun s e hs he => ⟨hs.1.step hstart e, hs.2.step hs.1 hstart he⟩) ⟨hwrite, hclaim⟩ hsteps).2

end Runs

/-! ## The two families -/

/-- Calls on scheduled job executions, from an empty table. -/
def scheduledJobRun (clock : Int) (steps : List (LeaseStep ScheduledJobCall)) :
    LeaseSystem ScheduledJobKey ScheduledJobStatus :=
  run (LeaseSystem.step scheduledJobKind ScheduledJobCall.start) (.initial _ _ clock) steps

/-- Calls on bot message claims, from an empty table. -/
def communityBotRun (clock : Int) (steps : List (LeaseStep CommunityBotCall)) :
    LeaseSystem CommunityBotMessageKey CommunityBotClaimStatus :=
  run (LeaseSystem.step communityBotKind CommunityBotCall.start) (.initial _ _ clock) steps

/-- In every step of the run, a claim that reads its run again finds it as its takeover left it. -/
def ScheduledJobUnmoved (clock : Int) (steps : List (LeaseStep ScheduledJobCall)) : Prop :=
  Along (LeaseSystem.step scheduledJobKind ScheduledJobCall.start) (LeaseSystem.Unmoved scheduledJobKind)
    (.initial _ _ clock) steps

/-- In every step of the run, a claim that reads its run again finds it as its takeover left it. -/
def CommunityBotUnmoved (clock : Int) (steps : List (LeaseStep CommunityBotCall)) : Prop :=
  Along (LeaseSystem.step communityBotKind CommunityBotCall.start) (LeaseSystem.Unmoved communityBotKind)
    (.initial _ _ clock) steps

theorem ScheduledJobCall.start_fresh (c : ScheduledJobCall) (now : Int) :
    (c.start now).Fresh scheduledJobKind := by
  cases c with
  | claim =>
    simp only [start, claimScheduledJobExecution]
    split <;> trivial
  | complete =>
    simp only [start, completeScheduledJobExecution]
    split <;> trivial
  | fail =>
    simp only [start, failScheduledJobExecution]
    split
    · trivial
    · exact (by decide : ScheduledJobStatus.pending ≠ .completed)

theorem CommunityBotCall.start_fresh (c : CommunityBotCall) (now : Int) :
    (c.start now).Fresh communityBotKind := by
  cases c with
  | claim =>
    simp only [start, claimCommunityBotMessage]
    split <;> trivial
  | complete =>
    simp only [start, completeCommunityBotMessageClaim]
    split <;> trivial

/-- **Leases are fenced.** In every interleaving of the statements of any number of calls, completions and
failures go through only for the owner and the token of the latest takeover of the run, and not after a
completion. While every claim that reads its run again after its takeover finds it as it left it, no two
claims return one token of a run, and none returns one after a completion. -/
theorem leases_fenced (clock : Int) (jobSteps : List (LeaseStep ScheduledJobCall))
    (botSteps : List (LeaseStep CommunityBotCall)) :
    (Throughout LeaseEvent.WriteFenced (scheduledJobRun clock jobSteps).shared.history ∧
      (ScheduledJobUnmoved clock jobSteps →
        Throughout LeaseEvent.ClaimFenced (scheduledJobRun clock jobSteps).shared.history)) ∧
    Throughout LeaseEvent.WriteFenced (communityBotRun clock botSteps).shared.history ∧
      (CommunityBotUnmoved clock botSteps →
        Throughout LeaseEvent.ClaimFenced (communityBotRun clock botSteps).shared.history) := by
  constructor
  · obtain ⟨hwrite, hclaim⟩ := LeaseSystem.run_fenced ScheduledJobCall.start_fresh clock jobSteps
    exact ⟨hwrite.fenced, fun hsteps => (hclaim hsteps).fenced⟩
  · obtain ⟨hwrite, hclaim⟩ := LeaseSystem.run_fenced CommunityBotCall.start_fresh clock botSteps
    exact ⟨hwrite.fenced, fun hsteps => (hclaim hsteps).fenced⟩

/-- A claim of the message on behalf of a worker, for a minute. -/
def sampleClaim (ownerId : String) : LeaseStep CommunityBotCall :=
  .call (.claim "site" "room" "message" "command" ownerId (60 * nanosPerSecond))

/-- The first worker takes the message and stalls; the second takes it over and completes it. -/
def takeoverSteps : List (LeaseStep CommunityBotCall) :=
  [sampleClaim "first", .step 0 none, .wait 61000000000, sampleClaim "second",
    .step 1 none, .step 1 none, .step 1 none, .step 1 none,
    .call (.complete 1 "first" 1), .step 2 none, .call (.complete 1 "second" 2), .step 3 none]

/-- The message of the samples. -/
def sampleMessage : CommunityBotMessageKey := ⟨"site", "room", "message", "command"⟩

theorem leases_fenced_takeover :
    (communityBotRun 0 takeoverSteps).shared.history =
      [.completed sampleMessage "second" 2, .returned sampleMessage 2, .took sampleMessage "second" 2,
        .returned sampleMessage 1, .took sampleMessage "first" 1] ∧
    Throughout LeaseEvent.ClaimFenced (communityBotRun 0 takeoverSteps).shared.history := by
  have hunmoved : CommunityBotUnmoved 0 takeoverSteps := by
    rw [CommunityBotUnmoved]
    decide +kernel
  exact ⟨by decide +kernel, (leases_fenced 0 [] takeoverSteps).2.2 hunmoved⟩

/-- The second worker takes the message over and stalls before it reads the row again; the third takes it
over, and completes it. -/
def overtakenSteps : List (LeaseStep CommunityBotCall) :=
  [sampleClaim "first", .step 0 none, .wait 61000000000, sampleClaim "second",
    .step 1 none, .step 1 none, .step 1 none, .wait 61000000000, sampleClaim "third",
    .step 2 none, .step 2 none, .step 2 none, .step 2 none,
    .call (.complete 1 "third" 3), .step 3 none, .step 1 none]

/-- The second worker's claim returns the third worker's token, which was returned before, after the
completion. -/
theorem lease_token_returned_twice :
    (communityBotRun 0 overtakenSteps).shared.history =
      [.returned sampleMessage 3, .completed sampleMessage "third" 3, .returned sampleMessage 3,
        .took sampleMessage "third" 3, .took sampleMessage "second" 2, .returned sampleMessage 1,
        .took sampleMessage "first" 1] ∧
    ¬ Throughout LeaseEvent.ClaimFenced (communityBotRun 0 overtakenSteps).shared.history := by
  have hhistory : (communityBotRun 0 overtakenSteps).shared.history =
      [.returned sampleMessage 3, .completed sampleMessage "third" 3, .returned sampleMessage 3,
        .took sampleMessage "third" 3, .took sampleMessage "second" 2, .returned sampleMessage 1,
        .took sampleMessage "first" 1] := by decide +kernel
  refine ⟨hhistory, fun h => ?_⟩
  rw [hhistory] at h
  exact h.1.1 (by decide)

end Prox
