import Prox.Agent.Consent

/-! # Runs of agent actions

The steps of the calls keep the invariant, and what a call knows stays known: a step of another call changes
one action, on which no other call is busy. The laws follow for every run whose steps find the status that a
conditional update would ask for. -/

namespace Prox

open List Option

/-! ## What a step keeps -/

variable {t : AgentThread} {w : AgentWorld}

/-- What a call knows stays known while only an action changes on which it is not busy. -/
theorem AgentThread.Fits.moves {w' : AgentWorld} {k : Int} (h : t.Fits w) (hmoves : w.Moves k w')
    (hk : ¬ t.BusyOn k) : t.Fits w' := by
  cases t with
  | decideClock d ap | decide d ap now =>
    obtain ⟨hsite, row, hrow, hsame⟩ := h
    obtain ⟨row', hrow', hsame'⟩ := hmoves.approvals row hrow
    exact ⟨hsite, row', hrow', hsame.trans hsame'⟩
  | mark e action =>
    obtain ⟨row, hrow, hsame⟩ := h
    obtain ⟨row', hrow', hsame', -⟩ := hmoves.actions row hrow
    exact ⟨row', hrow', hsame.trans hsame'⟩
  | executing e action =>
    obtain ⟨row, hrow, hsame, hstatus⟩ := h
    obtain ⟨row', hrow', hsame', hstatus'⟩ := hmoves.actions row hrow
    exact ⟨row', hrow', hsame.trans hsame', (hstatus' fun hid => hk (hsame.id.symm.trans hid)).trans hstatus⟩
  | finish e action outcome =>
    obtain ⟨⟨row, hrow, hsame, hstatus⟩, hfailed⟩ := h
    obtain ⟨row', hrow', hsame', hstatus'⟩ := hmoves.actions row hrow
    refine ⟨⟨row', hrow', hsame.trans hsame', ?_⟩, fun err herr => ?_⟩
    · exact (hstatus' fun hid => hk (hsame.id.symm.trans hid)).trans hstatus
    · rw [hmoves.stages action.id hk]
      exact hfailed err herr
  | _ => trivial

/-- A call that is busy on an action has marked it as running. -/
theorem AgentThread.Fits.running {id : Int} (h : t.Fits w) (hbusy : t.BusyOn id) :
    ∃ row ∈ w.db.actions.rows, row.id = id ∧ row.status = .running := by
  cases t with
  | executing e action =>
    obtain ⟨row, hrow, hsame, hstatus⟩ := h
    exact ⟨row, hrow, hsame.id.trans hbusy, hstatus⟩
  | finish e action outcome =>
    obtain ⟨⟨row, hrow, hsame, hstatus⟩, -⟩ := h
    exact ⟨row, hrow, hsame.id.trans hbusy, hstatus⟩
  | _ => cases hbusy

/-- No call is busy on an action that is not running. -/
theorem AgentThread.Fits.not_busy {row : AgentAction} (h : t.Fits w)
    (hrow : row ∈ w.db.actions.rows) (hstatus : row.status ≠ .running) : ¬ t.BusyOn row.id := by
  intro hbusy
  obtain ⟨row', hrow', hid, hrunning⟩ := h.running hbusy
  exact hstatus (Table.eq_of_id_eq hrow' hrow hid ▸ hrunning)

/-- What a step of a call keeps: the invariant, and what this and the other calls know. -/
structure AgentThread.Keeps (t : AgentThread) (w : AgentWorld) (t' : AgentThread) (w' : AgentWorld) : Prop where
  inv : w'.Inv
  fits : t'.Fits w'
  /-- A call that is busy on what changes is this one. -/
  moves : ∃ k, w.Moves k w' ∧ ∀ x : AgentThread, x.Fits w → x.BusyOn k → t.BusyOn k
  /-- The call becomes busy only on what no call is busy on. -/
  busy : ∀ id, t'.BusyOn id → t.BusyOn id ∨ ∀ x : AgentThread, x.Fits w → ¬ x.BusyOn id

variable {action : AgentAction} {e : AgentExecution}

namespace AgentThread

variable {t' : AgentThread} {w' : AgentWorld}

theorem Fits.not_busy_zero (h : t.Fits w) : ¬ t.BusyOn 0 := by
  intro hbusy
  obtain ⟨row, hrow, hid, -⟩ := h.running hbusy
  have hpos : 0 < row.id := w.db.actions.id_pos row hrow
  omega

/-- A step that changes neither tables nor history keeps everything. -/
theorem keeps_of_quiet (h : w.Inv) (hfits : t'.Fits w) (hbusy : ∀ id, ¬ t'.BusyOn id) : t.Keeps w t' w where
  inv := h
  fits := hfits
  moves := ⟨0, ⟨fun a ha => ⟨a, ha, .refl a, fun _ => rfl⟩, fun ap hap => ⟨ap, hap, .refl ap⟩, fun _ _ => rfl⟩,
    fun _ hx hx0 => absurd hx0 hx.not_busy_zero⟩
  busy id hid := absurd hid (hbusy id)

/-- A call returns at once. -/
theorem keeps_done (h : w.Inv) (action : Option AgentAction) (err : Option Err) :
    t.Keeps w (.done action err) w :=
  keeps_of_quiet h trivial fun _ => id

theorem keeps_returns (h : w.Inv) (e : AgentExecution) (action : Option AgentAction) (err : Option Err) :
    t.Keeps w (e.returns action err) w := by
  unfold AgentExecution.returns
  split <;> exact keeps_done h _ _

variable {env : AgentEnv} {fault : Option Err} {outcome : AgentOutcome}

/-- A creation keeps everything. -/
theorem keeps_create (h : w.Inv) (c : AgentCreate) (expiresAt : Int) :
    (create c expiresAt).Keeps w ((create c expiresAt).step env fault outcome w).1
      ((create c expiresAt).step env fault outcome w).2 := by
  unfold step
  dsimp only
  rcases transaction_cases fault (createAgentActionWithApprovalTx env c expiresAt w.now) w.db with
    ⟨err, htx⟩ | ⟨action, db', hbody, htx⟩
  · rw [htx]
    exact keeps_of_quiet h trivial fun _ => id
  · rw [htx]
    have hadds := createAgentActionWithApprovalTx_ok hbody
    refine ⟨hadds.inv h, ?_, ⟨0, hadds.moves 0, fun _ hx hx0 => absurd hx0 hx.not_busy_zero⟩, fun id hid => ?_⟩
    · dsimp only
      split <;> trivial
    · dsimp only at hid
      split at hid <;> cases hid

/-- A decision on a pending approval keeps everything. -/
theorem keeps_decide (h : w.Inv) {d : AgentDecide} {approval : AgentActionApproval} {now : Int}
    (hfits : (decide d approval now).Fits w) (hguard : (decide d approval now).Guarded w fault) :
    (decide d approval now).Keeps w ((decide d approval now).step env fault outcome w).1
      ((decide d approval now).step env fault outcome w).2 := by
  unfold step
  cases fault with
  | some err => exact keeps_done h _ _
  | none =>
    obtain ⟨hsite, ap, hap, hsame⟩ := hfits
    -- the approval that was read is the one that the condition finds
    have hfound : w.db.approvals.byId approval.id = some ap := Table.byId_eq_some.mpr ⟨hap, hsame.id⟩
    have hrow := hguard rfl
    rw [hfound, any_some, decide_eq_true_iff] at hrow
    obtain ⟨row, hdeciding⟩ := h.deciding hap hrow.1 hsame hsite hrow.2
    have hnot : ∀ x : AgentThread, x.Fits w → ¬ x.BusyOn approval.actionId := by
      intro x hx
      rw [← hdeciding.row_id]
      exact hx.not_busy hdeciding.row_mem (by rw [hdeciding.pending]; decide)
    refine ⟨hdeciding.inv h, ?_, ⟨_, hdeciding.moves, fun x hx hxb => absurd hxb (hnot x hx)⟩, fun id hid => ?_⟩
    · dsimp only
      split <;> trivial
    · dsimp only at hid
      split at hid <;> cases hid

/-- An action that is marked as running has not run, or its last execution has failed, and it was approved
if it needs an approval. -/
theorem lawful_entered (h : w.Inv) {row : AgentAction} (hrow : row ∈ w.db.actions.rows)
    (hsame : action.Same row) (hstart : row.status.startable = true) :
    (AgentRecord.entered action).Lawful w.history := by
  have hstatus := of_decide_eq_true hstart
  have hstage := h.stages row hrow
  rw [hsame.id] at hstage
  refine ⟨?_, fun hreq => ?_⟩
  · rcases hstatus with hst | hst | hst <;> rw [hst] at hstage
    · exact .inl hstage
    · exact .inl hstage
    · exact .inr hstage
  · obtain ⟨ap, hap, hfor⟩ := h.required row hrow (hsame.approvalRequired.trans hreq)
    obtain ⟨a, ha, hfora, hagrees⟩ := h.approvals ap hap
    rw [Table.eq_of_id_eq ha hrow (hfora.actionId.symm.trans hfor.actionId)] at hagrees
    -- the approval of an action that can start has been approved
    have hdecision : ap.decision = some .approved := by
      unfold AgentActionApproval.Agrees at hagrees
      split at hagrees
      · rw [hagrees.2] at hstart
        cases hstart
      · next d hd =>
        cases d with
        | approved => exact hd
        | rejected =>
          rw [show row.status = .rejected from hagrees.2] at hstart
          cases hstart
    obtain ⟨ap', t, hmem, hsame', ht⟩ := h.approved ap hap hdecision
    refine ⟨_, hmem, ?_, rfl, ht⟩
    exact hsame'.actionId.symm.trans (hfor.actionId.trans hsame.id)

/-- A status that can start agrees with the decisions that a running one agrees with. -/
theorem agrees_running {ap : AgentActionApproval} {status status' : AgentActionStatus}
    (hstatus : status.startable = true ∨ status = .running)
    (hstatus' : status' = .running ∨ status' = .failed ∨ status' = .completed) (h : ap.Agrees status) :
    ap.Agrees status' := by
  unfold AgentActionApproval.Agrees at h ⊢
  split at h
  · rw [h.2] at hstatus
    rcases hstatus with hst | hst <;> cases hst
  · next d _ =>
    refine ⟨h.1, ?_⟩
    cases d with
    | approved => exact .inr hstatus'
    | rejected =>
      rw [show status = .rejected from h.2] at hstatus
      rcases hstatus with hst | hst <;> cases hst

/-- The mark of an action that can start keeps everything. -/
theorem keeps_mark (h : w.Inv) (hfits : (mark e action).Fits w)
    (hguard : (mark e action).Guarded w fault) :
    (mark e action).Keeps w ((mark e action).step env fault outcome w).1
      ((mark e action).step env fault outcome w).2 := by
  obtain ⟨rfl, hany⟩ := hguard
  obtain ⟨row, hrow, hsame⟩ := hfits
  have hfound : w.db.actions.byId action.id = some row := Table.byId_eq_some.mpr ⟨hrow, hsame.id⟩
  rw [hfound, any_some] at hany
  have hrunning : row.status ≠ .running := by
    intro hst
    rw [hst] at hany
    cases hany
  have hnot : ∀ x : AgentThread, x.Fits w → ¬ x.BusyOn row.id := fun x hx => hx.not_busy hrow hrunning
  have hactions : Restated row.id .running w.db.actions
      (w.db.actions.updateWhere (fun a => a.id = action.id) (AgentAction.setStatus .running w.now)).1 := by
    refine restated_updateWhere (fun a _ => ?_) (fun _ => ⟨rfl, rfl, rfl, rfl⟩) fun _ => rfl
    rw [decide_eq_true_iff, hsame.id]
  have hstages : ∀ id ≠ row.id, lastStage id (.entered action :: w.history) = lastStage id w.history := by
    intro id hid
    rw [lastStage, if_neg]
    exact fun hk => hid (hk.symm.trans hsame.id.symm)
  have hlast : lastStage row.id (.entered action :: w.history) = some .entered := by
    rw [lastStage, if_pos hsame.id.symm]
  refine ⟨?_, ?_, ⟨row.id, ?_, fun x hx hxb => absurd hxb (hnot x hx)⟩, fun id hid => .inr ?_⟩
  · refine h.restate hrow hactions (fun ap => agrees_running (.inl hany) (.inl rfl))
      ⟨lawful_entered (w := w) h hrow hsame hany, h.history⟩ (fun ap d t => ?_) hstages (.inl hlast)
    simp
  · obtain ⟨row', hrow', hsame', hstatus'⟩ := hactions.forth row hrow
    have hmarked : action.Same row' := hsame.trans hsame'
    exact ⟨row', hrow', ⟨hmarked.id, hmarked.siteId, hmarked.approvalRequired, hmarked.approvalId⟩,
      hstatus'.trans (if_pos rfl)⟩
  · exact AgentWorld.moves_of_restated hactions hstages
  · have hid : action.id = id := hid
    rw [← hid, ← hsame.id]
    exact hnot

/-- The end of an execution keeps everything. -/
theorem keeps_executing (h : w.Inv) (hfits : (executing e action).Fits w) :
    (executing e action).Keeps w ((executing e action).step env fault outcome w).1
      ((executing e action).step env fault outcome w).2 := by
  obtain ⟨row, hrow, hsame, hstatus⟩ := hfits
  unfold step
  cases outcome with
  | ok result =>
    refine ⟨h, ⟨⟨row, hrow, hsame, hstatus⟩, nofun⟩, ⟨action.id, ⟨?_, ?_, fun _ _ => rfl⟩, ?_⟩, fun id => .inl⟩
    · exact fun a ha => ⟨a, ha, .refl a, fun _ => rfl⟩
    · exact fun ap hap => ⟨ap, hap, .refl ap⟩
    · exact fun _ _ _ => rfl
  | error err =>
    have hstages : ∀ id ≠ row.id, lastStage id (.failed action.id :: w.history) = lastStage id w.history := by
      intro id hid
      rw [lastStage, if_neg]
      exact fun hk => hid (hk.symm.trans hsame.id.symm)
    have hlast : lastStage row.id (.failed action.id :: w.history) = some .failed := by
      rw [lastStage, if_pos hsame.id.symm]
    have hactions := Restated.refl hrow
    refine ⟨?_, ⟨⟨row, hrow, hsame, hstatus⟩, fun _ _ => hsame.id ▸ hlast⟩, ⟨row.id, ?_, ?_⟩, fun id => .inl⟩
    · refine h.restate hrow hactions (fun ap => id) ⟨trivial, h.history⟩ (fun ap d t => ?_) hstages ?_
      · simp
      · rw [hstatus]
        exact .inr hlast
    · exact AgentWorld.moves_of_restated hactions hstages
    · exact fun _ _ _ => hsame.id.symm

/-- What is written when an execution has ended keeps everything. -/
theorem keeps_finish (h : w.Inv) {outcome' : AgentOutcome}
    (hfits : (finish e action outcome').Fits w) :
    (finish e action outcome').Keeps w ((finish e action outcome').step env fault outcome w).1
      ((finish e action outcome').step env fault outcome w).2 := by
  obtain ⟨⟨row, hrow, hsame, hstatus⟩, hfailed⟩ := hfits
  have hactions : ∀ (patch : Patch AgentAction) (status : AgentActionStatus),
      (∀ a : AgentAction, a.Same (patch.apply a)) → (∀ a, (patch.apply a).status = status) →
      Restated row.id status w.db.actions
        (w.db.actions.updateWhere (fun a => a.id = action.id ∧ a.siteId = action.siteId) patch).1 := by
    intro patch status hpatch hst
    refine restated_updateWhere (fun a ha => ?_) hpatch hst
    rw [decide_eq_true_iff, ← hsame.id, ← hsame.siteId]
    exact ⟨And.left, fun hk => ⟨hk, by rw [Table.eq_of_id_eq ha hrow hk]⟩⟩
  unfold step
  cases outcome' with
  | error err =>
    cases fault with
    | some _ => exact keeps_of_quiet h trivial fun _ => id
    | none =>
      have hrestated := hactions (AgentAction.fail (env.mustAgentJSON
        ((Dict.empty.set "ok" (.bool false)).set "error" (.text err.message))) w.now) .failed
        (fun _ => ⟨rfl, rfl, rfl, rfl⟩) fun _ => rfl
      refine ⟨?_, trivial, ⟨row.id, ?_, fun _ _ _ => hsame.id.symm⟩, (fun _ hk => by cases hk)⟩
      · refine h.restate hrow hrestated (fun ap => agrees_running (.inr hstatus) (.inr (.inl rfl))) h.history
          (fun _ _ _ => Iff.rfl) (fun _ _ => rfl) ?_
        exact hsame.id ▸ hfailed err rfl
      · exact AgentWorld.moves_of_restated hrestated fun _ _ => rfl
  | ok result =>
    cases fault with
    | some _ => exact keeps_returns h _ _ _
    | none =>
      have hrestated := hactions (AgentAction.complete (env.mustAgentJSON result) w.now) .completed
        (fun _ => ⟨rfl, rfl, rfl, rfl⟩) fun _ => rfl
      have hstages : ∀ id ≠ row.id,
          lastStage id (.completed action.id :: w.history) = lastStage id w.history := by
        intro id hid
        rw [lastStage, if_neg]
        exact fun hk => hid (hk.symm.trans hsame.id.symm)
      have hlast : lastStage row.id (.completed action.id :: w.history) = some .completed := by
        rw [lastStage, if_pos hsame.id.symm]
      refine ⟨?_, trivial, ⟨row.id, ?_, fun _ _ _ => hsame.id.symm⟩, (fun _ hk => by cases hk)⟩
      · refine h.restate hrow hrestated (fun ap => agrees_running (.inr hstatus) (.inr (.inr rfl)))
          ⟨trivial, h.history⟩ (fun ap d t => ?_) hstages hlast
        simp
      · exact AgentWorld.moves_of_restated hrestated hstages

/-- A step of a call that does not go wrong for want of a condition keeps everything. -/
theorem keeps_step (h : w.Inv) (hfits : t.Fits w) (hguard : t.Guarded w fault) :
    t.Keeps w (t.step env fault outcome w).1 (t.step env fault outcome w).2 := by
  cases t with
  | create c expiresAt => exact keeps_create h c expiresAt
  | decide d approval now => exact keeps_decide h hfits hguard
  | mark e action => exact keeps_mark h hfits hguard
  | executing e action => exact keeps_executing h hfits
  | finish e action outcome' => exact keeps_finish h hfits
  | replay c =>
    unfold step
    dsimp only
    split
    · exact keeps_done h _ _
    · split
      · exact keeps_of_quiet h trivial fun _ => id
      · exact keeps_done h _ _
      · exact keeps_done h _ _
  | prepare c => exact keeps_of_quiet h trivial fun _ => id
  | replayAgain c err =>
    unfold step
    dsimp only
    split
    · exact keeps_done h _ _
    · split <;> exact keeps_done h _ _
  | decideRead d =>
    unfold step
    dsimp only
    split
    · exact keeps_done h _ _
    · split
      · exact keeps_done h _ _
      · next approval hread =>
        split
        · obtain ⟨hfound, hsite⟩ := filter_eq_some_iff.mp hread
          refine keeps_of_quiet h ⟨of_decide_eq_true hsite, approval, ?_, .refl _⟩ fun _ => id
          exact (Table.byId_eq_some.mp hfound).1
        · exact keeps_done h _ _
  | decideClock d approval => exact keeps_of_quiet h hfits fun _ => id
  | execute e =>
    unfold step
    dsimp only
    split
    · exact keeps_returns h _ _ _
    · split
      · exact keeps_returns h _ _ _
      · next action hread =>
        split
        · exact keeps_returns h _ _ _
        · obtain ⟨hfound, -⟩ := filter_eq_some_iff.mp hread
          exact keeps_of_quiet h ⟨action, (Table.byId_eq_some.mp hfound).1, .refl _⟩ fun _ => id
  | reread e action err => exact keeps_returns h _ _ _
  | done action err => exact keeps_done h _ _

end AgentThread

/-! ## Runs -/

namespace AgentSystem

variable {env : AgentEnv} {s : AgentSystem}

/-- A call knows nothing before its first statement, and is not busy. -/
theorem fits_start (env : AgentEnv) (now : Int) (w : AgentWorld) (c : AgentCall) :
    (c.start env now).Fits w ∧ ∀ id, ¬ (c.start env now).BusyOn id := by
  cases c with
  | create cfg req =>
    unfold AgentCall.start
    dsimp only
    split <;> exact ⟨trivial, fun _ => id⟩
  | decide siteId approvalId reviewerId decision comment =>
    unfold AgentCall.start
    dsimp only
    split <;> exact ⟨trivial, fun _ => id⟩
  | execute siteId actionID => exact ⟨trivial, fun _ => id⟩

/-- The invariant is kept by every guarded step. -/
theorem inv_step (h : s.Inv) {e : AgentEvent} (hguard : e.Guarded s) : (s.step env e).Inv := by
  cases e with
  | wait nanos =>
    refine ⟨⟨h.world.1, h.world.2, h.world.3, h.world.4, h.world.5, h.world.6, h.world.7⟩, ?_, h.exclusive⟩
    intro t ht
    refine (h.fits t ht).moves (k := 0) ⟨?_, ?_, fun _ _ => rfl⟩ (h.fits t ht).not_busy_zero
    · exact fun a ha => ⟨a, ha, .refl a, fun _ => rfl⟩
    · exact fun ap hap => ⟨ap, hap, .refl ap⟩
  | call c =>
    obtain ⟨hfits, hbusy⟩ := fits_start env s.shared.clock s.shared c
    exact ⟨h.world, Pool.forall_spawn h.fits hfits, fun id => (h.exclusive id).append (hbusy id)⟩
  | step thread fault outcome =>
    show AgentSystem.Inv (s.stepAt (fun t w => t.step env fault outcome w) thread)
    refine Pool.stepAt_elim (P := fun p : AgentSystem => p.Inv) (fun _ => h) fun t ht => ?_
    have hmem := mem_of_getElem? ht
    have hkeeps : t.Keeps s.shared (t.step env fault outcome s.shared).1 (t.step env fault outcome s.shared).2 :=
      AgentThread.keeps_step h.world (h.fits t hmem) (hguard t ht)
    obtain ⟨k, hmoves, hk⟩ := hkeeps.moves
    refine ⟨hkeeps.inv, ?_, fun id => (h.exclusive id).set ht fun hbusy => ?_⟩
    · refine Pool.forall_mem_set_of_others (fun j x hj hx => ?_) hkeeps.fits
      have hfits := h.fits x (mem_of_getElem? hx)
      refine hfits.moves hmoves fun hxk => hj ?_
      exact h.exclusive k j thread x t hx ht hxk (hk x hfits hxk)
    · exact (hkeeps.busy id hbusy).imp_right fun hnone x hx => hnone x (h.fits x hx)

theorem inv_initial (clock : Int) : (AgentSystem.initial clock).Inv := by
  refine ⟨⟨trivial, ?_, ?_, ?_, ?_, ?_, ?_⟩, ?_, fun _ => Pool.exclusive_nil⟩
  all_goals simp [initial, lastStage]

/-- The invariant gives the laws. -/
theorem consented_of_inv (h : w.Inv) : w.Consented where
  history := h.history
  decided approval d t hmem := by
    obtain ⟨ap, hap, hsame, hd⟩ := h.decided approval d t hmem
    obtain ⟨a, ha, hfor, hagrees⟩ := h.approvals ap hap
    simp only [AgentActionApproval.Agrees, hd] at hagrees
    refine ⟨⟨ap, hap, hsame.id, hagrees.1, hd⟩, a, ha, ?_, hagrees.2⟩
    exact hfor.actionId.symm.trans hsame.actionId
  executed action hmem := by
    have hstage := lastStage_ne_none hmem
    obtain ⟨a, ha, hid⟩ := h.known action.id hstage
    refine ⟨a, ha, hid, fun hst => hstage ?_⟩
    have hfits := h.stages a ha
    rw [hst, hid] at hfits
    exact hfits

end AgentSystem

/-- **Agent actions run once and with consent** in every run of creations, decisions and executions whose
decisions find their approval pending and in time, and whose executions mark an action that waits for one. -/
theorem agent_actions_consented (env : AgentEnv) (clock : Int) (events : List AgentEvent)
    (h : Along (AgentSystem.step env) (fun s e => e.Guarded s) (AgentSystem.initial clock) events) :
    (run (AgentSystem.step env) (AgentSystem.initial clock) events).shared.Consented :=
  AgentSystem.consented_of_inv (run_keeps_along (I := AgentSystem.Inv)
    (fun _ _ hinv hguard => AgentSystem.inv_step hinv hguard) (AgentSystem.inv_initial clock) h).world

/-! ## Runs of two reviewers -/

/-- Libraries that say nothing of the payloads. -/
def sampleAgentEnv : AgentEnv where
  mustAgentJSON _ := "\x7b\x7d"
  sha256Hex s := s

/-- The default settings. -/
def sampleAgentSetting : AgentActionSetting where
  siteID := "prox"
  autoExecuteLowRisk := false
  humanApprovalEnabled := true
  approvalThresholdQuota := 5000000
  minDistinctMessages := 3
  minMessageChars := 4
  riskReviewThreshold := 40
  riskDenyThreshold := 70

/-- A notice for the site, which needs an approval. -/
def sampleNotice : AgentActionRequest where
  actionType := "admin.notice.publish"
  agentName := ""
  targetType := "site"
  targetId := ""
  userId := 7
  quotaAmount := 0
  budgetPool := ""
  idempotencyKey := "notice-1"
  reason := "maintenance"
  payload := .empty
  forceApproval := false

/-- A step of a call without a fault; an execution succeeds. -/
def agentStep (thread : Nat) : AgentEvent := .step thread none (.ok .empty)

/-- A notice is created and two reviewers read its approval. -/
def twoReviewers : List AgentEvent :=
  [.call (.create sampleAgentSetting sampleNotice), agentStep 0, agentStep 0, agentStep 0,
    .call (.decide "prox" 1 8 "approved" ""), .call (.decide "prox" 1 9 " Rejected" "no"),
    agentStep 1, agentStep 2]

/-- The first reviewer approves, and the notice is published. -/
def firstApproves : List AgentEvent := List.replicate 6 (agentStep 1)

/-- The action that an entry says is executed. -/
def AgentRecord.enteredId : AgentRecord → Option Int
  | .entered action => some action.id
  | _ => none

/-- **A published notice is rejected.** The second reviewer has read the approval as pending as well, and his
decision is written after the execution. -/
theorem executed_then_rejected :
    ¬ (run (AgentSystem.step sampleAgentEnv) (AgentSystem.initial 0)
      (twoReviewers ++ firstApproves ++ [agentStep 2, agentStep 2])).shared.Consented := by
  intro h
  have hentered : 1 ∈ (run (AgentSystem.step sampleAgentEnv) (AgentSystem.initial 0)
      (twoReviewers ++ firstApproves ++ [agentStep 2, agentStep 2])).shared.history.filterMap
      AgentRecord.enteredId := by decide +kernel
  have hrejected : ∀ row ∈ (run (AgentSystem.step sampleAgentEnv) (AgentSystem.initial 0)
      (twoReviewers ++ firstApproves ++ [agentStep 2, agentStep 2])).shared.db.actions.rows,
      row.id = 1 → row.status = .rejected := by decide +kernel
  obtain ⟨r, hr, hid⟩ := mem_filterMap.mp hentered
  cases r with
  | entered action =>
    obtain ⟨row, hrow, hrow_id, hstatus⟩ := h.executed action hr
    exact hstatus (hrejected row hrow (hrow_id.trans (Option.some.inj hid)))
  | _ => cases hid

/-- The laws hold where the second reviewer comes after the first. -/
theorem agent_actions_consented_two_reviewers :
    (run (AgentSystem.step sampleAgentEnv) (AgentSystem.initial 0)
      (twoReviewers ++ firstApproves ++ [.call (.execute "prox" 1), agentStep 3])).shared.Consented :=
  agent_actions_consented sampleAgentEnv 0 _ (by decide +kernel)

end Prox
