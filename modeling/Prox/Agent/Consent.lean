import Prox.Agent.Actions

/-! # Agent actions run once and with consent

The history of decisions and executions over every run of creations, decisions and executions: an action
that needs an approval is executed after it was approved in time, an approval is decided once, an action is
executed again only after it failed, and one that was executed is not rejected. It holds as long as the
unconditional updates find the status that a conditional one would ask for. -/

namespace Prox

open List Table

/-! ## The laws -/

/-- How an execution stands. -/
inductive AgentStage where
  | entered
  | failed
  | completed

/-- What the last entry of an execution of an action says. -/
def lastStage (actionId : Int) : List AgentRecord → Option AgentStage
  | [] => none
  | .decided .. :: past => lastStage actionId past
  | .entered action :: past => if action.id = actionId then some .entered else lastStage actionId past
  | .failed id :: past => if id = actionId then some .failed else lastStage actionId past
  | .completed id :: past => if id = actionId then some .completed else lastStage actionId past

/-- An action that was executed has a stage. -/
theorem lastStage_ne_none {action : AgentAction} {history : List AgentRecord}
    (h : .entered action ∈ history) : lastStage action.id history ≠ none := by
  induction history with
  | nil => cases h
  | cons r past ih =>
    rcases mem_cons.mp h with rfl | hpast
    · rw [lastStage, if_pos rfl]
      exact Option.some_ne_none _
    · cases r with
      | decided => exact ih hpast
      | entered | failed | completed =>
        rw [lastStage]
        split
        · exact Option.some_ne_none _
        · exact ih hpast

/-- The entry approves the action before the approval expires. -/
def AgentRecord.Approves (action : AgentAction) : AgentRecord → Prop
  | .decided approval decision decidedAt =>
    approval.actionId = action.id ∧ decision = .approved ∧ decidedAt < approval.expiresAt
  | _ => False

/-- The entry is a decision on the approval. -/
def AgentRecord.Decides (approvalId : Int) : AgentRecord → Prop
  | .decided approval _ _ => approval.id = approvalId
  | _ => False

/-- What an entry of the history may follow: an approval is decided once, and an execution follows no
other but one that failed, and an approval in time if the action needs one. -/
def AgentRecord.Lawful (past : List AgentRecord) : AgentRecord → Prop
  | .decided approval _ _ => ∀ r ∈ past, ¬ r.Decides approval.id
  | .entered action =>
    (lastStage action.id past = none ∨ lastStage action.id past = some .failed) ∧
    (action.approvalRequired = true → ∃ r ∈ past, r.Approves action)
  | _ => True

/-- A status that an action has after a decision. -/
def AgentDecision.Agrees : AgentDecision → AgentActionStatus → Prop
  | .rejected, status => status = .rejected
  | .approved, status => status = .approved ∨ status = .running ∨ status = .failed ∨ status = .completed

/-- Actions run once and with consent. -/
structure AgentWorld.Consented (w : AgentWorld) : Prop where
  /-- Every decision and every execution is lawful after what came before it. -/
  history : Throughout AgentRecord.Lawful w.history
  /-- A decision stays, and the status of its action agrees with it. -/
  decided : ∀ approval decision decidedAt, .decided approval decision decidedAt ∈ w.history →
    (∃ row ∈ w.db.approvals.rows, row.id = approval.id ∧ row.status = decision.status ∧
      row.decision = some decision) ∧
    ∃ row ∈ w.db.actions.rows, row.id = approval.actionId ∧ decision.Agrees row.status
  /-- An action that was executed is not rejected. -/
  executed : ∀ action, .entered action ∈ w.history →
    ∃ row ∈ w.db.actions.rows, row.id = action.id ∧ row.status ≠ .rejected

/-- A status from which an execution may begin. -/
def AgentActionStatus.startable (status : AgentActionStatus) : Bool :=
  status = .queued ∨ status = .approved ∨ status = .failed

/-- The next step of a call does not go wrong for want of a condition on its update: a decision finds its
approval still pending, and not expired if it approves; an execution marks an action that waits for one. -/
def AgentThread.Guarded (w : AgentWorld) (fault : Option Err) : AgentThread → Prop
  | .decide d approval now =>
    fault = none → (w.db.approvals.byId approval.id).any fun row =>
      row.status = .pending ∧ (d.decision = .approved → now < row.expiresAt)
  | .mark _ action => fault = none ∧ (w.db.actions.byId action.id).any (·.status.startable)
  | _ => True

instance (w : AgentWorld) (fault : Option Err) (t : AgentThread) : Decidable (t.Guarded w fault) := by
  cases t <;> unfold AgentThread.Guarded <;> infer_instance

/-- The step is one of a call that does not go wrong for want of a condition. -/
def AgentEvent.Guarded (s : AgentSystem) : AgentEvent → Prop
  | .step thread fault _ => ∀ t ∈ s.threads[thread]?, t.Guarded s.shared fault
  | _ => True

instance (s : AgentSystem) (e : AgentEvent) : Decidable (e.Guarded s) := by
  cases e <;> unfold AgentEvent.Guarded <;> infer_instance

/-! ## The invariant -/

/-- Two versions of one action. -/
structure AgentAction.Same (a a' : AgentAction) : Prop where
  id : a'.id = a.id
  siteId : a'.siteId = a.siteId
  approvalRequired : a'.approvalRequired = a.approvalRequired
  approvalId : a'.approvalId = a.approvalId

/-- Two versions of one approval. -/
structure AgentActionApproval.Same (ap ap' : AgentActionApproval) : Prop where
  id : ap'.id = ap.id
  siteId : ap'.siteId = ap.siteId
  actionId : ap'.actionId = ap.actionId
  expiresAt : ap'.expiresAt = ap.expiresAt

/-- The approval is the one that the action needs. -/
structure AgentActionApproval.For (ap : AgentActionApproval) (a : AgentAction) : Prop where
  actionId : ap.actionId = a.id
  approvalId : a.approvalId = ap.id
  siteId : a.siteId = ap.siteId
  required : a.approvalRequired = true

/-- The columns of an approval agree with each other and with a status of its action. -/
def AgentActionApproval.Agrees (ap : AgentActionApproval) (status : AgentActionStatus) : Prop :=
  match ap.decision with
  | none => ap.status = .pending ∧ status = .pending
  | some decision => ap.status = decision.status ∧ decision.Agrees status

/-- How the last execution stands when an action has a status. -/
def AgentActionStatus.Fits : AgentActionStatus → Option AgentStage → Prop
  | .running, stage => stage = some .entered ∨ stage = some .failed
  | .failed, stage => stage = some .failed
  | .completed, stage => stage = some .completed
  | _, stage => stage = none

/-- What holds of the tables and the history. -/
structure AgentWorld.Inv (w : AgentWorld) : Prop where
  history : Throughout AgentRecord.Lawful w.history
  approvals : ∀ ap ∈ w.db.approvals.rows, ∃ a ∈ w.db.actions.rows, ap.For a ∧ ap.Agrees a.status
  required : ∀ a ∈ w.db.actions.rows, a.approvalRequired = true → ∃ ap ∈ w.db.approvals.rows, ap.For a
  decided : ∀ ap decision decidedAt, .decided ap decision decidedAt ∈ w.history →
    ∃ row ∈ w.db.approvals.rows, ap.Same row ∧ row.decision = some decision
  approved : ∀ row ∈ w.db.approvals.rows, row.decision = some .approved →
    ∃ ap decidedAt, .decided ap .approved decidedAt ∈ w.history ∧ ap.Same row ∧ decidedAt < ap.expiresAt
  stages : ∀ a ∈ w.db.actions.rows, a.status.Fits (lastStage a.id w.history)
  known : ∀ id, lastStage id w.history ≠ none → ∃ a ∈ w.db.actions.rows, a.id = id

/-- The call is between the mark of an action and the end of its execution. -/
def AgentThread.BusyOn (id : Int) : AgentThread → Prop
  | .executing _ action | .finish _ action _ => action.id = id
  | _ => False

/-- What a call knows of the tables and the history. -/
def AgentThread.Fits (w : AgentWorld) : AgentThread → Prop
  | .decideClock d ap | .decide d ap _ =>
    ap.siteId = d.siteId ∧ ∃ row ∈ w.db.approvals.rows, ap.Same row
  | .mark _ action => ∃ row ∈ w.db.actions.rows, action.Same row
  | .executing _ action => ∃ row ∈ w.db.actions.rows, action.Same row ∧ row.status = .running
  | .finish _ action outcome =>
    (∃ row ∈ w.db.actions.rows, action.Same row ∧ row.status = .running) ∧
      (∀ err, outcome = .error err → lastStage action.id w.history = some .failed)
  | _ => True

/-- What holds of the calls, the tables and the history. -/
structure AgentSystem.Inv (s : AgentSystem) : Prop where
  world : s.shared.Inv
  fits : ∀ t ∈ s.threads, t.Fits s.shared
  exclusive : ∀ id, Pool.Exclusive (AgentThread.BusyOn id) s.threads

/-- Nothing changes but the status of one action. -/
structure AgentWorld.Moves (k : Int) (w w' : AgentWorld) : Prop where
  actions : ∀ a ∈ w.db.actions.rows, ∃ a' ∈ w'.db.actions.rows, a.Same a' ∧ (a.id ≠ k → a'.status = a.status)
  approvals : ∀ ap ∈ w.db.approvals.rows, ∃ ap' ∈ w'.db.approvals.rows, ap.Same ap'
  stages : ∀ id ≠ k, lastStage id w'.history = lastStage id w.history

/-- An update of the status of one action. -/
structure Restated (k : Int) (status : AgentActionStatus) (actions actions' : Table AgentAction) : Prop where
  forth : ∀ a ∈ actions.rows, ∃ a' ∈ actions'.rows, a.Same a' ∧ a'.status = if a.id = k then status else a.status
  back : ∀ a' ∈ actions'.rows, ∃ a ∈ actions.rows, a.Same a' ∧ a'.status = if a.id = k then status else a.status

theorem AgentAction.Same.refl (a : AgentAction) : a.Same a := ⟨rfl, rfl, rfl, rfl⟩

variable {a : AgentAction}

theorem AgentAction.Same.trans {a' a'' : AgentAction} (h : a.Same a') (h' : a'.Same a'') :
    a.Same a'' :=
  ⟨h'.id.trans h.id, h'.siteId.trans h.siteId, h'.approvalRequired.trans h.approvalRequired,
    h'.approvalId.trans h.approvalId⟩

theorem AgentActionApproval.Same.refl (ap : AgentActionApproval) : ap.Same ap := ⟨rfl, rfl, rfl, rfl⟩

theorem AgentActionApproval.Same.trans {a a' a'' : AgentActionApproval} (h : a.Same a')
    (h' : a'.Same a'') : a.Same a'' :=
  ⟨h'.id.trans h.id, h'.siteId.trans h.siteId, h'.actionId.trans h.actionId, h'.expiresAt.trans h.expiresAt⟩

variable {ap : AgentActionApproval}

/-- An approval of an action is one of its other versions. -/
theorem AgentActionApproval.For.same {a' : AgentAction} (h : ap.For a) (hs : a.Same a') :
    ap.For a' :=
  ⟨h.actionId.trans hs.id.symm, hs.approvalId.trans h.approvalId, hs.siteId.trans h.siteId,
    hs.approvalRequired.trans h.required⟩

/-- Another version of an approval of an action is one. -/
theorem AgentActionApproval.For.version {ap' : AgentActionApproval} (h : ap.For a)
    (hs : ap.Same ap') : ap'.For a :=
  ⟨hs.actionId.trans h.actionId, h.approvalId.trans hs.id.symm, h.siteId.trans hs.siteId.symm, h.required⟩

theorem restated_updateWhere {actions : Table AgentAction} {p : AgentAction → Bool} {f : Patch AgentAction}
    {k : Int} {status : AgentActionStatus} (hp : ∀ a ∈ actions.rows, (p a = true ↔ a.id = k))
    (hsame : ∀ a : AgentAction, a.Same (f.apply a)) (hstatus : ∀ a, (f.apply a).status = status) :
    Restated k status actions (actions.updateWhere p f).1 := by
  have hrow : ∀ a ∈ actions.rows, a.Same (if p a = true then f.apply a else a) ∧
      (if p a = true then f.apply a else a).status = if a.id = k then status else a.status := by
    intro a ha
    by_cases hk : a.id = k
    · rw [if_pos ((hp a ha).mpr hk), if_pos hk]
      exact ⟨hsame a, hstatus a⟩
    · rw [if_neg (fun h => hk ((hp a ha).mp h)), if_neg hk]
      exact ⟨.refl a, rfl⟩
  constructor
  · intro a ha
    exact ⟨_, mem_map_of_mem ha, hrow a ha⟩
  · intro a' ha'
    obtain ⟨a, ha, rfl⟩ := mem_map.mp ha'
    exact ⟨a, ha, hrow a ha⟩

namespace Restated

variable {k : Int} {status : AgentActionStatus} {actions actions' : Table AgentAction}

theorem forth_of_ne (h : Restated k status actions actions') (ha : a ∈ actions.rows) (hk : a.id ≠ k) :
    ∃ a' ∈ actions'.rows, a.Same a' ∧ a'.status = a.status := by
  obtain ⟨a', ha', hsame, hstatus⟩ := h.forth a ha
  exact ⟨a', ha', hsame, hstatus.trans (if_neg hk)⟩

/-- A table restates itself at the status that a row has. -/
theorem refl {row : AgentAction} (hrow : row ∈ actions.rows) : Restated row.id row.status actions actions := by
  have hstatus : ∀ a ∈ actions.rows, a.status = if a.id = row.id then row.status else a.status := by
    intro a ha
    split
    · next hk => rw [eq_of_id_eq ha hrow hk]
    · rfl
  exact ⟨fun a ha => ⟨a, ha, .refl a, hstatus a ha⟩, fun a ha => ⟨a, ha, .refl a, hstatus a ha⟩⟩

end Restated

/-! ## What the writes keep -/

section Writes

variable {w : AgentWorld} {row : AgentAction} {status : AgentActionStatus} {actions : Table AgentAction}
  {history : List AgentRecord}

/-- Where nothing but an action and its executions change, nothing else does. -/
theorem AgentWorld.moves_of_restated {k : Int} (hactions : Restated k status w.db.actions actions)
    (hstages : ∀ id ≠ k, lastStage id history = lastStage id w.history) :
    w.Moves k { w with db := { w.db with actions := actions }, history := history } where
  actions a ha := by
    obtain ⟨a', ha', hsame, hstatus⟩ := hactions.forth a ha
    exact ⟨a', ha', hsame, fun hk => hstatus.trans (if_neg hk)⟩
  approvals ap hap := ⟨ap, hap, .refl ap⟩
  stages := hstages

/-- The invariant is kept by a new status of an action, and entries about its executions, that fit each
other and agree with its approval. -/
theorem AgentWorld.Inv.restate (h : w.Inv) (hrow : row ∈ w.db.actions.rows)
    (hactions : Restated row.id status w.db.actions actions)
    (hagrees : ∀ ap : AgentActionApproval, ap.Agrees row.status → ap.Agrees status)
    (hhistory : Throughout AgentRecord.Lawful history)
    (hdecided : ∀ ap d t, .decided ap d t ∈ history ↔ .decided ap d t ∈ w.history)
    (hstages : ∀ id ≠ row.id, lastStage id history = lastStage id w.history)
    (hfits : status.Fits (lastStage row.id history)) :
    { w with db := { w.db with actions := actions }, history := history : AgentWorld }.Inv where
  history := hhistory
  approvals ap hap := by
    obtain ⟨a, ha, hfor, hag⟩ := h.approvals ap hap
    obtain ⟨a', ha', hsame, hstatus⟩ := hactions.forth a ha
    refine ⟨a', ha', hfor.same hsame, ?_⟩
    rw [hstatus]
    split
    · next hk =>
      rw [eq_of_id_eq ha hrow hk] at hag
      exact hagrees ap hag
    · exact hag
  required a' ha' hreq := by
    obtain ⟨a, ha, hsame, -⟩ := hactions.back a' ha'
    obtain ⟨ap, hap, hfor⟩ := h.required a ha (hsame.approvalRequired.symm.trans hreq)
    exact ⟨ap, hap, hfor.same hsame⟩
  decided ap d t hmem := h.decided ap d t ((hdecided ap d t).mp hmem)
  approved ap hap hd := by
    obtain ⟨ap', t, hmem, hrest⟩ := h.approved ap hap hd
    exact ⟨ap', t, (hdecided _ _ _).mpr hmem, hrest⟩
  stages a' ha' := by
    obtain ⟨a, ha, hsame, hstatus⟩ := hactions.back a' ha'
    rw [hstatus, hsame.id]
    split
    · next hk => rwa [hk]
    · next hk =>
      rw [hstages a.id hk]
      exact h.stages a ha
  known id hid := by
    have hold : ∃ a ∈ w.db.actions.rows, a.id = id := by
      by_cases hk : id = row.id
      · exact ⟨row, hrow, hk.symm⟩
      · exact h.known id (hstages id hk ▸ hid)
    obtain ⟨a, ha, rfl⟩ := hold
    obtain ⟨a', ha', hsame, -⟩ := hactions.forth a ha
    exact ⟨a', ha', hsame.id⟩

/-- What a decision writes of an approval. -/
structure AgentDecide.Writes (d : AgentDecide) (approvalId : Int) (ap ap' : AgentActionApproval) : Prop where
  same : ap.Same ap'
  decided : ap.id = approvalId → ap'.status = d.decision.status ∧ ap'.decision = some d.decision
  other : ap.id ≠ approvalId → ap' = ap

theorem AgentDecide.writes (d : AgentDecide) (approval : AgentActionApproval) (now : Int) (db : AgentDB) :
    (∀ ap ∈ db.approvals.rows, ∃ ap' ∈ (d.write approval now db).approvals.rows, d.Writes approval.id ap ap') ∧
      ∀ ap' ∈ (d.write approval now db).approvals.rows, ∃ ap ∈ db.approvals.rows,
        d.Writes approval.id ap ap' := by
  have hrow : ∀ ap : AgentActionApproval, d.Writes approval.id ap
      (if decide (ap.id = approval.id) = true then
        (AgentActionApproval.decide d.decision d.comment d.reviewerId now).apply ap else ap) := by
    intro ap
    by_cases hk : ap.id = approval.id
    · rw [if_pos (decide_eq_true hk)]
      exact ⟨⟨rfl, rfl, rfl, rfl⟩, fun _ => ⟨rfl, rfl⟩, fun h => absurd hk h⟩
    · rw [if_neg (fun h => hk (of_decide_eq_true h))]
      exact ⟨.refl ap, fun h => absurd h hk, fun _ => rfl⟩
  refine ⟨fun ap hap => ⟨_, mem_map_of_mem hap, hrow ap⟩, fun ap' hap' => ?_⟩
  obtain ⟨ap, hap, rfl⟩ := mem_map.mp hap'
  exact ⟨ap, hap, hrow ap⟩

/-- A decision on an approval that is pending, with the action that waits for it. -/
structure AgentWorld.Deciding (w : AgentWorld) (d : AgentDecide) (approval ap : AgentActionApproval)
    (row : AgentAction) (now : Int) : Prop where
  mem : ap ∈ w.db.approvals.rows
  none : ap.decision = none
  row_mem : row ∈ w.db.actions.rows
  for_row : ap.For row
  pending : row.status = .pending
  same : approval.Same ap
  site : approval.siteId = d.siteId
  time : d.decision = .approved → now < ap.expiresAt

/-- A pending approval has an action that waits for it. -/
theorem AgentWorld.Inv.deciding (h : w.Inv) (hap : ap ∈ w.db.approvals.rows)
    (hpending : ap.status = .pending) {d : AgentDecide} {approval : AgentActionApproval}
    (hsame : approval.Same ap) (hsite : approval.siteId = d.siteId) {now : Int}
    (htime : d.decision = .approved → now < ap.expiresAt) :
    ∃ row, w.Deciding d approval ap row now := by
  obtain ⟨row, hrow, hfor, hagrees⟩ := h.approvals ap hap
  unfold AgentActionApproval.Agrees at hagrees
  split at hagrees
  · next hd => exact ⟨row, hap, hd, hrow, hfor, hagrees.2, hsame, hsite, htime⟩
  · next d _ =>
    rw [hpending] at hagrees
    cases d <;> cases hagrees.1

namespace AgentWorld.Deciding

variable {d : AgentDecide} {approval : AgentActionApproval} {now : Int}

variable (c : w.Deciding d approval ap row now)

include c

theorem row_id : row.id = approval.actionId :=
  c.for_row.actionId.symm.trans c.same.actionId

/-- The approval of the id that is decided. -/
theorem eq_ap {x : AgentActionApproval}
    (hx : x ∈ w.db.approvals.rows) (hk : x.id = approval.id) : x = ap :=
  eq_of_id_eq hx c.mem (hk.trans c.same.id.symm)

/-- The action that is decided. -/
theorem eq_row (ha : a ∈ w.db.actions.rows)
    (hk : a.id = approval.actionId) : a = row :=
  eq_of_id_eq ha c.row_mem (hk.trans c.row_id.symm)

/-- An action with another approval is another action. -/
theorem ne_row {x : AgentActionApproval}
    (ha : a ∈ w.db.actions.rows) (hfor : x.For a) (hk : x.id ≠ approval.id) :
    a.id ≠ approval.actionId := by
  intro hid
  rw [c.eq_row ha hid] at hfor
  exact hk (hfor.approvalId.symm.trans (c.for_row.approvalId.trans c.same.id))

theorem restated :
    Restated approval.actionId d.decision.actionStatus w.db.actions (d.write approval now w.db).actions := by
  refine restated_updateWhere (fun a ha => ?_) (fun a => ⟨rfl, rfl, rfl, rfl⟩) fun a => rfl
  rw [decide_eq_true_iff]
  refine ⟨And.left, fun hk => ⟨hk, ?_⟩⟩
  rw [c.eq_row ha hk, c.for_row.siteId, c.same.siteId, c.site]

/-- No decision on the approval has been made before. -/
theorem fresh (h : w.Inv) :
    ∀ r ∈ w.history, ¬ r.Decides approval.id := by
  intro r hr hdec
  cases r with
  | decided ap' d' t =>
    obtain ⟨row', hrow', hsame, hd'⟩ := h.decided ap' d' t hr
    rw [c.eq_ap hrow' (hsame.id.trans hdec), c.none] at hd'
    cases hd'
  | entered => exact hdec
  | failed => exact hdec
  | completed => exact hdec

/-- After the decision, every approval agrees with its action. -/
theorem approvals (h : w.Inv) :
    ∀ x' ∈ (d.write approval now w.db).approvals.rows,
      ∃ a' ∈ (d.write approval now w.db).actions.rows, x'.For a' ∧ x'.Agrees a'.status := by
  intro x' hx'
  obtain ⟨x, hx, hwrites⟩ := (d.writes approval now w.db).2 x' hx'
  by_cases hk : x.id = approval.id
  · obtain ⟨row', hrow', hsame, hstatus⟩ := c.restated.forth row c.row_mem
    obtain ⟨hst, hdec⟩ := hwrites.decided hk
    have hfor : x.For row := c.eq_ap hx hk ▸ c.for_row
    refine ⟨row', hrow', (hfor.version hwrites.same).same hsame, ?_⟩
    rw [hstatus, if_pos c.row_id]
    simp only [AgentActionApproval.Agrees, hdec]
    refine ⟨hst, ?_⟩
    cases d.decision
    · exact .inl rfl
    · rfl
  · obtain ⟨a, ha, hfor, hagrees⟩ := h.approvals x hx
    obtain ⟨a', ha', hsame, hstatus⟩ := c.restated.forth_of_ne ha (c.ne_row ha hfor hk)
    obtain rfl : x' = x := hwrites.other hk
    exact ⟨a', ha', hfor.same hsame, hstatus.symm ▸ hagrees⟩

/-- After the decision, every decision is on the row of its approval. -/
theorem decided (h : w.Inv) :
    ∀ ap' d' t, .decided ap' d' t ∈ AgentRecord.decided approval d.decision now :: w.history →
      ∃ x' ∈ (d.write approval now w.db).approvals.rows, ap'.Same x' ∧ x'.decision = some d' := by
  intro ap' d' t hmem
  rcases mem_cons.mp hmem with heq | hmem
  · cases heq
    obtain ⟨x', hx', hwrites⟩ := (d.writes approval now w.db).1 ap c.mem
    exact ⟨x', hx', c.same.trans hwrites.same, (hwrites.decided c.same.id).2⟩
  · obtain ⟨x, hx, hsame, hd'⟩ := h.decided ap' d' t hmem
    obtain ⟨x', hx', hwrites⟩ := (d.writes approval now w.db).1 x hx
    have hk : x.id ≠ approval.id := by
      intro hk
      rw [c.eq_ap hx hk, c.none] at hd'
      cases hd'
    exact ⟨x', hx', hsame.trans hwrites.same, hwrites.other hk ▸ hd'⟩

/-- After the decision, every approved approval was approved in time. -/
theorem approved (h : w.Inv) :
    ∀ x' ∈ (d.write approval now w.db).approvals.rows, x'.decision = some .approved →
      ∃ ap' t, .decided ap' .approved t ∈ AgentRecord.decided approval d.decision now :: w.history ∧
        ap'.Same x' ∧ t < ap'.expiresAt := by
  intro x' hx' hd'
  obtain ⟨x, hx, hwrites⟩ := (d.writes approval now w.db).2 x' hx'
  by_cases hk : x.id = approval.id
  · have happroved : d.decision = .approved := Option.some.inj ((hwrites.decided hk).2.symm.trans hd')
    refine ⟨approval, now, happroved ▸ mem_cons_self, ?_, c.same.expiresAt ▸ c.time happroved⟩
    exact c.same.trans (c.eq_ap hx hk ▸ hwrites.same)
  · rw [hwrites.other hk] at hd'
    obtain ⟨ap', t, hmem, hsame, ht⟩ := h.approved x hx hd'
    exact ⟨ap', t, mem_cons_of_mem _ hmem, hsame.trans hwrites.same, ht⟩

/-- After the decision, every status fits the executions. -/
theorem stages (h : w.Inv) :
    ∀ a' ∈ (d.write approval now w.db).actions.rows, a'.status.Fits (lastStage a'.id w.history) := by
  intro a' ha'
  obtain ⟨a, ha, hsame, hstatus⟩ := c.restated.back a' ha'
  have hstage := h.stages a ha
  rw [hstatus, hsame.id]
  split
  · next hk =>
    rw [c.eq_row ha hk, c.pending] at hstage
    rw [c.eq_row ha hk]
    cases d.decision <;> exact hstage
  · exact hstage

/-- The invariant is kept by a decision on a pending approval, in time if it approves. -/
theorem inv (h : w.Inv) :
    ({ w with db := d.write approval now w.db }.log (.decided approval d.decision now)).Inv where
  history := ⟨c.fresh h, h.history⟩
  approvals := c.approvals h
  required a' ha' hreq := by
    obtain ⟨a, ha, hsame, -⟩ := c.restated.back a' ha'
    obtain ⟨x, hx, hfor⟩ := h.required a ha (hsame.approvalRequired.symm.trans hreq)
    obtain ⟨x', hx', hwrites⟩ := (d.writes approval now w.db).1 x hx
    exact ⟨x', hx', (hfor.version hwrites.same).same hsame⟩
  decided := c.decided h
  approved := c.approved h
  stages := c.stages h
  known id hid := by
    obtain ⟨a, ha, rfl⟩ := h.known id hid
    obtain ⟨a', ha', hsame, -⟩ := c.restated.forth a ha
    exact ⟨a', ha', hsame.id⟩

theorem moves : w.Moves approval.actionId
    ({ w with db := d.write approval now w.db }.log (.decided approval d.decision now)) where
  actions a ha := by
    obtain ⟨a', ha', hsame, hstatus⟩ := c.restated.forth a ha
    exact ⟨a', ha', hsame, fun hk => hstatus.trans (if_neg hk)⟩
  approvals x hx := by
    obtain ⟨x', hx', hwrites⟩ := (d.writes approval now w.db).1 x hx
    exact ⟨x', hx', hwrites.same⟩
  stages _ _ := rfl

end AgentWorld.Deciding

/-- The rows that a creation adds. -/
structure AgentDB.Adds (db db' : AgentDB) (row : AgentAction) : Prop where
  create : db.actions.create row = some db'.actions
  id : row.id = db.actions.nextId
  approval : (row.approvalRequired = false ∧ row.status = .queued ∧ db'.approvals = db.approvals) ∨
    ∃ ap : AgentActionApproval, db.approvals.create ap = some db'.approvals ∧ ap.For row ∧
      row.status = .pending ∧ ap.status = .pending ∧ ap.decision = none

/-- A creation adds an action that is queued, or one that is pending with its approval. -/
theorem createAgentActionWithApprovalTx_ok {env : AgentEnv} {c : AgentCreate} {expiresAt now : Int}
    {db db' : AgentDB} {action : AgentAction}
    (h : createAgentActionWithApprovalTx env c expiresAt now db = .ok (action, db')) : db.Adds db' action := by
  unfold createAgentActionWithApprovalTx at h
  dsimp only at h
  split at h
  · cases h
  · next actions hcreate =>
    split at h
    · next hreq =>
      split at h
      · cases h
      · next approvals hcreate' =>
        cases h
        refine ⟨?_, rfl, .inr ⟨_, hcreate', ⟨rfl, rfl, rfl, hreq⟩, ?_, rfl, rfl⟩⟩
        · exact create_updateWhere hcreate _ fun x => decide_eq_true_iff
        · exact if_pos hreq
    · next hreq =>
      cases h
      exact ⟨hcreate, rfl, .inl ⟨eq_false_of_ne_true hreq, if_neg hreq, rfl⟩⟩

namespace AgentDB.Adds

variable {db' : AgentDB}

/-- The approvals are still there. -/
theorem mem_approvals (c : w.db.Adds db' row) (hap : ap ∈ w.db.approvals.rows) :
    ap ∈ db'.approvals.rows := by
  rcases c.approval with ⟨-, -, heq⟩ | ⟨ap', hcreate, -⟩
  · rwa [heq]
  · exact (mem_of_create hcreate).mpr (.inl hap)

/-- An approval was there, or it is the one of the new action. -/
theorem approvals (c : w.db.Adds db' row) (hap : ap ∈ db'.approvals.rows) :
    ap ∈ w.db.approvals.rows ∨
      ap.For row ∧ row.status = .pending ∧ ap.status = .pending ∧ ap.decision = none := by
  rcases c.approval with ⟨-, -, heq⟩ | ⟨ap', hcreate, hnew⟩
  · exact .inl (heq ▸ hap)
  · rcases (mem_of_create hcreate).mp hap with hold | rfl
    · exact .inl hold
    · exact .inr hnew

/-- The invariant is kept by a creation. -/
theorem inv (c : w.db.Adds db' row) (h : w.Inv) : { w with db := db' : AgentWorld }.Inv where
  history := h.history
  approvals ap hap := by
    rcases c.approvals hap with hap | ⟨hfor, hrow, hst, hnone⟩
    · obtain ⟨a, ha, hrest⟩ := h.approvals ap hap
      exact ⟨a, (mem_of_create c.create).mpr (.inl ha), hrest⟩
    · refine ⟨row, (mem_of_create c.create).mpr (.inr rfl), hfor, ?_⟩
      simp only [AgentActionApproval.Agrees, hnone]
      exact ⟨hst, hrow⟩
  required a ha hreq := by
    rcases (mem_of_create c.create).mp ha with ha | rfl
    · obtain ⟨ap, hap, hfor⟩ := h.required a ha hreq
      exact ⟨ap, c.mem_approvals hap, hfor⟩
    · rcases c.approval with ⟨hnot, -⟩ | ⟨ap, hcreate, hfor, -⟩
      · rw [hreq] at hnot
        cases hnot
      · exact ⟨ap, (mem_of_create hcreate).mpr (.inr rfl), hfor⟩
  decided ap d t hmem := by
    obtain ⟨x, hx, hrest⟩ := h.decided ap d t hmem
    exact ⟨x, c.mem_approvals hx, hrest⟩
  approved ap hap hd := by
    rcases c.approvals hap with hap | ⟨-, -, -, hnone⟩
    · exact h.approved ap hap hd
    · rw [hnone] at hd
      cases hd
  stages a ha := by
    rcases (mem_of_create c.create).mp ha with ha | rfl
    · exact h.stages a ha
    · -- no execution has the new id
      have hnone : lastStage a.id w.history = none := by
        by_contra hne
        obtain ⟨x, hx, hid⟩ := h.known _ hne
        have hlt : x.id < w.db.actions.nextId := id_lt_nextId hx
        have hid' := c.id
        omega
      rcases c.approval with ⟨-, hst, -⟩ | ⟨ap, -, -, hst, -⟩ <;> rw [hst] <;> exact hnone
  known id hid := by
    obtain ⟨a, ha, hida⟩ := h.known id hid
    exact ⟨a, (mem_of_create c.create).mpr (.inl ha), hida⟩

theorem moves (c : w.db.Adds db' row) (k : Int) : w.Moves k { w with db := db' } where
  actions a ha := ⟨a, (mem_of_create c.create).mpr (.inl ha), .refl a, fun _ => rfl⟩
  approvals ap hap := ⟨ap, c.mem_approvals hap, .refl ap⟩
  stages _ _ := rfl

end AgentDB.Adds

end Writes

end Prox
