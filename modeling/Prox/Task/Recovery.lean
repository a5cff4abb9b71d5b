import Prox.Task.ExactlyOnce

/-! # Recovery of the outbox

An operation is never stuck: once its lease and its delay are over, a worker that claims it and meets
no error completes it in nine transactions at most. `Stage.rest` is the variant of the worker loop,
`Outbox.Leased` the invariant of its row. -/

namespace Prox

open Function List Outbox TaskBillingOperation

/-- The transactions from a stage to the completion, at most. -/
def Stage.rest : Stage → Nat
  | .funding => 9
  | .markFunding => 8
  | .token => 7
  | .invalidate => 6
  | .markInvalidated => 5
  | .usage => 4
  | .log => 3
  | .markLog => 2
  | .complete => 1
  | .retry _ => 0

variable {i k : Nat} {o : TaskBillingOperation} {stage : Stage} {env : OutboxEnv}
  {envs : List OutboxEnv} {db : Outbox} {s : OutboxSystem}

namespace Outbox

/-- The open operation is leased to the copy `o`, and `n` transactions remain: a step is marked when
the copy has its mark or its transactions are over, and an adjustment that is still to be made is
accepted by the funding source. -/
structure Leased (db : Outbox) (o : TaskBillingOperation) (n : Nat) : Prop where
  key_ne : trimSpace o.operationKey ≠ ""
  held : db.operation.leaseToken = o.leaseToken ∧ db.operation.completedAt = 0
  accepts : n = 9 → ∀ env, env.fault = none →
    ∃ applied, (applyTaskBillingFunding env o db).1 = .ok applied
  funding : n < 8 ∨ o.fundingApplied = true → db.operation.fundingApplied = true
  token : n < 7 ∨ o.tokenApplied = true → db.operation.tokenApplied = true
  cache : n < 5 ∨ o.tokenCacheInvalidated = true → db.operation.tokenCacheInvalidated = true
  usage : n < 4 ∨ o.usageApplied = true → db.operation.usageApplied = true
  log : n < 2 ∨ o.logApplied = true → db.operation.logApplied = true

/-- The stage is at most `k` transactions from the completion. -/
def Ready (db : Outbox) (o : TaskBillingOperation) (k : Nat) (stage : Stage) : Prop :=
  0 < stage.rest ∧ stage.rest ≤ k ∧ db.Leased o stage.rest

theorem Leased.here (stage : Stage) (h : db.Leased o stage.rest) (hpos : 0 < stage.rest) :
    db.Ready o stage.rest stage :=
  ⟨hpos, le_rfl, h⟩

/-- A stage is done next or skipped for a later one. -/
theorem Leased.ite (stage : Stage) (h : db.Leased o stage.rest) (hpos : 0 < stage.rest) {c : Bool}
    {j : Nat} {later : Stage} (hj : j ≤ stage.rest) (hlater : c = true → db.Ready o j later) :
    db.Ready o stage.rest (if c then later else stage) := by
  split
  · next hc =>
    obtain ⟨hlpos, hrest, hl⟩ := hlater hc
    exact ⟨hlpos, hrest.trans hj, hl⟩
  · exact h.here _ hpos

theorem Leased.afterUsage (h : db.Leased o 3) : db.Ready o 3 o.afterUsage :=
  h.ite .log (j := 1) (by decide) (by decide) fun hl =>
    Leased.here .complete (by grind [Leased, Stage.rest]) (by decide)

theorem Leased.afterInvalidation (h : db.Leased o 4) : db.Ready o 4 o.afterInvalidation :=
  h.ite .usage (by decide) (by decide) fun hu => afterUsage (by grind [Leased])

theorem Leased.afterToken (h : db.Leased o 6) : db.Ready o 6 o.afterToken :=
  h.ite .invalidate (by decide) (by decide) fun hc =>
    afterInvalidation (by grind [Leased])

theorem Leased.afterFunding (h : db.Leased o 7) : db.Ready o 7 o.afterFunding :=
  h.ite .token (by decide) (by decide) fun ht => afterToken (by grind [Leased])

/-- A claimed row is ready for the first stage of its copy. -/
theorem ready_firstStage (hop : db.operation = o) (hkey : trimSpace o.operationKey ≠ "")
    (hopen : o.completedAt = 0) (haccepts : o.fundingApplied = false → ∀ env, env.fault = none →
      ∃ applied, (applyTaskBillingFunding env o db).1 = .ok applied) :
    db.Ready o 9 o.firstStage := by
  subst hop
  unfold firstStage
  split
  · next hf =>
    have hl : db.Leased db.operation 7 := by grind [Leased]
    obtain ⟨hpos, hrest, hl⟩ := hl.afterFunding
    exact ⟨hpos, by omega, hl⟩
  · have hl : db.Leased db.operation 9 := by grind [Leased]
    exact hl.here .funding (by decide)

/-- A transaction that succeeds, after which `n` transactions remain. -/
def Earns {α : Type} (o : TaskBillingOperation) (n : Nat) (r : Except Err α × Outbox) : Prop :=
  ∃ a db', r = (.ok a, db') ∧ db'.Leased o n

theorem Leased.load {n : Nat} (h : db.Leased o n) :
    loadLeasedTaskBillingOperationTx o.leaseToken db = .ok db.operation :=
  failIf_bind_eq_ok.mpr ⟨not_or.mpr ⟨not_not.mpr h.held.2, not_not.mpr h.held.1⟩, rfl⟩

section

variable (hfault : env.fault = none)

include hfault

/-- Without a fault it is enough that the body succeeds. -/
theorem earns_of_body {α : Type} {n : Nat} {a : α} {db' : Outbox}
    {body : Outbox → Except Err (α × Outbox)} (hbody : body db = .ok (a, db'))
    (h : db'.Leased o n) : Earns o n (transaction env.fault body db) := by
  rw [hfault]
  exact ⟨a, db', transaction_ok hbody, h⟩

theorem Leased.applyTaskBillingFunding (h : db.Leased o 9) :
    Earns o 8 (applyTaskBillingFunding env o db) := by
  obtain ⟨applied, hrun⟩ := h.accepts rfl env hfault
  have hop : (Prox.applyTaskBillingFunding env o db).2.operation = db.operation := by
    unfold Prox.applyTaskBillingFunding
    split <;> rfl
  exact ⟨applied, _, Prod.ext hrun rfl, by grind [Leased]⟩

theorem Leased.markTaskBillingOperationStep {n m : Nat} (h : db.Leased o n) (column : StepColumn)
    (hm : Leased { db with operation := db.operation.mark (leaseRenewal env.now) column } o m) :
    Earns o m (markTaskBillingOperationStep env o.leaseToken column db) :=
  earns_of_body hfault (failIf_bind_eq_ok.mpr ⟨not_not.mpr h.held, rfl⟩) hm

theorem Leased.applyTaskBillingTokenStep (h : db.Leased o 7) :
    Earns o 6 (applyTaskBillingTokenStep env o.leaseToken db) := by
  by_cases ht : db.operation.tokenApplied = true
  · exact earns_of_body hfault (by rw [h.load]; exact if_pos ht) (by grind [Leased])
  · refine earns_of_body hfault (by rw [h.load]; exact if_neg ht) ?_
    grind [Leased]

theorem Leased.applyTaskBillingUsageStep (h : db.Leased o 4) :
    Earns o 3 (applyTaskBillingUsageStep env o.leaseToken db) := by
  by_cases hu : db.operation.usageApplied = true
  · exact earns_of_body hfault (by rw [h.load]; exact if_pos hu) (by grind [Leased])
  · refine earns_of_body hfault (by rw [h.load]; exact if_neg hu) ?_
    grind [Leased]

theorem Leased.recordTaskBillingLogIdempotent (h : db.Leased o 3) :
    Earns o 2 (recordTaskBillingLogIdempotent env o db) := by
  by_cases hoff : o.logType = .consume ∧ env.logConsumeEnabled = false
  · exact earns_of_body hfault (failIf_bind_eq_ok.mpr ⟨h.key_ne, if_pos hoff⟩) (by grind [Leased])
  · refine earns_of_body hfault (failIf_bind_eq_ok.mpr ⟨h.key_ne, if_neg hoff⟩) ?_
    grind [Leased]

end

end Outbox

namespace OutboxSystem

/-- Worker `i` has completed the operation, or does so in at most `k` transactions. -/
def Nearly (s : OutboxSystem) (i : Nat) (o : TaskBillingOperation) (k : Nat) : Prop :=
  s.workers i = .idle ∧ s.db.operation.Completed ∨
    ∃ stage, s.workers i = .busy o stage ∧ s.db.Ready o k stage

/-- **Step lemma**: a transaction without a fault brings the worker closer to the completion. -/
theorem Nearly.advance (h : s.Nearly i o k) (hfault : env.fault = none) :
    (s.advance env i).Nearly i o (k - 1) := by
  rcases h with h | ⟨stage, hbusy, hpos, hrest, hl⟩
  · rw [OutboxSystem.advance, h.1]
    exact .inl h
  have hnext : ∀ {s' : OutboxSystem} {j later}, s'.workers i = .busy o later →
      s'.db.Ready o j later → j < stage.rest → s'.Nearly i o (k - 1) := fun hb hr hj =>
    .inr ⟨_, hb, hr.1, by have := hr.2.1; omega, hr.2.2⟩
  have hset : ∀ {w}, update s.workers i w i = w := update_self ..
  simp only [OutboxSystem.advance, hbusy]
  cases stage with
  | funding =>
    obtain ⟨_, _, hrun, hl⟩ := hl.applyTaskBillingFunding hfault
    simp only [hrun]
    exact hnext hset (hl.here _ (by decide)) (by decide)
  | markFunding =>
    obtain ⟨_, _, hrun, hl⟩ := hl.markTaskBillingOperationStep (m := 7) hfault .fundingApplied
      (by grind [Leased, mark, Stage.rest])
    simp only [hrun]
    exact hnext hset hl.afterFunding (by decide)
  | token =>
    obtain ⟨_, _, hrun, hl⟩ := hl.applyTaskBillingTokenStep hfault
    simp only [hrun]
    exact hnext hset hl.afterToken (by decide)
  | invalidate =>
    have hl : s.db.Leased o 5 := by grind [Leased, Stage.rest]
    exact hnext hset (hl.here _ (by decide)) (by decide)
  | markInvalidated =>
    obtain ⟨_, _, hrun, hl⟩ := hl.markTaskBillingOperationStep (m := 4) hfault
      .tokenCacheInvalidated (by grind [Leased, mark, Stage.rest])
    simp only [hrun]
    exact hnext hset hl.afterInvalidation (by decide)
  | usage =>
    obtain ⟨_, _, hrun, hl⟩ := hl.applyTaskBillingUsageStep hfault
    simp only [hrun]
    exact hnext hset hl.afterUsage (by decide)
  | log =>
    obtain ⟨_, _, hrun, hl⟩ := hl.recordTaskBillingLogIdempotent hfault
    simp only [hrun]
    exact hnext hset (hl.here _ (by decide)) (by decide)
  | markLog =>
    obtain ⟨_, _, hrun, hl⟩ := hl.markTaskBillingOperationStep (m := 1) hfault .logApplied
      (by grind [Leased, mark, Stage.rest])
    simp only [hrun]
    exact hnext hset (hl.here _ (by decide)) (by decide)
  | complete =>
    have hrun : completeTaskBillingOperation env o.leaseToken s.db
        = (.ok (), { s.db with operation := s.db.operation.complete env.now }) := by
      rw [completeTaskBillingOperation, hfault]
      exact transaction_ok (failIf_bind_eq_ok.mpr ⟨by grind [Leased, Stage.rest], rfl⟩)
    simp only [hrun]
    exact .inl ⟨hset, .inr rfl⟩
  | retry message => exact absurd hpos (Nat.lt_irrefl 0)

/-- **Run lemma**: enough transactions without a fault complete the operation. -/
theorem Nearly.run (h : s.Nearly i o k) (hfault : ∀ env ∈ envs, env.fault = none)
    (hk : k ≤ envs.length) :
    (run OutboxSystem.step s (envs.map (.advance i))).db.operation.Completed := by
  induction envs generalizing s k with
  | nil =>
    rcases h with h | ⟨stage, -, hpos, hrest, -⟩
    · exact h.2
    · exact absurd (hpos.trans_le (hrest.trans hk)) (Nat.lt_irrefl 0)
  | cons env envs ih =>
    obtain ⟨henv, henvs⟩ := forall_mem_cons.mp hfault
    exact ih (h.advance henv) henvs (Nat.sub_le_of_le_add hk)

end OutboxSystem

/-- **Recovery.** Whatever the workers have done so far, as soon as the lease and the delay of an open
operation are over, a worker that claims it and then meets no error in nine transactions completes it,
provided the funding source accepts an adjustment that is not marked yet. -/
theorem outbox_recovers (s : OutboxSystem) (hkey : trimSpace s.db.operation.operationKey ≠ "")
    (hopen : s.db.operation.completedAt = 0) (i : Nat) (now leaseSeconds : Int)
    (leaseToken : String) (hlease : s.db.operation.leaseUntil ≤ now)
    (hdue : s.db.operation.nextAttemptAt ≤ now)
    (hfunding : s.db.operation.fundingApplied = false → ∀ env, env.fault = none →
      ∃ applied, (applyTaskBillingFunding env s.db.operation s.db).1 = .ok applied)
    (envs : List OutboxEnv) (hfault : ∀ env ∈ envs, env.fault = none) (hlength : 9 ≤ envs.length) :
    (run OutboxSystem.step s (.claim i s.db.operation.operationKey now leaseSeconds leaseToken ::
      envs.map (.advance i))).db.operation.Completed := by
  simp only [run_cons, OutboxSystem.step, claimTaskBillingOperation, hopen, hlease, hdue,
    and_self, if_true]
  refine OutboxSystem.Nearly.run (.inr ⟨_, update_self .., ready_firstStage rfl hkey hopen ?_⟩)
    hfault hlength
  simp only [applyTaskBillingFunding, apply_ite Prod.fst] at hfunding ⊢
  exact hfunding

/-- A worker dies after the funding step, and the next one completes the operation. -/
theorem outbox_recovers_sample :
    (run OutboxSystem.step (run OutboxSystem.step (.sample 1) ((takeover true 0).take 3))
      (.claim 1 "task:t1:recalculate_130" 130 30 "b" ::
        (replicate 9 ⟨131, none, true⟩).map (.advance 1))).db.operation.Completed := by
  refine outbox_recovers _ (by decide +kernel) (by decide) 1 130 30 "b" (by decide) (by decide)
    (fun _ env henv => ⟨false, ?_⟩) _ (fun env henv => by rw [eq_of_mem_replicate henv]) (by decide)
  obtain ⟨now, fault, logs⟩ := env
  subst henv
  show (applyTaskBillingFunding ⟨0, none, true⟩ _ _).1 = _
  decide +kernel

end Prox
