import Prox.Subscription.Effect

/-! # Runs of subscription billing

One constructor per exported operation, the step function that executes one call in an environment,
and the inversion of a step into effects. A list of events is one interleaving of calls, replays,
resets and failures. -/

namespace Prox

/-- A call on the subscription quota. -/
inductive SubscriptionCall where
  | preConsume (requestId : String) (userId amount : Int)
  | resize (requestID : String) (userID userSubscriptionID targetQuota : Int)
  | settle (requestID : String) (userID userSubscriptionID actualQuota : Int)
  | refund (requestId : String)
  | postConsume (userSubscriptionID delta : Int) (requestID transactionType idempotencyKey : String)
  | resetDue (limit : Int)

/-- The error a call returns and the tables after it. -/
def SubscriptionCall.exec (env : SubscriptionEnv) (db : SubscriptionDB) :
    SubscriptionCall → Option Err × SubscriptionDB
  | .preConsume requestId userId amount =>
    outcome (preConsumeUserSubscription env requestId userId amount db)
  | .resize requestID userID userSubscriptionID targetQuota =>
    outcome (resizeSubscriptionPreConsume (env.faults 0) requestID userID userSubscriptionID
      targetQuota db)
  | .settle requestID userID userSubscriptionID actualQuota =>
    outcome (settleSubscriptionPreConsume (env.faults 0) requestID userID userSubscriptionID
      actualQuota db)
  | .refund requestId => outcome (refundSubscriptionPreConsume (env.faults 0) requestId db)
  | .postConsume userSubscriptionID delta requestID transactionType idempotencyKey =>
    outcome (postConsumeUserSubscriptionDeltaIdempotent (env.faults 0) userSubscriptionID delta
      requestID transactionType idempotencyKey db)
  | .resetDue limit =>
    ((resetDueSubscriptions env limit db).1.2, (resetDueSubscriptions env limit db).2)

/-- The request whose hold a call moves and the quota it asks for. -/
def SubscriptionCall.target : SubscriptionCall → Option (String × Int)
  | .preConsume requestId _ amount =>
    (normalizeSubscriptionRequest requestId).toOption.map (·, amount)
  | .resize requestID _ _ targetQuota =>
    (normalizeSubscriptionRequest requestID).toOption.map (·, targetQuota)
  | .settle requestID _ _ actualQuota =>
    (normalizeSubscriptionRequest requestID).toOption.map (·, actualQuota)
  | .refund requestId => (normalizeSubscriptionRequest requestId).toOption.map (·, 0)
  | .postConsume .. => none
  | .resetDue _ => none

/-- The direct mutation, which belongs to no hold. -/
def SubscriptionCall.isMutation : SubscriptionCall → Bool
  | .postConsume .. => true
  | _ => false

/-- One call together with the environment it runs in. -/
structure SubscriptionEvent where
  call : SubscriptionCall
  env : SubscriptionEnv

/-- The tables after an event. -/
def SubscriptionDB.step (db : SubscriptionDB) (e : SubscriptionEvent) : SubscriptionDB :=
  (e.call.exec e.env db).2

/-- Tables in which every subscription was just created with an unused quota. -/
structure SubscriptionDB.Fresh (db : SubscriptionDB) : Prop where
  unused : ∀ s ∈ db.subs.rows, s.amountUsed = 0
  no_records : db.records.rows = []
  no_journal : db.journal.rows = []
  no_resets : ∀ id, db.resetMark id = 0

/-! ## Inversion of a step -/

/-- What a call can do to the tables: effects on the reset schedule, then at most one effect on the
hold it is about. A call that finds an existing hold does nothing before. -/
inductive SubscriptionCall.Did (c : SubscriptionCall) (db db' : SubscriptionDB) : Prop
  | rescheduled (h : Rescheduled db db')
  | mutated (hc : c.isMutation) (h : SubscriptionEffect .mutation db db')
  | moved (k : String) (q : Int) (db₁ : SubscriptionDB) (hc : c.target = some (k, q))
      (hresched : Rescheduled db db₁) (hfirst : db₁ = db ∨ db.records.byKey k = none)
      (h : SubscriptionEffect (.hold k q) db₁ db')

variable (env : SubscriptionEnv)

theorem preConsumeUserSubscription_did (requestId : String)
    (userId amount : Int) (db : SubscriptionDB) :
    (SubscriptionCall.preConsume requestId userId amount).Did db
      (preConsumeUserSubscription env requestId userId amount db).2 := by
  unfold preConsumeUserSubscription
  rcases checked_transaction_cases _ (env.faults 0) _ db with
    ⟨e, he⟩ | ⟨k, result, db', hargs, hbody, he⟩
  · rw [he]; exact .rescheduled .refl
  · rw [he]
    simp only [ok_iff, not_le] at hargs
    obtain ⟨-, _, hk, hamount, rfl⟩ := hargs
    rcases preConsumeUserSubscriptionTx_effect (normalizeSubscriptionRequest_eq_ok hk) hamount hbody
      with ⟨rfl, -⟩ | ⟨hnone, db₁, hresched, heff⟩
    · exact .rescheduled .refl
    · exact .moved _ amount db₁ (by simp [SubscriptionCall.target, hk, Except.toOption]) hresched
        (.inr hnone) heff

variable (fault : Option Err)

theorem resizeSubscriptionPreConsume_did (requestID : String)
    (userID subID targetQuota : Int) (db : SubscriptionDB) :
    (SubscriptionCall.resize requestID userID subID targetQuota).Did db
      (resizeSubscriptionPreConsume fault requestID userID subID targetQuota db).2 := by
  unfold resizeSubscriptionPreConsume
  rcases checked_transaction_cases _ fault _ db with ⟨e, he⟩ | ⟨k, _, db', hargs, hbody, he⟩
  · rw [he]; exact .rescheduled .refl
  · rw [he]
    simp only [ok_iff, not_or, not_lt] at hargs
    obtain ⟨_, hk, ⟨-, -, htarget⟩, rfl⟩ := hargs
    rcases (resizeSubscriptionPreConsumeTx_effect (normalizeSubscriptionRequest_eq_ok hk) htarget
      hbody).1 with rfl | heff
    · exact .rescheduled .refl
    · exact .moved _ _ db (by simp [SubscriptionCall.target, hk, Except.toOption]) .refl (.inl rfl) heff

theorem settleSubscriptionPreConsume_did (requestID : String)
    (userID subID actualQuota : Int) (db : SubscriptionDB) :
    (SubscriptionCall.settle requestID userID subID actualQuota).Did db
      (settleSubscriptionPreConsume fault requestID userID subID actualQuota db).2 := by
  unfold settleSubscriptionPreConsume
  rcases checked_transaction_cases _ fault _ db with ⟨e, he⟩ | ⟨k, _, db', hargs, hbody, he⟩
  · rw [he]; exact .rescheduled .refl
  · rw [he]
    simp only [ok_iff, not_or, not_lt] at hargs
    obtain ⟨_, hk, ⟨-, -, hactual⟩, rfl⟩ := hargs
    rcases (settleSubscriptionPreConsumeTx_effect (normalizeSubscriptionRequest_eq_ok hk) hactual
      hbody).1 with rfl | heff
    · exact .rescheduled .refl
    · exact .moved _ _ db (by simp [SubscriptionCall.target, hk, Except.toOption]) .refl (.inl rfl) heff

theorem refundSubscriptionPreConsume_did (requestId : String)
    (db : SubscriptionDB) :
    (SubscriptionCall.refund requestId).Did db
      (refundSubscriptionPreConsume fault requestId db).2 := by
  unfold refundSubscriptionPreConsume
  rcases checked_transaction_cases _ fault _ db with ⟨e, he⟩ | ⟨k, _, db', hargs, hbody, he⟩
  · rw [he]; exact .rescheduled .refl
  · rw [he]
    rcases (refundSubscriptionPreConsumeTx_effect (normalizeSubscriptionRequest_eq_ok hargs)
      hbody).1 with rfl | heff
    · exact .rescheduled .refl
    · exact .moved _ _ db (by simp [SubscriptionCall.target, hargs, Except.toOption]) .refl (.inl rfl)
        heff

theorem postConsume_did (subID delta : Int) (requestID type key : String)
    (db : SubscriptionDB) :
    (SubscriptionCall.postConsume subID delta requestID type key).Did db
      (postConsumeUserSubscriptionDeltaIdempotent fault subID delta requestID type key db).2 := by
  unfold postConsumeUserSubscriptionDeltaIdempotent
  rcases transaction_cases fault (fun db => applySubscriptionQuotaMutationTx db subID delta requestID
    type key) db with ⟨e, he⟩ | ⟨applied, db', hbody, he⟩
  · rw [he]; exact .rescheduled .refl
  · rw [he]
    rcases applySubscriptionQuotaMutationTx_cases hbody with ⟨-, rfl, -⟩ | ⟨-, hr, t, hpost, -⟩
    · exact .rescheduled .refl
    · exact .mutated rfl (.direct t rfl hpost hr)

/-- The reset job only touches the schedule. -/
theorem resetSelected_rescheduled (n : Nat) (rows : List UserSubscription)
    (db : SubscriptionDB) : Rescheduled db (resetSelected env n rows db).2 := by
  induction rows generalizing n db with
  | nil => exact .refl
  | cons sub rest ih =>
    unfold resetSelected
    split
    · exact ih n db
    · next plan _ =>
      have hone : Rescheduled db (transaction (env.faults n) (resetDueTx env plan sub.id) db).2 := by
        refine transaction_keeps (P := Rescheduled db) .refl fun count db' h => ?_
        unfold resetDueTx at h
        split at h
        · cases h; exact .refl
        · split at h
          · simp only [ok_iff, Prod.mk.injEq, Prod.exists] at h
            obtain ⟨_, _, hreset, -, rfl⟩ := h
            exact (maybeReset_effect hreset).1
          · cases h; exact .refl
      split
      · next e db₁ heq => rw [heq] at hone; exact hone
      · next count db₁ heq =>
        rw [heq] at hone
        exact hone.trans (ih (n + 1) db₁)

/-- **Every call does one of the listed things.** -/
theorem SubscriptionCall.exec_did (c : SubscriptionCall) (env : SubscriptionEnv)
    (db : SubscriptionDB) : c.Did db (c.exec env db).2 := by
  cases c with
  | preConsume requestId userId amount =>
    exact preConsumeUserSubscription_did env requestId userId amount db
  | resize requestID userID subID targetQuota =>
    rw [SubscriptionCall.exec, outcome_snd]
    exact resizeSubscriptionPreConsume_did _ requestID userID subID targetQuota db
  | settle requestID userID subID actualQuota =>
    rw [SubscriptionCall.exec, outcome_snd]
    exact settleSubscriptionPreConsume_did _ requestID userID subID actualQuota db
  | refund requestId =>
    rw [SubscriptionCall.exec, outcome_snd]
    exact refundSubscriptionPreConsume_did _ requestId db
  | postConsume subID delta requestID type key =>
    exact postConsume_did _ subID delta requestID type key db
  | resetDue limit =>
    rw [SubscriptionCall.exec]
    refine .rescheduled ?_
    unfold resetDueSubscriptions
    split
    · exact .refl
    · exact resetSelected_rescheduled env 1 _ db

/-- What every effect keeps, every call keeps. -/
theorem SubscriptionCall.Did.keeps {c : SubscriptionCall} {db db' : SubscriptionDB}
    {I : SubscriptionDB → Prop} (h : c.Did db db')
    (hstep : ∀ touched a b, I a → SubscriptionEffect touched a b → I b) (hdb : I db) : I db' := by
  have hresched : ∀ {a b}, Rescheduled a b → I a → I b := by
    intro a b hab ha
    induction hab with
    | refl => exact ha
    | tail _ heff ih => exact hstep _ _ _ ih heff
  cases h with
  | rescheduled h => exact hresched h hdb
  | mutated _ h => exact hstep _ _ _ hdb h
  | moved k q db₁ _ h _ heff => exact hstep _ _ _ (hresched h hdb) heff

/-- The invariant rule of subscription billing. -/
theorem SubscriptionDB.run_keeps {I : SubscriptionDB → Prop}
    (hstep : ∀ touched a b, I a → SubscriptionEffect touched a b → I b) {db : SubscriptionDB}
    (hdb : I db) (events : List SubscriptionEvent) : I (run SubscriptionDB.step db events) :=
  Prox.run_keeps (fun db e hinv => (e.call.exec_did e.env db).keeps hstep hinv) hdb events

end Prox
