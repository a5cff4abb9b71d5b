import Prox.Quiz.Bank
import Prox.Reward.Effect
import Prox.Wallet.Accounting

/-! # Runs of the quiz

Any number of draws and answers over the tables of the quiz. A draw is a thread with two steps: it looks for
a round that takes answers, and when there is none it waits for the lock on its bank and looks again. Time
goes on between its steps, and other calls come in between. An answer is one step under the lock on its draw.

What a call may do to the tables is said once, by `QuizDB.Drawn` and `QuizDB.Answered`. -/

namespace Prox

/-! ## The system -/

/-- An entry of the history of the rounds, with the rows as they were when it was made. -/
inductive QuizRecord where
  /-- The caller got quota for an answer at a time. -/
  | credited (draw : QuizQuestionDraw) (caller : QuizCaller) (quota at_ : Int)
  /-- An entry ran out of attempts. -/
  | locked (draw : QuizQuestionDraw) (entry : GameEntry)
  /-- A draw takes no answers any more. -/
  | closed (draw : QuizQuestionDraw)

/-- The entries of a round that are locked afterwards and were not before. -/
def newlyLocked (roundID : Int) (before after : Table GameEntry) : List GameEntry :=
  after.rows.filter fun e => e.roundId = roundID ∧ e.status = .locked ∧
    (before.byId e.id).map GameEntry.status ≠ some .locked

/-- What an answer adds to the history, seen from the tables before and after it. -/
def QuizAnswerCall.records (c : QuizAnswerCall) (now : Int) (before after : QuizDB) : List QuizRecord :=
  match c.findDraw before with
  | .error _ => []
  | .ok draw =>
    let quota := (after.money.wallet.balance c.userID).getD 0 - (before.money.wallet.balance c.userID).getD 0
    (if draw.status = .open ∧ (after.draws.byId draw.id).map QuizQuestionDraw.status ≠ some .open then
        [.closed draw] else []) ++
      ((newlyLocked draw.roundId before.entries after.entries).map (.locked draw) ++
        if quota ≠ 0 then [.credited draw c.caller quota now] else [])

/-- The clock in nanoseconds, the tables, and the history, newest first. -/
structure QuizWorld where
  clock : Int
  db : QuizDB
  history : List QuizRecord

/-- A draw call before its next step, or with its result. -/
inductive QuizDrawThread where
  | started (c : QuizDraw)
  /-- It found no round and waits for the lock on the bank. -/
  | waiting (c : QuizDraw)
  | done (result : Except Err QuizDrawResponse)

/-- The draw calls over the world. -/
abbrev QuizSystem := Pool QuizWorld QuizDrawThread

/-- The next step of a draw call; `fault` is an error of the database. -/
def QuizDrawThread.step (env : QuizEnv) (fault : Option Err) (th : QuizDrawThread) (w : QuizWorld) :
    QuizDrawThread × QuizWorld :=
  match th with
  | .started c =>
    match transaction fault (c.firstLookTx env w.clock) w.db with
    | (.error err, db) => (.done (.error err), { w with db })
    | (.ok (some response), db) => (.done (.ok response), { w with db })
    | (.ok none, db) => (.waiting c, { w with db })
  | .waiting c =>
    let r := transaction fault (c.lockedTx env w.clock) w.db
    (.done r.1, { w with db := r.2 })
  | .done result => (.done result, w)

/-- A draw call that has read the clock. -/
def QuizDrawThread.start (env : QuizEnv) (c : QuizDrawCall) (now : Int) : QuizDrawThread :=
  match quizQuestionDraw env c now with
  | .error err => .done (.error err)
  | .ok d => .started d

/-- A step of the system. -/
inductive QuizEvent where
  | wait (nanos : Nat)
  | draw (c : QuizDrawCall)
  | step (thread : Nat) (fault : Option Err)
  | answer (c : QuizAnswerCall) (ext : QuizAnswerEnv) (fault : Option Err)

/-- The tables after an answer. -/
def QuizWorld.answered (env : QuizEnv) (c : QuizAnswerCall) (ext : QuizAnswerEnv) (fault : Option Err)
    (w : QuizWorld) : QuizDB :=
  (transaction fault (quizAnswerSubmit env ext c (unixSeconds w.clock)) w.db).2

/-- The world after an answer. -/
def QuizWorld.answer (env : QuizEnv) (c : QuizAnswerCall) (ext : QuizAnswerEnv) (fault : Option Err)
    (w : QuizWorld) : QuizWorld :=
  { w with
    db := w.answered env c ext fault
    history := c.records (unixSeconds w.clock) w.db (w.answered env c ext fault) ++ w.history }

/-- The system after a step. -/
def QuizSystem.step (env : QuizEnv) (s : QuizSystem) : QuizEvent → QuizSystem
  | .wait nanos => { s with shared := { s.shared with clock := s.shared.clock + nanos } }
  | .draw c => s.spawn (QuizDrawThread.start env c s.shared.clock)
  | .step thread fault => s.stepAt (QuizDrawThread.step env fault) thread
  | .answer c ext fault => { s with shared := s.shared.answer env c ext fault }

/-- A system without draws, at a time. -/
def QuizSystem.initial (money : RewardDB) (clock : Int) : QuizSystem :=
  ⟨⟨clock, ⟨.empty, .empty, .empty, money⟩, []⟩, []⟩

/-! ## Entries -/

section Entries

variable {roundID now : Int} {c : QuizCaller} {e : GameEntry} {db db' : QuizDB}

/-- A caller owns the entry that he gets. -/
@[simp] theorem QuizCaller.owns_entry (c : QuizCaller) (id roundID now : Int) :
    c.owns (c.entry id roundID now) = true := by
  simp only [owns, entry]
  split <;> simp

/-- The entry of a caller in a round, which he may have got just now. -/
inductive QuizDB.Loaded (roundID : Int) (c : QuizCaller) (e : GameEntry) (db : QuizDB) : QuizDB → Prop
  | found (hfind : quizFindEntryForUpdateTx db.entries roundID c = some e) : Loaded roundID c e db db
  | created {now : Int} {entries : Table GameEntry}
      (hnone : quizFindEntryForUpdateTx db.entries roundID c = none)
      (hentry : e = c.entry db.entries.nextId roundID now) (hcreate : db.entries.create e = some entries) :
      Loaded roundID c e db { db with entries }

/-- A found entry is one of the caller's in the round. -/
theorem quizFindEntryForUpdateTx_eq_some {entries : Table GameEntry}
    (h : quizFindEntryForUpdateTx entries roundID c = some e) :
    e ∈ entries.rows ∧ e.roundId = roundID ∧ c.owns e := by
  refine ⟨List.mem_reverse.mp (List.mem_of_find?_eq_some h), ?_⟩
  have := List.find?_some h
  rwa [decide_eq_true_eq] at this

/-- Loading an entry finds it or creates it. -/
theorem quizLoadEntryForUpdateTx_loaded (h : quizLoadEntryForUpdateTx roundID c now db = .ok (e, db')) :
    db.Loaded roundID c e db' := by
  unfold quizLoadEntryForUpdateTx at h
  split at h
  · next entry hfind =>
    cases h
    exact .found hfind
  · next hnone =>
    dsimp only at h
    split at h
    · cases h
    · next entries hcreate =>
      cases h
      exact .created hnone rfl hcreate

namespace QuizDB.Loaded

variable (h : db.Loaded roundID c e db')

include h

/-- The loaded entry is the newest of the caller in the round. -/
theorem find : quizFindEntryForUpdateTx db'.entries roundID c = some e := by
  cases h with
  | found hfind => exact hfind
  | created hnone hentry hcreate =>
    unfold quizFindEntryForUpdateTx
    rw [Table.rows_of_create hcreate]
    have howns : c.owns e = true := hentry ▸ c.owns_entry _ _ _
    have hround : e.roundId = roundID := hentry ▸ rfl
    simp [howns, hround]

/-- Loading an entry again finds the same one. -/
theorem again {e' : GameEntry} {db'' : QuizDB}
    (h' : db'.Loaded roundID c e' db'') : e' = e ∧ db'' = db' := by
  cases h' with
  | found hfind => exact ⟨Option.mem_unique hfind h.find, rfl⟩
  | created hnone => exact absurd (h.find.symm.trans hnone) nofun

theorem mem : e ∈ db'.entries.rows ∧ e.roundId = roundID ∧ c.owns e :=
  quizFindEntryForUpdateTx_eq_some h.find

/-- Only the entries change. -/
theorem frame :
    db'.draws = db.draws ∧ db'.rounds = db.rounds ∧ db'.money = db.money := by
  cases h <;> exact ⟨rfl, rfl, rfl⟩

/-- The entries afterwards: those that were there and an active one of the round. -/
theorem mem_or {x : GameEntry} (hx : x ∈ db'.entries.rows) :
    x ∈ db.entries.rows ∨ (x = e ∧ x.status = .active ∧ x ∉ db.entries.rows) := by
  cases h with
  | found hfind => exact .inl hx
  | created hnone hentry hcreate =>
    rcases (Table.mem_of_create hcreate).mp hx with hx | rfl
    · exact .inl hx
    · exact .inr ⟨rfl, by rw [hentry]; rfl, fun hmem => Table.id_ne_of_create hcreate hmem rfl⟩

/-- The entries that were there stay. -/
theorem keeps {x : GameEntry} (hx : x ∈ db.entries.rows) :
    x ∈ db'.entries.rows := by
  cases h with
  | found hfind => exact hx
  | created hnone hentry hcreate => exact (Table.mem_of_create hcreate).mpr (.inl hx)

end QuizDB.Loaded

end Entries

/-! ## What a draw does -/

/-- What the transaction of a draw call does to the tables. -/
inductive QuizDB.Drawn (env : QuizEnv) (c : QuizDraw) (db : QuizDB) : QuizDB → Prop
  | nothing : Drawn env c db db
  | joined {d : QuizQuestionDraw} {e : GameEntry} {db' : QuizDB}
      (hfind : quizFindActiveDrawTx db.draws c.scopeKey (unixSeconds c.now) = some d)
      (hload : db.Loaded d.roundId c.caller e db') : Drawn env c db db'
  | opened {questionId : Int} {order : List Nat} {e : GameEntry} {rounds : Table GameRound}
      {draws : Table QuizQuestionDraw} {db' : QuizDB}
      (hfind : quizFindActiveDrawTx db.draws c.scopeKey (unixSeconds c.now) = none)
      (huser : 0 < c.policy.userLimit →
        quizTodayUserRoundsTx db c.platform c.groupID c.caller c.businessDate < c.policy.userLimit)
      (hgroup : 0 < c.policy.groupLimit →
        quizTodayGroupDraws db c.platform c.groupID c.businessDate < c.policy.groupLimit)
      (hrounds : db.rounds.create (c.round env db.rounds.nextId) = some rounds)
      (hdraws : db.draws.create (c.row db.draws.nextId questionId db.rounds.nextId order) = some draws)
      (hload : QuizDB.Loaded db.rounds.nextId c.caller e { db with rounds, draws } db') : Drawn env c db db'

section Drawing

variable {env : QuizEnv} {c : QuizDraw} {clock : Int} {db db' : QuizDB}

/-- The response gives the caller an entry in the round. -/
theorem quizDrawResponseTx_loaded {draw : QuizQuestionDraw} {caller : QuizCaller} {now : Int}
    {r : QuizDrawResponse} (h : quizDrawResponseTx env draw caller now db = .ok (r, db')) :
    ∃ e, db.Loaded draw.roundId caller e db' := by
  unfold quizDrawResponseTx at h
  split at h
  · cases h
  · simp only [ok_iff, Prod.exists, Prod.mk.injEq] at h
    obtain ⟨options, -, -, shown, -, e, db₁, hload, -, rfl⟩ := h
    exact ⟨e, quizLoadEntryForUpdateTx_loaded hload⟩

/-- Joining a draw gives the caller an entry in its round. -/
theorem QuizDraw.joinTx_loaded {existing : QuizQuestionDraw} {r : QuizDrawResponse}
    (h : c.joinTx env existing clock db = .ok (r, db')) : ∃ e, db.Loaded existing.roundId c.caller e db' := by
  simp only [joinTx, bind_eq_ok, Prod.exists] at h
  obtain ⟨e, db₁, hload, h⟩ := h
  obtain ⟨e', hload'⟩ := quizDrawResponseTx_loaded h
  have hload := quizLoadEntryForUpdateTx_loaded hload
  obtain ⟨-, rfl⟩ := hload.again hload'
  exact ⟨e, hload⟩

theorem QuizDraw.firstLookTx_drawn {r : Option QuizDrawResponse}
    (h : c.firstLookTx env clock db = .ok (r, db')) : db.Drawn env c db' := by
  unfold firstLookTx at h
  split at h
  · next existing hfind =>
    simp only [ok_iff, Prod.exists, Prod.mk.injEq] at h
    obtain ⟨response, db₁, hjoin, -, rfl⟩ := h
    obtain ⟨e, hload⟩ := joinTx_loaded hjoin
    exact .joined hfind hload
  · cases h
    exact .nothing

theorem QuizDraw.openTx_drawn {r : QuizDrawResponse}
    (hfind : quizFindActiveDrawTx db.draws c.scopeKey (unixSeconds c.now) = none)
    (h : c.openTx env clock db = .ok (r, db')) : db.Drawn env c db' := by
  simp only [openTx, ok_iff, not_and, not_le] at h
  obtain ⟨huser, hgroup, question, -, options, -, h⟩ := h
  split at h
  · cases h
  · next rounds hrounds =>
    split at h
    · cases h
    · next draws hdraws =>
      obtain ⟨e, hload⟩ := joinTx_loaded h
      exact .opened hfind huser hgroup hrounds hdraws hload

theorem QuizDraw.lockedTx_drawn {r : QuizDrawResponse} (h : c.lockedTx env clock db = .ok (r, db')) :
    db.Drawn env c db' := by
  unfold lockedTx at h
  split at h
  · next existing hfind =>
    obtain ⟨e, hload⟩ := joinTx_loaded h
    exact .joined hfind hload
  · next hfind => exact openTx_drawn hfind h

/-- The call that a thread works on. -/
def QuizDrawThread.call : QuizDrawThread → Option QuizDraw
  | .started c => some c
  | .waiting c => some c
  | .done _ => none

/-- A step of a draw call changes only the tables, as its transaction may, and the thread goes on with the
same call or is done. -/
theorem QuizDrawThread.step_drawn (env : QuizEnv) (fault : Option Err) (th : QuizDrawThread) (w : QuizWorld) :
    (∃ db, (th.step env fault w).2 = { w with db } ∧
      (db = w.db ∨ ∃ c, th.call = some c ∧ w.db.Drawn env c db)) ∧
    ∀ c, (th.step env fault w).1.call = some c → th.call = some c := by
  cases th with
  | started c =>
    rcases transaction_cases fault (c.firstLookTx env w.clock) w.db with ⟨e, he⟩ | ⟨r, db', hbody, he⟩
    · simp only [step, he]
      refine ⟨⟨w.db, rfl, .inl rfl⟩, fun c h => ?_⟩
      cases h
    · have hdrawn := QuizDraw.firstLookTx_drawn hbody
      cases r with
      | none =>
        simp only [step, he]
        exact ⟨⟨db', rfl, .inr ⟨c, rfl, hdrawn⟩⟩, fun _ h => h⟩
      | some response =>
        simp only [step, he]
        refine ⟨⟨db', rfl, .inr ⟨c, rfl, hdrawn⟩⟩, fun c h => ?_⟩
        cases h
  | waiting c =>
    rcases transaction_cases fault (c.lockedTx env w.clock) w.db with ⟨e, he⟩ | ⟨r, db', hbody, he⟩
    · simp only [step, he]
      refine ⟨⟨w.db, rfl, .inl rfl⟩, fun c h => ?_⟩
      cases h
    · have hdrawn := QuizDraw.lockedTx_drawn hbody
      simp only [step, he]
      refine ⟨⟨db', rfl, .inr ⟨c, rfl, hdrawn⟩⟩, fun c h => ?_⟩
      cases h
  | done result => exact ⟨⟨w.db, rfl, .inl rfl⟩, fun _ h => h⟩

end Drawing

/-! ## What an answer does -/

/-- The draw before it was closed. -/
def QuizQuestionDraw.Same (d d' : QuizQuestionDraw) : Prop :=
  { d' with status := d.status, answeredAt := d.answeredAt } = d

/-- The tables after the grading of an active entry; `money` is what the reward left. -/
def QuizQuestionDraw.graded (draw : QuizQuestionDraw) (correct : Bool) (e : GameEntry) (now : Int)
    (money : RewardDB) (db : QuizDB) : QuizDB :=
  let attempts := quizMapInt 0 e.attempts + 1
  let graded := { db with
    money
    entries := (db.entries.updateWhere (fun x => x.id = e.id)
      (GameEntry.grade (draw.entryStatus correct attempts) attempts now)).1 }
  if draw.closes correct attempts db.entries then
    quizCloseDrawTx draw (if correct then .answered else .locked) now graded
  else graded

/-- A reward keeps the entries of the budget journal, and where it changes the balance of the user, it enters
the key of the draw and the user. -/
structure QuizAnswerCall.Rewarded (c : QuizAnswerCall) (draw : QuizQuestionDraw) (money money' : RewardDB) :
    Prop where
  keeps : ∀ k r, money.budget.transactions.byKey k = some r → money'.budget.transactions.byKey k = some r
  claims : money'.wallet.balance c.userID ≠ money.wallet.balance c.userID →
    money.budget.transactions.byKey (trimSpace (quizRewardKey draw.id c.userID)) = none ∧
      ∃ r, money'.budget.transactions.byKey (trimSpace (quizRewardKey draw.id c.userID)) = some r

/-- What an answer does to the tables. -/
inductive QuizDB.Answered (env : QuizEnv) (c : QuizAnswerCall) (now : Int) (db : QuizDB) : QuizDB → Prop
  | nothing : Answered env c now db db
  | graded {draw : QuizQuestionDraw} {e : GameEntry} {db₁ : QuizDB} {correct : Bool} {money : RewardDB}
      (hfind : c.findDraw db = .ok draw) (hactive : draw.activeAt now = true)
      (hcorrect : c.isCorrect env draw = .ok correct) (huser : correct = true → 0 < c.userID)
      (hload : db.Loaded draw.roundId c.caller e db₁) (hstatus : e.status = .active)
      (hreward : c.Rewarded draw db.money money) (hwrong : correct = false → money = db.money) :
      Answered env c now db (draw.graded correct e now money db₁)

section Answering

variable {env : QuizEnv} {ext : QuizAnswerEnv} {c : QuizAnswerCall} {draw : QuizQuestionDraw} {now : Int}
  {db db' : QuizDB}

theorem QuizAnswerCall.Rewarded.refl (c : QuizAnswerCall) (draw : QuizQuestionDraw) (money : RewardDB) :
    c.Rewarded draw money money := ⟨fun _ _ h => h, fun h => absurd rfl h⟩

/-- The draw that an answer names is stored. -/
theorem QuizAnswerCall.findDraw_mem (h : c.findDraw db = .ok draw) : draw ∈ db.draws.rows := by
  unfold findDraw at h
  dsimp only at h
  split at h
  · split at h
    · cases h
    · next d hd =>
      cases h
      exact (Table.byId_eq_some.mp hd).1
  · split at h
    · split at h
      · cases h
      · next d hd =>
        cases h
        exact List.mem_of_find?_eq_some hd
    · cases h

theorem QuizAnswerCall.rewardTx_rewarded {q : Int} (h : c.rewardTx env ext draw db = .ok (q, db')) :
    ∃ money, db' = { db with money } ∧ c.Rewarded draw db.money money := by
  unfold rewardTx at h
  dsimp only at h
  split at h
  · cases h
    exact ⟨db.money, rfl, .refl _ _ _⟩
  · simp only [ok_iff, Prod.exists, Prod.mk.injEq] at h
    obtain ⟨⟨⟩, money, happly, -, rfl⟩ := h
    refine ⟨money, rfl, ?_⟩
    obtain ⟨u, f, d, houtcome⟩ : ∃ u f d, Outcome _ False db.money money _ _ _ _ _ u f d :=
      applyQuotaMutationTx_outcome happly
    cases houtcome with
    | replayed hprepared hfound hresult =>
      subst hresult
      exact ⟨fun k r hr => hprepared.byKey_transactions hr, fun hne => absurd rfl hne⟩
    | @paid b t hprepared hpayout hkey =>
      refine ⟨fun k r hr => Table.byKey_create_of_some hpayout.claim (hprepared.byKey_transactions hr),
        fun _ => ⟨?_, t, ?_⟩⟩
      · -- an entry under the key would still be there when the payout claims it
        cases hbefore : db.money.budget.transactions.byKey (trimSpace (quizRewardKey draw.id c.userID)) with
        | none => rfl
        | some r =>
          have hafter := hprepared.byKey_transactions hbefore
          rw [← hkey] at hafter
          cases hafter.symm.trans (Table.byKey_none_of_create hpayout.claim)
      · rw [← hkey]
        exact (Table.byKey_of_create hpayout.claim _).trans (if_pos rfl)

theorem QuizAnswerCall.gradeTx_eq_ok {correct : Bool} {e : GameEntry} {r : QuizAnswerResult}
    (h : c.gradeTx env ext draw correct e now db = .ok (r, db')) :
    ∃ money, c.Rewarded draw db.money money ∧ (correct = false → money = db.money) ∧
      db' = draw.graded correct e now money db := by
  cases correct with
  | false =>
    obtain ⟨-, q, db₁, ⟨rfl, rfl⟩, -, rfl⟩ := h
    exact ⟨db.money, .refl _ _ _, fun _ => rfl, rfl⟩
  | true =>
    simp only [gradeTx, ok_iff, if_true, Prod.exists, Prod.mk.injEq] at h
    obtain ⟨-, q, db₁, hreward, -, rfl⟩ := h
    obtain ⟨money, rfl, hrewarded⟩ := rewardTx_rewarded hreward
    exact ⟨money, hrewarded, nofun, rfl⟩

/-- An answer does nothing, or it grades an active entry of its caller. -/
theorem quizAnswerSubmit_answered {r : QuizAnswerResult}
    (h : quizAnswerSubmit env ext c now db = .ok (r, db')) : db.Answered env c now db' := by
  simp only [quizAnswerSubmit, bind_eq_ok] at h
  obtain ⟨draw, hfind, h⟩ := h
  split at h
  · unfold QuizAnswerCall.lateTx at h
    split at h <;> cases h <;> exact .nothing
  · next hactive =>
    simp only [bind_eq_ok] at h
    obtain ⟨correct, hcorrect, h⟩ := h
    split at h
    · cases h
      exact .nothing
    · next huser =>
      simp only [bind_eq_ok, Prod.exists] at h
      obtain ⟨e, db₁, hload, h⟩ := h
      have hload := quizLoadEntryForUpdateTx_loaded hload
      have hstays : e.status ≠ .active → db₁ = db := fun hne => by
        cases hload with
        | found => rfl
        | created hnone hentry => exact absurd (congrArg GameEntry.status hentry) hne
      split at h
      · next hstatus =>
        cases h
        rw [hstays (by simp [hstatus])]
        exact .nothing
      · next hstatus =>
        cases h
        rw [hstays (by simp [hstatus])]
        exact .nothing
      · next hstatus =>
        obtain ⟨money, hreward, hwrong, rfl⟩ := QuizAnswerCall.gradeTx_eq_ok h
        rw [hload.frame.2.2] at hreward hwrong
        refine .graded hfind (by simpa using hactive) hcorrect (fun hc => ?_) hload hstatus hreward hwrong
        by_contra hneg
        exact huser ⟨hc, by omega⟩

/-- The tables after an answer. -/
theorem QuizWorld.answered_cases (env : QuizEnv) (c : QuizAnswerCall) (ext : QuizAnswerEnv) (fault : Option Err)
    (w : QuizWorld) : w.db.Answered env c (unixSeconds w.clock) (w.answered env c ext fault) :=
  transaction_keeps (P := fun db => w.db.Answered env c (unixSeconds w.clock) db) .nothing
    fun _ _ h => quizAnswerSubmit_answered h

end Answering

end Prox
