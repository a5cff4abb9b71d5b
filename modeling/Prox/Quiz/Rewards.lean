import Prox.Quiz.Rounds
import Prox.Reward.Calls

/-! # Quiz rewards are paid once and in bounds

The laws of the rewards over every run of draws and answers: a scope has one round that takes answers, and
the history of the credits keeps to the rules of each draw. They hold as long as an answer does not find a
newer entry of its caller above one that is locked: the entry of a caller is found by his user id or by his
external id, the newest first, so a second external id opens a second entry to a user who ran out of
attempts. -/

namespace Prox

open List Option QuizAnswerCall QuizQuestionDraw QuizRecord Table

/-! ## The laws -/

/-- A draw that one right answer closes. -/
def QuizQuestionDraw.ClosesForOne (d : QuizQuestionDraw) : Prop :=
  d.scopeMode = .perUser ∨ d.rules.closeOnCorrect = true
  deriving Decidable

/-- The entry is a credit for the draw of an id. -/
def QuizRecord.credits (drawId : Int) : QuizRecord → Bool
  | .credited d _ _ _ => d.id = drawId
  | _ => false

/-- The number of credits for a draw. -/
def creditsOf (drawId : Int) (history : List QuizRecord) : Nat := history.countP (QuizRecord.credits drawId)

/-- The entry rules out that the caller is credited for the draw later: the draw was closed, an entry of the
caller was locked, or his user was credited for it. -/
def QuizRecord.forbids (draw : QuizQuestionDraw) (caller : QuizCaller) : QuizRecord → Bool
  | .closed d => d.id = draw.id
  | .locked d e => d.id = draw.id ∧ caller.owns e
  | .credited d c _ _ => d.id = draw.id ∧ c.userID = caller.userID

/-- What an entry of the history may follow: a credit comes before the end of the draw's time and after
nothing that forbids it, it is the first of all when one right answer closes the draw, and within the number
of winners. -/
def QuizRecord.Lawful (past : List QuizRecord) : QuizRecord → Prop
  | .credited draw caller _ now =>
    now < draw.expiresAt ∧
    (∀ r ∈ past, r.forbids draw caller = false) ∧
    (draw.ClosesForOne → creditsOf draw.id past = 0) ∧
    (0 < draw.rules.maxWinners → creditsOf draw.id past < draw.rules.maxWinners)
  | _ => True

instance (past : List QuizRecord) (r : QuizRecord) : Decidable (r.Lawful past) := by
  cases r <;> unfold QuizRecord.Lawful <;> infer_instance

/-- The draws of a scope that take answers at a time, in seconds. -/
def activeDraws (draws : Table QuizQuestionDraw) (scopeKey : String) (now : Int) : List QuizQuestionDraw :=
  draws.rows.filter fun d => d.scopeKey = scopeKey ∧ d.activeAt now

/-- The rewards keep to the rules. -/
structure QuizWorld.RewardsLawful (w : QuizWorld) : Prop where
  /-- A scope has one draw that takes answers. -/
  one_active : ∀ scopeKey, (activeDraws w.db.draws scopeKey (unixSeconds w.clock)).length ≤ 1
  /-- Every credit is lawful after what came before it. -/
  history : Throughout QuizRecord.Lawful w.history

/-- A right answer finds an entry of its caller that is not locked, with a locked one below it. -/
def QuizAnswerCall.ShadowsLock (env : QuizEnv) (c : QuizAnswerCall) (now : Int) (db : QuizDB) : Prop :=
  match c.findDraw db with
  | .error _ => False
  | .ok draw =>
    draw.activeAt now = true ∧ (c.isCorrect env draw).toOption = some true ∧
    (∃ e ∈ db.entries.rows, e.roundId = draw.roundId ∧ c.caller.owns e ∧ e.status = .locked) ∧
    (quizFindEntryForUpdateTx db.entries draw.roundId c.caller).map GameEntry.status ≠ some .locked

instance (env : QuizEnv) (c : QuizAnswerCall) (now : Int) (db : QuizDB) :
    Decidable (c.ShadowsLock env now db) := by
  unfold QuizAnswerCall.ShadowsLock
  split <;> infer_instance

/-- The step is no answer that shadows a lock. -/
def QuizEvent.RespectsLocks (env : QuizEnv) (s : QuizSystem) : QuizEvent → Prop
  | .answer c _ _ => ¬ c.ShadowsLock env (unixSeconds s.shared.clock) s.shared.db
  | _ => True

instance (env : QuizEnv) (s : QuizSystem) (e : QuizEvent) : Decidable (e.RespectsLocks env s) := by
  cases e <;> unfold QuizEvent.RespectsLocks <;> infer_instance

/-! ## Draws and their states -/

variable {now roundID : Int}

namespace QuizQuestionDraw

variable {d d' draw : QuizQuestionDraw}

theorem Same.refl (d : QuizQuestionDraw) : d.Same d := rfl

theorem Same.trans {d'' : QuizQuestionDraw} (h : d.Same d') (h' : d'.Same d'') : d.Same d'' := by
  unfold Same at h h' ⊢
  rw [← h, ← h']

namespace Same

variable (h : d.Same d')

include h

theorem id : d'.id = d.id := (congrArg QuizQuestionDraw.id h :)

theorem roundId : d'.roundId = d.roundId := (congrArg QuizQuestionDraw.roundId h :)

theorem platform : d'.platform = d.platform := (congrArg QuizQuestionDraw.platform h :)

theorem groupId : d'.groupId = d.groupId := (congrArg QuizQuestionDraw.groupId h :)

theorem businessDate : d'.businessDate = d.businessDate := (congrArg QuizQuestionDraw.businessDate h :)

theorem scopeMode : d'.scopeMode = d.scopeMode := (congrArg QuizQuestionDraw.scopeMode h :)

theorem rules : d'.rules = d.rules := (congrArg QuizQuestionDraw.rules h :)

end Same

/-- A draw that takes answers is open until it expires. -/
theorem activeAt_iff : d.activeAt now = true ↔ d.status = .open ∧ now < d.expiresAt := by
  simp [activeAt]

end QuizQuestionDraw

variable {d draw : QuizQuestionDraw}

section Graded

variable {correct : Bool} {e : GameEntry} {money : RewardDB} {db : QuizDB}

theorem graded_entries : (draw.graded correct e now money db).entries
    = (db.entries.updateWhere (fun x => x.id = e.id)
        (GameEntry.grade (draw.entryStatus correct (quizMapInt 0 e.attempts + 1))
          (quizMapInt 0 e.attempts + 1) now)).1 := by
  unfold graded
  dsimp only
  split <;> rfl

theorem graded_money : (draw.graded correct e now money db).money = money := by
  unfold graded
  dsimp only
  split <;> rfl

/-- Every draw is there after the grading; a closed one stays closed, and the graded one is closed when the
answer closes it. -/
theorem graded_draws (hd : d ∈ db.draws.rows) :
    ∃ d' ∈ (draw.graded correct e now money db).draws.rows, d.Same d' ∧
      (d.status ≠ .open → d'.status = d.status) ∧
      (d.id = draw.id → draw.closes correct (quizMapInt 0 e.attempts + 1) db.entries = true →
        d'.status ≠ .open) := by
  unfold graded
  dsimp only
  split
  · refine ⟨_, List.mem_map_of_mem hd, ?_⟩
    split
    · next hmatch =>
      rw [decide_eq_true_eq] at hmatch
      exact ⟨rfl, fun hne => absurd hmatch.2 hne, fun _ _ => by cases correct <;> nofun⟩
    · next hmatch =>
      rw [decide_eq_true_eq, not_and] at hmatch
      exact ⟨rfl, fun _ => rfl, fun hid _ => hmatch hid⟩
  · next hcloses => exact ⟨d, hd, rfl, fun _ => rfl, fun _ h => absurd h hcloses⟩

/-- Every draw after the grading was there before, and an open one is unchanged. -/
theorem graded_draws_of_mem {d' : QuizQuestionDraw}
    (hd' : d' ∈ (draw.graded correct e now money db).draws.rows) :
    ∃ d ∈ db.draws.rows, d.Same d' ∧ (d'.status = .open → d' = d) := by
  unfold graded at hd'
  dsimp only at hd'
  split at hd'
  · obtain ⟨d, hd, rfl⟩ := List.mem_map.mp hd'
    refine ⟨d, hd, ?_⟩
    split
    · exact ⟨rfl, fun h => by cases correct <;> cases h⟩
    · exact ⟨rfl, fun _ => rfl⟩
  · exact ⟨d', hd', rfl, fun _ => rfl⟩

theorem graded_rounds {r : GameRound} (hr : r ∈ db.rounds.rows) :
    ∃ r' ∈ (draw.graded correct e now money db).rounds.rows, r'.id = r.id := by
  unfold graded
  dsimp only
  split
  · refine ⟨_, List.mem_map_of_mem hr, ?_⟩
    split <;> rfl
  · exact ⟨r, hr, rfl⟩

/-- An entry after the grading is an entry from before, or the graded one. -/
theorem graded_entry_of_mem {x : GameEntry} (he : e ∈ db.entries.rows)
    (hx : x ∈ (draw.graded correct e now money db).entries.rows) :
    x ∈ db.entries.rows ∨ x = (GameEntry.grade (draw.entryStatus correct (quizMapInt 0 e.attempts + 1))
      (quizMapInt 0 e.attempts + 1) now).apply e := by
  rw [graded_entries] at hx
  obtain ⟨y, hy, rfl⟩ := List.mem_map.mp hx
  split
  · next hid =>
    rw [decide_eq_true_eq] at hid
    rw [eq_of_id_eq hy he hid]
    exact .inr rfl
  · exact .inl hy

/-- Other entries stay as they are. -/
theorem graded_keeps_entry {x : GameEntry} (hx : x ∈ db.entries.rows) (hne : x.id ≠ e.id) :
    x ∈ (draw.graded correct e now money db).entries.rows := by
  rw [graded_entries]
  refine List.mem_map.mpr ⟨x, hx, if_neg ?_⟩
  simpa using hne

end Graded

/-! ## References -/

/-- Rounds, draws and entries refer to each other, and no two draws share a round. -/
structure QuizDB.WellFormed (db : QuizDB) : Prop where
  draw_round : ∀ d ∈ db.draws.rows, ∃ r ∈ db.rounds.rows, r.id = d.roundId
  entry_round : ∀ e ∈ db.entries.rows, ∃ d ∈ db.draws.rows, d.roundId = e.roundId
  round_inj : ∀ d ∈ db.draws.rows, ∀ d' ∈ db.draws.rows, d.roundId = d'.roundId → d = d'
  winners_range : ∀ d ∈ db.draws.rows, 0 ≤ d.rules.maxWinners ∧ d.rules.maxWinners ≤ 100000

/-- A bounded integer is within its bounds. -/
theorem quizBoundedInt_range {value : Option Int} {fallback minimum maximum : Int} (h : minimum ≤ maximum) :
    minimum ≤ quizBoundedInt value fallback minimum maximum ∧
      quizBoundedInt value fallback minimum maximum ≤ maximum := by
  unfold quizBoundedInt
  dsimp only
  split <;> split at * <;> omega

/-- Integers below a million are read as they were stored. -/
theorem quizMapInt_of_small {fallback stored : Int} (hlo : -1000000 < stored) (hhi : stored < 1000000) :
    quizMapInt fallback stored = stored := by
  simp only [quizMapInt, if_pos (And.intro hlo hhi), quizBoundedInt, getD_some]
  split <;> split at * <;> omega

/-- The call comes from a policy, which bounds the number of winners. -/
def QuizDraw.Bounded (c : QuizDraw) : Prop := 0 ≤ c.policy.maxWinners ∧ c.policy.maxWinners ≤ 100000

variable {c : QuizDraw}

theorem quizQuestionDraw_bounded {env : QuizEnv} {call : QuizDrawCall}
    (h : quizQuestionDraw env call now = .ok c) : c.Bounded ∧ c.now = now := by
  simp only [quizQuestionDraw, ok_iff, Prod.exists] at h
  obtain ⟨bankId, rules, -, rfl⟩ := h
  exact ⟨quizBoundedInt_range (by decide), rfl⟩

variable {e : GameEntry} {draws : Table QuizQuestionDraw} {correct : Bool} {money : RewardDB}

namespace QuizDB.WellFormed

variable {env : QuizEnv} {db db' : QuizDB}

/-- A new entry in the round of a stored draw keeps the references. -/
theorem loaded (h : db.WellFormed) (hd : d ∈ db.draws.rows) {c : QuizCaller}
    (hload : db.Loaded d.roundId c e db') : db'.WellFormed := by
  obtain ⟨hdraws, hrounds, -⟩ := hload.frame
  refine ⟨?_, fun x hx => ?_, ?_, ?_⟩
  · rw [hdraws, hrounds]
    exact h.draw_round
  · rw [hdraws]
    rcases hload.mem_or hx with hx | ⟨rfl, -, -⟩
    · exact h.entry_round x hx
    · exact ⟨d, hd, hload.mem.2.1.symm⟩
  · rw [hdraws]
    exact h.round_inj
  · rw [hdraws]
    exact h.winners_range

/-- A new round with its draw keeps the references. -/
theorem opened (h : db.WellFormed) {r : GameRound} {rounds : Table GameRound}
    (hrounds : db.rounds.create r = some rounds) (hdraws : db.draws.create d = some draws)
    (hid : d.roundId = r.id) (hbound : 0 ≤ d.rules.maxWinners ∧ d.rules.maxWinners ≤ 100000) :
    QuizDB.WellFormed { db with rounds, draws } := by
  have hfresh : ∀ x ∈ db.draws.rows, x.roundId ≠ d.roundId := by
    intro x hx heq
    obtain ⟨y, hy, hyx⟩ := h.draw_round x hx
    exact id_ne_of_create hrounds hy (hyx.trans (heq.trans hid))
  refine ⟨fun x hx => ?_, fun x hx => ?_, fun x hx y hy hxy => ?_, fun x hx => ?_⟩
  · rcases (mem_of_create hdraws).mp hx with hx | rfl
    · obtain ⟨y, hy, hyx⟩ := h.draw_round x hx
      exact ⟨y, (mem_of_create hrounds).mpr (.inl hy), hyx⟩
    · exact ⟨r, (mem_of_create hrounds).mpr (.inr rfl), hid.symm⟩
  · obtain ⟨y, hy, hyx⟩ := h.entry_round x hx
    exact ⟨y, (mem_of_create hdraws).mpr (.inl hy), hyx⟩
  · rcases (mem_of_create hdraws).mp hx with hx | rfl
    · rcases (mem_of_create hdraws).mp hy with hy | rfl
      · exact h.round_inj x hx y hy hxy
      · exact absurd hxy (hfresh x hx)
    · rcases (mem_of_create hdraws).mp hy with hy | rfl
      · exact absurd hxy.symm (hfresh y hy)
      · rfl
  · rcases (mem_of_create hdraws).mp hx with hx | rfl
    · exact h.winners_range x hx
    · exact hbound

/-- Grading keeps the references. -/
theorem graded (h : db.WellFormed) (he : e ∈ db.entries.rows) :
    (draw.graded correct e now money db).WellFormed := by
  refine ⟨fun d' hd' => ?_, fun x hx => ?_, fun d' hd' d'' hd'' heq => ?_, fun d' hd' => ?_⟩
  · obtain ⟨d, hd, hsame, -⟩ := graded_draws_of_mem hd'
    obtain ⟨r, hr, hrd⟩ := h.draw_round d hd
    obtain ⟨r', hr', hid⟩ := graded_rounds hr
    exact ⟨r', hr', hid.trans (hrd.trans hsame.roundId.symm)⟩
  · have hround : ∃ y ∈ db.entries.rows, x.roundId = y.roundId := by
      rcases graded_entry_of_mem he hx with hx | rfl
      · exact ⟨x, hx, rfl⟩
      · exact ⟨e, he, rfl⟩
    obtain ⟨y, hy, hxy⟩ := hround
    obtain ⟨d, hd, hdy⟩ := h.entry_round y hy
    obtain ⟨d', hd', hsame, -, -⟩ := @graded_draws now d draw correct e money db hd
    exact ⟨d', hd', hsame.roundId.trans (hdy.trans hxy.symm)⟩
  · obtain ⟨d₁, hd₁, hsame₁, -⟩ := graded_draws_of_mem hd'
    obtain ⟨d₂, hd₂, hsame₂, -⟩ := graded_draws_of_mem hd''
    have hround := h.round_inj d₁ hd₁ d₂ hd₂ (hsame₁.roundId.symm.trans (heq.trans hsame₂.roundId))
    exact eq_of_id_eq hd' hd'' (hsame₁.id.trans ((congrArg _ hround).trans hsame₂.id.symm))
  · obtain ⟨d, hd, hsame, -⟩ := graded_draws_of_mem hd'
    rw [hsame.rules]
    exact h.winners_range d hd

end QuizDB.WellFormed

/-! ## What stays -/

/-- Draws stay and closed ones stay closed, entries that were answered or locked stay as they are, and so do
the entries of the budget journal. -/
structure QuizDB.Extends (db db' : QuizDB) : Prop where
  draws : ∀ d ∈ db.draws.rows, ∃ d' ∈ db'.draws.rows, d.Same d' ∧ (d.status ≠ .open → d'.status ≠ .open)
  entries : ∀ e ∈ db.entries.rows, e.status ≠ .active → e ∈ db'.entries.rows
  claims : ∀ k r, db.money.budget.transactions.byKey k = some r →
    db'.money.budget.transactions.byKey k = some r

namespace QuizDB.Extends

variable {env : QuizEnv} {db db' : QuizDB}

theorem refl (db : QuizDB) : db.Extends db :=
  ⟨fun d hd => ⟨d, hd, .refl d, id⟩, fun _ he _ => he, fun _ _ h => h⟩

/-- A new entry leaves everything as it is. -/
theorem of_loaded {c : QuizCaller} (h : db.Loaded roundID c e db') : db.Extends db' := by
  obtain ⟨hdraws, -, hmoney⟩ := h.frame
  exact ⟨fun d hd => ⟨d, hdraws ▸ hd, .refl d, id⟩, fun x hx _ => h.keeps hx, fun k r hr => hmoney ▸ hr⟩

/-- What a draw does extends the tables. -/
theorem of_drawn (h : db.Drawn env c db') : db.Extends db' := by
  cases h with
  | nothing => exact .refl db
  | joined hfind hload => exact .of_loaded hload
  | @opened questionId order e rounds draws _ hfind huser hgroup hrounds hdraws hload =>
    have hload := of_loaded hload
    refine ⟨fun d hd => hload.draws d ((mem_of_create hdraws).mpr (.inl hd)), hload.entries, hload.claims⟩

/-- What an answer does extends the tables. -/
theorem of_answered {c : QuizAnswerCall} (h : db.Answered env c now db') : db.Extends db' := by
  cases h with
  | nothing => exact .refl db
  | @graded draw e db₁ correct money hfind hactive hcorrect huser hload hstatus hreward hwrong =>
    have hloaded := of_loaded hload
    refine ⟨fun d hd => ?_, fun x hx hne => ?_, fun k r hr => ?_⟩
    · obtain ⟨d', hd', hsame, hclosed, -⟩ :=
        @graded_draws now d draw correct e money db₁ (hload.frame.1 ▸ hd)
      exact ⟨d', hd', hsame, fun hne => hclosed hne ▸ hne⟩
    · have hx' := hloaded.entries x hx hne
      refine graded_keeps_entry hx' fun hid => ?_
      rw [eq_of_id_eq hx' hload.mem.1 hid] at hne
      exact hne hstatus
    · rw [graded_money]
      exact hreward.keeps k r hr

end QuizDB.Extends

/-! ## One round for a scope -/

/-- No scope has two draws that take answers at a time, in seconds. -/
def OneActive (draws : Table QuizQuestionDraw) (now : Int) : Prop :=
  ∀ d ∈ draws.rows, ∀ d' ∈ draws.rows, d.scopeKey = d'.scopeKey → d.activeAt now = true →
    d'.activeAt now = true → d = d'

/-- A list without repetition all of whose members are equal has at most one. -/
theorem length_le_one_of_forall_eq {α : Type} {l : List α} (hl : l.Nodup) (h : ∀ x ∈ l, ∀ y ∈ l, x = y) :
    l.length ≤ 1 := by
  match l, hl, h with
  | [], _, _ => exact Nat.zero_le 1
  | [_], _, _ => exact Nat.le_refl 1
  | x :: y :: l, hl, h =>
    have hxy := h x mem_cons_self y (mem_cons_of_mem _ mem_cons_self)
    exact absurd (hxy ▸ mem_cons_self) (nodup_cons.mp hl).1

theorem OneActive.length_le (h : OneActive draws now) (scopeKey : String) :
    (activeDraws draws scopeKey now).length ≤ 1 := by
  have hnodup : draws.rows.Nodup := List.Nodup.of_map _ draws.id_nodup
  refine length_le_one_of_forall_eq (hnodup.filter _) fun x hx y hy => ?_
  obtain ⟨hx, hxp⟩ := mem_filter.mp hx
  obtain ⟨hy, hyp⟩ := mem_filter.mp hy
  rw [decide_eq_true_eq] at hxp hyp
  exact h x hx y hy (hxp.1.trans hyp.1.symm) hxp.2 hyp.2

variable {db db₁ : QuizDB}

namespace OneActive

variable {now' : Int}

/-- Time closes draws and opens none. -/
theorem later (h : OneActive draws now) (hle : now ≤ now') : OneActive draws now' := by
  intro d hd d' hd' hscope hactive hactive'
  rw [activeAt_iff] at hactive hactive'
  exact h d hd d' hd' hscope (activeAt_iff.mpr ⟨hactive.1, by omega⟩)
    (activeAt_iff.mpr ⟨hactive'.1, by omega⟩)

/-- A draw is opened when the second look has found none: an older clock reading sees more draws, not
fewer. -/
theorem opened (h : OneActive draws now) {draws' : Table QuizQuestionDraw} (hle : now' ≤ now)
    (hfind : quizFindActiveDrawTx draws d.scopeKey now' = none)
    (hcreate : draws.create d = some draws') : OneActive draws' now := by
  have hnone : ∀ x ∈ draws.rows, x.scopeKey = d.scopeKey → x.activeAt now = true → False := by
    intro x hx hscope hactive
    rw [activeAt_iff] at hactive
    have hx := List.find?_eq_none.mp hfind x (mem_reverse.mpr hx)
    rw [decide_eq_true_eq] at hx
    exact hx ⟨hscope, activeAt_iff.mpr ⟨hactive.1, by omega⟩⟩
  intro x hx y hy hscope hxa hya
  rcases (mem_of_create hcreate).mp hx with hx | rfl
  · rcases (mem_of_create hcreate).mp hy with hy | rfl
    · exact h x hx y hy hscope hxa hya
    · exact (hnone x hx hscope hxa).elim
  · rcases (mem_of_create hcreate).mp hy with hy | rfl
    · exact (hnone y hy hscope.symm hya).elim
    · rfl

theorem graded (h : OneActive db.draws now) {t : Int} :
    OneActive (draw.graded correct e t money db).draws now := by
  intro d₁ hd₁ d₂ hd₂ hscope hactive₁ hactive₂
  obtain ⟨x, hx, -, hopen₁⟩ := graded_draws_of_mem hd₁
  obtain ⟨y, hy, -, hopen₂⟩ := graded_draws_of_mem hd₂
  obtain rfl := hopen₁ (activeAt_iff.mp hactive₁).1
  obtain rfl := hopen₂ (activeAt_iff.mp hactive₂).1
  exact h d₁ hx d₂ hy hscope hactive₁ hactive₂

end OneActive

/-! ## Winners -/

/-- The number of answered entries of a round. -/
def winners (entries : Table GameEntry) (roundID : Int) : Int :=
  entries.total (fun e => e.roundId = roundID ∧ e.status = .answered) fun _ => 1

variable (entries : Table GameEntry)

/-- The winners that a right answer counts. -/
theorem winners_eq_length (roundID : Int) :
    winners entries roundID
      = (entries.rows.filter fun e => e.roundId = roundID ∧ e.status = .answered).length := by
  simp [winners, Table.total]

/-- A new entry is no winner. -/
theorem winners_of_loaded {db' : QuizDB} {c : QuizCaller} (h : db.Loaded roundID c e db') (r : Int) :
    winners db'.entries r = winners db.entries r := by
  cases h with
  | found hfind => rfl
  | created hnone hentry hcreate =>
    have hactive : e.status = .active := hentry ▸ rfl
    simp [winners, total_of_create hcreate, hactive]

/-- A right answer to an active entry makes one winner more in its round, and a wrong one none. -/
theorem winners_of_graded (he : e ∈ db.entries.rows) (hactive : e.status = .active) (r : Int) :
    winners (draw.graded correct e now money db).entries r
      = winners db.entries r + if e.roundId = r ∧ correct = true then 1 else 0 := by
  rw [graded_entries, winners, total_updateWhere_id _ _ he (fun x => by simp [Row.id]), ← winners]
  have hstatus : draw.entryStatus correct (quizMapInt 0 e.attempts + 1) = .answered ↔ correct = true := by
    cases correct
    · simp only [entryStatus, Bool.false_eq_true, if_false]
      split <;> simp
    · simp [entryStatus]
  simp only [GameEntry.grade, hactive, hstatus, decide_eq_true_eq, reduceCtorEq, and_false, if_false]
  omega

/-- A round without entries has no winners. -/
theorem winners_eq_zero {entries : Table GameEntry} (h : ∀ e ∈ entries.rows, e.roundId ≠ roundID) :
    winners entries roundID = 0 :=
  total_eq_zero _ fun e he => by simp [h e he]

/-- The winners keep to the number of each draw, and an open draw takes another one. -/
def QuizDB.WinnersBounded (db : QuizDB) : Prop :=
  ∀ d ∈ db.draws.rows, 0 < d.rules.maxWinners →
    winners db.entries d.roundId ≤ d.rules.maxWinners ∧
      (d.status = .open → winners db.entries d.roundId < d.rules.maxWinners)

namespace QuizDB.WinnersBounded

variable {db' : QuizDB}

theorem loaded (h : db.WinnersBounded) {c : QuizCaller} (hload : db.Loaded roundID c e db') :
    db'.WinnersBounded := by
  intro d hd hpos
  rw [hload.frame.1] at hd
  rw [winners_of_loaded hload]
  exact h d hd hpos

theorem opened (h : db.WinnersBounded) (hdb : db.WellFormed) {r : GameRound}
    {rounds : Table GameRound} (hrounds : db.rounds.create r = some rounds)
    (hdraws : db.draws.create d = some draws) (hid : d.roundId = r.id) :
    QuizDB.WinnersBounded { db with rounds, draws } := by
  intro x hx hpos
  rcases (mem_of_create hdraws).mp hx with hx | rfl
  · exact h x hx hpos
  · have hzero : winners db.entries x.roundId = 0 := winners_eq_zero fun e he heq => by
      obtain ⟨y, hy, hye⟩ := hdb.entry_round e he
      obtain ⟨z, hz, hzy⟩ := hdb.draw_round y hy
      exact id_ne_of_create hrounds hz (hzy.trans (hye.trans (heq.trans hid)))
    show winners db.entries x.roundId ≤ _ ∧ (_ → winners db.entries x.roundId < _)
    omega

/-- The winner who fills the number closes the draw. -/
theorem graded (h : db.WinnersBounded) (hdb : db.WellFormed) (hdraw : draw ∈ db.draws.rows)
    (hopen : draw.status = .open) (he : e ∈ db.entries.rows) (hround : e.roundId = draw.roundId)
    (hactive : e.status = .active) : (draw.graded correct e now money db).WinnersBounded := by
  intro d' hd' hpos
  obtain ⟨d, hd, hsame, hunchanged⟩ := graded_draws_of_mem hd'
  rw [winners_of_graded he hactive, hsame.roundId, hsame.rules]
  rw [hsame.rules] at hpos
  obtain ⟨hle, hlt⟩ := h d hd hpos
  by_cases hcase : e.roundId = d.roundId ∧ correct = true
  · -- a right answer to this draw: one winner more, and at the last one it closes
    obtain rfl : draw = d := hdb.round_inj draw hdraw d hd (hround.symm.trans hcase.1)
    have hlt := hlt hopen
    refine ⟨by omega, fun hstill => ?_⟩
    obtain ⟨d'', hd'', hsame', -, hcloses⟩ := @graded_draws now draw draw correct e money db hdraw
    obtain rfl : d' = d'' := eq_of_id_eq hd' hd'' (hsame.id.trans hsame'.id.symm)
    have hnot := fun hc => hcloses rfl hc hstill
    obtain ⟨hlo, hhi⟩ := hdb.winners_range draw hdraw
    have hread : quizMapInt 0 draw.rules.maxWinners = draw.rules.maxWinners :=
      quizMapInt_of_small (by omega) (by omega)
    rw [closes, if_pos hcase.2, closesOnCorrect] at hnot
    simp only [hread, if_pos hpos, Bool.or_eq_true, decide_eq_true_eq, ← winners_eq_length] at hnot
    by_contra hfull
    exact hnot (.inr (by omega))
  · rw [if_neg hcase, add_zero]
    exact ⟨hle, fun hstill => hlt (hunchanged hstill ▸ hstill)⟩

end QuizDB.WinnersBounded

/-! ## The history and the tables -/

/-- What the tables say of the history. -/
structure QuizDB.Records (db : QuizDB) (history : List QuizRecord) : Prop where
  /-- A closed draw is not open. -/
  closed : ∀ d, .closed d ∈ history → ∃ d' ∈ db.draws.rows, d.Same d' ∧ d'.status ≠ .open
  /-- A locked entry is stored as it was locked. -/
  locked : ∀ d e, .locked d e ∈ history → (∃ d' ∈ db.draws.rows, d.Same d') ∧ e.roundId = d.roundId ∧
    e ∈ db.entries.rows ∧ e.status = .locked
  /-- A credit has its key in the budget journal, and its draw is closed when one right answer closes it. -/
  credited : ∀ d c q t, .credited d c q t ∈ history →
    (∃ r, db.money.budget.transactions.byKey (trimSpace (quizRewardKey d.id c.userID)) = some r) ∧
      ∃ d' ∈ db.draws.rows, d.Same d' ∧ (d.ClosesForOne → d'.status ≠ .open)
  /-- Every credit has an answered entry. -/
  credits : ∀ d ∈ db.draws.rows, creditsOf d.id history ≤ winners db.entries d.roundId

/-- A winner count is not negative. -/
theorem winners_nonneg (roundID : Int) : 0 ≤ winners entries roundID := by
  rw [winners_eq_length]
  omega

/-- Draws of other ids have no credits. -/
theorem creditsOf_eq_zero {id : Int} {history : List QuizRecord}
    (h : ∀ d c q t, .credited d c q t ∈ history → d.id ≠ id) : creditsOf id history = 0 := by
  refine countP_eq_zero.mpr fun r hr => ?_
  cases r with
  | credited d c q t => simpa [credits] using h d c q t hr
  | locked d e => exact Bool.false_ne_true
  | closed d => exact Bool.false_ne_true

namespace QuizDB.Records

variable {env : QuizEnv} {db' : QuizDB} {history : List QuizRecord}

/-- The history stays true when the tables are extended. -/
theorem extended (h : db.Records history) (hext : db.Extends db')
    (hcredits : ∀ d ∈ db'.draws.rows, creditsOf d.id history ≤ winners db'.entries d.roundId) :
    db'.Records history := by
  refine ⟨fun d hd => ?_, fun d e he => ?_, fun d c q t hc => ?_, hcredits⟩
  · obtain ⟨d', hd', hsame, hclosed⟩ := h.closed d hd
    obtain ⟨d'', hd'', hsame', hclosed'⟩ := hext.draws d' hd'
    exact ⟨d'', hd'', hsame.trans hsame', hclosed' hclosed⟩
  · obtain ⟨⟨d', hd', hsame⟩, hround, hmem, hlocked⟩ := h.locked d e he
    obtain ⟨d'', hd'', hsame', -⟩ := hext.draws d' hd'
    exact ⟨⟨d'', hd'', hsame.trans hsame'⟩, hround, hext.entries e hmem (by simp [hlocked]), hlocked⟩
  · obtain ⟨⟨r, hr⟩, d', hd', hsame, hcloses⟩ := h.credited d c q t hc
    obtain ⟨d'', hd'', hsame', hclosed'⟩ := hext.draws d' hd'
    exact ⟨⟨r, hext.claims _ r hr⟩, d'', hd'', hsame.trans hsame', fun hone => hclosed' (hcloses hone)⟩

/-- A draw call adds nothing to the history, and a new draw has no credits. -/
theorem drawn (h : db.Records history) (hdrawn : db.Drawn env c db') : db'.Records history := by
  refine h.extended (.of_drawn hdrawn) fun d hd => ?_
  cases hdrawn with
  | nothing => exact h.credits d hd
  | joined hfind hload =>
    rw [hload.frame.1] at hd
    rw [winners_of_loaded hload]
    exact h.credits d hd
  | @opened questionId order e rounds draws _ hfind huser hgroup hrounds hdraws hload =>
    rw [hload.frame.1] at hd
    rw [winners_of_loaded hload]
    rcases (mem_of_create hdraws).mp hd with hd | rfl
    · exact h.credits d hd
    · rw [creditsOf_eq_zero fun d' c' q t hc heq => ?_]
      · exact winners_nonneg _ _
      · obtain ⟨-, d'', hd'', hsame, -⟩ := h.credited d' c' q t hc
        exact id_ne_of_create hdraws hd'' (hsame.id.trans heq)

end QuizDB.Records

/-! ## The records of an answer -/

section Records

variable {c : QuizAnswerCall} {db' : QuizDB} {history : List QuizRecord}

/-- What an answer pays to its user. -/
def QuizAnswerCall.paid (c : QuizAnswerCall) (before after : QuizDB) : Int :=
  (after.money.wallet.balance c.userID).getD 0 - (before.money.wallet.balance c.userID).getD 0

theorem mem_records (hfind : c.findDraw db = .ok draw) {r : QuizRecord} :
    r ∈ c.records now db db' ↔
      (r = .closed draw ∧ draw.status = .open ∧
        (db'.draws.byId draw.id).map status ≠ some .open) ∨
      (∃ e ∈ newlyLocked draw.roundId db.entries db'.entries, r = .locked draw e) ∨
      (r = .credited draw c.caller (c.paid db db') now ∧ c.paid db db' ≠ 0) := by
  have hmem : ∀ {p : Prop} [Decidable p] {x : QuizRecord},
      r ∈ (if p then [x] else []) ↔ r = x ∧ p := by
    intro p _ x
    split <;> simp [*]
  simp only [records, hfind, mem_append, List.mem_map, hmem, paid, eq_comm]

/-- The credit of an answer is the only one that it adds. -/
theorem creditsOf_records (hfind : c.findDraw db = .ok draw) (id : Int) :
    creditsOf id (c.records now db db' ++ history)
      = creditsOf id history + if draw.id = id ∧ c.paid db db' ≠ 0 then 1 else 0 := by
  have hlocked : (List.map (locked draw) (newlyLocked draw.roundId db.entries db'.entries)).countP
      (credits id) = 0 := countP_eq_zero.mpr fun r hr => by
    obtain ⟨e, -, rfl⟩ := List.mem_map.mp hr
    exact Bool.false_ne_true
  have hclosed : ∀ {p : Prop} [Decidable p],
      (if p then [closed draw] else []).countP (credits id) = 0 := by
    intro p _
    split <;> rfl
  have hcredited : (if c.paid db db' ≠ 0 then [credited draw c.caller (c.paid db db') now]
      else []).countP (credits id) = if draw.id = id ∧ c.paid db db' ≠ 0 then 1 else 0 := by
    by_cases hpaid : c.paid db db' = 0
    · simp [hpaid]
    · by_cases hid : draw.id = id <;> simp [hpaid, credits]
  unfold creditsOf
  simp only [records, hfind, countP_append, hlocked, hclosed]
  rw [← paid]
  omega

/-- Tables that stay as they are add nothing to the history. -/
theorem records_self (c : QuizAnswerCall) (now : Int) (db : QuizDB) : c.records now db db = [] := by
  cases hfind : c.findDraw db with
  | error e => simp [records, hfind]
  | ok draw =>
    refine eq_nil_iff_forall_not_mem.mpr fun r hr => ?_
    rcases (mem_records hfind).mp hr with ⟨-, hopen, hnot⟩ | ⟨e, he, -⟩ | ⟨-, hpaid⟩
    · have hself : db.draws.byId draw.id = some draw :=
        byId_eq_some.mpr ⟨findDraw_mem hfind, rfl⟩
      exact hnot (by rw [hself, map_some, hopen])
    · obtain ⟨he, hlocked⟩ := mem_filter.mp he
      have hself : db.entries.byId e.id = some e := byId_eq_some.mpr ⟨he, rfl⟩
      rw [decide_eq_true_eq, hself] at hlocked
      exact hlocked.2.2 (by rw [map_some, hlocked.2.1])
    · exact hpaid (Int.sub_self _)

end Records

/-! ## One answer -/

section Answer

variable {env : QuizEnv} {c : QuizAnswerCall} {db' : QuizDB} {history : List QuizRecord}

/-- A credit is for a right answer whose key was free. -/
theorem paid_of_graded (hreward : c.Rewarded draw db.money money)
    (hwrong : correct = false → money = db.money)
    (hpaid : c.paid db (draw.graded correct e now money db₁) ≠ 0) :
    correct = true ∧
      db.money.budget.transactions.byKey (trimSpace (quizRewardKey draw.id c.userID)) = none ∧
      ∃ r, money.budget.transactions.byKey (trimSpace (quizRewardKey draw.id c.userID)) = some r := by
  have hchanged : money.wallet.balance c.userID ≠ db.money.wallet.balance c.userID := fun heq => by
    rw [paid, graded_money, heq] at hpaid
    exact hpaid (Int.sub_self _)
  refine ⟨?_, hreward.claims hchanged⟩
  by_contra hne
  exact hchanged (by rw [hwrong (by simpa using hne)])

/-- One right answer closes such a draw. -/
theorem QuizQuestionDraw.ClosesForOne.closes (h : draw.ClosesForOne) (attempts : Int)
    (entries : Table GameEntry) : draw.closes true attempts entries = true := by
  have hbase : (draw.rules.closeOnCorrect || decide (draw.scopeMode ≠ .perGroup)) = true := by
    rcases h with hmode | hrule
    · simp [hmode]
    · simp [hrule]
  rw [QuizQuestionDraw.closes, if_pos rfl, QuizQuestionDraw.closesOnCorrect]
  simp only [hbase, Bool.true_or, ite_self]

/-- **A credit is lawful**: at an answer that shadows no lock, the tables rule out every earlier entry of the
history that would forbid the credit. -/
theorem lawful_of_graded (hwin : db.WinnersBounded) (hrec : db.Records history)
    (hfind : c.findDraw db = .ok draw) (hactive : draw.activeAt now = true)
    (hcorrect : c.isCorrect env draw = .ok correct) (hload : db.Loaded draw.roundId c.caller e db₁)
    (hstatus : e.status = .active) (hreward : c.Rewarded draw db.money money)
    (hwrong : correct = false → money = db.money) (hshadow : ¬ c.ShadowsLock env now db)
    (hpaid : c.paid db (draw.graded correct e now money db₁) ≠ 0) (quota : Int) :
    Lawful history (.credited draw c.caller quota now) := by
  obtain ⟨rfl, hfree, -⟩ := paid_of_graded hreward hwrong hpaid
  have hdraw := findDraw_mem hfind
  obtain ⟨hopen, htime⟩ := activeAt_iff.mp hactive
  -- a stored draw that the history knows under the id of `draw` is `draw`
  have heq : ∀ {d d' : QuizQuestionDraw}, d' ∈ db.draws.rows → d.Same d' → d.id = draw.id → d' = draw :=
    fun hd' hsame hid => eq_of_id_eq hd' hdraw (hsame.id.trans hid)
  refine ⟨htime, fun r hr => ?_, fun hone => ?_, fun hpos => ?_⟩
  · by_contra hforbids
    rw [Bool.not_eq_false] at hforbids
    cases r with
    | closed d =>
      have hid : d.id = draw.id := of_decide_eq_true hforbids
      obtain ⟨d', hd', hsame, hclosed⟩ := hrec.closed d hr
      rw [heq hd' hsame hid] at hclosed
      exact hclosed hopen
    | locked d x =>
      obtain ⟨hid, howns⟩ : d.id = draw.id ∧ c.caller.owns x = true := of_decide_eq_true hforbids
      obtain ⟨⟨d', hd', hsame⟩, hround, hx, hlocked⟩ := hrec.locked d x hr
      have hround' : x.roundId = draw.roundId := by rw [hround, ← hsame.roundId, heq hd' hsame hid]
      -- the newest entry of the caller is active, so the locked one is shadowed
      refine hshadow ?_
      rw [ShadowsLock, hfind]
      refine ⟨hactive, by rw [hcorrect]; rfl, ⟨x, hx, hround', howns, hlocked⟩, ?_⟩
      cases hload with
      | found hentry => rw [hentry, map_some, hstatus]; decide
      | created hnone => rw [hnone]; nofun
    | credited d c' q t =>
      obtain ⟨hid, huser⟩ : d.id = draw.id ∧ c'.userID = c.userID := of_decide_eq_true hforbids
      obtain ⟨⟨r, hr⟩, -⟩ := hrec.credited d c' q t hr
      rw [hid, huser, hfree] at hr
      cases hr
  · refine creditsOf_eq_zero fun d c' q t hr hid => ?_
    obtain ⟨-, d', hd', hsame, hcloses⟩ := hrec.credited d c' q t hr
    have hone' : d.ClosesForOne := by
      rw [ClosesForOne, ← hsame.scopeMode, ← hsame.rules, heq hd' hsame hid]
      exact hone
    rw [heq hd' hsame hid] at hcloses
    exact hcloses hone' hopen
  · have hle := hrec.credits draw hdraw
    have hlt := (hwin draw hdraw hpos).2 hopen
    omega

/-- Grading keeps the history true, with what it adds. -/
theorem QuizDB.Records.graded (hrec : db.Records history) (hfind : c.findDraw db = .ok draw)
    (hload : db.Loaded draw.roundId c.caller e db₁) (hstatus : e.status = .active)
    (hreward : c.Rewarded draw db.money money) (hwrong : correct = false → money = db.money)
    (hext : db.Extends (draw.graded correct e now money db₁)) :
    (draw.graded correct e now money db₁).Records
      (c.records now db (draw.graded correct e now money db₁) ++ history) := by
  have hdraw := findDraw_mem hfind
  have hdraw₁ : draw ∈ db₁.draws.rows := hload.frame.1 ▸ hdraw
  have hwinners : ∀ r, winners (draw.graded correct e now money db₁).entries r
      = winners db.entries r + if e.roundId = r ∧ correct = true then 1 else 0 := fun r => by
    rw [winners_of_graded hload.mem.1 hstatus, winners_of_loaded hload]
  have hbefore : (draw.graded correct e now money db₁).Records history := by
    refine hrec.extended hext fun d' hd' => ?_
    obtain ⟨d, hd, hsame, -⟩ := graded_draws_of_mem hd'
    have := hrec.credits d (hload.frame.1 ▸ hd)
    rw [hwinners, hsame.id, hsame.roundId]
    split <;> omega
  obtain ⟨d', hd', hsame, -, hcloses⟩ := @graded_draws now draw draw correct e money db₁ hdraw₁
  refine ⟨fun d hd => ?_, fun d x hx => ?_, fun d c' q t hc => ?_, fun d hd => ?_⟩
  · rcases mem_append.mp hd with hd | hd
    · rcases (mem_records hfind).mp hd with ⟨hd, -, hnot⟩ | ⟨x, -, hd⟩ | ⟨hd, -⟩
      · cases hd
        refine ⟨d', hd', hsame, fun hopen => hnot ?_⟩
        have hbyId : (draw.graded correct e now money db₁).draws.byId draw.id = some d' :=
          byId_eq_some.mpr ⟨hd', hsame.id⟩
        rw [hbyId, map_some, hopen]
      · cases hd
      · cases hd
    · exact hbefore.closed d hd
  · rcases mem_append.mp hx with hx | hx
    · rcases (mem_records hfind).mp hx with ⟨hx, -⟩ | ⟨y, hy, hx⟩ | ⟨hx, -⟩
      · cases hx
      · cases hx
        obtain ⟨hy, hlocked⟩ := mem_filter.mp hy
        rw [decide_eq_true_eq] at hlocked
        exact ⟨⟨d', hd', hsame⟩, hlocked.1, hy, hlocked.2.1⟩
      · cases hx
    · exact hbefore.locked d x hx
  · rcases mem_append.mp hc with hc | hc
    · rcases (mem_records hfind).mp hc with ⟨hc, -⟩ | ⟨y, -, hc⟩ | ⟨hc, hpaid⟩
      · cases hc
      · cases hc
      · cases hc
        obtain ⟨rfl, -, r, hr⟩ := paid_of_graded hreward hwrong hpaid
        exact ⟨⟨r, by rw [graded_money]; exact hr⟩, d', hd', hsame, fun hone =>
          hcloses rfl (hone.closes _ _)⟩
    · exact hbefore.credited d c' q t hc
  · rw [creditsOf_records hfind]
    by_cases hcase : draw.id = d.id ∧ c.paid db (draw.graded correct e now money db₁) ≠ 0
    · obtain ⟨rfl, -, -⟩ := paid_of_graded hreward hwrong hcase.2
      obtain rfl : d = d' := eq_of_id_eq hd hd' (hcase.1.symm.trans hsame.id.symm)
      have := hrec.credits draw hdraw
      rw [if_pos hcase, hwinners, hsame.id, hsame.roundId, if_pos ⟨hload.mem.2.1, rfl⟩]
      omega
    · rw [if_neg hcase]
      exact hbefore.credits d hd

end Answer

/-! ## Runs -/

/-- What every run keeps. -/
structure QuizSystem.Inv (s : QuizSystem) : Prop where
  wellFormed : s.shared.db.WellFormed
  active : OneActive s.shared.db.draws (unixSeconds s.shared.clock)
  winners : s.shared.db.WinnersBounded
  records : s.shared.db.Records s.shared.history
  lawful : Throughout QuizRecord.Lawful s.shared.history
  calls : ∀ th ∈ s.threads, ∀ c, th.call = some c → c.Bounded ∧ c.now ≤ s.shared.clock

namespace QuizSystem.Inv

variable {env : QuizEnv} {s : QuizSystem}

theorem initial (money : RewardDB) (clock : Int) : (QuizSystem.initial money clock).Inv where
  wellFormed := by constructor <;> simp [QuizSystem.initial]
  active := by simp [QuizSystem.initial, OneActive]
  winners := by simp [QuizSystem.initial, QuizDB.WinnersBounded]
  records := by constructor <;> simp [QuizSystem.initial]
  lawful := trivial
  calls := by simp [QuizSystem.initial]

/-- What a draw call does keeps the laws of the tables. -/
theorem drawn (h : s.Inv) (hbound : c.Bounded) (hnow : c.now ≤ s.shared.clock)
    (hdrawn : s.shared.db.Drawn env c db) :
    db.WellFormed ∧ OneActive db.draws (unixSeconds s.shared.clock) ∧ db.WinnersBounded ∧
      db.Records s.shared.history := by
  have hrecords := h.records.drawn hdrawn
  cases hdrawn with
  | nothing => exact ⟨h.wellFormed, h.active, h.winners, hrecords⟩
  | joined hfind hload =>
    have hd := mem_reverse.mp (List.mem_of_find?_eq_some hfind)
    exact ⟨h.wellFormed.loaded hd hload, hload.frame.1 ▸ h.active, h.winners.loaded hload, hrecords⟩
  | @opened questionId order e rounds draws _ hfind huser hgroup hrounds hdraws hload =>
    have hmem : c.row s.shared.db.draws.nextId questionId s.shared.db.rounds.nextId order ∈ draws.rows :=
      (mem_of_create hdraws).mpr (.inr rfl)
    have hwf := h.wellFormed.opened hrounds hdraws rfl hbound
    have hactive := h.active.opened (unixSeconds_mono hnow) hfind hdraws
    have hwin := h.winners.opened h.wellFormed hrounds hdraws rfl
    exact ⟨hwf.loaded hmem hload, by rw [hload.frame.1]; exact hactive, hwin.loaded hload, hrecords⟩

/-- An answer that shadows no lock keeps the laws. -/
theorem answered (h : s.Inv) {c : QuizAnswerCall} {ext : QuizAnswerEnv} {fault : Option Err}
    (hshadow : ¬ c.ShadowsLock env (unixSeconds s.shared.clock) s.shared.db) :
    (s.step env (.answer c ext fault)).Inv := by
  have hanswered := QuizWorld.answered_cases env c ext fault s.shared
  have hext := QuizDB.Extends.of_answered hanswered
  simp only [QuizSystem.step, QuizWorld.answer]
  generalize s.shared.answered env c ext fault = db' at hanswered hext ⊢
  obtain ⟨hwf, hactive, hwin, hrec, hlawful⟩ :
      db'.WellFormed ∧ OneActive db'.draws (unixSeconds s.shared.clock) ∧ db'.WinnersBounded ∧
      db'.Records (c.records (unixSeconds s.shared.clock) s.shared.db db' ++ s.shared.history) ∧
      Throughout Lawful
        (c.records (unixSeconds s.shared.clock) s.shared.db db' ++ s.shared.history) := by
    cases hanswered with
    | nothing =>
      rw [records_self]
      exact ⟨h.wellFormed, h.active, h.winners, h.records, h.lawful⟩
    | @graded draw e db₁ correct money hfind hdraw hcorrect huser hload hstatus hreward hwrong =>
      have hmem := QuizAnswerCall.findDraw_mem hfind
      have hmem₁ : draw ∈ db₁.draws.rows := hload.frame.1 ▸ hmem
      have hwf := h.wellFormed.loaded hmem hload
      have hactive : OneActive db₁.draws (unixSeconds s.shared.clock) := hload.frame.1 ▸ h.active
      refine ⟨hwf.graded hload.mem.1, hactive.graded, (h.winners.loaded hload).graded hwf hmem₁
        (activeAt_iff.mp hdraw).1 hload.mem.1 hload.mem.2.1 hstatus,
        h.records.graded hfind hload hstatus hreward hwrong hext, ?_⟩
      -- the closing and the locks permit everything, and the credit comes right after the old history
      have hcredit := lawful_of_graded h.winners h.records hfind hdraw hcorrect hload hstatus hreward hwrong
        hshadow
      simp only [QuizAnswerCall.records, hfind, append_assoc]
      refine throughout_append (fun r hr past => ?_) (throughout_append (fun r hr past => ?_) ?_)
      · split at hr
        · rw [mem_singleton.mp hr]
          trivial
        · cases hr
      · obtain ⟨x, -, rfl⟩ := List.mem_map.mp hr
        trivial
      · split
        · next hpaid => exact ⟨hcredit hpaid _, h.lawful⟩
        · exact h.lawful
  exact ⟨hwf, hactive, hwin, hrec, hlawful, h.calls⟩

/-- Every step that respects the locks keeps the laws. -/
theorem step (h : s.Inv) {e : QuizEvent} (he : e.RespectsLocks env s) : (s.step env e).Inv := by
  cases e with
  | wait nanos =>
    have hle : s.shared.clock ≤ s.shared.clock + nanos := by omega
    exact ⟨h.wellFormed, h.active.later (unixSeconds_mono hle), h.winners, h.records, h.lawful,
      fun th hth c hc => ⟨(h.calls th hth c hc).1, (h.calls th hth c hc).2.trans hle⟩⟩
  | draw call =>
    refine ⟨h.wellFormed, h.active, h.winners, h.records, h.lawful, ?_⟩
    refine Pool.forall_spawn h.calls fun c hc => ?_
    unfold QuizDrawThread.start at hc
    split at hc
    · cases hc
    · next d hd =>
      cases hc
      exact ⟨(quizQuestionDraw_bounded hd).1, (quizQuestionDraw_bounded hd).2.le⟩
  | step thread fault =>
    refine Pool.stepAt_elim (P := QuizSystem.Inv) (fun _ => h) fun th hth => ?_
    obtain ⟨⟨db, heq, hdb⟩, hcall⟩ := QuizDrawThread.step_drawn env fault th s.shared
    have hcalls := h.calls th (mem_of_getElem? hth)
    obtain ⟨hwf, hactive, hwin, hrec⟩ : db.WellFormed ∧ OneActive db.draws (unixSeconds s.shared.clock) ∧
        db.WinnersBounded ∧ db.Records s.shared.history := by
      rcases hdb with rfl | ⟨c, hc, hdrawn⟩
      · exact ⟨h.wellFormed, h.active, h.winners, h.records⟩
      · exact h.drawn (hcalls c hc).1 (hcalls c hc).2 hdrawn
    rw [heq]
    exact ⟨hwf, hactive, hwin, hrec, h.lawful,
      Pool.forall_mem_set h.calls fun c hc => hcalls c (hcall c hc)⟩
  | answer c ext fault => exact h.answered he

end QuizSystem.Inv

/-- **Quiz rewards are paid once and in bounds**: in every interleaving of draws and answers, as long as no
right answer finds a newer entry of its caller above a locked one, a scope has at most one round that takes
answers, and every credit is lawful after the history before it. -/
theorem quiz_rewards_lawful (env : QuizEnv) (money : RewardDB) (clock : Int) (events : List QuizEvent)
    (h : Along (QuizSystem.step env) (fun s e => e.RespectsLocks env s) (QuizSystem.initial money clock) events) :
    (run (QuizSystem.step env) (QuizSystem.initial money clock) events).shared.RewardsLawful := by
  have hinv := run_keeps_along (I := QuizSystem.Inv) (fun s e hs he => hs.step he)
    (QuizSystem.Inv.initial money clock) h
  exact ⟨fun scopeKey => hinv.active.length_le scopeKey, hinv.lawful⟩

/-! ## A group's question -/

/-- The digests of the three texts that the first draw of the group hashes. -/
def sampleSha256 (text : String) : List UInt8 :=
  if text = "site\x00tg:room:group\x00k" then
    [94, 182, 218, 128, 9, 74, 63, 13, 130, 162, 213, 68, 28, 174, 192, 175, 85, 40, 254, 105, 91,
    51, 185, 146, 211, 77, 27, 208, 149, 144, 214, 65]
  else if text = "k:1:1" then
    [172, 149, 53, 130, 47, 206, 59, 41, 194, 67, 130, 87, 221, 132, 145, 179, 235, 246, 244, 113,
    172, 215, 184, 143, 62, 168, 89, 86, 97, 198, 142, 200]
  else if text = "k:tg:room:group:0" then
    [178, 167, 111, 20, 101, 203, 31, 20, 193, 82, 13, 30, 237, 216, 2, 41, 3, 98, 142, 56, 174,
    113, 208, 38, 159, 105, 35, 18, 88, 247, 18, 193]
  else []

/-- A group with one question for all, two attempts for each caller and a reward of `5`. -/
def groupQuizEnv : QuizEnv where
  siteID := "site"
  policy _ _ := .ok (1, { questionScope := "per_group", rewardQuota := some 5 })
  questions := [{ id := 1, bankId := 1, options := some ["yes", "no"], correctIndex := 0, published := true
                  weight := 1 }]
  sha256 := sampleSha256
  equalFold s t := toLowerAscii s = toLowerAscii t
  rewardMetadata _ := ""

/-- An answer of a user under an external id. -/
def groupAnswer (userID : Int) (externalID text : String) : QuizEvent :=
  .answer { drawID := 1, roundKey := "", userID, targetExternalID := externalID, targetId := ""
            actionID := 1, answerIndexes := [], answerText := text }
    ⟨plainRewardEnv "2026-06-21", none⟩ none

/-- User `1` draws the question of the group. -/
def groupDraw : List QuizEvent :=
  [.draw { platform := "tg", groupID := "room", userID := 1, targetExternalID := "qq1", targetId := ""
           drawKey := "k", idempotencyKey := "" },
   .step 0 none, .step 0 none]

/-- Somebody without an account answers wrong as `qq2`. Then user `1` runs out of attempts as `qq1`, and
answers right as `qq2`. -/
def secondIdentity : List QuizEvent :=
  groupDraw ++ [groupAnswer 0 "qq2" "no", groupAnswer 1 "qq1" "no", groupAnswer 1 "qq1" "no",
    groupAnswer 1 "qq2" "yes"]

instance decidableThroughoutLawful : ∀ history, Decidable (Throughout QuizRecord.Lawful history)
  | [] => inferInstanceAs (Decidable True)
  | r :: past =>
    have := decidableThroughoutLawful past
    inferInstanceAs (Decidable (r.Lawful past ∧ Throughout QuizRecord.Lawful past))

/-- The laws along a run in which user `1` draws and answers right. -/
theorem quiz_rewards_lawful_drawn :
    (run (QuizSystem.step groupQuizEnv) (QuizSystem.initial fundedRewardDB 1781971200000000000)
      (groupDraw ++ [groupAnswer 1 "qq1" "yes"])).shared.RewardsLawful :=
  quiz_rewards_lawful groupQuizEnv fundedRewardDB 1781971200000000000
    (groupDraw ++ [groupAnswer 1 "qq1" "yes"]) (by decide +kernel)

/-- With a second external id, the user is credited after his entry was locked. -/
theorem second_identity_credited :
    ¬ (run (QuizSystem.step groupQuizEnv) (QuizSystem.initial fundedRewardDB 1781971200000000000)
      secondIdentity).shared.RewardsLawful := fun h => absurd h.history (by decide +kernel)

end Prox
