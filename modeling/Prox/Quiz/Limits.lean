import Prox.Quiz.Rewards

/-! # The daily limits of the quiz

The number of rounds of a group on a business date, and the number of those in which one user has an entry.
Both are checked behind the lock on the bank, before a round is opened. A caller also gets an entry when he
joins a round that is there or answers in one, and there the second limit is not looked at: it holds as long
as every new entry in such a round comes from a caller who is below it. -/

namespace Prox

open List Option

/-! ## The limits -/

/-- The policy of a group, if it has one. -/
def QuizEnv.groupPolicy (env : QuizEnv) (platform groupID : String) : Option QuizRuntimePolicy :=
  match env.policy platform groupID with
  | .ok (bankId, rules) => some (rules.policy bankId)
  | .error _ => none

/-- No group has more rounds on a date than its policy permits. -/
def QuizDB.GroupLimitHolds (env : QuizEnv) (db : QuizDB) : Prop :=
  ∀ platform groupID date p, env.groupPolicy platform groupID = some p → 0 < p.groupLimit →
    (quizTodayGroupDraws db platform groupID date : Int) ≤ p.groupLimit

/-- One user, known by his user id or by an external id. -/
def QuizCaller.IsUser (c : QuizCaller) : Prop :=
  (0 < c.userID ∧ c.externalUserID = "") ∨ (c.userID ≤ 0 ∧ c.externalUserID ≠ "")

/-- Nobody has entries in more rounds of a group on a date than its policy permits. -/
def QuizDB.UserLimitHolds (env : QuizEnv) (db : QuizDB) : Prop :=
  ∀ platform groupID date p, env.groupPolicy platform groupID = some p → 0 < p.userLimit →
    ∀ c : QuizCaller, c.IsUser → (quizTodayUserRoundsTx db platform groupID c date : Int) ≤ p.userLimit

/-- A caller without an entry in the round of a draw is below the limit of the draw's group and date. -/
def QuizDB.JoinsWithin (env : QuizEnv) (db : QuizDB) (d : QuizQuestionDraw) (c : QuizCaller) : Prop :=
  quizFindEntryForUpdateTx db.entries d.roundId c = none →
    ∀ p ∈ env.groupPolicy d.platform d.groupId, 0 < p.userLimit →
      (quizTodayUserRoundsTx db d.platform d.groupId c d.businessDate : Int) < p.userLimit
  deriving Decidable

/-- The draw in whose round a step may create an entry, and for whom: the round that a draw call joins, or
the one in which an answer is graded. -/
def QuizEvent.joins (env : QuizEnv) (s : QuizSystem) : QuizEvent → Option (QuizQuestionDraw × QuizCaller)
  | .step thread _ => do
    let c ← (← s.threads[thread]?).call
    let d ← quizFindActiveDrawTx s.shared.db.draws c.scopeKey (unixSeconds c.now)
    return (d, c.caller)
  | .answer c _ _ => do
    let d ← (c.findDraw s.shared.db).toOption
    let correct ← (c.isCorrect env d).toOption
    if d.activeAt (unixSeconds s.shared.clock) = true ∧ ¬ (correct = true ∧ c.userID ≤ 0) then
      return (d, c.caller)
    else none
  | _ => none

/-- The step gives no caller an entry beyond the limit. -/
def QuizEvent.JoinsWithin (env : QuizEnv) (s : QuizSystem) (e : QuizEvent) : Prop :=
  ∀ j ∈ e.joins env s, s.shared.db.JoinsWithin env j.1 j.2

instance (env : QuizEnv) (s : QuizSystem) (e : QuizEvent) : Decidable (e.JoinsWithin env s) :=
  inferInstanceAs (Decidable (∀ j ∈ e.joins env s, s.shared.db.JoinsWithin env j.1 j.2))

/-! ## Counting rounds -/

/-- A selection that gains at most one member grows by at most one. -/
theorem length_filter_le_succ {α : Type} {l : List α} (hl : l.Nodup) {p q : α → Bool} {a : α}
    (h : ∀ x ∈ l, q x = true → p x = true ∨ x = a) : (l.filter q).length ≤ (l.filter p).length + 1 := by
  simp only [← countP_eq_length_filter]
  induction l with
  | nil => exact Nat.zero_le _
  | cons x l ih =>
    obtain ⟨hx, hl⟩ := nodup_cons.mp hl
    have hxl := h x mem_cons_self
    have htail := ih hl fun y hy => h y (mem_cons_of_mem _ hy)
    simp only [countP_cons]
    by_cases hxa : x = a
    · have hle : l.countP q ≤ l.countP p := countP_mono_left fun y hy hqy =>
        (h y (mem_cons_of_mem _ hy) hqy).resolve_right fun hya => hx (hxa ▸ hya ▸ hy)
      split <;> split <;> omega
    · split
      · next hq => rw [if_pos (hxl hq |>.resolve_right hxa)]; omega
      · split <;> omega

/-- The draw counts for a caller on a date of a group. -/
def QuizDB.counts (db : QuizDB) (platform groupID : String) (c : QuizCaller) (date : Civil)
    (d : QuizQuestionDraw) : Bool :=
  d.platform = platform ∧ d.groupId = groupID ∧ d.businessDate = date ∧
    db.entries.rows.any fun e => e.roundId = d.roundId ∧ c.owns e

variable {d : QuizQuestionDraw} {now : Int}

section Counting

variable {env : QuizEnv} {db db' : QuizDB} {platform groupID : String} {c c' : QuizCaller} {date : Civil}

theorem quizTodayUserRoundsTx_eq (db : QuizDB) (platform groupID : String) (c : QuizCaller) (date : Civil) :
    quizTodayUserRoundsTx db platform groupID c date
      = (db.draws.rows.filter (db.counts platform groupID c date)).length := rfl

theorem QuizDB.counts_iff : db.counts platform groupID c date d = true ↔
    (d.platform = platform ∧ d.groupId = groupID ∧ d.businessDate = date) ∧
      ∃ e ∈ db.entries.rows, e.roundId = d.roundId ∧ c.owns e = true := by
  simp [counts, and_assoc]

/-- A user owns an entry that a caller gets only if the caller owns everything that the user owns. -/
theorem QuizCaller.IsUser.owns_of_owns (hc : c.IsUser) {id roundID : Int}
    (h : c.owns (c'.entry id roundID now) = true) (e : GameEntry) (he : c.owns e = true) :
    c'.owns e = true := by
  rcases hc with ⟨hpos, hext⟩ | ⟨hpos, hext⟩
  · have hiff : ∀ x, c.owns x = true ↔ x.userId = c.userID := fun x => by simp [owns, hpos, hext]
    rw [hiff] at h he
    have huser : c'.userID = c.userID := h
    simp only [owns, huser, hpos, true_and]
    split <;> simp [he]
  · have hiff : ∀ x, c.owns x = true ↔ x.externalUserId = c.externalUserID := fun x => by
      simp [owns, not_lt.mpr hpos]
    rw [hiff] at h he
    have hexternal : c'.externalUserID = c.externalUserID := h
    simp only [owns, hexternal, hext, ne_eq, not_false_eq_true, and_true]
    split <;> simp [he]

/-- A caller below the limit who gets an entry brings no user beyond it. -/
theorem QuizDB.UserLimitHolds.loaded (h : db.UserLimitHolds env) (hdb : db.WellFormed)
    (hd : d ∈ db.draws.rows) {e : GameEntry} (hload : db.Loaded d.roundId c' e db')
    (hjoin : db.JoinsWithin env d c') : db'.UserLimitHolds env := by
  cases hload with
  | found hfind => exact h
  | @created now entries hnone hentry hcreate =>
    intro platform groupID date p hp hpos c hc
    have hbefore := h platform groupID date p hp hpos c hc
    rw [quizTodayUserRoundsTx_eq] at hbefore ⊢
    have hnodup : db.draws.rows.Nodup := List.Nodup.of_map _ db.draws.id_nodup
    -- a round counts afterwards when it did before, or it is the round of the new entry
    have hcounts : ∀ x ∈ db.draws.rows,
        QuizDB.counts { db with entries } platform groupID c date x = true →
          db.counts platform groupID c date x = true ∨ (x = d ∧ c.owns e = true) := by
      intro x hx hcount
      obtain ⟨hgroup, y, hy, hround, howns⟩ := counts_iff.mp hcount
      rcases (Table.mem_of_create hcreate).mp hy with hy | rfl
      · exact .inl (counts_iff.mpr ⟨hgroup, y, hy, hround, howns⟩)
      · exact .inr ⟨hdb.round_inj x hx d hd (hround.symm.trans (hentry ▸ rfl)), howns⟩
    by_cases hcase : (d.platform = platform ∧ d.groupId = groupID ∧ d.businessDate = date) ∧ c.owns e = true
    · obtain ⟨⟨rfl, rfl, rfl⟩, howns⟩ := hcase
      have hlimit := hjoin hnone p hp hpos
      rw [quizTodayUserRoundsTx_eq] at hlimit
      have hgrow := length_filter_le_succ hnodup fun x hx hcount =>
        (hcounts x hx hcount).imp_right And.left
      have hle : (db.draws.rows.filter (db.counts d.platform d.groupId c d.businessDate)).length
          ≤ (db.draws.rows.filter (db.counts d.platform d.groupId c' d.businessDate)).length := by
        refine (monotone_filter_right _ fun x hx => ?_).length_le
        obtain ⟨hgroup, y, hy, hround, hown⟩ := counts_iff.mp hx
        exact counts_iff.mpr ⟨hgroup, y, hy, hround, hc.owns_of_owns (hentry ▸ howns) y hown⟩
      show ((db.draws.rows.filter (QuizDB.counts { db with entries } d.platform d.groupId c
        d.businessDate)).length : Int) ≤ p.userLimit
      omega
    · have hsame : ∀ x ∈ db.draws.rows, QuizDB.counts { db with entries } platform groupID c date x = true →
          db.counts platform groupID c date x = true := by
        intro x hx hcount
        refine (hcounts x hx hcount).resolve_right fun hnew => hcase ⟨?_, hnew.2⟩
        rw [← hnew.1]
        exact (counts_iff.mp hcount).1
      have hle : (db.draws.rows.filter (QuizDB.counts { db with entries } platform groupID c date)).length
          ≤ (db.draws.rows.filter (db.counts platform groupID c date)).length := by
        simp only [← countP_eq_length_filter]
        exact countP_mono_left hsame
      show ((db.draws.rows.filter (QuizDB.counts { db with entries } platform groupID c date)).length : Int)
        ≤ p.userLimit
      omega

/-- A new draw has no entries yet. -/
theorem quizTodayUserRoundsTx_of_opened (hdb : db.WellFormed) {r : GameRound}
    {rounds : Table GameRound} {draws : Table QuizQuestionDraw}
    (hrounds : db.rounds.create r = some rounds) (hdraws : db.draws.create d = some draws)
    (hid : d.roundId = r.id) :
    quizTodayUserRoundsTx { db with rounds, draws } platform groupID c date
      = quizTodayUserRoundsTx db platform groupID c date := by
  have hnot : db.counts platform groupID c date d = false := by
    rw [Bool.eq_false_iff]
    intro hcount
    obtain ⟨-, e, he, hround, -⟩ := QuizDB.counts_iff.mp hcount
    obtain ⟨x, hx, hxe⟩ := hdb.entry_round e he
    obtain ⟨y, hy, hyx⟩ := hdb.draw_round x hx
    exact Table.id_ne_of_create hrounds hy (hyx.trans (hxe.trans (hround.trans hid)))
  rw [quizTodayUserRoundsTx_eq, quizTodayUserRoundsTx_eq]
  show (draws.rows.filter (db.counts platform groupID c date)).length = _
  rw [Table.rows_of_create hdraws, filter_append, filter_cons_of_neg (by simp [hnot]), filter_nil,
    append_nil]

/-- A new draw is one more of its group on its date. -/
theorem quizTodayGroupDraws_of_opened {rounds : Table GameRound} {draws : Table QuizQuestionDraw}
    (hdraws : db.draws.create d = some draws) :
    quizTodayGroupDraws { db with rounds, draws } platform groupID date
      = quizTodayGroupDraws db platform groupID date
        + if d.platform = platform ∧ d.groupId = groupID ∧ d.businessDate = date then 1 else 0 := by
  unfold quizTodayGroupDraws
  rw [Table.rows_of_create hdraws, filter_append]
  split <;> simp [*]

/-- Grading changes no column that the limits count. -/
theorem graded_counts {draw : QuizQuestionDraw} {correct : Bool} {e : GameEntry} {money : RewardDB} :
    quizTodayUserRoundsTx (draw.graded correct e now money db) platform groupID c date
        = quizTodayUserRoundsTx db platform groupID c date ∧
      quizTodayGroupDraws (draw.graded correct e now money db) platform groupID date
        = quizTodayGroupDraws db platform groupID date := by
  obtain ⟨f, hf, hdraws⟩ : ∃ f : QuizQuestionDraw → QuizQuestionDraw, (∀ d : QuizQuestionDraw, d.Same (f d)) ∧
      (draw.graded correct e now money db).draws.rows = db.draws.rows.map f := by
    unfold QuizQuestionDraw.graded
    dsimp only
    split
    · refine ⟨_, fun d => ?_, rfl⟩
      split <;> rfl
    · exact ⟨id, fun d => .refl d, (List.map_id _).symm⟩
  have hgroup : ∀ d, (f d).platform = d.platform ∧ (f d).groupId = d.groupId ∧
      (f d).businessDate = d.businessDate ∧ (f d).roundId = d.roundId := fun d =>
    ⟨(hf d).platform, (hf d).groupId, (hf d).businessDate, (hf d).roundId⟩
  have hentries : ∀ roundID, ((draw.graded correct e now money db).entries.rows.any
      fun x => x.roundId = roundID ∧ c.owns x) = db.entries.rows.any fun x => x.roundId = roundID ∧ c.owns x := by
    intro roundID
    rw [graded_entries, Table.rows_updateWhere, List.any_map]
    congr 1
    funext x
    simp only [Function.comp]
    split <;> rfl
  constructor
  · unfold quizTodayUserRoundsTx
    rw [hdraws, List.filter_map, length_map]
    congr 2
    funext d
    simp only [Function.comp, hgroup, hentries]
  · unfold quizTodayGroupDraws
    rw [hdraws, List.filter_map, length_map]
    congr 2
    funext d
    simp [hgroup]

end Counting

/-! ## Runs -/

/-- What every run keeps: the references, the policies of the calls, and the limit of the group. -/
structure QuizSystem.GroupInv (env : QuizEnv) (s : QuizSystem) : Prop where
  wellFormed : s.shared.db.WellFormed
  calls : ∀ th ∈ s.threads, ∀ c, th.call = some c →
    c.Bounded ∧ env.groupPolicy c.platform c.groupID = some c.policy
  group : s.shared.db.GroupLimitHolds env

section Steps

variable {env : QuizEnv} {s : QuizSystem} {db db' : QuizDB}

theorem quizQuestionDraw_policy {call : QuizDrawCall} {c : QuizDraw}
    (h : quizQuestionDraw env call now = .ok c) :
    env.groupPolicy c.platform c.groupID = some c.policy := by
  simp only [quizQuestionDraw, ok_iff, Prod.exists] at h
  obtain ⟨bankId, rules, hpolicy, rfl⟩ := h
  simp [QuizEnv.groupPolicy, hpolicy]

/-- A new entry is no new draw. -/
theorem QuizDB.GroupLimitHolds.loaded (h : db.GroupLimitHolds env) {roundID : Int} {c : QuizCaller}
    {e : GameEntry} (hload : db.Loaded roundID c e db') : db'.GroupLimitHolds env := by
  intro platform groupID date p hp hpos
  unfold quizTodayGroupDraws
  rw [hload.frame.1]
  exact h platform groupID date p hp hpos

/-- A draw call keeps the references and the limit of the group. -/
theorem QuizDB.GroupLimitHolds.drawn (h : db.GroupLimitHolds env) (hdb : db.WellFormed) {c : QuizDraw}
    (hbound : c.Bounded) (hpolicy : env.groupPolicy c.platform c.groupID = some c.policy)
    (hdrawn : db.Drawn env c db') : db'.WellFormed ∧ db'.GroupLimitHolds env := by
  cases hdrawn with
  | nothing => exact ⟨hdb, h⟩
  | joined hfind hload =>
    exact ⟨hdb.loaded (mem_reverse.mp (List.mem_of_find?_eq_some hfind)) hload, h.loaded hload⟩
  | @opened questionId order e rounds draws _ hfind huser hgroup hrounds hdraws hload =>
    have hmem : c.row db.draws.nextId questionId db.rounds.nextId order ∈ draws.rows :=
      (Table.mem_of_create hdraws).mpr (.inr rfl)
    have hopened : QuizDB.GroupLimitHolds env { db with rounds, draws } := by
      intro platform groupID date p hp hpos
      have hbefore := h platform groupID date p hp hpos
      rw [quizTodayGroupDraws_of_opened hdraws]
      split
      · next hcase =>
        obtain ⟨rfl, rfl, rfl⟩ := hcase
        obtain rfl := mem_unique hp hpolicy
        show ((quizTodayGroupDraws db c.platform c.groupID c.businessDate + 1 : Nat) : Int) ≤ _
        omega
      · exact hbefore
    exact ⟨(hdb.opened hrounds hdraws rfl hbound).loaded hmem hload, hopened.loaded hload⟩

/-- An answer keeps the references and the limit of the group. -/
theorem QuizDB.GroupLimitHolds.answered (h : db.GroupLimitHolds env) (hdb : db.WellFormed)
    {c : QuizAnswerCall} (hanswered : db.Answered env c now db') :
    db'.WellFormed ∧ db'.GroupLimitHolds env := by
  cases hanswered with
  | nothing => exact ⟨hdb, h⟩
  | graded hfind hactive hcorrect huser hload hstatus hreward hwrong =>
    refine ⟨(hdb.loaded (QuizAnswerCall.findDraw_mem hfind) hload).graded hload.mem.1,
      fun platform groupID date p hp hpos => ?_⟩
    rw [(graded_counts (c := c.caller)).2]
    exact h.loaded hload platform groupID date p hp hpos

/-- A draw call keeps the limit of the user: the call that opens a round has looked, and the one that joins
one is below it by assumption. -/
theorem QuizDB.UserLimitHolds.drawn (h : db.UserLimitHolds env) (hdb : db.WellFormed) {c : QuizDraw}
    (hbound : c.Bounded) (hpolicy : env.groupPolicy c.platform c.groupID = some c.policy)
    (hjoin : ∀ d ∈ quizFindActiveDrawTx db.draws c.scopeKey (unixSeconds c.now), db.JoinsWithin env d c.caller)
    (hdrawn : db.Drawn env c db') : db'.UserLimitHolds env := by
  cases hdrawn with
  | nothing => exact h
  | joined hfind hload =>
    exact h.loaded hdb (mem_reverse.mp (List.mem_of_find?_eq_some hfind)) hload (hjoin _ hfind)
  | @opened questionId order e rounds draws _ hfind huser hgroup hrounds hdraws hload =>
    have hmem : c.row db.draws.nextId questionId db.rounds.nextId order ∈ draws.rows :=
      (Table.mem_of_create hdraws).mpr (.inr rfl)
    have hopened : QuizDB.UserLimitHolds env { db with rounds, draws } := by
      intro platform groupID date p hp hpos caller hcaller
      rw [quizTodayUserRoundsTx_of_opened hdb hrounds hdraws rfl]
      exact h platform groupID date p hp hpos caller hcaller
    refine hopened.loaded (hdb.opened hrounds hdraws rfl hbound) hmem hload fun _ p hp hpos => ?_
    rw [quizTodayUserRoundsTx_of_opened hdb hrounds hdraws rfl]
    obtain rfl := Option.some.inj ((mem_def.mp hp).symm.trans hpolicy)
    exact huser hpos

/-- An answer keeps the limit of the user when the caller is below it or has an entry. -/
theorem QuizDB.UserLimitHolds.answered (h : db.UserLimitHolds env) (hdb : db.WellFormed)
    {c : QuizAnswerCall}
    (hjoin : ∀ d correct, c.findDraw db = .ok d → c.isCorrect env d = .ok correct → d.activeAt now = true →
      (correct = true → 0 < c.userID) → db.JoinsWithin env d c.caller)
    (hanswered : db.Answered env c now db') : db'.UserLimitHolds env := by
  cases hanswered with
  | nothing => exact h
  | graded hfind hactive hcorrect huser hload hstatus hreward hwrong =>
    have hloaded := h.loaded hdb (QuizAnswerCall.findDraw_mem hfind) hload
      (hjoin _ _ hfind hcorrect hactive huser)
    intro platform groupID date p hp hpos caller hcaller
    rw [graded_counts.1]
    exact hloaded platform groupID date p hp hpos caller hcaller

namespace QuizSystem.GroupInv

theorem initial (env : QuizEnv) (money : RewardDB) (clock : Int) :
    (QuizSystem.initial money clock).GroupInv env where
  wellFormed := (QuizSystem.Inv.initial money clock).wellFormed
  calls := by simp [QuizSystem.initial]
  group := fun _ _ _ _ _ hpos => by simpa [QuizSystem.initial, quizTodayGroupDraws] using hpos.le

/-- What a step does to the tables: nothing, what its draw call does, or what its answer does. -/
theorem step_db (h : s.GroupInv env) (e : QuizEvent) :
    (s.step env e).shared.db = s.shared.db ∨
    (∃ thread fault th c, e = .step thread fault ∧ s.threads[thread]? = some th ∧ th.call = some c ∧
      c.Bounded ∧ env.groupPolicy c.platform c.groupID = some c.policy ∧
      s.shared.db.Drawn env c (s.step env e).shared.db) ∨
    ∃ c ext fault, e = .answer c ext fault ∧
      s.shared.db.Answered env c (unixSeconds s.shared.clock) (s.step env e).shared.db := by
  cases e with
  | wait nanos => exact .inl rfl
  | draw call => exact .inl rfl
  | step thread fault =>
    cases hth : s.threads[thread]? with
    | none => exact .inl (congrArg (fun p => p.shared.db) (Pool.stepAt_of_none hth))
    | some th =>
      obtain ⟨⟨db, heq, hdb⟩, -⟩ := QuizDrawThread.step_drawn env fault th s.shared
      have hshared : (s.step env (.step thread fault)).shared.db = db := by
        show (s.stepAt (QuizDrawThread.step env fault) thread).shared.db = db
        rw [Pool.stepAt_of_some hth, heq]
      rw [hshared]
      rcases hdb with rfl | ⟨c, hc, hdrawn⟩
      · exact .inl rfl
      · obtain ⟨hbound, hpolicy⟩ := h.calls th (mem_of_getElem? hth) c hc
        exact .inr (.inl ⟨thread, fault, th, c, rfl, hth, hc, hbound, hpolicy, hdrawn⟩)
  | answer c ext fault =>
    exact .inr (.inr ⟨c, ext, fault, rfl, QuizWorld.answered_cases env c ext fault s.shared⟩)

/-- Every step keeps the policies of the calls. -/
theorem step_calls (h : s.GroupInv env) (e : QuizEvent) : ∀ th ∈ (s.step env e).threads, ∀ c,
    th.call = some c → c.Bounded ∧ env.groupPolicy c.platform c.groupID = some c.policy := by
  cases e with
  | wait nanos => exact h.calls
  | draw call =>
    refine Pool.forall_spawn h.calls fun c hc => ?_
    unfold QuizDrawThread.start at hc
    split at hc
    · cases hc
    · next d hd =>
      cases hc
      exact ⟨(quizQuestionDraw_bounded hd).1, quizQuestionDraw_policy hd⟩
  | step thread fault =>
    refine Pool.stepAt_elim
      (P := fun p : QuizSystem => ∀ th ∈ p.threads, ∀ c, th.call = some c →
        c.Bounded ∧ env.groupPolicy c.platform c.groupID = some c.policy) (fun _ => h.calls) fun th hth => ?_
    obtain ⟨-, hcall⟩ := QuizDrawThread.step_drawn env fault th s.shared
    exact Pool.forall_mem_set h.calls fun c hc => h.calls th (mem_of_getElem? hth) c (hcall c hc)
  | answer c ext fault => exact h.calls

/-- Every step keeps the limit of the group. -/
theorem step (h : s.GroupInv env) (e : QuizEvent) : (s.step env e).GroupInv env := by
  obtain ⟨hwf, hgroup⟩ : (s.step env e).shared.db.WellFormed ∧
      (s.step env e).shared.db.GroupLimitHolds env := by
    rcases h.step_db e with heq | ⟨thread, fault, th, c, -, -, -, hbound, hpolicy, hdrawn⟩ |
      ⟨c, ext, fault, -, hanswered⟩
    · rw [heq]
      exact ⟨h.wellFormed, h.group⟩
    · exact h.group.drawn h.wellFormed hbound hpolicy hdrawn
    · exact h.group.answered h.wellFormed hanswered
  exact ⟨hwf, h.step_calls e, hgroup⟩

/-- A step that joins within the limit keeps the limit of the user. -/
theorem step_user (h : s.GroupInv env) (huser : s.shared.db.UserLimitHolds env) {e : QuizEvent}
    (he : e.JoinsWithin env s) : (s.step env e).shared.db.UserLimitHolds env := by
  rcases h.step_db e with heq | ⟨thread, fault, th, c, rfl, hth, hc, hbound, hpolicy, hdrawn⟩ |
    ⟨c, ext, fault, rfl, hanswered⟩
  · rw [heq]
    exact huser
  · refine huser.drawn h.wellFormed hbound hpolicy (fun d hd => he (d, c.caller) ?_) hdrawn
    simp only [QuizEvent.joins, hth, hc, mem_def.mp hd, bind_eq_bind, bind_some]
    rfl
  · refine huser.answered h.wellFormed (fun d correct hfind hcorrect hactive hbinding =>
      he (d, c.caller) ?_) hanswered
    have hnot : ¬ (correct = true ∧ c.userID ≤ 0) := fun hc => absurd (hbinding hc.1) (by omega)
    simp only [QuizEvent.joins, hfind, hcorrect, Except.toOption, bind_eq_bind, bind_some,
      if_pos (And.intro hactive hnot)]
    rfl

end QuizSystem.GroupInv

end Steps

/-- **Quiz limits hold over a whole day**: in every interleaving of draws and answers, no group has more
rounds on a business date than its policy permits; and as long as every entry in a round that is already
there goes to a caller below the limit, no user has entries in more rounds than the policy permits. -/
theorem quiz_limits_hold (env : QuizEnv) (money : RewardDB) (clock : Int) (events : List QuizEvent) :
    (run (QuizSystem.step env) (QuizSystem.initial money clock) events).shared.db.GroupLimitHolds env ∧
    (Along (QuizSystem.step env) (fun s e => e.JoinsWithin env s) (QuizSystem.initial money clock) events →
      (run (QuizSystem.step env) (QuizSystem.initial money clock) events).shared.db.UserLimitHolds env) := by
  refine ⟨(run_keeps (I := QuizSystem.GroupInv env) (fun s e hs => hs.step e)
    (QuizSystem.GroupInv.initial env money clock) events).group, fun h => ?_⟩
  have hinitial : (QuizSystem.initial money clock).shared.db.UserLimitHolds env :=
    fun _ _ _ _ _ hpos _ _ => by simpa [QuizSystem.initial, quizTodayUserRoundsTx] using hpos.le
  exact (run_keeps_along (I := fun s => s.GroupInv env ∧ s.shared.db.UserLimitHolds env)
    (fun s e hs he => ⟨hs.1.step e, hs.1.step_user hs.2 he⟩)
    ⟨QuizSystem.GroupInv.initial env money clock, hinitial⟩ h).2

/-! ## A group that asks twice a day -/

/-- The digests of the texts that the first and the second draw of the group hash. -/
def secondSha256 (text : String) : List UInt8 :=
  if text = "site\x00tg:room:group\x00k2" then
    [219, 69, 195, 39, 28, 216, 153, 232, 235, 2, 46, 67, 65, 2, 129, 142, 216, 163, 194, 73, 183,
    187, 173, 128, 32, 104, 252, 138, 15, 249, 136, 78]
  else if text = "k2:1:1" then
    [11, 147, 94, 2, 149, 0, 251, 47, 108, 228, 86, 235, 187, 121, 94, 58, 27, 111, 48, 75, 166, 15,
    171, 54, 210, 165, 164, 220, 167, 108, 173, 161]
  else if text = "k2:tg:room:group:1" then
    [17, 217, 101, 224, 193, 119, 239, 198, 123, 71, 7, 43, 87, 76, 75, 142, 146, 86, 42, 58, 59,
    235, 171, 240, 35, 252, 227, 44, 211, 189, 98, 183]
  else sampleSha256 text

/-- The group's question, where a user may have one round a day. -/
def dailyQuizEnv : QuizEnv :=
  { groupQuizEnv with
    policy := fun _ _ => .ok (1, { questionScope := "per_group", maxPerUserDay := some 1 })
    sha256 := secondSha256 }

/-- A user draws in the group. -/
def groupDrawBy (userID : Int) (externalID drawKey : String) : QuizEvent :=
  .draw { platform := "tg", groupID := "room", userID, targetExternalID := externalID, targetId := "", drawKey
          idempotencyKey := "" }

/-- User `1` opens a round. When its time is over, user `2` opens the next one. -/
def twoRounds : List QuizEvent :=
  groupDraw ++ [.wait 601000000000, groupDrawBy 2 "qq2" "k2", .step 1 none, .step 1 none]

/-- The limits along a run in which each round has one user. -/
theorem quiz_limits_hold_two_rounds :
    (run (QuizSystem.step dailyQuizEnv) (QuizSystem.initial fundedRewardDB 1781971200000000000)
      twoRounds).shared.db.UserLimitHolds dailyQuizEnv :=
  (quiz_limits_hold dailyQuizEnv fundedRewardDB 1781971200000000000 twoRounds).2 (by decide +kernel)

/-- The user of the first round joins the second one, too. -/
theorem joined_beyond_limit :
    ¬ (run (QuizSystem.step dailyQuizEnv) (QuizSystem.initial fundedRewardDB 1781971200000000000)
      (twoRounds ++ [groupDrawBy 1 "qq1" "k3", .step 2 none])).shared.db.UserLimitHolds dailyQuizEnv :=
  fun h => absurd (h "tg" "room" ⟨2026, 6, 21⟩ _ rfl (by decide) ⟨1, ""⟩ (.inl ⟨by decide, rfl⟩))
    (by decide +kernel)

end Prox
