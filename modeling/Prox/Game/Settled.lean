import Prox.Game.Director

/-! # Rounds are settled once

A treasure round or a red packet is to be settled once, after its time. Messages and the loop settle rounds
on their own, so this rests on conditions between them: no message calls the game of a round that the loop
has in hand, no round is started over another, and the loop finds at the end of a session and at its
clean-up what it left. -/

namespace Prox

open DirectorWorld List LoopState Option SessionManager

/-! ## The property -/

/-- A session of the treasure game or a red packet. -/
def SessionManager.IsRound (sm : SessionManager) (r : Nat) : Prop :=
  ∃ s, sm.objects[r]? = some s ∧ s.game ≠ .bankerGuess

/-- The manager has the session for some group. -/
def SessionManager.Stored (sm : SessionManager) (r : Nat) : Prop := ∃ gid, sm.sessions.get gid = some r

/-- The event is a settlement of a round. -/
def RoundEvent.Settles (r : Nat) (e : RoundEvent) : Bool :=
  e.round = r && match e.change with
    | .settled _ => true
    | _ => false

/-- How often the payout or refund actions of a round were issued. -/
def settlements (r : Nat) (history : List RoundEvent) : Nat := history.countP (RoundEvent.Settles r)

/-- **Rounds are settled once.** No round is settled twice; one that the manager no longer has was settled,
and so was, when the loop has gone through its snapshot, every round of the snapshot; a settlement comes when
the round's time is over; and the loop ends and settles only the round it took, and starts none. -/
structure SettledOnce (w : DirectorWorld) : Prop where
  once : ∀ r, w.sm.IsRound r → settlements r w.history ≤ 1
  gone : ∀ r, w.sm.IsRound r → ¬ w.sm.Stored r → settlements r w.history = 1
  passed : ∀ taken, w.loop = .settling [] taken → ∀ r ∈ taken, w.sm.IsRound r → settlements r w.history = 1
  due : ∀ e ∈ w.history, e.Settles e.round → ∀ s, w.sm.objects[e.round]? = some s → s.expiresAt ≤ e.time
  own : ∀ e ∈ w.history, ∀ took, e.actor = .loop took → w.sm.IsRound e.round →
    took = some e.round ∧ e.change ≠ .started

/-! ## The condition -/

/-- The sessions of its snapshot that the loop is not done with. -/
def LoopState.held : LoopState → List Nat
  | .sleeping => []
  | .settling todo _ => todo.map Prod.snd
  | .ending _ r todo _ => r :: todo.map Prod.snd

/-- The call of a game starts a session. -/
def Game.starts (g : Game) (env : GameEnv) (now : Int) (m : Message) (sm : SessionManager) : Bool :=
  match g with
  | .bankerGuess =>
    ["坐庄", "开庄", "banker"].any (hasPrefix m.text ·) && !(BankerGuess.active now m.groupId sm).isSome &&
      env.bankerEntry m.text
  | .redpacket => m.isAdmin && !(sm.getSession m.groupId).any (·.2.game = .redpacket)
  | .treasure =>
    !(Treasure.infoPrefixes.any (hasPrefix m.text ·) && !Treasure.joins m.text) &&
      !(sm.getSession m.groupId).any (·.2.game = .treasure)

/-- The time that a treasure round was given is not more than the configured one. -/
def GameSession.InTime (env : GameEnv) (s : GameSession) : Prop :=
  match s.state with
  | .treasure state => s.expiresAt ≤ state.startedAt + env.roundDurationSec
  | _ => True

instance (env : GameEnv) : (s : GameSession) → Decidable (s.InTime env)
  | ⟨_, expiresAt, .treasure state⟩ =>
    inferInstanceAs (Decidable (expiresAt ≤ state.startedAt + env.roundDurationSec))
  | ⟨_, _, .bankerGuess _⟩ | ⟨_, _, .redpacket _⟩ => .isTrue trivial

/-- A call by a message does not have one of the loop's texts, starts no session over a round, is not for a
round that the loop has in hand, and does not shorten the time of a treasure round. -/
structure Message.Calm (env : GameEnv) (w : DirectorWorld) (g : Game) (m : Message) : Prop where
  text : m.text ∉ controlTexts
  free : g.starts env w.clock m w.sm → ∀ p ∈ w.sm.getSession m.groupId, p.2.game = .bankerGuess
  apart : ∀ p ∈ w.sm.getSession m.groupId, p.2.game = g → p.1 ∉ w.loop.held
  time : ∀ p ∈ w.sm.getSession m.groupId, p.2.InTime env

instance (env : GameEnv) (w : DirectorWorld) (g : Game) (m : Message) : Decidable (m.Calm env w g) :=
  decidable_of_iff
    (m.text ∉ controlTexts ∧
      (g.starts env w.clock m w.sm → ∀ p ∈ w.sm.getSession m.groupId, p.2.game = .bankerGuess) ∧
      (∀ p ∈ w.sm.getSession m.groupId, p.2.game = g → p.1 ∉ w.loop.held) ∧
      ∀ p ∈ w.sm.getSession m.groupId, p.2.InTime env)
    ⟨fun ⟨htext, hfree, hapart, htime⟩ => ⟨htext, hfree, hapart, htime⟩,
      fun h => ⟨h.text, h.free, h.apart, h.time⟩⟩

/-- When the loop ends the session of a group, the group has no other round than the one it took; when it
cleans up, no round is expired. -/
def DirectorWorld.LoopCalm (w : DirectorWorld) : Prop :=
  match w.loop with
  | .ending gid r _ _ => ∀ p ∈ w.sm.getSession gid, p.1 = r ∨ p.2.game = .bankerGuess
  | .settling [] _ =>
    ∀ e ∈ w.sm.expiredSessions w.clock, ∀ s ∈ w.sm.objects[e.2]?, s.game = .bankerGuess
  | _ => True

instance : (w : DirectorWorld) → Decidable w.LoopCalm
  | ⟨_, sm, .ending gid r _ _, _⟩ =>
    inferInstanceAs (Decidable (∀ p ∈ sm.getSession gid, p.1 = r ∨ p.2.game = .bankerGuess))
  | ⟨clock, sm, .settling [] _, _⟩ =>
    inferInstanceAs (Decidable (∀ e ∈ sm.expiredSessions clock, ∀ s ∈ sm.objects[e.2]?, s.game = .bankerGuess))
  | ⟨_, _, .sleeping, _⟩ | ⟨_, _, .settling (_ :: _) _, _⟩ => .isTrue trivial

/-- The condition on a step of a message. -/
def RouteThread.Calm (env : GameEnv) (w : DirectorWorld) : RouteThread → Prop
  | .call m g _ => m.Calm env w g
  | .lookup _ | .done _ => True

instance (env : GameEnv) (w : DirectorWorld) : (th : RouteThread) → Decidable (th.Calm env w)
  | .call m g _ => inferInstanceAs (Decidable (m.Calm env w g))
  | .lookup _ | .done _ => .isTrue trivial

/-- The condition on a step. -/
def Director.Calm (s : Director) : DirectorEvent → Prop
  | .route env thread => ∀ th ∈ s.threads[thread]?, th.Calm env s.shared
  | .loop _ => s.shared.LoopCalm
  | .wait _ | .message _ => True

instance (s : Director) : (e : DirectorEvent) → Decidable (s.Calm e)
  | .route env thread => inferInstanceAs (Decidable (∀ th ∈ s.threads[thread]?, th.Calm env s.shared))
  | .loop _ => inferInstanceAs (Decidable s.shared.LoopCalm)
  | .wait _ | .message _ => .isTrue trivial

/-! ## What a call does -/

/-- What the call of a game for a group does with the sessions; `settles` is the session whose payout or
refund it issues. -/
inductive SessionMove (now : Int) (g : Game) (gid : String) (sm : SessionManager) :
    SessionManager → Option Nat → Prop where
  | same : SessionMove now g gid sm sm none
  | updates {r s state} (hs : sm.getSession gid = some (r, s)) (hgame : { s with state := state }.game = s.game) :
    SessionMove now g gid sm (sm.setState r state) none
  | starts {timeout state} (hfree : ∀ p ∈ sm.getSession gid, p.2.game = .bankerGuess) :
    SessionMove now g gid sm (sm.start gid timeout now state) none
  | settles {r s} (hs : sm.getSession gid = some (r, s)) (hgame : s.game = g) (hdue : s.expiresAt ≤ now) :
    SessionMove now g gid sm (sm.end_ gid) (some r)
  /-- A round without duration is started and settled at once. -/
  | instant {timeout state} (hfree : ∀ p ∈ sm.getSession gid, p.2.game = .bankerGuess) (hdue : timeout ≤ 0) :
    SessionMove now g gid sm ((sm.start gid timeout now state).end_ gid) (some sm.objects.length)
  | ends (hfree : ∀ p ∈ sm.getSession gid, p.2.game = .bankerGuess) :
    SessionMove now g gid sm (sm.end_ gid) none

section Calls

variable {env : GameEnv} {w : DirectorWorld} {m : Message} {sm : SessionManager} {now : Int} {gid : String}
  {r : Nat} {s : GameSession}

/-- The response of a call that replies. -/
def settledBy (response : Option GameResponse) : Option Nat := response.bind GameResponse.settles

/-- An active session is the group's session. -/
theorem getSession_of_getActive {p : Nat × GameSession} (h : sm.getActive gid now = some p) :
    sm.getSession gid = some p := by
  rw [getActive, filter_eq_some_iff] at h
  exact h.1

/-- A running banker's game is the group's session. -/
theorem getSession_of_active {bankerId : String} (h : BankerGuess.active now gid sm = some bankerId) :
    ∃ p, sm.getSession gid = some p ∧ p.2.game = .bankerGuess := by
  unfold BankerGuess.active at h
  split at h
  · next r gid' expiresAt bankerId' hactive => exact ⟨_, getSession_of_getActive hactive, rfl⟩
  · cases h

/-- **Spec lemma** of the banker's game. -/
theorem BankerGuess.handle_move
    (hfree : Game.bankerGuess.starts env now m sm →
      ∀ p ∈ sm.getSession m.groupId, p.2.game = .bankerGuess) :
    SessionMove now .bankerGuess m.groupId sm (handle env now m sm).2 (settledBy (handle env now m sm).1) := by
  unfold handle
  split
  · next htrigger =>
    split
    · exact .same
    · next hstart =>
      rw [Bool.or_eq_true, not_or] at hstart
      refine .starts (hfree ?_)
      simp only [Game.starts, htrigger, Bool.true_and, Bool.and_eq_true, Bool.not_eq_true']
      exact ⟨by simpa using hstart.1, by simpa using hstart.2⟩
  · split
    · exact .same
    · split
      · split
        · next hactive =>
          obtain ⟨p, hp, hgame⟩ := getSession_of_active hactive
          refine .ends fun p' hp' => ?_
          obtain rfl : p = p' := mem_unique hp hp'
          exact hgame
        · exact .same
      · exact .same

/-- **Spec lemma** of the red packet, for texts that are not the loop's or on an expired one. -/
theorem RedPacket.handle_move
    (htext : m.text ∉ ["__auto_close__", "__auto_expire__"] ∨
      ∀ p ∈ sm.getSession m.groupId, p.2.expiresAt ≤ now)
    (hfree : Game.redpacket.starts env now m sm → ∀ p ∈ sm.getSession m.groupId, p.2.game = .bankerGuess) :
    SessionMove now .redpacket m.groupId sm (handle env now m sm).2 (handle env now m sm).1.settles := by
  unfold handle
  split
  · next r gid expiresAt state hs =>
    split
    · next hclose =>
      refine .settles hs rfl ?_
      rcases hclose with hexpired | hclose
      · exact Int.le_of_lt (of_decide_eq_true hexpired)
      · exact (htext.resolve_left fun h => h hclose) _ hs
    · unfold grab
      split
      · exact .same
      · split
        · exact .same
        · dsimp only
          split
          · exact .same
          · exact .updates hs rfl
  · next hnot =>
    split
    · next hadmin =>
      refine .starts (hfree ?_)
      simp only [Game.starts, hadmin, Bool.true_and, Bool.not_eq_true']
      rcases hs : sm.getSession m.groupId with _ | ⟨r, gid, expiresAt, state⟩
      · rfl
      · cases state with
        | redpacket state => exact absurd hs (hnot r gid expiresAt state)
        | bankerGuess | treasure => rfl
    · exact .same

/-- A treasure round of the group that is over. -/
theorem Treasure.expired_eq_some {state : TreasureState} {p : Option (Nat × GameSession)}
    (h : expired now p = some (r, state)) :
    ∃ s, p = some (r, s) ∧ s.state = .treasure state ∧ s.expiresAt ≤ now := by
  unfold expired at h
  split at h
  · next r' s =>
    split at h
    · next state' hstate =>
      split at h
      · next hexpired =>
        cases h
        exact ⟨s, rfl, hstate, Int.le_of_lt (of_decide_eq_true hexpired)⟩
      · cases h
    · cases h
  · cases h

/-- A finalisation is a settlement; it ends the session of the group when it is told to. -/
theorem Treasure.finalize_eq (env : GameEnv) (gid : String) (r : Nat) (sm : SessionManager)
    (state : TreasureState) (endSession : Bool) :
    (finalize env gid r state endSession sm).2 = (if endSession then sm.end_ gid else sm) ∧
      (finalize env gid r state endSession sm).1.settles = some r := by
  unfold finalize
  dsimp only
  split <;> exact ⟨rfl, rfl⟩

/-- `_gs` finds the treasure round of the group, or starts one where there is none. -/
theorem Treasure.gs_cases (env : GameEnv) (now : Int) (gid : String) (sm : SessionManager) :
    (∃ r s state, sm.getSession gid = some (r, s) ∧ s.state = .treasure state ∧
      gs env now gid sm = (r, state, sm)) ∨
    ((sm.getSession gid).any (·.2.game = .treasure) = false ∧
      gs env now gid sm = (sm.objects.length, { startedAt := now },
        sm.start gid env.roundDurationSec now (.treasure { startedAt := now }))) := by
  unfold gs
  split
  · next r gid' expiresAt state hs => exact .inl ⟨r, _, state, hs, rfl, rfl⟩
  · next hnot =>
    refine .inr ⟨?_, rfl⟩
    rcases hs : sm.getSession gid with _ | ⟨r, gid', expiresAt, state⟩
    · rfl
    · cases state with
      | treasure state => exact absurd hs (hnot r gid' expiresAt state)
      | bankerGuess | redpacket => rfl

/-- To join a new round is to start it with the participant. -/
theorem SessionManager.setState_start (timeout : Int) (state state' : SessionState) :
    (sm.start gid timeout now state).setState sm.objects.length state' = sm.start gid timeout now state' := by
  simp [start, setState, modify_eq_take_cons_drop]

/-- **Spec lemma** of the treasure game. -/
theorem Treasure.handle_move (htext : m.text ∉ controlTexts)
    (hfree : Game.treasure.starts env now m sm → ∀ p ∈ sm.getSession m.groupId, p.2.game = .bankerGuess)
    (htime : ∀ p ∈ sm.getSession m.groupId, p.2.InTime env) :
    SessionMove now .treasure m.groupId sm (handle env now m sm).2 (settledBy (handle env now m sm).1) := by
  unfold handle
  split
  · next r state hexpired =>
    obtain ⟨s, hs, hstate, hdue⟩ := expired_eq_some hexpired
    obtain ⟨hsm, hsettles⟩ := finalize_eq env m.groupId r sm state true
    simp only [Prod.map, settledBy, bind_some, hsm, hsettles, id]
    exact .settles hs (by simp [GameSession.game, hstate]) hdue
  · split
    · exact .same
    · next hinfo =>
      obtain ⟨r, s, state, hs, hstate, hgs⟩ | ⟨hother, hgs⟩ := gs_cases env now m.groupId sm
      · rw [hgs]
        dsimp only
        split
        · next hover =>
          have hdue : s.expiresAt ≤ now := by
            have hgiven := htime _ hs
            simp only [GameSession.InTime, hstate] at hgiven
            have hduration := hover.resolve_right htext
            omega
          obtain ⟨hsm, hsettles⟩ := finalize_eq env m.groupId r sm state true
          simp only [Prod.map, settledBy, bind_some, hsm, hsettles, id]
          exact .settles hs (by simp [GameSession.game, hstate]) hdue
        · split
          · unfold join
            split
            · exact .same
            · exact .updates hs (by simp [GameSession.game, hstate])
          · exact .same
      · have hnone := hfree (by simp [Game.starts, hinfo, hother])
        rw [hgs]
        dsimp only
        split
        · next hover =>
          obtain ⟨hsm, hsettles⟩ := finalize_eq env m.groupId sm.objects.length
            (sm.start m.groupId env.roundDurationSec now (.treasure { startedAt := now }))
            { startedAt := now } true
          simp only [Prod.map, settledBy, bind_some, hsm, hsettles, id]
          exact .instant hnone (by have := hover.resolve_right htext; omega)
        · split
          · simp only [join, any_nil, Bool.false_eq_true, if_false, Prod.map, settledBy, bind_some,
              setState_start, id]
            exact .starts hnone
          · exact .starts hnone

/-- **Spec lemma** of a call by a message. -/
theorem Message.Calm.handle_move {g : Game} (h : m.Calm env w g) :
    SessionMove w.clock g m.groupId w.sm (g.handle env w.clock m w.sm).2
      (settledBy (g.handle env w.clock m w.sm).1) := by
  cases g with
  | bankerGuess => exact BankerGuess.handle_move h.free
  | redpacket =>
    refine RedPacket.handle_move (.inl fun htext => h.text ?_) h.free
    exact mem_cons_of_mem _ htext
  | treasure => exact Treasure.handle_move h.text h.free h.time

end Calls

/-! ## The sessions after a call -/

/-- What the manager refers to was started, and it has a session for one group only. -/
structure SessionManager.WellFormed (sm : SessionManager) : Prop where
  valid : ∀ {gid r}, sm.sessions.get gid = some r → r < sm.objects.length
  inj : ∀ {gid gid' r}, sm.sessions.get gid = some r → sm.sessions.get gid' = some r → gid = gid'

/-- The sessions that were started stay, with their game and their time. -/
structure SessionManager.Grows (sm sm' : SessionManager) : Prop where
  length_le : sm.objects.length ≤ sm'.objects.length
  object : ∀ {r s'}, sm'.objects[r]? = some s' → r < sm.objects.length →
    ∃ s, sm.objects[r]? = some s ∧ s.expiresAt = s'.expiresAt ∧ s.game = s'.game

section Sessions

variable {sm sm' : SessionManager} {now timeout : Int} {g : Game} {gid gid' : String} {r : Nat}
  {state : SessionState} {settled : Option Nat}

namespace SessionManager

/-- A manager with the same sessions started. -/
theorem Grows.of_eq (h : sm'.objects = sm.objects) : sm.Grows sm' :=
  ⟨Nat.le_of_eq (congrArg List.length h.symm), fun hs _ => ⟨_, h ▸ hs, rfl, rfl⟩⟩

theorem Grows.trans {sm'' : SessionManager} (h : sm.Grows sm') (h' : sm'.Grows sm'') : sm.Grows sm'' where
  length_le := Nat.le_trans h.length_le h'.length_le
  object hs hr := by
    obtain ⟨s', hs', htime, hgame⟩ := h'.object hs (Nat.lt_of_lt_of_le hr h.length_le)
    obtain ⟨s, hs, htime', hgame'⟩ := h.object hs' hr
    exact ⟨s, hs, htime'.trans htime, hgame'.trans hgame⟩

theorem grows_start : sm.Grows (sm.start gid timeout now state) where
  length_le := by simp [start]
  object hs hr := by
    rw [start, List.getElem?_append_left hr] at hs
    exact ⟨_, hs, rfl, rfl⟩

theorem grows_setState {s : GameSession} (hs : sm.objects[r]? = some s)
    (hgame : { s with state := state }.game = s.game) : sm.Grows (sm.setState r state) where
  length_le := by simp [setState]
  object {r' s'} hs' _ := by
    rw [setState, List.getElem?_modify] at hs'
    obtain ⟨s₀, hs₀, rfl⟩ := map_eq_some_iff.mp hs'
    refine ⟨s₀, hs₀, ?_, ?_⟩
    · split <;> rfl
    · split
      · next hr =>
        subst hr
        obtain rfl : s = s₀ := mem_unique hs hs₀
        exact hgame.symm
      · rfl

/-- A round is started. -/
theorem IsRound.lt (h : sm.IsRound r) : r < sm.objects.length := by
  obtain ⟨s, hs, -⟩ := h
  exact (List.getElem?_eq_some_iff.mp hs).1

/-- A session that was started stays a round or none. -/
theorem Grows.isRound_iff (h : sm.Grows sm') (hr : r < sm.objects.length) : sm'.IsRound r ↔ sm.IsRound r := by
  have hlt : r < sm'.objects.length := Nat.lt_of_lt_of_le hr h.length_le
  have hget : sm'.objects[r]? = some sm'.objects[r] := List.getElem?_eq_getElem hlt
  obtain ⟨s, hs, -, hgame⟩ := h.object hget hr
  constructor
  · rintro ⟨s', hs', hround⟩
    obtain rfl := mem_unique hget hs'
    exact ⟨s, hs, hgame ▸ hround⟩
  · rintro ⟨s', hs', hround⟩
    obtain rfl := mem_unique hs hs'
    exact ⟨_, hget, hgame ▸ hround⟩

/-- The session of a group is what the manager refers to. -/
theorem getSession_eq_some {s : GameSession} :
    sm.getSession gid = some (r, s) ↔ sm.sessions.get gid = some r ∧ sm.objects[r]? = some s := by
  simp only [getSession, bind_eq_some_iff, map_eq_some_iff, Prod.mk.injEq]
  constructor
  · rintro ⟨r', hr, s', hs, rfl, rfl⟩
    exact ⟨hr, hs⟩
  · rintro ⟨hr, hs⟩
    exact ⟨r, hr, s, hs, rfl, rfl⟩

/-- A group whose session is at most a banker's game has no round. -/
theorem not_isRound_of_free (hfree : ∀ p ∈ sm.getSession gid, p.2.game = .bankerGuess)
    (hr : sm.sessions.get gid = some r) : ¬ sm.IsRound r := by
  rintro ⟨s, hs, hround⟩
  exact hround (hfree (r, s) (getSession_eq_some.mpr ⟨hr, hs⟩))

@[simp] theorem get_end_ : (sm.end_ gid).sessions.get gid' = if gid = gid' then none else sm.sessions.get gid' :=
  Dict.get_pop

@[simp] theorem get_start : (sm.start gid timeout now state).sessions.get gid' =
    if gid = gid' then some sm.objects.length else sm.sessions.get gid' :=
  Dict.get_set

@[simp] theorem get_setState : (sm.setState r state).sessions.get gid' = sm.sessions.get gid' := rfl

@[simp] theorem length_end_ : (sm.end_ gid).objects.length = sm.objects.length := rfl

@[simp] theorem length_start : (sm.start gid timeout now state).objects.length = sm.objects.length + 1 :=
  length_append

@[simp] theorem length_setState : (sm.setState r state).objects.length = sm.objects.length :=
  length_modify ..

end SessionManager

namespace SessionMove

variable (h : SessionMove now g gid sm sm' settled)
include h

/-- A call keeps the sessions that were started. -/
theorem grows : sm.Grows sm' := by
  cases h with
  | same => exact .of_eq rfl
  | updates hs hgame => exact grows_setState (getSession_eq_some.mp hs).2 hgame
  | starts => exact grows_start
  | settles | ends => exact .of_eq rfl
  | instant => exact grows_start.trans (.of_eq rfl)

/-- After a call a group has its session of before or a new one. -/
theorem get_cases (hr : sm'.sessions.get gid' = some r) :
    sm.sessions.get gid' = some r ∨ gid' = gid ∧ r = sm.objects.length ∧ r < sm'.objects.length := by
  cases h with
  | same | updates => exact .inl hr
  | starts =>
    rw [get_start] at hr
    split at hr
    · next hgid =>
      refine .inr ⟨hgid.symm, (Option.some.inj hr).symm, ?_⟩
      rw [← Option.some.inj hr, length_start]
      exact Nat.lt_succ_self _
    · exact .inl hr
  | settles | ends =>
    rw [get_end_] at hr
    split at hr
    · cases hr
    · exact .inl hr
  | instant =>
    rw [get_end_, get_start] at hr
    split at hr
    · cases hr
    · exact .inl hr

/-- A call takes no round from a group, the one it settles apart. -/
theorem keeps (hr : sm.sessions.get gid' = some r) (hround : sm.IsRound r) (hsettled : settled ≠ some r) :
    sm'.sessions.get gid' = some r := by
  cases h with
  | same | updates => exact hr
  | starts hfree =>
    rw [get_start, if_neg]
    · exact hr
    · rintro rfl
      exact not_isRound_of_free hfree hr hround
  | settles hs =>
    rw [get_end_, if_neg]
    · exact hr
    · rintro rfl
      exact hsettled ((getSession_eq_some.mp hs).1.symm.trans hr)
  | instant hfree =>
    rw [get_end_, get_start]
    have hgid : gid ≠ gid' := by
      rintro rfl
      exact not_isRound_of_free hfree hr hround
    rw [if_neg hgid, if_neg hgid]
    exact hr
  | ends hfree =>
    rw [get_end_, if_neg]
    · exact hr
    · rintro rfl
      exact not_isRound_of_free hfree hr hround

/-- A call leaves what it started with the group, or settles it. -/
theorem new_stored (hge : sm.objects.length ≤ r) (hlt : r < sm'.objects.length) (hsettled : settled ≠ some r) :
    sm'.Stored r := by
  cases h with
  | same => omega
  | updates | settles | ends => simp only [length_setState, length_end_] at hlt; omega
  | starts =>
    rw [length_start] at hlt
    obtain rfl : r = sm.objects.length := by omega
    exact ⟨gid, by simp⟩
  | instant =>
    rw [length_end_, length_start] at hlt
    exact absurd (congrArg some (by omega)) hsettled

/-- What a call settles is the session of the group or a new one, and its time is over. -/
theorem settled_cases (hr : settled = some r) :
    r < sm'.objects.length ∧ (∀ s, sm'.objects[r]? = some s → s.expiresAt ≤ now) ∧
      (r = sm.objects.length ∨ ∃ s, sm.getSession gid = some (r, s) ∧ s.game = g) := by
  cases h with
  | same | updates | starts | ends => cases hr
  | settles hs hgame hdue =>
    cases hr
    have hobj := (getSession_eq_some.mp hs).2
    refine ⟨(List.getElem?_eq_some_iff.mp hobj).1, fun s' hs' => ?_, .inr ⟨_, hs, hgame⟩⟩
    obtain rfl := mem_unique hobj hs'
    exact hdue
  | instant hfree hdue =>
    cases hr
    refine ⟨by simp, fun s' hs' => ?_, .inl rfl⟩
    simp only [end_, SessionManager.start, List.getElem?_concat_length, Option.some.injEq] at hs'
    subst hs'
    dsimp only
    omega

/-- What a call settles is with no group any more. -/
theorem settled_gone (hw : sm.WellFormed) (hr : settled = some r) : ¬ sm'.Stored r := by
  rintro ⟨gid', hstored⟩
  cases h with
  | same | updates | starts | ends => cases hr
  | settles hs =>
    cases hr
    rw [get_end_] at hstored
    split at hstored
    · cases hstored
    · next hgid => exact hgid (hw.inj (getSession_eq_some.mp hs).1 hstored)
  | instant =>
    cases hr
    rw [get_end_, get_start] at hstored
    split at hstored
    · cases hstored
    · exact Nat.lt_irrefl _ (hw.valid hstored)

/-- A call keeps the manager well-formed. -/
theorem wellFormed (hw : sm.WellFormed) : sm'.WellFormed where
  valid hr := by
    rcases h.get_cases hr with hold | ⟨-, -, hlt⟩
    · exact Nat.lt_of_lt_of_le (hw.valid hold) h.grows.length_le
    · exact hlt
  inj hr hr' := by
    rcases h.get_cases hr with hold | ⟨hgid, hnew, -⟩ <;> rcases h.get_cases hr' with hold' | ⟨hgid', hnew', -⟩
    · exact hw.inj hold hold'
    · exact absurd (hw.valid hold) (by omega)
    · exact absurd (hw.valid hold') (by omega)
    · rw [hgid, hgid']

end SessionMove

end Sessions

/-! ## The history -/

section History

variable {sm sm' : SessionManager} {actor : RoundActor} {time : Int} {response : Option GameResponse} {r : Nat}
  {history : List RoundEvent} {e : RoundEvent}

/-- The settlements of a step are those of its response. -/
theorem settlements_roundEvents (sm sm' : SessionManager) (actor : RoundActor) (time : Int)
    (response : Option GameResponse) (r : Nat) (history : List RoundEvent) :
    settlements r (roundEvents actor time sm sm' response ++ history) =
      (if settledBy response = some r then 1 else 0) + settlements r history := by
  have hended : ∀ l : List Nat, (l.map (RoundEvent.mk · actor time .ended)).countP (RoundEvent.Settles r) = 0 := by
    intro l
    simp [RoundEvent.Settles]
  have hstarted : ∀ l : List Nat,
      (l.map (RoundEvent.mk · actor time .started)).countP (RoundEvent.Settles r) = 0 := by
    intro l
    simp [RoundEvent.Settles]
  rw [settlements, roundEvents, countP_append, countP_append, countP_append, hended,
      hstarted]
  congr 1
  rcases response with _ | ⟨actions, event, _ | n⟩
  · rfl
  · rfl
  · by_cases hn : n = r <;> simp [settledBy, RoundEvent.Settles, hn]

/-- An event of a step is about a session that the manager gave up, that the response settles, or that was
started. -/
theorem mem_roundEvents (h : e ∈ roundEvents actor time sm sm' response) :
    e.actor = actor ∧ e.time = time ∧
      ((e.change = .ended ∧ ∃ gid, sm.sessions.get gid = some e.round ∧ sm'.sessions.get gid ≠ some e.round) ∨
        ((∃ actions, e.change = .settled actions) ∧ settledBy response = some e.round) ∨
        (e.change = .started ∧ sm.objects.length ≤ e.round ∧ e.round < sm'.objects.length)) := by
  rw [roundEvents, mem_append, mem_append] at h
  obtain (h | h) | h := h
  · obtain ⟨r, hr, rfl⟩ := List.mem_map.mp h
    obtain ⟨⟨gid, r'⟩, hentry, rfl⟩ := List.mem_map.mp hr
    obtain ⟨hentry, hgone⟩ := mem_filter.mp hentry
    exact ⟨rfl, rfl, .inl ⟨rfl, gid, Dict.get_eq_some.mpr hentry, of_decide_eq_true hgone⟩⟩
  · simp only [mem_toList, bind_eq_some_iff, map_eq_some_iff] at h
    obtain ⟨resp, hresp, n, hn, rfl⟩ := h
    refine ⟨rfl, rfl, .inr (.inl ⟨⟨_, rfl⟩, ?_⟩)⟩
    rw [hresp]
    exact hn
  · obtain ⟨r, hr, rfl⟩ := List.mem_map.mp h
    obtain ⟨hge, hlt⟩ := List.mem_range'_1.mp hr
    exact ⟨rfl, rfl, .inr (.inr ⟨rfl, hge, by dsimp only; omega⟩)⟩

end History

/-! ## The invariant -/

/-- The session that the loop has settled and whose group's session it ends next. -/
def LoopState.current : LoopState → Option (String × Nat)
  | .ending gid r _ _ => some (gid, r)
  | _ => none

/-- The sessions of the snapshot that the loop has not settled. -/
def LoopState.todo : LoopState → List (String × Nat)
  | .sleeping => []
  | .settling todo _ | .ending _ _ todo _ => todo

/-- The sessions of the snapshot. -/
def LoopState.taken : LoopState → List Nat
  | .sleeping => []
  | .settling _ taken | .ending _ _ _ taken => taken

/-- The loop has in hand what it has to end and what it has to settle. -/
theorem LoopState.held_eq (l : LoopState) : l.held = (l.current.toList ++ l.todo).map Prod.snd := by
  cases l <;> rfl

/-- A session that is to be settled yet: the manager has it, and the loop has not settled it. -/
def DirectorWorld.Open (w : DirectorWorld) (r : Nat) : Prop := w.sm.Stored r ∧ ∀ c ∈ w.loop.current, c.2 ≠ r

/-- The history has no settlement of a round that is to be settled yet, and one of every other. -/
structure LedgerInv (w : DirectorWorld) : Prop where
  known : ∀ e ∈ w.history, e.round < w.sm.objects.length
  owed : ∀ r, w.sm.IsRound r → w.Open r → settlements r w.history = 0
  paid : ∀ r, w.sm.IsRound r → ¬ w.Open r → settlements r w.history = 1
  due : ∀ e ∈ w.history, e.Settles e.round → ∀ s, w.sm.objects[e.round]? = some s → s.expiresAt ≤ e.time
  own : ∀ e ∈ w.history, ∀ took, e.actor = .loop took → w.sm.IsRound e.round →
    took = some e.round ∧ e.change ≠ .started

/-- The rounds that the loop has to settle are expired and still with their groups, and of what it took only
these are to be settled yet. -/
structure LoopInv (w : DirectorWorld) : Prop where
  bound : ∀ r ∈ w.loop.held ++ w.loop.taken, r < w.sm.objects.length
  keys : ((w.loop.current.toList ++ w.loop.todo).map Prod.fst).Nodup
  todo : ∀ e ∈ w.loop.todo, w.sm.IsRound e.2 →
    w.sm.sessions.get e.1 = some e.2 ∧ ∀ s, w.sm.objects[e.2]? = some s → s.isExpired w.clock = true
  current : ∀ c ∈ w.loop.current, w.sm.IsRound c.2 → ∀ gid, w.sm.sessions.get gid = some c.2 → gid = c.1
  taken : ∀ r ∈ w.loop.taken, w.sm.IsRound r → r ∈ w.loop.todo.map Prod.snd ∨ ¬ w.Open r

/-- The invariant of a calm run. -/
structure DirectorInv (w : DirectorWorld) : Prop where
  sessions : w.sm.WellFormed
  ledger : LedgerInv w
  loop : LoopInv w

variable {sm : SessionManager} {taken : List Nat}

section Step

variable {w : DirectorWorld} {sm' : SessionManager} {actor : RoundActor} {response : Option GameResponse}
  {loop : LoopState} {r : Nat}

/-- A session that was not started has no settlement. -/
theorem LedgerInv.settlements_new (h : LedgerInv w) (hr : w.sm.objects.length ≤ r) :
    settlements r w.history = 0 := by
  rw [settlements, countP_eq_zero]
  intro e he hsettles
  have := h.known e he
  simp only [RoundEvent.Settles, Bool.and_eq_true, decide_eq_true_eq] at hsettles
  omega

/-- A round of the next manager is a round of this one or new. -/
theorem SessionManager.Grows.isRound_cases (h : sm.Grows sm') (hr : sm'.IsRound r) :
    sm.IsRound r ∨ sm.objects.length ≤ r ∧ ¬ sm.IsRound r := by
  by_cases hlt : r < sm.objects.length
  · exact .inl ((h.isRound_iff hlt).mp hr)
  · exact .inr ⟨by omega, fun hround => hlt hround.lt⟩

/-- A step keeps the ledger when it settles what was to be settled and is due, and nothing else ceases to be
so. -/
theorem LedgerInv.change (h : LedgerInv w) (hw : w.sm.WellFormed) (hgrows : w.sm.Grows sm')
    (hopen : ∀ r, sm'.IsRound r → ((w.change actor sm' response loop).Open r ↔
      settledBy response ≠ some r ∧ (w.sm.IsRound r → w.Open r)))
    (hsettled : ∀ r, settledBy response = some r → r < sm'.objects.length ∧
      (∀ s, sm'.objects[r]? = some s → s.expiresAt ≤ w.clock) ∧ (w.sm.IsRound r → w.Open r))
    (hown : ∀ e ∈ roundEvents actor w.clock w.sm sm' response, ∀ took, actor = .loop took →
      sm'.IsRound e.round → took = some e.round ∧ e.change ≠ .started) :
    LedgerInv (w.change actor sm' response loop) where
  known e he := by
    rcases mem_append.mp he with he | he
    · obtain ⟨-, -, ⟨-, gid, hgid, -⟩ | ⟨-, hr⟩ | ⟨-, -, hlt⟩⟩ := mem_roundEvents he
      · exact Nat.lt_of_lt_of_le (hw.valid hgid) hgrows.length_le
      · exact (hsettled _ hr).1
      · exact hlt
    · exact Nat.lt_of_lt_of_le (h.known e he) hgrows.length_le
  owed r hround hr := by
    obtain ⟨hnot, hold⟩ := (hopen r hround).mp hr
    have hcount := settlements_roundEvents w.sm sm' actor w.clock response r w.history
    rw [if_neg hnot, Nat.zero_add] at hcount
    refine hcount.trans ?_
    rcases hgrows.isRound_cases hround with hold' | ⟨hnew, -⟩
    · exact h.owed r hold' (hold hold')
    · exact h.settlements_new hnew
  paid r hround hr := by
    have hcount := settlements_roundEvents w.sm sm' actor w.clock response r w.history
    refine hcount.trans ?_
    rcases hgrows.isRound_cases hround with hold | ⟨hnew, hnot⟩
    · by_cases hs : settledBy response = some r
      · rw [if_pos hs, h.owed r hold ((hsettled r hs).2.2 hold)]
      · rw [if_neg hs, h.paid r hold fun hr' => hr ((hopen r hround).mpr ⟨hs, fun _ => hr'⟩)]
    · have hs : settledBy response = some r := by
        by_contra hs
        exact hr ((hopen r hround).mpr ⟨hs, fun hold => absurd hold hnot⟩)
      rw [if_pos hs, h.settlements_new hnew]
  due e he hsettles s hs := by
    rcases mem_append.mp he with he | he
    · obtain ⟨-, htime, ⟨hchange, -⟩ | ⟨-, hr⟩ | ⟨hchange, -⟩⟩ := mem_roundEvents he
      · simp [RoundEvent.Settles, hchange] at hsettles
      · exact htime ▸ (hsettled _ hr).2.1 s hs
      · simp [RoundEvent.Settles, hchange] at hsettles
    · obtain ⟨s', hs', hexpires, -⟩ := hgrows.object hs (h.known e he)
      exact hexpires ▸ h.due e he hsettles s' hs'
  own e he took htook hround := by
    rcases mem_append.mp he with he | he
    · exact hown e he took ((mem_roundEvents he).1.symm.trans htook) hround
    · exact h.own e he took htook ((hgrows.isRound_iff (h.known e he)).mp hround)

/-- What the loop has in hand was started. -/
theorem LoopInv.held_lt (h : LoopInv w) (hr : r ∈ w.loop.held) : r < w.sm.objects.length :=
  h.bound r (mem_append_left _ hr)

/-- What the loop has to settle is in its hand. -/
theorem LoopState.mem_held_of_todo {l : LoopState} {e : String × Nat} (he : e ∈ l.todo) : e.2 ∈ l.held := by
  rw [l.held_eq]
  exact List.mem_map_of_mem (mem_append_right _ he)

/-- What the loop has settled and not ended is in its hand. -/
theorem LoopState.mem_held_of_current {l : LoopState} {c : String × Nat} (hc : c ∈ l.current) : c.2 ∈ l.held := by
  rw [l.held_eq]
  exact List.mem_map_of_mem (mem_append_left _ (mem_toList.mpr hc))

section Call

variable {g : Game} {gid : String} (h : DirectorInv w)
  (hmove : SessionMove w.clock g gid w.sm sm' (settledBy response))
  (hapart : ∀ p ∈ w.sm.getSession gid, p.2.game = g → p.1 ∉ w.loop.held)
include h hmove

/-- After a call, the manager has the rounds that it had and the new ones, less what the call settles. -/
theorem DirectorInv.stored_iff (hround : sm'.IsRound r) :
    sm'.Stored r ↔ settledBy response ≠ some r ∧ (w.sm.IsRound r → w.sm.Stored r) := by
  constructor
  · refine fun hstored => ⟨fun hs => hmove.settled_gone h.sessions hs hstored, fun hold => ?_⟩
    obtain ⟨gid', hr⟩ := hstored
    rcases hmove.get_cases hr with hr | ⟨-, hnew, -⟩
    · exact ⟨gid', hr⟩
    · exact absurd hold.lt (by omega)
  · rintro ⟨hs, hstored⟩
    rcases hmove.grows.isRound_cases hround with hold | ⟨hnew, -⟩
    · obtain ⟨gid', hr⟩ := hstored hold
      exact ⟨gid', hmove.keeps hr hold hs⟩
    · exact hmove.new_stored hnew hround.lt hs

/-- A call changes in the same way what is to be settled. -/
theorem DirectorInv.open_iff (hround : sm'.IsRound r) :
    (w.change .message sm' response w.loop).Open r ↔
      settledBy response ≠ some r ∧ (w.sm.IsRound r → w.Open r) := by
  have hstored := h.stored_iff hmove hround
  constructor
  · rintro ⟨hr, hcurrent⟩
    obtain ⟨hs, hold⟩ := hstored.mp hr
    exact ⟨hs, fun hround' => ⟨hold hround', hcurrent⟩⟩
  · rintro ⟨hs, hold⟩
    refine ⟨hstored.mpr ⟨hs, fun hround' => (hold hround').1⟩, fun c hc hcr => ?_⟩
    rcases hmove.grows.isRound_cases hround with hround' | ⟨hnew, -⟩
    · exact (hold hround').2 c hc hcr
    · have := h.loop.held_lt (mem_held_of_current hc)
      omega

include hapart

/-- A call settles nothing that the loop has in hand. -/
theorem DirectorInv.settled_not_held (hs : settledBy response = some r) : r ∉ w.loop.held := by
  obtain ⟨-, -, hnew | ⟨s, hsession, hgame⟩⟩ := hmove.settled_cases hs
  · intro hheld
    have := h.loop.held_lt hheld
    omega
  · exact hapart _ hsession hgame

/-- **Step lemma** of a call by a message. -/
theorem DirectorInv.call : DirectorInv (w.change .message sm' response w.loop) where
  sessions := hmove.wellFormed h.sessions
  ledger := by
    refine h.ledger.change h.sessions hmove.grows (fun r => h.open_iff hmove) (fun r hs => ?_)
      fun _ _ _ hactor => by cases hactor
    obtain ⟨hlt, hdue, hcases⟩ := hmove.settled_cases hs
    refine ⟨hlt, hdue, fun hround => ?_⟩
    rcases hcases with hnew | ⟨s, hsession, -⟩
    · exact absurd hround.lt (by omega)
    · refine ⟨⟨gid, (getSession_eq_some.mp hsession).1⟩, fun c hc hcr => ?_⟩
      exact h.settled_not_held hmove hapart hs (hcr ▸ mem_held_of_current hc)
  loop := {
    bound := fun r hr => Nat.lt_of_lt_of_le (h.loop.bound r hr) hmove.grows.length_le
    keys := h.loop.keys
    todo := fun e he hround => by
      have hheld := mem_held_of_todo he
      have hround' := (hmove.grows.isRound_iff (h.loop.held_lt hheld)).mp hround
      obtain ⟨hget, hexpired⟩ := h.loop.todo e he hround'
      refine ⟨hmove.keeps hget hround' fun hs => h.settled_not_held hmove hapart hs hheld, fun s' hs' => ?_⟩
      obtain ⟨s, hs, htime, -⟩ := hmove.grows.object hs' (h.loop.held_lt hheld)
      have := hexpired s hs
      rw [GameSession.isExpired] at this ⊢
      rw [← htime]
      exact this
    current := fun c hc hround gid' hr => by
      have hlt := h.loop.held_lt (mem_held_of_current hc)
      rcases hmove.get_cases hr with hr | ⟨-, hnew, -⟩
      · exact h.loop.current c hc ((hmove.grows.isRound_iff hlt).mp hround) gid' hr
      · omega
    taken := fun r hr hround => by
      have hlt := h.loop.bound r (mem_append_right _ hr)
      have hround' := (hmove.grows.isRound_iff hlt).mp hround
      refine (h.loop.taken r hr hround').imp_right fun hnot hopen => hnot ?_
      exact ((h.open_iff hmove hround).mp hopen).2 hround' }

end Call

/-! ## The steps of the loop -/

/-- The next manager has the same sessions started, and no session that this one has not. -/
structure SessionManager.Drops (sm sm' : SessionManager) : Prop where
  objects : sm'.objects = sm.objects
  get : ∀ {gid r}, sm'.sessions.get gid = some r → sm.sessions.get gid = some r

namespace SessionManager.Drops

theorem refl (sm : SessionManager) : sm.Drops sm := ⟨rfl, id⟩

theorem end_ (sm : SessionManager) (gid : String) : sm.Drops (sm.end_ gid) where
  objects := rfl
  get h := by
    rw [get_end_] at h
    split at h
    · cases h
    · exact h

theorem cleanup (sm : SessionManager) (now : Int) : sm.Drops (sm.cleanup now) where
  objects := rfl
  get h := (Dict.get_filter.mp h).1

variable (h : sm.Drops sm')
include h

theorem wellFormed (hw : sm.WellFormed) : sm'.WellFormed where
  valid hr := h.objects ▸ hw.valid (h.get hr)
  inj hr hr' := hw.inj (h.get hr) (h.get hr')

theorem isRound_iff : sm'.IsRound r ↔ sm.IsRound r := by rw [IsRound, IsRound, h.objects]

theorem stored (hr : sm'.Stored r) : sm.Stored r := hr.imp fun _ => h.get

end SessionManager.Drops

/-- **Step lemma** of the snapshot. -/
theorem DirectorInv.snapshot (h : DirectorInv w) (hloop : w.loop = .sleeping) :
    DirectorInv { w with
      loop := .settling (w.sm.expiredSessions w.clock) ((w.sm.expiredSessions w.clock).map Prod.snd) } := by
  have hopen : ∀ r, w.Open r ↔ w.sm.Stored r := fun r => by simp [Open, hloop, current]
  have hentry : ∀ e ∈ w.sm.expiredSessions w.clock, w.sm.sessions.get e.1 = some e.2 := fun e he =>
    Dict.get_eq_some.mpr (mem_filter.mp he).1
  refine ⟨h.sessions, ⟨h.ledger.known, ?_, ?_, h.ledger.due, h.ledger.own⟩, ?_⟩
  · exact fun r hround hr => h.ledger.owed r hround ((hopen r).mpr hr.1)
  · exact fun r hround hr => h.ledger.paid r hround fun hr' => hr ⟨(hopen r).mp hr', fun _ hc => by cases hc⟩
  · refine ⟨fun r hr => ?_, ?_, fun e he _ => ⟨hentry e he, fun s hs => ?_⟩, nofun, ?_⟩
    · obtain ⟨e, he, rfl⟩ : ∃ e ∈ w.sm.expiredSessions w.clock, e.2 = r := by
        rcases mem_append.mp hr with hr | hr <;> exact List.mem_map.mp hr
      exact h.sessions.valid (hentry e he)
    · exact w.sm.sessions.nodup.sublist (filter_sublist.map _)
    · have hexpired := (mem_filter.mp he).2
      rw [hs] at hexpired
      exact hexpired
    · exact fun r hr _ => .inl hr

/-- What the loop's call for a session does: when the session is a round, it is settled, and at most it is
taken from its group. -/
structure LoopSettles (sm : SessionManager) (r : Nat) (sm' : SessionManager) (settled : Option Nat) : Prop where
  drops : sm.Drops sm'
  get : ∀ {gid r'}, sm.sessions.get gid = some r' → r' ≠ r → sm'.sessions.get gid = some r'
  only : ∀ {r'}, settled = some r' → r' = r ∧ sm.IsRound r
  settles : sm.IsRound r → settled = some r

/-- A session that is no round is left alone. -/
theorem LoopSettles.nothing (h : ¬ sm.IsRound r) : LoopSettles sm r sm none :=
  ⟨.refl sm, fun hr _ => hr, nofun, fun hround => absurd hround h⟩

/-- **Spec lemma** of the loop's call for a session that it took. -/
theorem settleExpired_settles {env : GameEnv} {now : Int} {gid : String}
    (hround : sm.IsRound r → sm.sessions.get gid = some r ∧
      ∀ s, sm.objects[r]? = some s → s.isExpired now = true) :
    LoopSettles sm r (settleExpired env now gid r sm).2 (settledBy (settleExpired env now gid r sm).1) := by
  rcases hs : sm.objects[r]? with _ | ⟨gid', expiresAt, state⟩
  · have hcall : settleExpired env now gid r sm = (none, sm) := by simp [settleExpired, hs]
    rw [hcall]
    refine .nothing fun ⟨s, hs', _⟩ => ?_
    rw [hs] at hs'
    cases hs'
  · cases state with
    | bankerGuess bankerId =>
      have hcall : settleExpired env now gid r sm = (none, sm) := by simp [settleExpired, hs]
      rw [hcall]
      refine .nothing fun ⟨s, hs', hgame⟩ => ?_
      rw [hs] at hs'
      cases hs'
      exact hgame rfl
    | redpacket state =>
      have hr : sm.IsRound r := ⟨_, hs, nofun⟩
      obtain ⟨hget, hexpired⟩ := hround hr
      have hsession : sm.getSession (autoClose gid state).groupId = some (r, ⟨gid', expiresAt, .redpacket state⟩) :=
        getSession_eq_some.mpr ⟨hget, hs⟩
      -- the packet is expired and with its group, so the command of an administrator closes it
      have hhandle : RedPacket.handle env now (autoClose gid state) sm = RedPacket.finalizeExpired gid r state sm := by
        rw [RedPacket.handle, hsession]
        exact if_pos (.inl (hexpired _ hs))
      simp only [settleExpired, hs, hhandle, map_some, RedPacket.finalizeExpired, Prod.map, settledBy,
        bind_some, id]
      refine ⟨.end_ sm gid, fun {gid' r'} hr' hne => ?_, fun h => ⟨(Option.some.inj h).symm, hr⟩, fun _ => rfl⟩
      rw [get_end_, if_neg]
      · exact hr'
      · rintro rfl
        exact hne (mem_unique hr' hget)
    | treasure state =>
      have hr : sm.IsRound r := ⟨_, hs, nofun⟩
      obtain ⟨hsm, hsettles⟩ := Treasure.finalize_eq env gid r sm state false
      simp only [settleExpired, hs, map_some, Prod.map, settledBy, bind_some, id, hsm, hsettles]
      exact ⟨.refl sm, fun hr' _ => hr', fun h => ⟨(Option.some.inj h).symm, hr⟩, fun _ => rfl⟩

/-- In a step that starts nothing, the loop ends and settles only what it took. -/
theorem own_of_drops (hdrops : sm.Drops sm') {took : Option Nat} {time : Int}
    (hended : ∀ gid r, sm.sessions.get gid = some r → sm'.sessions.get gid ≠ some r → sm.IsRound r →
      took = some r) (hsettled : ∀ r, settledBy response = some r → took = some r) :
    ∀ e ∈ roundEvents (.loop took) time sm sm' response, ∀ took', RoundActor.loop took = .loop took' →
      sm'.IsRound e.round → took' = some e.round ∧ e.change ≠ .started := by
  rintro e he took' ⟨⟩ hround
  obtain ⟨-, -, ⟨hchange, gid, hgid, hgone⟩ | ⟨⟨actions, hchange⟩, hs⟩ | ⟨-, hge, hlt⟩⟩ := mem_roundEvents he
  · exact ⟨hended gid _ hgid hgone (hdrops.isRound_iff.mp hround), by rw [hchange]; nofun⟩
  · exact ⟨hsettled _ hs, by rw [hchange]; nofun⟩
  · rw [hdrops.objects] at hlt
    omega

/-- **Step lemma** of the loop's call for the next session of its snapshot. -/
theorem DirectorInv.settle {gid : String} {todo : List (String × Nat)} (h : DirectorInv w)
    (hloop : w.loop = .settling ((gid, r) :: todo) taken)
    (hcall : LoopSettles w.sm r sm' (settledBy response)) :
    DirectorInv (w.change (.loop (some r)) sm' response (.ending gid r todo taken)) := by
  obtain ⟨hbound, hkeys, htodo, -, htaken⟩ := h.loop
  simp only [hloop, LoopState.held, LoopState.taken, LoopState.current, LoopState.todo, toList_none,
    nil_append] at hbound hkeys htodo htaken
  have hhead := htodo (gid, r) mem_cons_self
  have hround_iff : ∀ {r'}, sm'.IsRound r' ↔ w.sm.IsRound r' := hcall.drops.isRound_iff
  have hold : ∀ r', w.Open r' ↔ w.sm.Stored r' := fun r' => by
    simp [Open, hloop, LoopState.current]
  have hopen : ∀ r', sm'.IsRound r' →
      ((w.change (.loop (some r)) sm' response (.ending gid r todo taken)).Open r' ↔
        settledBy response ≠ some r' ∧ (w.sm.IsRound r' → w.Open r')) := by
    intro r' hround
    constructor
    · rintro ⟨hstored, hcurrent⟩
      exact ⟨fun hs => hcurrent (gid, r) rfl (hcall.only hs).1.symm,
        fun _ => (hold r').mpr (hcall.drops.stored hstored)⟩
    · rintro ⟨hs, hopen⟩
      have hne : r' ≠ r := by
        rintro rfl
        exact hs (hcall.settles (hround_iff.mp hround))
      obtain ⟨gid', hr'⟩ := (hold r').mp (hopen (hround_iff.mp hround))
      refine ⟨⟨gid', hcall.get hr' hne⟩, ?_⟩
      rintro c ⟨⟩
      exact hne.symm
  refine ⟨hcall.drops.wellFormed h.sessions, ?_, ?_⟩
  · refine h.ledger.change h.sessions (.of_eq hcall.drops.objects) hopen (fun r' hs => ?_)
      (own_of_drops hcall.drops ?_ ?_)
    · obtain ⟨rfl, hround⟩ := hcall.only hs
      obtain ⟨hstored, hexpired⟩ := hhead hround
      refine ⟨(hround_iff.mpr hround).lt, fun s hs' => ?_, fun _ => (hold r').mpr ⟨gid, hstored⟩⟩
      exact Int.le_of_lt (of_decide_eq_true (hexpired s (hcall.drops.objects ▸ hs')))
    · intro gid' r' hr' hgone _
      by_contra hne
      exact hgone (hcall.get hr' fun h => hne (congrArg some h.symm))
    · exact fun r' hs => congrArg some (hcall.only hs).1.symm
  · refine ⟨?_, hkeys, fun e he hround => ?_, ?_, fun r' hr' hround => ?_⟩
    · exact fun r' hr' => Nat.lt_of_lt_of_eq (hbound r' hr') (congrArg List.length hcall.drops.objects.symm)
    · obtain ⟨hstored, hexpired⟩ := htodo e (mem_cons_of_mem _ he) (hround_iff.mp hround)
      refine ⟨hcall.get hstored fun hr => ?_, fun s hs => hexpired s (hcall.drops.objects ▸ hs)⟩
      -- another group of the snapshot has another round
      have hgid := h.sessions.inj hstored (hr ▸ (hhead (hr ▸ hround_iff.mp hround)).1)
      rw [map_cons, nodup_cons] at hkeys
      exact hkeys.1 (hgid ▸ List.mem_map_of_mem he)
    · rintro c ⟨⟩ hround gid' hr'
      exact h.sessions.inj (hcall.drops.get hr') (hhead (hround_iff.mp hround)).1
    · rcases htaken r' hr' (hround_iff.mp hround) with hmem | hnot
      · rcases mem_cons.mp hmem with rfl | hmem
        · exact .inr fun hr => hr.2 (gid, r') rfl rfl
        · exact .inl hmem
      · exact .inr fun hr => hnot (((hopen r' hround).mp hr).2 (hround_iff.mp hround))

/-- **Step lemma** of the loop's end of a group's session. -/
theorem DirectorInv.end_ {gid : String} {todo : List (String × Nat)} (h : DirectorInv w)
    (hloop : w.loop = .ending gid r todo taken) (hcalm : w.LoopCalm) :
    DirectorInv (w.change (.loop (some r)) (w.sm.end_ gid) none (.settling todo taken)) := by
  obtain ⟨hbound, hkeys, htodo, hcurrent, htaken⟩ := h.loop
  simp only [hloop, LoopState.held, LoopState.taken, LoopState.current, LoopState.todo, toList_some,
    singleton_append, map_cons, nodup_cons] at hbound hkeys htodo htaken
  have hdrops := Drops.end_ w.sm gid
  -- the group has at most the round that the loop settled
  have hgroup : ∀ r', w.sm.sessions.get gid = some r' → w.sm.IsRound r' → r' = r := by
    rintro r' hr' ⟨s, hs, hround⟩
    simp only [LoopCalm, hloop] at hcalm
    exact (hcalm (r', s) (getSession_eq_some.mpr ⟨hr', hs⟩)).resolve_right hround
  have hold : ∀ r', w.Open r' ↔ w.sm.Stored r' ∧ r' ≠ r := fun r' => by
    simp [Open, hloop, LoopState.current, eq_comm]
  have hopen : ∀ r', (w.sm.end_ gid).IsRound r' →
      ((w.change (.loop (some r)) (w.sm.end_ gid) none (.settling todo taken)).Open r' ↔
        settledBy none ≠ some r' ∧ (w.sm.IsRound r' → w.Open r')) := by
    intro r' hround
    have hround' := hdrops.isRound_iff.mp hround
    constructor
    · rintro ⟨⟨gid', hr'⟩, -⟩
      refine ⟨nofun, fun _ => (hold r').mpr ⟨⟨gid', hdrops.get hr'⟩, ?_⟩⟩
      rintro rfl
      obtain rfl := hcurrent (gid, r') (by rw [hloop]; rfl) hround' gid' (hdrops.get hr')
      simp [change] at hr'
    · rintro ⟨-, hopen⟩
      obtain ⟨⟨gid', hr'⟩, hne⟩ := (hold r').mp (hopen hround')
      refine ⟨⟨gid', ?_⟩, nofun⟩
      change (w.sm.end_ gid).sessions.get gid' = some r'
      rw [get_end_, if_neg]
      · exact hr'
      · rintro rfl
        exact hne (hgroup r' hr' hround')
  refine ⟨hdrops.wellFormed h.sessions, ?_, ?_⟩
  · refine h.ledger.change h.sessions (.of_eq rfl) hopen nofun (own_of_drops hdrops ?_ nofun)
    intro gid' r' hr' hgone hround
    rw [get_end_] at hgone
    split at hgone
    · next hgid =>
      subst hgid
      rw [hgroup r' hr' hround]
    · exact absurd hr' hgone
  · refine ⟨fun r' hr' => hbound r' (mem_cons_of_mem _ hr'), hkeys.2, fun e he hround => ?_, nofun,
      fun r' hr' hround => ?_⟩
    · obtain ⟨hstored, hexpired⟩ := htodo e he (hdrops.isRound_iff.mp hround)
      refine ⟨?_, hexpired⟩
      change (w.sm.end_ gid).sessions.get e.1 = some e.2
      rw [get_end_, if_neg]
      · exact hstored
      · rintro rfl
        exact hkeys.1 (List.mem_map_of_mem he)
    · refine (htaken r' hr' (hdrops.isRound_iff.mp hround)).imp_right fun hnot hr => hnot ?_
      exact ((hopen r' hround).mp hr).2 (hdrops.isRound_iff.mp hround)

/-- **Step lemma** of the loop's clean-up. -/
theorem DirectorInv.cleanup (h : DirectorInv w) (hloop : w.loop = .settling [] taken)
    (hcalm : w.LoopCalm) :
    DirectorInv (w.change (.loop none) (w.sm.cleanup w.clock) none .sleeping) := by
  have hdrops := Drops.cleanup w.sm w.clock
  -- no round is expired
  have hget : ∀ gid r', w.sm.sessions.get gid = some r' → w.sm.IsRound r' →
      (w.sm.cleanup w.clock).sessions.get gid = some r' := by
    rintro gid r' hr' ⟨s, hs, hround⟩
    refine Dict.get_filter.mpr ⟨hr', ?_⟩
    by_contra hexpired
    simp only [LoopCalm, hloop] at hcalm
    refine hround (hcalm (gid, r') (mem_filter.mpr ⟨Dict.get_eq_some.mp hr', ?_⟩) s hs)
    simpa using hexpired
  have hold : ∀ r', w.Open r' ↔ w.sm.Stored r' := fun r' => by
    simp [Open, hloop, current]
  refine ⟨hdrops.wellFormed h.sessions, ?_, ?_⟩
  · refine h.ledger.change h.sessions (.of_eq rfl) (fun r' hround => ?_) nofun (own_of_drops hdrops ?_ nofun)
    · have hround' := hdrops.isRound_iff.mp hround
      constructor
      · exact fun hr => ⟨nofun, fun _ => (hold r').mpr (hdrops.stored hr.1)⟩
      · rintro ⟨-, hopen⟩
        obtain ⟨gid, hr'⟩ := (hold r').mp (hopen hround')
        exact ⟨⟨gid, hget gid r' hr' hround'⟩, nofun⟩
    · exact fun gid r' hr' hgone hround => absurd (hget gid r' hr' hround) hgone
  · exact ⟨nofun, nodup_nil, nofun, nofun, nofun⟩

/-- **Step lemma** of the loop. -/
theorem DirectorInv.loopStep {env : GameEnv} (h : DirectorInv w) (hcalm : w.LoopCalm) :
    DirectorInv (w.loopStep env) := by
  unfold DirectorWorld.loopStep
  split
  · next hloop => exact h.snapshot hloop
  · next hloop => exact h.cleanup hloop hcalm
  · next gid r todo taken hloop =>
    refine h.settle hloop (settleExpired_settles fun hround => h.loop.todo (gid, r) ?_ hround)
    rw [hloop]
    exact mem_cons_self
  · next hloop => exact h.end_ hloop hcalm

/-- Time that goes on keeps the invariant: what is expired stays so. -/
theorem DirectorInv.wait (h : DirectorInv w) (time : Nat) :
    DirectorInv { w with clock := w.clock + time } where
  sessions := h.sessions
  ledger := ⟨h.ledger.known, h.ledger.owed, h.ledger.paid, h.ledger.due, h.ledger.own⟩
  loop := {
    bound := h.loop.bound
    keys := h.loop.keys
    todo := fun e he hround => by
      refine (h.loop.todo e he hround).imp_right fun hexpired s hs => ?_
      have := of_decide_eq_true (hexpired s hs)
      exact decide_eq_true (by dsimp only; omega)
    current := h.loop.current
    taken := h.loop.taken }

end Step

/-! ## Runs -/

/-- The invariant holds at the start. -/
theorem DirectorInv.initial (clock : Int) : DirectorInv (Director.initial clock).shared where
  sessions := ⟨nofun, nofun⟩
  ledger := ⟨nofun, fun _ hr => absurd hr.lt (Nat.not_lt_zero _), fun _ hr => absurd hr.lt (Nat.not_lt_zero _),
    nofun, nofun⟩
  loop := ⟨nofun, nodup_nil, nofun, nofun, nofun⟩

/-- A calm step keeps the invariant. -/
theorem DirectorInv.step {s : Director} {e : DirectorEvent} (h : DirectorInv s.shared) (hcalm : s.Calm e) :
    DirectorInv (s.step e).shared := by
  cases e with
  | wait time => exact h.wait time
  | message m => exact h
  | loop env => exact h.loopStep hcalm
  | route env thread =>
    refine Pool.stepAt_elim (P := fun p => DirectorInv p.shared) (fun _ => h) fun th hth => ?_
    cases th with
    | lookup | done => exact h
    | call m g active =>
      have hcall := hcalm _ hth
      have hnext := h.call hcall.handle_move hcall.apart
      dsimp only [RouteThread.step]
      split <;> exact hnext

/-- What the invariant says of the history. -/
theorem DirectorInv.settledOnce {w : DirectorWorld} (h : DirectorInv w) : SettledOnce w where
  once r hround := by
    by_cases hr : w.Open r
    · rw [h.ledger.owed r hround hr]
      exact Nat.zero_le 1
    · exact Nat.le_of_eq (h.ledger.paid r hround hr)
  gone r hround hr := h.ledger.paid r hround fun hopen => hr hopen.1
  passed taken hloop r hr hround := by
    refine h.ledger.paid r hround ((h.loop.taken r (by rwa [hloop]) hround).resolve_left ?_)
    rw [hloop]
    exact not_mem_nil
  due := h.ledger.due
  own := h.ledger.own

/-- A configuration of the games. -/
def sampleEnv : GameEnv where
  roundDurationSec := 60
  minPlayers := 2
  maxTokensPerUser := 3
  entryCostQuota := 1000
  grabWindowSec := 30
  bankerTimeoutSec := 300
  systemFee pool := pool / 20
  share pool rank := pool / (rank + 2)
  shuffle := id
  randint low _ := low
  redpacketTerms _ := (3, 9000)
  bankerEntry _ := true
  admits _ _ := true

/-- A bound user's message in a group. -/
def sampleSays (gid user : String) (napi : Int) (text : String) : DirectorEvent :=
  .message ⟨gid, user, napi, text, true, true⟩

/-- A user joins a treasure round and an administrator sends red packets; the loop settles both. -/
def calmEvents : List DirectorEvent :=
  [sampleSays "a" "u1" 1 "加入夺宝", .route sampleEnv 0, .route sampleEnv 0,
    sampleSays "b" "u2" 2 "发红包 3 9000", .route sampleEnv 1, .route sampleEnv 1, .wait 61] ++
    List.replicate 5 (.loop sampleEnv)

/-- The loop has taken its snapshot when a message asks for the expired round. -/
def askedEvents : List DirectorEvent :=
  [sampleSays "a" "u1" 1 "加入夺宝", .route sampleEnv 0, .route sampleEnv 0, .wait 61, .loop sampleEnv,
    sampleSays "a" "u2" 2 "夺宝", .route sampleEnv 1, .route sampleEnv 1, .loop sampleEnv]

end Prox
