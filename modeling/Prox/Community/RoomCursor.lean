import Mathlib.Data.String.Basic
import Mathlib.Order.Bounds.Basic
import Mathlib.Order.WithBot
import Prox.Lib.Run
import Prox.Lib.Table
import Prox.Lib.Threads
import Prox.Model.Errors

/-! # The cursor of a room

The embedding of `AdvanceCommunityBotRoomState` in `model/community_bot.go`, by which the scanners of all nodes
share how far a room has been read. A call is a thread, and each of its at most three statements is a step. The
main result says that the cursors of all rooms only go up, and up to what the calls ask for. -/

namespace Prox

open List

/-- A row of `community_bot_room_states`. -/
structure CommunityBotRoomState where
  id : Int
  roomId : String
  lastMessageId : String
  lastScannedAt : Int
  updatedAt : Int

instance : Row CommunityBotRoomState String := ⟨(·.id), (·.roomId)⟩

/-- The columns that the update assigns. -/
def CommunityBotRoomState.advance (lastMessageId : String) (now : Int) : Patch CommunityBotRoomState where
  apply s := { s with lastMessageId, lastScannedAt := now, updatedAt := now }
  id_apply _ := rfl
  key_apply _ := rfl

/-- The statement that a call issues next, or its result. -/
inductive AdvanceStage where
  | update
  | insert
  | again
  | done (advanced : Bool)
  deriving DecidableEq

/-- A call that has passed its checks. -/
structure AdvanceCall where
  roomId : String
  lastMessageId : String
  id_ne : lastMessageId ≠ ""
  now : Int
  stage : AdvanceStage

/-- `AdvanceCommunityBotRoomState` up to its first statement. -/
def advanceCommunityBotRoomState (roomId lastMessageId : String) (now : Int) : Except Err AdvanceCall :=
  if trimSpace roomId = "" then .error (.text "room id is empty")
  else if h : trimSpace lastMessageId = "" then .error (.text "last message id is empty")
  else .ok ⟨trimSpace roomId, trimSpace lastMessageId, h, now, .update⟩

namespace AdvanceCall

/-- The local function `advance`, with the rows it affects. -/
def advance (c : AdvanceCall) (t : Table CommunityBotRoomState) : Table CommunityBotRoomState × Nat :=
  t.updateWhere (fun s => s.roomId = c.roomId ∧ (s.lastMessageId = "" ∨ s.lastMessageId < c.lastMessageId))
    (CommunityBotRoomState.advance c.lastMessageId c.now)

/-- The insertion, with the rows it affects. -/
def create (c : AdvanceCall) (t : Table CommunityBotRoomState) : Table CommunityBotRoomState × Nat :=
  t.insertIgnore ⟨t.nextId, c.roomId, c.lastMessageId, c.now, c.now⟩

/-- The statement of a call at its stage. -/
def step (c : AdvanceCall) (t : Table CommunityBotRoomState) : AdvanceCall × Table CommunityBotRoomState :=
  match c.stage with
  | .update => ({ c with stage := if (c.advance t).2 > 0 then .done true else .insert }, (c.advance t).1)
  | .insert => ({ c with stage := if (c.create t).2 > 0 then .done true else .again }, (c.create t).1)
  | .again => ({ c with stage := .done ((c.advance t).2 > 0) }, (c.advance t).1)
  | .done _ => (c, t)

end AdvanceCall

/-- What can happen to the rooms. -/
inductive AdvanceEvent where
  | call (roomId lastMessageId : String) (now : Int)
  | step (i : Nat)

/-- The table and the calls. -/
abbrev AdvanceSystem := Pool (Table CommunityBotRoomState) AdvanceCall

/-- The system after an event. -/
def AdvanceSystem.step (s : AdvanceSystem) : AdvanceEvent → AdvanceSystem
  | .call roomId lastMessageId now =>
    match advanceCommunityBotRoomState roomId lastMessageId now with
    | .error _ => s
    | .ok c => s.spawn c
  | .step i => s.stepAt AdvanceCall.step i

/-! ## One statement -/

/-- The cursor of a room, which is below all texts when there is no row. -/
def cursorOf (t : Table CommunityBotRoomState) (room : String) : WithBot String :=
  match t.byKey room with
  | none => ⊥
  | some r => r.lastMessageId

variable {t t' : Table CommunityBotRoomState} {c : AdvanceCall} {room : String}

theorem cursorOf_of_byKey {r : CommunityBotRoomState} (h : t.byKey room = some r) :
    cursorOf t room = (r.lastMessageId : WithBot String) := by
  rw [cursorOf, h]

theorem cursorOf_of_none (h : t.byKey room = none) : cursorOf t room = ⊥ := by
  rw [cursorOf, h]

theorem cursorOf_congr (h : t'.byKey room = t.byKey room) : cursorOf t' room = cursorOf t room := by
  rw [cursorOf, h, cursorOf]

namespace AdvanceCall

/-- The cursor of the room becomes the message of the call, from below. -/
structure Moves (c : AdvanceCall) (t t' : Table CommunityBotRoomState) : Prop where
  below : cursorOf t c.roomId < c.lastMessageId
  cursor : cursorOf t' = Function.update (cursorOf t) c.roomId c.lastMessageId

theorem Moves.le (h : c.Moves t t') : cursorOf t ≤ cursorOf t' := by
  rw [h.cursor, le_update_iff]
  exact ⟨h.below.le, fun _ _ => le_rfl⟩

/-- The conditional update moves the cursor and hits a row, or it hits no row, and a cursor that is there is not
below the message. -/
theorem advance_cases (c : AdvanceCall) (t : Table CommunityBotRoomState) :
    (0 < (c.advance t).2 ∧ c.Moves t (c.advance t).1) ∨
      ((c.advance t).2 = 0 ∧ (c.advance t).1 = t ∧
        (cursorOf t c.roomId ≠ ⊥ → c.lastMessageId ≤ cursorOf t c.roomId)) := by
  -- the message is above the empty text, so the first alternative of the condition adds nothing
  have hbelow (x : String) : (x = "" ∨ x < c.lastMessageId) ↔ x < c.lastMessageId :=
    or_iff_right_of_imp fun hx => hx ▸ lt_of_le_of_ne
      (not_lt.mp fun h => not_lt_nil _ (String.lt_iff_toList_lt.mp h)) (Ne.symm c.id_ne)
  simp only [advance, hbelow]
  by_cases hlow : ∃ r ∈ t.rows, r.roomId = c.roomId ∧ r.lastMessageId < c.lastMessageId
  · left
    obtain ⟨r, hmem, hroom, hlt⟩ := hlow
    have hrow : t.byKey c.roomId = some r := Table.byKey_eq_some.mpr ⟨hmem, hroom⟩
    refine ⟨countP_pos_iff.mpr ⟨r, hmem, decide_eq_true ⟨hroom, hlt⟩⟩, ?_, funext fun room => ?_⟩
    · rw [cursorOf_of_byKey hrow]
      exact WithBot.coe_lt_coe.mpr hlt
    · by_cases hsame : room = c.roomId
      · rw [hsame, Function.update_self, cursorOf_of_byKey ((Table.byKey_updateWhere _).trans (by
          rw [hrow, Option.map_some, if_pos (decide_eq_true ⟨hroom, hlt⟩)]))]
        rfl
      · rw [Function.update_of_ne hsame]
        refine cursorOf_congr ((Table.byKey_updateWhere room).trans ?_)
        cases hother : t.byKey room with
        | none => rfl
        | some r' =>
          have hr' : r'.roomId = room := (Table.byKey_eq_some.mp hother).2
          rw [Option.map_some, if_neg (by simp [hr', hsame])]
  · right
    have hzero : t.rows.countP (fun s => s.roomId = c.roomId ∧ s.lastMessageId < c.lastMessageId) = 0 :=
      countP_eq_zero.mpr fun r hr hp => hlow ⟨r, hr, of_decide_eq_true hp⟩
    refine ⟨hzero, Table.updateWhere_of_rowsAffected_eq_zero hzero, fun hcursor => ?_⟩
    cases hrow : t.byKey c.roomId with
    | none => exact absurd (cursorOf_of_none hrow) hcursor
    | some r =>
      obtain ⟨hmem, hroom⟩ := Table.byKey_eq_some.mp hrow
      rw [cursorOf_of_byKey hrow]
      exact WithBot.coe_le_coe.mpr (not_lt.mp fun hlt => hlow ⟨r, hmem, hroom, hlt⟩)

/-- The insertion creates the cursor, or there is one. -/
theorem create_cases (c : AdvanceCall) (t : Table CommunityBotRoomState) :
    (0 < (c.create t).2 ∧ c.Moves t (c.create t).1) ∨
      ((c.create t).2 = 0 ∧ (c.create t).1 = t ∧ cursorOf t c.roomId ≠ ⊥) := by
  unfold create
  rcases Table.insertIgnore_cases t ⟨t.nextId, c.roomId, c.lastMessageId, c.now, c.now⟩ with
    ⟨hnone, heq⟩ | ⟨t', hcreate, heq⟩
  · obtain ⟨r, hr⟩ := (Table.create_eq_none rfl).mp hnone
    rw [heq, cursorOf_of_byKey (show t.byKey c.roomId = some r from hr)]
    exact .inr ⟨rfl, rfl, WithBot.coe_ne_bot⟩
  · rw [heq]
    refine .inl ⟨Nat.one_pos, ?_, funext fun room => ?_⟩
    · rw [cursorOf_of_none (show t.byKey c.roomId = none from Table.byKey_none_of_create hcreate)]
      exact WithBot.bot_lt_coe _
    · have hby := Table.byKey_of_create hcreate room
      by_cases hsame : room = c.roomId
      · rw [hsame, Function.update_self, cursorOf_of_byKey (hsame ▸ hby.trans (if_pos hsame.symm))]
      · rw [Function.update_of_ne hsame, cursorOf_congr (hby.trans (if_neg (Ne.symm hsame)))]

/-- What a call knows of the cursor of its room: from its second update on there is one, and at the end it is not
below the message. -/
def Knows (c : AdvanceCall) (t : Table CommunityBotRoomState) : Prop :=
  match c.stage with
  | .update | .insert => True
  | .again => cursorOf t c.roomId ≠ ⊥
  | .done _ => c.lastMessageId ≤ cursorOf t c.roomId

/-- What a call knows stays true. -/
theorem Knows.mono (h : c.Knows t) (hle : cursorOf t ≤ cursorOf t') : c.Knows t' := by
  unfold Knows at h ⊢
  cases hstage : c.stage with
  | update | insert => trivial
  | again =>
    simp only [hstage] at h
    exact ne_bot_of_le_ne_bot h (hle _)
  | done b =>
    simp only [hstage] at h
    exact h.trans (hle _)

/-- A statement moves the cursor and the call returns true, or it leaves the table alone and does not. -/
theorem step_cases (h : c.Knows t) :
    (c.Moves t (c.step t).2 ∧ (c.step t).1 = { c with stage := .done true } ∧ c.stage ≠ .done true) ∨
      ((c.step t).2 = t ∧ (c.step t).1.Knows t ∧
        ∃ stage, (c.step t).1 = { c with stage } ∧ (stage = .done true ↔ c.stage = .done true)) := by
  cases hstage : c.stage with
  | update =>
    simp only [step, hstage]
    rcases c.advance_cases t with ⟨hpos, hmoves⟩ | ⟨hzero, heq, -⟩
    · exact .inl ⟨hmoves, by simp [hpos], by simp⟩
    · exact .inr ⟨heq, by simp [Knows, hzero], .insert, by simp [hzero], by simp⟩
  | insert =>
    simp only [step, hstage]
    rcases c.create_cases t with ⟨hpos, hmoves⟩ | ⟨hzero, heq, hcursor⟩
    · exact .inl ⟨hmoves, by simp [hpos], by simp⟩
    · exact .inr ⟨heq, by simpa [Knows, hzero] using hcursor, .again, by simp [hzero], by simp⟩
  | again =>
    simp only [Knows, hstage] at h
    simp only [step, hstage]
    rcases c.advance_cases t with ⟨hpos, hmoves⟩ | ⟨hzero, heq, hle⟩
    · exact .inl ⟨hmoves, by simp [hpos], by simp⟩
    · exact .inr ⟨heq, hle h, .done false, by simp [hzero], by simp⟩
  | done b =>
    simp only [step, hstage]
    exact .inr ⟨trivial, h, .done b, by rw [← hstage], by simp⟩

end AdvanceCall

/-! ## Runs -/

namespace AdvanceSystem

open AdvanceCall

variable {s : AdvanceSystem} {i : Nat}

/-- What was asked for. -/
def requests (s : AdvanceSystem) : List (String × String) := s.threads.map fun c => (c.roomId, c.lastMessageId)

/-- The calls know what they know, and a cursor is the one at the start or the message of a call, not below the
one at the start. -/
structure Inv (t : Table CommunityBotRoomState) (s : AdvanceSystem) : Prop where
  knows : ∀ c ∈ s.threads, c.Knows s.shared
  initial : cursorOf t ≤ cursorOf s.shared
  source : ∀ room, cursorOf s.shared room = cursorOf t room ∨
    ∃ id, (room, id) ∈ s.requests ∧ cursorOf s.shared room = (id : WithBot String)

/-- A call asks for the same at every stage. -/
theorem requests_set (hc : s.threads[i]? = some c) (stage : AdvanceStage) (t : Table CommunityBotRoomState) :
    requests ⟨t, s.threads.set i { c with stage }⟩ = s.requests := by
  obtain ⟨hi, rfl⟩ := List.getElem?_eq_some_iff.mp hc
  unfold requests
  rw [map_set]
  exact ext_getElem (by simp) fun j _ _ => by simp [getElem_set]; rintro rfl; exact ⟨rfl, rfl⟩

/-- **Step lemma**: an event keeps the invariant and lowers no cursor. -/
theorem Inv.step (h : Inv t s) (e : AdvanceEvent) :
    Inv t (s.step e) ∧ cursorOf s.shared ≤ cursorOf (s.step e).shared := by
  cases e with
  | call roomId lastMessageId now =>
    unfold AdvanceSystem.step advanceCommunityBotRoomState
    dsimp only
    split
    · exact ⟨h, le_rfl⟩
    · next c hok =>
      have hstage : c.stage = .update := by
        split at hok
        · cases hok
        · split at hok <;> cases hok
          rfl
      refine ⟨⟨Pool.forall_spawn h.knows (by simp [Knows, hstage]), h.initial, fun room => ?_⟩, le_rfl⟩
      refine (h.source room).imp_right fun ⟨id, hid, hcursor⟩ => ⟨id, ?_, hcursor⟩
      rw [requests, Pool.threads_spawn, map_append]
      exact mem_append_left _ hid
  | step i =>
    cases hc : s.threads[i]? with
    | none =>
      rw [AdvanceSystem.step, Pool.stepAt_of_none hc]
      exact ⟨h, le_rfl⟩
    | some c =>
      rw [AdvanceSystem.step, Pool.stepAt_of_some hc]
      have hmem := mem_of_getElem? hc
      rcases step_cases (h.knows c hmem) with ⟨hmoves, hc', -⟩ | ⟨hsame, hknows, stage, hc', -⟩
      · rw [hc']
        have hle := hmoves.le
        have hcursor := congrFun hmoves.cursor
        refine ⟨⟨?_, h.initial.trans hle, fun room => ?_⟩, hle⟩
        · refine Pool.forall_mem_set (fun c hc => (h.knows c hc).mono hle) ?_
          show c.lastMessageId ≤ cursorOf (c.step s.shared).2 c.roomId
          rw [hcursor, Function.update_self]
        · rw [requests_set hc, hcursor]
          by_cases hroom : room = c.roomId
          · subst hroom
            exact .inr ⟨c.lastMessageId, mem_map_of_mem hmem, Function.update_self ..⟩
          · rw [Function.update_of_ne hroom]
            exact h.source room
      · rw [hsame]
        refine ⟨⟨Pool.forall_mem_set h.knows hknows, h.initial, ?_⟩, le_rfl⟩
        rw [hc', requests_set hc]
        exact h.source

theorem inv_run (h : Inv t s) (es : List AdvanceEvent) :
    Inv t (run step s es) ∧ cursorOf s.shared ≤ cursorOf (run step s es).shared := by
  induction es generalizing s with
  | nil => exact ⟨h, le_rfl⟩
  | cons e es ih =>
    obtain ⟨hstep, hle⟩ := h.step e
    exact ⟨(ih hstep).1, hle.trans (ih hstep).2⟩

end AdvanceSystem

open AdvanceSystem in
/-- In every run from any table, no cursor moves down. When all calls for a room have returned, its cursor is the
greatest of the cursor at the start and the messages of the calls, and it is in the one row of the room if there
was a call. A statement of a call changes or creates the cursor of its room exactly when the call returns true
with it. -/
theorem advanceCommunityBotRoomState_runs (t : Table CommunityBotRoomState) (es es' : List AdvanceEvent) :
    let s := run AdvanceSystem.step ⟨t, []⟩ es
    cursorOf s.shared ≤ cursorOf (run AdvanceSystem.step s es').shared ∧
    (∀ room, (∀ c ∈ s.threads, c.roomId = room → ∃ b, c.stage = .done b) →
      IsGreatest {x | x = cursorOf t room ∨ ∃ c ∈ s.threads, c.roomId = room ∧ x = (c.lastMessageId : String)}
        (cursorOf s.shared room) ∧
      ((∃ c ∈ s.threads, c.roomId = room) → ∃! r, r ∈ s.shared.rows ∧ r.roomId = room)) ∧
    ∀ i c, s.threads[i]? = some c →
      (cursorOf (s.step (.step i)).shared c.roomId ≠ cursorOf s.shared c.roomId ↔
        c.stage ≠ .done true ∧ ∃ c', (s.step (.step i)).threads[i]? = some c' ∧ c'.stage = .done true) := by
  intro s
  have hstart : Inv t ⟨t, []⟩ := ⟨by simp, le_rfl, fun _ => .inl rfl⟩
  have hinv : Inv t s := (inv_run hstart es).1
  refine ⟨(inv_run hinv es').2, fun room hdone => ?_, fun i c hc => ?_⟩
  · have hle : ∀ c ∈ s.threads, c.roomId = room → c.lastMessageId ≤ cursorOf s.shared room := by
      rintro c hc rfl
      obtain ⟨b, hb⟩ := hdone c hc rfl
      have hknows := hinv.knows c hc
      simpa only [AdvanceCall.Knows, hb] using hknows
    refine ⟨⟨?_, ?_⟩, ?_⟩
    · refine (hinv.source room).imp_right fun ⟨id, hid, hcursor⟩ => ?_
      obtain ⟨c, hc, heq⟩ := mem_map.mp hid
      cases heq
      exact ⟨c, hc, rfl, hcursor⟩
    · rintro x (rfl | ⟨c, hc, hroom, rfl⟩)
      · exact hinv.initial room
      · exact hle c hc hroom
    · rintro ⟨c, hc, hroom⟩
      cases hrow : s.shared.byKey room with
      | none =>
        have hbot := hle c hc hroom
        rw [cursorOf_of_none hrow] at hbot
        exact absurd hbot (WithBot.not_coe_le_bot _)
      | some r =>
        have hr := Table.byKey_eq_some.mp hrow
        exact ⟨r, hr, fun r' hr' => Table.eq_of_key_eq hr'.1 hr.1 (hr'.2.trans hr.2.symm)⟩
  · have hi := (List.getElem?_eq_some_iff.mp hc).1
    rw [AdvanceSystem.step, Pool.stepAt_of_some hc]
    dsimp only
    rw [List.getElem?_set_self hi]
    rcases AdvanceCall.step_cases (hinv.knows c (mem_of_getElem? hc)) with
      ⟨hmoves, hc', hstage⟩ | ⟨hsame, -, stage, hc', hstage⟩
    · refine iff_of_true ?_ ⟨hstage, _, rfl, by rw [hc']⟩
      rw [hmoves.cursor, Function.update_self]
      exact hmoves.below.ne'
    · rw [hsame, hc']
      simp [hstage]

/-- Two calls for a room without a row, of which the one with the lower message inserts it. -/
def firstMessages : List AdvanceEvent :=
  [.call "r" "b" 1, .call "r" "a" 2, .step 0, .step 1, .step 1, .step 0, .step 0]

theorem advanceCommunityBotRoomState_runs_first :
    let s := run AdvanceSystem.step ⟨.empty, []⟩ firstMessages
    cursorOf s.shared "r" = ("b" : String) ∧ ∃! r, r ∈ s.shared.rows ∧ r.roomId = "r" :=
  ⟨by decide +kernel, ((advanceCommunityBotRoomState_runs .empty firstMessages []).2.1 "r" (by decide +kernel)).2
    ⟨_, mem_cons_self, rfl⟩⟩

end Prox
