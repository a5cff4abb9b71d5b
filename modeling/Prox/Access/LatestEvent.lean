import Prox.Access.Membership
import Prox.Access.Shown

/-! # The latest membership event

The state of a chat identity and its log of events. A delivery writes the state a second time, as a side
effect, without looking at the log: the state follows the latest event for as long as every delivery brings a
new event that is later than the logged ones, or that leads to the same state as the latest of them. -/

namespace Prox

open ChatMembershipState List Option

/-! ## The property -/

/-- The status, the time of leaving and the end of the grace period of a state. -/
def ChatMembershipState.outcome (state : ChatMembershipState) : MembershipOutcome :=
  ⟨state.status, state.leftAt, state.graceUntil⟩

/-- The outcome of a logged event. -/
def ChatMembershipEvent.outcome (cfg : MembershipRiskSetting) (event : ChatMembershipEvent) : MembershipOutcome :=
  membershipOutcome cfg event.eventType event.eventAt event.newAPIUserId

namespace MembershipDb

/-- The logged events of an identity. -/
def log (db : MembershipDb) (k : MembershipKey) : List ChatMembershipEvent := db.events.rows.filter (·.key = k)

/-- A logged event of an identity with the greatest time. -/
def Latest (db : MembershipDb) (k : MembershipKey) (e : ChatMembershipEvent) : Prop :=
  e ∈ db.log k ∧ ∀ e' ∈ db.log k, e'.eventAt ≤ e.eventAt
  deriving Decidable

/-- The count of leaves of an identity. -/
def leaveCount (db : MembershipDb) (k : MembershipKey) : Int := ((db.states.byKey k).map (·.leaveCount30d)).getD 0

/-- The state of an identity follows its log: it is the outcome of the latest event and counts the leaves. -/
structure FollowsLog (db : MembershipDb) (cfg : MembershipRiskSetting) (k : MembershipKey) : Prop where
  latest : ∀ e, db.Latest k e → ∃ row, db.states.byKey k = some row ∧ row.outcome = e.outcome cfg
  leaves : db.leaveCount k = (db.log k).countP (·.eventType.leaves)

end MembershipDb

/-- A delivery as a step. -/
def MembershipEnv.deliver (env : MembershipEnv) (db : MembershipDb) (d : MembershipDelivery) : MembershipDb :=
  (handleChatMembershipEvent env d db).2

namespace MembershipDelivery

/-- The delivery passes the checks with an input and a user. -/
def Accepted (env : MembershipEnv) (db : MembershipDb) (d : MembershipDelivery) (input : ChatMembershipEventInput)
    (userID : Int) : Prop :=
  d.input env db = .ok (input, userID) ∧ trimSpace input.eventID ≠ ""

/-- The delivery brings an event that is logged. -/
def Redelivered (env : MembershipEnv) (db : MembershipDb) (d : MembershipDelivery) : Prop :=
  ∃ input userID, d.Accepted env db input userID ∧ ∃ e ∈ db.events.rows, e.eventId = trimSpace input.eventID

/-- The delivery changes neither a membership state nor a token. -/
def Harmless (env : MembershipEnv) (db : MembershipDb) (d : MembershipDelivery) : Prop :=
  (env.deliver db d).states = db.states ∧ (env.deliver db d).keys.tokens = db.keys.tokens

/-- The condition: an accepted delivery brings a new event, and the latest event of the identity is earlier or
has the same outcome. -/
def InOrder (env : MembershipEnv) (db : MembershipDb) (d : MembershipDelivery) : Prop :=
  ∀ input userID, d.Accepted env db input userID →
    (∀ e ∈ db.events.rows, e.eventId ≠ trimSpace input.eventID) ∧
    ∀ e, db.Latest (input.key env.siteID) e → e.eventAt < input.eventAt ∨
      e.outcome env.cfg.get = membershipOutcome env.cfg.get input.eventType input.eventAt userID

end MembershipDelivery

/-! ## What a delivery writes -/

/-- An event that is logged for the first time: the log, the states of the others and its own state. -/
structure MembershipDb.Logs (db : MembershipDb) (cfg : MembershipRiskSetting) (event : ChatMembershipEvent)
    (db' : MembershipDb) : Prop where
  events : db'.events.rows = db.events.rows ++ [event]
  others : ∀ k ≠ event.key, db'.states.byKey k = db.states.byKey k
  row : ∃ row, db'.states.byKey event.key = some row ∧ row.outcome = event.outcome cfg ∧
    row.leaveCount30d = db.leaveCount event.key + (if event.eventType.leaves then 1 else 0)

section Columns

variable {cfg : MembershipRiskSetting} {input : ChatMembershipEventInput} {eventID : String} {userID now : Int}
  {state : ChatMembershipState}

@[simp] theorem ChatMembershipState.follow_outcome :
    (state.follow cfg input eventID userID now).outcome
      = membershipOutcome cfg input.eventType input.eventAt userID := by
  unfold follow outcome
  dsimp only
  split <;> rfl

@[simp] theorem ChatMembershipState.follow_leaveCount30d :
    (state.follow cfg input eventID userID now).leaveCount30d = state.leaveCount30d := by
  unfold follow
  dsimp only
  split <;> rfl

@[simp] theorem ChatMembershipState.logged_leaveCount30d :
    (state.logged cfg input userID now).leaveCount30d
      = state.leaveCount30d + (if input.eventType.leaves then 1 else 0) := by
  unfold logged
  split
  · exact congrArg (· + 1) follow_leaveCount30d
  · exact follow_leaveCount30d.trans (add_zero _).symm

@[simp] theorem ChatMembershipState.logged_outcome :
    (state.logged cfg input userID now).outcome = membershipOutcome cfg input.eventType input.eventAt userID := by
  have hfollow : (state.follow cfg input (trimSpace input.eventID) userID now).outcome
      = membershipOutcome cfg input.eventType input.eventAt userID := follow_outcome
  unfold logged
  split <;> exact hfollow

/-- The outcome for a user depends on whether there is one. -/
theorem membershipOutcome_congr {eventType : ChatMembershipEventType} {eventAt userID userID' : Int}
    (h : 0 < userID ↔ 0 < userID') :
    membershipOutcome cfg eventType eventAt userID = membershipOutcome cfg eventType eventAt userID' := by
  unfold membershipOutcome
  split
  · rfl
  · rw [if_congr h rfl rfl]

end Columns

section Records

variable {env : MembershipEnv} {d : MembershipDelivery} {db db' : MembershipDb} {input : ChatMembershipEventInput}
  {event : ChatMembershipEvent} {inserted : Bool} {userID now : Int}

/-- The user of a delivery and the user of its logged event are both known or both unknown. -/
theorem MembershipDelivery.input_user (h : d.input env db = .ok (input, userID)) :
    0 < effectiveUserID env.siteID input db.states ↔ 0 < userID := by
  obtain ⟨raw, -, h⟩ := bind_eq_ok.mp h
  have h := Except.ok.inj h
  unfold effectiveUserID
  dsimp only
  by_cases hraw : raw.newAPIUserID ≤ 0
  · by_cases huser : 0 < resolveMembershipUser d.lookups env.siteID raw db.states
    · rw [if_pos ⟨hraw, huser⟩] at h
      cases h
      rw [if_neg (by simpa using huser)]
    · rw [if_neg (fun hc => huser hc.2)] at h
      cases h
      refine iff_of_false ?_ huser
      rw [if_pos hraw]
      intro hpos
      -- a state that is linked to a user would have resolved it
      refine huser ?_
      unfold resolveMembershipUser
      simp only
      cases hlink : ((db.states.byKey (input.key env.siteID)).map (·.newAPIUserId)).filter (0 < ·) with
      | none =>
        rw [hlink, getD_none] at hpos
        omega
      | some link =>
        have hlink_pos : 0 < link := of_decide_eq_true (filter_eq_some_iff.mp hlink).2
        simp only [getD_some]
        split_ifs <;> omega
  · rw [if_neg (fun hc => hraw hc.1)] at h
    cases h
    rw [if_neg hraw]
    simp [resolveMembershipUser, hraw]

/-- The state of an identity after an upsert; the others are kept. -/
theorem byKey_upsertChatMembershipState (env : MembershipEnv) (now : Int) (input : ChatMembershipEventInput)
    (userID : Int) (states : Table ChatMembershipState) :
    (∃ row, (upsertChatMembershipState env now input userID states).byKey (input.key env.siteID) = some row ∧
      row.outcome = membershipOutcome env.cfg.get input.eventType input.eventAt userID ∧
      row.leaveCount30d = ((states.byKey (input.key env.siteID)).map (·.leaveCount30d)).getD 0
        + (if input.eventType.leaves then 1 else 0)) ∧
    ∀ k ≠ input.key env.siteID,
      (upsertChatMembershipState env now input userID states).byKey k = states.byKey k := by
  unfold upsertChatMembershipState
  dsimp only
  generalize hblank : ({ id := states.nextId, siteId := env.siteID, source := input.source, roomId := input.roomID
                         externalUserId := input.externalUserID, status := .active, updatedAt := now } :
    ChatMembershipState) = blank
  have hkeys := blank.logged_keys env.cfg.get input userID now
  have hkey : Row.key { blank.logged env.cfg.get input userID now with newAPIUserId := userID }
      = input.key env.siteID := hkeys.2.trans (by rw [← hblank]; rfl)
  have hid : Row.id { blank.logged env.cfg.get input userID now with newAPIUserId := userID }
      = states.nextId := hkeys.1.trans (by rw [← hblank]; rfl)
  cases hcreate : states.create { blank.logged env.cfg.get input userID now with newAPIUserId := userID } with
  | some states' =>
    -- the key was free: the state starts from a blank one
    have hfree := Table.byKey_none_of_create hcreate
    rw [hkey] at hfree
    refine ⟨⟨_, (Table.byKey_of_create hcreate _).trans (if_pos hkey), ?_, ?_⟩, fun k hk => ?_⟩
    · exact logged_outcome
    · rw [hfree]
      refine logged_leaveCount30d.trans ?_
      rw [← hblank]
      rfl
    · rw [Table.byKey_of_create hcreate, if_neg (hkey ▸ hk.symm)]
  | none =>
    obtain ⟨row, hrow⟩ := (Table.create_eq_none hid).mp hcreate
    rw [hkey] at hrow
    refine ⟨⟨row.logged env.cfg.get input userID now, ?_, ?_, ?_⟩, fun k hk => ?_⟩
    · rw [Table.byKey_updateWhere_key, if_pos rfl, hrow]
      rfl
    · exact logged_outcome
    · rw [hrow]
      exact logged_leaveCount30d
    · rw [Table.byKey_updateWhere_key, if_neg hk]

/-- A new event is logged, and the state is the one that it leads to. -/
theorem upsertChatMembershipEvent_new (env : MembershipEnv) (now : Int) (hblank : trimSpace input.eventID ≠ "")
    (hnew : ∀ e ∈ db.events.rows, e.eventId ≠ trimSpace input.eventID) :
    ∃ db', upsertChatMembershipEvent env now input db
        = (.ok (input.event env.siteID db.events.nextId (effectiveUserID env.siteID input db.states), true), db') ∧
      db.Logs env.cfg.get (input.event env.siteID db.events.nextId (effectiveUserID env.siteID input db.states))
        db' := by
  unfold upsertChatMembershipEvent
  rw [if_neg hblank]
  dsimp only
  have hfree : db.events.byKey (trimSpace input.eventID) = none := Table.byKey_eq_none.mpr hnew
  obtain ⟨events, hcreate⟩ := Table.exists_create
    (r := input.event env.siteID db.events.nextId (effectiveUserID env.siteID input db.states)) rfl hfree
  rw [Table.insertIgnore, hcreate]
  obtain ⟨hrow, hothers⟩ := byKey_upsertChatMembershipState env now input
    (effectiveUserID env.siteID input db.states) db.states
  exact ⟨_, rfl, Table.rows_of_create hcreate, hothers, hrow⟩

/-- The log after the side effects of an event, and the states of all identities. -/
theorem applyMembershipSideEffects_states (env : MembershipEnv) (user : Int → Except Err AccessUser) (now : Int)
    (input : ChatMembershipEventInput) (userID : Int) (db : MembershipDb) :
    (applyMembershipSideEffects env user now input userID db).events = db.events ∧
    (applyMembershipSideEffects env user now input userID db).states
      = (db.states.updateWhere (Row.key · = input.key env.siteID)
          (followPatch env.cfg.get input userID now)).1 := by
  unfold applyMembershipSideEffects
  dsimp only
  split_ifs <;> exact ⟨rfl, rfl⟩

/-- An evaluation changes neither the log nor the states. -/
theorem evaluateMember_states (env : MembershipEnv) (access : AccessEnv) (now userID : Int) (db : MembershipDb) :
    (evaluateMember env access now userID db).events = db.events ∧
      (evaluateMember env access now userID db).states = db.states := by
  unfold evaluateMember
  split <;> exact ⟨rfl, rfl⟩

/-- The side effects of an event that has just been logged confirm its state. -/
theorem MembershipDb.Logs.applyMembershipSideEffects (h : db.Logs env.cfg.get event db')
    (user : Int → Except Err AccessUser) (now : Int) (input : ChatMembershipEventInput) (hkey : event.key = input.key env.siteID)
    (htype : event.eventType = input.eventType) (hat : event.eventAt = input.eventAt)
    (huser : 0 < event.newAPIUserId ↔ 0 < userID) :
    db.Logs env.cfg.get event (applyMembershipSideEffects env user now input userID db') := by
  obtain ⟨hevents, hstates⟩ := applyMembershipSideEffects_states env user now input userID db'
  obtain ⟨row, hrow, -, hcount⟩ := h.row
  refine ⟨hevents ▸ h.events, fun k hk => ?_, row.follow env.cfg.get input input.eventID userID now, ?_, ?_, ?_⟩
  · rw [hstates, Table.byKey_updateWhere_key, if_neg (hkey ▸ hk)]
    exact h.others k hk
  · rw [hstates, Table.byKey_updateWhere_key, if_pos hkey, hrow]
    rfl
  · rw [follow_outcome, ChatMembershipEvent.outcome, htype, hat]
    exact membershipOutcome_congr huser.symm
  · rw [follow_leaveCount30d, hcount]

theorem MembershipDelivery.Accepted.logs (h : d.Accepted env db input userID)
    (hnew : ∀ e ∈ db.events.rows, e.eventId ≠ trimSpace input.eventID) :
    ∃ event, db.Logs env.cfg.get event (env.deliver db d) ∧ event.key = input.key env.siteID ∧
      event.eventAt = input.eventAt ∧
      event.outcome env.cfg.get = membershipOutcome env.cfg.get input.eventType input.eventAt userID := by
  obtain ⟨hinput, hblank⟩ := h
  obtain ⟨db', hupsert, hlogs⟩ := upsertChatMembershipEvent_new env (unixSeconds d.now) hblank hnew
  have huser := MembershipDelivery.input_user hinput
  have hlogs := hlogs.applyMembershipSideEffects d.access.user (unixSeconds d.now) input rfl rfl rfl huser
  refine ⟨input.event env.siteID db.events.nextId (effectiveUserID env.siteID input db.states), ?_, rfl, rfl,
    membershipOutcome_congr huser⟩
  unfold MembershipEnv.deliver handleChatMembershipEvent recordMembershipEvent
  rw [hinput]
  dsimp only
  rw [hupsert]
  obtain ⟨hevents, hstates⟩ := evaluateMember_states env d.access d.now userID
    (applyMembershipSideEffects env d.access.user (unixSeconds d.now) input userID db')
  exact ⟨hevents ▸ hlogs.events, hstates ▸ hlogs.others, hstates ▸ hlogs.row⟩

/-- A delivery that is not accepted changes nothing. -/
theorem deliver_of_not_accepted (h : ∀ input userID, ¬ d.Accepted env db input userID) :
    env.deliver db d = db := by
  unfold MembershipEnv.deliver handleChatMembershipEvent recordMembershipEvent
  cases hinput : d.input env db with
  | error err => rfl
  | ok r =>
    obtain ⟨input, userID⟩ := r
    have hblank : trimSpace input.eventID = "" := by
      by_contra hne
      exact h input userID ⟨hinput, hne⟩
    dsimp only
    unfold upsertChatMembershipEvent
    rw [if_pos hblank]

end Records

/-! ## Following the log -/

section Follows

variable {env : MembershipEnv} {cfg : MembershipRiskSetting} {db db' : MembershipDb} {event : ChatMembershipEvent}
  {d : MembershipDelivery} {k : MembershipKey}

namespace MembershipDb.Logs

/-- The log of an identity after an event is logged. -/
theorem log_eq (h : db.Logs cfg event db') (k : MembershipKey) :
    db'.log k = db.log k ++ if event.key = k then [event] else [] := by
  unfold log
  rw [h.events, filter_append, filter_cons]
  by_cases hk : event.key = k <;> simp

/-- The state of an identity follows its log after an event of another identity. -/
theorem follows_other (h : db.Logs cfg event db') (hk : k ≠ event.key) (hdb : db.FollowsLog cfg k) :
    db'.FollowsLog cfg k := by
  have hlog : db'.log k = db.log k := by rw [h.log_eq, if_neg hk.symm, append_nil]
  have hrow := h.others k hk
  refine ⟨fun e he => ?_, ?_⟩
  · rw [hrow]
    refine hdb.latest e ?_
    unfold Latest at he ⊢
    rwa [hlog] at he
  · have hleaves := hdb.leaves
    unfold leaveCount at hleaves ⊢
    rw [hrow, hlog]
    exact hleaves

/-- The state of an identity follows its log after an event of its own that is the latest, or that has the
outcome of the latest. -/
theorem follows_own (h : db.Logs cfg event db') (hdb : db.FollowsLog cfg event.key)
    (hlatest : ∀ e, db.Latest event.key e → e.eventAt < event.eventAt ∨ e.outcome cfg = event.outcome cfg) :
    db'.FollowsLog cfg event.key := by
  have hlog : db'.log event.key = db.log event.key ++ [event] := by rw [h.log_eq, if_pos rfl]
  obtain ⟨row, hrow, houtcome, hcount⟩ := h.row
  refine ⟨fun e he => ⟨row, hrow, houtcome.trans ?_⟩, ?_⟩
  · obtain ⟨hmem, hmax⟩ := he
    rw [hlog] at hmem hmax
    rcases mem_append.mp hmem with hmem | hmem
    · -- an older event is still the latest: it is not earlier than the new one
      have hold : db.Latest event.key e := ⟨hmem, fun e' he' => hmax e' (mem_append_left _ he')⟩
      have hle := hmax event (mem_append_right _ (mem_singleton_self event))
      rcases hlatest e hold with hlt | heq
      · omega
      · exact heq.symm
    · rw [mem_singleton.mp hmem]
  · unfold leaveCount
    rw [hrow, hlog, map_some, hcount, hdb.leaves]
    by_cases hleaves : event.eventType.leaves = true <;> simp

end MembershipDb.Logs

/-- A delivery in order keeps the states following their logs. -/
theorem followsLog_deliver (hdb : ∀ k, db.FollowsLog env.cfg.get k) (h : d.InOrder env db) (k : MembershipKey) :
    (env.deliver db d).FollowsLog env.cfg.get k := by
  by_cases hacc : ∃ input userID, d.Accepted env db input userID
  · obtain ⟨input, userID, hacc⟩ := hacc
    obtain ⟨hnew, hlatest⟩ := h input userID hacc
    obtain ⟨event, hlogs, hkey, hat, houtcome⟩ := hacc.logs hnew
    by_cases hk : k = event.key
    · subst hk
      refine hlogs.follows_own (hdb _) fun e he => ?_
      rw [hat, houtcome]
      exact hlatest e (hkey ▸ he)
    · exact hlogs.follows_other hk (hdb k)
  · rw [deliver_of_not_accepted fun input userID hac => hacc ⟨input, userID, hac⟩]
    exact hdb k

/-- A delivery in order is not a redelivery. -/
theorem MembershipDelivery.InOrder.not_redelivered (h : d.InOrder env db) : ¬ d.Redelivered env db := by
  rintro ⟨input, userID, hacc, e, he, hid⟩
  exact (h input userID hacc).1 e he hid

end Follows

instance (env : MembershipEnv) (db : MembershipDb) (d : MembershipDelivery) : Decidable (d.InOrder env db) :=
  decidable_of_iff (∀ r ∈ (d.input env db).toOption, trimSpace r.1.eventID ≠ "" →
      (∀ e ∈ db.events.rows, e.eventId ≠ trimSpace r.1.eventID) ∧
      ∀ e ∈ db.log (r.1.key env.siteID), db.Latest (r.1.key env.siteID) e → e.eventAt < r.1.eventAt ∨
        e.outcome env.cfg.get = membershipOutcome env.cfg.get r.1.eventType r.1.eventAt r.2) <| by
    constructor
    · rintro h input userID ⟨hinput, hblank⟩
      have hmem : (input, userID) ∈ (d.input env db).toOption := by
        rw [hinput]
        rfl
      obtain ⟨hnew, hlatest⟩ := h (input, userID) hmem hblank
      exact ⟨hnew, fun e he => hlatest e he.1 he⟩
    · rintro h ⟨input, userID⟩ hmem hblank
      obtain ⟨hnew, hlatest⟩ := h input userID ⟨eq_ok_of_toOption hmem, hblank⟩
      exact ⟨hnew, fun e _ he => hlatest e he⟩

/-- A site with membership risk on. -/
def sampleMembership : MembershipEnv where
  siteID := "prox"
  cfg :=
    { enabled := true
      dryRun := false
      graceHours := 24
      freezeCommunityTokensAfterGrace := true
      revokeCommunityAccessAfterGrace := true
      qqEventsEnabled := true
      tgEventsEnabled := true }

/-- A database without rows. -/
def emptyMembershipDb : MembershipDb := ⟨.empty, .empty, .empty, ⟨.empty, .empty⟩⟩

/-- A delivery of an event of one identity in one room. -/
def sampleDelivery (eventID eventType : String) (eventAt : Int) : MembershipDelivery where
  req := { eventID, source := "qq", roomID := "100200", externalUserID := "42", newAPIUserID := 7, eventType, eventAt }
  now := 1000 * nanosPerSecond
  lookups := {}
  access := sampleAccessEnv []

/-- The identity of the sample deliveries. -/
def sampleMembershipKey : MembershipKey := ("prox", "qq", "100200", "42")

/-- The states follow the logs of a database without rows. -/
theorem followsLog_empty (cfg : MembershipRiskSetting) (k : MembershipKey) : emptyMembershipDb.FollowsLog cfg k :=
  ⟨fun _ he => absurd he.1 not_mem_nil, rfl⟩

/-- A row that does not have the outcome of the latest event does not follow the log. -/
theorem not_followsLog_of_outcome {db : MembershipDb} {cfg : MembershipRiskSetting} {k : MembershipKey}
    {e : ChatMembershipEvent} (he : db.Latest k e)
    (hne : (db.states.byKey k).map (·.outcome) ≠ some (e.outcome cfg)) : ¬ db.FollowsLog cfg k := by
  intro h
  obtain ⟨row, hrow, houtcome⟩ := h.latest e he
  rw [hrow, map_some, houtcome] at hne
  exact hne rfl

end Prox
