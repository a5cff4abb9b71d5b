import Prox.Game.Plugins

/-! # Shares of a red packet

A red packet divides its quota among the first users that ask, at random. Every draw leaves at least `1000`
for each packet that is still to come, so nobody gets less, and the last packet takes what is left. What
nobody took goes back to the owner when the round is closed, if the owner is known. -/

namespace Prox

open List

/-- The random numbers lie between their bounds. -/
def GameEnv.Random (env : GameEnv) : Prop :=
  ∀ low high, low ≤ high → low ≤ env.randint low high ∧ env.randint low high ≤ high

/-- What the packets that were taken leave. -/
structure RedPacketState.Shared (s : RedPacketState) : Prop where
  taken : (s.grabbed.length : Int) ≤ s.totPackets
  least : ∀ g ∈ s.grabbed, 1000 ≤ g.2
  once : (s.grabbed.map Prod.fst).Nodup
  sum : (s.grabbed.map Prod.snd).sum = s.disbursed
  reserve : 1000 * (s.totPackets - s.grabbed.length) ≤ s.totQuota - s.disbursed
  last : (s.grabbed.length : Int) = s.totPackets → s.disbursed = s.totQuota

namespace RedPacket

/-- A packet has at least `1000` and leaves as much for each of the others; the last one has all. -/
theorem grabQuota_bounds {env : GameEnv} (henv : env.Random) {remaining packets : Int} (hpackets : 1 ≤ packets)
    (hremaining : 1000 * packets ≤ remaining) :
    1000 ≤ grabQuota env remaining packets ∧
      1000 * (packets - 1) ≤ remaining - grabQuota env remaining packets ∧
      (packets = 1 → grabQuota env remaining packets = remaining) := by
  unfold grabQuota
  dsimp only
  split
  · omega
  · next hne =>
    -- the average is in the range of the draw
    have havg : 1000 ≤ remaining / packets := (Int.le_ediv_iff_mul_le (by omega)).mpr hremaining
    have hmul : remaining / packets * packets ≤ remaining := Int.ediv_mul_le _ (by omega)
    have hothers : 0 ≤ (packets - 1) * (remaining / packets - 1000) :=
      Int.mul_nonneg (by omega) (by omega)
    generalize remaining / packets = avg at havg hmul hothers ⊢
    have hfits : avg ≤ remaining - (packets - 1) * 1000 := by
      rw [Int.mul_comm] at hmul
      rw [Int.mul_sub, Int.sub_mul, Int.one_mul] at hothers
      omega
    obtain ⟨hlow, hhigh⟩ := henv (max 1000 (avg / 2))
      (max (min (remaining - (packets - 1) * 1000) (avg * 2)) (max 1000 (avg / 2))) (by omega)
    omega

/-- A call of the game. -/
structure Play where
  env : GameEnv
  now : Int
  message : Message

/-- A call in the group that does not close the round, with random numbers in their range. -/
structure Play.Asks (p : Play) (gid : String) (expiresAt : Int) : Prop where
  group : p.message.groupId = gid
  random : p.env.Random
  open_ : p.now ≤ expiresAt
  text : p.message.text ∉ ["__auto_close__", "__auto_expire__"]

/-- The responses to some calls and the sessions after them. -/
def playAll : List Play → SessionManager → List GameResponse × SessionManager
  | [], sm => ([], sm)
  | p :: ps, sm =>
    ((handle p.env p.now p.message sm).1 :: (playAll ps (handle p.env p.now p.message sm).2).1,
      (playAll ps (handle p.env p.now p.message sm).2).2)

/-- The packets that some responses give away. -/
def packets (rs : List GameResponse) : List (String × Int) :=
  rs.flatMap fun r => r.actions.map fun a => (a.targetExternalId, a.quotaAmount)

variable {sm : SessionManager} {gid gid' : String} {r : Nat} {expiresAt : Int} {state : RedPacketState}

/-- The session of a group after its game has changed the state. -/
theorem getSession_setState {s : GameSession} (hs : sm.getSession gid = some (r, s)) (st : SessionState) :
    (sm.setState r st).getSession gid = some (r, { s with state := st }) := by
  simp only [SessionManager.getSession, Option.bind_eq_some_iff, Option.map_eq_some_iff, Prod.mk.injEq] at hs
  obtain ⟨r', hr, s', hs', rfl, rfl⟩ := hs
  simp [SessionManager.getSession, SessionManager.setState, hr, hs']

/-- **One call** gives a packet to a user without one, as long as there are packets. -/
theorem handle_asks {p : Play}
    (hs : sm.getSession gid = some (r, ⟨gid', expiresAt, .redpacket state⟩)) (hp : p.Asks gid expiresAt)
    (h : state.Shared) :
    ∃ state', (handle p.env p.now p.message sm).2.getSession gid
        = some (r, ⟨gid', expiresAt, .redpacket state'⟩) ∧ state'.Shared ∧
      state' = { state with grabbed := state'.grabbed, disbursed := state'.disbursed } ∧
      state'.grabbed = state.grabbed ++ packets [(handle p.env p.now p.message sm).1] ∧
      (p.message.userId ∈ state'.grabbed.map Prod.fst ∨ state'.grabbed.length = state'.totPackets) := by
  have hopen : ¬ ((GameSession.mk gid' expiresAt (.redpacket state)).isExpired p.now = true ∨
      p.message.text ∈ ["__auto_close__", "__auto_expire__"]) := by
    rintro (hexpired | htext)
    · exact absurd (of_decide_eq_true hexpired) (Int.not_lt.mpr hp.open_)
    · exact hp.text htext
  simp only [handle, hp.group, hs, if_neg hopen, grab]
  have hsame : state = { state with grabbed := state.grabbed, disbursed := state.disbursed } := rfl
  have hlookup : (state.grabbed.lookup p.message.userId).isSome = true ↔
      p.message.userId ∈ state.grabbed.map Prod.fst := by
    simp [lookup_isSome_iff]
  by_cases hmem : p.message.userId ∈ state.grabbed.map Prod.fst
  · rw [if_pos (hlookup.mpr hmem)]
    exact ⟨state, hs, h, hsame, (append_nil _).symm, .inl hmem⟩
  · rw [if_neg (hmem ∘ hlookup.mp)]
    by_cases hall : (state.grabbed.length : Int) ≥ state.totPackets
    · rw [if_pos hall]
      exact ⟨state, hs, h, hsame, (append_nil _).symm, .inr (Int.le_antisymm h.taken hall)⟩
    have := h.reserve
    rw [if_neg hall, if_neg (by omega)]
    obtain ⟨hleast, hrest, hlast⟩ := grabQuota_bounds hp.random
      (show 1 ≤ state.totPackets - state.grabbed.length by omega) h.reserve
    generalize grabQuota p.env _ _ = q at hleast hrest hlast ⊢
    have hlength : ((state.grabbed ++ [(p.message.userId, q)]).length : Int) = state.grabbed.length + 1 := by simp
    refine ⟨_, getSession_setState hs _, ⟨?_, ?_, ?_, ?_, ?_, ?_⟩, rfl, rfl, .inl (by simp)⟩
    · rw [hlength]
      dsimp only
      omega
    · intro g hg
      rcases mem_append.mp hg with hg | hg
      · exact h.least g hg
      · rw [mem_singleton.mp hg]
        exact hleast
    · rw [map_append, nodup_append]
      refine ⟨h.once, nodup_singleton _, ?_⟩
      intro u hu u' hu' heq
      rw [heq, mem_singleton.mp hu'] at hu
      exact hmem hu
    · rw [map_append, sum_append, h.sum]
      simp
    · rw [hlength]
      dsimp only
      omega
    · rw [hlength]
      dsimp only
      omega

/-- **A run of calls** gives away what the state then holds, one packet to each user that has asked, until
there are no more. -/
theorem playAll_asks {ps : List Play}
    (hs : sm.getSession gid = some (r, ⟨gid', expiresAt, .redpacket state⟩))
    (hps : ∀ p ∈ ps, p.Asks gid expiresAt) (h : state.Shared) :
    ∃ state', (playAll ps sm).2.getSession gid = some (r, ⟨gid', expiresAt, .redpacket state'⟩) ∧
      state'.Shared ∧ state' = { state with grabbed := state'.grabbed, disbursed := state'.disbursed } ∧
      state'.grabbed = state.grabbed ++ packets (playAll ps sm).1 ∧
      ∀ p ∈ ps, p.message.userId ∈ state'.grabbed.map Prod.fst ∨ state'.grabbed.length = state'.totPackets := by
  induction ps generalizing sm state with
  | nil => exact ⟨state, hs, h, rfl, (append_nil _).symm, forall_mem_nil _⟩
  | cons p ps ih =>
    obtain ⟨state₁, hs₁, h₁, hsame₁, hgrabbed₁, hasked₁⟩ := handle_asks hs (hps p (mem_cons_self ..)) h
    obtain ⟨state₂, hs₂, h₂, hsame₂, hgrabbed₂, hasked₂⟩ := ih hs₁ (fun p' hp' => hps p' (mem_cons_of_mem _ hp')) h₁
    refine ⟨state₂, hs₂, h₂, by rw [hsame₂, hsame₁], ?_, forall_mem_cons.mpr ⟨?_, hasked₂⟩⟩
    · rw [hgrabbed₂, hgrabbed₁, append_assoc]
      simp [packets, playAll]
    · rcases hasked₁ with hmem | hall
      · rw [hgrabbed₂, map_append]
        exact .inl (mem_append_left _ hmem)
      · -- no packet is left to give, so none is given
        have htot : state₂.totPackets = state₁.totPackets := by rw [hsame₂]
        have := h₂.taken
        rw [hgrabbed₂, length_append] at this ⊢
        exact .inr (by omega)

/-- A call that closes the round of the group. -/
def Play.Closes (p : Play) (gid : String) (expiresAt : Int) : Prop :=
  p.message.groupId = gid ∧ (expiresAt < p.now ∨ p.message.text ∈ ["__auto_close__", "__auto_expire__"])

/-- A red packet of `3000` for two in the group `g`. -/
def samplePacket (ownerNewApiUserId : Int) : SessionManager :=
  SessionManager.start {} "g" 30 0 (.redpacket {
    totPackets := 2, totQuota := 3000, ownerUserId := "owner", ownerNewApiUserId })

/-- A call in the group `g` with the smallest draw. -/
def samplePlay (now : Int) (userId : String) : Play where
  env := {
    roundDurationSec := 600, minPlayers := 2, maxTokensPerUser := 5, entryCostQuota := 25000
    grabWindowSec := 30, bankerTimeoutSec := 300, systemFee := fun _ => 0, share := fun _ _ => 0
    shuffle := id, randint := fun low _ => low, redpacketTerms := fun _ => (5, 250000)
    bankerEntry := fun _ => false, admits := fun _ _ => true }
  now
  message := ⟨"g", userId, 7, "红包", false, true⟩

end RedPacket

end Prox
