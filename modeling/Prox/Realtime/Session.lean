import Mathlib.Algebra.BigOperators.Group.List.Basic
import Mathlib.Algebra.Order.Group.Unbundled.Abs
import Mathlib.Data.List.Dedup
import Prox.Realtime.Quota

/-! # Realtime sessions

The embedding of `OpenaiRealtimeHandler` in `relay/channel/openai/relay_realtime.go` and of
`WssHelper`. Two readers count the tokens of the messages that pass; a `response.done` ends a turn,
which is charged at once. The session ends when a connection closes or a charge is refused; what was
counted but not charged yet is flushed, and the summed usage is settled.

A session is a list of events, the messages in the order in which the readers handle them. The end of
the list is the end of the session, whatever caused it. The main result compares what a session takes
from the wallet with the price of its summed usage: the turns are paid twice. -/

namespace Prox

open List Option

/-! ## The meter -/

/-- The three usages of the handler: reported and not charged yet, counted locally and not charged
yet, and the sum of what was charged. -/
structure RealtimeMeter where
  usage : RealtimeUsage := {}
  localUsage : RealtimeUsage := {}
  sumUsage : RealtimeUsage := {}

/-- A message that passes, with the tokens counted on it and what its charge reads. -/
inductive RealtimeEvent where
  /-- A message of the client. -/
  | client (textToken audioToken : Int)
  /-- A message of the upstream inside a turn. -/
  | target (textToken audioToken : Int)
  /-- The end of a turn, with the usage the upstream reports. -/
  | done (usage : RealtimeUsage) (env : RealtimeEnv)
  /-- The end of a turn without a reported usage. -/
  | doneCounted (textToken audioToken : Int) (env : RealtimeEnv)

/-- A usage to be charged, and what the charge reads. -/
abbrev RealtimeTurn := RealtimeUsage × RealtimeEnv

namespace RealtimeMeter

/-- Counts a message, and yields the turn that it ends. -/
def receive (m : RealtimeMeter) : RealtimeEvent → RealtimeMeter × Option RealtimeTurn
  | .client textToken audioToken =>
    ({ m with localUsage := m.localUsage.add (.input textToken audioToken) }, none)
  | .target textToken audioToken =>
    ({ m with localUsage := m.localUsage.add (.output textToken audioToken) }, none)
  | .done usage env =>
    ({ m with usage := m.usage.add usage }, some (m.usage.add usage, env))
  | .doneCounted textToken audioToken env =>
    let localUsage := m.localUsage.add (.input textToken audioToken)
    ({ m with localUsage }, some (localUsage, env))

/-- The sum takes a usage in before it is charged. -/
def addSum (m : RealtimeMeter) (usage : RealtimeUsage) : RealtimeMeter :=
  { m with sumUsage := m.sumUsage.add usage }

/-- What is forgotten once a turn has been charged. -/
def clear (m : RealtimeMeter) : RealtimeEvent → RealtimeMeter
  | .done .. => { m with usage := {}, localUsage := {} }
  | .doneCounted .. => { m with localUsage := {} }
  | _ => m

/-- The turns of a list of messages, when no charge is refused. -/
def turns (m : RealtimeMeter) : List RealtimeEvent → List RealtimeTurn
  | [] => []
  | e :: events =>
    match m.receive e with
    | (m, none) => m.turns events
    | (m, some turn) => turn :: ((m.addSum turn.1).clear e).turns events

/-- The meter after a list of messages, when no charge is refused. -/
def after (m : RealtimeMeter) : List RealtimeEvent → RealtimeMeter
  | [] => m
  | e :: events =>
    match m.receive e with
    | (m, none) => m.after events
    | (m, some turn) => ((m.addSum turn.1).clear e).after events

/-- The turns of the final flush. -/
def flush (m : RealtimeMeter) (usageEnv localEnv : RealtimeEnv) : List RealtimeTurn :=
  (if m.usage.totalTokens ≠ 0 then [(m.usage, usageEnv)] else []) ++
    (if m.localUsage.totalTokens ≠ 0 then [(m.localUsage, localEnv)] else [])

end RealtimeMeter

/-! ## The handler -/

/-- A session: the meter and the billing of the request. `refused` says that a charge has returned an
error: the readers stop. -/
structure RealtimeSystem where
  meter : RealtimeMeter := {}
  billing : BillingSystem
  refused : Bool := false
  consumeLog : Option ConsumeLog := none

namespace RealtimeSystem

variable (sha256Hex : String → String) (info : RealtimeInfo)

/-- Charges a turn: the sum is taken first, whether or not the charge goes through. -/
def preConsumeUsage (turn : RealtimeTurn) (s : RealtimeSystem) : RealtimeSystem :=
  let r := preWssConsumeQuota sha256Hex turn.2 info turn.1 s.billing
  { s with meter := s.meter.addSum turn.1, billing := r.2
           refused := s.refused || (errorOf r.1).isSome }

/-- The session after a message. -/
def step (s : RealtimeSystem) (e : RealtimeEvent) : RealtimeSystem :=
  if s.refused then s else
  match s.meter.receive e with
  | (meter, none) => { s with meter }
  | (meter, some turn) =>
    let s := { s with meter }.preConsumeUsage sha256Hex info turn
    if s.refused then s else { s with meter := s.meter.clear e }

/-- The final flush. -/
def flush (usageEnv localEnv : RealtimeEnv) (s : RealtimeSystem) : RealtimeSystem :=
  (s.meter.flush usageEnv localEnv).foldl (fun s turn => s.preConsumeUsage sha256Hex info turn) s

/-- The settlement of a session that has been flushed. -/
def settle (env : RealtimeEnv) (s : RealtimeSystem) : RealtimeSystem :=
  let r := postWssConsumeQuota env info s.meter.sumUsage s.billing
  { s with billing := r.1, consumeLog := some r.2 }

/-- A whole session. -/
def serve (b : BillingSystem) (events : List RealtimeEvent)
    (usageEnv localEnv settleEnv : RealtimeEnv) : RealtimeSystem :=
  ((run (step sha256Hex info) { billing := b } events).flush sha256Hex info usageEnv localEnv).settle
    info settleEnv

end RealtimeSystem

/-! ## What the turns take -/

variable {relay : RelayInfo} {qs : List Int} {b b₀ : BillingSystem} {s : RealtimeSystem}
  {events : List RealtimeEvent}

section Charges

variable {sha256Hex : String → String} {info : RealtimeInfo}

/-- The wallet after charges of the quotas `qs`, starting from `w₀`: each distinct quota was taken
once, the journal has exactly their entries, and the reservations are as they were. -/
structure Charged (sha256Hex : String → String) (relay : RelayInfo) (w₀ w : Wallet) (qs : List Int) :
    Prop where
  reservations : w.reservations = w₀.reservations
  balance : w.quotaOf relay.userId = w₀.quotaOf relay.userId - qs.dedup.sum
  journal : ∀ q, q ≠ 0 → (q ∈ qs ↔ ∃ t,
    w.transactions.byKey (trimSpace (legacyMutationID sha256Hex relay q)) = some t ∧ t.deltaQuota = -q)

/-- A quota that was charged before, or nothing at all, leaves the wallet as it is. -/
theorem Charged.cons_same {w₀ w : Wallet} (h : Charged sha256Hex relay w₀ w qs) {q : Int}
    (hq : q = 0 ∨ q ∈ qs) : Charged sha256Hex relay w₀ w (q :: qs) := by
  refine ⟨h.reservations, ?_, fun p hp => ?_⟩
  · rw [h.balance]
    by_cases hmem : q ∈ qs
    · rw [dedup_cons_of_mem hmem]
    · obtain rfl : q = 0 := hq.resolve_right hmem
      rw [dedup_cons_of_notMem hmem, sum_cons, zero_add]
  · rw [← h.journal p hp, mem_cons, or_iff_right_iff_imp]
    rintro rfl
    exact hq.resolve_left hp

/-- **A charge that the ledger accepts takes its quota once.** A new quota is taken from the balance
and entered in the journal; a quota that was charged before is a replay and costs nothing. -/
theorem Charged.apply {w₀ w w' : Wallet} (h : Charged sha256Hex relay w₀ w qs) {q : Int}
    (hq : q ≠ 0) {applied : Bool}
    (hok : applyUserQuotaMutationTx w (legacyMutation sha256Hex relay q) = .ok (applied, w')) :
    Charged sha256Hex relay w₀ w' (q :: qs) := by
  have hcases := applyUserQuotaMutationTx_cases hok
  dsimp only [legacyMutation] at hcases
  rcases hcases with ⟨-, rfl, t, ht, -, hdelta⟩ | ⟨-, hres, t, hpost, -, hkey, huser, hdelta⟩
  · exact h.cons_same (.inr ((h.journal q hq).mpr ⟨t, ht, hdelta⟩))
  change Row.key t = _ at hkey
  have hfree : w.transactions.byKey (trimSpace (legacyMutationID sha256Hex relay q)) = none := by
    rw [← hkey]
    exact Table.byKey_none_of_create hpost.journal
  have hnew : q ∉ qs := by
    intro hmem
    obtain ⟨t', ht', -⟩ := (h.journal q hq).mp hmem
    exact absurd (ht'.symm.trans hfree) nofun
  refine ⟨hres.trans h.reservations, ?_, fun p hp => ?_⟩
  · rw [hpost.quotaOf, h.balance, dedup_cons_of_notMem hnew, sum_cons]
    omega
  · rw [Table.byKey_of_create hpost.journal, hkey, mem_cons, h.journal p hp]
    by_cases hsame : trimSpace (legacyMutationID sha256Hex relay q)
        = trimSpace (legacyMutationID sha256Hex relay p)
    · -- the entry under this key is the new one: it stands for `q` and for no other quota
      rw [if_pos hsame, ← hsame, hfree]
      constructor
      · rintro (rfl | ⟨t', ht', -⟩)
        · exact ⟨t, rfl, hdelta⟩
        · cases ht'
      · rintro ⟨t', ht', hdelta'⟩
        obtain rfl := Option.some.inj ht'
        left
        omega
    · rw [if_neg hsame, or_iff_right_iff_imp]
      rintro rfl
      exact absurd rfl hsame

/-- A session over the wallet whose charges have been `qs` since `b₀`: nothing but the tables has
changed. -/
structure ChargedSession (sha256Hex : String → String) (b₀ b : BillingSystem) (qs : List Int) :
    Prop where
  wallet : b₀.session.relayInfo.billingSource ≠ "subscription"
  session : b.session = b₀.session
  settling : b.settling = b₀.settling
  fundingBefore : b.fundingBefore = b₀.fundingBefore
  charged : Charged sha256Hex b₀.session.relayInfo b₀.db.wallet b.db.wallet qs

/-- A turn that is not refused is charged. -/
theorem ChargedSession.turn (h : ChargedSession sha256Hex b₀ b qs) (hprice : info.usePrice = false)
    {env : RealtimeEnv} {usage : RealtimeUsage}
    (hok : (preWssConsumeQuota sha256Hex env info usage b).1 = .ok ()) :
    ChargedSession sha256Hex b₀ (preWssConsumeQuota sha256Hex env info usage b).2
      (info.turnQuota env.ratios usage :: qs) := by
  unfold preWssConsumeQuota at hok ⊢
  rw [hprice] at hok ⊢
  simp only [Bool.false_eq_true, if_false] at hok ⊢
  generalize info.turnQuota env.ratios usage = q at hok ⊢
  split at hok
  · cases hok
  have hrelay : b.session.relayInfo = b₀.session.relayInfo := by rw [h.session]
  have hsource := h.wallet
  rw [hrelay] at hok ⊢
  simp only [postConsumeQuota, consumeFunding, if_neg hsource] at hok ⊢
  have hsession : { b.session with relayInfo := b₀.session.relayInfo } = b₀.session := by
    rw [h.session]
  by_cases hq : q = 0
  · simp only [hq, if_true, true_or]
    exact ⟨hsource, hsession, h.settling, h.fundingBefore, h.charged.cons_same (.inl rfl)⟩
  · simp only [hq, if_false, false_or] at hok ⊢
    unfold applyUserQuotaMutation at hok ⊢
    rcases transaction_cases env.fault
      (fun w => applyUserQuotaMutationTx w (legacyMutation sha256Hex b₀.session.relayInfo q))
      b.db.wallet with ⟨e, he⟩ | ⟨applied, w', hbody, he⟩
    · rw [he] at hok; cases hok
    · rw [he]
      have hcharged := h.charged.apply hq hbody
      cases applied with
      | false => exact ⟨hsource, hsession, h.settling, h.fundingBefore, hcharged⟩
      | true =>
        -- the token follows the wallet, which is not touched again
        refine ⟨hsource, hsession, h.settling, h.fundingBefore, ?_⟩
        simp only [consumeToken, Bool.true_eq_false, if_false]
        split <;> exact hcharged

/-! ## Runs -/

/-- The prices of turns. -/
def RealtimeInfo.quotas (info : RealtimeInfo) (turns : List RealtimeTurn) : List Int :=
  turns.map fun turn => info.turnQuota turn.2.ratios turn.1

/-- A turn in a session without refusals is charged. -/
theorem RealtimeSystem.preConsumeUsage_charged (h : ChargedSession sha256Hex b₀ s.billing qs)
    (hprice : info.usePrice = false) {turn : RealtimeTurn}
    (hrun : (s.preConsumeUsage sha256Hex info turn).refused = false) :
    ChargedSession sha256Hex b₀ (s.preConsumeUsage sha256Hex info turn).billing
      (info.turnQuota turn.2.ratios turn.1 :: qs) := by
  simp only [preConsumeUsage, Bool.or_eq_false_iff, isSome_eq_false_iff,
    isNone_iff_eq_none, errorOf_eq_none] at hrun
  obtain ⟨-, ⟨⟩, hok⟩ := hrun
  exact h.turn hprice hok

/-- A refusal is final: the readers have stopped. -/
theorem RealtimeSystem.step_refused (hs : s.refused = true) (e : RealtimeEvent) :
    step sha256Hex info s e = s := by
  simp [step, hs]

theorem RealtimeSystem.run_refused (hs : s.refused = true) (events : List RealtimeEvent) :
    run (step sha256Hex info) s events = s := by
  induction events with
  | nil => rfl
  | cons e events ih => rw [run_cons, step_refused hs, ih]

/-- A run without refusals starts without one. -/
theorem RealtimeSystem.not_refused_of_run
    (hrun : (run (step sha256Hex info) s events).refused = false) : s.refused = false := by
  by_contra hrefused
  rw [run_refused (Bool.eq_true_of_not_eq_false hrefused)] at hrun
  exact hrefused hrun

/-- A message without a refusal either only moves the meter, or it ends a turn that is charged. -/
theorem RealtimeSystem.step_cases {e : RealtimeEvent}
    (h : (step sha256Hex info s e).refused = false) :
    (∃ meter, s.meter.receive e = (meter, none) ∧ step sha256Hex info s e = { s with meter }) ∨
    ∃ meter turn, s.meter.receive e = (meter, some turn) ∧
      (preConsumeUsage sha256Hex info turn { s with meter }).refused = false ∧
      step sha256Hex info s e = { preConsumeUsage sha256Hex info turn { s with meter } with
        meter := (meter.addSum turn.1).clear e } := by
  have hs : s.refused = false := by
    by_contra hrefused
    rw [step_refused (Bool.eq_true_of_not_eq_false hrefused)] at h
    exact hrefused h
  unfold step at h ⊢
  rw [if_neg (by simp [hs])] at h ⊢
  rcases hreceive : s.meter.receive e with ⟨meter, _ | turn⟩
  · exact .inl ⟨meter, rfl, rfl⟩
  · right
    simp only [hreceive] at h ⊢
    by_cases hrefused : (preConsumeUsage sha256Hex info turn { s with meter }).refused = true
    · rw [if_pos hrefused] at h
      exact absurd (h.symm.trans hrefused) nofun
    · refine ⟨meter, turn, rfl, by simpa using hrefused, ?_⟩
      rw [if_neg hrefused]
      rfl

/-- **A run without refusals charges every turn it meters.** -/
theorem RealtimeSystem.run_charged (h : ChargedSession sha256Hex b₀ s.billing qs)
    (hprice : info.usePrice = false) (hrun : (run (step sha256Hex info) s events).refused = false) :
    ChargedSession sha256Hex b₀ (run (step sha256Hex info) s events).billing
        ((info.quotas (s.meter.turns events)).reverse ++ qs) ∧
      (run (step sha256Hex info) s events).meter = s.meter.after events := by
  induction events generalizing s qs with
  | nil => exact ⟨h, rfl⟩
  | cons e events ih =>
    rw [run_cons] at hrun ⊢
    rw [RealtimeMeter.turns, RealtimeMeter.after]
    rcases step_cases (not_refused_of_run hrun) with
      ⟨meter, hreceive, hstep⟩ | ⟨meter, turn, hreceive, hok, hstep⟩
    · rw [hstep] at hrun ⊢
      rw [hreceive]
      exact ih h hrun
    · rw [hstep] at hrun ⊢
      rw [hreceive]
      have hturn := preConsumeUsage_charged (s := { s with meter }) h hprice hok
      obtain ⟨hcharged, hmeter⟩ := ih
        (s := { preConsumeUsage sha256Hex info turn { s with meter } with
          meter := (meter.addSum turn.1).clear e }) hturn hrun
      refine ⟨?_, hmeter⟩
      simp only [RealtimeInfo.quotas, map_cons, reverse_cons, append_assoc,
        singleton_append] at hcharged ⊢
      exact hcharged

/-- A flush without refusals starts without one. -/
theorem RealtimeSystem.not_refused_of_flush {turns : List RealtimeTurn}
    (h : (turns.foldl (fun s turn => s.preConsumeUsage sha256Hex info turn) s).refused = false) :
    s.refused = false := by
  induction turns generalizing s with
  | nil => exact h
  | cons turn turns ih =>
    have hnext : (s.preConsumeUsage sha256Hex info turn).refused = false := ih h
    simp only [preConsumeUsage, Bool.or_eq_false_iff] at hnext
    exact hnext.1

/-- A flush without refusals charges what it flushes. -/
theorem RealtimeSystem.flush_charged (h : ChargedSession sha256Hex b₀ s.billing qs)
    (hprice : info.usePrice = false) {turns : List RealtimeTurn}
    (hrun : (turns.foldl (fun s turn => s.preConsumeUsage sha256Hex info turn) s).refused = false) :
    ChargedSession sha256Hex b₀
      (turns.foldl (fun s turn => s.preConsumeUsage sha256Hex info turn) s).billing
      ((info.quotas turns).reverse ++ qs) := by
  induction turns generalizing s qs with
  | nil => exact h
  | cons turn turns ih =>
    have hturn := preConsumeUsage_charged h hprice (not_refused_of_flush hrun)
    have hcharged := ih hturn hrun
    simp only [RealtimeInfo.quotas, map_cons, reverse_cons, append_assoc,
      singleton_append] at hcharged ⊢
    exact hcharged

/-! ## The sum -/

/-- The sum of the usages of turns. -/
def sumUsage (turns : List RealtimeTurn) : RealtimeUsage :=
  turns.foldl (fun sum turn => sum.add turn.1) {}

theorem RealtimeMeter.sumUsage_after (m : RealtimeMeter) (events : List RealtimeEvent) :
    (m.after events).sumUsage
      = (m.turns events).foldl (fun sum turn => sum.add turn.1) m.sumUsage := by
  induction events generalizing m with
  | nil => rfl
  | cons e events ih =>
    cases e with
    | client textToken audioToken => exact ih _
    | target textToken audioToken => exact ih _
    | done usage env => exact ih _
    | doneCounted textToken audioToken env => exact ih _

theorem RealtimeSystem.sumUsage_flush (s : RealtimeSystem) (turns : List RealtimeTurn) :
    (turns.foldl (fun s turn => s.preConsumeUsage sha256Hex info turn) s).meter.sumUsage
      = turns.foldl (fun sum turn => sum.add turn.1) s.meter.sumUsage := by
  induction turns generalizing s with
  | nil => rfl
  | cons turn turns ih => exact ih _

/-! ## The settlement -/

/-- A billing session over the wallet that a realtime request starts with: the request is new to the
reservations and to the journal. -/
inductive RealtimeOpened (sha256Hex : String → String) (b : BillingSystem) : Prop
  | intro (env : BillingEnv) (relay : RelayInfo) (quota : Int) (trusted : Bool) (db : BillingDB)
      (hquota : 0 ≤ quota)
      (htoken : relay.isPlayground = false → (db.tokens.byId relay.tokenId).isSome)
      (hfresh : ∀ k, normalizeUserQuotaRequest relay.requestId = .ok k →
        db.wallet.reservations.byKey k = none)
      (hopen : BillingSystem.openWallet env relay quota trusted db = .ok b)
      (hjournal : ∀ q, b.db.wallet.transactions.byKey
        (trimSpace (legacyMutationID sha256Hex b.session.relayInfo q)) = none)

/-- A session that was opened over the wallet charges the wallet. -/
theorem BillingSystem.openWallet_session {env : BillingEnv} {quota : Int} {trusted : Bool}
    {db : BillingDB} (h : BillingSystem.openWallet env relay quota trusted db = .ok b) :
    b.session.relayInfo.billingSource = "wallet" ∧
      ∃ w, b.session.funding = .wallet w ∧ w.userId = b.session.relayInfo.userId := by
  unfold BillingSystem.openWallet at h
  simp only [bind_eq_ok] at h
  obtain ⟨_, -, _, -, h⟩ := h
  cases h
  exact ⟨rfl, _, rfl, rfl⟩

/-- **The settlement takes its quota on top of the charges.** -/
theorem ChargedSession.settle (h : ChargedSession sha256Hex b₀ b qs) (hlive : b₀.Live)
    {w : WalletFunding} (hfunding : b₀.session.funding = .wallet w)
    (huser : w.userId = b₀.session.relayInfo.userId) {env : BillingEnv} {quota : Int}
    (hsettled : (settleBilling env quota b).session.settled = true) :
    (settleBilling env quota b).fundingDecrease = qs.dedup.sum + quota := by
  obtain ⟨hold, hstands, -⟩ := hlive.hold
  have hconsumed := hlive.consumed
  rw [hfunding] at hstands hconsumed
  have hconsumed : w.consumed = b₀.session.preConsumedQuota := hconsumed
  -- the charges have moved the balance, and left the hold as it was
  have hcharged : b.db.wallet.StandsAt w.requestId w.userId (b₀.fundingBefore - qs.dedup.sum) hold := by
    refine ⟨?_, fun k hk => ?_⟩
    · rw [huser, h.charged.balance, ← huser, hstands.balance]
      omega
    · unfold Wallet.holdOf
      rw [h.charged.reservations]
      exact hstands.row k hk
  have hactual : w.consumed + (quota - b₀.session.preConsumedQuota) = quota := by omega
  unfold settleBilling BillingSystem.settle at hsettled ⊢
  simp only [h.session, hlive.settled, hlive.fundingSettled, Bool.false_eq_true, if_false, hfunding,
    FundingSource.settle, hactual] at hsettled ⊢
  by_cases hneg : quota < 0
  · simp only [if_pos hneg, h.settling, hlive.settling, Bool.false_eq_true] at hsettled
  · simp only [if_neg hneg, BillingDB.onWallet] at hsettled ⊢
    cases hcall : (settleUserQuotaReservation env.fault w.requestId w.userId quota w.sourceType
        b.db.wallet).1 with
    | error e =>
      simp only [hcall, h.settling, hlive.settling, Bool.false_eq_true] at hsettled
    | ok u =>
      obtain ⟨hdone, -⟩ := hcharged.settle hcall
      have hbalance := hdone.balance
      simp only [BillingSystem.settleToken, BillingSystem.fundingDecrease]
      change b.fundingBefore - (settleUserQuotaReservation env.fault w.requestId w.userId quota
        w.sourceType b.db.wallet).2.quotaOf w.userId = _
      rw [h.fundingBefore, hbalance]
      show _ - (_ - quota) = _
      omega

/-! ## Paying twice -/

/-- The turns of a whole session, the final flush included. -/
def realtimeTurns (events : List RealtimeEvent) (usageEnv localEnv : RealtimeEnv) :
    List RealtimeTurn :=
  ({} : RealtimeMeter).turns events ++ (({} : RealtimeMeter).after events).flush usageEnv localEnv

/-- **What a session takes from the wallet.** When no call is refused, it takes every distinct quota
of a turn once, and the quota of the log on top. -/
theorem RealtimeSystem.serve_fundingDecrease (hopened : RealtimeOpened sha256Hex b)
    (hprice : info.usePrice = false) {usageEnv localEnv settleEnv : RealtimeEnv}
    (hrefused : (serve sha256Hex info b events usageEnv localEnv settleEnv).refused = false)
    (hsettled : (serve sha256Hex info b events usageEnv localEnv settleEnv).billing.session.settled
      = true) :
    (serve sha256Hex info b events usageEnv localEnv settleEnv).meter.sumUsage
        = sumUsage (realtimeTurns events usageEnv localEnv) ∧
      (serve sha256Hex info b events usageEnv localEnv settleEnv).billing.fundingDecrease
        = (info.quotas (realtimeTurns events usageEnv localEnv)).dedup.sum
          + info.settledQuota settleEnv.ratios (sumUsage (realtimeTurns events usageEnv localEnv)) := by
  obtain ⟨env, relay, quota, trusted, db, hquota, htoken, hfresh, hopen, hjournal⟩ := hopened
  obtain ⟨hsource, w, hfunding, huser⟩ := BillingSystem.openWallet_session hopen
  have hlive : b.Live := live_openWallet hquota htoken hfresh hopen
  have hstart : ChargedSession sha256Hex b b [] := by
    refine ⟨by rw [hsource]; decide, rfl, rfl, rfl, rfl, by simp, fun q _ => ?_⟩
    rw [hjournal q]
    simp
  -- the run, then the flush, then the settlement
  have hrun := run_charged (s := { billing := b }) hstart hprice (not_refused_of_flush hrefused)
  have hflush := flush_charged hrun.1 hprice hrefused
  have hsum : (serve sha256Hex info b events usageEnv localEnv settleEnv).meter.sumUsage
      = sumUsage (realtimeTurns events usageEnv localEnv) := by
    refine (sumUsage_flush _ _).trans ?_
    rw [hrun.2, RealtimeMeter.sumUsage_after, sumUsage, realtimeTurns, foldl_append]
  refine ⟨hsum, ?_⟩
  have hdebit := hflush.settle hlive hfunding huser hsettled
  have hperm : ((info.quotas ((({} : RealtimeMeter).after events).flush usageEnv localEnv)).reverse ++
      ((info.quotas (({} : RealtimeMeter).turns events)).reverse ++ [])).Perm
      (info.quotas (realtimeTurns events usageEnv localEnv)) := by
    rw [append_nil, ← reverse_append]
    refine (reverse_perm _).trans ?_
    rw [RealtimeInfo.quotas, RealtimeInfo.quotas, RealtimeInfo.quotas, realtimeTurns, map_append]
  refine hdebit.trans ?_
  rw [hrun.2, hperm.dedup.sum_eq]
  exact congrArg (fun u => _ + info.settledQuota settleEnv.ratios u) hsum

end Charges

/-- All ratios are one. -/
def RatioSettings.sample : RatioSettings where
  quotaPerUnit := 500000
  getCompletionRatio := fun _ => 1
  getAudioRatio := fun _ => 1
  getAudioCompletionRatio := fun _ => 1
  getModelRatio := fun _ => 1
  getGroupRatio := fun _ => 1
  getGroupGroupRatio := fun _ _ => none

/-- Calls at time 0 without faults. -/
def RealtimeEnv.sample : RealtimeEnv :=
  { BillingEnv.sample with userQuota := .ok 1000, ratios := .sample }

def RealtimeInfo.sample : RealtimeInfo where
  originModelName := "gpt-realtime"
  upstreamModelName := "gpt-realtime"
  usingGroup := "default"
  userGroup := "default"
  priceData := { modelRatio := 1, groupRatio := 1 }

/-- A trusted session of the sample request: nothing is pre-consumed. -/
def BillingSystem.trustedSample : BillingSystem :=
  (openWallet .sample .sample 100 true .sample).toOption.get (by decide)

theorem BillingSystem.trustedSample_opened : RealtimeOpened id BillingSystem.trustedSample :=
  .intro .sample .sample 100 true .sample (by decide) (fun _ => rfl) (fun _ _ => rfl)
    (eq_ok_of_toOption (some_get _).symm) (fun _ => rfl)

/-- A session with one turn of so many input tokens. -/
def sampleTurn (tokens : Int) : List RealtimeEvent :=
  [.done { totalTokens := tokens, inputTokens := tokens, inputText := tokens } .sample]

end Prox
