import Prox.Agent.Actions
import Prox.Reward.Conservation

/-! # Top-ups of the fund

The branch `fund.topup` of `executeAgentAction`. It reads the balance of the operations fund, writes the
new balance and enters it in the ledger, in three statements without a transaction, while every other
writer of the fund holds a lock. `TopUpThread` refines the executor: the step that only returned some
outcome becomes one step a statement. The books agree as long as nothing comes between the read and the
write, no action is applied again while it is in the ledger, and no entry is refused after its write. -/

namespace Prox

open List

/-! ## Payloads -/

/-- `normalizeAgentString`. -/
def normalizeAgentString (value : String) : String :=
  let value := trimSpace value
  if value = "" ∨ value = "<nil>" ∨ value.toList.map foldChar = ['n', 'i', 'l'] then "" else value

/-- What a payload value says as a text; a blank text, a flag, a list or an object says nothing. -/
def AgentValue.payloadText : AgentValue → Option String
  | .text s => if normalizeAgentString s = "" then none else some (normalizeAgentString s)
  | .number x => some (toString (x.num.tdiv x.den))
  | .bool _ => none
  | .other _ => none

/-- `agentPayloadString`: the first of the keys that says something. -/
def agentPayloadString (payload : AgentPayload) (keys : List String) : String :=
  (keys.findSome? fun key => (payload.get key).bind AgentValue.payloadText).getD ""

/-- What a payload value says as a number. -/
def AgentValue.payloadNumber (parseFloat : String → Rat) : AgentValue → Option Rat
  | .text s => some (parseFloat (trimSpace s))
  | .number x => some x
  | .bool _ => none
  | .other _ => none

/-- `agentPayloadFloat`: the first of the keys that is a number or a text. -/
def agentPayloadFloat (parseFloat : String → Rat) (payload : AgentPayload) (keys : List String) : Rat :=
  (keys.findSome? fun key => (payload.get key).bind (AgentValue.payloadNumber parseFloat)).getD 0

/-! ## A call -/

/-- What a top-up uses of the libraries, and the format of a quota. -/
structure TopUpEnv extends AgentEnv where
  unmarshal : String → AgentPayload
  parseFloat : String → Rat
  agentQuotaUSDText : Int → String

/-- A top-up that has read the account. -/
structure FundTopUp where
  siteId : String
  accountId : Int
  balanceQuota : Int
  delta : Int
  remark : String

/-- The balance a top-up writes. -/
def FundTopUp.newBalance (t : FundTopUp) : Int := t.balanceQuota + t.delta

/-- A call of the executor, or one in the branch `fund.topup`. -/
inductive TopUpThread where
  | agent (t : AgentThread)
  /-- It has read the account and writes the balance. -/
  | write (e : AgentExecution) (action : AgentAction) (topUp : FundTopUp)
  /-- It has written the balance and enters it in the ledger. -/
  | insert (e : AgentExecution) (action : AgentAction) (topUp : FundTopUp)

/-- The executor, the reward tables and, as a ghost, the actions whose balance was written, the newest
first. -/
structure TopUpWorld where
  agent : AgentWorld
  reward : RewardDB
  applied : List AgentAction

/-- The first part of the branch: the checks and the read of the account. -/
def readFundTopUp (env : TopUpEnv) (fault : Option Err) (siteId payloadJson : String) (b : Budget) :
    Except Err FundTopUp := do
  let payload := env.unmarshal payloadJson
  failIf (agentPayloadString payload ["chatops_source"] ≠ "admin")
    (.text "fund.topup requires admin source")
  let amount := agentPayloadFloat env.parseFloat payload ["delta", "delta_quota", "quota_amount"]
  let delta := amount.num.tdiv amount.den
  failIf (delta = 0) (.text "delta must be non-zero")
  let remark := agentPayloadString payload ["remark", "reason"]
  match fault with
  | some err => throw err
  | none =>
    let some acc := b.funds.byKey (siteId, "operations")
      | throw (.sentinel .recordNotFound)
    failIf (acc.balanceQuota + delta < 0) (.text "resulting balance would be negative")
    return { siteId, accountId := acc.id, balanceQuota := acc.balanceQuota, delta, remark }

/-- The entry of a top-up. -/
def FundTopUp.ledger (t : FundTopUp) (id : Int) (action : AgentAction) : OpsFundLedger :=
  { id
    siteId := t.siteId
    fundAccountId := t.accountId
    deltaQuota := t.delta
    balanceAfter := t.newBalance
    sourceType := if t.delta < 0 then "fund_adjustment" else "fund_topup"
    idempotencyKey := action.idempotencyKey
    remark := trimSpace t.remark }

/-- What the branch returns when it goes through. -/
def FundTopUp.result (env : TopUpEnv) (t : FundTopUp) : AgentPayload :=
  ((Dict.empty.set "ok" (.bool true)).set "summary"
    (.text (concat ["基金调整 ", env.agentQuotaUSDText t.delta, "，新余额 ",
      env.agentQuotaUSDText t.newBalance]))).set "balance_quota" (.number t.newBalance)

/-- A step of the executor, which does not touch the fund. -/
def TopUpWorld.agentStep (env : TopUpEnv) (fault : Option Err) (outcome : AgentOutcome) (w : TopUpWorld)
    (t : AgentThread) : TopUpThread × TopUpWorld :=
  (.agent (t.step env.toAgentEnv fault outcome w.agent).1,
    { w with agent := (t.step env.toAgentEnv fault outcome w.agent).2 })

/-- The next step of a call. `outcome` is what `executeAgentAction` returns for another action. -/
def TopUpThread.step (env : TopUpEnv) (fault : Option Err) (outcome : AgentOutcome) (t : TopUpThread)
    (w : TopUpWorld) : TopUpThread × TopUpWorld :=
  match t with
  | .agent (.executing e action) =>
    if action.actionType = "fund.topup" then
      match readFundTopUp env fault e.siteId action.payloadJson w.reward.budget with
      | .error err => w.agentStep env none (.error err) (.executing e action)
      | .ok topUp => (.write e action topUp, w)
    else w.agentStep env fault outcome (.executing e action)
  | .agent t => w.agentStep env fault outcome t
  | .write e action topUp =>
    match fault with
    | some err => w.agentStep env none (.error err) (.executing e action)
    | none =>
      (.insert e action topUp,
        { w with
          reward := { w.reward with
            budget := w.reward.budget.setFund topUp.accountId topUp.newBalance }
          applied := action :: w.applied })
  | .insert e action topUp =>
    match fault with
    | some err => w.agentStep env none (.error err) (.executing e action)
    | none =>
      let b := w.reward.budget
      match b.ledger.create (topUp.ledger b.ledger.nextId action) with
      | none => w.agentStep env none (.error (.sentinel .duplicatedKey)) (.executing e action)
      | some ledger =>
        { w with reward := { w.reward with budget := { b with ledger } } }.agentStep env none
          (.ok (topUp.result env)) (.executing e action)

/-! ## Interleavings -/

/-- Any number of calls beside the operations on rewards. -/
abbrev TopUpSystem := Pool TopUpWorld TopUpThread

/-- A step of the system: time goes on, a call of the executor begins or makes its next step, or an
operation on rewards runs. -/
inductive TopUpEvent where
  | wait (nanos : Nat)
  | call (c : AgentCall)
  | step (thread : Nat) (fault : Option Err) (outcome : AgentOutcome)
  | reward (e : RewardEvent)

/-- A step of the system. -/
def TopUpSystem.step (env : TopUpEnv) (s : TopUpSystem) : TopUpEvent → TopUpSystem
  | .wait nanos =>
    { s with shared := { s.shared with
        agent := { s.shared.agent with clock := s.shared.agent.clock + nanos } } }
  | .call c => s.spawn (.agent (c.start env.toAgentEnv s.shared.agent.clock))
  | .step thread fault outcome => s.stepAt (TopUpThread.step env fault outcome) thread
  | .reward e => { s with shared := { s.shared with reward := s.shared.reward.step e } }

/-- The system before any call. -/
def TopUpSystem.initial (agent : AgentWorld) (reward : RewardDB) : TopUpSystem :=
  ⟨⟨agent, reward, []⟩, []⟩

/-! ## What a step does -/

namespace TopUpThread

/-- The call has moved the balance and has not entered it yet. -/
def InFlight : TopUpThread → Prop
  | .insert .. => True
  | _ => False

/-- The call has moved the balance for the action with this key and has not entered it yet. -/
def Holds (key : String) : TopUpThread → Prop
  | .insert _ action _ => action.idempotencyKey = key
  | _ => False

/-- What the call has moved in a fund and not entered yet. -/
def pending (id : Int) : TopUpThread → Int
  | .insert _ _ topUp => if topUp.accountId = id then topUp.delta else 0
  | _ => 0

/-- A write finds the balance it has read, and the key of its action neither in the ledger nor in the
hands of another call; an entry is not refused. -/
def Unraced (fault : Option Err) (b : Budget) (threads : List TopUpThread) : TopUpThread → Prop
  | .write _ action topUp => fault = none →
    (b.funds.byId topUp.accountId).map OpsFundAccount.balanceQuota = some topUp.balanceQuota ∧
      b.ledger.byKey action.idempotencyKey = none ∧
      ∀ t ∈ threads, ¬ t.Holds action.idempotencyKey
  | .insert _ action _ => fault = none ∧ b.ledger.byKey action.idempotencyKey = none
  | .agent _ => True

instance (t : TopUpThread) : Decidable t.InFlight :=
  match t with
  | .insert .. => inferInstanceAs (Decidable True)
  | .write .. => inferInstanceAs (Decidable False)
  | .agent _ => inferInstanceAs (Decidable False)

instance (key : String) (t : TopUpThread) : Decidable (t.Holds key) :=
  match t with
  | .insert _ action _ => inferInstanceAs (Decidable (action.idempotencyKey = key))
  | .write .. => inferInstanceAs (Decidable False)
  | .agent _ => inferInstanceAs (Decidable False)

instance (fault : Option Err) (b : Budget) (threads : List TopUpThread) (t : TopUpThread) :
    Decidable (t.Unraced fault b threads) :=
  match t with
  | .write .. => inferInstanceAs (Decidable (_ → _ ∧ _ ∧ _))
  | .insert .. => inferInstanceAs (Decidable (_ ∧ _))
  | .agent _ => inferInstanceAs (Decidable True)

theorem pending_of_not_inFlight {t : TopUpThread} (h : ¬ t.InFlight) (id : Int) : t.pending id = 0 := by
  cases t with
  | insert => exact absurd trivial h
  | agent => rfl
  | write => rfl

variable {env : TopUpEnv} {fault : Option Err} {outcome : AgentOutcome} {w : TopUpWorld}

/-- Most steps leave the fund alone. The others are the write of a balance, its entry in the ledger, and
an entry that is refused. -/
inductive Did (fault : Option Err) (w : TopUpWorld) : TopUpThread → TopUpThread × TopUpWorld → Prop
  | elsewhere {t t' : TopUpThread} {agent : AgentWorld} (ht : ¬ t.InFlight) (ht' : ¬ t'.InFlight) :
    Did fault w t (t', { w with agent })
  | wrote {e : AgentExecution} {action : AgentAction} {topUp : FundTopUp} (hfault : fault = none) :
    Did fault w (.write e action topUp) (.insert e action topUp,
      { w with
        reward := { w.reward with
          budget := w.reward.budget.setFund topUp.accountId topUp.newBalance }
        applied := action :: w.applied })
  | entered {e : AgentExecution} {action : AgentAction} {topUp : FundTopUp} {t' : TopUpThread}
    {agent : AgentWorld} {ledger : Table OpsFundLedger} (ht' : ¬ t'.InFlight)
    (hcreate : w.reward.budget.ledger.create
      (topUp.ledger w.reward.budget.ledger.nextId action) = some ledger) :
    Did fault w (.insert e action topUp)
      (t', ⟨agent, { w.reward with budget := { w.reward.budget with ledger } }, w.applied⟩)
  | refused {e : AgentExecution} {action : AgentAction} {topUp : FundTopUp}
    {r : TopUpThread × TopUpWorld}
    (hrefused : fault ≠ none ∨ w.reward.budget.ledger.create
      (topUp.ledger w.reward.budget.ledger.nextId action) = none) :
    Did fault w (.insert e action topUp) r

/-- **What a step of a call does.** -/
theorem step_did (t : TopUpThread) : Did fault w t (t.step env fault outcome w) := by
  cases t with
  | agent t =>
    -- an executor step, or the read of the account
    have hagent : ∀ (fault' : Option Err) (outcome : AgentOutcome) (t' : AgentThread),
        Did fault w (.agent t) (w.agentStep env fault' outcome t') := fun _ _ _ =>
      .elsewhere id id
    unfold step
    split
    · split
      · split
        · exact hagent _ _ _
        · exact @Did.elsewhere _ _ _ _ w.agent id id
      · exact hagent _ _ _
    · next heq =>
      cases heq
      exact hagent _ _ _
    · next heq => cases heq
    · next heq => cases heq
  | write e action topUp =>
    cases fault with
    | some err => exact .elsewhere id id
    | none => exact .wrote rfl
  | insert e action topUp =>
    simp only [step]
    cases hfault : fault with
    | some err => exact .refused (.inl nofun)
    | none =>
      dsimp only
      split
      · next hcreate => exact .refused (.inr hcreate)
      · next ledger hcreate => exact .entered id hcreate

end TopUpThread

/-! ## The books of a fund -/

/-- An operation on rewards books what it moves, if the ledger can take its entry. -/
theorem RewardMove.fund {A : Allowance} {db db' : RewardDB} (h : RewardMove A True db db') (id : Int) :
    db'.budget.fundBalance id - db.budget.fundBalance id
      = db'.budget.fundDeltas id - db.budget.fundDeltas id := by
  cases h with
  | prepared hmove => exact hmove.books.fund id
  | paid hpay =>
    obtain ⟨b, hfund, hfunds, hledger⟩ := hpay.fund
    have hbooks := (hfund.books hpay.user_pos).2.2.2 trivial id
    simp only [Budget.fundBalance, Budget.fundDeltas, hfunds, hledger] at *
    exact hbooks

/-- The ledger keeps its entries. -/
theorem RewardMove.ledger_byKey {A : Allowance} {booked : Prop} {db db' : RewardDB}
    (h : RewardMove A booked db db') {k : String} {l : OpsFundLedger}
    (hl : db.budget.ledger.byKey k = some l) : db'.budget.ledger.byKey k = some l := by
  cases h with
  | prepared hmove =>
    cases hmove with
    | poolOpened => exact hl
    | fundOpened => exact hl
    | adjusted => exact hl
    | raised ha hcreate => exact Table.byKey_create_of_some hcreate hl
  | paid hpay =>
    obtain ⟨b, hfund, -, hledger⟩ := hpay.fund
    rw [hledger]
    cases hfund with
    | untouched => exact hl
    | entered ha hcovered hcreate => exact Table.byKey_create_of_some hcreate hl
    | skipped => exact hl

theorem RewardDB.step_fund {db : RewardDB} {e : RewardEvent} (h : e.op.FundKeyFree e.env db.budget)
    (id : Int) : (db.step e).budget.fundBalance id - db.budget.fundBalance id
      = (db.step e).budget.fundDeltas id - db.budget.fundDeltas id := by
  have hbooked : True → e.op.FundKeyFree e.env db.budget := fun _ => h
  refine RewardDB.step_keeps (I := fun db' => db'.budget.fundBalance id - db.budget.fundBalance id
      = db'.budget.fundDeltas id - db.budget.fundDeltas id) hbooked (fun _ _ hI hmove => ?_) ?_
  · have := hmove.fund id
    omega
  · omega

theorem RewardDB.step_ledger_byKey {db : RewardDB} (e : RewardEvent) {k : String} {l : OpsFundLedger}
    (hl : db.budget.ledger.byKey k = some l) : (db.step e).budget.ledger.byKey k = some l :=
  have hbooked : False → e.op.FundKeyFree e.env db.budget := False.elim
  RewardDB.step_keeps (I := fun db => db.budget.ledger.byKey k = some l) hbooked
    (fun _ _ h hmove => hmove.ledger_byKey h) hl

/-! ## Runs -/

namespace TopUpSystem

/-- What holds of the books when a run started from `db₀`. -/
structure Books (db₀ : RewardDB) (s : TopUpSystem) : Prop where
  /-- A fund is its ledger and what the calls have moved and not entered yet. -/
  fund : ∀ id, s.shared.reward.budget.fundBalance id - db₀.budget.fundBalance id
    = s.shared.reward.budget.fundDeltas id - db₀.budget.fundDeltas id
      + s.total (TopUpThread.pending id)
  /-- No action was applied twice. -/
  once : (s.shared.applied.map AgentAction.idempotencyKey).Nodup
  /-- An action that was applied is in the ledger, or a call is about to enter it. -/
  entered : ∀ a ∈ s.shared.applied,
    (∃ l, s.shared.reward.budget.ledger.byKey a.idempotencyKey = some l) ∨
      ∃ t ∈ s.threads, t.Holds a.idempotencyKey

/-- Nothing gets between the statements of a top-up: a write finds the balance it has read and its action
neither in the ledger nor in flight, an entry is not refused, and the ledger can take the entries of the
other operations. -/
def Unraced (s : TopUpSystem) : TopUpEvent → Prop
  | .wait _ => True
  | .call _ => True
  | .step i fault _ =>
    ∀ t ∈ s.threads[i]?, t.Unraced fault s.shared.reward.budget s.threads
  | .reward e => e.op.FundKeyFree e.env s.shared.reward.budget

instance (s : TopUpSystem) (e : TopUpEvent) : Decidable (s.Unraced e) :=
  match e with
  | .wait _ => inferInstanceAs (Decidable True)
  | .call _ => inferInstanceAs (Decidable True)
  | .step i _ _ => inferInstanceAs (Decidable (∀ t ∈ s.threads[i]?, _))
  | .reward e => inferInstanceAs (Decidable (e.op.FundKeyFree e.env s.shared.reward.budget))

section Books

variable {env : TopUpEnv} {db₀ : RewardDB} {s : TopUpSystem}

/-- A step that leaves the reward tables alone and moves nothing keeps the books. -/
theorem Books.of_pending {s' : TopUpSystem} (h : s.Books db₀)
    (hreward : s'.shared.reward = s.shared.reward) (happlied : s'.shared.applied = s.shared.applied)
    (htotal : ∀ id, s'.total (TopUpThread.pending id) = s.total (TopUpThread.pending id))
    (hholds : ∀ key, (∃ t ∈ s.threads, t.Holds key) → ∃ t ∈ s'.threads, t.Holds key) :
    s'.Books db₀ := by
  refine ⟨fun id => ?_, ?_, fun a ha => ?_⟩
  · rw [hreward, htotal]
    exact h.fund id
  · rw [happlied]
    exact h.once
  · rw [hreward]
    rw [happlied] at ha
    exact (h.entered a ha).imp_right (hholds a.idempotencyKey)

/-- What another call has in its hands stays there. -/
theorem holds_set {i : Nat} {t t' : TopUpThread} {threads : List TopUpThread} {key : String}
    (ht : threads[i]? = some t) (h : ∃ x ∈ threads, x.Holds key) (hkept : t.Holds key → t'.Holds key) :
    ∃ x ∈ threads.set i t', x.Holds key := by
  obtain ⟨x, hx, hholds⟩ := h
  obtain ⟨j, hj⟩ := mem_iff_getElem?.mp hx
  obtain ⟨hi, -⟩ := List.getElem?_eq_some_iff.mp ht
  by_cases hij : i = j
  · subst hij
    obtain rfl := Option.mem_unique ht hj
    exact ⟨t', mem_set hi t', hkept hholds⟩
  · refine ⟨x, mem_iff_getElem?.mpr ⟨j, ?_⟩, hholds⟩
    rw [List.getElem?_set_ne hij]
    exact hj

variable {i : Nat} {e : AgentExecution} {action : AgentAction} {topUp : FundTopUp}

/-- A write on the balance it has read moves the fund by its delta, which is in flight from then on. -/
theorem Books.wrote (h : s.Books db₀) (ht : s.threads[i]? = some (.write e action topUp))
    (hunraced : (TopUpThread.write e action topUp).Unraced none s.shared.reward.budget s.threads) :
    Books db₀ ⟨{ s.shared with
        reward := { s.shared.reward with
          budget := s.shared.reward.budget.setFund topUp.accountId topUp.newBalance }
        applied := action :: s.shared.applied }, s.threads.set i (.insert e action topUp)⟩ := by
  obtain ⟨hbalance, hledger, hfree⟩ := hunraced rfl
  refine ⟨fun id => ?_, ?_, fun a ha => ?_⟩
  · obtain ⟨acc, hacc, hread⟩ := Option.map_eq_some_iff.mp hbalance
    obtain ⟨hmem, hid⟩ := Table.byId_eq_some.mp hacc
    have hid : acc.id = topUp.accountId := hid
    have hnew : topUp.newBalance - acc.balanceQuota = topUp.delta := by
      rw [FundTopUp.newBalance]
      omega
    have hmoved := fundBalance_setFund hmem topUp.newBalance id
    rw [hid] at hmoved
    have htotal : ((s.threads.set i (.insert e action topUp)).map (TopUpThread.pending id)).sum
        = s.total (TopUpThread.pending id) - 0 + if topUp.accountId = id then topUp.delta else 0 :=
      Pool.sum_map_set (TopUpThread.pending id) ht _
    have hbefore := h.fund id
    show (s.shared.reward.budget.setFund topUp.accountId topUp.newBalance).fundBalance id - _
      = s.shared.reward.budget.fundDeltas id - _
        + ((s.threads.set i (.insert e action topUp)).map (TopUpThread.pending id)).sum
    omega
  · -- the key is neither in the ledger nor in flight, so its action was not applied before
    refine nodup_cons.mpr ⟨fun hmem => ?_, h.once⟩
    obtain ⟨a, ha, hkey⟩ := mem_map.mp hmem
    rcases h.entered a ha with ⟨l, hl⟩ | ⟨x, hx, hholds⟩
    · rw [hkey, hledger] at hl
      cases hl
    · exact hfree x hx (hkey ▸ hholds)
  · rcases mem_cons.mp ha with rfl | ha
    · exact .inr ⟨_, mem_set (List.getElem?_eq_some_iff.mp ht).1 _, rfl⟩
    · exact (h.entered a ha).imp_right fun hholds => holds_set ht hholds False.elim

/-- An entry takes its delta out of flight into the ledger. -/
theorem Books.enter (h : s.Books db₀) (ht : s.threads[i]? = some (.insert e action topUp))
    {t' : TopUpThread} {agent : AgentWorld} {ledger : Table OpsFundLedger} (hnot : ¬ t'.InFlight)
    (hcreate : s.shared.reward.budget.ledger.create
      (topUp.ledger s.shared.reward.budget.ledger.nextId action) = some ledger) :
    Books db₀ ⟨⟨agent, { s.shared.reward with
        budget := { s.shared.reward.budget with ledger } }, s.shared.applied⟩,
      s.threads.set i t'⟩ := by
  refine ⟨fun id => ?_, h.once, fun a ha => ?_⟩
  · have hdeltas : Budget.fundDeltas { s.shared.reward.budget with ledger } id
        = s.shared.reward.budget.fundDeltas id
          + if topUp.accountId = id then topUp.delta else 0 := by
      refine (Table.total_of_create hcreate (fun l => l.fundAccountId = id)
        OpsFundLedger.deltaQuota).trans ?_
      by_cases hid : topUp.accountId = id <;> simp [FundTopUp.ledger, Budget.fundDeltas, hid]
    have htotal : ((s.threads.set i t').map (TopUpThread.pending id)).sum
        = s.total (TopUpThread.pending id) - (if topUp.accountId = id then topUp.delta else 0)
          + t'.pending id :=
      Pool.sum_map_set (TopUpThread.pending id) ht _
    have hbefore := h.fund id
    show s.shared.reward.budget.fundBalance id - _
      = Budget.fundDeltas { s.shared.reward.budget with ledger } id - _
        + ((s.threads.set i t').map (TopUpThread.pending id)).sum
    rw [htotal, TopUpThread.pending_of_not_inFlight hnot]
    omega
  · rcases h.entered a ha with ⟨l, hl⟩ | hholds
    · exact .inl ⟨l, Table.byKey_create_of_some hcreate hl⟩
    · by_cases hkey : action.idempotencyKey = a.idempotencyKey
      · refine .inl ⟨topUp.ledger s.shared.reward.budget.ledger.nextId action, ?_⟩
        rw [Table.byKey_of_create hcreate]
        exact if_pos hkey
      · exact .inr (holds_set ht hholds fun hholds => absurd hholds hkey)

/-- A step of a call that nothing gets in the way of. -/
theorem Books.did (h : s.Books db₀) {t : TopUpThread} (ht : s.threads[i]? = some t)
    {fault : Option Err} {r : TopUpThread × TopUpWorld} (hdid : TopUpThread.Did fault s.shared t r)
    (hunraced : t.Unraced fault s.shared.reward.budget s.threads) :
    Books db₀ ⟨r.2, s.threads.set i r.1⟩ := by
  cases hdid with
  | elsewhere hnot hnot' =>
    refine h.of_pending rfl rfl (fun id => ?_) fun key hholds => ?_
    · refine (Pool.sum_map_set (TopUpThread.pending id) ht _).trans ?_
      rw [TopUpThread.pending_of_not_inFlight hnot, TopUpThread.pending_of_not_inFlight hnot']
      exact (add_zero _).trans (sub_zero _)
    · refine holds_set ht hholds fun hholds => absurd ?_ hnot
      cases t with
      | insert => trivial
      | agent => exact hholds
      | write => exact hholds
  | wrote hfault =>
    subst hfault
    exact h.wrote ht hunraced
  | entered hnot hcreate => exact h.enter ht hnot hcreate
  | refused hrefused =>
    -- an entry that nothing gets in the way of is not refused
    obtain ⟨hfault, hfree⟩ := hunraced
    rcases hrefused with hrefused | hrefused
    · exact absurd hfault hrefused
    · obtain ⟨x, hx⟩ := (Table.create_eq_none rfl).mp hrefused
      exact absurd (hx.symm.trans hfree) nofun

/-- **Step lemma**: a step that nothing gets in the way of keeps the books. -/
theorem Books.step (h : s.Books db₀) {e : TopUpEvent} (he : s.Unraced e) :
    (TopUpSystem.step env s e).Books db₀ := by
  cases e with
  | wait nanos => exact h.of_pending rfl rfl (fun _ => rfl) fun _ => id
  | call c =>
    refine h.of_pending rfl rfl (fun id => ?_) fun key ⟨t, ht, hholds⟩ => ?_
    · exact (Pool.total_spawn _).trans (add_zero _)
    · exact ⟨t, mem_append_left _ ht, hholds⟩
  | reward e =>
    refine ⟨fun id => ?_, h.once, fun a ha => (h.entered a ha).imp_left fun ⟨l, hl⟩ =>
      ⟨l, RewardDB.step_ledger_byKey e hl⟩⟩
    have hmoved := @RewardDB.step_fund s.shared.reward e he id
    have hbefore := h.fund id
    show (s.shared.reward.step e).budget.fundBalance id - _
      = (s.shared.reward.step e).budget.fundDeltas id - _ + s.total (TopUpThread.pending id)
    omega
  | step i fault outcome =>
    exact Pool.stepAt_elim (P := fun s => Books db₀ s) (fun _ => h) fun t ht =>
      h.did ht (TopUpThread.step_did t) (he t ht)

end Books

/-- Before any call the books agree. -/
theorem books_initial (agent : AgentWorld) (reward : RewardDB) :
    (initial agent reward).Books reward := by
  refine ⟨fun id => ?_, nodup_nil, fun a ha => absurd ha not_mem_nil⟩
  show reward.budget.fundBalance id - _ = reward.budget.fundDeltas id - _ + 0
  omega

end TopUpSystem

/-- **A top-up is booked as often as it is applied**, while nothing gets between its statements: a fund is
its ledger and what is in flight, and no action is applied twice. Whenever no call stands between its write
and its entry, the fund is its ledger. -/
theorem topups_booked (env : TopUpEnv) (agent : AgentWorld) (reward : RewardDB)
    (events : List TopUpEvent)
    (h : Along (TopUpSystem.step env) TopUpSystem.Unraced (.initial agent reward) events) :
    let s := run (TopUpSystem.step env) (.initial agent reward) events
    TopUpSystem.Books reward s ∧ ((∀ t ∈ s.threads, ¬ t.InFlight) →
      ∀ id, s.shared.reward.budget.fundBalance id - reward.budget.fundBalance id
        = s.shared.reward.budget.fundDeltas id - reward.budget.fundDeltas id) := by
  intro s
  have hbooks : TopUpSystem.Books reward s :=
    run_keeps_along (fun _ _ hs he => hs.step he) (TopUpSystem.books_initial agent reward) h
  refine ⟨hbooks, fun hquiet id => ?_⟩
  have hnone : (s.threads.map (TopUpThread.pending id)).sum = 0 := by
    refine sum_eq_zero fun x hx => ?_
    obtain ⟨t, ht, rfl⟩ := mem_map.mp hx
    exact TopUpThread.pending_of_not_inFlight (hquiet t ht) id
  have hfund := hbooks.fund id
  rw [Pool.total, hnone, add_zero] at hfund
  exact hfund

/-- Every payload asks for 40 units more, on behalf of an administrator. -/
def TopUpEnv.sample : TopUpEnv where
  mustAgentJSON _ := ""
  sha256Hex := id
  unmarshal _ := (Dict.empty.set "chatops_source" (.text "admin")).set "delta" (.number 40)
  parseFloat _ := 0
  agentQuotaUSDText := toString

/-- An approved top-up. -/
def AgentAction.sampleTopUp : AgentAction where
  id := 1
  siteId := "site"
  actionType := "fund.topup"
  agentName := "director"
  targetType := ""
  targetId := ""
  userId := 0
  riskLevel := .low
  riskScore := 0
  quotaAmount := 0
  budgetPool := "daily"
  approvalRequired := true
  status := .approved
  idempotencyKey := "topup"
  reason := ""
  payloadJson := ""
  resultJson := ""
  updatedAt := 0
  createdAt := 0

/-- The approved top-up is the only action. -/
def AgentWorld.sampleTopUp : AgentWorld where
  clock := 0
  db := ⟨⟨[.sampleTopUp], by decide, by decide, by decide⟩, .empty⟩
  history := []

/-- A fund with 100 units and the approved top-up. -/
def TopUpSystem.sample : TopUpSystem := .initial .sampleTopUp fundedRewardDB

/-- The next step of a call, without a fault. -/
def TopUpEvent.next (thread : Nat) : TopUpEvent := .step thread none (.ok Dict.empty)

/-- A grant of 10 units. -/
def sampleGrant : TopUpEvent :=
  .reward ⟨plainRewardEnv "2026-06-21", none, .call (.grant 1 "growth" 10 "grant" "" "" "")⟩

/-- The fund gives out 10 units and is topped up by 40 units. -/
def toppedUpEvents : List TopUpEvent :=
  [sampleGrant, .call (.execute "site" 1), .next 0, .next 0, .next 0, .next 0, .next 0, .next 0, .next 0]

theorem topups_booked_sample :
    (run (TopUpSystem.step .sample) .sample toppedUpEvents).shared.reward.budget.fundBalance 1 = 130 ∧
      (run (TopUpSystem.step .sample) .sample toppedUpEvents).shared.reward.budget.fundDeltas 1 = 130 ∧
      TopUpSystem.Books fundedRewardDB (run (TopUpSystem.step .sample) .sample toppedUpEvents) := by
  have hunraced : Along (TopUpSystem.step .sample) TopUpSystem.Unraced .sample toppedUpEvents := by
    decide +kernel
  exact ⟨by decide +kernel, by decide +kernel,
    (topups_booked .sample .sampleTopUp fundedRewardDB toppedUpEvents hunraced).1⟩

/-- The grant comes between the read and the write of the top-up. -/
def grantLostEvents : List TopUpEvent :=
  [.call (.execute "site" 1), .next 0, .next 0, .next 0, sampleGrant, .next 0, .next 0, .next 0, .next 0]

/-- The entry of the top-up fails, and the action is executed again. -/
def topUpTwiceEvents : List TopUpEvent :=
  [.call (.execute "site" 1), .next 0, .next 0, .next 0, .next 0,
    .step 0 (some (.text "connection lost")) (.ok Dict.empty), .next 0, .next 0,
    .call (.execute "site" 1), .next 1, .next 1, .next 1, .next 1, .next 1, .next 1, .next 1]

/-- No call is between its write and its entry, and the fund has lost the grant in the first run; in the
second the 40 units were added twice and entered once. -/
theorem topups_not_booked :
    (∃ s, s = run (TopUpSystem.step .sample) .sample grantLostEvents ∧
      (∀ t ∈ s.threads, ¬ t.InFlight) ∧ s.shared.reward.budget.fundBalance 1 = 140 ∧
      s.shared.reward.budget.fundDeltas 1 = 130) ∧
    ∃ s, s = run (TopUpSystem.step .sample) .sample topUpTwiceEvents ∧
      (∀ t ∈ s.threads, ¬ t.InFlight) ∧ s.shared.reward.budget.fundBalance 1 = 180 ∧
      s.shared.reward.budget.fundDeltas 1 = 140 ∧
      s.shared.applied.map AgentAction.idempotencyKey = ["topup", "topup"] :=
  ⟨⟨_, rfl, by decide +kernel⟩, _, rfl, by decide +kernel⟩

end Prox
