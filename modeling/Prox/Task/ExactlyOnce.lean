import Prox.Subscription.Effect
import Prox.Task.Outbox
import Prox.Wallet.Effect

/-! # Exactly-once side effects of the outbox

Every interleaving of any number of workers applies each side effect of an operation at most once,
and a completed operation has had all of them. The argument needs no uniqueness of lease tokens: the
funding source and the log refuse a used key, token and usage are changed in the transaction that
sets their flag, and the completion looks at the flags in the row. `OutboxBooks` ties the trace to
these marks, `Outbox.Promises` says what a worker's position promises. -/

namespace Prox

open List Option Outbox TaskBilling TaskBillingOperation

/-! ## The trace, kind by kind -/

namespace SideEffect

/-- The funding adjustments of a trace. -/
def fundings (trace : List SideEffect) : List Int :=
  trace.filterMap fun | .funding d => some d | _ => none

/-- The token adjustments of a trace. -/
def tokenCharges (trace : List SideEffect) : List Int :=
  trace.filterMap fun | .token d => some d | _ => none

/-- The usage adjustments of a trace. -/
def usages (trace : List SideEffect) : List Int :=
  trace.filterMap fun | .usage d => some d | _ => none

/-- The billing logs of a trace. -/
def logQuotas (trace : List SideEffect) : List Int :=
  trace.filterMap fun | .log q => some q | _ => none

variable (trace : List SideEffect) (e : SideEffect)

@[simp] theorem fundings_append : fundings (trace ++ [e])
    = fundings trace ++ match e with | .funding d => [d] | _ => [] := by
  rw [fundings, filterMap_append]
  cases e <;> rfl

@[simp] theorem tokenCharges_append : tokenCharges (trace ++ [e])
    = tokenCharges trace ++ match e with | .token d => [d] | _ => [] := by
  rw [tokenCharges, filterMap_append]
  cases e <;> rfl

@[simp] theorem usages_append : usages (trace ++ [e])
    = usages trace ++ match e with | .usage d => [d] | _ => [] := by
  rw [usages, filterMap_append]
  cases e <;> rfl

@[simp] theorem logQuotas_append : logQuotas (trace ++ [e])
    = logQuotas trace ++ match e with | .log q => [q] | _ => [] := by
  rw [logQuotas, filterMap_append]
  cases e <;> rfl

end SideEffect

open SideEffect

/-! ## The invariant -/

namespace Outbox

variable (db : Outbox) (b : TaskBilling)

/-- The funding source has the mutation of this operation in its journal. -/
def fundingPosted : Bool :=
  if b.onSubscription then (db.subscriptions.journal.byKey b.operationKey).isSome
  else (db.wallet.transactions.byKey b.operationKey).isSome

/-- The billing log of this operation is stored. -/
def logWritten : Bool := (db.logs.byKey b.operationKey).isSome

/-- The log step has done its work: the log is stored, or it is a consumption log and consumption
logs were `off`. -/
def LogSettled (off : Prop) : Prop := db.logWritten b = true ∨ (b.logType = .consume ∧ off)

/-- What a worker at a stage knows about the database. -/
def Promises (off : Prop) : Stage → Prop
  | .markFunding => db.fundingPosted b = true
  | .markLog => db.LogSettled b off
  | _ => True

/-- The keyed rows carry the quotas of the operation. -/
structure RowsFit : Prop where
  wallet : b.onSubscription = false → ∀ t, db.wallet.transactions.byKey b.operationKey = some t →
    t.userId = b.userId ∧ t.deltaQuota = -b.fundingDelta
  subscription : b.onSubscription = true →
    ∀ t, db.subscriptions.journal.byKey b.operationKey = some t →
      t.userSubscriptionId = b.subscriptionId ∧ t.requestedDeltaQuota = b.fundingDelta
  log : ∀ l, db.logs.byKey b.operationKey = some l → l.quota = b.logQuota

end Outbox

/-- The operation is done. -/
def TaskBillingOperation.Completed (o : TaskBillingOperation) : Prop :=
  o.completedAt ≠ 0 ∨ o.status = .completed

/-- The database and the trace of an operation with the columns `b` agree. -/
structure OutboxBooks (off : Prop) (b : TaskBilling) (db : Outbox) (trace : List SideEffect) :
    Prop where
  billing : db.operation.toTaskBilling = b
  fundings : fundings trace = if db.fundingPosted b then [b.fundingDelta] else []
  tokens : tokenCharges trace =
    if db.operation.tokenApplied = true ∧ 0 < b.tokenId then [b.fundingDelta] else []
  usages : usages trace =
    if db.operation.usageApplied = true ∧ b.usageDelta ≠ 0 then [b.usageDelta] else []
  logs : logQuotas trace = if db.logWritten b then [b.logQuota] else []
  rows : db.RowsFit b
  fundingMarked : db.operation.fundingApplied = true → db.fundingPosted b = true
  logMarked : db.operation.logApplied = true → db.LogSettled b off
  completed : db.operation.Completed → db.operation.fundingApplied = true ∧
    db.operation.tokenApplied = true ∧ db.operation.usageApplied = true ∧
    db.operation.logApplied = true

/-- The invariant of the system: the books agree, and every busy worker holds a copy of this
operation and stands where its position promises. -/
structure OutboxInv (off : Prop) (b : TaskBilling) (s : OutboxSystem) : Prop where
  books : OutboxBooks off b s.db s.trace
  workers : ∀ i o stage, s.workers i = .busy o stage →
    o.toTaskBilling = b ∧ s.db.Promises b off stage

/-- The columns a created operation satisfies. -/
structure TaskBilling.Valid (b : TaskBilling) : Prop where
  key_trimmed : trimSpace b.operationKey = b.operationKey
  funding_ne : b.fundingDelta ≠ 0

/-! ## What the transactions do -/

/-- Only the operation's own lookups matter to the promises, and they only grow. -/
structure Outbox.Grows (b : TaskBilling) (off : Prop) (db db' : Outbox) : Prop where
  funding : db.fundingPosted b = true → db'.fundingPosted b = true
  log : db.LogSettled b off → db'.LogSettled b off

theorem Outbox.Grows.refl {b : TaskBilling} {off : Prop} (db : Outbox) : db.Grows b off db :=
  ⟨id, id⟩

theorem Outbox.Grows.promises {b : TaskBilling} {off : Prop} {db db' : Outbox}
    (h : db.Grows b off db') {stage : Stage} (hp : db.Promises b off stage) :
    db'.Promises b off stage := by
  cases stage
  case markFunding => exact h.funding hp
  case markLog => exact h.log hp
  all_goals trivial

variable {o : TaskBillingOperation}

section Books

variable {off : Prop} {b : TaskBilling} {db : Outbox} {trace : List SideEffect}

/-- Writing the operation's row keeps the books when the new row respects them. -/
theorem OutboxBooks.setOperation (h : OutboxBooks off b db trace)
    (hb : o.toTaskBilling = db.operation.toTaskBilling)
    (htoken : o.tokenApplied = db.operation.tokenApplied)
    (husage : o.usageApplied = db.operation.usageApplied)
    (hfunding : o.fundingApplied = true → db.fundingPosted b = true)
    (hlog : o.logApplied = true → db.LogSettled b off)
    (hcompleted : o.Completed → o.fundingApplied = true ∧ o.tokenApplied = true ∧
      o.usageApplied = true ∧ o.logApplied = true) :
    OutboxBooks off b { db with operation := o } trace where
  billing := hb.trans h.billing
  fundings := h.fundings
  tokens := by rw [h.tokens, htoken]
  usages := by rw [h.usages, husage]
  logs := h.logs
  rows := ⟨h.rows.wallet, h.rows.subscription, h.rows.log⟩
  fundingMarked := hfunding
  logMarked := hlog
  completed := hcompleted

/-- A row that is open is not completed once its status is another one. -/
theorem not_completed (hat : o.completedAt = 0) (hstatus : o.status ≠ .completed) :
    ¬ o.Completed := by
  rintro (h | h)
  · exact h hat
  · exact hstatus h

variable (h : OutboxBooks off b db trace)

include h

theorem OutboxBooks.claimed (hopen : db.operation.completedAt = 0)
    (now leaseSeconds : Int) (leaseToken : String) :
    OutboxBooks off b { db with operation := db.operation.claim now leaseSeconds leaseToken } trace :=
  h.setOperation rfl rfl rfl h.fundingMarked h.logMarked
    fun hc => absurd hc (not_completed hopen (by simp [claim]))

theorem OutboxBooks.retried (hopen : db.operation.completedAt = 0)
    (next : Int) (message : String) :
    OutboxBooks off b { db with operation := db.operation.retryAt next message } trace :=
  h.setOperation rfl rfl rfl h.fundingMarked h.logMarked
    fun hc => absurd hc (not_completed hopen (by simp [retryAt]))

/-- A completion finds every step marked. -/
theorem OutboxBooks.completedAt (now : Int)
    (hflags : db.operation.fundingApplied = true ∧ db.operation.tokenApplied = true ∧
      db.operation.usageApplied = true ∧ db.operation.logApplied = true) :
    OutboxBooks off b { db with operation := db.operation.complete now } trace :=
  h.setOperation rfl rfl rfl h.fundingMarked h.logMarked fun _ => hflags

/-- A mark keeps the books when the step it marks has been done. -/
theorem OutboxBooks.marked (leaseUntil : Int) (column : StepColumn)
    (hfunding : column = .fundingApplied → db.fundingPosted b = true)
    (hlog : column = .logApplied → db.LogSettled b off) :
    OutboxBooks off b { db with operation := db.operation.mark leaseUntil column } trace := by
  cases column with
  | fundingApplied =>
    refine h.setOperation rfl rfl rfl (fun _ => hfunding rfl) h.logMarked fun hc => ?_
    exact ⟨rfl, (h.completed hc).2⟩
  | tokenCacheInvalidated =>
    exact h.setOperation rfl rfl rfl h.fundingMarked h.logMarked fun hc => h.completed hc
  | logApplied =>
    refine h.setOperation rfl rfl rfl h.fundingMarked (fun _ => hlog rfl) fun hc => ?_
    obtain ⟨hf, ht, hu, -⟩ := h.completed hc
    exact ⟨hf, ht, hu, rfl⟩

/-- Changes away from the operation's rows keep the books. -/
theorem OutboxBooks.frame (db' : Outbox)
    (hop : db'.operation = db.operation)
    (hw : db'.wallet.transactions.byKey b.operationKey
      = db.wallet.transactions.byKey b.operationKey)
    (hs : db'.subscriptions.journal.byKey b.operationKey
      = db.subscriptions.journal.byKey b.operationKey)
    (hl : db'.logs.byKey b.operationKey = db.logs.byKey b.operationKey) :
    OutboxBooks off b db' trace ∧ db.Grows b off db' := by
  have hposted : db'.fundingPosted b = db.fundingPosted b := by
    simp [fundingPosted, hw, hs]
  have hwritten : db'.logWritten b = db.logWritten b := by simp [logWritten, hl]
  have hsettled : db'.LogSettled b off = db.LogSettled b off := by
    simp [LogSettled, hwritten]
  refine ⟨⟨?_, ?_, ?_, ?_, ?_, ⟨?_, ?_, ?_⟩, ?_, ?_, ?_⟩, ⟨?_, ?_⟩⟩
  · rw [hop]; exact h.billing
  · rw [hposted]; exact h.fundings
  · rw [hop]; exact h.tokens
  · rw [hop]; exact h.usages
  · rw [hwritten]; exact h.logs
  · rw [hw]; exact h.rows.wallet
  · rw [hs]; exact h.rows.subscription
  · rw [hl]; exact h.rows.log
  · rw [hop, hposted]; exact h.fundingMarked
  · rw [hop, hsettled]; exact h.logMarked
  · rw [hop]; exact h.completed
  · rw [hposted]; exact id
  · rw [hsettled]; exact id

/-- The token step: the flag is set in the transaction that charges the token. -/
theorem OutboxBooks.tokenStep
    (hopen : db.operation.tokenApplied = false) (leaseUntil : Int) :
    OutboxBooks off b
      { db with operation := { db.operation with tokenApplied := true, leaseUntil } }
      (if 0 < b.tokenId then trace ++ [.token b.fundingDelta] else trace) := by
  have htokens := h.tokens
  simp only [hopen, Bool.false_eq_true, false_and, if_false] at htokens
  refine ⟨h.billing, ?_, ?_, ?_, ?_, ⟨h.rows.wallet, h.rows.subscription, h.rows.log⟩,
    h.fundingMarked, h.logMarked, fun hc => ?_⟩
  · exact Eq.trans (by split <;> simp) h.fundings
  · by_cases hid : 0 < b.tokenId <;> simp [hid, htokens]
  · exact Eq.trans (by split <;> simp) h.usages
  · exact Eq.trans (by split <;> simp) h.logs
  · obtain ⟨hf, -, hrest⟩ := h.completed hc
    exact ⟨hf, rfl, hrest⟩

/-- The usage step: the flag is set in the transaction that changes the counters. -/
theorem OutboxBooks.usageStep
    (hopen : db.operation.usageApplied = false) (leaseUntil : Int) :
    OutboxBooks off b
      { db with operation := { db.operation with usageApplied := true, leaseUntil } }
      (if b.usageDelta ≠ 0 then trace ++ [.usage b.usageDelta] else trace) := by
  have husages := h.usages
  simp only [hopen, Bool.false_eq_true, false_and, if_false] at husages
  refine ⟨h.billing, ?_, ?_, ?_, ?_, ⟨h.rows.wallet, h.rows.subscription, h.rows.log⟩,
    h.fundingMarked, h.logMarked, fun hc => ?_⟩
  · exact Eq.trans (by split <;> simp) h.fundings
  · exact Eq.trans (by split <;> simp) h.tokens
  · by_cases hid : b.usageDelta ≠ 0 <;> simp [hid, husages]
  · exact Eq.trans (by split <;> simp) h.logs
  · obtain ⟨hf, ht, -, hl⟩ := h.completed hc
    exact ⟨hf, ht, rfl, hl⟩

/-- The funding step: the journal had no row of this key and has one now. -/
theorem OutboxBooks.fundingStep (db' : Outbox)
    (hop : db'.operation = db.operation) (hl : db'.logs = db.logs)
    (hbefore : db.fundingPosted b = false) (hafter : db'.fundingPosted b = true)
    (hrows : db'.RowsFit b) :
    OutboxBooks off b db' (trace ++ [.funding b.fundingDelta]) ∧ db.Grows b off db' := by
  have hfundings := h.fundings
  simp only [hbefore, Bool.false_eq_true, if_false] at hfundings
  have hwritten : db'.logWritten b = db.logWritten b := by simp [logWritten, hl]
  have hsettled : db'.LogSettled b off = db.LogSettled b off := by
    simp [LogSettled, hwritten]
  refine ⟨⟨?_, ?_, ?_, ?_, ?_, hrows, fun _ => hafter, ?_, ?_⟩, ⟨fun _ => hafter, ?_⟩⟩
  · rw [hop]; exact h.billing
  · simp [hfundings, hafter]
  · rw [hop]; simpa using h.tokens
  · rw [hop]; simpa using h.usages
  · rw [hwritten]; simpa using h.logs
  · rw [hop, hsettled]; exact h.logMarked
  · rw [hop]; exact h.completed
  · rw [hsettled]; exact id

/-- The log step: there was no log of this key and there is one now. -/
theorem OutboxBooks.logStep (logs : Table BillingLog)
    (hbefore : db.logWritten b = false) {l : BillingLog} (hquota : l.quota = b.logQuota)
    (hafter : logs.byKey b.operationKey = some l) :
    OutboxBooks off b { db with logs } (trace ++ [.log b.logQuota]) ∧
      db.Grows b off { db with logs } ∧ ({ db with logs } : Outbox).LogSettled b off := by
  have hlogs := h.logs
  simp only [hbefore, Bool.false_eq_true, if_false] at hlogs
  have hwritten : ({ db with logs } : Outbox).logWritten b = true := by
    simp [logWritten, hafter]
  refine ⟨⟨h.billing, ?_, ?_, ?_, ?_, ⟨h.rows.wallet, h.rows.subscription, ?_⟩, h.fundingMarked,
    fun _ => .inl hwritten, h.completed⟩, ⟨id, fun _ => .inl hwritten⟩, .inl hwritten⟩
  · exact Eq.trans (by simp) h.fundings
  · simpa using h.tokens
  · simpa using h.usages
  · simp [hlogs, hwritten]
  · intro l' hl'
    obtain rfl : l = l' := mem_unique hafter hl'
    exact hquota

end Books

/-! ## The transactions of a worker -/

/-- A transaction with a side effect keeps the books, and its success earns the next stage. -/
structure Outbox.Performs (off : Prop) (b : TaskBilling) (trace : List SideEffect) (next : Stage)
    (effect : SideEffect) (db : Outbox) (r : Except Err Bool × Outbox) : Prop where
  books : OutboxBooks off b r.2 (traced trace effect r.1)
  grows : db.Grows b off r.2
  promises : ∀ applied, r.1 = .ok applied → r.2.Promises b off next

/-- A transaction without side effect keeps the books. -/
structure Outbox.Proceeds (off : Prop) (b : TaskBilling) (trace : List SideEffect) (db : Outbox)
    (r : Except Err Unit × Outbox) : Prop where
  books : OutboxBooks off b r.2 trace
  grows : db.Grows b off r.2

section Transactions

variable {off : Prop} {b : TaskBilling} {db : Outbox} {trace : List SideEffect} {env : OutboxEnv}

/-- A rolled back transaction performs nothing. -/
theorem OutboxBooks.failed (h : OutboxBooks off b db trace) (next : Stage) (effect : SideEffect)
    (e : Err) : db.Performs off b trace next effect (.error e, db) :=
  ⟨h, .refl db, fun _ h => by cases h⟩

theorem OutboxBooks.markTaskBillingOperationStep (h : OutboxBooks off b db trace)
    (leaseToken : String) (column : StepColumn)
    (hfunding : column = .fundingApplied → db.fundingPosted b = true)
    (hlog : column = .logApplied → db.LogSettled b off) :
    db.Proceeds off b trace (markTaskBillingOperationStep env leaseToken column db) := by
  unfold Prox.markTaskBillingOperationStep
  refine transaction_elim (P := db.Proceeds off b trace) (fun _ => ⟨h, .refl db⟩) ?_
  rintro ⟨⟩ db' hbody
  simp only [ok_iff, Prod.mk.injEq, true_and] at hbody
  obtain ⟨-, rfl⟩ := hbody
  exact ⟨h.marked _ column hfunding hlog, ⟨id, id⟩⟩

theorem OutboxBooks.completeTaskBillingOperation (h : OutboxBooks off b db trace)
    (leaseToken : String) :
    db.Proceeds off b trace (completeTaskBillingOperation env leaseToken db) := by
  unfold Prox.completeTaskBillingOperation
  refine transaction_elim (P := db.Proceeds off b trace) (fun _ => ⟨h, .refl db⟩) ?_
  rintro ⟨⟩ db' hbody
  simp only [ok_iff, not_not, Prod.mk.injEq, true_and] at hbody
  obtain ⟨⟨-, -, hfunding, htoken, -, husage, hlog⟩, rfl⟩ := hbody
  exact ⟨h.completedAt env.now ⟨hfunding, htoken, husage, hlog⟩, ⟨id, id⟩⟩

variable (env) in
theorem OutboxBooks.retryTaskBillingOperation (h : OutboxBooks off b db trace)
    (leaseToken message : String) :
    db.Proceeds off b trace (retryTaskBillingOperation env leaseToken message db) := by
  unfold Prox.retryTaskBillingOperation
  refine transaction_elim (P := db.Proceeds off b trace) (fun _ => ⟨h, .refl db⟩) ?_
  rintro ⟨⟩ db' hbody
  simp only [ok_iff, not_not, Prod.mk.injEq, true_and] at hbody
  obtain ⟨⟨-, hopen⟩, rfl⟩ := hbody
  exact ⟨h.retried hopen _ message, ⟨id, id⟩⟩

theorem OutboxBooks.applyTaskBillingTokenStep (h : OutboxBooks off b db trace) (hv : b.Valid)
    (leaseToken : String) {next : Stage} (hnext : ∀ db : Outbox, db.Promises b off next) :
    db.Performs off b trace next (.token b.fundingDelta)
      (applyTaskBillingTokenStep env leaseToken db) := by
  unfold Prox.applyTaskBillingTokenStep
  refine transaction_elim (P := db.Performs off b trace next _) (h.failed next _) ?_
  intro applied db' hbody
  simp only [loadLeasedTaskBillingOperationTx, ok_iff] at hbody
  obtain ⟨operation, ⟨-, rfl⟩, hbody⟩ := hbody
  rcases ite_eq_iff.mp hbody with ⟨-, hbody⟩ | ⟨hopen, hbody⟩
  · cases hbody
    exact ⟨h, .refl db, fun _ _ => hnext _⟩
  · cases hbody
    have hid : db.operation.tokenId = b.tokenId := congrArg tokenId h.billing
    have hdelta : db.operation.fundingDelta ≠ 0 := by
      rw [show db.operation.fundingDelta = b.fundingDelta from
        congrArg fundingDelta h.billing]
      exact hv.funding_ne
    -- the tokens are no part of the books
    have hbooks := (h.tokenStep (Bool.eq_false_iff.mpr hopen) (leaseRenewal env.now)).frame
      { db with
        tokens := if 0 < db.operation.tokenId ∧ db.operation.fundingDelta ≠ 0 then
            (db.tokens.updateWhere (fun t => t.id = db.operation.tokenId)
              (Token.charge db.operation.fundingDelta)).1
          else db.tokens
        operation := { db.operation with
          tokenApplied := true, leaseUntil := leaseRenewal env.now } } rfl rfl rfl rfl
    refine ⟨?_, ⟨id, id⟩, fun _ _ => hnext _⟩
    convert hbooks.1 using 1
    rw [hid]
    by_cases hpos : 0 < b.tokenId <;> simp [hpos, hdelta, traced]

theorem OutboxBooks.applyTaskBillingUsageStep (h : OutboxBooks off b db trace)
    (leaseToken : String) {next : Stage} (hnext : ∀ db : Outbox, db.Promises b off next) :
    db.Performs off b trace next (.usage b.usageDelta)
      (applyTaskBillingUsageStep env leaseToken db) := by
  unfold Prox.applyTaskBillingUsageStep
  refine transaction_elim (P := db.Performs off b trace next _) (h.failed next _) ?_
  intro applied db' hbody
  simp only [loadLeasedTaskBillingOperationTx, ok_iff] at hbody
  obtain ⟨operation, ⟨-, rfl⟩, hbody⟩ := hbody
  rcases ite_eq_iff.mp hbody with ⟨-, hbody⟩ | ⟨hopen, hbody⟩
  · cases hbody
    exact ⟨h, .refl db, fun _ _ => hnext _⟩
  · cases hbody
    have hdelta : db.operation.usageDelta = b.usageDelta :=
      congrArg usageDelta h.billing
    -- neither the users nor the channels are part of the books
    have hbooks := (h.usageStep (Bool.eq_false_iff.mpr hopen) (leaseRenewal env.now)).frame
      { db with
        wallet := { db.wallet with
          users := if db.operation.usageDelta ≠ 0 then
              (db.wallet.users.updateWhere (fun u => u.id = db.operation.userId)
                (User.addUsage db.operation.usageDelta)).1
            else db.wallet.users }
        channels := if db.operation.usageDelta ≠ 0 ∧ 0 < db.operation.channelId then
            (db.channels.updateWhere (fun c => c.id = db.operation.channelId)
              (Channel.addUsage db.operation.usageDelta)).1
          else db.channels
        operation := { db.operation with
          usageApplied := true, leaseUntil := leaseRenewal env.now } } rfl rfl rfl rfl
    refine ⟨?_, ⟨id, id⟩, fun _ _ => hnext _⟩
    convert hbooks.1 using 1
    rw [hdelta]
    by_cases hzero : b.usageDelta = 0 <;> simp [hzero, traced]

theorem Outbox.fundingPosted_wallet (db : Outbox) (hsource : b.onSubscription = false) :
    db.fundingPosted b = (db.wallet.transactions.byKey b.operationKey).isSome := by
  simp [fundingPosted, hsource]

theorem Outbox.fundingPosted_subscription (db : Outbox) (hsource : b.onSubscription = true) :
    db.fundingPosted b = (db.subscriptions.journal.byKey b.operationKey).isSome := by
  simp [fundingPosted, hsource]

variable (h : OutboxBooks off b db trace)

include h

/-- A mutation of the wallet under the operation's key. -/
theorem OutboxBooks.walletFunding (hv : b.Valid)
    (hsource : b.onSubscription = false) {m : UserQuotaMutation}
    (hkey : m.idempotencyKey = b.operationKey) (huser : m.userID = b.userId)
    (hdelta : m.deltaQuota = -b.fundingDelta) (fault : Option Err) :
    db.Performs off b trace .markFunding (.funding b.fundingDelta)
      ((applyUserQuotaMutation fault m db.wallet).1,
        { db with wallet := (applyUserQuotaMutation fault m db.wallet).2 }) := by
  have hk : trimSpace m.idempotencyKey = b.operationKey := by rw [hkey, hv.key_trimmed]
  refine transaction_elim (P := fun r : Except Err Bool × Wallet => db.Performs off b trace
    .markFunding (.funding b.fundingDelta) (r.1, { db with wallet := r.2 })) (h.failed _ _) ?_
  intro applied w' hbody
  rcases applyUserQuotaMutationTx_cases hbody
    with ⟨rfl, rfl, t, ht, -⟩ | ⟨rfl, -, t, hpost, -, htkey, htuser, htdelta⟩
  · -- a replay: the journal has the row, nothing is applied
    rw [hk] at ht
    refine ⟨h, .refl db, fun _ _ => ?_⟩
    show db.fundingPosted b = true
    rw [db.fundingPosted_wallet hsource, ht]
    rfl
  · have hkey' : Row.key t = b.operationKey := htkey.trans hk
    have hbefore : db.fundingPosted b = false := by
      rw [db.fundingPosted_wallet hsource, ← hkey', Table.byKey_none_of_create hpost.journal]
      rfl
    have hsome : w'.transactions.byKey b.operationKey = some t := by
      rw [Table.byKey_of_create hpost.journal, if_pos hkey']
    have hafter : ({ db with wallet := w' } : Outbox).fundingPosted b = true := by
      rw [fundingPosted_wallet _ hsource, hsome]
      rfl
    have hrow : ∀ t', w'.transactions.byKey b.operationKey = some t' →
        t'.userId = b.userId ∧ t'.deltaQuota = -b.fundingDelta := by
      intro t' ht'
      obtain rfl : t = t' := mem_unique hsome ht'
      exact ⟨htuser.trans huser, htdelta.trans hdelta⟩
    obtain ⟨hbooks, hgrows⟩ := h.fundingStep { db with wallet := w' } rfl rfl hbefore
      hafter ⟨fun _ => hrow, h.rows.subscription, h.rows.log⟩
    exact ⟨hbooks, hgrows, fun _ _ => hafter⟩

/-- A mutation of the subscription under the operation's key. -/
theorem OutboxBooks.subscriptionFunding (hv : b.Valid)
    (hsource : b.onSubscription = true) (fault : Option Err) (requestID type : String) :
    db.Performs off b trace .markFunding (.funding b.fundingDelta)
      ((postConsumeUserSubscriptionDeltaIdempotent fault b.subscriptionId b.fundingDelta requestID
          type b.operationKey db.subscriptions).1,
        { db with subscriptions := (postConsumeUserSubscriptionDeltaIdempotent fault
          b.subscriptionId b.fundingDelta requestID type b.operationKey db.subscriptions).2 }) := by
  refine transaction_elim (P := fun r : Except Err Bool × SubscriptionDB =>
    db.Performs off b trace .markFunding (.funding b.fundingDelta)
      (r.1, { db with subscriptions := r.2 })) (h.failed _ _) ?_
  intro applied subs hbody
  rcases applySubscriptionQuotaMutationTx_cases hbody
    with ⟨rfl, rfl, t, ht, -, -, -, htkey⟩ | ⟨rfl, -, t, hpost, htsub, -, -, htkey, htdelta⟩
  · rw [hv.key_trimmed] at htkey
    refine ⟨h, .refl db, fun _ _ => ?_⟩
    show db.fundingPosted b = true
    rw [db.fundingPosted_subscription hsource, Table.byKey_eq_some.mpr ⟨ht, htkey⟩]
    rfl
  · have hkey' : Row.key t = b.operationKey := htkey.trans hv.key_trimmed
    have hbefore : db.fundingPosted b = false := by
      rw [db.fundingPosted_subscription hsource, ← hkey', Table.byKey_none_of_create hpost.journal]
      rfl
    have hsome : subs.journal.byKey b.operationKey = some t := by
      rw [Table.byKey_of_create hpost.journal, if_pos hkey']
    have hafter : ({ db with subscriptions := subs } : Outbox).fundingPosted b = true := by
      rw [fundingPosted_subscription _ hsource, hsome]
      rfl
    have hrow : ∀ t', subs.journal.byKey b.operationKey = some t' →
        t'.userSubscriptionId = b.subscriptionId ∧ t'.requestedDeltaQuota = b.fundingDelta := by
      intro t' ht'
      obtain rfl : t = t' := mem_unique hsome ht'
      exact ⟨htsub, htdelta⟩
    obtain ⟨hbooks, hgrows⟩ := h.fundingStep { db with subscriptions := subs } rfl rfl
      hbefore hafter ⟨h.rows.wallet, fun _ => hrow, h.rows.log⟩
    exact ⟨hbooks, hgrows, fun _ _ => hafter⟩

theorem OutboxBooks.applyTaskBillingFunding (hv : b.Valid)
    (ho : o.toTaskBilling = b) :
    db.Performs off b trace .markFunding (.funding o.fundingDelta)
      (applyTaskBillingFunding env o db) := by
  subst ho
  unfold Prox.applyTaskBillingFunding
  cases hsource : o.onSubscription with
  | true => exact h.subscriptionFunding hv hsource env.fault _ _
  | false => exact h.walletFunding hv hsource rfl rfl rfl env.fault

theorem OutboxBooks.recordTaskBillingLogIdempotent (hv : b.Valid)
    (ho : o.toTaskBilling = b) (hoff : env.logConsumeEnabled = false → off) :
    db.Performs off b trace .markLog (.log o.logQuota)
      (recordTaskBillingLogIdempotent env o db) := by
  subst ho
  unfold Prox.recordTaskBillingLogIdempotent
  refine transaction_elim (P := db.Performs off o.toTaskBilling trace .markLog _) (h.failed _ _) ?_
  intro applied db' hbody
  simp only [hv.key_trimmed, ok_iff] at hbody
  obtain ⟨-, hbody⟩ := hbody
  rcases ite_eq_iff.mp hbody with ⟨⟨hconsume, hdisabled⟩, hbody⟩ | ⟨-, hbody⟩
  · cases hbody
    exact ⟨h, .refl db, fun _ _ => .inr ⟨hconsume, hoff hdisabled⟩⟩
  · rw [pure_eq_ok, Prod.mk.injEq] at hbody
    obtain ⟨rfl, rfl⟩ := hbody
    unfold Table.insertIgnore
    split
    · next hnone =>
      -- the key is taken: the log of this operation is already there
      obtain ⟨l, hl⟩ := (Table.create_eq_none rfl).mp hnone
      have hwritten : db.logWritten o.toTaskBilling = true := by
        rw [logWritten]
        exact isSome_iff_exists.mpr ⟨l, hl⟩
      exact ⟨h, .refl db, fun _ _ => .inl hwritten⟩
    · next logs hcreate =>
      have hbefore : db.logWritten o.toTaskBilling = false := by
        rw [logWritten]
        exact isSome_eq_false_iff.mpr
          (isNone_iff_eq_none.mpr (Table.byKey_none_of_create hcreate))
      have hkey : Row.key (o.logRow db.logs.nextId o.operationKey) = o.operationKey := rfl
      have hafter := Table.byKey_of_create hcreate o.operationKey
      rw [if_pos hkey] at hafter
      obtain ⟨hbooks, hgrows, hsettled⟩ := h.logStep logs hbefore rfl hafter
      exact ⟨hbooks, hgrows, fun _ _ => hsettled⟩

end Transactions

/-! ## The system -/

section System

variable {off : Prop} {b : TaskBilling} {s : OutboxSystem}

/-- The books change by one transaction and worker `i` moves on. -/
theorem OutboxInv.update (h : OutboxInv off b s) {db : Outbox} {trace : List SideEffect} {i : Nat}
    {w : Worker} (hbooks : OutboxBooks off b db trace) (hgrows : s.db.Grows b off db)
    (hw : ∀ o stage, w = .busy o stage → o.toTaskBilling = b ∧ db.Promises b off stage) :
    OutboxInv off b ({ s with db, trace }.setWorker i w) where
  books := hbooks
  workers := by
    intro j o stage hj
    simp only [OutboxSystem.setWorker, Function.update_apply] at hj
    split at hj
    · exact hw o stage hj
    · obtain ⟨ho, hp⟩ := h.workers j o stage hj
      exact ⟨ho, hgrows.promises hp⟩

theorem OutboxInv.setWorker (h : OutboxInv off b s) {i : Nat} {w : Worker}
    (hw : ∀ o stage, w = .busy o stage → o.toTaskBilling = b ∧ s.db.Promises b off stage) :
    OutboxInv off b (s.setWorker i w) :=
  h.update h.books (.refl s.db) hw

theorem OutboxInv.perform (h : OutboxInv off b s) {next : Stage} {what : String}
    {effect : SideEffect} {i : Nat} {r : Except Err Bool × Outbox} (ho : o.toTaskBilling = b)
    (hr : s.db.Performs off b s.trace next effect r) :
    OutboxInv off b (s.perform i o next what effect r) := by
  refine h.update hr.books hr.grows ?_
  intro o' stage hw
  cases hres : r.1 with
  | ok applied =>
    rw [hres] at hw
    cases hw
    exact ⟨ho, hr.promises applied hres⟩
  | error e =>
    rw [hres] at hw
    cases hw
    exact ⟨ho, trivial⟩

theorem OutboxInv.proceed (h : OutboxInv off b s) {next : Worker} {i : Nat}
    {r : Except Err Unit × Outbox} (ho : o.toTaskBilling = b) (hr : s.db.Proceeds off b s.trace r)
    (hnext : ∀ o stage, next = .busy o stage → o.toTaskBilling = b ∧ r.2.Promises b off stage) :
    OutboxInv off b (s.proceed i o next r) := by
  refine h.update hr.books hr.grows ?_
  intro o' stage hw
  cases hres : r.1 with
  | ok _ =>
    rw [hres] at hw
    exact hnext o' stage hw
  | error e =>
    rw [hres] at hw
    cases hw
    exact ⟨ho, trivial⟩

/-- The stages a copy's flags lead to promise nothing. -/
theorem Outbox.promises_afterUsage (db : Outbox) (o : TaskBillingOperation) :
    db.Promises b off o.afterUsage := by
  unfold afterUsage
  split <;> trivial

theorem Outbox.promises_afterInvalidation (db : Outbox) (o : TaskBillingOperation) :
    db.Promises b off o.afterInvalidation := by
  unfold afterInvalidation
  split
  · exact db.promises_afterUsage o
  · trivial

theorem Outbox.promises_afterToken (db : Outbox) (o : TaskBillingOperation) :
    db.Promises b off o.afterToken := by
  unfold afterToken
  split
  · exact db.promises_afterInvalidation o
  · trivial

theorem Outbox.promises_afterFunding (db : Outbox) (o : TaskBillingOperation) :
    db.Promises b off o.afterFunding := by
  unfold afterFunding
  split
  · exact db.promises_afterToken o
  · trivial

theorem Outbox.promises_firstStage (db : Outbox) (o : TaskBillingOperation) :
    db.Promises b off o.firstStage := by
  unfold firstStage
  split
  · exact db.promises_afterFunding o
  · trivial

/-- **Step lemma for a worker**: whatever its next transaction is, the invariant survives it. -/
theorem OutboxInv.advance (h : OutboxInv off b s) (hv : b.Valid) (env : OutboxEnv) (i : Nat)
    (hoff : env.logConsumeEnabled = false → off) : OutboxInv off b (s.advance env i) := by
  unfold OutboxSystem.advance
  cases hworker : s.workers i with
  | idle => exact h
  | busy o stage =>
    obtain ⟨ho, hp⟩ := h.workers i o stage hworker
    have hfunding : o.fundingDelta = b.fundingDelta := congrArg fundingDelta ho
    have husage : o.usageDelta = b.usageDelta := congrArg usageDelta ho
    cases stage with
    | funding => exact h.perform ho (h.books.applyTaskBillingFunding hv ho)
    | markFunding =>
      refine h.proceed ho (h.books.markTaskBillingOperationStep _ _ (fun _ => hp) (by simp)) ?_
      rintro _ _ ⟨⟩
      exact ⟨ho, promises_afterFunding _ o⟩
    | token =>
      refine h.perform ho ?_
      rw [hfunding]
      exact h.books.applyTaskBillingTokenStep hv _ fun db => db.promises_afterToken o
    | invalidate =>
      refine h.setWorker ?_
      rintro _ _ ⟨⟩
      exact ⟨ho, trivial⟩
    | markInvalidated =>
      refine h.proceed ho (h.books.markTaskBillingOperationStep _ _ (by simp) (by simp)) ?_
      rintro _ _ ⟨⟩
      exact ⟨ho, promises_afterInvalidation _ o⟩
    | usage =>
      refine h.perform ho ?_
      rw [husage]
      exact h.books.applyTaskBillingUsageStep _ fun db => db.promises_afterUsage o
    | log => exact h.perform ho (h.books.recordTaskBillingLogIdempotent hv ho hoff)
    | markLog =>
      refine h.proceed ho (h.books.markTaskBillingOperationStep _ _ (by simp) (fun _ => hp)) ?_
      rintro _ _ ⟨⟩
      exact ⟨ho, trivial⟩
    | complete =>
      refine h.proceed ho (h.books.completeTaskBillingOperation _) ?_
      rintro _ _ ⟨⟩
    | retry message =>
      have hr := h.books.retryTaskBillingOperation env o.leaseToken message
      refine h.update hr.books hr.grows ?_
      rintro _ _ ⟨⟩

/-- The event keeps consumption logs switched on. -/
def OutboxEvent.logsConsumption : OutboxEvent → Bool
  | .advance _ env => env.logConsumeEnabled
  | _ => true

/-- **Step lemma**: every event keeps the invariant. -/
theorem OutboxInv.step (h : OutboxInv off b s) (hv : b.Valid) (e : OutboxEvent)
    (hoff : e.logsConsumption = false → off) : OutboxInv off b (s.step e) := by
  cases e with
  | claim i operationKey now leaseSeconds leaseToken =>
    simp only [OutboxSystem.step, claimTaskBillingOperation]
    split
    · next o db hclaim =>
      split at hclaim
      · next hopen =>
        cases hclaim
        refine h.update (h.books.claimed hopen.2.1 _ _ _) ⟨id, id⟩ ?_
        rintro _ _ ⟨⟩
        exact ⟨h.books.billing, promises_firstStage _ _⟩
      · cases hclaim
    · exact h
  | advance i env => exact h.advance hv env i hoff
  | fail i message =>
    simp only [OutboxSystem.step]
    split
    · exact h
    · next o stage hworker =>
      refine h.setWorker ?_
      rintro _ _ ⟨⟩
      exact ⟨(h.workers i o stage hworker).1, trivial⟩
  | crash i =>
    refine h.setWorker ?_
    rintro _ _ ⟨⟩
  | background db =>
    simp only [OutboxSystem.step]
    split
    · next hagrees =>
      have hkey : s.db.operation.operationKey = b.operationKey :=
        congrArg operationKey h.books.billing
      obtain ⟨hop, hw, hs, hl⟩ := of_decide_eq_true hagrees
      rw [hkey] at hw hs hl
      obtain ⟨hbooks, hgrows⟩ := h.books.frame _ hop hw hs hl
      refine ⟨hbooks, fun i o stage hi => ?_⟩
      obtain ⟨ho, hp⟩ := h.workers i o stage hi
      exact ⟨ho, hgrows.promises hp⟩
    · exact h

end System

/-! ## Runs -/

/-- An operation that was just created: no worker has it, nothing was applied, and its key is
unused. -/
structure OutboxSystem.Started (s : OutboxSystem) : Prop where
  created : ∃ c, normalizeTaskBillingOperation c = .ok s.db.operation
  idle : ∀ i, s.workers i = .idle
  no_trace : s.trace = []
  wallet_free : s.db.wallet.transactions.byKey s.db.operation.operationKey = none
  subscription_free : s.db.subscriptions.journal.byKey s.db.operation.operationKey = none
  log_free : s.db.logs.byKey s.db.operation.operationKey = none

/-- What the creation of an operation establishes. -/
theorem normalizeTaskBillingOperation_ok {c : TaskBilling}
    (h : normalizeTaskBillingOperation c = .ok o) :
    o.toTaskBilling.Valid ∧ o.fundingApplied = false ∧ (o.tokenApplied = true → o.tokenId ≤ 0) ∧
      (o.usageApplied = true → o.usageDelta = 0) ∧ o.logApplied = false ∧ ¬ o.Completed := by
  simp only [normalizeTaskBillingOperation, ok_iff, not_or] at h
  obtain ⟨-, -, ⟨-, hdelta⟩, rfl⟩ := h
  exact ⟨⟨trimSpace_trimSpace _, hdelta⟩, rfl, of_decide_eq_true, of_decide_eq_true, rfl,
    not_completed rfl (by simp)⟩

variable {s : OutboxSystem}

theorem OutboxSystem.Started.valid (h : s.Started) : s.db.operation.toTaskBilling.Valid := by
  obtain ⟨c, hc⟩ := h.created
  exact (normalizeTaskBillingOperation_ok hc).1

/-- A fresh operation satisfies the invariant. -/
theorem OutboxSystem.Started.inv (h : s.Started) (off : Prop) :
    OutboxInv off s.db.operation.toTaskBilling s := by
  obtain ⟨c, hc⟩ := h.created
  obtain ⟨-, hfunding, htoken, husage, hlog, hcompleted⟩ := normalizeTaskBillingOperation_ok hc
  have hposted : s.db.fundingPosted s.db.operation.toTaskBilling = false := by
    unfold fundingPosted
    split
    · rw [h.subscription_free]; rfl
    · rw [h.wallet_free]; rfl
  have hwritten : s.db.logWritten s.db.operation.toTaskBilling = false := by
    rw [logWritten, h.log_free]; rfl
  refine ⟨⟨rfl, ?_, ?_, ?_, ?_, ⟨?_, ?_, ?_⟩, ?_, ?_, fun hc => absurd hc hcompleted⟩, ?_⟩
  · simp [h.no_trace, hposted, fundings]
  · have : ¬ (s.db.operation.tokenApplied = true ∧ 0 < s.db.operation.tokenId) := by
      rintro ⟨ht, hpos⟩
      have := htoken ht
      omega
    rw [h.no_trace, if_neg this]
    rfl
  · have : ¬ (s.db.operation.usageApplied = true ∧ s.db.operation.usageDelta ≠ 0) := by
      rintro ⟨hu, hne⟩
      exact hne (husage hu)
    rw [h.no_trace, if_neg this]
    rfl
  · simp [h.no_trace, hwritten, logQuotas]
  · intro _ t ht
    rw [h.wallet_free] at ht
    cases ht
  · intro _ t ht
    rw [h.subscription_free] at ht
    cases ht
  · intro l hl
    rw [h.log_free] at hl
    cases hl
  · intro hf
    rw [hfunding] at hf
    cases hf
  · intro hl
    rw [hlog] at hl
    cases hl
  · intro i o stage hi
    rw [h.idle i] at hi
    cases hi

/-- **Run lemma**: the invariant holds after every interleaving. -/
theorem OutboxSystem.Started.run_inv (h : s.Started) (events : List OutboxEvent) :
    OutboxInv (∃ e ∈ events, e.logsConsumption = false) s.db.operation.toTaskBilling
      (run OutboxSystem.step s events) := by
  have halong := (along_of_forall OutboxSystem.step (P := fun _ _ => True)
    (fun _ _ => trivial) s events).and_mem
    (Q := fun e => e.logsConsumption = false → ∃ e ∈ events, e.logsConsumption = false)
    fun e he hoff => ⟨e, he, hoff⟩
  exact run_keeps_along (fun s e hinv he => hinv.step h.valid e he.1) (h.inv _) halong

/-- A list that is empty or holds one given element. -/
theorem eq_nil_or_singleton {c : Prop} [Decidable c] {l : List Int} {x : Int}
    (h : l = if c then [x] else []) : l = [] ∨ l = [x] := by
  split at h
  · exact .inr h
  · exact .inl h

/-- **Exactly-once side effects.** In every interleaving of any number of workers, with crashes,
expired leases, stale owners, failing transactions and anything else going on in the database, each
side effect of the operation is applied at most once, with the operation's own quotas. Once it is
completed, the funding source was adjusted exactly once and has the journal row that says so, the
token exactly once if the operation has a token, the usage counters exactly once if there is usage to
account, and the log was written exactly once, unless it is a consumption log and consumption logs
were switched off during the run. -/
theorem outbox_exactly_once (s : OutboxSystem) (hs : s.Started) (events : List OutboxEvent)
    (s' : OutboxSystem) (hrun : run OutboxSystem.step s events = s') :
    ((fundings s'.trace = [] ∨ fundings s'.trace = [s.db.operation.fundingDelta]) ∧
      (tokenCharges s'.trace = [] ∨ tokenCharges s'.trace = [s.db.operation.fundingDelta]) ∧
      (usages s'.trace = [] ∨ usages s'.trace = [s.db.operation.usageDelta]) ∧
      (logQuotas s'.trace = [] ∨ logQuotas s'.trace = [s.db.operation.logQuota])) ∧
    (s'.db.operation.Completed →
      fundings s'.trace = [s.db.operation.fundingDelta] ∧
      s'.db.fundingPosted s.db.operation.toTaskBilling = true ∧
      s'.db.RowsFit s.db.operation.toTaskBilling ∧
      tokenCharges s'.trace
        = (if 0 < s.db.operation.tokenId then [s.db.operation.fundingDelta] else []) ∧
      usages s'.trace
        = (if s.db.operation.usageDelta ≠ 0 then [s.db.operation.usageDelta] else []) ∧
      (logQuotas s'.trace = [s.db.operation.logQuota] ∨
        (logQuotas s'.trace = [] ∧ s.db.operation.logType = .consume ∧
          ∃ e ∈ events, e.logsConsumption = false))) := by
  subst hrun
  have h := (hs.run_inv events).books
  refine ⟨⟨eq_nil_or_singleton h.fundings, eq_nil_or_singleton h.tokens,
    eq_nil_or_singleton h.usages, eq_nil_or_singleton h.logs⟩, fun hcompleted => ?_⟩
  obtain ⟨hfunding, htoken, husage, hlog⟩ := h.completed hcompleted
  have hposted := h.fundingMarked hfunding
  have hfundings := h.fundings
  have htokens := h.tokens
  have husages := h.usages
  have hlogs := h.logs
  rw [if_pos hposted] at hfundings
  simp only [htoken, true_and] at htokens
  simp only [husage, true_and] at husages
  refine ⟨hfundings, hposted, h.rows, htokens, husages, ?_⟩
  cases hwritten : Outbox.logWritten _ s.db.operation.toTaskBilling with
  | true =>
    rw [if_pos hwritten] at hlogs
    exact .inl hlogs
  | false =>
    rw [if_neg (by simp [hwritten])] at hlogs
    rcases h.logMarked hlog with hw | ⟨hconsume, hoff⟩
    · rw [hwritten] at hw
      cases hw
    · exact .inr ⟨hlogs, hconsume, hoff⟩

/-! ## Concrete operations -/

/-- The settlement of 30 on the wallet of user 1, through token `tokenId`. -/
def TaskBilling.sample (tokenId : Int) : TaskBilling where
  id := 1
  operationKey := "task:t1:recalculate_130"
  taskKind := "task"
  taskRecordId := 1
  taskId := "t1"
  operation := "settle"
  userId := 1
  tokenId := tokenId
  channelId := 0
  subscriptionId := 0
  billingSource := "wallet"
  group := "default"
  modelName := "video"
  reason := "tokens recalculated"
  preConsumedQuota := 100
  actualQuota := 130
  fundingDelta := 30
  usageDelta := 30
  logType := .consume
  logQuota := 30
  logOther := "\x7b\x7d"

/-- The system of such an operation, with one token of 50. -/
def OutboxSystem.sample (tokenId : Int) : OutboxSystem where
  db :=
    { operation := { TaskBilling.sample tokenId with
        tokenApplied := tokenId ≤ 0, tokenCacheInvalidated := tokenId ≤ 0 }
      wallet := ⟨⟨[{ id := 1, quota := 100 }], by simp [Row.id], by simp, by simp⟩, .empty, .empty⟩
      subscriptions := ⟨.empty, .empty, .empty, fun _ => 0⟩
      tokens := ⟨[{ id := 1, remainQuota := 50 }], by simp [Row.id], by simp, by simp⟩
      channels := .empty
      logs := .empty }
  workers := fun _ => .idle
  trace := []

theorem OutboxSystem.sample_started (tokenId : Int) : (OutboxSystem.sample tokenId).Started := by
  refine ⟨⟨TaskBilling.sample tokenId, ?_⟩, fun _ => rfl, rfl, rfl, rfl, rfl⟩
  have hkey : trimSpace (TaskBilling.sample tokenId).operationKey = "task:t1:recalculate_130" := by
    show trimSpace "task:t1:recalculate_130" = "task:t1:recalculate_130"
    decide +kernel
  have hnames : ¬ (trimSpace "task" = "" ∨ trimSpace "settle" = "") := by decide +kernel
  simp only [normalizeTaskBillingOperation, hkey]
  exact failIf_bind_eq_ok.mpr ⟨by decide, failIf_bind_eq_ok.mpr ⟨hnames,
    failIf_bind_eq_ok.mpr ⟨show ¬ ((1 : Int) ≤ 0 ∨ (30 : Int) = 0) by decide, rfl⟩⟩⟩

/-- A worker that claims the operation, dies after the funding step, and a second worker that takes
over when the lease has run out and does `steps` transactions. -/
def takeover (logConsumeEnabled : Bool) (steps : Nat) : List OutboxEvent :=
  [.claim 0 "task:t1:recalculate_130" 100 30 "a", .advance 0 ⟨100, none, logConsumeEnabled⟩,
    .crash 0, .claim 1 "task:t1:recalculate_130" 130 30 "b"] ++
    List.replicate steps (.advance 1 ⟨131, none, logConsumeEnabled⟩)

/-- The operation with a token is completed by the second worker, and everything is applied once. -/
theorem outbox_exactly_once_takeover :
    (OutboxSystem.sample 1).Started ∧
    (run OutboxSystem.step (.sample 1) (takeover true 9)).db.operation.Completed ∧
    fundings (run OutboxSystem.step (.sample 1) (takeover true 9)).trace = [30] := by
  have hcompleted :
      (run OutboxSystem.step (.sample 1) (takeover true 9)).db.operation.Completed := by
    right
    decide +kernel
  exact ⟨OutboxSystem.sample_started 1, hcompleted,
    ((outbox_exactly_once _ (OutboxSystem.sample_started 1) _ _ rfl).2 hcompleted).1⟩

/-- **Not every effect of a completed operation was applied once**: without a token, and with
consumption logs switched off, the operation completes with no token adjustment and no log. -/
theorem outbox_completes_without_log :
    (OutboxSystem.sample 0).Started ∧
    (run OutboxSystem.step (.sample 0) (takeover false 6)).db.operation.Completed ∧
    (run OutboxSystem.step (.sample 0) (takeover false 6)).trace = [.funding 30, .usage 30] ∧
    ¬ ∀ (s : OutboxSystem) (events : List OutboxEvent), s.Started →
      (run OutboxSystem.step s events).db.operation.Completed →
        (tokenCharges (run OutboxSystem.step s events).trace).length = 1 ∧
        (logQuotas (run OutboxSystem.step s events).trace).length = 1 := by
  have hcompleted :
      (run OutboxSystem.step (.sample 0) (takeover false 6)).db.operation.Completed := by
    right
    decide +kernel
  have htrace : (run OutboxSystem.step (.sample 0) (takeover false 6)).trace
      = [.funding 30, .usage 30] := by decide +kernel
  refine ⟨OutboxSystem.sample_started 0, hcompleted, htrace, fun hall => ?_⟩
  have hlog := (hall _ _ (OutboxSystem.sample_started 0) hcompleted).2
  rw [htrace] at hlog
  cases hlog

end Prox
