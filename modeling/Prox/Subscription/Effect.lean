import Mathlib.Logic.Relation
import Prox.Subscription.Quota

/-! # What a subscription transaction does

Every committed transaction of `Subscription.Quota` is a sequence of effects: the reset schedule is
written, the counter is reset, or a mutation is posted, alone or together with the record of the
request it belongs to. A mutation whose idempotency key was used before by the same mutation is
skipped; `SubscriptionEffect` keeps these cases apart, because they are harmless for the counter but
not for the holds. -/

namespace Prox

open List SubscriptionPreConsumeRecord Table

attribute [local irreducible] trimSpace

/-! ## Idempotency keys of resizes -/

/-- The idempotency key of the resize that produces a version. -/
def resizeKey (requestID : String) (version : Int) : String :=
  trimSpace s!"subscription:{requestID}:resize:{version}"

theorem toList_resizeKey (k : String) (n : Nat) :
    (resizeKey k n).toList
      = "subscription:".toList ++ k.toList ++ ":resize:".toList ++ Nat.toDigits 10 n := by
  have htext : (s!"subscription:{k}:resize:{(n : Int)}").toList
      = "subscription:".toList ++ k.toList ++ ":resize:".toList ++ Nat.toDigits 10 n := by
    have hn : toString (n : Int) = Nat.repr n := rfl
    rw [hn]
    simp only [String.toList_append, Nat.toList_repr]
    rfl
  obtain ⟨l, d, hd⟩ : ∃ l d, Nat.toDigits 10 n = l ++ [d] :=
    ⟨_, _, (dropLast_append_getLast (Nat.toDigits_ne_nil)).symm⟩
  have hdigit : d.isDigit := Nat.isDigit_of_mem_toDigits (b := 10) (n := n) (by decide) (by decide)
    (by rw [hd]; simp)
  rw [resizeKey, trimSpace_eq_self (a := 's') (b := d)
    (l := "ubscription:".toList ++ k.toList ++ ":resize:".toList ++ Nat.toDigits 10 n)
    (by rw [htext]; rfl) (by rw [htext, hd, ← append_assoc]) (by decide)
    (isSpace_eq_false_of_isDigit hdigit), htext]

variable {k key type : String}

/-- Different versions have different keys: the decimal text of a version determines it. -/
theorem resizeKey_injective {v v' : Int} (hv : 0 ≤ v) (hv' : 0 ≤ v')
    (h : resizeKey k v = resizeKey k v') : v = v' := by
  obtain ⟨n, rfl⟩ := Int.eq_ofNat_of_zero_le hv
  obtain ⟨n', rfl⟩ := Int.eq_ofNat_of_zero_le hv'
  have hlist := congrArg String.toList h
  rw [toList_resizeKey, toList_resizeKey, append_cancel_left_eq] at hlist
  have hdigits := congrArg (fun l => Nat.ofDigitChars 10 l 0) hlist
  simp only [Nat.ofDigitChars_ten_toDigits] at hdigits
  rw [hdigits]
/-! ## Effects -/

/-- The quota a record holds on its subscription. -/
def SubscriptionPreConsumeRecord.held (r : SubscriptionPreConsumeRecord) : Int :=
  match r.status with
  | .consumed => r.preConsumed
  | .settled => r.preConsumed
  | .pending => 0
  | .refunded => 0

/-- The columns of a journal entry that the checks of a mutation accepted. -/
structure SubscriptionQuotaTransaction.Accepted (t : SubscriptionQuotaTransaction) : Prop where
  requested_ne : t.requestedDeltaQuota ≠ 0
  requestId : ¬ (t.requestId = "" ∨ 128 < byteLen t.requestId)
  transactionType : ¬ (t.transactionType = "" ∨ 32 < byteLen t.transactionType)
  idempotencyKey : ¬ (t.idempotencyKey = "" ∨ 191 < byteLen t.idempotencyKey)

/-- One mutation of a counter, posted together with its journal entry. -/
structure SubscriptionPosting (db db' : SubscriptionDB) (t : SubscriptionQuotaTransaction) :
    Prop where
  /-- The subscription exists, the entry records what was applied, and the total is respected. -/
  sub : ∃ s, db.subs.byId t.userSubscriptionId = some s ∧
    t.amountUsedAfter = amountUsedAfter s.amountUsed t.requestedDeltaQuota ∧
    t.deltaQuota = t.amountUsedAfter - s.amountUsed ∧
    (0 < s.amountTotal → t.amountUsedAfter ≤ s.amountTotal)
  accepted : t.Accepted
  subs : db'.subs = (db.subs.updateWhere (fun s => s.id = t.userSubscriptionId)
    (UserSubscription.setAmountUsed t.amountUsedAfter)).1
  journal : db.journal.create t = some db'.journal
  resetMark : db'.resetMark = db.resetMark

/-- The counters, the journal and the marks are untouched. -/
structure SameCounters (db db' : SubscriptionDB) : Prop where
  subs : db'.subs = db.subs
  journal : db'.journal = db.journal
  resetMark : db'.resetMark = db.resetMark

/-- A journal entry that a record accounts for: its pre-consumption, a resize up to its version, or
the settlement or refund that its status shows. -/
structure SubscriptionQuotaTransaction.Explains (t : SubscriptionQuotaTransaction)
    (r : SubscriptionPreConsumeRecord) : Prop where
  requestId_eq : t.requestId = r.requestId
  kind : t.transactionType = "preconsume" ∨
    (t.transactionType = "preconsume_resize" ∧
      ∃ v, 0 ≤ v ∧ v ≤ r.version ∧ t.idempotencyKey = resizeKey r.requestId v) ∨
    (t.transactionType = "preconsume_settle" ∧ r.status = .settled) ∨
    (t.transactionType = "preconsume_refund" ∧ r.status = .refunded)

/-- A transition of an open hold: only its amount, status and version change. -/
structure SubscriptionPreConsumeRecord.MovesTo (r r' : SubscriptionPreConsumeRecord) : Prop where
  id_eq : r'.id = r.id
  requestId_eq : r'.requestId = r.requestId
  userSubscriptionId_eq : r'.userSubscriptionId = r.userSubscriptionId
  version_lt : r.version < r'.version
  consumed : r.status = .consumed
  not_pending : r'.status ≠ .pending
  nonneg : 0 ≤ r.preConsumed → 0 ≤ r'.preConsumed

/-- What an effect is about: the reset schedule, a direct mutation, or the hold of a request and the
quota it stands at afterwards. -/
inductive Touched where
  | schedule
  | mutation
  | hold (requestId : String) (quota : Int)

/-- What one part of a committed transaction did. -/
inductive SubscriptionEffect (touched : Touched) (db db' : SubscriptionDB) : Prop
  | scheduled (id last next : Int) (htouched : touched = .schedule)
      (hdb : db' = { db with subs := (db.subs.updateWhere (fun s => s.id = id)
        (UserSubscription.schedule last next)).1 })
  | reset (id last next : Int) (htouched : touched = .schedule)
      (hdb : db' = { db with
        subs := (db.subs.updateWhere (fun s => s.id = id) (UserSubscription.reset last next)).1
        resetMark := Function.update db.resetMark id db.journal.rows.length })
  | direct (t : SubscriptionQuotaTransaction) (htouched : touched = .mutation)
      (hpost : SubscriptionPosting db db' t) (hrecords : db'.records = db.records)
  | opened (r : SubscriptionPreConsumeRecord) (t : SubscriptionQuotaTransaction)
      (htouched : touched = .hold r.requestId r.preConsumed)
      (hpost : SubscriptionPosting db db' t) (hrecords : db.records.create r = some db'.records)
      (hrequest : t.requestId = r.requestId) (hsub : t.userSubscriptionId = r.userSubscriptionId)
      (htype : t.transactionType = "preconsume") (hdelta : t.requestedDeltaQuota = r.preConsumed)
      (hstatus : r.status = .consumed) (hversion : r.version = 1) (hpos : 0 < r.preConsumed)
  | openedSkipped (r : SubscriptionPreConsumeRecord) (t : SubscriptionQuotaTransaction)
      (htouched : touched = .hold r.requestId r.preConsumed)
      (hsame : SameCounters db db') (hrecords : db.records.create r = some db'.records)
      (ht : t ∈ db.journal.rows) (hrequest : t.requestId = r.requestId)
  | moved (r : SubscriptionPreConsumeRecord) (patch : Patch SubscriptionPreConsumeRecord)
      (t : SubscriptionQuotaTransaction)
      (htouched : touched = .hold r.requestId (patch.apply r).held)
      (hpost : SubscriptionPosting db db' t) (hr : r ∈ db.records.rows)
      (hmove : r.MovesTo (patch.apply r))
      (hrecords : db'.records = (db.records.updateWhere (fun x => x.id = r.id) patch).1)
      (hsub : t.userSubscriptionId = r.userSubscriptionId) (hnew : t.Explains (patch.apply r))
      (htype : t.transactionType ≠ "preconsume")
      (hdelta : t.requestedDeltaQuota = (patch.apply r).held - r.held)
  | movedSkipped (r : SubscriptionPreConsumeRecord) (patch : Patch SubscriptionPreConsumeRecord)
      (t : SubscriptionQuotaTransaction)
      (htouched : touched = .hold r.requestId (patch.apply r).held)
      (hsame : SameCounters db db') (hr : r ∈ db.records.rows)
      (hrecords : db'.records = (db.records.updateWhere (fun x => x.id = r.id) patch).1)
      (ht : t ∈ db.journal.rows) (hrequest : t.requestId = r.requestId) (hnot : ¬ t.Explains r)
  | closed (r : SubscriptionPreConsumeRecord) (patch : Patch SubscriptionPreConsumeRecord)
      (htouched : touched = .hold r.requestId (patch.apply r).held)
      (hsame : SameCounters db db') (hr : r ∈ db.records.rows) (hmove : r.MovesTo (patch.apply r))
      (hrecords : db'.records = (db.records.updateWhere (fun x => x.id = r.id) patch).1)
      (hheld : 0 ≤ r.preConsumed → (patch.apply r).held = r.held)

/-- Finitely many effects on the reset schedule. -/
def Rescheduled : SubscriptionDB → SubscriptionDB → Prop :=
  Relation.ReflTransGen (SubscriptionEffect .schedule)

/-! ## Resets -/

variable {db db' : SubscriptionDB}

/-- The row in memory is the stored row, before and after a reset, and no other row is touched. -/
theorem maybeReset_row {loc : Location} {sub sub' : UserSubscription} {plan : SubscriptionPlan}
    {now : Int} (hrow : db.subs.byId sub.id = some sub)
    (h : maybeResetUserSubscriptionWithPlanTx loc db sub plan now = .ok (sub', db')) :
    db'.subs.byId sub'.id = some sub' ∧ (0 ≤ sub.amountUsed → 0 ≤ sub'.amountUsed) ∧
      (∀ i, i ≠ sub.id → db'.subs.byId i = db.subs.byId i) ∧ db'.journal = db.journal ∧
      db'.records = db.records := by
  have hpatched : ∀ patch : Patch UserSubscription,
      (db.subs.updateWhere (fun s => s.id = sub.id) patch).1.byId sub.id
        = some (patch.apply sub) ∧
      ∀ i, i ≠ sub.id →
        (db.subs.updateWhere (fun s => s.id = sub.id) patch).1.byId i = db.subs.byId i := by
    intro patch
    refine ⟨by rw [byId_updateWhere, hrow]; simp, fun i hi => ?_⟩
    rw [byId_updateWhere]
    cases hx : db.subs.byId i with
    | none => rfl
    | some x =>
      have hxid : x.id = i := (byId_eq_some.mp hx).2
      have hne : x.id ≠ sub.id := hxid ▸ hi
      simp [hne]
  unfold maybeResetUserSubscriptionWithPlanTx at h
  split at h
  · cases h; exact ⟨hrow, id, fun _ _ => rfl, rfl, rfl⟩
  · split at h
    · cases h; exact ⟨hrow, id, fun _ _ => rfl, rfl, rfl⟩
    · simp only at h
      split at h
      · cases h
      · next base next _ =>
        split at h
        · cases h
          obtain ⟨hown, hother⟩ := hpatched (UserSubscription.schedule base next)
          exact ⟨hown, id, hother, rfl, rfl⟩
        · cases h; exact ⟨hrow, id, fun _ _ => rfl, rfl, rfl⟩
      · next base next _ =>
        cases h
        obtain ⟨hown, hother⟩ := hpatched (UserSubscription.reset base next)
        exact ⟨hown, fun _ => le_rfl, hother, rfl, rfl⟩

/-- Effects on the schedule leave the records alone and do not depend on them. -/
theorem Rescheduled.records (h : Rescheduled db db') : db'.records = db.records := by
  induction h with
  | refl => rfl
  | tail _ hstep ih =>
    rw [← ih]
    cases hstep with
    | scheduled _ _ _ _ hdb => rw [hdb]
    | reset _ _ _ _ hdb => rw [hdb]
    | direct _ ht => cases ht
    | opened _ _ ht => cases ht
    | openedSkipped _ _ ht => cases ht
    | moved _ _ _ ht => cases ht
    | movedSkipped _ _ _ ht => cases ht
    | closed _ _ ht => cases ht

theorem Rescheduled.with_records (h : Rescheduled db db')
    (records : Table SubscriptionPreConsumeRecord) :
    Rescheduled { db with records } { db' with records } := by
  induction h with
  | refl => exact .refl
  | tail _ hstep ih =>
    refine ih.tail ?_
    cases hstep with
    | scheduled id last next _ hdb => rw [hdb]; exact .scheduled id last next rfl rfl
    | reset id last next _ hdb => rw [hdb]; exact .reset id last next rfl rfl
    | direct _ ht => cases ht
    | opened _ _ ht => cases ht
    | openedSkipped _ _ ht => cases ht
    | moved _ _ _ ht => cases ht
    | movedSkipped _ _ _ ht => cases ht
    | closed _ _ ht => cases ht

theorem maybeReset_effect {loc : Location} {sub sub' : UserSubscription} {plan : SubscriptionPlan}
    {now : Int} (h : maybeResetUserSubscriptionWithPlanTx loc db sub plan now = .ok (sub', db')) :
    Rescheduled db db' ∧ sub'.id = sub.id := by
  unfold maybeResetUserSubscriptionWithPlanTx at h
  split at h
  · cases h; exact ⟨.refl, rfl⟩
  · split at h
    · cases h; exact ⟨.refl, rfl⟩
    · simp only at h
      split at h
      · cases h
      · next base next _ =>
        split at h
        · cases h; exact ⟨.single (.scheduled sub.id base next rfl rfl), rfl⟩
        · cases h; exact ⟨.refl, rfl⟩
      · next base next _ =>
        cases h; exact ⟨.single (.reset sub.id base next rfl rfl), rfl⟩

/-! ## The mutation -/

variable {delta id : Int}

theorem lockUserSubscriptionTx_eq_ok {s : UserSubscription} :
    lockUserSubscriptionTx db id = .ok s ↔ db.subs.byId id = some s := by
  unfold lockUserSubscriptionTx
  split <;> simp_all [pure_eq_ok, throw_ne_ok]

/-- A successful mutation was skipped as a replay, or it was posted. -/
theorem applySubscriptionQuotaMutationTx_cases {requestID : String} {applied : Bool}
    (h : applySubscriptionQuotaMutationTx db id delta requestID type key = .ok (applied, db')) :
    (applied = false ∧ db' = db ∧ ∃ t ∈ db.journal.rows, t.userSubscriptionId = id ∧
      t.requestId = trimSpace requestID ∧ t.transactionType = trimSpace type ∧
      t.idempotencyKey = trimSpace key) ∨
    (applied = true ∧ db'.records = db.records ∧ ∃ t, SubscriptionPosting db db' t ∧
      t.userSubscriptionId = id ∧ t.requestId = trimSpace requestID ∧
      t.transactionType = trimSpace type ∧ t.idempotencyKey = trimSpace key ∧
      t.requestedDeltaQuota = delta) := by
  simp only [applySubscriptionQuotaMutationTx, ok_iff, lockUserSubscriptionTx_eq_ok] at h
  obtain ⟨hguard, hreq, htype, hkey, s, hs, h⟩ := h
  obtain ⟨hsmem, hsid⟩ := byId_eq_some.mp hs
  split at h
  · next t ht =>
    simp only [ok_iff, not_not, Prod.mk.injEq] at h
    obtain ⟨⟨hid, hreq, htype, -⟩, rfl, rfl⟩ := h
    obtain ⟨htmem, hkey⟩ := byKey_eq_some.mp ht
    exact .inl ⟨rfl, rfl, t, htmem, hid, hreq, htype, hkey⟩
  · simp only [ok_iff, not_and, not_not, not_lt] at h
    obtain ⟨htotal, -, h⟩ := h
    split at h
    · cases h
    · next journal hjournal =>
      cases h
      right
      refine ⟨rfl, rfl, _, ⟨⟨s, ?_, rfl, rfl, htotal⟩,
        ⟨fun h => hguard (.inr h), hreq, htype, hkey⟩, ?_, hjournal, rfl⟩, hsid, rfl, rfl, rfl, rfl⟩
      · exact byId_eq_some.mpr ⟨hsmem, rfl⟩
      · -- the guarded update is the unconditional one: the row was read under the same lock
        have hrow : ∀ x ∈ db.subs.rows, x.id = s.id → x = s := fun x hx hxid =>
          eq_of_id_eq hx hsmem hxid
        refine Table.ext ?_
        split
        · refine map_congr_left fun x hx => ?_
          by_cases hxid : x.id = s.id
          · simp [hrow x hx hxid]
          · simp [hxid]
        · next hzero =>
          refine (map_id' db.subs.rows).symm.trans (map_congr_left fun x hx => ?_)
          by_cases hxid : x.id = s.id
          · have : amountUsedAfter s.amountUsed delta = s.amountUsed := by omega
            simp [hrow x hx hxid, UserSubscription.setAmountUsed, this]
          · simp [hxid]

/-! ## Records -/

variable {r : SubscriptionPreConsumeRecord}

theorem lockSubscriptionPreConsumeRecordTx_eq_ok :
    lockSubscriptionPreConsumeRecordTx db k = .ok r ↔ db.records.byKey k = some r := by
  unfold lockSubscriptionPreConsumeRecordTx
  split <;> simp_all [pure_eq_ok, throw_ne_ok]

/-- A stored record passes the check of its own status and version. -/
theorem updateRecordTx_eq_ok {status : PreConsumeStatus}
    {patch : Patch SubscriptionPreConsumeRecord} {err : Err} (hr : r ∈ db.records.rows)
    (hstatus : r.status = status) (h : updateRecordTx db r status patch err = .ok db') :
    db' = { db with records := (db.records.updateWhere (fun x => x.id = r.id) patch).1 } := by
  simp only [updateRecordTx, ok_iff] at h
  obtain ⟨-, rfl⟩ := h
  have hcongr : db.records.updateWhere
      (fun x => x.id = r.id ∧ x.status = status ∧ x.version = r.version) patch
      = db.records.updateWhere (fun x => x.id = r.id) patch :=
    updateWhere_and hr (c := fun x => x.status = status ∧ x.version = r.version)
      ⟨hstatus, rfl⟩
  rw [hcongr]

/-- An accepted request id is its own trim. -/
theorem normalizeSubscriptionRequest_eq_ok {raw : String}
    (h : normalizeSubscriptionRequest raw = .ok k) : trimSpace k = k := by
  simp only [normalizeSubscriptionRequest, ok_iff] at h
  rw [← h.2, trimSpace_trimSpace]

/-! ## The effect of each operation -/

theorem preConsumeFrom_effect {env : SubscriptionEnv} {record : SubscriptionPreConsumeRecord}
    {amount : Int} {candidates : List UserSubscription} {old : Table SubscriptionPreConsumeRecord}
    {result : SubscriptionPreConsumeResult} (hcreate : old.create record = some db.records)
    (h : preConsumeFrom env record amount candidates db = .ok (result, db'))
    (hk : trimSpace record.requestId = record.requestId) (hpos : 0 < amount)
    (hquota : record.preConsumed = amount) (hversion : record.version = 1)
    (hstatus : record.status = .pending) :
    ∃ db₁, Rescheduled { db with records := old } db₁ ∧
      SubscriptionEffect (.hold record.requestId amount) db₁ db' := by
  induction candidates generalizing db with
  | nil => cases h
  | cons candidate rest ih =>
    simp only [preConsumeFrom, bind_eq_ok, Prod.exists] at h
    obtain ⟨plan, -, sub, db₁, hreset, h⟩ := h
    obtain ⟨hresched, -⟩ := maybeReset_effect hreset
    have hrecords := hresched.records
    have hresched' := hresched.with_records old
    split at h
    · obtain ⟨db₂, hresched₂, heff⟩ := ih (by rw [hrecords]; exact hcreate) h
      exact ⟨db₂, hresched'.trans hresched₂, heff⟩
    · simp only [ok_iff, Prod.mk.injEq, Prod.exists] at h
      obtain ⟨applied, db₂, hmutate, db₃, hupdate, -, rfl⟩ := h
      refine ⟨{ db₁ with records := old }, hresched', ?_⟩
      have hmem : record ∈ db.records.rows := (mem_of_create hcreate).mpr (.inr rfl)
      have hkey : trimSpace "preconsume" = "preconsume" := by decide +kernel
      have hdb₂ : db₂.records = db.records := by
        rcases applySubscriptionQuotaMutationTx_cases hmutate with ⟨-, rfl, -⟩ | ⟨-, hr, -⟩
        · exact hrecords
        · rw [hr, hrecords]
      have hdb₃ := updateRecordTx_eq_ok (hdb₂ ▸ hmem) hstatus hupdate
      -- the record that is claimed pending and then consumed is a record inserted as consumed
      have hfinal : old.create ((consume sub.id).apply record)
          = some db₃.records := by
        rw [hdb₃]
        rw [← hdb₂] at hcreate
        exact create_updateWhere hcreate _ (fun x => by simp [Row.id])
      rcases applySubscriptionQuotaMutationTx_cases hmutate with
        ⟨-, rfl, t, ht, hid, hreq, -⟩ | ⟨-, -, t, hpost, hid, hreq, htype, -, hdelta⟩
      · refine .openedSkipped _ t (by rw [← hquota]; rfl) ⟨by rw [hdb₃], by rw [hdb₃], by rw [hdb₃]⟩
          hfinal ht (hreq.trans hk)
      · refine .opened _ t (by rw [← hquota]; rfl) ?_ hfinal (hreq.trans hk) hid
          (htype.trans hkey) (hdelta.trans hquota.symm) rfl hversion (hquota ▸ hpos)
        rw [hdb₃]
        exact ⟨hpost.sub, hpost.accepted, hpost.subs, hpost.journal, hpost.resetMark⟩

theorem preConsumeUserSubscriptionTx_effect {env : SubscriptionEnv} {userId amount : Int}
    {result : SubscriptionPreConsumeResult} (hk : trimSpace k = k) (hpos : 0 < amount)
    (h : preConsumeUserSubscriptionTx env k userId amount db = .ok (result, db')) :
    (db' = db ∧ ∃ r, db.records.byKey k = some r ∧ r.userId = userId ∧ r.preConsumed = amount) ∨
      (db.records.byKey k = none ∧
        ∃ db₁, Rescheduled db db₁ ∧ SubscriptionEffect (.hold k amount) db₁ db') := by
  simp only [preConsumeUserSubscriptionTx] at h
  split at h
  · -- the request id is taken: the stored record is compared, nothing is written
    simp only [replayPreConsume, ok_iff, not_or, not_not, Prod.mk.injEq,
        lockSubscriptionPreConsumeRecordTx_eq_ok] at h
    obtain ⟨r, hr, hmatch, -, -, -, -, -, rfl⟩ := h
    exact .inl ⟨rfl, r, hr, hmatch⟩
  · next records hcreate =>
    simp only [ok_iff] at h
    exact .inr ⟨byKey_none_of_create hcreate,
      preConsumeFrom_effect hcreate h.2 hk hpos rfl rfl rfl⟩

/-- A mutation followed by the update of the record it belongs to. -/
theorem hold_moved_effect {db₁ : SubscriptionDB} {patch : Patch SubscriptionPreConsumeRecord}
    {applied : Bool} (hr : db.records.byKey k = some r) (hk : trimSpace k = k)
    (hmutate : applySubscriptionQuotaMutationTx db id delta k type key = .ok (applied, db₁))
    (hdb' : db' = { db₁ with
      records := (db₁.records.updateWhere (fun x => x.id = r.id) patch).1 })
    (hmove : r.MovesTo (patch.apply r)) (hid : r.userSubscriptionId = id)
    (hdelta : delta = (patch.apply r).held - r.held) (htype : trimSpace type ≠ "preconsume")
    (hexplains : ∀ t : SubscriptionQuotaTransaction, t.requestId = r.requestId →
      t.transactionType = trimSpace type → t.idempotencyKey = trimSpace key →
        t.Explains (patch.apply r) ∧ ¬ t.Explains r) :
    SubscriptionEffect (.hold k (patch.apply r).held) db db' := by
  obtain ⟨hrmem, hrk⟩ := byKey_eq_some.mp hr
  have htouched : Touched.hold k (patch.apply r).held
      = Touched.hold r.requestId (patch.apply r).held := by rw [← hrk]; rfl
  rcases applySubscriptionQuotaMutationTx_cases hmutate with
    ⟨-, rfl, t, ht, -, hreq, htt, hkey⟩ | ⟨-, hrecords, t, hpost, htid, hreq, htt, hkey, hreqd⟩
  · have hreq' : t.requestId = r.requestId := (hreq.trans hk).trans hrk.symm
    refine .movedSkipped r patch t htouched ⟨by rw [hdb'], by rw [hdb'], by rw [hdb']⟩ hrmem
      (by rw [hdb']) ht hreq' (hexplains t hreq' htt hkey).2
  · have hreq' : t.requestId = r.requestId := (hreq.trans hk).trans hrk.symm
    refine .moved r patch t htouched ?_ hrmem hmove (by rw [hdb', hrecords])
      (htid.trans hid.symm) (hexplains t hreq' htt hkey).1 (htt ▸ htype) (hreqd.trans hdelta)
    rw [hdb']
    exact ⟨hpost.sub, hpost.accepted, hpost.subs, hpost.journal, hpost.resetMark⟩

/-- The records after a mutation are those before it. -/
theorem applySubscriptionQuotaMutationTx_records {requestID : String} {applied : Bool}
    (h : applySubscriptionQuotaMutationTx db id delta requestID type key = .ok (applied, db')) :
    db'.records = db.records := by
  rcases applySubscriptionQuotaMutationTx_cases h with ⟨-, rfl, -⟩ | ⟨-, hr, -⟩
  · rfl
  · exact hr

/-- The row of a request after its record was updated. -/
theorem byKey_updateRecord {t : Table SubscriptionPreConsumeRecord} (hr : t.byKey k = some r)
    (patch : Patch SubscriptionPreConsumeRecord) :
    (t.updateWhere (fun x => x.id = r.id) patch).1.byKey k = some (patch.apply r) := by
  rw [byKey_updateWhere, hr, Option.map_some, if_pos (by simp)]

theorem resizeSubscriptionPreConsumeTx_effect {userID subID target : Int} (hk : trimSpace k = k)
    (htarget : 0 ≤ target)
    (h : resizeSubscriptionPreConsumeTx k userID subID target db = .ok ((), db')) :
    (db' = db ∨ SubscriptionEffect (.hold k target) db db') ∧
      ∃ r, db'.records.byKey k = some r ∧ r.status = .consumed ∧ r.preConsumed = target := by
  simp only [resizeSubscriptionPreConsumeTx, ok_iff, not_not, not_or,
      lockSubscriptionPreConsumeRecordTx_eq_ok] at h
  obtain ⟨r, hr, ⟨-, hsub⟩, hstatus, h⟩ := h
  split at h
  · next heq =>
    simp only [pure_eq_ok, Prod.mk.injEq, true_and] at h
    exact ⟨.inl h.symm, r, h ▸ hr, hstatus, heq⟩
  · simp only [ok_iff, Prod.mk.injEq, true_and, Prod.exists] at h
    obtain ⟨applied, db₁, hmutate, db₂, hupdate, rfl⟩ := h
    have hrecords := applySubscriptionQuotaMutationTx_records hmutate
    have hrmem := (byKey_eq_some.mp hr).1
    have hrk : r.requestId = k := (byKey_eq_some.mp hr).2
    have hdb₂ := updateRecordTx_eq_ok (hrecords ▸ hrmem) hstatus hupdate
    generalize hv : (if r.version < 1 then 1 else r.version) + 1 = nextVersion at hdb₂ hmutate
    have hlt : r.version < nextVersion ∧ 0 ≤ nextVersion := by split at hv <;> omega
    have heff := hold_moved_effect hr hk hmutate hdb₂
      ⟨rfl, rfl, rfl, hlt.1, hstatus, by simp [resize, hstatus],
        fun _ => htarget⟩ hsub
      (by simp [held, resize, hstatus])
      (by decide +kernel)
      (fun t hreq htype hkey => by
        have htype' : t.transactionType = "preconsume_resize" := htype.trans (by decide +kernel)
        have hkey' : t.idempotencyKey = resizeKey r.requestId nextVersion := by rw [hkey, hrk]; rfl
        refine ⟨⟨hreq, .inr (.inl ⟨htype', nextVersion, hlt.2, le_rfl, hkey'⟩)⟩, ?_⟩
        rintro ⟨-, hkind⟩
        rw [htype'] at hkind
        simp only [String.reduceEq, false_or, false_and, or_false, true_and] at hkind
        obtain ⟨v, hv0, hvle, hvkey⟩ := hkind
        have := resizeKey_injective hv0 hlt.2 (hvkey.symm.trans hkey')
        omega)
    have hheld : ((resize target nextVersion).apply r).held = target := by
      simp [held, resize, hstatus]
    rw [hheld] at heff
    have hrow := byKey_updateRecord hr (resize target nextVersion)
    rw [← hrecords] at hrow
    rw [hdb₂] at heff ⊢
    exact ⟨.inr heff, _, hrow, hstatus, rfl⟩

theorem settleSubscriptionPreConsumeTx_effect {userID subID actual : Int} (hk : trimSpace k = k)
    (hactual : 0 ≤ actual)
    (h : settleSubscriptionPreConsumeTx k userID subID actual db = .ok ((), db')) :
    (db' = db ∨ SubscriptionEffect (.hold k actual) db db') ∧
      ∃ r, db'.records.byKey k = some r ∧ r.status = .settled ∧ r.preConsumed = actual := by
  simp only [settleSubscriptionPreConsumeTx, ok_iff, not_not, not_or,
      lockSubscriptionPreConsumeRecordTx_eq_ok] at h
  obtain ⟨r, hr, ⟨-, hsub⟩, h⟩ := h
  split at h
  · next hsettled =>
    simp only [ok_iff, not_not, Prod.mk.injEq, true_and] at h
    exact ⟨.inl h.2.symm, r, h.2 ▸ hr, hsettled, h.1⟩
  · simp only [ok_iff, not_not, Prod.mk.injEq, true_and] at h
    obtain ⟨hstatus, db₁, hmutate, db₂, hupdate, rfl⟩ := h
    have hrmem := (byKey_eq_some.mp hr).1
    generalize hv : (if r.version < 1 then 1 else r.version) = version at hupdate
    have hlt : r.version < version + 1 := by split at hv <;> omega
    have hmove : r.MovesTo ((settle actual (version + 1)).apply r) :=
      ⟨rfl, rfl, rfl, hlt, hstatus, by simp [settle], fun _ => hactual⟩
    have hheld : ((settle actual (version + 1)).apply r).held = actual :=
      rfl
    have hold : r.held = r.preConsumed := by simp [held, hstatus]
    split at hmutate
    · simp only [ok_iff, Prod.exists] at hmutate
      obtain ⟨applied, _, hmutate, rfl⟩ := hmutate
      have hrecords := applySubscriptionQuotaMutationTx_records hmutate
      have hdb₂ := updateRecordTx_eq_ok (hrecords ▸ hrmem) hstatus hupdate
      have heff := hold_moved_effect hr hk hmutate hdb₂ hmove hsub (by rw [hheld, hold]) (by decide +kernel)
        (fun t hreq htype _ => by
          have htype' : t.transactionType = "preconsume_settle" := htype.trans (by decide +kernel)
          refine ⟨⟨hreq, .inr (.inr (.inl ⟨htype', rfl⟩))⟩, ?_⟩
          rintro ⟨-, hkind⟩
          rw [htype'] at hkind
          simp [hstatus] at hkind)
      have hrow := byKey_updateRecord hr (settle actual (version + 1))
      rw [← hrecords] at hrow
      exact ⟨.inr heff, _, by rw [hdb₂]; exact hrow, rfl, rfl⟩
    · next hzero =>
      cases hmutate
      have hdb₂ := updateRecordTx_eq_ok hrmem hstatus hupdate
      have hrk : r.requestId = k := (byKey_eq_some.mp hr).2
      have hrow := byKey_updateRecord hr (settle actual (version + 1))
      refine ⟨.inr (.closed r _ (by rw [hheld, hrk]) ⟨by rw [hdb₂], by rw [hdb₂], by rw [hdb₂]⟩ hrmem
        hmove (by rw [hdb₂]) fun _ => ?_), _, by rw [hdb₂]; exact hrow, rfl, rfl⟩
      omega

theorem refundSubscriptionPreConsumeTx_effect (hk : trimSpace k = k)
    (h : refundSubscriptionPreConsumeTx k db = .ok ((), db')) :
    (db' = db ∨ SubscriptionEffect (.hold k 0) db db') ∧
      ∃ r, db'.records.byKey k = some r ∧ r.status = .refunded := by
  simp only [refundSubscriptionPreConsumeTx, bind_eq_ok, lockSubscriptionPreConsumeRecordTx_eq_ok] at h
  obtain ⟨r, hr, h⟩ := h
  split at h
  · next hrefunded =>
    simp only [pure_eq_ok, Prod.mk.injEq, true_and] at h
    exact ⟨.inl h.symm, r, h ▸ hr, hrefunded⟩
  · simp only [ok_iff, not_not, Prod.mk.injEq, true_and] at h
    obtain ⟨hstatus, db₁, hmutate, rfl⟩ := h
    have hrmem := (byKey_eq_some.mp hr).1
    have hmove : r.MovesTo ((refund (r.version + 1)).apply r) :=
      ⟨rfl, rfl, rfl, by simp [refund], hstatus,
        by simp [refund], id⟩
    have hheld : ((refund (r.version + 1)).apply r).held = 0 := rfl
    have hold : r.held = r.preConsumed := by simp [held, hstatus]
    split at hmutate
    · simp only [ok_iff, Prod.exists] at hmutate
      obtain ⟨applied, _, hmutate, rfl⟩ := hmutate
      have hrecords := applySubscriptionQuotaMutationTx_records hmutate
      have heff := hold_moved_effect hr hk hmutate rfl hmove rfl (by omega)
        (by decide +kernel)
        (fun t hreq htype _ => by
          have htype' : t.transactionType = "preconsume_refund" := htype.trans (by decide +kernel)
          refine ⟨⟨hreq, .inr (.inr (.inr ⟨htype', rfl⟩))⟩, ?_⟩
          rintro ⟨-, hkind⟩
          rw [htype'] at hkind
          simp [hstatus] at hkind)
      have hrow := byKey_updateRecord hr (refund (r.version + 1))
      rw [← hrecords] at hrow
      exact ⟨.inr heff, _, hrow, rfl⟩
    · next hzero =>
      cases hmutate
      have hrk : r.requestId = k := (byKey_eq_some.mp hr).2
      refine ⟨.inr (.closed r _ (by rw [hheld, hrk]) ⟨rfl, rfl, rfl⟩ hrmem hmove rfl fun hnn => ?_), _,
        byKey_updateRecord hr _, rfl⟩
      omega

end Prox
