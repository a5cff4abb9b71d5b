import Prox.Model.Journal

/-! # Redemption codes

Runs of `Redeem` with the edits and deletions of codes by administrators. A code credits its user through the
wallet journal, under a key that is used once, while its status decides whether it can be redeemed. An
administrator can set the status back; the key remains used. -/

namespace Prox

open List Option

/-! ## Calls -/

/-- The checks that `Redeem` starts with. -/
def checkRedeem (key : String) (userId : Int) : Except Err Unit := do
  failIf (key = "") (.text "未提供兑换码")
  failIf (userId = 0) (.text "无效的 user id")

/-- `Redeem`: the quota that it returns. -/
def redeem (env : PaymentEnv) (fault : Option Err) (key : String) (userId : Int) (db : PaymentDB) :
    Except Err Int × PaymentDB :=
  checked (checkRedeem key userId) (fun _ =>
    reportAs (.sentinel .redeemFailed) (transaction fault (redeemTx env key userId))) db

/-- The columns that `Redemption.Update` writes. -/
def Redemption.update (status : RedemptionStatus) (quota redeemedTime expiredTime : Int) : Patch Redemption where
  apply r := { r with status, quota, redeemedTime, expiredTime }
  id_apply _ := rfl
  key_apply _ := rfl

/-- The soft deletion. -/
def Redemption.delete : Patch Redemption where
  apply r := { r with deleted := true }
  id_apply _ := rfl
  key_apply _ := rfl

/-- What happens to the codes. An edit writes what the administrator or an earlier read gave, so nothing is said of
its values. -/
inductive RedemptionEvent where
  | redeem (env : PaymentEnv) (fault : Option Err) (key : String) (userId : Int)
  | update (id : Int) (status : RedemptionStatus) (quota redeemedTime expiredTime : Int)
  | delete (id : Int)
  | deleteInvalid (now : Int)

/-- The tables after an event. -/
def PaymentDB.redemptionStep (db : PaymentDB) : RedemptionEvent → PaymentDB
  | .redeem env fault key userId => (redeem env fault key userId db).2
  | .update id status quota redeemedTime expiredTime =>
    { db with redemptions := (db.redemptions.updateWhere (fun r => r.id = id ∧ r.deleted = false)
      (Redemption.update status quota redeemedTime expiredTime)).1 }
  | .delete id =>
    { db with redemptions := (db.redemptions.updateWhere (fun r => r.id = id ∧ r.deleted = false)
      Redemption.delete).1 }
  | .deleteInvalid now =>
    { db with redemptions := (db.redemptions.updateWhere (fun r => r.deleted = false ∧
      (r.status = .used ∨ r.status = .disabled ∨
        r.status = .enabled ∧ r.expiredTime ≠ 0 ∧ r.expiredTime < now)) Redemption.delete).1 }

/-- A code that `Redeem` accepts. -/
def Redemption.Redeemable (r : Redemption) (now : Int) : Prop :=
  r.deleted = false ∧ r.status = .enabled ∧ ¬ (r.expiredTime ≠ 0 ∧ r.expiredTime < now)

/-- The journal key of the credit of a code. -/
def Redemption.creditKey (r : Redemption) : String := trimSpace s!"redemption:{r.id}"

variable {db : PaymentDB} {env : PaymentEnv} {fault : Option Err} {key : String} {userId id : Int}

/-- `Redeem` fails and changes nothing, or it spends an enabled code and leaves the credit to the journal. -/
theorem redeem_cases (env : PaymentEnv) (fault : Option Err) (key : String) (userId : Int) (db : PaymentDB) :
    (∃ e, redeem env fault key userId db = (.error e, db)) ∨
      ∃ r w, db.redemptions.byKey key = some r ∧ r.Redeemable env.now ∧
        redeem env fault key userId db = (.ok r.quota, { db with
          wallet := w
          redemptions := (db.redemptions.updateWhere (fun x => x.id = r.id)
            (Redemption.redeem env.now userId)).1 }) ∧
        ((w = db.wallet ∧ ∃ t, db.wallet.transactions.byKey r.creditKey = some t ∧ t.userId = userId ∧
          t.deltaQuota = r.quota) ∨
          ∃ t, Posting db.wallet w t ∧ t.userId = userId ∧ t.deltaQuota = r.quota) := by
  have hchecked : (∃ e, redeem env fault key userId db = (.error e, db)) ∨
      ∃ q db', redeemTx env key userId db = .ok (q, db') ∧ redeem env fault key userId db = (.ok q, db') := by
    unfold redeem
    cases checkRedeem key userId with
    | error e => exact .inl ⟨e, rfl⟩
    | ok u =>
      rw [checked_ok rfl, reportAs]
      rcases transaction_cases fault (redeemTx env key userId) db with ⟨e, he⟩ | ⟨q, db', hbody, he⟩
      · rw [he]
        exact .inl ⟨_, rfl⟩
      · rw [he]
        exact .inr ⟨q, db', hbody, rfl⟩
  refine hchecked.imp_right fun ⟨q, db', hbody, hredeem⟩ => ?_
  rw [hredeem]
  simp only [redeemTx] at hbody
  split at hbody
  · cases hbody
  · next r hr =>
    simp only [bind_eq_ok, failIf_eq_ok, exists_const, Prod.exists, pure_eq_ok, Prod.mk.injEq, Bool.not_eq_true,
      not_not] at hbody
    obtain ⟨hdeleted, hstatus, hexpired, applied, w, happly, rfl, rfl⟩ := hbody
    refine ⟨r, w, hr, ⟨hdeleted, hstatus, hexpired⟩, rfl, ?_⟩
    rcases applyUserQuotaMutationTx_cases happly with ⟨-, hw, t, ht⟩ | ⟨-, -, t, hpost, -, -, ht⟩
    · exact .inl ⟨hw, t, ht⟩
    · exact .inr ⟨t, hpost, ht⟩

/-! ## Runs -/

/-- A call that reaches a code is not taken for a replay: the journal has no credit of the code to the same user with
the same quota. -/
def PaymentDB.Unspent (db : PaymentDB) : RedemptionEvent → Prop
  | .redeem env _ key userId => ∀ r, db.redemptions.byKey key = some r → r.Redeemable env.now →
    ∀ t, db.wallet.transactions.byKey r.creditKey = some t → t.userId = userId → t.deltaQuota ≠ r.quota
  | _ => True

/-- A call that succeeds moves the quota that it returns to the caller and to nobody else, and one that fails changes
nothing. -/
def PaymentDB.Redeems (db : PaymentDB) : RedemptionEvent → Prop
  | .redeem env fault key userId =>
    match redeem env fault key userId db with
    | (.error _, db') => db' = db
    | (.ok q, db') => ∃ b, db.wallet.balance userId = some b ∧ db'.wallet.balance userId = some (b + q) ∧
      ∀ i ≠ userId, db'.wallet.balance i = db.wallet.balance i
  | _ => True

/-- **Step lemma**: a call that is not taken for a replay moves what it returns. -/
theorem PaymentDB.Unspent.redeems {e : RedemptionEvent} (h : db.Unspent e) : db.Redeems e := by
  cases e with
  | update | delete | deleteInvalid => trivial
  | redeem env fault key userId =>
    rcases redeem_cases env fault key userId db with ⟨e, he⟩ | ⟨r, w, hr, hopen, heq, hcredit⟩
    · simp only [Redeems, he]
    · simp only [Redeems, heq]
      rcases hcredit with ⟨-, t, ht, huser, hquota⟩ | ⟨t, hpost, rfl, hquota⟩
      · exact absurd hquota (h r hr hopen t ht huser)
      · obtain ⟨u, hu, -⟩ := hpost.user
        have hbalance : db.wallet.balance t.userId = some u.quota := by rw [Wallet.balance, hu, map_some]
        refine ⟨u.quota, hbalance, ?_, fun i hi => ?_⟩
        · rw [hpost.balance, if_pos rfl, hquota, hbalance, map_some]
        · rw [hpost.balance, if_neg (Ne.symm hi)]
          simp

/-- The code that an event redeems, with the user. -/
def PaymentDB.redeemed (db : PaymentDB) : RedemptionEvent → Option (Int × Int)
  | .redeem env fault key userId =>
    match (redeem env fault key userId db).1 with
    | .error _ => none
    | .ok _ => (db.redemptions.byKey key).map fun r => (r.id, userId)
  | _ => none

/-- The codes that a run redeems. -/
def PaymentDB.redeemedAll (db : PaymentDB) : List RedemptionEvent → List (Int × Int)
  | [] => []
  | e :: es => (db.redeemed e).toList ++ (db.redemptionStep e).redeemedAll es

/-- An edit of the code. -/
def RedemptionEvent.Edits (id : Int) : RedemptionEvent → Prop
  | .update id' .. => id' = id
  | _ => False

/-- The code is there no more or it is not enabled. -/
def PaymentDB.Spent (db : PaymentDB) (id : Int) : Prop :=
  ∀ r, db.redemptions.byId id = some r → r.status ≠ .enabled

/-- Only an assignment that enables a code makes it redeemable again. -/
theorem PaymentDB.Spent.updateWhere (h : db.Spent id) {p : Redemption → Bool} {patch : Patch Redemption}
    (hpatch : ∀ r, p r = true → r.id = id → (patch.apply r).status = .enabled → r.status = .enabled) (w : Wallet) :
    ({ db with wallet := w, redemptions := (db.redemptions.updateWhere p patch).1 } : PaymentDB).Spent id := by
  intro r' hr'
  rw [show ({ db with wallet := w, redemptions := _ } : PaymentDB).redemptions.byId id = _ from
    Table.byId_updateWhere id] at hr'
  obtain ⟨r, hr, rfl⟩ := map_eq_some_iff.mp hr'
  split
  · next hp => exact fun hstatus => h r hr (hpatch r hp (Table.byId_eq_some.mp hr).2 hstatus)
  · exact h r hr

/-- A code that is not enabled is not redeemed, and only an edit of it can enable it. -/
theorem PaymentDB.Spent.step (h : db.Spent id) {e : RedemptionEvent} (he : ¬ e.Edits id) :
    (db.redemptionStep e).Spent id ∧ ∀ user, db.redeemed e ≠ some (id, user) := by
  cases e with
  | update id' status =>
    refine ⟨h.updateWhere (fun r hp hid _ => absurd ?_ he) _, nofun⟩
    have hid' : r.id = id' := (of_decide_eq_true hp).1
    exact hid'.symm.trans hid
  | delete id' => exact ⟨h.updateWhere (fun _ _ _ hstatus => hstatus) _, nofun⟩
  | deleteInvalid now => exact ⟨h.updateWhere (fun _ _ _ hstatus => hstatus) _, nofun⟩
  | redeem env fault key userId =>
    unfold redemptionStep redeemed
    rcases redeem_cases env fault key userId db with ⟨e, he⟩ | ⟨r, w, hr, hopen, heq, -⟩
    · simp only [he]
      exact ⟨h, nofun⟩
    · simp only [heq, hr, map_some]
      refine ⟨h.updateWhere (fun _ _ _ hstatus => by cases hstatus) w, fun user huser => ?_⟩
      obtain ⟨rfl, -⟩ := Prod.mk.inj (Option.some.inj huser)
      exact h r (Table.byId_eq_some.mpr ⟨(Table.byKey_eq_some.mp hr).1, rfl⟩) hopen.2.1

/-- A code is not enabled after it has been redeemed. -/
theorem PaymentDB.spent_of_redeemed {e : RedemptionEvent} {user : Int} (h : db.redeemed e = some (id, user)) :
    (db.redemptionStep e).Spent id := by
  cases e with
  | update | delete | deleteInvalid => cases h
  | redeem env fault key userId =>
    unfold redemptionStep
    unfold redeemed at h
    rcases redeem_cases env fault key userId db with ⟨e, he⟩ | ⟨r, w, hr, -, heq, -⟩
    · simp only [he] at h
      cases h
    · simp only [heq, hr, map_some, Option.some.injEq, Prod.mk.injEq] at h ⊢
      obtain ⟨rfl, rfl⟩ := h
      intro r' hr'
      rw [show PaymentDB.redemptions _ = _ from rfl, Table.byId_updateWhere] at hr'
      obtain ⟨r₀, hr₀, rfl⟩ := map_eq_some_iff.mp hr'
      have hid : r₀.id = r.id := (Table.byId_eq_some.mp hr₀).2
      rw [if_pos (decide_eq_true hid)]
      rintro ⟨⟩

variable {es : List RedemptionEvent}

/-- Without edits a code that is not enabled is not redeemed. -/
theorem PaymentDB.Spent.redeemedAll (h : db.Spent id) (hes : ∀ e ∈ es, ¬ e.Edits id) :
    ∀ c ∈ db.redeemedAll es, c.1 ≠ id := by
  induction es generalizing db with
  | nil => exact nofun
  | cons e es ih =>
    obtain ⟨he, hes⟩ := forall_mem_cons.mp hes
    obtain ⟨hspent, hnot⟩ := h.step he
    rintro ⟨_, user⟩ hc rfl
    rcases mem_append.mp hc with hc | hc
    · exact hnot user (mem_toList.mp hc)
    · exact ih hspent hes _ hc rfl

/-- **Between two edits a code is redeemed once.** -/
theorem PaymentDB.redeemedAll_le (db : PaymentDB) (hes : ∀ e ∈ es, ¬ e.Edits id) :
    (db.redeemedAll es).countP (·.1 = id) ≤ 1 := by
  induction es generalizing db with
  | nil => exact Nat.zero_le 1
  | cons e es ih =>
    have hrest := (forall_mem_cons.mp hes).2
    rw [redeemedAll, countP_append]
    by_cases hid : ∃ user, db.redeemed e = some (id, user)
    · obtain ⟨user, hredeemed⟩ := hid
      have hzero : ((db.redemptionStep e).redeemedAll es).countP (·.1 = id) = 0 :=
        countP_eq_zero.mpr fun c hc h =>
          (spent_of_redeemed hredeemed).redeemedAll hrest c hc (of_decide_eq_true h)
      rw [hzero, hredeemed]
      exact countP_le_length
    · have hzero : (db.redeemed e).toList.countP (·.1 = id) = 0 := by
        refine countP_eq_zero.mpr fun c hc h => hid ⟨c.2, ?_⟩
        rw [mem_toList.mp hc, ← of_decide_eq_true h]
      rw [hzero, Nat.zero_add]
      exact ih _ hrest

/-- **Redemptions are lawful** in every run in which no call is taken for a replay: a call that succeeds has moved what
it returns to its caller, one that fails has changed nothing, and between two edits a code is redeemed once. -/
theorem redemptions_lawful (db : PaymentDB) (es : List RedemptionEvent)
    (h : Along PaymentDB.redemptionStep PaymentDB.Unspent db es) :
    Along PaymentDB.redemptionStep PaymentDB.Redeems db es ∧
      ∀ es₁ es₂ es₃ id, es = es₁ ++ es₂ ++ es₃ → (∀ e ∈ es₂, ¬ e.Edits id) →
        ((run PaymentDB.redemptionStep db es₁).redeemedAll es₂).countP (·.1 = id) ≤ 1 := by
  refine ⟨along_of_keeps (I := fun _ => True) (fun _ _ _ _ => trivial) (fun _ _ _ h => h.redeems) trivial h, ?_⟩
  intro es₁ es₂ es₃ id _ hes₂
  exact PaymentDB.redeemedAll_le _ hes₂

/-- A user with five units of quota and a code for a hundred. -/
def sampleCodes : PaymentDB where
  wallet := .ofUser 5 ""
  topUps := .empty
  redemptions := ⟨[{ id := 1, key := "code", quota := 100 }], by decide, by decide, by decide⟩

theorem redemptions_lawful_first : sampleCodes.Redeems (.redeem ⟨100, 10⟩ none "code" 1) := by
  have hunspent : sampleCodes.Unspent (.redeem ⟨100, 10⟩ none "code" 1) := fun _ _ _ _ ht => by cases ht
  exact (redemptions_lawful sampleCodes [.redeem ⟨100, 10⟩ none "code" 1] ⟨hunspent, trivial⟩).1.1

/-- A code that an administrator enables again is redeemed by the same user with success and without a credit. -/
theorem redeemed_without_credit :
    let db := run PaymentDB.redemptionStep sampleCodes
      [.redeem ⟨100, 10⟩ none "code" 1, .update 1 .enabled 100 100 0]
    (redeem ⟨101, 10⟩ none "code" 1 db).1.toOption = some 100 ∧ db.wallet.balance 1 = some 105 ∧
      (redeem ⟨101, 10⟩ none "code" 1 db).2.wallet.balance 1 = some 105 := by
  decide +kernel

end Prox
