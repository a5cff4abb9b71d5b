import Prox.Batch.Conservation

/-! # Concurrent pre-consumption

`PreConsumeTokenQuota` reads a token, compares, and only then decreases its quota, at once or through the
batch updater. Between the two steps other calls read the same quota. What accepted calls have left of a
token is its stored quota and what is on its way to it; as long as no call passes its check on a copy that
shows more than it can then afford, all calls together stay within the quota. -/

namespace Prox

open CounterUpdate List

/-! ## Accepted calls -/

/-- The check of a call passes on a copy of the token and the call goes on to decrease its quota. -/
def PreConsume.passes (c : PreConsume) : Option Int → Bool
  | none => false
  | some remainQuota =>
    0 ≤ c.quota && !c.isPlayground && (c.tokenUnlimited || c.quota ≤ remainQuota)

/-- What the next step of a thread accepts to take from a token. -/
def CounterThread.preConsumes (tokenId : Int) (cached : Option Int) (db : CounterDB) :
    CounterThread → Int
  | .preConsume c _ =>
    if c.tokenId = tokenId ∧ c.passes (db.remainQuota cached c.tokenId) then c.quota else 0
  | _ => 0

/-- A thread that takes nothing from a token on the copy it reads, or no more than there is left. -/
def CounterThread.Covered (tokenId left : Int) (cached : Option Int) (db : CounterDB) :
    CounterThread → Prop
  | .preConsume c _ =>
    c.tokenId = tokenId → c.passes (db.remainQuota cached c.tokenId) → c.quota ≤ left
  | _ => True

/-- An event that changes the quota of a token through pre-consumption only. -/
def CounterEvent.OnlyPreConsumes (tokenId : Int) : CounterEvent → Prop
  | .begin _ (.increaseTokenQuota id _) | .begin _ (.decreaseTokenQuota id _) => id ≠ tokenId
  | .begin _ (.preConsumeTokenQuota c) => c.tokenId = tokenId → c.tokenUnlimited = false
  | _ => True

namespace CounterSystem

/-- What accepted calls have left of a token: its stored quota, and what is on its way to it. -/
def left (tokenId : Int) (s : CounterSystem) : Int :=
  (s.shared.db.value (.tokenRemain tokenId)).getD 0 + s.inBatch (.tokenRemain tokenId)
    + s.inCalls (.tokenRemain tokenId)

/-- What an event accepts to take from a token. -/
def preConsumes (tokenId : Int) (s : CounterSystem) : CounterEvent → Int
  | .step thread _ cached =>
    ((s.threads[thread]?).map (CounterThread.preConsumes tokenId cached s.shared.db)).getD 0
  | _ => 0

/-- The sum of the amounts that the calls of a run are accepted for. -/
def preConsumed (tokenId : Int) : CounterSystem → List CounterEvent → Int
  | _, [] => 0
  | s, e :: es => preConsumes tokenId s e + preConsumed tokenId (s.step e) es

/-- No call passes its check in this step on a copy that covers more than there is left. -/
def Covered (tokenId : Int) (s : CounterSystem) : CounterEvent → Prop
  | .step thread _ cached =>
    ∀ t, s.threads[thread]? = some t → t.Covered tokenId (s.left tokenId) cached s.shared.db
  | _ => True

/-- No call of a run passes its check on a copy that covers more than there is left. -/
def CoveredRun (tokenId : Int) : CounterSystem → List CounterEvent → Prop
  | _, [] => True
  | s, e :: es => s.Covered tokenId e ∧ CoveredRun tokenId (s.step e) es

end CounterSystem

section Decide

variable {c : PreConsume} {tokenId : Int} {t : CounterThread} {db : CounterDB} {s : CounterSystem}

/-- A call that passes its check goes on as `DecreaseTokenQuota`; any other ends. -/
theorem PreConsume.decide_eq (c : PreConsume) (batchUpdateEnabled : Bool) (remainQuota : Option Int) :
    c.decide batchUpdateEnabled remainQuota
      = if c.passes remainQuota then decreaseTokenQuotaActions batchUpdateEnabled c.tokenId c.quota
        else [] := by
  unfold decide passes
  cases remainQuota with
  | none => simp
  | some remainQuota =>
    by_cases hquota : c.quota < 0
    · simp [hquota]
    · by_cases hle : c.quota ≤ remainQuota
      · cases c.isPlayground <;> simp [hquota, Int.not_lt.mp hquota, Int.not_lt.mpr hle, hle]
      · cases c.isPlayground <;> cases c.tokenUnlimited <;>
          simp [Int.not_lt.mp hquota, hle]

/-- Only calls with a nonnegative quota pass. -/
theorem PreConsume.quota_nonneg {remainQuota : Option Int} (h : c.passes remainQuota) :
    0 ≤ c.quota := by
  cases remainQuota with
  | none => cases h
  | some remainQuota =>
    simp only [passes, Bool.and_eq_true, decide_eq_true_eq] at h
    exact h.1.1

/-- What the accesses of `DecreaseTokenQuota` take from a token. -/
theorem accessTotal_decrease (enabled : Bool) {id quota : Int} (hquota : 0 ≤ quota) :
    accessTotal (.tokenRemain tokenId) (decreaseTokenQuotaActions enabled id quota)
      = if id = tokenId then -quota else 0 := by
  cases enabled <;>
    simp [decreaseTokenQuotaActions, Int.not_lt.mpr hquota, accessTotal, CounterAccess.delta,
      delta, Counter.gets, Counter.type, Counter.id, Counter.sign]

/-- A call that is accepted will take its quota from the token. -/
theorem CounterThread.decides_eq (cached : Option Int) :
    t.decides (.tokenRemain tokenId) cached db = -t.preConsumes tokenId cached db := by
  cases t with
  | preConsume c enabled =>
    simp only [decides, preConsumes, PreConsume.decide_eq]
    by_cases hpasses : c.passes (db.remainQuota cached c.tokenId)
    · rw [if_pos hpasses, accessTotal_decrease enabled (PreConsume.quota_nonneg hpasses)]
      by_cases hid : c.tokenId = tokenId
      · rw [if_pos hid, if_pos ⟨hid, hpasses⟩]
      · rw [if_neg hid, if_neg fun h => hid h.1, Int.neg_zero]
    · rw [if_neg hpasses, if_neg fun h => hpasses h.2]
      rfl
  | _ => rfl

/-- What is taken from a token is never negative. -/
theorem CounterThread.preConsumes_nonneg (cached : Option Int) :
    0 ≤ t.preConsumes tokenId cached db := by
  cases t with
  | preConsume c enabled =>
    simp only [preConsumes]
    split
    · rename_i h
      exact PreConsume.quota_nonneg h.2
    · exact le_refl 0
  | _ => exact le_refl 0

/-- A thread is covered when what it takes is no more than there is left. -/
theorem CounterThread.covered_iff (cached : Option Int) {left : Int} :
    0 ≤ left ∧ t.Covered tokenId left cached db ↔ 0 ≤ left - t.preConsumes tokenId cached db := by
  have hnonneg : 0 ≤ t.preConsumes tokenId cached db := t.preConsumes_nonneg cached
  cases t with
  | preConsume c enabled =>
    simp only [Covered, preConsumes] at *
    by_cases h : c.tokenId = tokenId ∧ c.passes (db.remainQuota cached c.tokenId)
    · rw [if_pos h] at *
      constructor
      · rintro ⟨_, hcovered⟩
        have := hcovered h.1 h.2
        omega
      · intro hle
        exact ⟨by omega, fun _ _ => by omega⟩
    · rw [if_neg h, Int.sub_zero]
      exact ⟨And.left, fun hle => ⟨hle, fun hid hpasses => absurd ⟨hid, hpasses⟩ h⟩⟩
  | _ => simp [Covered, preConsumes]

end Decide

/-! ## What is left -/

namespace CounterSystem

variable {tokenId v : Int} {s : CounterSystem} {e : CounterEvent}

/-- What an event accepts for the remaining quota of a token is what pre-consumption takes. -/
theorem accepts_eq (h : e.OnlyPreConsumes tokenId) :
    accepts (.tokenRemain tokenId) s e = -preConsumes tokenId s e := by
  cases e with
  | begin enabled call =>
    cases call <;>
      simp_all [CounterEvent.OnlyPreConsumes, accepts, preConsumes, CounterCall.delta, Counter.gets,
        Counter.type, Counter.id]
  | beginPass => rfl
  | step thread pick cached =>
    simp only [accepts, preConsumes]
    cases s.threads[thread]? with
    | none => rfl
    | some t => exact t.decides_eq cached

/-- An event takes what it accepts from what is left of a token. -/
theorem left_step (hs : ∀ t ∈ s.threads, t.WellFormed)
    (hv : s.shared.db.value (.tokenRemain tokenId) = some v) (he : e.OnlyPreConsumes tokenId) :
    ∃ v', (s.step e).shared.db.value (.tokenRemain tokenId) = some v' ∧
      left tokenId (s.step e) = left tokenId s - preConsumes tokenId s e := by
  obtain ⟨v', hv', hstep⟩ := step_conserves hs hv e
  have hcalls := s.step_inCalls (c := .tokenRemain tokenId) e
  rw [accepts_eq he] at hcalls
  refine ⟨v', hv', ?_⟩
  simp only [left, hv, hv', Option.getD_some]
  omega

/-- A step is covered when what it takes is no more than there is left. -/
theorem covered_iff :
    0 ≤ s.left tokenId ∧ s.Covered tokenId e ↔ 0 ≤ s.left tokenId - preConsumes tokenId s e := by
  cases e with
  | begin | beginPass => simp [Covered, preConsumes]
  | step thread pick cached =>
    simp only [Covered, preConsumes]
    cases ht : s.threads[thread]? with
    | none => simp
    | some t => simpa using t.covered_iff cached

/-- The calls of a run stay within what is left of a token exactly when every one of them is covered. -/
theorem preConsumed_le_left_iff (hs : ∀ t ∈ s.threads, t.WellFormed)
    (hv : s.shared.db.value (.tokenRemain tokenId) = some v) {events : List CounterEvent}
    (hevents : ∀ e ∈ events, e.OnlyPreConsumes tokenId) :
    preConsumed tokenId s events ≤ s.left tokenId ↔
      0 ≤ s.left tokenId ∧ CoveredRun tokenId s events := by
  induction events generalizing s v with
  | nil => simp [preConsumed, CoveredRun]
  | cons e events ih =>
    have he := hevents e mem_cons_self
    obtain ⟨v', hv', hleft⟩ := left_step hs hv he
    have ih := ih (wellFormed_step hs e) hv' fun e' h => hevents e' (mem_cons_of_mem _ h)
    rw [hleft] at ih
    rw [preConsumed, CoveredRun, ← and_assoc, covered_iff, ← ih]
    constructor <;> intro h <;> omega

end CounterSystem

/-! ## Nothing comes back to the token -/

/-- A thread that has nothing on its way that would raise the quota of a token. -/
def CounterThread.Drains (tokenId : Int) : CounterThread → Prop
  | .call rest => ∀ a ∈ rest, a.delta (.tokenRemain tokenId) ≤ 0
  | .swap _ taken => taken.pending (.tokenRemain tokenId) ≤ 0
  | .flush loops => ∀ u ∈ loops.flatten, u.delta (.tokenRemain tokenId) ≤ 0
  | _ => True

/-- Nothing on its way would raise the quota of a token. -/
structure CounterSystem.Drained (tokenId : Int) (s : CounterSystem) : Prop where
  stores : s.shared.stores.pending (.tokenRemain tokenId) ≤ 0
  threads : ∀ t ∈ s.threads, t.Drains tokenId

section Drain

variable {tokenId : Int} {t : CounterThread} {s : CounterSystem} {e : CounterEvent}

/-- A write of a pass to a token is what the pass has taken for it. -/
theorem passLoops_delta {taken : QuotaStores} (h : taken.pending (.tokenRemain tokenId) ≤ 0) :
    ∀ u ∈ (passLoops taken).flatten, u.delta (.tokenRemain tokenId) ≤ 0 := by
  intro u hu
  simp only [passLoops, flatten_cons, flatten_nil, append_nil, mem_append,
    mem_map] at hu
  rcases hu with ⟨e, he, rfl⟩ | ⟨e, _, rfl⟩ | ⟨id, _, rfl⟩
  · have hlookup : (taken .tokenQuota).lookup e.1 = some e.2 :=
      mem_dlookup (taken .tokenQuota).nodupKeys he
    by_cases hid : e.1 = tokenId
    · subst hid
      simpa [QuotaStores.pending, QuotaStore.get, hlookup, delta, Counter.gets,
        Counter.type, Counter.id, Counter.sign] using h
    · simp [delta, Counter.gets, Counter.id, hid]
  · simp [delta, Counter.gets, Counter.type]
  · simp [delta, Counter.gets, Counter.type]

/-- The accesses that a call decides on only take. -/
theorem decide_delta (c : PreConsume) (enabled : Bool) (remainQuota : Option Int) :
    ∀ a ∈ c.decide enabled remainQuota, a.delta (.tokenRemain tokenId) ≤ 0 := by
  intro a ha
  rw [PreConsume.decide_eq] at ha
  by_cases hpasses : c.passes remainQuota
  · have hquota := PreConsume.quota_nonneg hpasses
    rw [if_pos hpasses] at ha
    simp only [decreaseTokenQuotaActions, if_neg (Int.not_lt.mpr hquota)] at ha
    cases enabled <;>
      (simp only [Bool.false_eq_true, if_true, if_false, mem_singleton] at ha; subst ha) <;>
      simp only [CounterAccess.delta, delta, Counter.gets, Counter.sign] <;>
      split <;> omega
  · rw [if_neg hpasses] at ha
    exact absurd ha not_mem_nil

/-- A step of a thread brings nothing back to a token. -/
theorem CounterThread.Drains.step {s : CounterState} (ht : t.Drains tokenId)
    (hs : s.stores.pending (.tokenRemain tokenId) ≤ 0) (pick : Nat) (cached : Option Int) :
    (t.step pick cached s).2.stores.pending (.tokenRemain tokenId) ≤ 0 ∧
      (t.step pick cached s).1.Drains tokenId := by
  fun_cases CounterThread.step pick cached t s with
  | case1 | case5 | case10 => exact ⟨hs, fun a ha => absurd ha not_mem_nil⟩
  | case2 type id value rest s =>
    have hrecord := ht _ mem_cons_self
    refine ⟨?_, fun a ha => ht a (mem_cons_of_mem _ ha)⟩
    simp only [CounterAccess.delta] at hrecord
    rw [pending_addNewRecord]
    omega
  | case3 u rest s => exact ⟨hs, fun a ha => ht a (mem_cons_of_mem _ ha)⟩
  | case4 c enabled s => exact ⟨hs, decide_delta c enabled _⟩
  | case6 => exact ⟨hs, trivial⟩
  | case7 => exact ⟨hs, by simp [Drains, QuotaStores.pending]⟩
  | case8 taken s => exact ⟨hs, passLoops_delta ht⟩
  | case9 type types taken s =>
    simp only [QuotaStores.pending, Drains, QuotaStores.set_apply] at *
    constructor <;> split <;> simp_all [Counter.sign]
  | case11 loops s => exact ⟨hs, ht⟩
  | case12 updates loops s _ _ => exact ⟨hs, ht⟩
  | case13 updates loops s _ u hpick =>
    refine ⟨hs, fun u' hu' => ht u' ?_⟩
    simp only [flatten_cons, mem_append] at hu' ⊢
    exact hu'.imp_left mem_of_mem_eraseIdx

/-- An access of a call that leaves the token alone. -/
theorem CounterCall.drains_begin {call : CounterCall} {enabled : Bool}
    (h : (CounterEvent.begin enabled call).OnlyPreConsumes tokenId) :
    (call.begin enabled).Drains tokenId := by
  cases call with
  | preConsumeTokenQuota c => trivial
  | increaseTokenQuota id quota =>
    have hid : id ≠ tokenId := h
    intro a ha
    simp only [increaseTokenQuotaActions] at ha
    split at ha
    · exact absurd ha not_mem_nil
    · cases enabled <;> simp_all [CounterAccess.delta, CounterUpdate.delta, Counter.gets, Counter.id]
  | decreaseTokenQuota id quota =>
    have hid : id ≠ tokenId := h
    intro a ha
    simp only [decreaseTokenQuotaActions] at ha
    split at ha
    · exact absurd ha not_mem_nil
    · cases enabled <;> simp_all [CounterAccess.delta, CounterUpdate.delta, Counter.gets, Counter.id]
  | updateUserUsedQuotaAndRequestCount id quota =>
    intro a ha
    cases enabled
    · simp_all [updateUserActions, CounterAccess.delta, CounterUpdate.delta, Counter.gets, Counter.type]
    · simp only [updateUserActions, if_true, mem_cons, not_mem_nil, or_false] at ha
      rcases ha with rfl | rfl <;> simp [CounterAccess.delta, Counter.gets, Counter.type]
  | updateChannelUsedQuota id quota =>
    intro a ha
    cases enabled <;>
      simp_all [updateChannelActions, CounterAccess.delta, CounterUpdate.delta, Counter.gets,
        Counter.type]

namespace CounterSystem

/-- Nothing comes back to the token in a step. -/
theorem Drained.step (hs : s.Drained tokenId) (he : e.OnlyPreConsumes tokenId) :
    (s.step e).Drained tokenId := by
  cases e with
  | begin enabled call => exact ⟨hs.stores, Pool.forall_spawn hs.threads (CounterCall.drains_begin he)⟩
  | beginPass => exact ⟨hs.stores, Pool.forall_spawn hs.threads trivial⟩
  | step thread pick cached =>
    refine Pool.stepAt_elim (P := Drained tokenId) (fun _ => hs) fun t ht => ?_
    have hstep := (hs.threads t (mem_of_getElem? ht)).step hs.stores pick cached
    exact ⟨hstep.1, Pool.forall_mem_set hs.threads hstep.2⟩

/-- What is left of the token is no more than what is stored of it. -/
theorem Drained.left_le (hs : s.Drained tokenId) {v : Int}
    (hv : s.shared.db.value (.tokenRemain tokenId) = some v) : s.left tokenId ≤ v := by
  have hpasses : s.total (CounterThread.pending (.tokenRemain tokenId)) ≤ 0 := by
    refine Pool.sum_map_nonpos fun t ht => ?_
    have hdrains := hs.threads t ht
    cases t with
    | swap types taken => exact hdrains
    | flush loops => exact Pool.sum_map_nonpos hdrains
    | _ => exact le_refl 0
  have hcalls : s.inCalls (.tokenRemain tokenId) ≤ 0 := by
    refine Pool.sum_map_nonpos fun t ht => ?_
    have hdrains := hs.threads t ht
    cases t with
    | call rest => exact Pool.sum_map_nonpos hdrains
    | _ => exact le_refl 0
  have hstores := hs.stores
  simp only [left, inBatch, hv, Option.getD_some]
  omega

/-- While every call of a run is covered, the stored quota of the token never falls below zero. -/
theorem CoveredRun.remain_nonneg {v : Int} {events : List CounterEvent}
    (hcovered : CoveredRun tokenId s events) (hleft : 0 ≤ s.left tokenId) (hdrained : s.Drained tokenId)
    (hs : ∀ t ∈ s.threads, t.WellFormed) (hv : s.shared.db.value (.tokenRemain tokenId) = some v)
    (hevents : ∀ e ∈ events, e.OnlyPreConsumes tokenId) (n : Nat) :
    ∃ r, 0 ≤ r ∧
      (run step s (events.take n)).shared.db.value (.tokenRemain tokenId) = some r := by
  induction events generalizing s v n with
  | nil => exact ⟨v, hleft.trans (hdrained.left_le hv), by simpa [run] using hv⟩
  | cons e events ih =>
    cases n with
    | zero => exact ⟨v, hleft.trans (hdrained.left_le hv), by simpa [run] using hv⟩
    | succ n =>
      have he := hevents e mem_cons_self
      obtain ⟨v', hv', hstep⟩ := left_step hs hv he
      have hleft' : 0 ≤ (s.step e).left tokenId := hstep ▸ covered_iff.mp ⟨hleft, hcovered.1⟩
      exact ih hcovered.2 hleft' (hdrained.step he) (wellFormed_step hs e) hv'
        (fun e' h => hevents e' (mem_cons_of_mem _ h)) n

end CounterSystem

end Drain

/-- A call for sixty of a limited token. -/
def sixty : CounterCall := .preConsumeTokenQuota ⟨1, false, false, 60⟩

/-- Two calls, one after the other, without batch updates. -/
def callsInTurn : List CounterEvent :=
  [.begin false sixty, .step 0 0 none, .step 0 0 none, .begin false sixty, .step 1 0 none, .step 1 0 none]

/-- Two calls that both read the token before either decreases its quota. -/
def callsAtOnce : List CounterEvent :=
  [.begin false sixty, .begin false sixty, .step 0 0 none, .step 1 0 none, .step 0 0 none, .step 1 0 none]

/-- Two calls, one after the other, while the batch updater holds the first decrease. -/
def callsBuffered : List CounterEvent :=
  [.begin true sixty, .step 0 0 none, .step 0 0 none, .begin true sixty, .step 1 0 none, .step 1 0 none]

end Prox
