import Mathlib.Data.List.Dedup
import Prox.Batch.Updater

/-! # No batched increment is lost

Whatever calls and passes do at the same time: what is stored of a counter, what waits in the batch stores
and what the passes have taken and not yet written add up to where the counter began and everything that
was recorded or written for it since. A pass that takes over a store and a call that adds to it never
meet, since both hold its lock. -/

namespace Prox

open CounterUpdate List Option

/-! ## Counters -/

/-- The counters: two of a token, two of a user and one of a channel. -/
inductive Counter where
  | tokenRemain (id : Int)
  | tokenUsed (id : Int)
  | userUsed (id : Int)
  | userRequests (id : Int)
  | channelUsed (id : Int)

/-- The store that collects the increments of a counter. -/
def Counter.type : Counter → BatchUpdateType
  | .tokenRemain _ | .tokenUsed _ => .tokenQuota
  | .userUsed _ => .usedQuota
  | .userRequests _ => .requestCount
  | .channelUsed _ => .channelUsedQuota

/-- The row of a counter. -/
def Counter.id : Counter → Int
  | .tokenRemain id | .tokenUsed id | .userUsed id | .userRequests id | .channelUsed id => id

/-- The used quota of a token falls when its remaining quota rises. -/
def Counter.sign : Counter → Int
  | .tokenUsed _ => -1
  | _ => 1

/-- What a counter gets of a value for the row of a kind. -/
def Counter.gets (c : Counter) (type : BatchUpdateType) (id value : Int) : Int :=
  if type = c.type ∧ id = c.id then c.sign * value else 0

/-- The stored value of a counter, if its row is there. -/
def CounterDB.value (db : CounterDB) : Counter → Option Int
  | .tokenRemain id => (db.tokens.byId id).map Token.remainQuota
  | .tokenUsed id => (db.tokens.byId id).map Token.usedQuota
  | .userUsed id => (db.users.byId id).map UserCounters.usedQuota
  | .userRequests id => (db.users.byId id).map UserCounters.requestCount
  | .channelUsed id => (db.channels.byId id).map Channel.usedQuota

/-- What an update adds to a counter. -/
def CounterUpdate.delta (c : Counter) : CounterUpdate → Int
  | .increaseTokenQuota id quota => c.gets .tokenQuota id quota
  | .decreaseTokenQuota id quota => c.gets .tokenQuota id (-quota)
  | .updateChannelUsedQuota id quota => c.gets .channelUsedQuota id quota
  | .updateUserUsedQuotaAndRequestCount id quota count =>
    c.gets .usedQuota id quota + c.gets .requestCount id count

/-- What an access of a call adds to a counter, at once or in a store. -/
def CounterAccess.delta (c : Counter) : CounterAccess → Int
  | .update u => u.delta c
  | .record type id value => c.gets type id value

/-- What a call adds to a counter when it is accepted; `PreConsumeTokenQuota` is accepted later. -/
def CounterCall.delta (c : Counter) : CounterCall → Int
  | .increaseTokenQuota id quota => if quota < 0 then 0 else c.gets .tokenQuota id quota
  | .decreaseTokenQuota id quota => if quota < 0 then 0 else c.gets .tokenQuota id (-quota)
  | .updateUserUsedQuotaAndRequestCount id quota => c.gets .usedQuota id quota + c.gets .requestCount id 1
  | .updateChannelUsedQuota id quota => c.gets .channelUsedQuota id quota
  | .preConsumeTokenQuota _ => 0

/-- The sum of a list of accesses for a counter. -/
def accessTotal (c : Counter) (accesses : List CounterAccess) : Int :=
  (accesses.map (CounterAccess.delta c)).sum

/-! ## Where the increments are -/

/-- What the stores hold for a counter. -/
def QuotaStores.pending (c : Counter) (stores : QuotaStores) : Int :=
  c.sign * (stores c.type).get c.id

namespace CounterThread

/-- What a pass has taken for a counter and not yet written. -/
def pending (c : Counter) : CounterThread → Int
  | .swap _ stores => stores.pending c
  | .flush loops => (loops.flatten.map (CounterUpdate.delta c)).sum
  | _ => 0

/-- What an accepted call has still to record or write for a counter. -/
def toRecord (c : Counter) : CounterThread → Int
  | .call rest => accessTotal c rest
  | _ => 0

/-- What the next step of a thread records or writes for a counter. -/
def records (c : Counter) : CounterThread → Int
  | .call (a :: _) => a.delta c
  | _ => 0

/-- What `PreConsumeTokenQuota` accepts for a counter when it reads the token. -/
def decides (c : Counter) (cached : Option Int) (db : CounterDB) : CounterThread → Int
  | .preConsume p batchUpdateEnabled =>
    accessTotal c (p.decide batchUpdateEnabled (db.remainQuota cached p.tokenId))
  | _ => 0

/-- A pass has nothing yet of the stores it has still to swap. -/
def WellFormed : CounterThread → Prop
  | .swap types stores => types.Nodup ∧ ∀ type ∈ types, stores type = ∅
  | _ => True

end CounterThread

namespace CounterSystem

/-- What the batch stores and the passes in progress hold for a counter. -/
def inBatch (c : Counter) (s : CounterSystem) : Int :=
  s.shared.stores.pending c + s.total (CounterThread.pending c)

/-- What accepted calls have still to record or write for a counter. -/
def inCalls (c : Counter) (s : CounterSystem) : Int := s.total (CounterThread.toRecord c)

/-- What an event records or writes for a counter on behalf of a call. -/
def records (c : Counter) (s : CounterSystem) : CounterEvent → Int
  | .step thread _ _ => ((s.threads[thread]?).map (CounterThread.records c)).getD 0
  | _ => 0

/-- What an event accepts for a counter: a call that begins, or one that passes its check. -/
def accepts (c : Counter) (s : CounterSystem) : CounterEvent → Int
  | .begin _ call => call.delta c
  | .beginPass => 0
  | .step thread _ cached =>
    ((s.threads[thread]?).map (CounterThread.decides c cached s.shared.db)).getD 0

/-- What a run records or writes for a counter on behalf of calls. -/
def recorded (c : Counter) : CounterSystem → List CounterEvent → Int
  | _, [] => 0
  | s, e :: es => records c s e + recorded c (s.step e) es

/-- The increments of a counter that a run accepts. -/
def accepted (c : Counter) : CounterSystem → List CounterEvent → Int
  | _, [] => 0
  | s, e :: es => accepts c s e + accepted c (s.step e) es

end CounterSystem

/-- What the columns of a token add up to. -/
def CounterDB.tokenTotal (db : CounterDB) (id : Int) : Option Int :=
  (db.tokens.byId id).map fun t => t.remainQuota + t.usedQuota

/-! ## Updates and stores -/

section Stores

variable {stores : QuotaStores} {c : Counter}

/-- A counter gets nothing of another kind. -/
theorem Counter.gets_of_ne {type : BatchUpdateType} (h : type ≠ c.type) (id value : Int) :
    c.gets type id value = 0 := by
  simp [gets, h]

/-- A column after an update of one row. -/
theorem byId_map_updateWhere {α κ : Type} [Row α κ] (t : Table α) (f : Patch α) (col : α → Int)
    {id id' d d' : Int} (hcol : ∀ r, col (f.apply r) = col r + d)
    (hd : d' = if id = id' then d else 0) :
    ((t.updateWhere (fun r => Row.id r = id) f).1.byId id').map col
      = ((t.byId id').map col).map (· + d') := by
  rw [Table.byId_updateWhere, hd]
  cases h : t.byId id' with
  | none => rfl
  | some r =>
    have hid : Row.id r = id' := (Table.byId_eq_some.mp h).2
    simp only [map_some, hid]
    by_cases heq : id = id'
    · simp [heq, hcol]
    · simp [heq, Ne.symm heq]

/-- An update that does not touch a column. -/
theorem value_map_gets {v : Option Int} {type : BatchUpdateType} (h : type ≠ c.type) (id value : Int) :
    v = v.map (· + c.gets type id value) := by
  simp [Counter.gets_of_ne h]

/-- A charge of a token, seen at a counter. -/
theorem value_charge (db : CounterDB) (id quota : Int) (c : Counter) :
    CounterDB.value { db with
        tokens := (db.tokens.updateWhere (fun t => t.id = id) (Token.charge quota)).1 } c
      = (db.value c).map (· + c.gets .tokenQuota id (-quota)) := by
  cases c with
  | tokenRemain id' =>
    exact byId_map_updateWhere db.tokens (Token.charge quota) Token.remainQuota (d := -quota)
      (fun r => Int.sub_eq_add_neg) (by simp [Counter.gets, Counter.type, Counter.id, Counter.sign])
  | tokenUsed id' =>
    exact byId_map_updateWhere db.tokens (Token.charge quota) Token.usedQuota (d := quota)
      (fun r => rfl) (by simp [Counter.gets, Counter.type, Counter.id, Counter.sign])
  | _ => exact value_map_gets (by simp [Counter.type]) id (-quota)

/-- An update adds its delta to every counter. -/
theorem CounterUpdate.value_apply (u : CounterUpdate) (db : CounterDB) (c : Counter) :
    (u.apply db).value c = (db.value c).map (· + u.delta c) := by
  cases u with
  | increaseTokenQuota id quota =>
    have hcharge := value_charge db id (-quota) c
    rwa [Int.neg_neg] at hcharge
  | decreaseTokenQuota id quota => exact value_charge db id quota c
  | updateChannelUsedQuota id quota =>
    cases c with
    | channelUsed id' =>
      exact byId_map_updateWhere db.channels (Channel.addUsed quota) Channel.usedQuota (d := quota)
        (fun r => rfl) (by simp [delta, Counter.gets, Counter.type, Counter.id, Counter.sign])
    | _ => exact value_map_gets (by simp [Counter.type]) id quota
  | updateUserUsedQuotaAndRequestCount id quota count =>
    cases c with
    | userUsed id' =>
      exact byId_map_updateWhere db.users (UserCounters.add quota count) UserCounters.usedQuota
        (d := quota) (fun r => rfl)
        (by simp [delta, Counter.gets, Counter.type, Counter.id, Counter.sign])
    | userRequests id' =>
      exact byId_map_updateWhere db.users (UserCounters.add quota count) UserCounters.requestCount
        (d := count) (fun r => rfl)
        (by simp [delta, Counter.gets, Counter.type, Counter.id, Counter.sign])
    | _ => simp [CounterDB.value, apply, delta, Counter.gets, Counter.type, Function.comp_def]

/-- An update moves quota between the columns of a token. -/
theorem CounterUpdate.tokenTotal_apply (u : CounterUpdate) (db : CounterDB) (id : Int) :
    (u.apply db).tokenTotal id = db.tokenTotal id := by
  have hcharge : ∀ id' quota : Int, CounterDB.tokenTotal { db with
      tokens := (db.tokens.updateWhere (fun t => t.id = id') (Token.charge quota)).1 } id
        = db.tokenTotal id := by
    intro id' quota
    refine (byId_map_updateWhere db.tokens (Token.charge quota) (fun t => t.remainQuota + t.usedQuota)
      (fun t => ?_) (by simp : (0 : Int) = if id' = id then 0 else 0)).trans
      (by simp [CounterDB.tokenTotal, Function.comp_def])
    simp only [Token.charge]
    omega
  cases u with
  | increaseTokenQuota id' quota => exact hcharge id' (-quota)
  | decreaseTokenQuota id' quota => exact hcharge id' quota
  | _ => rfl

@[simp] theorem QuotaStores.set_apply (type type' : BatchUpdateType) (store : QuotaStore) :
    stores.set type store type' = if type' = type then store else stores type' := by
  simp [QuotaStores.set, Function.update_apply]

@[simp] theorem QuotaStore.get_empty (id : Int) : QuotaStore.get ∅ id = 0 := rfl

/-- A store after an insertion. -/
theorem QuotaStore.get_insert (store : QuotaStore) (id id' value : Int) :
    QuotaStore.get (store.insert id value) id' = if id = id' then value else store.get id' := by
  by_cases h : id' = id
  · rw [if_pos h.symm, h, QuotaStore.get, AList.lookup_insert, getD_some]
  · rw [if_neg (Ne.symm h), QuotaStore.get, AList.lookup_insert_ne h, QuotaStore.get]

theorem pending_addNewRecord (type : BatchUpdateType) (id value : Int) :
    (addNewRecord stores type id value).pending c = stores.pending c + c.gets type id value := by
  have hget : (addNewRecord stores type id value c.type).get c.id
      = (stores c.type).get c.id + if type = c.type ∧ id = c.id then value else 0 := by
    by_cases htype : type = c.type
    · subst htype
      unfold addNewRecord
      by_cases hid : id = c.id
      · subst hid
        cases hlookup : (stores c.type).lookup c.id <;> simp [QuotaStore.get, hlookup]
      · cases hlookup : (stores c.type).lookup id <;> simp [QuotaStore.get_insert, hid]
    · simp [addNewRecord, htype, Ne.symm htype]
  unfold QuotaStores.pending
  rw [hget, Counter.gets, mul_add]
  split <;> simp

/-- A pass that swaps a store takes over what it holds. -/
theorem pending_swap (stores taken : QuotaStores) {type : BatchUpdateType} (h : taken type = ∅) :
    (stores.set type ∅).pending c + (taken.set type (stores type)).pending c
      = stores.pending c + taken.pending c := by
  simp only [QuotaStores.pending, QuotaStores.set_apply]
  by_cases htype : c.type = type
  · simp [htype, h]
  · simp [htype]

/-! ## What a pass writes -/

/-- The values of a list of rows, seen at a counter. -/
theorem sum_gets (type : BatchUpdateType) {ids : List Int} (hnodup : ids.Nodup) (f : Int → Int)
    (hf : c.id ∉ ids → f c.id = 0) :
    (ids.map fun id => c.gets type id (f id)).sum = if type = c.type then c.sign * f c.id else 0 := by
  by_cases htype : type = c.type
  · have hsum : ∀ ids : List Int, ids.Nodup → (ids.map fun id => c.gets type id (f id)).sum
        = if c.id ∈ ids then c.sign * f c.id else 0 := by
      intro ids hnodup
      induction ids with
      | nil => rfl
      | cons id ids ih =>
        obtain ⟨hnot, hnodup⟩ := nodup_cons.mp hnodup
        rw [map_cons, sum_cons, ih hnodup]
        by_cases hid : id = c.id
        · subst hid
          simp [Counter.gets, htype, hnot]
        · simp [Counter.gets, hid, Ne.symm hid]
    rw [hsum ids hnodup]
    split
    · rfl
    · rename_i hnot
      rw [hf hnot, mul_zero]
  · simp [Counter.gets, htype]

theorem QuotaStore.get_of_notMem {store : QuotaStore} {id : Int} (h : id ∉ store.keys) :
    store.get id = 0 := by
  rw [QuotaStore.get, AList.lookup_eq_none.mpr h, getD_none]

/-- The values of the entries of a store, seen at a counter. -/
theorem sum_entries (type : BatchUpdateType) (store : QuotaStore) :
    (store.entries.map fun e => c.gets type e.1 e.2).sum
      = if type = c.type then c.sign * store.get c.id else 0 := by
  have hkeys : store.entries.map (fun e => c.gets type e.1 e.2)
      = store.keys.map fun id => c.gets type id (store.get id) := by
    rw [AList.keys, List.keys, List.map_map]
    refine map_congr_left fun e he => ?_
    have hlookup : store.lookup e.1 = some e.2 := mem_dlookup store.nodupKeys he
    simp [QuotaStore.get, hlookup]
  rw [hkeys]
  exact sum_gets type store.keys_nodup store.get QuotaStore.get_of_notMem

/-- The loops of a pass write what it has taken: every key of a store once, and the users of either store
once for both. -/
theorem sum_passLoops (taken : QuotaStores) :
    ((passLoops taken).flatten.map (delta c)).sum = taken.pending c := by
  have hnodup : ((taken .usedQuota).keys ++ (taken .requestCount).keys).dedup.Nodup :=
    nodup_dedup _
  have hused := sum_gets (c := c) .usedQuota hnodup (taken .usedQuota).get fun hnot =>
    QuotaStore.get_of_notMem fun hmem => hnot (by simp [hmem])
  have hcount := sum_gets (c := c) .requestCount hnodup (taken .requestCount).get fun hnot =>
    QuotaStore.get_of_notMem fun hmem => hnot (by simp [hmem])
  have htoken := sum_entries (c := c) .tokenQuota (taken .tokenQuota)
  have hchannel := sum_entries (c := c) .channelUsedQuota (taken .channelUsedQuota)
  simp only [passLoops, flatten_cons, flatten_nil, append_nil, map_append,
    sum_append, List.map_map, Function.comp_def, delta, sum_map_add, htoken,
    hchannel, hused, hcount, QuotaStores.pending]
  cases c <;> simp [Counter.type]

end Stores

/-- An element and the rest of a list. -/
theorem sum_map_eraseIdx {α : Type} (g : α → Int) {l : List α} {i : Nat} {x : α}
    (h : l[i]? = some x) : (l.map g).sum = g x + ((l.eraseIdx i).map g).sum := by
  obtain ⟨hi, rfl⟩ := List.getElem?_eq_some_iff.mp h
  rw [← ((getElem_cons_eraseIdx_perm hi).map g).sum_eq, map_cons, sum_cons]

/-! ## One step -/

section Step

variable {c : Counter} {t : CounterThread} {s : CounterState} {v : Int} (pick : Nat)
  (cached : Option Int)

namespace CounterThread

theorem WellFormed.step (h : t.WellFormed) : (t.step pick cached s).1.WellFormed := by
  fun_cases CounterThread.step pick cached t s with
  | case7 type types s _ => exact ⟨by decide, fun _ _ => rfl⟩
  | case9 type types taken s =>
    obtain ⟨hnodup, hempty⟩ := h
    obtain ⟨hnot, hnodup⟩ := nodup_cons.mp hnodup
    refine ⟨hnodup, fun type' hmem => ?_⟩
    have hne : type' ≠ type := fun heq => hnot (heq ▸ hmem)
    rw [QuotaStores.set_apply, if_neg hne]
    exact hempty type' (mem_cons_of_mem _ hmem)
  | _ => trivial

/-- A step of a thread changes the stored value of a counter, what the stores hold for it and what the
thread has taken for it by what the thread records or writes for it. -/
theorem step_conserves (hwf : t.WellFormed) (hv : s.db.value c = some v) :
    ∃ v', (t.step pick cached s).2.db.value c = some v' ∧
      v' + (t.step pick cached s).2.stores.pending c + (t.step pick cached s).1.pending c
        = v + s.stores.pending c + t.pending c + t.records c := by
  fun_cases CounterThread.step pick cached t s with
  | case2 type id value rest s =>
    refine ⟨v, hv, ?_⟩
    simp only [pending_addNewRecord, pending, records, CounterAccess.delta]
    omega
  | case3 u rest s =>
    refine ⟨v + u.delta c, by rw [value_apply, hv, map_some], ?_⟩
    simp only [pending, records, CounterAccess.delta]
    omega
  | case7 type types s _ => exact ⟨v, hv, by simp [pending, records, QuotaStores.pending]⟩
  | case8 taken s =>
    refine ⟨v, hv, ?_⟩
    simp only [pending, records, sum_passLoops]
    omega
  | case9 type types taken s =>
    refine ⟨v, hv, ?_⟩
    have hswap := pending_swap (c := c) s.stores taken (hwf.2 type mem_cons_self)
    simp only [pending, records]
    omega
  | case13 updates loops s _ u hpick =>
    refine ⟨v + u.delta c, by rw [value_apply, hv, map_some], ?_⟩
    have herase := sum_map_eraseIdx (delta c) hpick
    simp only [pending, records, flatten_cons, map_append, sum_append]
    omega
  | _ => exact ⟨v, hv, by simp [pending, records, done]⟩

/-- What a call has still to record becomes less by what it records; it becomes more when the call passes
its check. -/
theorem step_toRecord :
    (t.step pick cached s).1.toRecord c + t.records c = t.toRecord c + t.decides c cached s.db := by
  fun_cases CounterThread.step pick cached t s with
  | case2 | case3 =>
    simp only [toRecord, records, decides, accessTotal, CounterAccess.delta, map_cons,
      sum_cons]
    omega
  | _ => simp [toRecord, records, decides, done, accessTotal]

/-- A step of a thread leaves what the columns of a token add up to. -/
theorem step_tokenTotal (id : Int) :
    (t.step pick cached s).2.db.tokenTotal id = s.db.tokenTotal id := by
  fun_cases CounterThread.step pick cached t s with
  | case3 u | case13 _ _ _ _ u => exact u.tokenTotal_apply _ id
  | _ => rfl

end CounterThread

/-- The accesses of a call add up to what the call is for. -/
theorem CounterCall.toRecord_begin (call : CounterCall) (batchUpdateEnabled : Bool) :
    (call.begin batchUpdateEnabled).toRecord c = call.delta c := by
  cases call with
  | preConsumeTokenQuota p => rfl
  | increaseTokenQuota id quota =>
    by_cases hquota : quota < 0
    · simp [CounterCall.begin, increaseTokenQuotaActions, hquota, CounterThread.toRecord, accessTotal,
        delta]
    · cases batchUpdateEnabled <;>
        simp [CounterCall.begin, increaseTokenQuotaActions, hquota, CounterThread.toRecord, accessTotal,
          delta, CounterAccess.delta, CounterUpdate.delta]
  | decreaseTokenQuota id quota =>
    by_cases hquota : quota < 0
    · simp [CounterCall.begin, decreaseTokenQuotaActions, hquota, CounterThread.toRecord, accessTotal,
        delta]
    · cases batchUpdateEnabled <;>
        simp [CounterCall.begin, decreaseTokenQuotaActions, hquota, CounterThread.toRecord, accessTotal,
          delta, CounterAccess.delta, CounterUpdate.delta]
  | updateUserUsedQuotaAndRequestCount id quota | updateChannelUsedQuota id quota =>
    cases batchUpdateEnabled <;>
      simp [CounterCall.begin, updateUserActions, updateChannelActions, CounterThread.toRecord,
        accessTotal, delta, CounterAccess.delta, CounterUpdate.delta]

/-- A new thread has nothing of a pass. -/
theorem CounterCall.begin_idle (call : CounterCall) (batchUpdateEnabled : Bool) :
    (call.begin batchUpdateEnabled).WellFormed ∧ (call.begin batchUpdateEnabled).pending c = 0 := by
  cases call <;> exact ⟨trivial, rfl⟩

end Step

/-! ## Runs -/

namespace CounterSystem

variable {c : Counter} {v : Int}

/-- The threads keep their form. -/
theorem wellFormed_step {s : CounterSystem} (hs : ∀ t ∈ s.threads, t.WellFormed) (e : CounterEvent) :
    ∀ t ∈ (s.step e).threads, t.WellFormed := by
  cases e with
  | begin enabled call => exact Pool.forall_spawn hs (call.begin_idle (c := .tokenRemain 0) enabled).1
  | beginPass => exact Pool.forall_spawn hs trivial
  | step thread pick cached => exact Pool.forall_stepAt hs fun _ ht => ht.step pick cached

/-- An event changes what is stored of a counter and what is on its way by what it records or writes. -/
theorem step_conserves {s : CounterSystem} (hs : ∀ t ∈ s.threads, t.WellFormed)
    (hv : s.shared.db.value c = some v) (e : CounterEvent) :
    ∃ v', (s.step e).shared.db.value c = some v' ∧
      v' + inBatch c (s.step e) = v + inBatch c s + records c s e := by
  cases e with
  | begin enabled call =>
    refine ⟨v, hv, ?_⟩
    simp [step, inBatch, Pool.total_spawn, (call.begin_idle enabled).2, records]
  | beginPass =>
    refine ⟨v, hv, ?_⟩
    simp [step, inBatch, Pool.total_spawn, CounterThread.pending, records]
  | step thread pick cached =>
    cases ht : s.threads[thread]? with
    | none =>
      rw [step, Pool.stepAt_of_none ht]
      exact ⟨v, hv, by simp [records, ht]⟩
    | some t =>
      obtain ⟨v', hv', hsum⟩ := CounterThread.step_conserves pick cached
        (hs t (mem_of_getElem? ht)) hv
      refine ⟨v', by rw [step, Pool.stepAt_of_some ht]; exact hv', ?_⟩
      have htotal := Pool.measure_stepAt (f := CounterThread.step pick cached)
        (fun s => s.stores.pending c) (CounterThread.pending c) ht
      rw [step, inBatch, inBatch, records, ht]
      simp only [map_some, getD_some]
      omega

/-- An event changes what calls have still to record by what it accepts and what it records. -/
theorem step_inCalls (s : CounterSystem) (e : CounterEvent) :
    inCalls c (s.step e) + records c s e = inCalls c s + accepts c s e := by
  cases e with
  | begin enabled call =>
    simp [step, inCalls, Pool.total_spawn, call.toRecord_begin, records, accepts]
  | beginPass => simp [step, inCalls, Pool.total_spawn, CounterThread.toRecord, records, accepts]
  | step thread pick cached =>
    cases ht : s.threads[thread]? with
    | none =>
      rw [step, Pool.stepAt_of_none ht]
      simp [records, accepts, ht]
    | some t =>
      have hstep := CounterThread.step_toRecord (c := c) (t := t) (s := s.shared) pick cached
      have htotal := Pool.measure_stepAt (f := CounterThread.step pick cached) (fun _ => 0)
        (CounterThread.toRecord c) ht
      simp only [inCalls, step, records, accepts, ht, map_some, getD_some]
      omega

/-- An event leaves what the columns of a token add up to. -/
theorem step_tokenTotal (s : CounterSystem) (e : CounterEvent) (id : Int) :
    (s.step e).shared.db.tokenTotal id = s.shared.db.tokenTotal id := by
  cases e with
  | begin | beginPass => rfl
  | step thread pick cached =>
    exact Pool.stepAt_elim
      (P := fun s' : CounterSystem => s'.shared.db.tokenTotal id = s.shared.db.tokenTotal id)
      (fun _ => rfl) fun _ _ => CounterThread.step_tokenTotal pick cached id

end CounterSystem

/-- A call that a pass has taken over and one that comes while the pass swaps. -/
def overlappingCalls : List CounterEvent :=
  [.begin true (.decreaseTokenQuota 1 30), .step 0 0 none, .beginPass, .step 1 0 none,
    .begin true (.increaseTokenQuota 1 5), .step 1 0 none, .step 2 0 none]

end Prox
