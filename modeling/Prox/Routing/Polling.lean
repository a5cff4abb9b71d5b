import Prox.Routing.Cache
import Prox.Lib.Cyclic

/-! # Choosing the key of a multi-key channel

`GetNextEnabledKey` of `model/channel.go`, over the place that channels are read from: the memory cache or, when
it is off, the table. In polling mode the position of the next search is stored with the channel. With the memory
cache this is the cached channel itself, which the caller holds a pointer to and which `InitChannelCache`
replaces; without it, it is the column `channel_info`.

The lock of the channel makes calls for it take turns. The statements do not fail. -/

namespace Prox.Routing

open List Option

/-! ## Where channels are read from -/

/-- A channel is cached under its own identifier. -/
def Cache.Indexed (cache : Cache) : Prop := ∀ id c, cache.channelsIDM id = some c → c.id = id

/-- `channelsIDM[c.Id] = c`. -/
def Cache.putChannel (cache : Cache) (c : Channel) : Cache :=
  { cache with channelsIDM := Function.update cache.channelsIDM c.id (some c) }

@[simp] theorem Cache.putChannel_self (cache : Cache) (c : Channel) :
    (cache.putChannel c).channelsIDM c.id = some c := Function.update_self ..

theorem Cache.putChannel_of_ne (cache : Cache) {c : Channel} {id : Int} (h : id ≠ c.id) :
    (cache.putChannel c).channelsIDM id = cache.channelsIDM id := Function.update_of_ne h ..

theorem Cache.Indexed.putChannel {cache : Cache} (h : cache.Indexed) (c : Channel) :
    (cache.putChannel c).Indexed := by
  intro id c' hc'
  by_cases hid : id = c.id
  · rw [hid, cache.putChannel_self, Option.some.injEq] at hc'
    rw [hid, hc']
  · rw [cache.putChannel_of_ne hid] at hc'
    exact h id c' hc'

variable (old : Option Channel)

@[simp] theorem keepPollingIndex_id (c : Channel) :
    (keepPollingIndex old c).id = c.id := by
  unfold keepPollingIndex
  repeat' split
  all_goals rfl

theorem Cache.Indexed.initChannelCache {db : DB} {cache cache' : Cache}
    (h : Routing.initChannelCache db cache = some cache') : cache'.Indexed := by
  obtain ⟨m, -, rfl⟩ := map_eq_some_iff.mp h
  intro id c hc
  obtain ⟨row, hrow, rfl⟩ := map_eq_some_iff.mp hc
  simpa using List.find?_some hrow

/-- The tables and the cache. -/
structure ChannelStore where
  /-- `common.MemoryCacheEnabled`. -/
  memoryCacheEnabled : Bool
  db : DB := {}
  cache : Cache := {}
  indexed : cache.Indexed

/-- `CacheGetChannel`, with the text of its error. -/
def ChannelStore.cacheGetChannel (s : ChannelStore) (id : Int) : Except String Channel :=
  if s.memoryCacheEnabled then
    match s.cache.channelsIDM id with
    | some c => .ok c
    | none => .error ("渠道# " ++ toString id ++ "，已不存在")
  else
    match s.db.channels.find? fun row => row.id = id with
    | some row => .ok row
    | none => .error "record not found"

/-- `CacheGetChannelInfo`. -/
def ChannelStore.cacheGetChannelInfo (s : ChannelStore) (id : Int) : Except String ChannelInfo :=
  (s.cacheGetChannel id).map Channel.channelInfo

/-- `SaveChannelInfo`: the column `channel_info`. -/
def DB.saveChannelInfo (db : DB) (c : Channel) : DB :=
  { db with
    channels := db.channels.map fun row =>
      if row.id = c.id then { row with channelInfo := c.channelInfo } else row }

/-- What becomes of an assignment to the channel object: with the memory cache the object is the cached one. -/
def ChannelStore.putChannelInfo (s : ChannelStore) (c : Channel) : ChannelStore :=
  if s.memoryCacheEnabled then
    { s with cache := s.cache.putChannel c, indexed := s.indexed.putChannel c }
  else { s with db := s.db.saveChannelInfo c }

/-- `InitChannelCache` on the tables as they stand at that time; a panic leaves the cache as it is. -/
def ChannelStore.initChannelCache (s : ChannelStore) (db : DB) : ChannelStore :=
  if s.memoryCacheEnabled then
    match h : Routing.initChannelCache db s.cache with
    | some cache => { s with db := db, cache := cache, indexed := .initChannelCache h }
    | none => { s with db := db }
  else s

/-! ## The next key -/

/-- `constant.MultiKeyModeRandom`. -/
def multiKeyModeRandom : String := "random"

/-- `constant.MultiKeyModePolling`. -/
def multiKeyModePolling : String := "polling"

/-- The error of `types.NewError`. -/
structure KeyError where
  message : String
  errorCode : String
  skipRetry : Bool := false

/-- `types.ErrorCodeChannelNoAvailableKey`. -/
def KeyError.noAvailableKey (message : String) : KeyError :=
  { message := message, errorCode := "channel:no_available_key" }

/-- `types.ErrorCodeGetChannelFailed`. -/
def KeyError.getChannelFailed (message : String) : KeyError :=
  { message := message, errorCode := "get_channel_failed", skipRetry := true }

/-- `getStatus`: a key without an entry is enabled. -/
def ChannelInfo.getStatus (info : ChannelInfo) (idx : Nat) : Int :=
  match info.multiKeyStatusList with
  | none => channelStatusEnabled
  | some statusList => (statusList.lookup (idx : Int)).getD channelStatusEnabled

/-- The test of the two loops. -/
def ChannelInfo.keyEnabled (info : ChannelInfo) (idx : Nat) : Bool :=
  info.getStatus idx = channelStatusEnabled

/-- `start`, where an index that is no position is replaced. -/
def ChannelInfo.start (info : ChannelInfo) (n : Nat) : Nat :=
  if info.multiKeyPollingIndex < 0 ∨ (n : Int) ≤ info.multiKeyPollingIndex then 0
  else info.multiKeyPollingIndex.toNat

/-- The channel whose next search starts at `idx`. -/
def Channel.setPollingIndex (c : Channel) (idx : Int) : Channel :=
  { c with channelInfo := { c.channelInfo with multiKeyPollingIndex := idx } }

section NextKey

variable (decodeArray : String → Option (List String))

/-- `enabledIdx`. -/
def Channel.enabledIdx (c : Channel) : List Nat :=
  (List.range (c.getKeys decodeArray).length).filter c.channelInfo.keyEnabled

/-- A key with its position. -/
def Channel.keyAt (c : Channel) (idx : Nat) : String × Nat := ((c.getKeys decodeArray).getD idx "", idx)

/-- `GetNextEnabledKey`; `rand.Intn(n)` is `draw % n`. -/
def getNextEnabledKey (draw : Nat) (c : Channel) (s : ChannelStore) :
    Except KeyError (String × Nat) × ChannelStore :=
  if !c.channelInfo.isMultiKey then (.ok (c.key, 0), s)
  else
    let keys := c.getKeys decodeArray
    if keys = [] then (.error (.noAvailableKey "no keys available"), s)
    else
      match c.enabledIdx decodeArray with
      | [] => (.error (.noAvailableKey "no enabled keys"), s)
      | first :: rest =>
        if c.channelInfo.multiKeyMode = multiKeyModeRandom then
          let selectedIdx := (first :: rest).getD (draw % (first :: rest).length) 0
          (.ok (c.keyAt decodeArray selectedIdx), s)
        else if c.channelInfo.multiKeyMode = multiKeyModePolling then
          match s.cacheGetChannelInfo c.id with
          | .error e => (.error (.getChannelFailed e), s)
          | .ok channelInfo =>
            match (cyclic keys.length (channelInfo.start keys.length)).find? c.channelInfo.keyEnabled with
            | some idx =>
              (.ok (c.keyAt decodeArray idx),
                s.putChannelInfo (c.setPollingIndex ((idx + 1) % keys.length : Nat)))
            | none => (.ok (c.keyAt decodeArray first), s.putChannelInfo c)
        else (.ok (c.keyAt decodeArray first), s)

/-! ## Runs of calls -/

/-- A call on a stored channel, or a refresh of the cache from the tables as they stand. -/
inductive KeyEvent where
  | next (id : Int) (draw : Nat)
  | refresh (db : DB)

/-- The result of an event that is a call on a stored channel, and the store after it. -/
def ChannelStore.perform (s : ChannelStore) : KeyEvent → Option (Except KeyError (String × Nat)) × ChannelStore
  | .next id draw =>
    match s.cacheGetChannel id with
    | .error _ => (none, s)
    | .ok c =>
      let r := getNextEnabledKey decodeArray draw c s
      (some r.1, r.2)
  | .refresh db => (none, s.initChannelCache db)

/-- The event is a call for this channel. -/
def KeyEvent.asks (id : Int) : KeyEvent → Bool
  | .next id' _ => id' = id
  | .refresh _ => false

/-- The results of the calls for one channel, in their order. -/
def ChannelStore.served (id : Int) : ChannelStore → List KeyEvent → List (Except KeyError (String × Nat))
  | _, [] => []
  | s, e :: es =>
    (if e.asks id then (s.perform decodeArray e).1.toList else [])
      ++ ChannelStore.served id (s.perform decodeArray e).2 es

end NextKey

/-! ## Channels with the same keys -/

/-- The keys, their statuses and the mode agree: all that a search reads but the polling index. -/
structure Channel.SameKeys (c row : Channel) : Prop where
  id : row.id = c.id
  key : row.key = c.key
  isMultiKey : row.channelInfo.isMultiKey = c.channelInfo.isMultiKey
  mode : row.channelInfo.multiKeyMode = c.channelInfo.multiKeyMode
  statusList : row.channelInfo.multiKeyStatusList = c.channelInfo.multiKeyStatusList

namespace Channel.SameKeys

variable {c row row' : Channel} (decodeArray : String → Option (List String))

theorem refl (c : Channel) : c.SameKeys c := ⟨rfl, rfl, rfl, rfl, rfl⟩

variable (h : c.SameKeys row)

include h

theorem getKeys : row.getKeys decodeArray = c.getKeys decodeArray := by
  simp [Channel.getKeys, h.key]

theorem getStatus : row.channelInfo.getStatus = c.channelInfo.getStatus := by
  funext idx
  rw [ChannelInfo.getStatus, ChannelInfo.getStatus, h.statusList]

theorem keyEnabled : row.channelInfo.keyEnabled = c.channelInfo.keyEnabled := by
  funext idx
  rw [ChannelInfo.keyEnabled, ChannelInfo.keyEnabled, h.getStatus]

theorem enabledIdx : row.enabledIdx decodeArray = c.enabledIdx decodeArray := by
  rw [Channel.enabledIdx, Channel.enabledIdx, h.getKeys, h.keyEnabled]

theorem keyAt (idx : Nat) : row.keyAt decodeArray idx = c.keyAt decodeArray idx := by
  rw [Channel.keyAt, Channel.keyAt, h.getKeys]

theorem setPollingIndex (idx : Int) : c.SameKeys (row.setPollingIndex idx) :=
  ⟨h.id, h.key, h.isMultiKey, h.mode, h.statusList⟩

theorem keepPollingIndex :
    c.SameKeys (keepPollingIndex old row) := by
  unfold Routing.keepPollingIndex
  repeat' split
  all_goals exact ⟨h.id, h.key, h.isMultiKey, h.mode, h.statusList⟩

end Channel.SameKeys

/-! ## One event -/

/-- The stored channel has the keys of `c`, `n` in number, and the next search for it starts at `start`. -/
def ChannelStore.PollsFrom (s : ChannelStore) (c : Channel) (n start : Nat) : Prop :=
  ∃ row, s.cacheGetChannel c.id = .ok row ∧ c.SameKeys row ∧ row.channelInfo.start n = start

/-- The tables hold the channel with the keys of `c`. -/
def DB.HoldsKeys (db : DB) (c : Channel) : Prop := ∃ row, channelById db c.id = some row ∧ c.SameKeys row

section Events

variable {s : ChannelStore} {c row : Channel} {db : DB} {id : Int} {n start : Nat}

/-- A stored channel has the identifier it is stored under. -/
theorem cacheGetChannel_id (h : s.cacheGetChannel id = .ok row) : row.id = id := by
  unfold ChannelStore.cacheGetChannel at h
  split at h
  · split at h
    case h_1 c hc =>
      obtain rfl : c = row := by simpa using h
      exact s.indexed id c hc
    case h_2 => cases h
  · split at h
    case h_1 c hc =>
      obtain rfl : c = row := by simpa using h
      simpa using List.find?_some hc
    case h_2 => cases h

/-- Saving the information of a channel finds the same rows again. -/
theorem find?_saveChannelInfo (db : DB) (c : Channel) (id : Int) :
    (db.saveChannelInfo c).channels.find? (fun row => row.id = id) =
      (db.channels.find? fun row => row.id = id).map fun row =>
        if row.id = c.id then { row with channelInfo := c.channelInfo } else row := by
  unfold DB.saveChannelInfo
  rw [List.find?_map]
  congr 2
  funext row
  by_cases hid : row.id = c.id <;> simp [hid]

/-- What was stored for a channel is read back. -/
theorem cacheGetChannel_putChannelInfo (h : s.cacheGetChannel row.id = .ok row) (idx : Int) :
    (s.putChannelInfo (row.setPollingIndex idx)).cacheGetChannel row.id = .ok (row.setPollingIndex idx) := by
  have hid : (row.setPollingIndex idx).id = row.id := rfl
  cases hcache : s.memoryCacheEnabled with
  | true => simp [ChannelStore.cacheGetChannel, ChannelStore.putChannelInfo, hcache, ← hid]
  | false =>
    have hfind : (s.db.channels.find? fun r => r.id = row.id) = some row := by
      simp only [ChannelStore.cacheGetChannel, hcache, Bool.false_eq_true, if_false] at h
      split at h
      case h_1 r hr => rw [hr, Except.ok.inj h]
      case h_2 => cases h
    have hput : s.putChannelInfo (row.setPollingIndex idx) =
        { s with db := s.db.saveChannelInfo (row.setPollingIndex idx) } := by
      simp [ChannelStore.putChannelInfo, hcache]
    simp only [hput, ChannelStore.cacheGetChannel, hcache, find?_saveChannelInfo, hfind, map_some, hid]
    simp [Channel.setPollingIndex]

/-- Storing a channel leaves the others alone. -/
theorem cacheGetChannel_putChannelInfo_of_ne (h : id ≠ row.id) :
    (s.putChannelInfo row).cacheGetChannel id = s.cacheGetChannel id := by
  cases hcache : s.memoryCacheEnabled with
  | true => simp [ChannelStore.cacheGetChannel, ChannelStore.putChannelInfo, hcache, s.cache.putChannel_of_ne h]
  | false =>
    have hput : s.putChannelInfo row = { s with db := s.db.saveChannelInfo row } := by
      simp [ChannelStore.putChannelInfo, hcache]
    simp only [hput, ChannelStore.cacheGetChannel, hcache, find?_saveChannelInfo]
    cases hfind : s.db.channels.find? fun r => r.id = id with
    | none => rfl
    | some r =>
      have hr : r.id ≠ row.id := by
        have : r.id = id := by simpa using List.find?_some hfind
        rwa [this]
      simp [hr]

/-- A refresh keeps where the next search starts. -/
theorem ChannelStore.PollsFrom.initChannelCache (h : s.PollsFrom c n start)
    (hmulti : c.channelInfo.isMultiKey = true) (hmode : c.channelInfo.multiKeyMode = multiKeyModePolling)
    (hdb : s.memoryCacheEnabled = true → db.HoldsKeys c) :
    (s.initChannelCache db).PollsFrom c n start := by
  obtain ⟨old, hold, hkeys, hstart⟩ := h
  cases hcache : s.memoryCacheEnabled with
  | false => exact ⟨old, by simpa [ChannelStore.initChannelCache, hcache] using hold, hkeys, hstart⟩
  | true =>
    obtain ⟨row, hrow, hrowKeys⟩ := hdb hcache
    have hcached : s.cache.channelsIDM c.id = some old := by
      simp only [ChannelStore.cacheGetChannel, hcache, if_true] at hold
      split at hold
      case h_1 r hr => rw [hr, Except.ok.inj hold]
      case h_2 => cases hold
    simp only [ChannelStore.initChannelCache, hcache, if_true]
    split
    case h_1 cache hinit =>
      -- the new copy of the channel carries the index of the old one
      obtain ⟨m, -, rfl⟩ := map_eq_some_iff.mp hinit
      refine ⟨keepPollingIndex (some old) row, ?_, hrowKeys.keepPollingIndex _, ?_⟩
      · simp [ChannelStore.cacheGetChannel, hrow, hcached]
      · have hkeep : (keepPollingIndex (some old) row).channelInfo.multiKeyPollingIndex =
            old.channelInfo.multiKeyPollingIndex := by
          simp [Routing.keepPollingIndex, hkeys.isMultiKey, hkeys.mode, hrowKeys.isMultiKey, hrowKeys.mode,
            hmulti, hmode, multiKeyModePolling]
        rw [← hstart, ChannelInfo.start, ChannelInfo.start, hkeep]
    case h_2 => exact ⟨old, by simp [ChannelStore.cacheGetChannel, hcached], hkeys, hstart⟩

variable (decodeArray : String → Option (List String))

variable (draw : Nat)

/-- A call stores nothing but a new version of the channel it is about. -/
theorem getNextEnabledKey_snd (row : Channel) (s : ChannelStore) :
    (getNextEnabledKey decodeArray draw row s).2 = s ∨
      ∃ row', row'.id = row.id ∧ (getNextEnabledKey decodeArray draw row s).2 = s.putChannelInfo row' := by
  unfold getNextEnabledKey
  dsimp only
  repeat' split
  all_goals first
    | exact .inl rfl
    | exact .inr ⟨row, rfl, rfl⟩
    | exact .inr ⟨row.setPollingIndex ((_ : Nat) : Int), rfl, rfl⟩

/-- A call for another channel keeps where the next search for this one starts. -/
theorem ChannelStore.PollsFrom.getNextEnabledKey_of_ne (h : s.PollsFrom c n start) (draw : Nat)
    (hne : row.id ≠ c.id) : (getNextEnabledKey decodeArray draw row s).2.PollsFrom c n start := by
  obtain ⟨r, hr, hkeys, hstart⟩ := h
  rcases getNextEnabledKey_snd decodeArray draw row s with hsame | ⟨row', hid, hput⟩
  · exact ⟨r, by rw [hsame, hr], hkeys, hstart⟩
  · refine ⟨r, ?_, hkeys, hstart⟩
    rw [hput, cacheGetChannel_putChannelInfo_of_ne (by rw [hid]; exact hne.symm), hr]

/-- A call in polling mode returns the key that the search from the stored index finds, and the next search
starts behind it. -/
theorem getNextEnabledKey_polling (h : s.PollsFrom c (c.getKeys decodeArray).length start)
    (hmulti : c.channelInfo.isMultiKey = true) (hmode : c.channelInfo.multiKeyMode = multiKeyModePolling)
    (henabled : c.enabledIdx decodeArray ≠ []) (hrow : s.cacheGetChannel c.id = .ok row) (draw : Nat) :
    ∃ idx, (cyclic (c.getKeys decodeArray).length start).find? c.channelInfo.keyEnabled = some idx ∧
      (getNextEnabledKey decodeArray draw row s).1 = .ok (c.keyAt decodeArray idx) ∧
      (getNextEnabledKey decodeArray draw row s).2.PollsFrom c (c.getKeys decodeArray).length
        ((idx + 1) % (c.getKeys decodeArray).length) := by
  obtain ⟨row', hrow', hkeys, hstart⟩ := h
  obtain rfl : row' = row := Except.ok.inj (hrow'.symm.trans hrow)
  obtain ⟨first, rest, hfirst⟩ := exists_cons_of_ne_nil henabled
  have hmem : first ∈ c.enabledIdx decodeArray := by simp [hfirst]
  rw [Channel.enabledIdx, mem_filter] at hmem
  have hnonempty : c.getKeys decodeArray ≠ [] := by
    intro hnil
    simp [hnil] at hmem
  obtain ⟨idx, hidx⟩ : ∃ idx,
      (cyclic (c.getKeys decodeArray).length start).find? c.channelInfo.keyEnabled = some idx := by
    rw [← isSome_iff_exists, List.find?_isSome]
    exact ⟨first, (cyclic_perm _ _).mem_iff.mpr hmem.1, hmem.2⟩
  have hinfo : s.cacheGetChannelInfo c.id = .ok row'.channelInfo := by
    simp [ChannelStore.cacheGetChannelInfo, hrow, Except.map]
  have hnext : getNextEnabledKey decodeArray draw row' s = (.ok (c.keyAt decodeArray idx),
      s.putChannelInfo (row'.setPollingIndex ((idx + 1) % (c.getKeys decodeArray).length : Nat))) := by
    have hnot : multiKeyModePolling ≠ multiKeyModeRandom := by decide
    simp [getNextEnabledKey, hkeys.isMultiKey, hkeys.mode, hmulti, hmode, hkeys.getKeys, hkeys.enabledIdx,
      hkeys.keyEnabled, hkeys.id, hkeys.keyAt, hnonempty, hfirst, hinfo, hstart, hidx, hnot]
  refine ⟨idx, hidx, by rw [hnext], ?_⟩
  rw [hnext]
  refine ⟨_, hkeys.id ▸ cacheGetChannel_putChannelInfo (hkeys.id.symm ▸ hrow) _, hkeys.setPollingIndex _, ?_⟩
  have hlt : (idx + 1) % (c.getKeys decodeArray).length < (c.getKeys decodeArray).length :=
    Nat.mod_lt _ (length_pos_of_ne_nil hnonempty)
  rw [ChannelInfo.start, Channel.setPollingIndex]
  dsimp only
  rw [if_neg (by omega), Int.toNat_natCast]

/-! ## Runs -/

theorem perform_next_ok (h : s.cacheGetChannel id = .ok row) :
    s.perform decodeArray (.next id draw) =
      (some (getNextEnabledKey decodeArray draw row s).1, (getNextEnabledKey decodeArray draw row s).2) := by
  simp [ChannelStore.perform, h]

theorem perform_next_error {e : String} (h : s.cacheGetChannel id = .error e) :
    s.perform decodeArray (.next id draw) = (none, s) := by
  simp [ChannelStore.perform, h]

theorem memoryCacheEnabled_putChannelInfo (s : ChannelStore) (c : Channel) :
    (s.putChannelInfo c).memoryCacheEnabled = s.memoryCacheEnabled := by
  unfold ChannelStore.putChannelInfo
  split <;> rfl

theorem memoryCacheEnabled_perform (s : ChannelStore) (e : KeyEvent) :
    (s.perform decodeArray e).2.memoryCacheEnabled = s.memoryCacheEnabled := by
  cases e with
  | next id draw =>
    cases hrow : s.cacheGetChannel id with
    | error _ => rw [perform_next_error decodeArray draw hrow]
    | ok row =>
      rw [perform_next_ok decodeArray draw hrow]
      rcases getNextEnabledKey_snd decodeArray draw row s with h | ⟨row', -, h⟩
      · rw [h]
      · rw [h, memoryCacheEnabled_putChannelInfo]
  | refresh db =>
    unfold ChannelStore.perform ChannelStore.initChannelCache
    dsimp only
    repeat' split
    all_goals rfl

/-- An event that is no call for a channel keeps where the next search for it starts. -/
theorem ChannelStore.PollsFrom.perform_of_not_asks (h : s.PollsFrom c n start)
    (hmulti : c.channelInfo.isMultiKey = true) (hmode : c.channelInfo.multiKeyMode = multiKeyModePolling)
    {e : KeyEvent} (he : e.asks c.id = false)
    (hrefresh : s.memoryCacheEnabled = true → ∀ db, KeyEvent.refresh db = e → db.HoldsKeys c) :
    (s.perform decodeArray e).2.PollsFrom c n start := by
  cases e with
  | next id draw =>
    have hid : id ≠ c.id := by simpa [KeyEvent.asks] using he
    cases hrow : s.cacheGetChannel id with
    | error _ =>
      rw [perform_next_error decodeArray draw hrow]
      exact h
    | ok row =>
      rw [perform_next_ok decodeArray draw hrow]
      exact h.getNextEnabledKey_of_ne decodeArray draw (by rw [cacheGetChannel_id hrow]; exact hid)
  | refresh db => exact h.initChannelCache hmulti hmode fun hcache => hrefresh hcache db rfl

/-- The calls of a run for one channel find what as many searches of its positions find. -/
theorem served_eq_roundRobin (hmulti : c.channelInfo.isMultiKey = true)
    (hmode : c.channelInfo.multiKeyMode = multiKeyModePolling) (henabled : c.enabledIdx decodeArray ≠ [])
    {es : List KeyEvent} (h : s.PollsFrom c (c.getKeys decodeArray).length start)
    (hrefresh : s.memoryCacheEnabled = true → ∀ db, KeyEvent.refresh db ∈ es → db.HoldsKeys c) :
    s.served decodeArray c.id es =
      (roundRobin (c.getKeys decodeArray).length c.channelInfo.keyEnabled (es.countP (·.asks c.id)) start).map
        fun idx => .ok (c.keyAt decodeArray idx) := by
  -- the induction is on the events; where the next search starts is what the store must agree on
  induction es generalizing s start with
  | nil => rfl
  | cons e es ih =>
    have hrest : (s.perform decodeArray e).2.memoryCacheEnabled = true →
        ∀ db, KeyEvent.refresh db ∈ es → db.HoldsKeys c := by
      intro hcache db hdb
      rw [memoryCacheEnabled_perform] at hcache
      exact hrefresh hcache db (mem_cons_of_mem e hdb)
    rw [ChannelStore.served]
    cases hasks : e.asks c.id with
    | false =>
      have hkeep := h.perform_of_not_asks decodeArray hmulti hmode hasks
        fun hcache db hdb => hrefresh hcache db (hdb ▸ mem_cons_self)
      rw [ih hkeep hrest, countP_cons_of_neg (by simp [hasks])]
      rfl
    | true =>
      cases e with
      | refresh db => cases hasks
      | next id draw =>
        obtain rfl : id = c.id := by simpa [KeyEvent.asks] using hasks
        obtain ⟨row, hrow, -⟩ := id h
        obtain ⟨idx, hidx, hserved, hnext⟩ :=
          getNextEnabledKey_polling decodeArray h hmulti hmode henabled hrow draw
        have hperform : s.perform decodeArray (.next c.id draw) =
            (some (.ok (c.keyAt decodeArray idx)), (getNextEnabledKey decodeArray draw row s).2) := by
          rw [perform_next_ok decodeArray draw hrow, hserved]
        rw [hperform] at hrest ⊢
        rw [ih hnext hrest, countP_cons_of_pos (by simp [hasks]), roundRobin, hidx]
        rfl

end Events

/-- Polling is fair. The channel stands in the store with any polling index; its calls come in any order with
calls for other channels and with refreshes that find its keys and statuses unchanged. As many calls as it has
enabled keys return each enabled position once, with its key, and no other position. -/
theorem polling_fair (decodeArray : String → Option (List String)) (s : ChannelStore) (c : Channel)
    (es : List KeyEvent) (hstored : s.cacheGetChannel c.id = .ok c)
    (hmulti : c.channelInfo.isMultiKey = true) (hmode : c.channelInfo.multiKeyMode = multiKeyModePolling)
    (henabled : c.enabledIdx decodeArray ≠ [])
    (hrefresh : s.memoryCacheEnabled = true → ∀ db, KeyEvent.refresh db ∈ es → db.HoldsKeys c)
    (hcalls : es.countP (·.asks c.id) = (c.enabledIdx decodeArray).length) :
    ∃ idxs : List Nat, s.served decodeArray c.id es = idxs.map (fun idx => .ok (c.keyAt decodeArray idx)) ∧
      idxs.Nodup ∧
      ∀ idx, idx ∈ idxs ↔ idx < (c.getKeys decodeArray).length ∧
        c.channelInfo.getStatus idx = channelStatusEnabled := by
  have hperm : (roundRobin (c.getKeys decodeArray).length c.channelInfo.keyEnabled
      (es.countP (·.asks c.id)) (c.channelInfo.start (c.getKeys decodeArray).length)).Perm
        (c.enabledIdx decodeArray) := by
    rw [hcalls]
    exact roundRobin_perm _ _ _
  refine ⟨_, served_eq_roundRobin decodeArray hmulti hmode henabled ⟨c, hstored, .refl c, rfl⟩ hrefresh, ?_, ?_⟩
  · exact hperm.nodup_iff.mpr (nodup_range.filter _)
  · intro idx
    rw [hperm.mem_iff, Channel.enabledIdx, mem_filter, mem_range, ChannelInfo.keyEnabled,
      decide_eq_true_iff]

/-- A channel with three keys, the second one disabled, and an index behind the last key. -/
def pollingChannel : Channel :=
  { id := 7
    key := "a\nb\nc"
    status := channelStatusEnabled
    channelInfo :=
      { isMultiKey := true
        multiKeySize := 3
        multiKeyStatusList := some [(1, channelStatusAutoDisabled)]
        multiKeyPollingIndex := 5
        multiKeyMode := multiKeyModePolling } }

/-- The channel alone, in the table and in the cache. -/
def pollingStore : ChannelStore :=
  { memoryCacheEnabled := true
    db := { channels := [pollingChannel] }
    cache := ({} : Cache).putChannel pollingChannel
    indexed := Cache.Indexed.putChannel (by intro id c h; cases h) pollingChannel }

theorem polling_fair_twice :
    ∃ idxs : List Nat,
      pollingStore.served (fun _ => none) 7 [.next 7 0, .refresh { channels := [pollingChannel] }, .next 7 0] =
        idxs.map (fun idx => .ok (pollingChannel.keyAt (fun _ => none) idx)) ∧
      idxs.Nodup ∧
      ∀ idx, idx ∈ idxs ↔ idx < (pollingChannel.getKeys fun _ => none).length ∧
        pollingChannel.channelInfo.getStatus idx = channelStatusEnabled := by
  refine polling_fair (fun _ => none) pollingStore pollingChannel _ (by rfl) rfl rfl (by decide +kernel) ?_
    (by decide +kernel)
  intro _ db hdb
  obtain rfl : db = { channels := [pollingChannel] } := by simpa using hdb
  exact ⟨pollingChannel, by decide, .refl _⟩

end Prox.Routing
