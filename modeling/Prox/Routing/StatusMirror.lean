import Prox.Routing.Polling
import Prox.Routing.Faithful

/-! # A status update in the cache and in the table

`UpdateChannelStatus` of `model/channel.go` with the memory cache: it changes the cached channel first, and the
row after that. For a multi-key channel the first change has no condition, while the second one is left out when
the row already has the status that is asked for. -/

namespace Prox.Routing

open ChannelInfo List Option StatusUpdate

/-! ## The update -/

section Update

variable (decodeArray : String → Option (List String))

/-- The part of `UpdateChannelStatus` about the cache; `none` when the function returns in it. -/
def cacheStatusUpdate (u : StatusUpdate) (cache : Cache) : Option Cache :=
  match cache.channelsIDM u.channelId with
  | none => none
  | some channelCache =>
    if channelCache.channelInfo.isMultiKey then
      -- the cached channel itself is changed
      let updated := handlerMultiKeyUpdate (channelCache.getKeys decodeArray) channelCache u.usingKey u.status
        u.reason u.now
      let cache := cache.putChannel updated
      if channelCache.status ≠ updated.status then
        some (cacheUpdateChannelStatus u.channelId updated.status cache)
      else some cache
    else if channelCache.status = u.status then none
    else some (cacheUpdateChannelStatus u.channelId u.status cache)

/-- The cached channels after `CacheUpdateChannelStatus`. -/
theorem cacheUpdateChannelStatus_get (id status : Int) (cache : Cache) (id' : Int) :
    (cacheUpdateChannelStatus id status cache).channelsIDM id' =
      (cache.channelsIDM id').map fun c => if id' = id then { c with status := status } else c := by
  unfold cacheUpdateChannelStatus
  by_cases hid : id' = id
  · subst hid
    cases hc : cache.channelsIDM id' <;> simp [hc]
  · cases cache.channelsIDM id <;> simp [hid]

/-- Writing the status that the cached channel has keeps it. -/
theorem cacheUpdateChannelStatus_self {id : Int} {cache : Cache} {c : Channel}
    (h : cache.channelsIDM id = some c) : (cacheUpdateChannelStatus id c.status cache).channelsIDM id = some c := by
  rw [cacheUpdateChannelStatus_get, h, map_some, if_pos rfl]

theorem Cache.Indexed.cacheUpdateChannelStatus {cache : Cache} (h : cache.Indexed) (id status : Int) :
    (cacheUpdateChannelStatus id status cache).Indexed := by
  intro id' c' hc'
  rw [cacheUpdateChannelStatus_get] at hc'
  obtain ⟨c, hc, rfl⟩ := map_eq_some_iff.mp hc'
  split
  · exact h id' c hc
  · exact h id' c hc

theorem Cache.Indexed.cacheStatusUpdate {u : StatusUpdate} {cache cache' : Cache} (h : cache.Indexed)
    (hupdate : cacheStatusUpdate decodeArray u cache = some cache') : cache'.Indexed := by
  unfold Routing.cacheStatusUpdate at hupdate
  dsimp only at hupdate
  repeat' split at hupdate
  all_goals cases hupdate
  · exact (h.putChannel _).cacheUpdateChannelStatus _ _
  · exact h.putChannel _
  · exact h.cacheUpdateChannelStatus _ _

/-- `UpdateChannelStatus`, whose clock is read at `cachedAt` for the cached channel and at `u.now` for the row. -/
def ChannelStore.updateChannelStatus (fails : Statement → Bool) (cachedAt : Int) (u : StatusUpdate)
    (s : ChannelStore) : Bool × ChannelStore :=
  let r := Routing.updateChannelStatus decodeArray fails { u with cached := false } s.db
  if s.memoryCacheEnabled then
    match h : cacheStatusUpdate decodeArray { u with now := cachedAt } s.cache with
    | none => (false, s)
    | some cache => (r.1, { s with db := r.2, cache := cache, indexed := s.indexed.cacheStatusUpdate decodeArray h })
  else (r.1, { s with db := r.2 })

end Update

/-! ## What is asked of it -/

/-- The abilities of a channel are enabled exactly when this status is the enabled one. -/
def DB.AbilitiesFollow (db : DB) (id status : Int) : Prop :=
  ∀ a ∈ db.abilities, a.channelId = id → (a.enabled = true ↔ status = channelStatusEnabled)

/-- Some key of the channel is enabled. -/
def Channel.SomeKeyEnabled (c : Channel) (decodeArray : String → Option (List String)) : Prop :=
  ∃ i < (c.getKeys decodeArray).length, c.channelInfo.keyEnabled i = true

/-- The cached copy and the row agree on the status of the channel and of every key, the abilities follow that
status, and it is the enabled one only beside an enabled key. -/
def ChannelStore.StatusSettled (s : ChannelStore) (decodeArray : String → Option (List String)) (id : Int) : Prop :=
  ∃ cached row, s.cache.channelsIDM id = some cached ∧ (s.db.channels.find? fun c => c.id = id) = some row ∧
    cached.status = row.status ∧
    (∀ i < (row.getKeys decodeArray).length,
      cached.channelInfo.keyEnabled i = row.channelInfo.keyEnabled i) ∧
    s.db.AbilitiesFollow id row.status ∧
    (row.status = channelStatusEnabled → row.SomeKeyEnabled decodeArray)

/-- A key of the channel other than the one at `i` is enabled. -/
def Channel.OtherKeyEnabled (c : Channel) (decodeArray : String → Option (List String)) (i : Nat) : Prop :=
  ∃ j < (c.getKeys decodeArray).length, j ≠ i ∧ c.channelInfo.keyEnabled j = true

/-- When the update of a row and of its cached copy comes out as asked, in terms of the state before it. An update
that names no key sets the status of the channel; one that names a key of the channel sets the status of
this key. Either way the row is passed over when it has the status already. -/
def StatusUpdate.Settles (u : StatusUpdate) (decodeArray : String → Option (List String)) (db : DB)
    (row : Channel) : Prop :=
  match (row.getKeys decodeArray).findIdx? (· = u.usingKey) with
  | none =>
    if row.getKeys decodeArray = [] ∨ u.usingKey = "" then
      (row.status = u.status → db.AbilitiesFollow u.channelId row.status) ∧
        (u.status = channelStatusEnabled → row.SomeKeyEnabled decodeArray)
    else
      db.AbilitiesFollow u.channelId row.status ∧
        (row.status = channelStatusEnabled → row.SomeKeyEnabled decodeArray)
  | some i =>
    if u.status = channelStatusEnabled then
      row.status = channelStatusEnabled →
        row.channelInfo.keyEnabled i = true ∧ db.AbilitiesFollow u.channelId row.status
    else
      (row.status = u.status → row.channelInfo.keyEnabled i = false ∧
        (row.OtherKeyEnabled decodeArray i ∨ row.status = channelStatusAutoDisabled)) ∧
      (row.status = u.status ∨ row.OtherKeyEnabled decodeArray i ∨ row.status = channelStatusAutoDisabled →
        db.AbilitiesFollow u.channelId row.status)

/-! ## What a status update does to a channel -/

/-- Looking up a key among the entries whose keys pass a test. -/
theorem lookup_filter {α : Type} (es : List (Int × α)) (p : Int → Bool) (k : Int) :
    (es.filter fun e => p e.1).lookup k = if p k then es.lookup k else none := by
  induction es with
  | nil => simp
  | cons e es ih =>
    obtain ⟨k', v⟩ := e
    by_cases hk : k = k'
    · subst hk
      cases hp : p k with
      | false =>
        rw [hp] at ih
        rw [filter_cons_of_neg (by simp [hp]), ih]
        rfl
      | true => simp [hp]
    · have hkk : (k == k') = false := by simpa using hk
      cases hp : p k' with
      | false => rw [filter_cons_of_neg (by simp [hp]), ih, lookup_cons, hkk]
      | true => rw [filter_cons_of_pos (by simp [hp]), lookup_cons, lookup_cons, hkk, ih]

theorem lookup_filter_ne {α : Type} (es : List (Int × α)) (i j : Int) :
    (es.filter fun e => e.1 ≠ i).lookup j = if j = i then none else es.lookup j := by
  rw [lookup_filter es (fun k => decide (k ≠ i)) j]
  by_cases hj : j = i <;> simp

section Handler

variable {keys : List String} {c : Channel} {usingKey reason : String} {status now : Int} {i : Nat}

/-- Setting the status of one key enables or disables it and leaves the others alone. -/
theorem keyEnabled_setKeyStatus (info : ChannelInfo) (i : Nat) (status : Int) (reason : String) (now : Int)
    (j : Nat) : (setKeyStatus info i status reason now).keyEnabled j =
      if j = i then decide (status = channelStatusEnabled) else info.keyEnabled j := by
  have hcast : ((j : Int) = (i : Int)) ↔ j = i := Int.natCast_inj
  have hget : info.getStatus j =
      ((info.multiKeyStatusList.getD []).lookup (j : Int)).getD channelStatusEnabled := by
    unfold getStatus
    cases info.multiKeyStatusList <;> rfl
  rw [keyEnabled, keyEnabled, hget]
  unfold setKeyStatus
  by_cases hstatus : status = channelStatusEnabled
  · rw [if_pos hstatus]
    simp only [getStatus, remove, lookup_filter_ne, hcast]
    by_cases hj : j = i <;> simp [hj, hstatus]
  · rw [if_neg hstatus]
    simp only [getStatus, assign, lookup_cons, lookup_filter_ne, hcast]
    by_cases hj : j = i
    · simp [hj]
    · have hjk : ((j : Int) == (i : Int)) = false := by simpa using mt hcast.mp hj
      simp [hj, hjk]

/-- `hasEnabledMultiKey` looks for an enabled key. -/
theorem hasEnabledMultiKey_iff (keys : List String) (info : ChannelInfo) :
    hasEnabledMultiKey keys info.multiKeyStatusList = true ↔ ∃ j < keys.length, info.keyEnabled j = true := by
  unfold hasEnabledMultiKey keyEnabled getStatus
  rw [List.any_eq_true]
  refine exists_congr fun j => and_congr mem_range ?_
  cases info.multiKeyStatusList with
  | none => simp
  | some statuses =>
    cases hstatus : statuses.lookup (j : Int) <;> simp [hstatus]

/-- An update that names no key of the channel sets the status of the channel unless the key is unknown. -/
theorem handlerMultiKeyUpdate_unnamed (hfind : keys.findIdx? (· = usingKey) = none) :
    handlerMultiKeyUpdate keys c usingKey status reason now =
      if keys = [] ∨ usingKey = "" then { c with status := status } else c := by
  unfold handlerMultiKeyUpdate
  by_cases hkeys : keys = []
  · rw [if_pos hkeys, if_pos (Or.inl hkeys)]
  · rw [hfind]
    by_cases husing : usingKey = "" <;> simp [hkeys]

section

variable (hfind : keys.findIdx? (· = usingKey) = some i)

include hfind

/-- An update that names a key sets the status of this key, and looks at all keys for the one of the channel. -/
theorem handlerMultiKeyUpdate_named :
    handlerMultiKeyUpdate keys c usingKey status reason now =
      { c with
        channelInfo := setKeyStatus c.channelInfo i status reason now
        status :=
          if hasEnabledMultiKey keys (setKeyStatus c.channelInfo i status reason now).multiKeyStatusList then
            if status = channelStatusEnabled then channelStatusEnabled else c.status
          else channelStatusAutoDisabled } := by
  have hkeys : keys ≠ [] := by
    rintro rfl
    cases hfind
  unfold handlerMultiKeyUpdate
  rw [if_neg hkeys, hfind]
  dsimp only
  cases hasEnabledMultiKey keys (setKeyStatus c.channelInfo i status reason now).multiKeyStatusList
  · simp
  · by_cases hstatus : status = channelStatusEnabled <;> simp [hstatus]

theorem keyEnabled_handlerMultiKeyUpdate (j : Nat) :
    (handlerMultiKeyUpdate keys c usingKey status reason now).channelInfo.keyEnabled j =
      if j = i then decide (status = channelStatusEnabled) else c.channelInfo.keyEnabled j := by
  rw [handlerMultiKeyUpdate_named hfind]
  exact keyEnabled_setKeyStatus ..

/-- The status of the channel after a key was enabled. -/
theorem status_handlerMultiKeyUpdate_enable :
    (handlerMultiKeyUpdate keys c usingKey channelStatusEnabled reason now).status = channelStatusEnabled := by
  have hi : i < keys.length := (List.findIdx?_eq_some_iff_getElem.mp hfind).1
  have hsome : hasEnabledMultiKey keys
      (setKeyStatus c.channelInfo i channelStatusEnabled reason now).multiKeyStatusList = true :=
    (hasEnabledMultiKey_iff keys _).mpr ⟨i, hi, by rw [keyEnabled_setKeyStatus]; simp⟩
  rw [handlerMultiKeyUpdate_named hfind, hsome]
  simp

end

/-- An enabled key is left after a key was disabled exactly when another one is enabled. -/
theorem hasEnabledMultiKey_disable (hstatus : status ≠ channelStatusEnabled) :
    hasEnabledMultiKey keys (setKeyStatus c.channelInfo i status reason now).multiKeyStatusList = true ↔
      ∃ j < keys.length, j ≠ i ∧ c.channelInfo.keyEnabled j = true := by
  rw [hasEnabledMultiKey_iff]
  refine exists_congr fun j => and_congr_right fun _ => ?_
  rw [keyEnabled_setKeyStatus]
  by_cases hj : j = i <;> simp [hj, hstatus]

/-- The status of the channel after a key was disabled beside an enabled one. -/
theorem status_handlerMultiKeyUpdate_disable (hfind : keys.findIdx? (· = usingKey) = some i)
    (hstatus : status ≠ channelStatusEnabled)
    (hother : ∃ j < keys.length, j ≠ i ∧ c.channelInfo.keyEnabled j = true) :
    (handlerMultiKeyUpdate keys c usingKey status reason now).status = c.status := by
  rw [handlerMultiKeyUpdate_named hfind]
  rw [if_pos ((hasEnabledMultiKey_disable hstatus).mpr hother), if_neg hstatus]

/-- The status of the channel after a key was disabled and no other one is enabled. -/
theorem status_handlerMultiKeyUpdate_last (hfind : keys.findIdx? (· = usingKey) = some i)
    (hstatus : status ≠ channelStatusEnabled)
    (hother : ¬∃ j < keys.length, j ≠ i ∧ c.channelInfo.keyEnabled j = true) :
    (handlerMultiKeyUpdate keys c usingKey status reason now).status = channelStatusAutoDisabled := by
  rw [handlerMultiKeyUpdate_named hfind]
  exact if_neg (mt (hasEnabledMultiKey_disable hstatus).mp hother)

/-- A status update keeps the identifier and the keys. -/
theorem handlerMultiKeyUpdate_id_key (keys : List String) (c : Channel) (usingKey : String) (status : Int)
    (reason : String) (now : Int) :
    (handlerMultiKeyUpdate keys c usingKey status reason now).id = c.id ∧
      (handlerMultiKeyUpdate keys c usingKey status reason now).key = c.key := by
  cases hfind : keys.findIdx? (· = usingKey) with
  | none =>
    rw [handlerMultiKeyUpdate_unnamed hfind]
    split <;> exact ⟨rfl, rfl⟩
  | some i =>
    rw [handlerMultiKeyUpdate_named hfind]
    exact ⟨rfl, rfl⟩

end Handler

/-! ## The cache and the table afterwards -/

section After

variable {decodeArray : String → Option (List String)} {u : StatusUpdate} {s : ChannelStore} {db : DB}
  {cached row : Channel} {cachedAt : Int}

/-- The cached channel after the update. -/
def StatusUpdate.handle (u : StatusUpdate) (decodeArray : String → Option (List String)) (now : Int)
    (c : Channel) : Channel :=
  handlerMultiKeyUpdate (c.getKeys decodeArray) c u.usingKey u.status u.reason now

variable (c : Channel)

@[simp] theorem StatusUpdate.handle_id (now : Int) : (u.handle decodeArray now c).id = c.id :=
  (handlerMultiKeyUpdate_id_key ..).1

@[simp] theorem StatusUpdate.handle_key (now : Int) : (u.handle decodeArray now c).key = c.key :=
  (handlerMultiKeyUpdate_id_key ..).2

@[simp] theorem StatusUpdate.handle_getKeys (now : Int) :
    (u.handle decodeArray now c).getKeys decodeArray = c.getKeys decodeArray := by
  simp [Channel.getKeys]

/-- The cached copy of a multi-key channel is updated, and the table as without the cache. -/
theorem updateChannelStatus_cached (decodeArray : String → Option (List String)) (cachedAt : Int)
    (fails : Statement → Bool) (hcache : s.memoryCacheEnabled = true)
    (hcached : s.cache.channelsIDM u.channelId = some cached) (hmulti : cached.channelInfo.isMultiKey = true) :
    (s.updateChannelStatus decodeArray fails cachedAt u).2.cache.channelsIDM u.channelId =
        some (u.handle decodeArray cachedAt cached) ∧
      (s.updateChannelStatus decodeArray fails cachedAt u).2.db =
        (updateChannelStatus decodeArray fails { u with cached := false } s.db).2 := by
  have hid : (u.handle decodeArray cachedAt cached).id = u.channelId := by
    rw [handle_id]
    exact s.indexed u.channelId cached hcached
  have hput : (s.cache.putChannel (u.handle decodeArray cachedAt cached)).channelsIDM u.channelId =
      some (u.handle decodeArray cachedAt cached) := by
    rw [← hid, Cache.putChannel_self]
  obtain ⟨cache, hupdate, hget⟩ : ∃ cache,
      cacheStatusUpdate decodeArray { u with now := cachedAt } s.cache = some cache ∧
        cache.channelsIDM u.channelId = some (u.handle decodeArray cachedAt cached) := by
    unfold cacheStatusUpdate
    rw [hcached]
    dsimp only
    rw [if_pos hmulti]
    split
    · exact ⟨_, rfl, cacheUpdateChannelStatus_self hput⟩
    · exact ⟨_, rfl, hput⟩
  unfold ChannelStore.updateChannelStatus
  rw [if_pos hcache]
  split
  case h_1 hnone => rw [hupdate] at hnone; cases hnone
  case h_2 cache' hsome =>
    obtain rfl : cache = cache' := mem_unique hupdate hsome
    exact ⟨hget, rfl⟩

/-- A row that has the status already is passed over. -/
theorem updateChannelStatus_same (hrow : (db.channels.find? fun c => c.id = u.channelId) = some row)
    (hstatus : row.status = u.status) :
    (updateChannelStatus decodeArray noFaults { u with cached := false } db).2 = db := by
  unfold updateChannelStatus
  simp [hrow, hstatus]

/-- Any other row is updated, and the abilities when its status has changed. -/
theorem updateChannelStatus_changed (decodeArray : String → Option (List String))
    (hrow : (db.channels.find? fun c => c.id = u.channelId) = some row)
    (hmulti : row.channelInfo.isMultiKey = true) (hid : u.channelId ≠ 0) (hstatus : row.status ≠ u.status) :
    ((updateChannelStatus decodeArray noFaults { u with cached := false } db).2.channels.find?
        fun c => c.id = u.channelId) = some (u.handle decodeArray u.now row) ∧
      (updateChannelStatus decodeArray noFaults { u with cached := false } db).2.abilities =
        if (u.handle decodeArray u.now row).status ≠ row.status then
          (db.setAbilityStatus u.channelId (u.status = channelStatusEnabled)).abilities
        else db.abilities := by
  have hrowId : row.id = u.channelId := by simpa using List.find?_some hrow
  have happly : apply { u with cached := false } decodeArray row = u.handle decodeArray u.now row := by
    rw [apply, if_pos hmulti]
    rfl
  have hkey : (u.handle decodeArray u.now row).key = row.key := handle_key row u.now
  have hsaved : ((db.saveWithoutKey (u.handle decodeArray u.now row)).channels.find?
      fun c => c.id = u.channelId) = some (u.handle decodeArray u.now row) := by
    unfold DB.saveWithoutKey
    have hsame : ((fun c : Channel => decide (c.id = u.channelId)) ∘ fun b : Channel =>
        if b.id = (u.handle decodeArray u.now row).id then { u.handle decodeArray u.now row with key := b.key }
        else b) = fun c => decide (c.id = u.channelId) := by
      funext b
      by_cases hb : b.id = u.channelId <;> simp [hb, hrowId]
    rw [List.find?_map, hsame, hrow, map_some, if_pos (handle_id row u.now).symm,
      ← hkey]
  have hupdate : (updateChannelStatus decodeArray noFaults { u with cached := false } db).2 =
      if (u.handle decodeArray u.now row).status ≠ row.status then
        (db.saveWithoutKey (u.handle decodeArray u.now row)).setAbilityStatus u.channelId
          (u.status = channelStatusEnabled)
      else db.saveWithoutKey (u.handle decodeArray u.now row) := by
    unfold updateChannelStatus
    simp [noFaults, hrow, hstatus, happly, hmulti, hrowId, hid]
  rw [hupdate]
  split
  · exact ⟨hsaved, rfl⟩
  · exact ⟨hsaved, rfl⟩

/-- The abilities of a channel whose flag was written follow every status that agrees with the flag. -/
theorem abilitiesFollow_of_set {db' : DB} {id status status' : Int}
    (hset : db'.abilities = (db.setAbilityStatus id (status' = channelStatusEnabled)).abilities)
    (h : status' = channelStatusEnabled ↔ status = channelStatusEnabled) : db'.AbilitiesFollow id status := by
  intro a ha hid
  rw [hset] at ha
  obtain ⟨b, -, rfl⟩ := List.mem_map.mp ha
  by_cases hb : b.channelId = id
  · simpa [hb] using h
  · simp [hb] at hid

theorem abilitiesFollow_congr {db' : DB} (h : db'.abilities = db.abilities) (id status : Int) :
    db'.AbilitiesFollow id status ↔ db.AbilitiesFollow id status := by
  rw [DB.AbilitiesFollow, DB.AbilitiesFollow, h]

/-- What is asked of a store, of the cached copy and the row that it holds. -/
theorem statusSettled_iff {id : Int} (hcached : s.cache.channelsIDM id = some cached)
    (hrow : (s.db.channels.find? fun c => c.id = id) = some row) :
    s.StatusSettled decodeArray id ↔ cached.status = row.status ∧
      (∀ i < (row.getKeys decodeArray).length,
        cached.channelInfo.keyEnabled i = row.channelInfo.keyEnabled i) ∧
      s.db.AbilitiesFollow id row.status ∧
      (row.status = channelStatusEnabled → row.SomeKeyEnabled decodeArray) := by
  constructor
  · rintro ⟨cached', row', hcached', hrow', h⟩
    obtain rfl : cached' = cached := mem_unique hcached' hcached
    obtain rfl : row' = row := mem_unique hrow' hrow
    exact h
  · exact fun h => ⟨cached, row, hcached, hrow, h⟩

/-! ## When an update comes out as asked -/

/-- A channel and its copy agree after an update of both. -/
theorem handle_agrees (u : StatusUpdate) (hkeys : cached.getKeys decodeArray = row.getKeys decodeArray)
    (hstatus : cached.status = row.status)
    (henabled : cached.channelInfo.keyEnabled = row.channelInfo.keyEnabled) (now now' : Int) :
    (u.handle decodeArray now cached).status = (u.handle decodeArray now' row).status ∧
      (u.handle decodeArray now cached).channelInfo.keyEnabled =
        (u.handle decodeArray now' row).channelInfo.keyEnabled := by
  unfold handle
  rw [hkeys]
  cases hfind : (row.getKeys decodeArray).findIdx? (· = u.usingKey) with
  | none =>
    rw [handlerMultiKeyUpdate_unnamed hfind, handlerMultiKeyUpdate_unnamed hfind]
    split
    · exact ⟨rfl, henabled⟩
    · exact ⟨hstatus, henabled⟩
  | some i =>
    constructor
    · by_cases henable : u.status = channelStatusEnabled
      · rw [henable, status_handlerMultiKeyUpdate_enable hfind, status_handlerMultiKeyUpdate_enable hfind]
      · by_cases hother : row.OtherKeyEnabled decodeArray i
        · rw [status_handlerMultiKeyUpdate_disable hfind henable (henabled ▸ hother),
            status_handlerMultiKeyUpdate_disable hfind henable hother, hstatus]
        · rw [status_handlerMultiKeyUpdate_last hfind henable (henabled ▸ hother),
            status_handlerMultiKeyUpdate_last hfind henable hother]
    · funext j
      rw [keyEnabled_handlerMultiKeyUpdate hfind, keyEnabled_handlerMultiKeyUpdate hfind, henabled]

/-- An update of the copy alone, when the row has the status already. -/
theorem settles_of_same (hkeys : cached.getKeys decodeArray = row.getKeys decodeArray)
    (hstatus : cached.status = row.status)
    (henabled : cached.channelInfo.keyEnabled = row.channelInfo.keyEnabled) (hsame : row.status = u.status)
    (now : Int) :
    ((u.handle decodeArray now cached).status = row.status ∧
      (∀ i < (row.getKeys decodeArray).length,
        (u.handle decodeArray now cached).channelInfo.keyEnabled i = row.channelInfo.keyEnabled i) ∧
      db.AbilitiesFollow u.channelId row.status ∧
      (row.status = channelStatusEnabled → row.SomeKeyEnabled decodeArray)) ↔ u.Settles decodeArray db row := by
  unfold handle Settles
  rw [hkeys]
  cases hfind : (row.getKeys decodeArray).findIdx? (· = u.usingKey) with
  | none =>
    -- whatever the update does to the copy, it leaves it the status it has
    have hkeep :
        handlerMultiKeyUpdate (row.getKeys decodeArray) cached u.usingKey u.status u.reason now = cached := by
      rw [handlerMultiKeyUpdate_unnamed hfind, ← hsame, ← hstatus]
      split <;> rfl
    rw [hkeep, henabled, ← hsame]
    simp [hstatus]
  | some i =>
    have hi : i < (row.getKeys decodeArray).length := (List.findIdx?_eq_some_iff_getElem.mp hfind).1
    have hagree : (∀ j < (row.getKeys decodeArray).length,
        (handlerMultiKeyUpdate (row.getKeys decodeArray) cached u.usingKey u.status u.reason now).channelInfo.keyEnabled j
          = row.channelInfo.keyEnabled j) ↔
          decide (u.status = channelStatusEnabled) = row.channelInfo.keyEnabled i := by
      simp only [keyEnabled_handlerMultiKeyUpdate hfind, henabled]
      constructor
      · intro h
        simpa using h i hi
      · intro h j _
        by_cases hj : j = i
        · rw [if_pos hj, hj, h]
        · rw [if_neg hj]
    rw [hagree]
    by_cases henable : u.status = channelStatusEnabled
    · simp only [henable, status_handlerMultiKeyUpdate_enable hfind, hsame, if_true, decide_true, true_and,
        forall_const]
      constructor
      · rintro ⟨hi', hfollow, -⟩
        exact ⟨hi'.symm, hfollow⟩
      · rintro ⟨hi', hfollow⟩
        exact ⟨hi'.symm, hfollow, i, hi, hi'⟩
    · have hne : row.status ≠ channelStatusEnabled := hsame ▸ henable
      have hcopy : (∃ j < (row.getKeys decodeArray).length, j ≠ i ∧ cached.channelInfo.keyEnabled j = true) ↔
          row.OtherKeyEnabled decodeArray i := by
        rw [henabled]
        rfl
      have hstays : (handlerMultiKeyUpdate (row.getKeys decodeArray) cached u.usingKey u.status u.reason now).status =
          row.status ↔ row.OtherKeyEnabled decodeArray i ∨ row.status = channelStatusAutoDisabled := by
        by_cases hother : row.OtherKeyEnabled decodeArray i
        · rw [status_handlerMultiKeyUpdate_disable hfind henable (hcopy.mpr hother)]
          simp [hstatus, hother]
        · rw [status_handlerMultiKeyUpdate_last hfind henable (mt hcopy.mp hother)]
          simp [hother, eq_comm]
      rw [hstays, decide_eq_false henable]
      simp only [if_neg henable]
      constructor
      · rintro ⟨hstay, hi', hfollow, -⟩
        exact ⟨fun _ => ⟨hi'.symm, hstay⟩, fun _ => hfollow⟩
      · rintro ⟨hkey, hfollow⟩
        obtain ⟨hi', hstay⟩ := hkey hsame
        exact ⟨hstay, hi'.symm, hfollow (.inl hsame), fun h => absurd h hne⟩

/-- An update of the row. -/
theorem settles_of_changed {db' : DB} (hchanged : row.status ≠ u.status)
    (hset : db'.abilities = if (u.handle decodeArray u.now row).status ≠ row.status then
      (db.setAbilityStatus u.channelId (u.status = channelStatusEnabled)).abilities else db.abilities) :
    (db'.AbilitiesFollow u.channelId (u.handle decodeArray u.now row).status ∧
      ((u.handle decodeArray u.now row).status = channelStatusEnabled →
        (u.handle decodeArray u.now row).SomeKeyEnabled decodeArray)) ↔ u.Settles decodeArray db row := by
  rw [Channel.SomeKeyEnabled, handle_getKeys]
  unfold handle at hset ⊢
  unfold Settles
  cases hfind : (row.getKeys decodeArray).findIdx? (· = u.usingKey) with
  | none =>
    rw [handlerMultiKeyUpdate_unnamed hfind] at hset ⊢
    by_cases hset' : row.getKeys decodeArray = [] ∨ u.usingKey = ""
    · rw [if_pos hset'] at hset ⊢
      rw [if_pos (Ne.symm hchanged)] at hset
      have hfollow : db'.AbilitiesFollow u.channelId u.status := abilitiesFollow_of_set hset Iff.rfl
      simp only [if_pos hset', hfollow, hchanged, false_implies, true_and]
      rfl
    · rw [if_neg hset'] at hset ⊢
      rw [if_neg (by simp)] at hset
      rw [if_neg hset', abilitiesFollow_congr hset]
      rfl
  | some i =>
    have hi : i < (row.getKeys decodeArray).length := (List.findIdx?_eq_some_iff_getElem.mp hfind).1
    simp only [keyEnabled_handlerMultiKeyUpdate hfind]
    by_cases henable : u.status = channelStatusEnabled
    · rw [henable, status_handlerMultiKeyUpdate_enable hfind] at hset ⊢
      rw [if_pos (Ne.symm (henable ▸ hchanged))] at hset
      have hfollow : db'.AbilitiesFollow u.channelId channelStatusEnabled := abilitiesFollow_of_set hset Iff.rfl
      have hne : row.status ≠ channelStatusEnabled := henable ▸ hchanged
      simp only [hfollow, hne, false_implies, true_and, if_true, iff_true]
      exact fun _ => ⟨i, hi, by simp⟩
    · simp only [if_neg henable, hchanged, false_implies, false_or, true_and]
      by_cases hother : row.OtherKeyEnabled decodeArray i
      · obtain ⟨j, hj, hji, hjEnabled⟩ := id hother
        rw [status_handlerMultiKeyUpdate_disable hfind henable hother] at hset ⊢
        rw [if_neg (by simp)] at hset
        rw [abilitiesFollow_congr hset]
        simp only [hother, true_or, forall_const, and_iff_left_iff_imp]
        exact fun _ _ => ⟨j, hj, by rw [if_neg hji]; exact hjEnabled⟩
      · rw [status_handlerMultiKeyUpdate_last hfind henable hother] at hset ⊢
        have hauto : channelStatusAutoDisabled ≠ channelStatusEnabled := by decide
        simp only [hother, false_or, hauto, false_implies, and_true]
        by_cases hrow : row.status = channelStatusAutoDisabled
        · rw [if_neg (by simp [hrow])] at hset
          rw [abilitiesFollow_congr hset, hrow]
          simp
        · rw [if_pos (Ne.symm hrow)] at hset
          simp only [hrow, false_implies, iff_true]
          exact abilitiesFollow_of_set hset (iff_of_false henable hauto)

/-- In memory-cache mode: a multi-key channel and its cached copy agree on the status, the status list and the
keys. An update leaves them in agreement, the abilities with them and no enabled channel without an enabled
key, exactly when it is one that `Settles` describes. -/
theorem updateChannelStatus_settled_iff (decodeArray : String → Option (List String)) (u : StatusUpdate)
    (s : ChannelStore) (cached row : Channel) (cachedAt : Int) (hcache : s.memoryCacheEnabled = true)
    (hcached : s.cache.channelsIDM u.channelId = some cached)
    (hrow : (s.db.channels.find? fun c => c.id = u.channelId) = some row) (hid : u.channelId ≠ 0)
    (hcachedMulti : cached.channelInfo.isMultiKey = true) (hrowMulti : row.channelInfo.isMultiKey = true)
    (hstatus : cached.status = row.status)
    (hlist : cached.channelInfo.multiKeyStatusList = row.channelInfo.multiKeyStatusList)
    (hkeys : cached.getKeys decodeArray = row.getKeys decodeArray) :
    (s.updateChannelStatus decodeArray noFaults cachedAt u).2.StatusSettled decodeArray u.channelId ↔
      u.Settles decodeArray s.db row := by
  have henabled : cached.channelInfo.keyEnabled = row.channelInfo.keyEnabled := by
    funext i
    rw [ChannelInfo.keyEnabled, ChannelInfo.keyEnabled, ChannelInfo.getStatus, ChannelInfo.getStatus, hlist]
  obtain ⟨hcached', hdb⟩ := updateChannelStatus_cached decodeArray cachedAt noFaults hcache hcached hcachedMulti
  by_cases hsame : row.status = u.status
  · rw [updateChannelStatus_same hrow hsame] at hdb
    rw [statusSettled_iff hcached' (hdb ▸ hrow), hdb]
    exact settles_of_same hkeys hstatus henabled hsame cachedAt
  · obtain ⟨hrow', habilities⟩ :=
      updateChannelStatus_changed decodeArray hrow hrowMulti hid hsame
    rw [← hdb] at hrow' habilities
    obtain ⟨hstatus', henabled'⟩ :=
      handle_agrees u hkeys hstatus henabled cachedAt u.now
    rw [statusSettled_iff hcached' hrow', ← settles_of_changed hsame habilities]
    simp [hstatus', henabled']

end After

/-- An enabled channel with two keys; the status of the first one is given. -/
def mirroredChannel (status : Int) : Channel :=
  { id := 7
    key := "a\nb"
    status := channelStatusEnabled
    group := "default"
    models := "m"
    channelInfo :=
      { isMultiKey := true
        multiKeySize := 2
        multiKeyStatusList := some [(0, status)]
        multiKeyMode := multiKeyModePolling } }

/-- The channel in the table and in the cache, with its ability. -/
def mirroredStore (status : Int) : ChannelStore :=
  { memoryCacheEnabled := true
    db :=
      { channels := [mirroredChannel status]
        abilities := [{ group := "default", model := "m", channelId := 7, enabled := true }] }
    cache := ({} : Cache).putChannel (mirroredChannel status)
    indexed := Cache.Indexed.putChannel (by intro id c h; cases h) (mirroredChannel status) }

/-- Disabling the second key while the first one is disabled disables the channel, everywhere. -/
theorem updateChannelStatus_settled_last :
    ((mirroredStore channelStatusAutoDisabled).updateChannelStatus (fun _ => none) noFaults 5
        { channelId := 7, usingKey := "b", status := channelStatusAutoDisabled, now := 6 }).2.StatusSettled
      (fun _ => none) 7 := by
  refine (updateChannelStatus_settled_iff (fun _ => none) _ (mirroredStore channelStatusAutoDisabled)
    (mirroredChannel channelStatusAutoDisabled) (mirroredChannel channelStatusAutoDisabled) 5 rfl (by rfl) (by rfl)
    (by decide) rfl rfl rfl rfl rfl).mpr ?_
  have hfind : ((mirroredChannel channelStatusAutoDisabled).getKeys fun _ => none).findIdx? (· = "b") = some 1 := by
    decide +kernel
  have hother : ¬(mirroredChannel channelStatusAutoDisabled).OtherKeyEnabled (fun _ => none) 1 := by
    have hkeys : ((mirroredChannel channelStatusAutoDisabled).getKeys fun _ => none).length = 2 := by decide +kernel
    rintro ⟨j, hj, hne, henabled⟩
    obtain rfl : j = 0 := by omega
    revert henabled
    decide
  simp only [StatusUpdate.Settles, hfind, hother]
  exact ⟨fun h => absurd h (by decide), fun h => absurd h (by decide)⟩

/-- Enabling a key of an enabled channel enables it in the cache only: the row is passed over. -/
theorem updateChannelStatus_key_passed_over :
    (mirroredStore channelStatusAutoDisabled).cache.channelsIDM 7 = some (mirroredChannel channelStatusAutoDisabled) ∧
      ((mirroredStore channelStatusAutoDisabled).db.channels.find? fun c => c.id = 7) =
        some (mirroredChannel channelStatusAutoDisabled) ∧
      (mirroredStore channelStatusAutoDisabled).StatusSettled (fun _ => none) 7 ∧
      ¬((mirroredStore channelStatusAutoDisabled).updateChannelStatus (fun _ => none) noFaults 5
          { channelId := 7, usingKey := "a", status := channelStatusEnabled, now := 6 }).2.StatusSettled
        (fun _ => none) 7 := by
  refine ⟨by rfl, by rfl, ⟨mirroredChannel channelStatusAutoDisabled, mirroredChannel channelStatusAutoDisabled,
    by rfl, by rfl, rfl, fun _ _ => rfl, ?_, fun _ => ⟨1, by decide +kernel, by decide⟩⟩, ?_⟩
  · intro a ha _
    obtain rfl := mem_singleton.mp ha
    decide
  · rintro ⟨cached, row, hcached, hrow, -, hkeys, -⟩
    have henabled : cached.channelInfo.keyEnabled 0 = true := by
      rw [← Option.some.inj ((show _ = some _ by rfl).symm.trans hcached)]
      decide +kernel
    have hdisabled : row = mirroredChannel channelStatusAutoDisabled :=
      (Option.some.inj ((show _ = some _ by rfl).symm.trans hrow)).symm
    subst hdisabled
    rw [hkeys 0 (by decide +kernel)] at henabled
    revert henabled
    decide

end Prox.Routing
