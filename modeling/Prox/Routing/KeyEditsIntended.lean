import Prox.Routing.KeyEditsKept
import Prox.Lib.Choice

/-! # When an edit of the keys does what it is for

Each of `delete_key`, `delete_disabled_keys` and the append mode has an intended list of keys, each with its
status and its notes. An edit that reports success has stored it exactly when the condition `Keeps` on the old row
and the request holds. -/

namespace Prox.Routing

open List Option

/-! ## The edits -/

/-- An edit of the keys of a channel. -/
inductive KeyEdit where
  | deleteKey (keyIndex : Option Int)
  | deleteDisabledKeys
  | append (request : PatchChannel)

/-- The request for an edit. -/
def KeyEdit.run (env : EditEnv) (id : Int) (db : DB) : KeyEdit → Except EditError Unit × DB
  | .deleteKey keyIndex => manageMultiKeys id (Routing.deleteKey env.decodeArray keyIndex) db
  | .deleteDisabledKeys => manageMultiKeys id (Routing.deleteDisabledKeys env.decodeArray) db
  | .append p =>
    updateChannel env { p with channel := { p.channel with id := id }, keyMode := some "append" } db

/-- The new keys of a request: none when they cannot be decoded. -/
def PatchChannel.givenKeys (p : PatchChannel) (env : EditEnv) : List String := (p.newKeys env).toOption.getD []

/-- The distinct keys among new ones that are not among the old ones; blanks around a key do not count. -/
def distinctNew (old new : List String) : List String :=
  (firstOccurrences ((new.map trimSpace).filter (· ≠ ""))).filter (· ∉ old.map trimSpace)

/-- What an edit is for. -/
def KeyEdit.Intended (env : EditEnv) (row row' : Channel) : KeyEdit → Prop
  | .deleteKey keyIndex =>
    row'.keyRecords env.decodeArray = (row.keyRecords env.decodeArray).eraseIdx (keyIndex.getD 0).toNat
  | .deleteDisabledKeys =>
    row'.keyRecords env.decodeArray =
      (row.keyRecords env.decodeArray).filter fun r => r.status ≠ channelStatusAutoDisabled
  | .append p => ∃ added, row'.keyRecords env.decodeArray = row.keyRecords env.decodeArray ++ added ∧
      added.map KeyRecord.key = distinctNew (row.getKeys env.decodeArray) (p.givenKeys env) ∧
      ∀ r ∈ added, r.status = channelStatusEnabled

/-- The positions of keys that are appended have no status of their own. -/
def Channel.FreeFrom (row : Channel) (n added : Nat) : Prop :=
  ∀ i, n ≤ i → i < n + added → row.channelInfo.getStatus i = channelStatusEnabled

/-- The column begins like an array and is none. -/
def Undecodable (decodeArray : String → Option (List String)) (text : String) : Prop :=
  hasPrefix (trimSpace text) "[" = true ∧ decodeArray (trimSpace text) = none
  deriving Decidable

/-- When an edit does what it is for, in terms of the row and the request. -/
def KeyEdit.Keeps (env : EditEnv) (row : Channel) : KeyEdit → Prop
  | .deleteKey keyIndex =>
    Rejoins env.decodeArray (row.getKeys env.decodeArray)
      ((row.getKeys env.decodeArray).eraseIdx (keyIndex.getD 0).toNat)
  | .deleteDisabledKeys =>
    Rejoins env.decodeArray (row.getKeys env.decodeArray)
        (((row.keyRecords env.decodeArray).filter fun r => r.status ≠ channelStatusAutoDisabled).map KeyRecord.key) ∧
      ∀ r ∈ row.keyRecords env.decodeArray, r.status = channelStatusEnabled →
        r.disabledTime = none ∧ r.disabledReason = none
  | .append p =>
    let old := row.getKeys env.decodeArray
    let new := distinctNew old (p.givenKeys env)
    if row.key = "" then
      keysOf env.decodeArray p.channel.key = new ∧ (new = [] → p.channel.key = "") ∧ row.FreeFrom old.length new.length
    else if Undecodable env.decodeArray row.key then
      distinctNew [] (p.givenKeys env) = [] ∨
        keysOf env.decodeArray ("\n".intercalate (distinctNew [] (p.givenKeys env))) = old ++ new ∧
          row.FreeFrom old.length new.length
    else Rejoins env.decodeArray old (old ++ new) ∧ row.FreeFrom old.length new.length

/-! ## The deletions -/

section Deletions

variable {decodeArray : String → Option (List String)} {row row' : Channel} {keeps dated : Nat → Bool}

/-- Leaving out one position. -/
theorem filter_zipIdx_ne {α : Type} (xs : List α) (n k : Nat) :
    ((xs.zipIdx k).filter fun entry => entry.2 ≠ k + n) = (xs.zipIdx k).eraseIdx n := by
  induction xs generalizing n k with
  | nil => rfl
  | cons x xs ih =>
    rw [zipIdx_cons]
    cases n with
    | zero =>
      rw [filter_cons_of_neg (by simp), eraseIdx_cons_zero, filter_eq_self]
      intro entry hentry
      have := le_snd_of_mem_zipIdx hentry
      simpa using by omega
    | succ n =>
      have hnext := ih n (k + 1)
      rw [filter_cons_of_pos (by simp), eraseIdx_cons_succ, ← hnext]
      congr 2
      funext entry
      congr 2
      omega

/-- The records of the keys that remain. -/
theorem map_record_withRemaining {r : RemainingKeys} {entries : List (String × Nat)}
    (h : r.Holds row.channelInfo dated entries) :
    r.keys.zipIdx.map (fun entry => (row.withRemaining r).channelInfo.record entry.1 entry.2) =
      entries.map fun entry =>
        if dated entry.2 then row.channelInfo.record entry.1 entry.2
        else { row.channelInfo.record entry.1 entry.2 with disabledTime := none, disabledReason := none } := by
  apply ext_getElem
  · simp [h.keys]
  · intro p hp hp'
    have hlt : p < entries.length := by simpa using hp'
    have hkeys : p < r.keys.length := by simpa using hp
    have hkey : r.keys[p] = (entries[p]).1 := by simp [h.keys]
    have hstatus : (row.withRemaining r).channelInfo.getStatus p = row.channelInfo.getStatus (entries[p]).2 := by
      rw [getStatus_eq]
      show (entryAt r.statusList p).getD channelStatusEnabled = _
      rw [h.status, List.getElem?_eq_getElem hlt, bind_some]
      split
      · rfl
      · next hne => exact (not_ne_iff.mp hne).symm
    have htime : entryAt r.disabledTime p =
        if dated (entries[p]).2 then entryAt row.channelInfo.multiKeyDisabledTime (entries[p]).2 else none := by
      rw [h.time, List.getElem?_eq_getElem hlt, bind_some]
    have hreason : entryAt r.disabledReason p =
        if dated (entries[p]).2 then entryAt row.channelInfo.multiKeyDisabledReason (entries[p]).2 else none := by
      rw [h.reason, List.getElem?_eq_getElem hlt, bind_some]
    have hrecord : (row.withRemaining r).channelInfo.record (entries[p]).1 p =
        { key := (entries[p]).1
          status := (row.withRemaining r).channelInfo.getStatus p
          disabledTime := entryAt r.disabledTime p
          disabledReason := entryAt r.disabledReason p } := rfl
    simp only [getElem_map, getElem_zipIdx, Nat.zero_add, hkey]
    rw [hrecord, hstatus, htime, hreason]
    split
    · rfl
    · rfl

/-- A deletion keeps what it is meant to keep exactly when the keys can be rejoined and no note is dropped. -/
theorem remaining_iff (hraw : RawElements decodeArray) (hold : row.key ≠ "")
    (hkey : row'.key = keepZero ""
      ("\n".intercalate (remainingKeys row.channelInfo keeps dated (row.getKeys decodeArray)).keys) row.key)
    (hinfo : row'.channelInfo =
      (row.withRemaining (remainingKeys row.channelInfo keeps dated (row.getKeys decodeArray))).channelInfo.recounted
        (updateKeys decodeArray row'.key).length) {want : List KeyRecord}
    (hwant : want = ((row.getKeys decodeArray).zipIdx.filter fun entry => keeps entry.2).map
      fun entry => row.channelInfo.record entry.1 entry.2) :
    (row'.keyRecords decodeArray = want ∧ row'.channelInfo.multiKeySize = want.length) ↔
      Rejoins decodeArray (row.getKeys decodeArray) (want.map KeyRecord.key) ∧
        ∀ entry ∈ (row.getKeys decodeArray).zipIdx, keeps entry.2 = true → dated entry.2 = false →
          entryAt row.channelInfo.multiKeyDisabledTime entry.2 = none ∧
            entryAt row.channelInfo.multiKeyDisabledReason entry.2 = none := by
  have hholds := holds_remainingKeys row.channelInfo keeps dated (row.getKeys decodeArray)
  have hkeys : want.map KeyRecord.key =
      (remainingKeys row.channelInfo keeps dated (row.getKeys decodeArray)).keys := by
    rw [hholds.keys, hwant, List.map_map]
    rfl
  have hlength : want.length = (want.map KeyRecord.key).length := (length_map _).symm
  rw [stored_records_iff hinfo, hlength, hkey, ← hkeys, stored_reads_iff hraw hold, hkeys,
    map_record_withRemaining hholds, hwant, map_inj_left]
  refine and_congr Iff.rfl ?_
  simp only [mem_filter, and_imp]
  refine forall_congr' fun entry => forall_congr' fun _ => forall_congr' fun _ => ?_
  cases hdated : dated entry.2
  · simp [ChannelInfo.record, eq_comm]
  · simp

end Deletions

/-! ## Appending -/

section Appending

variable {env : EditEnv} {row row' : Channel}

/-- The loop over the new keys, with any set of seen keys. -/
theorem dedupedNewKeys_eq (seen new : List String) :
    dedupedNewKeys seen new = (firstOccurrences ((new.map trimSpace).filter (· ≠ ""))).filter (· ∉ seen) := by
  induction new generalizing seen with
  | nil => rfl
  | cons key rest ih =>
    rw [dedupedNewKeys, map_cons]
    by_cases hblank : trimSpace key = ""
    · rw [if_pos (Or.inl hblank), filter_cons_of_neg (by simpa using hblank), ih]
    · rw [filter_cons_of_pos (by simpa using hblank), firstOccurrences]
      by_cases hseen : trimSpace key ∈ seen
      · rw [if_pos (Or.inr hseen), filter_cons_of_neg (by simpa using hseen), List.filter_filter, ih]
        refine filter_congr fun x _ => ?_
        by_cases hx : x = trimSpace key <;> simp [hx, hseen]
      · rw [if_neg (by simp [hblank, hseen]), filter_cons_of_pos (by simpa using hseen), ih,
          List.filter_filter]
        congr 1
        refine filter_congr fun x _ => ?_
        simp [and_comm]

/-- The loop yields the distinct new keys. -/
theorem dedupedNewKeys_seenKeys (old new : List String) :
    dedupedNewKeys (seenKeys old) new = distinctNew old new := by
  rw [dedupedNewKeys_eq]
  refine filter_congr fun x hx => ?_
  have hne : x ≠ "" := by
    have := mem_firstOccurrences.mp hx
    simpa using (mem_filter.mp this).2
  simp [seenKeys, hne]

theorem distinctNew_ne_blank {old new : List String} {key : String} (h : key ∈ distinctNew old new) : key ≠ "" := by
  have hmem := mem_firstOccurrences.mp (mem_of_mem_filter h)
  simpa using (mem_filter.mp hmem).2

/-- Without new keys there are none that are new beside old ones. -/
theorem distinctNew_eq_nil {old new : List String} (h : distinctNew [] new = []) : distinctNew old new = [] := by
  unfold distinctNew at h ⊢
  have hnone : firstOccurrences ((new.map trimSpace).filter (· ≠ "")) = [] := by simpa using h
  rw [hnone]
  rfl

/-- The append branch reads the keys of the row, except from a column that begins like an array and is none. -/
theorem existingKeys_eq (hkey : row.key ≠ "") :
    existingKeys env row.key = if Undecodable env.decodeArray row.key then [] else row.getKeys env.decodeArray := by
  unfold existingKeys Channel.getKeys
  rw [if_neg hkey]
  by_cases hstart : hasPrefix (trimSpace row.key) "[" = true
  · cases hdecode : env.decodeArray (trimSpace row.key) with
    | none => simp [Undecodable, hdecode]
    | some arr => simp [Undecodable, hdecode]
  · simp [hstart, Undecodable]

/-- Appended keys are enabled when their positions have no status of their own. -/
theorem appended_iff {info : ChannelInfo} (hinfo : ∀ key i, info.record key i = row.channelInfo.record key i)
    (new : List String) :
    (∃ added, ((row.keyRecords env.decodeArray ++ added).map KeyRecord.key).zipIdx.map
          (fun entry => info.record entry.1 entry.2) = row.keyRecords env.decodeArray ++ added ∧
        added.map KeyRecord.key = new ∧ ∀ r ∈ added, r.status = channelStatusEnabled) ↔
      row.FreeFrom (row.getKeys env.decodeArray).length new.length := by
  have hold : (row.keyRecords env.decodeArray).map KeyRecord.key = row.getKeys env.decodeArray :=
    map_key_records ..
  have hsplit : ∀ added : List KeyRecord, added.map KeyRecord.key = new →
      ((row.keyRecords env.decodeArray ++ added).map KeyRecord.key).zipIdx.map
          (fun entry => info.record entry.1 entry.2) =
        row.keyRecords env.decodeArray ++ (new.zipIdx (row.getKeys env.decodeArray).length).map
          fun entry => row.channelInfo.record entry.1 entry.2 := by
    intro added hadded
    rw [map_append, hold, hadded, zipIdx_append, map_append, Nat.zero_add]
    simp only [hinfo]
    rfl
  constructor
  · rintro ⟨added, hrecords, hadded, henabled⟩ i hi hin
    rw [hsplit added hadded, append_cancel_left_eq] at hrecords
    have hlt : i - (row.getKeys env.decodeArray).length < new.length := by omega
    have hmem : row.channelInfo.record new[i - (row.getKeys env.decodeArray).length] i ∈ added := by
      rw [← hrecords]
      refine List.mem_map.mpr ⟨(new[i - (row.getKeys env.decodeArray).length], i), ?_, rfl⟩
      rw [List.mem_zipIdx_iff_le_and_getElem?_sub]
      exact ⟨hi, List.getElem?_eq_getElem hlt⟩
    exact henabled _ hmem
  · intro hfree
    have hkeys : ((new.zipIdx (row.getKeys env.decodeArray).length).map
        fun entry => row.channelInfo.record entry.1 entry.2).map KeyRecord.key = new := by
      rw [List.map_map]
      exact zipIdx_map_fst _ new
    refine ⟨_, hsplit _ hkeys, hkeys, ?_⟩
    intro r hr
    obtain ⟨entry, hentry, rfl⟩ := List.mem_map.mp hr
    have hle := le_snd_of_mem_zipIdx hentry
    have hlt := snd_lt_add_of_mem_zipIdx hentry
    exact hfree entry.2 hle (by omega)

/-- An append does what it is for when the stored text reads as the old and the new keys. -/
theorem append_iff {c : Channel} {new : List String}
    (hinfo : row'.channelInfo = c.channelInfo.recounted (updateKeys env.decodeArray row'.key).length)
    (hrecord : ∀ key i, c.channelInfo.record key i = row.channelInfo.record key i) :
    ((∃ added, row'.keyRecords env.decodeArray = row.keyRecords env.decodeArray ++ added ∧
          added.map KeyRecord.key = new ∧ ∀ r ∈ added, r.status = channelStatusEnabled) ∧
        row'.channelInfo.multiKeySize = (row'.keyRecords env.decodeArray).length) ↔
      (keysOf env.decodeArray row'.key = row.getKeys env.decodeArray ++ new ∧
        (updateKeys env.decodeArray row'.key).length = (row.getKeys env.decodeArray ++ new).length) ∧
      row.FreeFrom (row.getKeys env.decodeArray).length new.length := by
  have hold : (row.keyRecords env.decodeArray).map KeyRecord.key = row.getKeys env.decodeArray :=
    map_key_records ..
  rw [← appended_iff hrecord new]
  constructor
  · rintro ⟨⟨added, hrecords, hadded, henabled⟩, hsize⟩
    rw [hrecords] at hsize
    obtain ⟨⟨hkeys, hlength⟩, hwant⟩ := (stored_records_iff hinfo).mp ⟨hrecords, hsize⟩
    rw [← length_map KeyRecord.key] at hlength
    rw [map_append, hold, hadded] at hkeys hlength
    exact ⟨⟨hkeys, hlength⟩, added, hwant, hadded, henabled⟩
  · rintro ⟨⟨hkeys, hlength⟩, added, hwant, hadded, henabled⟩
    have hmap : (row.keyRecords env.decodeArray ++ added).map KeyRecord.key = row.getKeys env.decodeArray ++ new := by
      rw [map_append, hold, hadded]
    rw [← hmap] at hkeys hlength
    rw [length_map] at hlength
    obtain ⟨hrecords, hsize⟩ := (stored_records_iff hinfo).mpr ⟨⟨hkeys, hlength⟩, hwant⟩
    exact ⟨⟨added, hrecords, hadded, henabled⟩, by rw [hsize, hrecords]⟩

/-- No text but the empty one has no keys for `Update`. -/
theorem reads_iff_of_count {text : String} {keys : List String} :
    (keysOf env.decodeArray text = keys ∧ (updateKeys env.decodeArray text).length = keys.length) ↔
      keysOf env.decodeArray text = keys ∧ (keys = [] → text = "") := by
  refine and_congr_right fun hkeys => ?_
  by_cases hnil : keys = []
  · rw [hnil, length_nil]
    by_cases htext : text = ""
    · simp [htext, updateKeys]
    · simp [htext, updateKeys_ne_nil htext]
  · rw [updateKeys_eq (by rw [hkeys]; exact hnil), hkeys]
    simp [hnil]

/-- An array that cannot be decoded is read as lines, of which there is one at least. -/
theorem getKeys_ne_nil_of_undecodable (hkey : row.key ≠ "") (h : Undecodable env.decodeArray row.key) :
    row.getKeys env.decodeArray ≠ [] := by
  rw [getKeys_eq_keysOf, keysOf_lines hkey (by rintro ⟨-, hsome⟩; simp [h.2] at hsome)]
  exact splitOn_ne_nil _ _

end Appending

/-! ## Requests that succeed -/

section Requests

variable {env : EditEnv} {db : DB} {id : Int} {row : Channel}

/-- A successful deletion of a key stores the remaining ones. -/
theorem run_deleteKey (hrow : (db.channels.find? fun r => r.id = id) = some row)
    (hmulti : row.channelInfo.isMultiKey = true) {keyIndex : Option Int}
    (hok : ((KeyEdit.deleteKey keyIndex).run env id db).1 = .ok ()) :
    ∃ idx : Nat, keyIndex = some (idx : Int) ∧
      ((KeyEdit.deleteKey keyIndex).run env id db).2 =
        (update env.decodeArray noFaults (row.withRemaining (remainingKeys row.channelInfo (fun i => i ≠ idx)
          (fun _ => true) (row.getKeys env.decodeArray))) db).2 ∧
      row.getKeys env.decodeArray ≠ [] := by
  simp only [KeyEdit.run, manageMultiKeys, hrow, hmulti, Bool.not_true, Bool.false_eq_true, if_false] at hok ⊢
  unfold deleteKey at hok ⊢
  cases keyIndex with
  | none => cases hok
  | some keyIndex =>
    dsimp only at hok ⊢
    by_cases hrange : keyIndex < 0 ∨ (row.channelInfo.multiKeySize : Int) ≤ keyIndex
    · rw [if_pos hrange] at hok
      cases hok
    · rw [if_neg hrange] at hok ⊢
      obtain ⟨idx, rfl⟩ : ∃ idx : Nat, keyIndex = idx := ⟨keyIndex.toNat, by omega⟩
      have hkeeps : (fun i : Nat => decide ((i : Int) ≠ (idx : Int))) = fun i => decide (i ≠ idx) := by
        funext i
        exact decide_eq_decide.mpr (not_congr Int.natCast_inj)
      rw [hkeeps] at hok ⊢
      by_cases hlast : (remainingKeys row.channelInfo (fun i => decide (i ≠ idx)) (fun _ => true)
          (row.getKeys env.decodeArray)).keys = []
      · rw [if_pos hlast] at hok
        cases hok
      · refine ⟨idx, rfl, by rw [if_neg hlast]; rfl, ?_⟩
        intro hnil
        rw [hnil] at hlast
        exact hlast rfl

/-- A successful deletion of the disabled keys stores the remaining ones. -/
theorem run_deleteDisabledKeys (hrow : (db.channels.find? fun r => r.id = id) = some row)
    (hmulti : row.channelInfo.isMultiKey = true) (hok : (KeyEdit.deleteDisabledKeys.run env id db).1 = .ok ()) :
    (KeyEdit.deleteDisabledKeys.run env id db).2 =
        (update env.decodeArray noFaults (row.withRemaining (remainingKeys row.channelInfo
          (fun i => row.channelInfo.getStatus i ≠ channelStatusAutoDisabled)
          (fun i => row.channelInfo.getStatus i ≠ channelStatusEnabled) (row.getKeys env.decodeArray))) db).2 ∧
      row.getKeys env.decodeArray ≠ [] := by
  simp only [KeyEdit.run, manageMultiKeys, hrow, hmulti, Bool.not_true, Bool.false_eq_true, if_false] at hok ⊢
  unfold deleteDisabledKeys at hok ⊢
  by_cases hcount : ((List.range (row.getKeys env.decodeArray).length).countP fun i =>
      row.channelInfo.getStatus i = channelStatusAutoDisabled) = 0
  · rw [if_pos hcount] at hok
    cases hok
  · rw [if_neg hcount]
    refine ⟨rfl, ?_⟩
    intro hnil
    rw [hnil] at hcount
    exact hcount rfl

@[simp] theorem isMultiKey_withMode (info : ChannelInfo) (mode : Option String) :
    (info.withMode mode).isMultiKey = info.isMultiKey := by
  unfold ChannelInfo.withMode
  split <;> rfl

theorem record_withMode (info : ChannelInfo) (mode : Option String) (key : String) (i : Nat) :
    (info.withMode mode).record key i = info.record key i := by
  unfold ChannelInfo.withMode
  split <;> rfl

/-- A successful request in append mode stores what the branch joins. -/
theorem updateChannel_append {p : PatchChannel} (hrow : (db.channels.find? fun r => r.id = p.channel.id) = some row)
    (hmulti : row.channelInfo.isMultiKey = true) (hmode : p.keyMode = some "append")
    (hok : (updateChannel env p db).1 = .ok ()) :
    ∃ key, (updateChannel env p db).2 = (update env.decodeArray noFaults
        { p.channel with key := key, channelInfo := row.channelInfo.withMode p.multiKeyMode } db).2 ∧
      key = if row.key = "" then p.channel.key
        else "\n".intercalate (existingKeys env row.key ++
          dedupedNewKeys (seenKeys (existingKeys env row.key)) (p.givenKeys env)) := by
  unfold updateChannel at hok ⊢
  cases hinvalid : p.invalid with
  | some message =>
    rw [hinvalid] at hok
    cases hok
  | none =>
    have happend : p.keyMode = some "append" ∧ (row.channelInfo.withMode p.multiKeyMode).isMultiKey = true :=
      ⟨hmode, by rw [isMultiKey_withMode, hmulti]⟩
    rw [hinvalid] at hok
    simp only [hrow, if_pos happend] at hok ⊢
    cases hkey : appendKeys env p row.key with
    | error e =>
      rw [hkey] at hok
      cases hok
    | ok key =>
      refine ⟨key, rfl, ?_⟩
      unfold appendKeys at hkey
      by_cases hempty : row.key = ""
      · rw [if_pos hempty] at hkey ⊢
        exact (Except.ok.inj hkey).symm
      · rw [if_neg hempty] at hkey ⊢
        obtain ⟨newKeys, hnew, hjoined⟩ := bind_eq_ok.mp hkey
        have hgiven : p.givenKeys env = newKeys := by
          rw [PatchChannel.givenKeys, hnew]
          rfl
        rw [hgiven]
        exact (Except.ok.inj hjoined).symm

end Requests

/-! ## The theorem -/

/-- The row that is found is the row that is asked about. -/
theorem exists_found_iff {rows : List Channel} {id : Int} {row' : Channel} {P : Channel → Prop}
    (hfind : (rows.find? fun r => r.id = id) = some row') :
    (∃ r, (rows.find? fun r => r.id = id) = some r ∧ P r) ↔ P row' := by
  constructor
  · rintro ⟨r, hr, h⟩
    rwa [← mem_unique hr hfind]
  · exact fun h => ⟨row', hfind, h⟩

theorem length_keyRecords (c : Channel) (decodeArray : String → Option (List String)) :
    (c.keyRecords decodeArray).length = (c.getKeys decodeArray).length := by
  rw [Channel.keyRecords, length_map, length_zipIdx]

/-- **Editing the keys**: a `delete_key`, `delete_disabled_keys` or append request that reports success leaves, for a
reader of the stored row, the intended keys with their statuses and notes, and a size that is their number, exactly
when `Keeps` holds of the old row and the request. -/
theorem keyEdit_keeps_iff (env : EditEnv) (hraw : RawElements env.decodeArray) (id : Int) (db : DB) (row : Channel)
    (hrow : (db.channels.find? fun r => r.id = id) = some row) (hid : id ≠ 0)
    (hmulti : row.channelInfo.isMultiKey = true) (e : KeyEdit) (hok : (e.run env id db).1 = .ok ()) :
    (∃ row', ((e.run env id db).2.channels.find? fun r => r.id = id) = some row' ∧ e.Intended env row row' ∧
        row'.channelInfo.multiKeySize = (row'.getKeys env.decodeArray).length) ↔ e.Keeps env row := by
  have hrowId : row.id = id := by simpa using List.find?_some hrow
  have hold : row.getKeys env.decodeArray ≠ [] → row.key ≠ "" := by
    intro hkeys hempty
    rw [Channel.getKeys, if_pos hempty] at hkeys
    exact hkeys rfl
  -- the stored row is the one that is read back
  have hread : ∀ {row' : Channel}, ((e.run env id db).2.channels.find? fun r => r.id = id) = some row' →
      ((∃ row', ((e.run env id db).2.channels.find? fun r => r.id = id) = some row' ∧ e.Intended env row row' ∧
          row'.channelInfo.multiKeySize = (row'.getKeys env.decodeArray).length) ↔
        e.Intended env row row' ∧ row'.channelInfo.multiKeySize = (row'.keyRecords env.decodeArray).length) := by
    intro row' hfind
    rw [exists_found_iff hfind, length_keyRecords]
  cases e with
  | deleteKey keyIndex =>
    obtain ⟨idx, rfl, hrun, hkeys⟩ := run_deleteKey hrow hmulti hok
    obtain ⟨-, row', hfind, hkey, hinfo⟩ := update_stored env.decodeArray
      (row.withRemaining (remainingKeys row.channelInfo (fun i => i ≠ idx) (fun _ => true)
        (row.getKeys env.decodeArray))) (hrowId ▸ hrow) (hrowId ▸ hid) hmulti
    have hwant : (row.keyRecords env.decodeArray).eraseIdx idx =
        ((row.getKeys env.decodeArray).zipIdx.filter fun entry => decide (entry.2 ≠ idx)).map
          fun entry => row.channelInfo.record entry.1 entry.2 := by
      have hfilter := filter_zipIdx_ne (row.getKeys env.decodeArray) idx 0
      rw [Nat.zero_add] at hfilter
      rw [hfilter, Channel.keyRecords, eraseIdx_map]
    rw [hread (by rw [hrun, ← hrowId]; exact hfind)]
    show (row'.keyRecords env.decodeArray = (row.keyRecords env.decodeArray).eraseIdx idx ∧ _) ↔
      Rejoins env.decodeArray (row.getKeys env.decodeArray) ((row.getKeys env.decodeArray).eraseIdx idx)
    have hkeysOf : ((row.keyRecords env.decodeArray).eraseIdx idx).map KeyRecord.key =
        (row.getKeys env.decodeArray).eraseIdx idx := by
      rw [← eraseIdx_map, Channel.keyRecords, map_key_records]
    rw [and_congr_right fun h => by rw [h], remaining_iff hraw (hold hkeys) hkey hinfo hwant, hkeysOf]
    simp
  | deleteDisabledKeys =>
    obtain ⟨hrun, hkeys⟩ := run_deleteDisabledKeys hrow hmulti hok
    obtain ⟨-, row', hfind, hkey, hinfo⟩ := update_stored env.decodeArray
      (row.withRemaining (remainingKeys row.channelInfo
        (fun i => row.channelInfo.getStatus i ≠ channelStatusAutoDisabled)
        (fun i => row.channelInfo.getStatus i ≠ channelStatusEnabled) (row.getKeys env.decodeArray)))
      (hrowId ▸ hrow) (hrowId ▸ hid) hmulti
    have hwant : ((row.keyRecords env.decodeArray).filter fun r => r.status ≠ channelStatusAutoDisabled) =
        ((row.getKeys env.decodeArray).zipIdx.filter fun entry =>
          decide (row.channelInfo.getStatus entry.2 ≠ channelStatusAutoDisabled)).map
            fun entry => row.channelInfo.record entry.1 entry.2 := by
      rw [Channel.keyRecords, List.filter_map]
      rfl
    rw [hread (by rw [hrun, ← hrowId]; exact hfind)]
    show (row'.keyRecords env.decodeArray = _ ∧ _) ↔ Rejoins env.decodeArray _ _ ∧ _
    rw [and_congr_right fun h => by rw [h], remaining_iff hraw (hold hkeys) hkey hinfo hwant]
    refine and_congr Iff.rfl ?_
    -- an enabled key is kept by the deletion, and its notes are not
    rw [Channel.keyRecords, List.forall_mem_map]
    refine forall_congr' fun entry => forall_congr' fun _ => ?_
    have hne : channelStatusEnabled ≠ channelStatusAutoDisabled := by decide
    by_cases henabled : row.channelInfo.getStatus entry.2 = channelStatusEnabled
    · simp [henabled, hne, ChannelInfo.record]
    · simp [henabled, ChannelInfo.record]
  | append p =>
    obtain ⟨key, hrun, hkeyText⟩ := updateChannel_append
      (p := { p with channel := { p.channel with id := id }, keyMode := some "append" }) hrow hmulti rfl hok
    obtain ⟨-, row', hfind, hkey, hinfo⟩ := update_stored env.decodeArray
      ({ p.channel with id := id, key := key, channelInfo := row.channelInfo.withMode p.multiKeyMode })
      hrow hid (by rw [isMultiKey_withMode, hmulti])
    rw [hread (by rw [← hfind]; exact congrArg (fun db : DB => db.channels.find? _) hrun)]
    show ((∃ added, row'.keyRecords env.decodeArray = row.keyRecords env.decodeArray ++ added ∧
      added.map KeyRecord.key = distinctNew (row.getKeys env.decodeArray) (p.givenKeys env) ∧ _) ∧ _) ↔ _
    rw [append_iff hinfo (record_withMode row.channelInfo p.multiKeyMode), reads_iff_of_count]
    unfold KeyEdit.Keeps
    dsimp only at hkeyText hkey ⊢
    change key = if row.key = "" then p.channel.key else "\n".intercalate (existingKeys env row.key ++
      dedupedNewKeys (seenKeys (existingKeys env row.key)) (p.givenKeys env)) at hkeyText
    by_cases hempty : row.key = ""
    · have hnone : row.getKeys env.decodeArray = [] := by rw [Channel.getKeys, if_pos hempty]
      have hstored : row'.key = p.channel.key := by
        rw [hkey, hkeyText, if_pos hempty, hempty, keepZero]
        split
        · next h => exact h.symm
        · rfl
      rw [if_pos hempty, hnone, hstored, nil_append, and_assoc]
    · rw [if_neg hempty] at hkeyText ⊢
      by_cases hundecodable : Undecodable env.decodeArray row.key
      · -- no old key is seen, and the new ones take the place of all
        have hsome := getKeys_ne_nil_of_undecodable hempty hundecodable
        have hjoined : key = "\n".intercalate (distinctNew [] (p.givenKeys env)) := by
          rw [hkeyText, existingKeys_eq hempty, if_pos hundecodable, dedupedNewKeys_seenKeys, nil_append]
        rw [if_pos hundecodable]
        by_cases hnew : distinctNew [] (p.givenKeys env) = []
        · have hstored : row'.key = row.key := by
            rw [hkey, hjoined, hnew]
            exact if_pos rfl
          rw [hstored, distinctNew_eq_nil hnew, ← getKeys_eq_keysOf]
          simp [hnew, hsome, Channel.FreeFrom]
          omega
        · have hne : key ≠ "" := by
            rw [hjoined, Ne, intercalate_eq_empty_iff hnew]
            intro hblank
            exact distinctNew_ne_blank (by rw [hblank]; exact mem_singleton_self _) rfl
          rw [hkey, keepZero, if_neg hne, hjoined]
          simp [hnew, hsome]
      · have hjoined : key = "\n".intercalate (row.getKeys env.decodeArray ++
            distinctNew (row.getKeys env.decodeArray) (p.givenKeys env)) := by
          rw [hkeyText, existingKeys_eq hempty, if_neg hundecodable, dedupedNewKeys_seenKeys]
        rw [if_neg hundecodable, ← reads_iff_of_count, hkey, hjoined, stored_reads_iff hraw hempty]
        rfl

/-- No text is an array. -/
def plainKeys : EditEnv := { decodeArray := fun _ => none, decodeElements := fun _ => .error "" }

/-- A channel with three keys, the second of which was disabled automatically. -/
def threeKeys : Channel :=
  { id := 7
    key := "a\nb\nc"
    status := channelStatusEnabled
    channelInfo :=
      { isMultiKey := true
        multiKeySize := 3
        multiKeyStatusList := some [(1, channelStatusAutoDisabled)]
        multiKeyDisabledTime := some [(1, 5)]
        multiKeyDisabledReason := some [(1, "quota")] } }

/-- Without the first key the other two keep what is attached to them. -/
theorem keyEdit_keeps_first :
    ∃ row', (((KeyEdit.deleteKey (some 0)).run plainKeys 7 { channels := [threeKeys] }).2.channels.find?
        fun r => r.id = 7) = some row' ∧ (KeyEdit.deleteKey (some 0)).Intended plainKeys threeKeys row' ∧
      row'.channelInfo.multiKeySize = (row'.getKeys plainKeys.decodeArray).length := by
  refine (keyEdit_keeps_iff plainKeys (by intro _ _ h; cases h) 7 { channels := [threeKeys] } threeKeys (by rfl)
    (by decide) rfl (.deleteKey (some 0)) (by decide +kernel)).mpr ?_
  have hkeys : (threeKeys.getKeys plainKeys.decodeArray).eraseIdx (((some 0 : Option Int).getD 0).toNat) = ["b", "c"] := by
    decide +kernel
  refine ⟨by decide +kernel, by decide +kernel, fun _ =>
    ⟨by decide +kernel, by decide +kernel, by decide +kernel, ?_⟩⟩
  rintro ⟨-, hdecode⟩
  cases hdecode

/-- A channel whose keys were all disabled automatically. -/
def exhaustedKeys : Channel :=
  { id := 7
    key := "a\nb"
    status := channelStatusAutoDisabled
    channelInfo :=
      { isMultiKey := true
        multiKeySize := 2
        multiKeyStatusList := some [(0, channelStatusAutoDisabled), (1, channelStatusAutoDisabled)] } }

/-- Deleting all keys deletes none and enables them: the empty column is not written, the empty status list is. -/
theorem keyEdit_exhausted :
    (KeyEdit.deleteDisabledKeys.run plainKeys 7 { channels := [exhaustedKeys] }).1 = .ok () ∧
      (∃ row', ((KeyEdit.deleteDisabledKeys.run plainKeys 7 { channels := [exhaustedKeys] }).2.channels.find?
          fun r => r.id = 7) = some row' ∧
        row'.keyRecords plainKeys.decodeArray =
          [{ key := "a", status := channelStatusEnabled, disabledTime := none, disabledReason := none },
            { key := "b", status := channelStatusEnabled, disabledTime := none, disabledReason := none }]) ∧
      ¬∃ row', ((KeyEdit.deleteDisabledKeys.run plainKeys 7 { channels := [exhaustedKeys] }).2.channels.find?
          fun r => r.id = 7) = some row' ∧
        KeyEdit.deleteDisabledKeys.Intended plainKeys exhaustedKeys row' ∧
        row'.channelInfo.multiKeySize = (row'.getKeys plainKeys.decodeArray).length := by
  have hrecords : ∃ row', ((KeyEdit.deleteDisabledKeys.run plainKeys 7 { channels := [exhaustedKeys] }).2.channels.find?
        fun r => r.id = 7) = some row' ∧
      row'.keyRecords plainKeys.decodeArray =
        [{ key := "a", status := channelStatusEnabled, disabledTime := none, disabledReason := none },
          { key := "b", status := channelStatusEnabled, disabledTime := none, disabledReason := none }] :=
    ⟨_, by rfl, by decide⟩
  refine ⟨by decide +kernel, hrecords, ?_⟩
  obtain ⟨row, hrow, hread⟩ := hrecords
  rintro ⟨row', hrow', hintended, -⟩
  obtain rfl : row = row' := mem_unique hrow hrow'
  have hnone : ((exhaustedKeys.keyRecords plainKeys.decodeArray).filter
      fun r => r.status ≠ channelStatusAutoDisabled) = [] := by decide +kernel
  rw [KeyEdit.Intended, hread] at hintended
  cases hintended.trans hnone

end Prox.Routing
