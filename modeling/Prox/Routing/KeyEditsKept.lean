import Prox.Routing.KeyEdits

/-! # What an edit of the keys keeps

The loop of the two deletions moves the maps along with the keys. What `Update` then stores is read back as the
list that was joined only when the joined text has the lines it was made of, and is not empty. -/

namespace Prox.Routing

open List Option

/-! ## Renumbering -/

theorem entryAt_assign {α : Type} (m : Option (List (Int × α))) (k : Nat) (v : α) (i : Nat) :
    entryAt (assign m k v) i = if i = k then some v else entryAt m i := by
  have hcast : ((i : Int) = (k : Int)) ↔ i = k := Int.natCast_inj
  rw [entryAt, assign, getD_some, lookup_cons, lookup_filter_ne]
  by_cases hi : i = k
  · simp [hi]
  · have hik : ((i : Int) == (k : Int)) = false := by simpa using mt hcast.mp hi
    simp only [hik, hcast, if_neg hi]
    rfl

theorem entryAt_moveEntry {α : Type} (old new : Option (List (Int × α))) (i newIndex j : Nat) :
    entryAt (moveEntry old new i newIndex) j =
      if j = newIndex then (entryAt old i).or (entryAt new j) else entryAt new j := by
  unfold moveEntry
  split
  case h_1 hnone => by_cases hj : j = newIndex <;> simp [hj, hnone]
  case h_2 value hvalue =>
    rw [entryAt_assign]
    by_cases hj : j = newIndex <;> simp [hj, hvalue]

theorem getStatus_eq (info : ChannelInfo) (i : Nat) :
    info.getStatus i = (entryAt info.multiKeyStatusList i).getD channelStatusEnabled := by
  unfold ChannelInfo.getStatus entryAt
  cases info.multiKeyStatusList <;> rfl

/-- The keys and the maps are those of the given positions of the old channel, in their order. -/
structure RemainingKeys.Holds (r : RemainingKeys) (info : ChannelInfo) (dated : Nat → Bool)
    (entries : List (String × Nat)) : Prop where
  keys : r.keys = entries.map Prod.fst
  status : ∀ p, entryAt r.statusList p = (entries[p]?).bind fun entry =>
    if info.getStatus entry.2 ≠ channelStatusEnabled then some (info.getStatus entry.2) else none
  time : ∀ p, entryAt r.disabledTime p = (entries[p]?).bind fun entry =>
    if dated entry.2 then entryAt info.multiKeyDisabledTime entry.2 else none
  reason : ∀ p, entryAt r.disabledReason p = (entries[p]?).bind fun entry =>
    if dated entry.2 then entryAt info.multiKeyDisabledReason entry.2 else none

/-- What a map holds after one more position, when that position is the only one it may get. -/
theorem bind_getElem?_concat {α β : Type} {g g' : Nat → Option β} {f : α → Option β} {xs : List α} {x : α}
    (h : ∀ p, g p = (xs[p]?).bind f) (hold : ∀ p, p ≠ xs.length → g' p = g p)
    (hnew : g xs.length = none → g' xs.length = f x) (p : Nat) : g' p = ((xs ++ [x])[p]?).bind f := by
  have hnone : g xs.length = none := by rw [h, List.getElem?_eq_none (Nat.le_refl _), bind_none]
  rcases Nat.lt_trichotomy p xs.length with hp | rfl | hp
  · rw [hold p (by omega), h p, List.getElem?_append_left hp]
  · rw [hnew hnone, List.getElem?_concat_length, bind_some]
  · rw [hold p (by omega), h p, List.getElem?_eq_none (by omega), List.getElem?_eq_none (by simp; omega)]

/-- A map that moves along gets the entry of the position it grows by. -/
theorem entryAt_moved {α : Type} {old new : Option (List (Int × α))} {dated : Nat → Bool}
    {entries : List (String × Nat)}
    (h : ∀ p, entryAt new p = (entries[p]?).bind fun entry => if dated entry.2 then entryAt old entry.2 else none)
    (key : String) (i p : Nat) :
    entryAt (if dated i then moveEntry old new i entries.length else new) p =
      ((entries ++ [(key, i)])[p]?).bind fun entry => if dated entry.2 then entryAt old entry.2 else none := by
  refine bind_getElem?_concat h (fun p hp => ?_) (fun hnone => ?_) p
  · split
    · rw [entryAt_moveEntry, if_neg hp]
    · rfl
  · split
    · rw [entryAt_moveEntry, if_pos rfl, hnone, or_none]
    · exact hnone

/-- One round of the loop that keeps a key. -/
theorem RemainingKeys.Holds.add {r : RemainingKeys} {info : ChannelInfo} {dated : Nat → Bool}
    {entries : List (String × Nat)} (h : r.Holds info dated entries) (key : String) (i : Nat) :
    (r.add info (dated i) key i).Holds info dated (entries ++ [(key, i)]) := by
  have hlength : r.keys.length = entries.length := by rw [h.keys, length_map]
  unfold RemainingKeys.add
  rw [hlength]
  constructor
  case keys => simp [h.keys]
  case status =>
    refine bind_getElem?_concat h.status (fun p hp => ?_) (fun hnone => ?_)
    · split
      · rw [entryAt_assign, if_neg hp]
      · rfl
    · split
      · rw [entryAt_assign, if_pos rfl]
      · exact hnone
  case time => exact entryAt_moved h.time key i
  case reason => exact entryAt_moved h.reason key i

/-- The loop keeps the keys that pass and what is attached to them. -/
theorem holds_remainingKeys (info : ChannelInfo) (keeps dated : Nat → Bool) (keys : List String) :
    (remainingKeys info keeps dated keys).Holds info dated (keys.zipIdx.filter fun entry => keeps entry.2) := by
  -- the induction is on the positions, from any prefix that has been gone through
  have hrun : ∀ (rest done : List (String × Nat)) (r : RemainingKeys), r.Holds info dated done →
      (rest.foldl (fun r entry => if keeps entry.2 then r.add info (dated entry.2) entry.1 entry.2 else r) r).Holds
        info dated (done ++ rest.filter fun entry => keeps entry.2) := by
    intro rest
    induction rest with
    | nil =>
      intro done r h
      simpa using h
    | cons entry rest ih =>
      intro done r h
      rw [foldl_cons]
      by_cases hkeeps : keeps entry.2 = true
      · rw [if_pos hkeeps, filter_cons_of_pos (p := fun e : String × Nat => keeps e.2) hkeeps,
          ← singleton_append, ← append_assoc]
        exact ih _ _ (h.add entry.1 entry.2)
      · rw [if_neg hkeeps, filter_cons_of_neg (p := fun e : String × Nat => keeps e.2) hkeeps]
        exact ih _ _ h
  have hempty : ({} : RemainingKeys).Holds info dated [] := ⟨rfl, fun _ => rfl, fun _ => rfl, fun _ => rfl⟩
  simpa [remainingKeys] using hrun keys.zipIdx [] {} hempty

/-! ## Reading back what was joined -/

section Reading

variable {decodeArray : String → Option (List String)} {text old : String} {keys arr : List String}

/-- The elements of a JSON array are pieces of its text, between two brackets and separated by commas. -/
def RawElements (decodeArray : String → Option (List String)) : Prop :=
  ∀ text arr, decodeArray text = some arr → (arr.map String.length).sum + arr.length < text.length

/-- `GetKeys` of a row with this key column. -/
def keysOf (decodeArray : String → Option (List String)) (key : String) : List String :=
  ({ key := key } : Channel).getKeys decodeArray

theorem getKeys_eq_keysOf (c : Channel) : c.getKeys decodeArray = keysOf decodeArray c.key := rfl

/-- The text is read as a JSON array. -/
def ReadAsArray (decodeArray : String → Option (List String)) (text : String) : Prop :=
  hasPrefix (trimSpace text) "[" = true ∧ (decodeArray (trimSpace text)).isSome = true

/-- Keys that are read back from the column that they are joined to: as lines, or because nothing is stored and the
column holds the same already. -/
def Rejoins (decodeArray : String → Option (List String)) (oldKeys keys : List String) : Prop :=
  keys ≠ [] ∧ (keys = [""] → oldKeys = [""]) ∧
    (keys ≠ [""] → (∀ key ∈ keys, '\n' ∉ key.toList) ∧ keys.head? ≠ some "" ∧ keys.getLast? ≠ some "" ∧
      ¬ReadAsArray decodeArray ("\n".intercalate keys))

theorem keysOf_array (htext : text ≠ "") (hstart : hasPrefix (trimSpace text) "[" = true)
    (harr : decodeArray (trimSpace text) = some arr) : keysOf decodeArray text = arr := by
  simp [keysOf, Channel.getKeys, htext, hstart, harr]

theorem keysOf_lines (htext : text ≠ "") (harr : ¬ReadAsArray decodeArray text) :
    keysOf decodeArray text = splitOn '\n' (trimChar '\n' text) := by
  unfold keysOf Channel.getKeys
  dsimp only
  rw [if_neg htext]
  split
  · next hstart =>
    cases hdecode : decodeArray (trimSpace text) with
    | none => exact Option.getD_none
    | some arr => exact absurd ⟨hstart, by simp [hdecode]⟩ harr
  · rfl

theorem updateKeys_ne_nil (htext : text ≠ "") : updateKeys decodeArray text ≠ [] := by
  intro h
  unfold updateKeys at h
  rw [if_neg htext] at h
  dsimp only at h
  generalize (if hasPrefix (trimSpace text) "[" = true then (decodeArray (trimSpace text)).getD [] else []) = found
    at h
  by_cases hfound : found = []
  · rw [if_pos hfound] at h
    exact splitOn_ne_nil _ _ h
  · rw [if_neg hfound] at h
    exact hfound h

/-- `Update` counts the keys that are read, unless there are none. -/
theorem updateKeys_eq (h : keysOf decodeArray text ≠ []) : updateKeys decodeArray text = keysOf decodeArray text := by
  by_cases htext : text = ""
  · simp [keysOf, Channel.getKeys, htext] at h
  · unfold updateKeys keysOf Channel.getKeys at *
    simp only [htext, if_false] at *
    split
    · next hstart =>
      rw [if_pos hstart] at h
      cases hdecode : decodeArray (trimSpace text) with
      | none => simp
      | some arr =>
        rw [hdecode, getD_some] at h
        simp [h]
    · simp

/-- The length of joined texts. -/
theorem length_intercalate (sep : Char) (hkeys : keys ≠ []) :
    ((String.singleton sep).intercalate keys).length + 1 = (keys.map String.length).sum + keys.length := by
  induction keys with
  | nil => exact absurd rfl hkeys
  | cons key rest ih =>
    cases rest with
    | nil => simp
    | cons key' rest =>
      have hrest := ih (by simp)
      rw [String.intercalate_cons_cons, String.length_append, String.length_append, String.length_singleton]
      simp only [map_cons, sum_cons, length_cons] at hrest ⊢
      omega

theorem length_trimSpace_le (text : String) : (trimSpace text).length ≤ text.length := by
  rw [trimSpace, String.length_ofList]
  exact (( rdropWhile_prefix _ _).length_le).trans (dropWhile_suffix _).length_le

/-- Joined keys are no text of an array of the same keys. -/
theorem decodeArray_intercalate_ne (hraw : RawElements decodeArray) (hkeys : keys ≠ []) :
    decodeArray (trimSpace ("\n".intercalate keys)) ≠ some keys := by
  intro h
  have hshort := hraw _ _ h
  have htrim := length_trimSpace_le ("\n".intercalate keys)
  have hlength : ("\n".intercalate keys).length + 1 = (keys.map String.length).sum + keys.length :=
    length_intercalate '\n' hkeys
  omega

theorem intercalate_eq_empty_iff (hkeys : keys ≠ []) : "\n".intercalate keys = "" ↔ keys = [""] := by
  have hlength : ("\n".intercalate keys).length + 1 = (keys.map String.length).sum + keys.length :=
    length_intercalate '\n' hkeys
  constructor
  · intro h
    rw [h] at hlength
    obtain ⟨key, rest, rfl⟩ := exists_cons_of_ne_nil hkeys
    simp only [map_cons, sum_cons, length_cons, String.length_empty] at hlength
    obtain rfl : rest = [] := length_eq_zero_iff.mp (by omega)
    rw [String.intercalate_singleton] at h
    rw [h]
  · rintro rfl
    rw [String.intercalate_singleton]

/-- The keys that are joined to the column are read from it, and counted, exactly when they can be rejoined. -/
theorem stored_reads_iff (hraw : RawElements decodeArray) (hold : old ≠ "") :
    (keysOf decodeArray (keepZero "" ("\n".intercalate keys) old) = keys ∧
      (updateKeys decodeArray (keepZero "" ("\n".intercalate keys) old)).length = keys.length) ↔
      Rejoins decodeArray (keysOf decodeArray old) keys := by
  have hstored : keepZero "" ("\n".intercalate keys) old ≠ "" := by
    unfold keepZero
    split
    · exact hold
    · assumption
  by_cases hkeys : keys = []
  · -- a column that is not empty has a key for `Update`
    refine iff_of_false ?_ (fun h => h.1 hkeys)
    rintro ⟨-, hsize⟩
    exact updateKeys_ne_nil hstored (length_eq_zero_iff.mp (by rw [hsize, hkeys, length_nil]))
  · have hcount : keysOf decodeArray (keepZero "" ("\n".intercalate keys) old) = keys →
        (updateKeys decodeArray (keepZero "" ("\n".intercalate keys) old)).length = keys.length := by
      intro h
      rw [updateKeys_eq (by rw [h]; exact hkeys), h]
    rw [and_iff_left_of_imp hcount, Rejoins, and_iff_right hkeys]
    by_cases hblank : keys = [""]
    · have hempty : "\n".intercalate keys = "" := (intercalate_eq_empty_iff hkeys).mpr hblank
      rw [hempty, keepZero]
      simp [hblank]
    · have hne : "\n".intercalate keys ≠ "" := mt (intercalate_eq_empty_iff hkeys).mp hblank
      rw [keepZero, if_neg hne]
      simp only [hblank, false_implies, true_and, not_false_eq_true, forall_const, ne_eq]
      by_cases harray : ReadAsArray decodeArray ("\n".intercalate keys)
      · obtain ⟨arr, harr⟩ := isSome_iff_exists.mp harray.2
        rw [keysOf_array hne harray.1 harr]
        refine iff_of_false ?_ (fun h => h.2.2.2 harray)
        rintro rfl
        exact decodeArray_intercalate_ne hraw hkeys harr
      · have hread := splitOn_trimChar_intercalate_iff '\n' hkeys
        rw [keysOf_lines hne harray]
        refine hread.trans ?_
        simp [hblank, harray]

end Reading

/-! ## What an update stores -/

/-- The information of a channel after its keys were counted. -/
def ChannelInfo.recounted (info : ChannelInfo) (size : Nat) : ChannelInfo :=
  { info with
    multiKeySize := size
    multiKeyStatusList := info.multiKeyStatusList.map (·.filter fun entry => entry.1 < size) }

section Storing

variable {decodeArray : String → Option (List String)} {db : DB} {row row' c : Channel} {want : List KeyRecord}

/-- `Update` of a multi-key channel succeeds and stores the text that it counts keys in. -/
theorem update_stored (decodeArray : String → Option (List String)) (c : Channel)
    (hrow : (db.channels.find? fun r => r.id = c.id) = some row) (hid : c.id ≠ 0)
    (hmulti : c.channelInfo.isMultiKey = true) :
    (update decodeArray noFaults c db).1 = .ok () ∧
      ∃ row', ((update decodeArray noFaults c db).2.channels.find? fun r => r.id = c.id) = some row' ∧
        row'.key = keepZero "" c.key row.key ∧
        row'.channelInfo = c.channelInfo.recounted (updateKeys decodeArray row'.key).length := by
  have hkeyStr : (if c.key = "" then ((db.channels.find? fun r => r.id = c.id).map Channel.key).getD "" else c.key) =
      keepZero "" c.key row.key := by
    rw [hrow]
    rfl
  have hrecount : c.recountKeys decodeArray noFaults db =
      { c with channelInfo :=
          c.channelInfo.recounted (updateKeys decodeArray (keepZero "" c.key row.key)).length } := by
    unfold Channel.recountKeys
    rw [if_pos hmulti]
    simp only [noFaults, Bool.false_eq_true, if_false, hkeyStr]
    rfl
  -- the row is found again, with the columns of the update
  have hfind : ((db.updateChannel (c.recountKeys decodeArray noFaults db)).channels.find? fun r => r.id = c.id) =
      some ((c.recountKeys decodeArray noFaults db).updates row) := by
    have hrowId : row.id = c.id := by simpa using List.find?_some hrow
    have hsame : ((fun r : Channel => decide (r.id = c.id)) ∘ fun r : Channel =>
        if r.id = (c.recountKeys decodeArray noFaults db).id then (c.recountKeys decodeArray noFaults db).updates r
        else r) = fun r => decide (r.id = c.id) := by
      funext r
      dsimp only [Function.comp_apply]
      split <;> rfl
    have hc : (c.recountKeys decodeArray noFaults db).id = c.id := by rw [hrecount]
    unfold DB.updateChannel
    rw [List.find?_map, hsame, hrow, map_some, if_pos (hrowId.trans hc.symm)]
  have hne : c.channelInfo.recounted (updateKeys decodeArray (keepZero "" c.key row.key)).length ≠ {} := by
    intro h
    have := congrArg ChannelInfo.isMultiKey h
    exact absurd (hmulti.symm.trans this) (by decide)
  have hupdate : update decodeArray noFaults c db = (.ok (),
      Channel.updateAbilitiesTx ((c.recountKeys decodeArray noFaults db).updates row)
        (db.updateChannel (c.recountKeys decodeArray noFaults db))) := by
    have hc : (c.recountKeys decodeArray noFaults db).id = c.id := by rw [hrecount]
    unfold update
    simp [noFaults, hc, hid, hfind, getD_some]
  rw [hupdate]
  refine ⟨rfl, _, hfind, ?_, ?_⟩
  · rw [hrecount]
    rfl
  · rw [hrecount]
    exact if_neg hne

/-- Dropping the statuses of positions without a key changes no record of a key. -/
theorem record_recounted (info : ChannelInfo) (key : String) {i size : Nat} (hi : i < size) :
    (info.recounted size).record key i = info.record key i := by
  have hentry : entryAt (info.recounted size).multiKeyStatusList i = entryAt info.multiKeyStatusList i := by
    unfold entryAt ChannelInfo.recounted
    cases info.multiKeyStatusList with
    | none => rfl
    | some es =>
      simp only [map_some, getD_some]
      rw [lookup_filter es (fun k => decide (k < (size : Int)))]
      exact if_pos (by simpa using hi)
  have hstatus : (info.recounted size).getStatus i = info.getStatus i := by
    rw [getStatus_eq, getStatus_eq, hentry]
  unfold ChannelInfo.record
  rw [hstatus]
  rfl

theorem map_key_records (keys : List String) (info : ChannelInfo) :
    (keys.zipIdx.map fun entry => info.record entry.1 entry.2).map KeyRecord.key = keys := by
  rw [List.map_map]
  exact zipIdx_map_fst 0 keys

/-- What the stored row shows, in terms of the text and the maps that were stored. -/
theorem stored_records_iff
    (hinfo : row'.channelInfo = c.channelInfo.recounted (updateKeys decodeArray row'.key).length) :
    (row'.keyRecords decodeArray = want ∧ row'.channelInfo.multiKeySize = want.length) ↔
      (keysOf decodeArray row'.key = want.map KeyRecord.key ∧
        (updateKeys decodeArray row'.key).length = want.length) ∧
      (want.map KeyRecord.key).zipIdx.map (fun entry => c.channelInfo.record entry.1 entry.2) = want := by
  have hsize : row'.channelInfo.multiKeySize = (updateKeys decodeArray row'.key).length := by
    rw [hinfo]
    rfl
  have hrecords : (updateKeys decodeArray row'.key).length = (keysOf decodeArray row'.key).length →
      row'.keyRecords decodeArray =
        (keysOf decodeArray row'.key).zipIdx.map fun entry => c.channelInfo.record entry.1 entry.2 := by
    intro hlength
    unfold Channel.keyRecords
    rw [hinfo]
    refine map_congr_left fun entry hentry => record_recounted _ _ ?_
    have := snd_lt_of_mem_zipIdx hentry
    rw [hlength]
    exact this
  rw [hsize]
  constructor
  · rintro ⟨rfl, hlength⟩
    have hkeys : keysOf decodeArray row'.key = (row'.keyRecords decodeArray).map KeyRecord.key :=
      (map_key_records _ _).symm
    refine ⟨⟨hkeys, hlength⟩, ?_⟩
    rw [← hkeys]
    exact (hrecords (by rw [hlength, hkeys, length_map])).symm
  · rintro ⟨⟨hkeys, hlength⟩, hwant⟩
    rw [hrecords (by rw [hlength, hkeys, length_map]), hkeys]
    exact ⟨hwant, hlength⟩

end Storing

end Prox.Routing
