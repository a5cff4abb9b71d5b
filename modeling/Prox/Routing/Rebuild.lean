import Prox.Routing.Faithful
import Prox.Routing.Listing

/-! # Rebuilding the cache after failed writes

The cache builder makes its inner maps for the groups of the abilities and fills them from the
channels, so it panics on an enabled channel with a group that no ability has. Insert, update, delete
and the edit of a tag write both tables with several statements, any of which may fail. A failure
after the channel row is written leaves the abilities as they were; the runs below are those where
every group of the written row has a row of its channel even so. -/

namespace Prox.Routing

open List

/-! ## The groups of a channel's rows -/

/-- Every group of the channel has an ability of the channel. -/
def DB.HasGroups (db : DB) (c : Channel) : Prop :=
  ∀ group ∈ c.groupList, ∃ a ∈ db.abilities, a.channelId = c.id ∧ a.group = group
  deriving Decidable

variable {decodeArray : String → Option (List String)} {fails : Statement → Bool} {db db' : DB}
  {c c' : Channel}

theorem entryKey_inj {group group' model : String} :
    entryKey (group, model) = entryKey (group', model) ↔ group = group' := by
  constructor
  · intro h
    have hlist : (group ++ "|" ++ model).toList = (group' ++ "|" ++ model).toList :=
      congrArg String.toList h
    simp only [String.toList_append, append_cancel_right_eq] at hlist
    exact String.toList_inj.mp hlist
  · rintro rfl
    rfl

/-- The pairs of one model are collected once for each group. -/
theorem collect_groups (c : Channel) (model : String) (groups seen : List String)
    (rest : List (String × String)) :
    ∃ seen' : List String,
      c.collect (seen.map fun group => entryKey (group, model))
          ((groups.map fun group => (group, model)) ++ rest)
        = (((firstOccurrences groups).filter (· ∉ seen)).map fun group => c.ability group model)
            ++ c.collect seen' rest := by
  induction groups generalizing seen with
  | nil => exact ⟨_, rfl⟩
  | cons group groups ih =>
    have hmem : entryKey (group, model) ∈ (seen.map fun group => entryKey (group, model)) ↔
        group ∈ seen := by
      rw [mem_map]
      constructor
      · rintro ⟨g, hg, hkey⟩
        exact entryKey_inj.mp hkey ▸ hg
      · exact fun h => ⟨group, h, rfl⟩
    rw [map_cons, cons_append, Channel.collect, firstOccurrences, filter_cons,
      filter_filter]
    by_cases hseen : group ∈ seen
    · obtain ⟨seen', hrest⟩ := ih seen
      rw [if_pos (hmem.mpr hseen), if_neg (by simpa using hseen), hrest]
      refine ⟨seen', ?_⟩
      congr 2
      refine filter_congr fun g _ => ?_
      by_cases hg : g = group
      · subst hg
        simp [hseen]
      · simp [hg]
    · obtain ⟨seen', hrest⟩ := ih (group :: seen)
      rw [if_neg (mt hmem.mp hseen), if_pos (by simpa using hseen)]
      refine ⟨seen', ?_⟩
      rw [map_cons] at hrest
      rw [hrest, map_cons]
      congr 3
      refine filter_congr fun g _ => ?_
      simp [Bool.and_comm]

/-- **The first rows of a channel are one for each of its groups.** -/
theorem abilities_eq_groups (c : Channel) :
    ∃ model rest, c.abilities
      = ((firstOccurrences c.groupList).map fun group => c.ability group model) ++ rest := by
  obtain ⟨model, models, hmodels⟩ := exists_cons_of_ne_nil (splitOn_ne_nil ',' c.models)
  obtain ⟨seen', h⟩ := collect_groups c model c.groupList []
    (models.flatMap fun model => c.groupList.map fun group => (group, model))
  have hentries : c.entries = (c.groupList.map fun group => (group, model))
      ++ models.flatMap fun model => c.groupList.map fun group => (group, model) := by
    rw [Channel.entries, Channel.modelList, hmodels, flatMap_cons]
  have hall : (firstOccurrences c.groupList).filter (· ∉ ([] : List String))
      = firstOccurrences c.groupList := by
    simp
  rw [hall] at h
  rw [Channel.abilities, hentries]
  exact ⟨model, _, h⟩

/-! ## Writing the rows -/

theorem mem_addChunks_of_mem {a : Ability} (n : Nat) (pieces : List (List Ability))
    (ha : a ∈ db.abilities) : a ∈ (addChunks fails n pieces db).2.abilities := by
  induction pieces generalizing n db with
  | nil => exact ha
  | cons piece pieces ih =>
    rw [addChunks]
    split
    · exact ha
    · exact ih (n + 1) (mem_insertAll_of_mem ha)

@[simp] theorem channels_addChunks (n : Nat) (pieces : List (List Ability)) :
    (addChunks fails n pieces db).2.channels = db.channels := by
  induction pieces generalizing n db with
  | nil => rfl
  | cons piece pieces ih =>
    rw [addChunks]
    split
    · rfl
    · exact ih (n + 1)

/-- The rows before the first failing statement are written, unless their keys were taken. -/
theorem exists_key_addChunks {rounds : Nat} {rows : List Ability} (hlen : rows.length ≤ rounds)
    {n k : Nat} (hok : ∀ j, 50 * j < k → fails (.index (n + j)) = false) {a : Ability}
    (ha : a ∈ rows.take k) :
    ∃ b ∈ (addChunks fails n (chunksWithin 50 rounds rows) db).2.abilities, b.key = a.key := by
  induction rounds generalizing rows n k db with
  | zero =>
    rw [length_eq_zero_iff.mp (Nat.le_zero.mp hlen), take_nil] at ha
    cases ha
  | succ rounds ih =>
    cases rows with
    | nil =>
      rw [take_nil] at ha
      cases ha
    | cons row rows =>
      have hk : 0 < k := by
        rcases Nat.eq_zero_or_pos k with rfl | hk
        · cases ha
        · exact hk
      have hn : fails (.index n) = false := hok 0 hk
      rw [chunksWithin, addChunks, if_neg (by simp [hn])]
      by_cases hfirst : a ∈ (row :: rows).take 50
      · have hinserted : a.withDefaults ∈ ((row :: rows).take 50).map Ability.withDefaults :=
          mem_map_of_mem hfirst
        obtain ⟨b, hb, hkey⟩ : ∃ b ∈ insertAbilities db.abilities ((row :: rows).take 50),
            b.key = a.withDefaults.key := exists_key_insertAll hinserted
        exact ⟨b, mem_addChunks_of_mem _ _ hb, hkey⟩
      · -- a row of a later chunk, whose statements come one number later
        refine ih (by rw [length_drop]; omega) (k := k - 50) (fun j hj => ?_) ?_
        · have := hok (j + 1) (by omega)
          rwa [show n + (j + 1) = n + 1 + j by omega] at this
        · rw [← drop_take]
          have hsplit := take_append_drop 50 ((row :: rows).take k)
          rw [← hsplit, mem_append, take_take] at ha
          refine ha.resolve_left fun hmem => hfirst ?_
          exact (take_sublist_take_left (Nat.min_le_left 50 k)).subset hmem

/-- Where the statements for the first model succeed, every group gets a row. -/
theorem hasGroups_addAbilities (hok : ∀ j, 50 * j < (firstOccurrences c.groupList).length →
    fails (.index j) = false) : (c.addAbilities fails db).2.HasGroups c := by
  intro group hgroup
  obtain ⟨model, rest, hrows⟩ := abilities_eq_groups c
  have hmem : c.ability group model ∈ c.abilities.take (firstOccurrences c.groupList).length := by
    rw [hrows, take_left' (length_map _)]
    exact mem_map_of_mem (mem_firstOccurrences.mpr hgroup)
  obtain ⟨b, hb, hkey⟩ : ∃ b ∈ (c.addAbilities fails db).2.abilities,
      b.key = (c.ability group model).key :=
    exists_key_addChunks le_rfl (fun j hj => by rw [Nat.zero_add]; exact hok j hj) hmem
  simp only [Ability.key, Prod.mk.injEq] at hkey
  exact ⟨b, hb, hkey.2.2, hkey.1⟩

/-- Rows that stay keep the groups. -/
theorem DB.HasGroups.mono (h : db.HasGroups c)
    (hkeep : ∀ a ∈ db.abilities, a.channelId = c.id → a ∈ db'.abilities) : db'.HasGroups c := by
  intro group hgroup
  obtain ⟨a, ha, hid, hg⟩ := h group hgroup
  exact ⟨a, hkeep a ha hid, hid, hg⟩

theorem mem_updateAbilitiesTx_of_mem {a : Ability} (ha : a ∈ db.abilities) (hid : a.channelId ≠ c.id) :
    a ∈ (c.updateAbilitiesTx db).abilities := by
  rw [Channel.updateAbilitiesTx, abilities_addAbilitiesTx]
  exact mem_insertAll_of_mem (mem_filter.mpr ⟨ha, decide_eq_true hid⟩)

/-- `UpdateAbilities` gives every group a row. -/
theorem hasGroups_updateAbilitiesTx (c : Channel) (db : DB) : (c.updateAbilitiesTx db).HasGroups c := by
  have h : (c.addAbilities noFaults { db with
      abilities := db.abilities.filter fun a => a.channelId ≠ c.id }).2.HasGroups c :=
    hasGroups_addAbilities fun _ _ => rfl
  rwa [addAbilities_noFaults] at h

/-- `UpdateAbilities` of another channel keeps the groups. -/
theorem DB.HasGroups.updateAbilitiesTx (h : db.HasGroups c) (hid : c'.id ≠ c.id) :
    (c'.updateAbilitiesTx db).HasGroups c :=
  h.mono fun _ ha hac => mem_updateAbilitiesTx_of_mem ha fun h => hid (h.symm.trans hac)

/-! ## Operations whose statements may fail -/

/-- A write to the channels. -/
inductive WriteOp where
  | insert (c : Channel)
  | update (c : Channel)
  | delete (id : Int)
  | editChannelByTag (tag : String) (edit : TagEdit)

/-- A write together with its statements that fail. -/
structure FaultyOp where
  op : WriteOp
  fails : Statement → Bool

/-- What a write leaves in the database. -/
def FaultyOp.step (decodeArray : String → Option (List String)) (db : DB) (e : FaultyOp) : DB :=
  match e.op with
  | .insert c => (insert e.fails c db).2
  | .update c => (update decodeArray e.fails c db).2
  | .delete id => (delete e.fails id db).2
  | .editChannelByTag tag edit => (editChannelByTag e.fails tag edit db).2

/-- The channel as `Insert` writes it. -/
def DB.assignId (db : DB) (c : Channel) : Channel :=
  { c.withDefaults with id := if c.id = 0 then db.lastId + 1 else c.id }

/-- The channels of the tag after the first statement of an edit, those that are indexed anew. -/
def TagEdit.reindexed (e : TagEdit) (tag : String) (db : DB) : List Channel :=
  (db.mapTagged tag (e.updateData tag).updates).channels.filter fun c =>
    c.tag = some (e.updatedTag tag)

/-- No failure keeps a group of a written channel from having an ability: the channel statement
fails, or the statements that write its rows succeed, or the rows are there already. -/
def FaultyOp.KeepsGroups (db : DB) (e : FaultyOp) : Prop :=
  match e.op with
  | .insert c =>
    e.fails .write = true ∨ db.HasGroups (db.assignId c) ∨
      ∀ j < (firstOccurrences c.withDefaults.groupList).length,
        50 * j < (firstOccurrences c.withDefaults.groupList).length → e.fails (.index j) = false
  | .update c =>
    c.id = 0 ∨ e.fails .write = true ∨ ∀ row ∈ db.channels, row.id = c.id →
      if e.fails (.index 0) then db.HasGroups (c.updates row)
      else e.fails .reload = true → ∀ group ∈ (c.updates row).groupList, group ∈ c.groupList
  | .delete _ => True
  | .editChannelByTag tag edit =>
    e.fails .write = true ∨ edit.shouldReCreateAbilities = false ∨
      ∀ entry ∈ (edit.reindexed tag db).zipIdx,
        e.fails .reload = true ∨ e.fails (.index entry.2) = true → db.HasGroups entry.1

instance (db : DB) : (e : FaultyOp) → Decidable (e.KeepsGroups db)
  | ⟨.insert c, fails⟩ =>
    inferInstanceAs (Decidable (fails .write = true ∨ db.HasGroups (db.assignId c) ∨
      ∀ j < (firstOccurrences c.withDefaults.groupList).length,
        50 * j < (firstOccurrences c.withDefaults.groupList).length → fails (.index j) = false))
  | ⟨.update c, fails⟩ =>
    inferInstanceAs (Decidable (c.id = 0 ∨ fails .write = true ∨ ∀ row ∈ db.channels, row.id = c.id →
      if fails (.index 0) then db.HasGroups (c.updates row)
      else fails .reload = true → ∀ group ∈ (c.updates row).groupList, group ∈ c.groupList))
  | ⟨.delete _, _⟩ => inferInstanceAs (Decidable True)
  | ⟨.editChannelByTag tag edit, fails⟩ =>
    inferInstanceAs (Decidable (fails .write = true ∨ edit.shouldReCreateAbilities = false ∨
      ∀ entry ∈ (edit.reindexed tag db).zipIdx,
        fails .reload = true ∨ fails (.index entry.2) = true → db.HasGroups entry.1))

/-- **The invariant**: every group of every channel has an ability of the channel. -/
structure GroupsKept (db : DB) : Prop where
  /-- Channel identifiers are distinct. -/
  ids : (db.channels.map Channel.id).Nodup
  /-- The groups have their rows. -/
  groups : ∀ c ∈ db.channels, db.HasGroups c

theorem groupsKept_insert (h : GroupsKept db) (hkeeps : FaultyOp.KeepsGroups db ⟨.insert c, fails⟩) :
    GroupsKept (insert fails c db).2 := by
  unfold insert
  split
  · exact h
  · next hwrite =>
    cases hcreate : db.create c with
    | error e => exact h
    | ok r =>
      obtain ⟨c', db'⟩ := r
      obtain ⟨hfresh, hc', hid, rfl⟩ := DB.create_eq_ok hcreate
      have hdef : c' = db.assignId c := hc'.trans (by rw [hid]; rfl)
      show GroupsKept (addChunks fails 0 (chunks 50 c'.abilities) _).2
      refine ⟨?_, fun b hb => ?_⟩
      · rw [channels_addChunks, map_append]
        exact nodup_append.mpr ⟨h.ids, nodup_singleton _, fun x hx y hy hxy =>
          hfresh (mem_singleton.mp hy ▸ hxy ▸ hx)⟩
      · rw [channels_addChunks] at hb
        rcases mem_append.mp hb with hb | hb
        · exact (h.groups b hb).mono fun a ha _ => mem_addChunks_of_mem _ _ ha
        · rw [mem_singleton.mp hb]
          rcases hkeeps.resolve_left hwrite with hrows | hok
          · rw [← hdef] at hrows
            exact hrows.mono fun a ha _ => mem_addChunks_of_mem _ _ ha
          · have hgroups : c'.groupList = c.withDefaults.groupList := by rw [hdef]; rfl
            refine hasGroups_addAbilities fun j hj => ?_
            rw [hgroups] at hj
            exact hok j (by omega) hj

/-- Writing channel rows in place, as far as identifiers are concerned. -/
theorem nodup_mapChannels (h : (db.channels.map Channel.id).Nodup) {f : Channel → Channel}
    (hid : ∀ c, (f c).id = c.id) : ((db.channels.map f).map Channel.id).Nodup := by
  rw [map_map, show Channel.id ∘ f = Channel.id from funext hid]
  exact h

theorem groupsKept_update (h : GroupsKept db) (hkeeps : FaultyOp.KeepsGroups db ⟨.update c, fails⟩) :
    GroupsKept (update decodeArray fails c db).2 := by
  unfold update
  have hid : (c.recountKeys decodeArray fails db).id = c.id := recountKeys_id _
  have hgroup : (c.recountKeys decodeArray fails db).group = c.group := recountKeys_group _
  generalize c.recountKeys decodeArray fails db = c₁ at hid hgroup
  dsimp only
  split
  · exact h
  split
  · exact h
  next hzero hwrite =>
  replace hkeeps := (hkeeps.resolve_left (hid ▸ hzero)).resolve_left hwrite
  have hsame : ∀ row : Channel, (c₁.updates row).groupList = (c.updates row).groupList := by
    intro row
    show splitOn ',' (keepZero "" c₁.group row.group) = splitOn ',' (keepZero "" c.group row.group)
    rw [hgroup]
  have hids : ((db.updateChannel c₁).channels.map Channel.id).Nodup :=
    nodup_mapChannels h.ids fun b => by split <;> rfl
  -- a channel after the write is an old one or the updated one
  have hcases : ∀ b ∈ (db.updateChannel c₁).channels, (b.id ≠ c₁.id ∧ db.HasGroups b) ∨
      ∃ row ∈ db.channels, row.id = c₁.id ∧ b = c₁.updates row := by
    intro b hb
    obtain ⟨row, hrow, rfl⟩ := mem_map.mp hb
    by_cases hrowid : row.id = c₁.id
    · rw [if_pos hrowid]
      exact .inr ⟨row, hrow, hrowid, rfl⟩
    · rw [if_neg hrowid]
      exact .inl ⟨hrowid, h.groups row hrow⟩
  split
  · next hindex =>
    refine ⟨hids, fun b hb => ?_⟩
    rcases hcases b hb with ⟨-, hb⟩ | ⟨row, hrow, hrowid, rfl⟩
    · exact hb
    · have hrows := hkeeps row hrow (hrowid.trans hid)
      rw [if_pos hindex] at hrows
      intro group hg
      rw [hsame] at hg
      exact hrows group hg
  · next hindex =>
    refine ⟨hids, fun b hb => ?_⟩
    have hown : ((if fails .reload then none
        else (db.updateChannel c₁).channels.find? fun row => row.id = c₁.id).getD c₁).id = c₁.id := by
      split
      · rfl
      · cases hfind : (db.updateChannel c₁).channels.find? fun row => row.id = c₁.id with
        | none => rfl
        | some row => simpa using List.find?_some hfind
    rcases hcases b hb with ⟨hne, hb⟩ | ⟨row, hrow, hrowid, rfl⟩
    · have hkept : (db.updateChannel c₁).HasGroups b := hb
      exact hkept.updateAbilitiesTx fun h => hne (hown ▸ h).symm
    · by_cases hreload : fails .reload = true
      · -- the request itself is indexed
        rw [if_pos hreload]
        have hsub := hkeeps row hrow (hrowid.trans hid)
        rw [if_neg hindex] at hsub
        intro group hg
        rw [hsame] at hg
        have hmem : group ∈ c₁.groupList := by
          rw [Channel.groupList, hgroup]
          exact hsub hreload group hg
        obtain ⟨a, ha, haid, hag⟩ := hasGroups_updateAbilitiesTx c₁ (db.updateChannel c₁) group hmem
        exact ⟨a, ha, haid.trans hrowid.symm, hag⟩
      · rw [if_neg hreload]
        have hfind : (db.updateChannel c₁).channels.find? (fun row => row.id = c₁.id)
            = some (c₁.updates row) := by
          cases hfind : (db.updateChannel c₁).channels.find? fun row => row.id = c₁.id with
          | none =>
            have hmem : c₁.updates row ∈ (db.updateChannel c₁).channels := hb
            have hid' : (c₁.updates row).id = c₁.id := hrowid
            exact absurd (decide_eq_true hid') (List.find?_eq_none.mp hfind _ hmem)
          | some row' =>
            have hrow' : row'.id = c₁.id := by simpa using List.find?_some hfind
            rw [inj_on_of_nodup_map hids (List.mem_of_find?_eq_some hfind) hb
              (hrow'.trans hrowid.symm)]
        rw [hfind]
        exact hasGroups_updateAbilitiesTx (c₁.updates row) _

theorem groupsKept_delete (h : GroupsKept db) (id : Int) : GroupsKept (delete fails id db).2 := by
  have hdeleted : GroupsKept (db.deleteChannels [id]) :=
    ⟨h.ids.sublist (filter_sublist.map _), fun c hc => h.groups c (mem_filter.mp hc).1⟩
  unfold delete
  split
  · exact h
  split
  · exact h
  split
  · exact hdeleted
  · refine ⟨hdeleted.ids, fun c hc => (hdeleted.groups c hc).mono fun a ha hid => ?_⟩
    have hne : c.id ∉ [id] := of_decide_eq_true (mem_filter.mp hc).2
    exact mem_filter.mpr ⟨ha, decide_eq_true (hid ▸ hne)⟩

/-- The loop over the channels of a tag keeps the groups, and gives them to the channels it indexes
anew. -/
theorem hasGroups_updateEach {cs : List Channel} {n : Nat} {b : Channel}
    (honly : ∀ c ∈ cs, c.id = b.id → c = b)
    (h : db.HasGroups b ∨ ∃ i, cs[i]? = some b ∧ fails (.index (n + i)) = false) :
    (updateEach fails n cs db).HasGroups b := by
  induction cs generalizing n db with
  | nil =>
    rcases h with h | ⟨i, hi, -⟩
    · exact h
    · simp at hi
  | cons c cs ih =>
    obtain ⟨hc, hcs⟩ := forall_mem_cons.mp honly
    refine ih hcs ?_
    unfold Channel.updateAbilities
    by_cases hfail : fails (.index n) = true
    · rw [if_pos hfail]
      rcases h with h | ⟨i, hi, hok⟩
      · exact .inl h
      · cases i with
        | zero => rw [Nat.add_zero, hfail] at hok; cases hok
        | succ i => exact .inr ⟨i, hi, by rwa [Nat.add_right_comm, Nat.add_assoc]⟩
    · rw [if_neg hfail]
      by_cases hcb : c.id = b.id
      · rw [hc hcb]
        exact .inl (hasGroups_updateAbilitiesTx b db)
      · rcases h with h | ⟨i, hi, hok⟩
        · exact .inl (h.updateAbilitiesTx hcb)
        · cases i with
          | zero => exact absurd (congrArg Channel.id (Option.some.inj hi)) hcb
          | succ i => exact .inr ⟨i, hi, by rwa [Nat.add_right_comm, Nat.add_assoc]⟩

theorem channels_updateEach (n : Nat) (cs : List Channel) :
    (updateEach fails n cs db).channels = db.channels := by
  induction cs generalizing n db with
  | nil => rfl
  | cons c cs ih =>
    rw [updateEach, ih]
    unfold Channel.updateAbilities
    split <;> rfl

theorem groupsKept_editChannelByTag (h : GroupsKept db) {tag : String} {e : TagEdit}
    (hkeeps : FaultyOp.KeepsGroups db ⟨.editChannelByTag tag e, fails⟩) :
    GroupsKept (editChannelByTag fails tag e db).2 := by
  unfold editChannelByTag
  split
  · exact h
  next hwrite =>
  replace hkeeps := hkeeps.resolve_left hwrite
  have hids : ((db.mapTagged tag (e.updateData tag).updates).channels.map Channel.id).Nodup :=
    nodup_mapChannels h.ids fun b => by split <;> rfl
  split
  · next hedit =>
    replace hkeeps := hkeeps.resolve_left (by simp [hedit])
    -- a channel that is not indexed anew was not edited
    have hcases : ∀ b ∈ (db.mapTagged tag (e.updateData tag).updates).channels,
        db.HasGroups b ∨ b ∈ e.reindexed tag db := by
      intro b hb
      by_cases htag : b.tag = some (e.updatedTag tag)
      · exact .inr (mem_filter.mpr ⟨hb, decide_eq_true htag⟩)
      · obtain ⟨c, hc, rfl⟩ := mem_map.mp hb
        by_cases hct : c.tag = some tag
        · rw [if_pos hct] at htag
          refine absurd ?_ htag
          show (if e.newTag = some tag then none else e.newTag).or c.tag = some (e.newTag.getD tag)
          rw [hct]
          split
          · next hnew => simp [hnew]
          · cases e.newTag <;> rfl
        · rw [if_neg hct]
          exact .inl (h.groups c hc)
    have hindex : ∀ b ∈ e.reindexed tag db, ∃ i, (e.reindexed tag db)[i]? = some b ∧
        (fails .reload = true ∨ fails (.index i) = true → db.HasGroups b) := by
      intro b hb
      obtain ⟨i, hi⟩ := mem_iff_getElem?.mp hb
      exact ⟨i, hi, hkeeps (b, i) (List.mk_mem_zipIdx_iff_getElem?.mpr hi)⟩
    split
    · next hreload =>
      refine ⟨hids, fun b hb => ?_⟩
      rcases hcases b hb with hb | hb
      · exact hb
      · obtain ⟨i, -, hi⟩ := hindex b hb
        exact hi (.inl hreload)
    · refine ⟨by rw [channels_updateEach]; exact hids, fun b hb => ?_⟩
      rw [channels_updateEach] at hb
      refine hasGroups_updateEach (fun c hc hid =>
        inj_on_of_nodup_map hids (mem_filter.mp hc).1 hb hid) ?_
      rcases hcases b hb with hb | hb
      · exact .inl hb
      · obtain ⟨i, hi, hrows⟩ := hindex b hb
        by_cases hfail : fails (.index i) = true
        · exact .inl (hrows (.inr hfail))
        · exact .inr ⟨i, hi, by simpa using hfail⟩
  · next hedit =>
    rw [Bool.not_eq_true] at hedit
    have hkept : ∀ b ∈ (db.mapTagged tag (e.updateData tag).updates).channels, db.HasGroups b := by
      intro b hb
      obtain ⟨c, hc, rfl⟩ := mem_map.mp hb
      split
      · intro group hg
        rw [Channel.groupList, (updates_lists tag hedit c).2] at hg
        exact h.groups c hc group hg
      · exact h.groups c hc
    split
    · exact ⟨hids, hkept⟩
    · refine ⟨hids, fun b hb group hg => ?_⟩
      obtain ⟨a, ha, hid, hag⟩ := hkept b hb group hg
      refine ⟨_, mem_map_of_mem ha, ?_, ?_⟩
      · split
        · exact hid
        · exact hid
      · split
        · exact hag
        · exact hag

/-- A write whose failures keep the groups keeps the invariant. -/
theorem FaultyOp.groupsKept_step (h : GroupsKept db) {e : FaultyOp} (he : e.KeepsGroups db) :
    GroupsKept (FaultyOp.step decodeArray db e) := by
  obtain ⟨op, fails⟩ := e
  cases op with
  | insert c => exact groupsKept_insert h he
  | update c => exact groupsKept_update h he
  | delete id => exact groupsKept_delete h id
  | editChannelByTag tag e => exact groupsKept_editChannelByTag h he

/-- **Along every run whose failures keep the groups, the cache can be rebuilt in every state
reached**: `InitChannelCache` does not panic and lists every enabled channel under each of its groups
and models. -/
theorem initChannelCache_completes (decodeArray : String → Option (List String))
    (ops : List FaultyOp) (hops : Along (FaultyOp.step decodeArray) FaultyOp.KeepsGroups DB.empty ops)
    (n : Nat) (cache : Cache) :
    ∃ cache', initChannelCache (run (FaultyOp.step decodeArray) DB.empty (ops.take n)) cache
        = some cache' ∧
      ∀ c ∈ (run (FaultyOp.step decodeArray) DB.empty (ops.take n)).channels,
        c.status = channelStatusEnabled → ∀ group ∈ c.groupList, ∀ model ∈ c.modelList,
          c.id ∈ cache'.listed group model := by
  have hstart : Along (FaultyOp.step decodeArray) FaultyOp.KeepsGroups DB.empty (ops.take n) := by
    rw [← take_append_drop n ops] at hops
    exact (along_append.mp hops).1
  have hempty : GroupsKept DB.empty :=
    ⟨nodup_nil, fun _ hc => absurd hc not_mem_nil⟩
  have hkept := run_keeps_along (I := GroupsKept)
    (fun _ _ h he => FaultyOp.groupsKept_step h he) hempty hstart
  generalize run (FaultyOp.step decodeArray) DB.empty (ops.take n) = db at hkept
  have hsome : (initChannelCache db cache).isSome = true := by
    refine initChannelCache_isSome_iff.mpr fun c hc _ group hgroup => ?_
    obtain ⟨a, ha, -, hag⟩ := hkept.groups c hc group hgroup
    exact ⟨a, ha, hag⟩
  obtain ⟨cache', hinit⟩ := Option.isSome_iff_exists.mp hsome
  exact ⟨cache', hinit, fun c hc henabled group hg model hm =>
    (mem_listed_initChannelCache hinit).mpr ⟨c, hc, henabled, hg, hm, rfl⟩⟩

/-- A run in which the last statement of an update and of a deletion fail. -/
def faultyRun : List FaultyOp :=
  [⟨.insert { models := "gpt-4,gpt-4o", group := "default,vip", tag := some "a" }, noFaults⟩,
    ⟨.update { id := 1, models := "o3" }, fun s => s = .index 0⟩,
    ⟨.insert { models := "gpt-4" }, noFaults⟩,
    ⟨.editChannelByTag "a" { group := some "vip" }, noFaults⟩,
    ⟨.delete 2, fun s => s = .index 0⟩]

theorem initChannelCache_completes_faulty :
    ∃ cache', initChannelCache (run (FaultyOp.step decodeNothing) DB.empty (faultyRun.take 5)) {}
        = some cache' ∧
      ∀ c ∈ (run (FaultyOp.step decodeNothing) DB.empty (faultyRun.take 5)).channels,
        c.status = channelStatusEnabled → ∀ group ∈ c.groupList, ∀ model ∈ c.modelList,
          c.id ∈ cache'.listed group model :=
  initChannelCache_completes decodeNothing faultyRun (by decide) 5 {}

/-- A channel whose abilities were not written stops the next rebuild. -/
theorem initChannelCache_panics :
    ¬ ∀ (decodeArray : String → Option (List String)) (ops : List FaultyOp) (cache : Cache),
      (initChannelCache (run (FaultyOp.step decodeArray) DB.empty ops) cache).isSome = true := by
  intro h
  have hsome := h decodeNothing [⟨.insert { models := "gpt-4" }, fun s => s = .index 0⟩] {}
  rw [initChannelCache_isSome_iff] at hsome
  let stored : Channel :=
    { id := 1, status := 1, weight := some 0, models := "gpt-4", group := "default", priority := some 0 }
  have hrows := hsome stored (by decide) rfl "default" (by decide)
  revert hrows
  decide

end Prox.Routing
