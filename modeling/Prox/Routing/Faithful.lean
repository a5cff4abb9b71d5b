import Prox.Routing.Abilities

/-! # Runs that keep the abilities faithful

The operations on the channels table one after the other, none of their statements failing. Four of
them can leave the abilities behind: the two deletions by status, which do not touch them; the edit of
a tag, when it sets the weight to zero; and the assignment of a tag to a batch of channels, which
indexes them from rows read before the assignment. An update of a channel that does not exist writes
rows for it, and a channel whose groups and models contain the separator of the loops' set may lose
rows. Along runs without these steps the index is faithful. -/

namespace Prox.Routing

open List

/-! ## Operations -/

/-- One call on the channels table. -/
inductive Op where
  | insert (c : Channel)
  | batchInsertChannels (cs : List Channel)
  | update (c : Channel)
  | delete (id : Int)
  | batchDeleteChannels (ids : List Int)
  | deleteChannelByStatus (status : Int)
  | deleteDisabledChannel
  | enableChannelByTag (tag : String)
  | disableChannelByTag (tag : String)
  | editChannelByTag (tag : String) (edit : TagEdit)
  | updateChannelStatus (update : StatusUpdate)
  | batchSetChannelTag (ids : List Int) (tag : Option String)

variable (decodeArray : String → Option (List String))

/-- What a call leaves in the database. -/
def Op.exec (fails : Statement → Bool) (db : DB) : Op → DB
  | .insert c => (Routing.insert fails c db).2
  | .batchInsertChannels cs => (Routing.batchInsertChannels fails cs db).2
  | .update c => (Routing.update decodeArray fails c db).2
  | .delete id => (Routing.delete fails id db).2
  | .batchDeleteChannels ids => (Routing.batchDeleteChannels fails ids db).2
  | .deleteChannelByStatus status => (Routing.deleteChannelByStatus fails status db).2
  | .deleteDisabledChannel => (Routing.deleteDisabledChannel fails db).2
  | .enableChannelByTag tag => (Routing.enableChannelByTag fails tag db).2
  | .disableChannelByTag tag => (Routing.disableChannelByTag fails tag db).2
  | .editChannelByTag tag edit => (Routing.editChannelByTag fails tag edit db).2
  | .updateChannelStatus u => (Routing.updateChannelStatus decodeArray fails u db).2
  | .batchSetChannelTag ids tag => (Routing.batchSetChannelTag fails ids tag db).2

/-- A call without failures. -/
def Op.step (db : DB) (op : Op) : DB := op.exec decodeArray noFaults db

/-- The call does not leave the abilities behind, as far as its arguments and the channels table
tell. -/
def Op.KeepsIndex (db : DB) : Op → Prop
  | .insert c => c.withDefaults.DistinctKeys
  | .batchInsertChannels cs => ∀ c ∈ cs, c.withDefaults.DistinctKeys
  | .update c =>
    c.id = 0 ∨
      (c.id ∈ db.channels.map Channel.id ∧
        ∀ row ∈ db.channels, row.id = c.id → (c.updates row).DistinctKeys)
  | .delete _ => True
  | .batchDeleteChannels _ => True
  | .deleteChannelByStatus status => ∀ c ∈ db.channels, c.status ≠ status
  | .deleteDisabledChannel =>
    ∀ c ∈ db.channels, c.status ≠ channelStatusAutoDisabled ∧ c.status ≠ channelStatusManuallyDisabled
  | .enableChannelByTag _ => True
  | .disableChannelByTag _ => True
  | .editChannelByTag tag e =>
    if e.shouldReCreateAbilities then
      ∀ c ∈ db.channels, c.tag = some tag → ((e.updateData tag).updates c).DistinctKeys
    else e.weight = some 0 → ∀ c ∈ db.channels, c.tag = some tag → c.weight = some 0
  | .updateChannelStatus _ => True
  | .batchSetChannelTag ids tag => ∀ c ∈ db.channels, c.id ∈ ids → c.tag = tag

instance (db : DB) : (op : Op) → Decidable (op.KeepsIndex db)
  | .insert c => inferInstanceAs (Decidable c.withDefaults.DistinctKeys)
  | .batchInsertChannels cs => inferInstanceAs (Decidable (∀ c ∈ cs, c.withDefaults.DistinctKeys))
  | .update c =>
    inferInstanceAs (Decidable (c.id = 0 ∨ (c.id ∈ db.channels.map Channel.id ∧
      ∀ row ∈ db.channels, row.id = c.id → (c.updates row).DistinctKeys)))
  | .delete _ | .batchDeleteChannels _ | .enableChannelByTag _ | .disableChannelByTag _
  | .updateChannelStatus _ => inferInstanceAs (Decidable True)
  | .deleteChannelByStatus status =>
    inferInstanceAs (Decidable (∀ c ∈ db.channels, c.status ≠ status))
  | .deleteDisabledChannel =>
    inferInstanceAs (Decidable (∀ c ∈ db.channels,
      c.status ≠ channelStatusAutoDisabled ∧ c.status ≠ channelStatusManuallyDisabled))
  | .editChannelByTag tag e =>
    inferInstanceAs (Decidable (if e.shouldReCreateAbilities then
      ∀ c ∈ db.channels, c.tag = some tag → ((e.updateData tag).updates c).DistinctKeys
      else e.weight = some 0 → ∀ c ∈ db.channels, c.tag = some tag → c.weight = some 0))
  | .batchSetChannelTag ids tag =>
    inferInstanceAs (Decidable (∀ c ∈ db.channels, c.id ∈ ids → c.tag = tag))

variable {decodeArray} {P : Int → Prop} {db db' : DB} {c c' : Channel}

/-! ## Inserting -/

/-- A new channel brings the columns with a default. -/
theorem Channel.filled_withDefaults (c : Channel) : c.withDefaults.Filled := by
  constructor
  · cases hp : c.priority <;> simp [Channel.withDefaults, hp]
  · cases hw : c.weight <;> simp [Channel.withDefaults, hw]

theorem DB.create_eq_ok (h : db.create c = .ok (c', db')) :
    c'.id ∉ db.channels.map Channel.id ∧ c' = { c.withDefaults with id := c'.id } ∧
      (c'.id = if c.id = 0 then db.lastId + 1 else c.id) ∧
        db' = { db with channels := db.channels ++ [c'], lastId := max db.lastId c'.id } := by
  unfold DB.create at h
  generalize hid : (if c.id = 0 then db.lastId + 1 else c.id) = id at h ⊢
  dsimp only at h
  split at h
  · cases h
  · next hfresh =>
    cases h
    exact ⟨hfresh, rfl, rfl, rfl⟩

/-- A created channel has no rows yet. -/
theorem IndexedOn.create (h : IndexedOn P db) (hd : c.withDefaults.DistinctKeys)
    (hcreate : db.create c = .ok (c', db')) : IndexedOn (fun k => P k ∧ k ≠ c'.id) db' := by
  obtain ⟨hfresh, hc', hid, rfl⟩ := DB.create_eq_ok hcreate
  exact {
    ids := by
      rw [map_append]
      exact nodup_append.mpr ⟨h.ids, nodup_singleton _, fun x hx y hy hxy =>
        hfresh (mem_singleton.mp hy ▸ hxy ▸ hx)⟩
    ids_ne_zero := by
      intro x hx
      rcases mem_append.mp hx with hx | hx
      · exact h.ids_ne_zero x hx
      · rw [mem_singleton.mp hx, hid]
        have := h.lastId
        split <;> omega
    lastId := h.lastId.trans (le_max_left _ _)
    filled := by
      intro x hx
      rcases mem_append.mp hx with hx | hx
      · exact h.filled x hx
      · rw [mem_singleton.mp hx, hc']
        exact c.filled_withDefaults
    distinct := by
      intro x hx
      rcases mem_append.mp hx with hx | hx
      · exact h.distinct x hx
      · rw [mem_singleton.mp hx, hc']
        exact hd.congr rfl rfl
    mirrors := by
      refine (h.mirrors.mono fun k hk => hk.1).base_change fun b hb => ?_
      rw [mem_append, mem_singleton]
      refine or_iff_left ?_
      rintro rfl
      exact hb.2 rfl
    one := h.one }

/-- A row of the index belongs to a channel. -/
theorem IndexedOn.owner_mem (h : Indexed db) {a : Ability} (ha : a ∈ db.abilities) :
    a.channelId ∈ db.channels.map Channel.id := by
  obtain ⟨c, hc, hac⟩ := (h.mirrors a trivial).mp ha
  exact mem_map.mpr ⟨c, hc, hac.2.2.1.symm⟩

/-- **`Channel.Insert`** keeps the index. -/
theorem indexed_insert (h : Indexed db) (hd : c.withDefaults.DistinctKeys) :
    Indexed (insert noFaults c db).2 := by
  unfold insert
  rw [if_neg (by simp [noFaults])]
  cases hcreate : db.create c with
  | error e => exact h
  | ok r =>
    obtain ⟨c', db'⟩ := r
    have hon := h.create hd hcreate
    obtain ⟨hfresh, -, -, rfl⟩ := DB.create_eq_ok hcreate
    show Indexed (c'.addAbilities noFaults _).2
    rw [addAbilities_noFaults]
    refine (hon.addAbilitiesTx (mem_append_right _ (mem_singleton_self c'))
      fun a ha hid => ?_).mono fun k _ => ?_
    · exact hfresh (hid ▸ h.owner_mem ha)
    · by_cases hk : k = c'.id
      · exact .inr hk
      · exact .inl ⟨trivial, hk⟩

/-- Several channels created by one statement. -/
theorem IndexedOn.createAll {cs cs' : List Channel} (h : IndexedOn P db)
    (hd : ∀ c ∈ cs, c.withDefaults.DistinctKeys) (hcreate : db.createAll cs = .ok (cs', db')) :
    IndexedOn (fun k => P k ∧ k ∉ cs'.map Channel.id) db' ∧
      db'.channels = db.channels ++ cs' ∧ db'.abilities = db.abilities := by
  induction cs generalizing P db cs' with
  | nil =>
    cases hcreate
    exact ⟨h.mono fun k hk => hk.1, (append_nil _).symm, rfl⟩
  | cons c cs ih =>
    obtain ⟨hdc, hdcs⟩ := forall_mem_cons.mp hd
    obtain ⟨⟨c₁, db₁⟩, h₁, hrest⟩ := bind_eq_ok.mp hcreate
    obtain ⟨⟨cs₂, db₂⟩, h₂, hpure⟩ := bind_eq_ok.mp hrest
    cases pure_eq_ok.mp hpure
    obtain ⟨hon, hchannels, habilities⟩ := ih (h.create hdc h₁) hdcs h₂
    obtain ⟨-, -, -, rfl⟩ := DB.create_eq_ok h₁
    refine ⟨hon.mono fun k hk => ?_, ?_, habilities⟩
    · simpa [not_or, and_assoc] using hk
    · rw [hchannels, append_assoc]
      rfl

/-- `AddAbilities` for new channels gives them all back. -/
theorem IndexedOn.foldl_addAbilitiesTx {cs : List Channel} (h : IndexedOn P db)
    (hcs : ∀ c ∈ cs, c ∈ db.channels) (hnodup : (cs.map Channel.id).Nodup)
    (hnone : ∀ a ∈ db.abilities, a.channelId ∉ cs.map Channel.id) :
    IndexedOn (fun k => P k ∨ k ∈ cs.map Channel.id)
      (cs.foldl (fun db c => c.addAbilitiesTx db) db) := by
  induction cs generalizing P db with
  | nil => simpa using h
  | cons c cs ih =>
    obtain ⟨hc, hrest⟩ := forall_mem_cons.mp hcs
    obtain ⟨hfresh, hnodup⟩ := nodup_cons.mp hnodup
    have hown : ∀ a ∈ db.abilities, a.channelId ≠ c.id := fun a ha hid =>
      hnone a ha (hid ▸ mem_cons_self)
    refine (ih (h.addAbilitiesTx hc hown) hrest hnodup fun a ha => ?_).mono fun k hk => ?_
    · rcases (mem_addAbilitiesTx (h.filled c hc) (h.distinct c hc) hown).mp ha with ha | ha
      · exact fun hmem => hnone a ha (mem_cons_of_mem _ hmem)
      · rw [ha.2.2.1]
        exact hfresh
    · rwa [map_cons, mem_cons, ← or_assoc] at hk

/-- A chunk of `BatchInsertChannels` keeps the index. -/
theorem indexed_insertChunk {chunk : List Channel} (h : Indexed db)
    (hd : ∀ c ∈ chunk, c.withDefaults.DistinctKeys) (hchunk : insertChunk db chunk = .ok db') :
    Indexed db' := by
  obtain ⟨⟨cs, db₁⟩, hcreate, hpure⟩ := bind_eq_ok.mp hchunk
  cases pure_eq_ok.mp hpure
  obtain ⟨hon, hchannels, habilities⟩ := h.createAll hd hcreate
  have hids := hon.ids
  rw [hchannels, map_append, nodup_append] at hids
  obtain ⟨-, hnodup, hdisjoint⟩ := hids
  refine (hon.foldl_addAbilitiesTx (fun c hc => ?_) hnodup fun a ha hmem => ?_).mono fun k _ => ?_
  · rw [hchannels]
    exact mem_append_right _ hc
  · rw [habilities] at ha
    exact hdisjoint _ (h.owner_mem ha) _ hmem rfl
  · by_cases hk : k ∈ cs.map Channel.id
    · exact .inr hk
    · exact .inl ⟨trivial, hk⟩

/-- **`BatchInsertChannels`** keeps the index. -/
theorem indexed_batchInsertChannels {cs : List Channel} (h : Indexed db)
    (hd : ∀ c ∈ cs, c.withDefaults.DistinctKeys) : Indexed (batchInsertChannels noFaults cs db).2 := by
  have hfold : ∀ (pieces : List (List Channel)) (db db' : DB), Indexed db →
      (∀ piece ∈ pieces, ∀ c ∈ piece, c.withDefaults.DistinctKeys) →
        pieces.foldlM insertChunk db = .ok db' → Indexed db' := by
    intro pieces
    induction pieces with
    | nil =>
      rintro db db' h - hfold
      cases hfold
      exact h
    | cons piece pieces ih =>
      intro db db' h hd hfold
      obtain ⟨hpiece, hpieces⟩ := forall_mem_cons.mp hd
      obtain ⟨db₁, hchunk, hrest⟩ := bind_eq_ok.mp hfold
      exact ih db₁ db' (indexed_insertChunk h hpiece hchunk) hpieces hrest
  unfold batchInsertChannels
  cases hrun : (chunks 50 cs).foldlM insertChunk db with
  | error e => exact h
  | ok db' =>
    exact hfold _ db db' h (fun piece hpiece c hc => hd c (mem_of_mem_chunks (by decide) hpiece hc)) hrun

/-! ## Updating -/

variable (fails : Statement → Bool)

theorem recountKeys_id :
    (c.recountKeys decodeArray fails db).id = c.id := by
  unfold Channel.recountKeys
  split <;> rfl

theorem recountKeys_models :
    (c.recountKeys decodeArray fails db).models = c.models := by
  unfold Channel.recountKeys
  split <;> rfl

theorem recountKeys_group :
    (c.recountKeys decodeArray fails db).group = c.group := by
  unfold Channel.recountKeys
  split <;> rfl

/-- An update fills no column with `NULL`. -/
theorem Channel.Filled.updates {row : Channel} (h : row.Filled) (u : Channel) :
    (u.updates row).Filled := by
  obtain ⟨hp, hw⟩ := h
  constructor
  · cases hu : u.priority <;> simp [Channel.updates, hu, hp]
  · cases hu : u.weight <;> simp [Channel.updates, hu, hw]

/-- **`Channel.Update`** of an existing channel keeps the index. -/
theorem indexed_update (h : Indexed db)
    (hkeeps : c.id = 0 ∨ (c.id ∈ db.channels.map Channel.id ∧
      ∀ row ∈ db.channels, row.id = c.id → (c.updates row).DistinctKeys)) :
    Indexed (update decodeArray noFaults c db).2 := by
  unfold update
  have hid : (c.recountKeys decodeArray noFaults db).id = c.id := recountKeys_id _
  have hmodels : (c.recountKeys decodeArray noFaults db).models = c.models := recountKeys_models _
  have hgroup : (c.recountKeys decodeArray noFaults db).group = c.group := recountKeys_group _
  generalize c.recountKeys decodeArray noFaults db = c₁ at hid hmodels hgroup
  simp only [noFaults, Bool.false_eq_true, if_false]
  by_cases hzero : c₁.id = 0
  · rw [if_pos hzero]
    exact h
  · rw [if_neg hzero]
    obtain ⟨hmem, hd⟩ := hkeeps.resolve_left (hid ▸ hzero)
    obtain ⟨row, hrow, hrowid⟩ := mem_map.mp hmem
    rw [← hid] at hrowid
    have hwritten : IndexedOn (fun k => k ≠ c₁.id) (db.updateChannel c₁) := by
      refine h.mapChannels (fun b => ?_) (fun b hb => ?_) (fun b hb => ?_) fun k hk => ⟨trivial, ?_⟩
      · split <;> rfl
      · split
        · exact (h.filled b hb).updates c₁
        · exact h.filled b hb
      · split
        · next hb' =>
          refine (hd b hb (hb'.trans hid)).congr ?_ ?_
          · show keepZero "" c₁.models b.models = keepZero "" c.models b.models
            rw [hmodels]
          · show keepZero "" c₁.group b.group = keepZero "" c.group b.group
            rw [hgroup]
        · exact h.distinct b hb
      · intro b hb hbk
        exact if_neg (hbk ▸ hk)
    have hstored : c₁.updates row ∈ (db.updateChannel c₁).channels :=
      mem_map.mpr ⟨row, hrow, if_pos hrowid⟩
    -- the row is read back with the columns the request left alone
    have hfind := hwritten.find?_id hstored
    have hrow' : (c₁.updates row).id = c₁.id := hrowid
    rw [hrow'] at hfind
    rw [hfind]
    refine (hwritten.updateAbilitiesTx hstored).mono fun k _ => ?_
    rw [hrow']
    exact ne_or_eq k c₁.id

/-! ## Deleting -/

/-- Deleting the rows of the same channels from both tables keeps the index. -/
theorem indexed_deleteBoth (h : Indexed db) (ids : List Int) :
    Indexed ((db.deleteChannels ids).deleteAbilities ids) := by
  have hsub : ∀ c ∈ (db.deleteChannels ids).channels, c ∈ db.channels ∧ c.id ∉ ids := by
    intro c hc
    obtain ⟨hc, hid⟩ := mem_filter.mp hc
    exact ⟨hc, of_decide_eq_true hid⟩
  refine
    { ids := h.ids.sublist (filter_sublist.map _)
      ids_ne_zero := fun c hc => h.ids_ne_zero c (hsub c hc).1
      lastId := h.lastId
      filled := fun c hc => h.filled c (hsub c hc).1
      distinct := fun c hc => h.distinct c (hsub c hc).1
      mirrors := ?_
      one := h.one.sublist (filter_sublist.map _) }
  have hwritten : index.MirrorsOn (· ∉ ids) (db.deleteChannels ids).channels db.abilities := by
    refine (h.mirrors.mono fun _ _ => trivial).base_change fun b hb => ?_
    show b ∈ db.channels.filter _ ↔ _
    rw [mem_filter]
    exact and_iff_left (decide_eq_true hb)
  refine (hwritten.delete (D := (· ∈ ids)) (fun b hb => (hsub b hb).2) fun a => ?_).mono
    fun k _ => (em (k ∈ ids)).symm
  show a ∈ db.abilities.filter _ ↔ _
  rw [mem_filter, decide_eq_true_iff]
  rfl

/-- **`Channel.Delete`** keeps the index. -/
theorem indexed_delete (h : Indexed db) (id : Int) : Indexed (delete noFaults id db).2 := by
  unfold delete
  split
  · exact h
  · exact indexed_deleteBoth h [id]

/-- **`BatchDeleteChannels`** keeps the index. -/
theorem indexed_batchDeleteChannels (h : Indexed db) (ids : List Int) :
    Indexed (batchDeleteChannels noFaults ids db).2 := by
  have hfold : ∀ (pieces : List (List Int)) (db : DB), Indexed db →
      Indexed (pieces.foldl (fun db ids => (db.deleteChannels ids).deleteAbilities ids) db) := by
    intro pieces
    induction pieces with
    | nil => exact fun _ h => h
    | cons piece pieces ih => exact fun db h => ih _ (indexed_deleteBoth h piece)
  exact hfold _ db h

/-- **`DeleteChannelByStatus`** keeps the index when it deletes nothing. -/
theorem indexed_deleteChannelByStatus (h : Indexed db) {status : Int}
    (hkeeps : ∀ c ∈ db.channels, c.status ≠ status) :
    Indexed (deleteChannelByStatus noFaults status db).2 := by
  show Indexed { db with channels := db.channels.filter fun c => c.status ≠ status }
  rw [filter_eq_self.mpr fun c hc => decide_eq_true (hkeeps c hc)]
  exact h

/-- **`DeleteDisabledChannel`** keeps the index when it deletes nothing. -/
theorem indexed_deleteDisabledChannel (h : Indexed db)
    (hkeeps : ∀ c ∈ db.channels,
      c.status ≠ channelStatusAutoDisabled ∧ c.status ≠ channelStatusManuallyDisabled) :
    Indexed (deleteDisabledChannel noFaults db).2 := by
  show Indexed { db with
    channels := db.channels.filter fun c =>
      c.status ≠ channelStatusAutoDisabled ∧ c.status ≠ channelStatusManuallyDisabled }
  rw [filter_eq_self.mpr fun c hc => decide_eq_true (hkeeps c hc)]
  exact h

/-! ## Assignments to both tables -/

/-- The same assignment on both tables keeps the index. -/
theorem indexed_mapBoth (h : Indexed db) {f : Channel → Channel} {g : Ability → Ability}
    (hid : ∀ c, (f c).id = c.id) (hkey : ∀ a, (g a).key = a.key)
    (hfilled : ∀ c ∈ db.channels, (f c).Filled) (hdistinct : ∀ c ∈ db.channels, (f c).DistinctKeys)
    (hfg : ∀ c ∈ db.channels, ∀ a, a.Describes (f c) ↔ ∃ a', a'.Describes c ∧ g a' = a) :
    Indexed { db with channels := db.channels.map f, abilities := db.abilities.map g } :=
  { h.mapChannels (Q := fun _ => False) hid hfilled hdistinct nofun with
    mirrors := Derivation.Mirrors.on (Derivation.Mirrors.map (h.mirrors.mirrors fun _ => trivial) hfg) _
    one := by
      rw [map_map, show Ability.key ∘ g = Ability.key from funext hkey]
      exact h.one }

/-- A row that is left as it is describes a channel that is left as it is. -/
theorem describes_iff_of_same {g : Ability → Ability} {c : Channel}
    (hg : ∀ a, a.Describes c → g a = a) {a : Ability} :
    a.Describes c ↔ ∃ a', a'.Describes c ∧ g a' = a := by
  constructor
  · exact fun ha => ⟨a, ha, hg a ha⟩
  · rintro ⟨a', ha', rfl⟩
    rwa [hg a' ha']

/-- Setting the status of a channel and the flag of its rows. -/
theorem describes_setStatus (c c' : Channel) {enabled : Bool} {a : Ability}
    (henabled : enabled = decide (c'.status = channelStatusEnabled))
    (hsame : c'.groupList = c.groupList ∧ c'.modelList = c.modelList ∧ c'.id = c.id ∧
      c'.priority = c.priority ∧ c'.weight = c.weight ∧ c'.tag = c.tag) :
    a.Describes c' ↔ ∃ a' : Ability, a'.Describes c ∧ { a' with enabled := enabled } = a := by
  obtain ⟨hgroup, hmodel, hid, hpriority, hweight, htag⟩ := hsame
  unfold Ability.Describes
  rw [hgroup, hmodel, hid, hpriority, hweight, htag, ← henabled]
  constructor
  · rintro ⟨h₁, h₂, h₃, h₄, h₅⟩
    refine ⟨{ a with enabled := decide (c.status = channelStatusEnabled) },
      ⟨h₁, h₂, h₃, rfl, h₅⟩, ?_⟩
    rw [← h₄]
  · rintro ⟨a', ⟨h₁, h₂, h₃, -, h₅⟩, rfl⟩
    exact ⟨h₁, h₂, h₃, rfl, h₅⟩

/-- **`EnableChannelByTag` and `DisableChannelByTag`** keep the index. -/
theorem indexed_setStatusByTag (h : Indexed db) (tag : String) (status : Int) :
    Indexed (setStatusByTag noFaults tag status db).2 := by
  refine indexed_mapBoth h (f := fun c => if c.tag = some tag then { c with status := status } else c)
    (g := fun a => if a.tag = some tag then
      { a with enabled := decide (status = channelStatusEnabled) } else a)
    (fun c => ?_) (fun a => ?_) (fun c hc => ?_) (fun c hc => ?_) fun c _ a => ?_
  · split <;> rfl
  · split <;> rfl
  · split <;> exact h.filled c hc
  · split
    · exact (h.distinct c hc).congr rfl rfl
    · exact h.distinct c hc
  · by_cases htag : c.tag = some tag
    · rw [if_pos htag, describes_setStatus c { c with status := status } rfl
        ⟨rfl, rfl, rfl, rfl, rfl, rfl⟩]
      refine exists_congr fun a' => and_congr_right fun ha' => ?_
      rw [if_pos (ha'.2.2.2.2.2.2.trans htag)]
    · rw [if_neg htag]
      refine describes_iff_of_same fun a ha => ?_
      rw [if_neg fun hat => htag (ha.2.2.2.2.2.2.symm.trans hat)]

/-! ## Editing a tag -/

/-- Without faults every channel of the loop is indexed anew. -/
theorem updateEach_noFaults (n : Nat) (cs : List Channel) (db : DB) :
    updateEach noFaults n cs db = cs.foldl (fun db c => c.updateAbilitiesTx db) db := by
  induction cs generalizing n db with
  | nil => rfl
  | cons c cs ih =>
    rw [updateEach, ih]
    rfl

/-- An edit without models and groups keeps both lists. -/
theorem updates_lists (tag : String) {e : TagEdit} (hedit : e.shouldReCreateAbilities = false)
    (c : Channel) : ((e.updateData tag).updates c).models = c.models ∧
      ((e.updateData tag).updates c).group = c.group := by
  simp only [TagEdit.shouldReCreateAbilities, Bool.or_eq_false_iff, decide_eq_false_iff_not,
    ne_eq, not_not] at hedit
  constructor
  · show keepZero "" (e.models.getD "") c.models = c.models
    rw [hedit.1]
    rfl
  · show keepZero "" (e.group.getD "") c.group = c.group
    rw [hedit.2]
    rfl

/-- An edit without models and groups changes a tagged channel and its rows alike, unless it sets a
weight to zero that was not. -/
theorem describes_edit {tag : String} {e : TagEdit} {c : Channel} (hc : c.Filled)
    (htag : c.tag = some tag) (hedit : e.shouldReCreateAbilities = false)
    (hweight : e.weight = some 0 → c.weight = some 0) {a : Ability} :
    a.Describes ((e.updateData tag).updates c) ↔
      ∃ a', a'.Describes c ∧ e.abilityData.updates a' = a := by
  obtain ⟨w, hw⟩ := Option.ne_none_iff_exists'.mp hc.2
  obtain ⟨hmodels, hgroup⟩ := updates_lists tag hedit c
  -- what the two structs make of the columns they both write
  have hsame : ∀ a', a'.Describes c →
      (e.abilityData.updates a').Describes ((e.updateData tag).updates c) := by
    rintro a' ⟨h₁, h₂, h₃, h₄, h₅, h₆, h₇⟩
    refine ⟨?_, ?_, h₃, h₄, ?_, ?_, ?_⟩
    · rw [Channel.groupList, hgroup]
      exact h₁
    · rw [Channel.modelList, hmodels]
      exact h₂
    · show e.priority.or a'.priority = e.priority.or c.priority
      rw [h₅]
    · show some (keepZero 0 (e.weight.getD 0) a'.weight) = e.weight.or c.weight
      rw [hw, Option.some.injEq] at h₆
      cases hew : e.weight with
      | none =>
        rw [hw, h₆]
        rfl
      | some v =>
        show some (keepZero 0 v a'.weight) = some v
        by_cases hv : v = 0
        · subst hv
          rw [keepZero, if_pos rfl, h₆, ← hw]
          exact hweight hew
        · rw [keepZero, if_neg hv]
    · show e.newTag.or a'.tag = (if e.newTag = some tag then none else e.newTag).or c.tag
      rw [h₇, htag]
      split
      · next hnew =>
        rw [hnew]
        rfl
      · rfl
  constructor
  · intro ha
    -- the row it was before
    have hbefore : Ability.Describes { a with priority := c.priority, weight := w, tag := c.tag } c := by
      obtain ⟨h₁, h₂, h₃, h₄, -⟩ := ha
      rw [Channel.groupList, hgroup] at h₁
      rw [Channel.modelList, hmodels] at h₂
      exact ⟨h₁, h₂, h₃, h₄, rfl, hw.symm, rfl⟩
    exact ⟨_, hbefore, (hsame _ hbefore).eq_of_key ha rfl⟩
  · rintro ⟨a', ha', rfl⟩
    exact hsame a' ha'

/-- **`EditChannelByTag`** keeps the index. -/
theorem indexed_editChannelByTag (h : Indexed db) (tag : String) (e : TagEdit)
    (hkeeps : if e.shouldReCreateAbilities then
      ∀ c ∈ db.channels, c.tag = some tag → ((e.updateData tag).updates c).DistinctKeys
      else e.weight = some 0 → ∀ c ∈ db.channels, c.tag = some tag → c.weight = some 0) :
    Indexed (editChannelByTag noFaults tag e db).2 := by
  unfold editChannelByTag
  simp only [noFaults, Bool.false_eq_true, if_false]
  split at hkeeps
  · next hedit =>
    rw [if_pos hedit]
    have hwritten : IndexedOn (fun k => ∀ c ∈ db.channels, c.id = k → c.tag ≠ some tag)
        (db.mapTagged tag (e.updateData tag).updates) := by
      refine h.mapChannels (fun c => ?_) (fun c hc => ?_) (fun c hc => ?_) fun k hk => ⟨trivial, ?_⟩
      · split <;> rfl
      · split
        · exact (h.filled c hc).updates _
        · exact h.filled c hc
      · split
        · next htag => exact hkeeps c hc htag
        · exact h.distinct c hc
      · intro c hc hck
        exact if_neg (hk c hc hck)
    have hall := hwritten.foldl_updateAbilitiesTx ((db.mapTagged tag
      (e.updateData tag).updates).channels.filter fun c => c.tag = some (e.updatedTag tag))
      fun c hc => (mem_filter.mp hc).1
    rw [updateEach_noFaults]
    refine hall.mono fun k _ => ?_
    by_cases hk : ∃ c ∈ db.channels, c.id = k ∧ c.tag = some tag
    · -- a channel that was edited has the tag whose channels are indexed anew
      obtain ⟨c, hc, rfl, htag⟩ := hk
      refine .inr ⟨(e.updateData tag).updates c, mem_filter.mpr ⟨?_, ?_⟩, rfl⟩
      · exact mem_map.mpr ⟨c, hc, if_pos htag⟩
      · rw [decide_eq_true_iff]
        show (if e.newTag = some tag then none else e.newTag).or c.tag = some (e.newTag.getD tag)
        rw [htag]
        split
        · next hnew => simp [hnew]
        · cases e.newTag <;> rfl
    · exact .inl fun c hc hck htag => hk ⟨c, hc, hck, htag⟩
  · next hedit =>
    rw [if_neg hedit]
    rw [Bool.not_eq_true] at hedit
    refine indexed_mapBoth h (f := fun c => if c.tag = some tag then (e.updateData tag).updates c else c)
      (g := fun a => if a.tag = some tag then e.abilityData.updates a else a)
      (fun c => ?_) (fun a => ?_) (fun c hc => ?_) (fun c hc => ?_) fun c hc a => ?_
    · split <;> rfl
    · split <;> rfl
    · split
      · exact (h.filled c hc).updates _
      · exact h.filled c hc
    · split
      · obtain ⟨hmodels, hgroup⟩ := updates_lists tag hedit c
        exact (h.distinct c hc).congr hmodels hgroup
      · exact h.distinct c hc
    · by_cases htag : c.tag = some tag
      · rw [if_pos htag, describes_edit (h.filled c hc) htag hedit fun hw => hkeeps hw c hc htag]
        refine exists_congr fun a' => and_congr_right fun ha' => ?_
        rw [if_pos (ha'.2.2.2.2.2.2.trans htag)]
      · rw [if_neg htag]
        refine describes_iff_of_same fun a ha => ?_
        rw [if_neg fun hat => htag (ha.2.2.2.2.2.2.symm.trans hat)]

/-! ## Status updates -/

/-- A key whose status entry was removed is enabled. -/
theorem hasEnabledMultiKey_remove {keys : List String} {i : Nat} (hi : i < keys.length)
    (statuses : Option (List (Int × Int))) :
    hasEnabledMultiKey keys (remove statuses (i : Int)) = true := by
  refine any_eq_true.mpr ⟨i, mem_range.mpr hi, ?_⟩
  have hnone : ((statuses.getD []).filter fun entry => entry.1 ≠ (i : Int)).lookup (i : Int) = none := by
    rw [lookup_eq_none_iff]
    intro entry hentry
    have hne := of_decide_eq_true (mem_filter.mp hentry).2
    simpa using hne.symm
  dsimp only [remove, Option.getD_some]
  rw [hnone]

/-- `handlerMultiKeyUpdate` changes the status of the channel only towards what was asked for: it
becomes enabled exactly when that was the request. -/
theorem handlerMultiKeyUpdate_status {keys : List String} {usingKey reason : String} {status now : Int}
    (hne : (handlerMultiKeyUpdate keys c usingKey status reason now).status ≠ c.status) :
    (handlerMultiKeyUpdate keys c usingKey status reason now).status = channelStatusEnabled ↔
      status = channelStatusEnabled := by
  unfold handlerMultiKeyUpdate at hne ⊢
  split
  · rfl
  · next hkeys =>
    rw [if_neg hkeys] at hne
    cases hfind : keys.findIdx? (· = usingKey) with
    | none =>
      rw [hfind] at hne
      dsimp only at hne ⊢
      split
      · next hkey =>
        rw [if_pos hkey] at hne
        exact absurd rfl hne
      · rfl
    | some i =>
      rw [hfind] at hne
      dsimp only at hne ⊢
      have hi : i < keys.length := List.findIdx?_eq_some_iff_getElem.mp hfind |>.1
      by_cases hstatus : status = channelStatusEnabled
      · -- enabling a key leaves an enabled key
        have henabled : hasEnabledMultiKey keys
            (setKeyStatus c.channelInfo i status reason now).multiKeyStatusList = true := by
          rw [setKeyStatus, if_pos hstatus]
          exact hasEnabledMultiKey_remove hi _
        rw [henabled]
        simp [hstatus]
      · refine iff_of_false ?_ hstatus
        split
        · exact nofun
        · next hsome =>
          rw [if_neg hsome, if_neg hstatus] at hne
          exact absurd rfl hne

/-- A status update keeps what the index shows of a channel besides its status. -/
theorem StatusUpdate.apply_same (u : StatusUpdate) (c : Channel) :
    (u.apply decodeArray c).id = c.id ∧ (u.apply decodeArray c).models = c.models ∧
      (u.apply decodeArray c).group = c.group ∧ (u.apply decodeArray c).priority = c.priority ∧
        (u.apply decodeArray c).weight = c.weight ∧ (u.apply decodeArray c).tag = c.tag := by
  unfold StatusUpdate.apply handlerMultiKeyUpdate
  repeat' first | split | dsimp only
  all_goals exact ⟨rfl, rfl, rfl, rfl, rfl, rfl⟩

/-- The flag that `UpdateAbilityStatus` writes is the one of the saved status. -/
theorem StatusUpdate.apply_status {u : StatusUpdate}
    (hupdate : (!c.channelInfo.isMultiKey || decide ((u.apply decodeArray c).status ≠ c.status)) = true) :
    decide (u.status = channelStatusEnabled)
      = decide ((u.apply decodeArray c).status = channelStatusEnabled) := by
  rw [decide_eq_decide]
  unfold StatusUpdate.apply at hupdate ⊢
  split
  · next hmulti =>
    rw [hmulti, Bool.not_true, Bool.false_or, decide_eq_true_iff] at hupdate
    exact (handlerMultiKeyUpdate_status hupdate).symm
  · rfl

/-- The channels after `saveWithoutKey`, in terms of the row that was read. -/
theorem IndexedOn.saveWithoutKey_eq (h : IndexedOn P db) (hc : c ∈ db.channels) (hid : c'.id = c.id) :
    db.saveWithoutKey c' = { db with
      channels := db.channels.map fun b => if b.id = c.id then { c' with key := c.key } else b } := by
  unfold DB.saveWithoutKey
  congr 1
  refine map_congr_left fun b hb => ?_
  rw [hid]
  by_cases hb' : b.id = c.id
  · rw [if_pos hb', if_pos hb', h.eq_of_id hb hc hb']
  · rw [if_neg hb', if_neg hb']

/-- What the index shows of a channel besides its status. -/
def SameShown (c' c : Channel) : Prop :=
  c'.id = c.id ∧ c'.models = c.models ∧ c'.group = c.group ∧ c'.priority = c.priority ∧
    c'.weight = c.weight ∧ c'.tag = c.tag

/-- Replacing the status of one channel and the flag of its rows keeps the index. -/
theorem indexed_setOne (h : Indexed db) (hc : c ∈ db.channels) (hsame : SameShown c' c)
    {enabled : Bool} (henabled : enabled = decide (c'.status = channelStatusEnabled)) :
    Indexed (DB.setAbilityStatus { db with
      channels := db.channels.map fun b => if b.id = c.id then c' else b } c.id enabled) := by
  obtain ⟨hid, hmodels, hgroup, hpriority, hweight, htag⟩ := hsame
  refine indexed_mapBoth h (f := fun b => if b.id = c.id then c' else b)
    (g := fun a => if a.channelId = c.id then { a with enabled := enabled } else a)
    (fun b => ?_) (fun a => ?_) (fun b hb => ?_) (fun b hb => ?_) fun b hb a => ?_
  · split
    · next hb => exact hid.trans hb.symm
    · rfl
  · split <;> rfl
  · split
    · exact ⟨hpriority ▸ (h.filled c hc).1, hweight ▸ (h.filled c hc).2⟩
    · exact h.filled b hb
  · split
    · exact (h.distinct c hc).congr hmodels hgroup
    · exact h.distinct b hb
  · by_cases hbc : b.id = c.id
    · rw [if_pos hbc, h.eq_of_id hb hc hbc]
      rw [describes_setStatus c _ henabled ⟨?_, ?_, hid, hpriority, hweight, htag⟩]
      · refine exists_congr fun a' => and_congr_right fun ha' => ?_
        rw [if_pos ha'.2.2.1]
      · rw [Channel.groupList, hgroup, Channel.groupList]
      · rw [Channel.modelList, hmodels, Channel.modelList]
    · rw [if_neg hbc]
      refine describes_iff_of_same fun a ha => ?_
      rw [if_neg fun hac => hbc (ha.2.2.1.symm.trans hac)]

/-- Writing the flag that the rows already have changes nothing. -/
theorem setAbilityStatus_same (h : Indexed db) (hc : c ∈ db.channels) (channels : List Channel) :
    DB.setAbilityStatus { db with channels := channels } c.id
      (decide (c.status = channelStatusEnabled)) = { db with channels := channels } := by
  unfold DB.setAbilityStatus
  congr 1
  refine (map_congr_left fun a ha => ?_).trans (map_id' _)
  split
  · next hac =>
    obtain ⟨b, hb, hab⟩ := (h.mirrors a trivial).mp ha
    rw [← h.eq_of_id hb hc (hab.2.2.1.symm.trans hac), ← hab.2.2.2.1]
  · rfl

/-- **`UpdateChannelStatus`** keeps the index. -/
theorem indexed_updateChannelStatus (h : Indexed db) (u : StatusUpdate) :
    Indexed (updateChannelStatus decodeArray noFaults u db).2 := by
  unfold updateChannelStatus
  simp only [noFaults, Bool.false_eq_true, if_false, Bool.not_false, Bool.true_and, Bool.and_true]
  split
  · exact h
  cases hfind : db.channels.find? fun row => row.id = u.channelId with
  | none => exact h
  | some c =>
    have hc : c ∈ db.channels := List.mem_of_find?_eq_some hfind
    have hcid : c.id = u.channelId := by simpa using List.find?_some hfind
    have hsame : SameShown (u.apply decodeArray c) c := u.apply_same c
    have hsaved : (u.apply decodeArray c).id ≠ 0 := hsame.1 ▸ h.ids_ne_zero c hc
    dsimp only
    split
    · exact h
    simp only [decide_eq_true hsaved, if_true, h.saveWithoutKey_eq hc hsame.1, ← hcid]
    split
    · next hupdate =>
      exact indexed_setOne h hc (show SameShown { u.apply decodeArray c with key := c.key } c from hsame)
        (StatusUpdate.apply_status hupdate)
    · next hupdate =>
      -- the status stays, so the rows are right without being written
      have hstatus : (u.apply decodeArray c).status = c.status := by
        rw [Bool.not_eq_true, Bool.or_eq_false_iff, decide_eq_false_iff_not, not_not] at hupdate
        exact hupdate.2
      have hset := indexed_setOne h hc
        (show SameShown { u.apply decodeArray c with key := c.key } c from hsame) rfl
      rw [show ({ u.apply decodeArray c with key := c.key } : Channel).status = c.status from hstatus,
        setAbilityStatus_same h hc] at hset
      exact hset

/-! ## Assigning a tag -/

/-- **`BatchSetChannelTag`** keeps the index when it changes no tag. -/
theorem indexed_batchSetChannelTag (h : Indexed db) {ids : List Int} {tag : Option String}
    (hkeeps : ∀ c ∈ db.channels, c.id ∈ ids → c.tag = tag) :
    Indexed (batchSetChannelTag noFaults ids tag db).2 := by
  unfold batchSetChannelTag
  have hsame : db.channels.map (fun c => if c.id ∈ ids then { c with tag := tag } else c)
      = db.channels := by
    refine (map_congr_left fun c hc => ?_).trans (map_id' _)
    split
    · next hmem => rw [← hkeeps c hc hmem]
    · rfl
  rw [hsame]
  exact (h.foldl_updateAbilitiesTx _ fun c hc => (mem_filter.mp hc).1).mono fun _ _ => .inl trivial

/-! ## Runs -/

theorem indexed_empty : Indexed DB.empty where
  ids := nodup_nil
  ids_ne_zero := fun _ hc => absurd hc not_mem_nil
  lastId := Int.le_refl 0
  filled := fun _ hc => absurd hc not_mem_nil
  distinct := fun _ hc => absurd hc not_mem_nil
  mirrors := fun _ _ => iff_of_false not_mem_nil fun ⟨_, hc, _⟩ => not_mem_nil hc
  one := nodup_nil

/-- A call that does not leave the abilities behind keeps the index. -/
theorem Op.indexed_step (h : Indexed db) {op : Op} (hop : op.KeepsIndex db) :
    Indexed (Op.step decodeArray db op) := by
  cases op with
  | insert c => exact indexed_insert h hop
  | batchInsertChannels cs => exact indexed_batchInsertChannels h hop
  | update c => exact indexed_update h hop
  | delete id => exact indexed_delete h id
  | batchDeleteChannels ids => exact indexed_batchDeleteChannels h ids
  | deleteChannelByStatus status => exact indexed_deleteChannelByStatus h hop
  | deleteDisabledChannel => exact indexed_deleteDisabledChannel h hop
  | enableChannelByTag tag => exact indexed_setStatusByTag h tag _
  | disableChannelByTag tag => exact indexed_setStatusByTag h tag _
  | editChannelByTag tag e => exact indexed_editChannelByTag h tag e hop
  | updateChannelStatus u => exact indexed_updateChannelStatus h u
  | batchSetChannelTag ids tag => exact indexed_batchSetChannelTag h hop

/-- Along runs of such calls the index is right. -/
theorem indexed_run {ops : List Op} (hops : Along (Op.step decodeArray) Op.KeepsIndex DB.empty ops) :
    Indexed (run (Op.step decodeArray) DB.empty ops) :=
  run_keeps_along (I := Indexed) (fun _ _ h hop => Op.indexed_step h hop) indexed_empty hops

/-- **Every run whose calls do not leave the abilities behind keeps them faithful**, in every state
it reaches. -/
theorem abilities_faithful (decodeArray : String → Option (List String)) (ops : List Op)
    (hops : Along (Op.step decodeArray) Op.KeepsIndex DB.empty ops) (n : Nat) :
    Faithful (run (Op.step decodeArray) DB.empty (ops.take n)) := by
  rw [← take_append_drop n ops] at hops
  exact (indexed_run (along_append.mp hops).1).faithful

/-- Two channels of a tag, one of which is disabled and enabled again. -/
def taggedRun : List Op :=
  [.insert { models := "gpt-4,gpt-4o", group := "default,vip", tag := some "a" },
    .insert { models := "gpt-4", weight := some 3, tag := some "a" },
    .disableChannelByTag "a",
    .updateChannelStatus { channelId := 2, status := 1 },
    .editChannelByTag "a" { newTag := some "b", priority := some 7 },
    .editChannelByTag "b" { models := some "o3" },
    .delete 1]

/-- No key is a JSON array. -/
def decodeNothing (_ : String) : Option (List String) := none

theorem abilities_faithful_tagged : Faithful (run (Op.step decodeNothing) DB.empty (taggedRun.take 7)) :=
  abilities_faithful decodeNothing taggedRun (by decide) 7

/-- Deleting the disabled channels leaves their rows behind. -/
theorem abilities_not_faithful :
    ¬ ∀ (decodeArray : String → Option (List String)) (ops : List Op),
      Faithful (run (Op.step decodeArray) DB.empty ops) := by
  intro h
  have hfaithful := h decodeNothing
    [.insert { models := "gpt-4", status := channelStatusManuallyDisabled }, .deleteDisabledChannel]
  have hchannels : (run (Op.step decodeNothing) DB.empty
      [.insert { models := "gpt-4", status := channelStatusManuallyDisabled },
        .deleteDisabledChannel]).channels = [] := by decide
  obtain ⟨c, hc, -⟩ := (hfaithful.rows ⟨"default", "gpt-4", 1, false, some 0, 0, none⟩).mp (by decide)
  cases hc

end Prox.Routing
