import Prox.Routing.Channels

/-! # The abilities table as an index

When the abilities table says of every channel what the channels table says. Every operation writes
some channel rows and then mends the abilities, so the invariant is kept for the owners that have not
been written (`IndexedOn P`), and each statement on the abilities gives owners back. -/

namespace Prox.Routing

open Channel List

/-! ## What the index holds -/

/-- The ability is the row of the channel for one of its groups and one of its models. -/
def Ability.Describes (a : Ability) (c : Channel) : Prop :=
  a.group ∈ c.groupList ∧ a.model ∈ c.modelList ∧ a.channelId = c.id ∧
    a.enabled = decide (c.status = channelStatusEnabled) ∧ a.priority = c.priority ∧
      some a.weight = c.weight ∧ a.tag = c.tag
  deriving Decidable

/-- **The abilities table is a faithful index of the channels table**: one row for each channel,
group and model, with the channel's own status, priority, weight and tag. -/
structure Faithful (db : DB) : Prop where
  /-- The rows are those of the channels. -/
  rows : ∀ a, a ∈ db.abilities ↔ ∃ c ∈ db.channels, a.Describes c
  /-- There is one row for each key. -/
  one : (db.abilities.map Ability.key).Nodup

/-- Abilities as rows derived from channels. -/
def index : Derivation Channel Ability Int where
  id := Channel.id
  owner := Ability.channelId
  Derives := Ability.Describes
  owner_eq := fun _ _ h => h.2.2.1

/-! ## The rows that are written -/

/-- The columns with a default are set. -/
def Channel.Filled (c : Channel) : Prop := c.priority ≠ none ∧ c.weight ≠ none

/-- The loops' set takes no two pairs for one. -/
def Channel.DistinctKeys (c : Channel) : Prop :=
  ∀ e ∈ c.entries, ∀ e' ∈ c.entries, entryKey e = entryKey e' → e = e'
  deriving Decidable

variable {c c' : Channel}

theorem Channel.mem_entries {e : String × String} :
    e ∈ c.entries ↔ e.1 ∈ c.groupList ∧ e.2 ∈ c.modelList := by
  obtain ⟨group, model⟩ := e
  simp only [entries, mem_flatMap, mem_map, Prod.mk.injEq]
  constructor
  · rintro ⟨m, hm, g, hg, rfl, rfl⟩
    exact ⟨hg, hm⟩
  · rintro ⟨hg, hm⟩
    exact ⟨model, hm, group, hg, rfl, rfl⟩

/-- The pairs depend on the two lists only. -/
theorem Channel.entries_congr (hmodels : c.models = c'.models) (hgroup : c.group = c'.group) :
    c.entries = c'.entries := by
  unfold entries modelList groupList
  rw [hmodels, hgroup]

theorem Channel.DistinctKeys.congr (h : c.DistinctKeys) (hmodels : c'.models = c.models)
    (hgroup : c'.group = c.group) : c'.DistinctKeys := by
  unfold DistinctKeys
  rw [entries_congr hmodels hgroup]
  exact h

/-- The conversion to `int` and back changes no weight. -/
theorem ofInt_wrapInt64 (w : UInt64) : UInt64.ofInt (wrapInt64 w.toNat) = w := by
  have hlt := w.toNat_lt
  have hmod : wrapInt64 w.toNat % 2 ^ 64 = w.toNat := by
    rw [wrapInt64, Int.bmod_def]
    split <;> omega
  rw [UInt64.ofInt, hmod, Int.toNat_natCast, UInt64.ofNat_toNat]

theorem Channel.ability_weight {w : UInt64} (hw : c.weight = some w) (group model : String) :
    (c.ability group model).weight = w := by
  show UInt64.ofInt c.getWeight = w
  rw [getWeight, hw]
  exact ofInt_wrapInt64 w

/-- Filling in defaults changes nothing of a filled channel's rows. -/
theorem Channel.Filled.ability_withDefaults (h : c.Filled) (group model : String) :
    (c.ability group model).withDefaults = c.ability group model := by
  obtain ⟨p, hp⟩ := Option.ne_none_iff_exists'.mp h.1
  simp [Ability.withDefaults, ability, hp]

variable {a : Ability}

/-- A filled channel is described by the rows of its pairs. -/
theorem Channel.Filled.describes_iff (h : c.Filled) :
    a.Describes c ↔ ∃ e ∈ c.entries, a = c.ability e.1 e.2 := by
  obtain ⟨w, hw⟩ := Option.ne_none_iff_exists'.mp h.2
  constructor
  · rintro ⟨hgroup, hmodel, hid, henabled, hpriority, hweight, htag⟩
    refine ⟨(a.group, a.model), mem_entries.mpr ⟨hgroup, hmodel⟩, ?_⟩
    have hwa := ability_weight hw a.group a.model
    obtain ⟨group, model, id, enabled, priority, weight, tag⟩ := a
    simp_all [ability]
  · rintro ⟨e, he, rfl⟩
    obtain ⟨hgroup, hmodel⟩ := mem_entries.mp he
    refine ⟨hgroup, hmodel, rfl, rfl, rfl, ?_, rfl⟩
    rw [ability_weight hw, hw]

/-- What the loops collect: the rows of the pairs whose keys have not been seen. -/
theorem Channel.mem_collect {seen : List String} {entries : List (String × String)}
    (hkeys : ∀ e ∈ entries, ∀ e' ∈ entries, entryKey e = entryKey e' → e = e') :
    a ∈ c.collect seen entries ↔ ∃ e ∈ entries, entryKey e ∉ seen ∧ a = c.ability e.1 e.2 := by
  induction entries generalizing seen with
  | nil => simp [collect]
  | cons e rest ih =>
    have hcollect : ∀ seen : List String, a ∈ c.collect seen rest ↔
        ∃ e ∈ rest, entryKey e ∉ seen ∧ a = c.ability e.1 e.2 := fun _ =>
      ih fun x hx y hy => hkeys x (mem_cons_of_mem _ hx) y (mem_cons_of_mem _ hy)
    rw [collect]
    split
    · next hseen =>
      rw [hcollect, exists_mem_cons_iff]
      exact (or_iff_right fun h => h.1 hseen).symm
    · next hnew =>
      rw [mem_cons, hcollect, exists_mem_cons_iff]
      constructor
      · rintro (rfl | ⟨e', he', hkey, rfl⟩)
        · exact .inl ⟨hnew, rfl⟩
        · exact .inr ⟨e', he', fun h => hkey (mem_cons_of_mem _ h), rfl⟩
      · rintro (⟨-, rfl⟩ | ⟨e', he', hkey, rfl⟩)
        · exact .inl rfl
        · -- a later pair with the key just seen is the same pair again
          by_cases h : entryKey e' = entryKey e
          · exact .inl (by rw [hkeys e' (mem_cons_of_mem _ he') e mem_cons_self h])
          · exact .inr ⟨e', he', by simp [h, hkey], rfl⟩

/-- The rows written for a channel are those that describe it. -/
theorem Channel.mem_abilities (hf : c.Filled) (hd : c.DistinctKeys) :
    a ∈ c.abilities.map Ability.withDefaults ↔ a.Describes c := by
  rw [hf.describes_iff, mem_map]
  constructor
  · rintro ⟨a, ha, rfl⟩
    obtain ⟨e, he, -, rfl⟩ := (mem_collect hd).mp ha
    exact ⟨e, he, hf.ability_withDefaults _ _⟩
  · rintro ⟨e, he, rfl⟩
    exact ⟨_, (mem_collect hd).mpr ⟨e, he, not_mem_nil, rfl⟩,
      hf.ability_withDefaults _ _⟩

/-- The primary key of a row that describes a channel determines the row. -/
theorem Ability.Describes.eq_of_key {b : Ability} (ha : a.Describes c) (hb : b.Describes c)
    (hkey : a.key = b.key) : a = b := by
  obtain ⟨-, -, -, he, hp, hw, ht⟩ := ha
  obtain ⟨-, -, -, he', hp', hw', ht'⟩ := hb
  simp only [Ability.key, Prod.mk.injEq] at hkey
  rw [← hw', Option.some.injEq] at hw
  cases a; cases b
  simp_all

/-! ## Statements on the abilities -/

/-- Several insertions are one. -/
theorem foldl_insertAbilities (pieces : List (List Ability)) (table : List Ability) :
    pieces.foldl insertAbilities table = insertAbilities table pieces.flatten := by
  induction pieces generalizing table with
  | nil => rfl
  | cons piece pieces ih =>
    rw [foldl_cons, ih]
    simp [insertAbilities, insertAll_append]

theorem abilities_addAbilitiesTx (c : Channel) (db : DB) :
    (c.addAbilitiesTx db).abilities = insertAbilities db.abilities c.abilities := by
  show (chunks 50 c.abilities).foldl insertAbilities db.abilities = _
  rw [foldl_insertAbilities, flatten_chunks (by decide)]

/-- A channel without rows gets the rows that describe it. -/
theorem mem_addAbilitiesTx (hf : c.Filled) (hd : c.DistinctKeys) {db : DB}
    (hnone : ∀ a ∈ db.abilities, a.channelId ≠ c.id) :
    a ∈ (c.addAbilitiesTx db).abilities ↔ a ∈ db.abilities ∨ a.Describes c := by
  rw [abilities_addAbilitiesTx, insertAbilities, mem_insertAll, mem_abilities hf hd]
  intro x hx y hy hkey
  rw [mem_abilities hf hd] at hx hy
  rcases hy with hy | hy
  · exact absurd ((Prod.ext_iff.mp (Prod.ext_iff.mp hkey).2).2.trans hx.2.2.1) (hnone y hy)
  · exact hy.eq_of_key hx hkey

/-- Without faults the insertion in chunks is the one of a transaction. -/
theorem addChunks_noFaults (n : Nat) (pieces : List (List Ability)) (db : DB) :
    addChunks noFaults n pieces db
      = (.ok (), { db with abilities := pieces.foldl insertAbilities db.abilities }) := by
  induction pieces generalizing n db with
  | nil => rfl
  | cons piece pieces ih =>
    rw [addChunks, ih]
    rfl

theorem addAbilities_noFaults (c : Channel) (db : DB) :
    c.addAbilities noFaults db = (.ok (), c.addAbilitiesTx db) :=
  addChunks_noFaults 0 _ db

/-! ## The invariant -/

/-- The two tables while some channel rows have been written and the abilities have not followed
yet: the index is right for the owners in `P`. -/
structure IndexedOn (P : Int → Prop) (db : DB) : Prop where
  /-- Channel identifiers are distinct. -/
  ids : (db.channels.map Channel.id).Nodup
  /-- No channel has the identifier that stands for a missing one. -/
  ids_ne_zero : ∀ c ∈ db.channels, c.id ≠ 0
  /-- The auto-increment column counts up from zero. -/
  lastId : 0 ≤ db.lastId
  /-- The columns with a default are set. -/
  filled : ∀ c ∈ db.channels, c.Filled
  /-- No two pairs of a channel are taken for one. -/
  distinct : ∀ c ∈ db.channels, c.DistinctKeys
  /-- The rows of the owners in `P` are right. -/
  mirrors : index.MirrorsOn P db.channels db.abilities
  /-- There is one row for each key. -/
  one : (db.abilities.map Ability.key).Nodup

/-- Every owner's rows are right. -/
abbrev Indexed (db : DB) : Prop := IndexedOn (fun _ => True) db

namespace IndexedOn

variable {P Q : Int → Prop} {db : DB}

theorem faithful (h : Indexed db) : Faithful db :=
  ⟨h.mirrors.mirrors fun _ => trivial, h.one⟩

variable (h : IndexedOn P db)

include h

theorem mono (hQ : ∀ k, Q k → P k) : IndexedOn Q db :=
  { h with mirrors := h.mirrors.mono hQ }

/-- A channel is determined by its identifier. -/
theorem eq_of_id (hc : c ∈ db.channels) (hc' : c' ∈ db.channels)
    (hid : c.id = c'.id) : c = c' :=
  inj_on_of_nodup_map h.ids hc hc' hid

/-- The row that `First` finds. -/
theorem find?_id (hc : c ∈ db.channels) :
    db.channels.find? (fun row => row.id = c.id) = some c := by
  cases hfind : db.channels.find? (fun row => row.id = c.id) with
  | none => exact absurd (decide_eq_true rfl) (List.find?_eq_none.mp hfind c hc)
  | some row =>
    have hrow : row.id = c.id := by simpa using List.find?_some hfind
    rw [h.eq_of_id (List.mem_of_find?_eq_some hfind) hc hrow]

/-- Writing channel rows in place takes away the owners that were written. -/
theorem mapChannels {f : Channel → Channel} (hid : ∀ c, (f c).id = c.id)
    (hfilled : ∀ c ∈ db.channels, (f c).Filled) (hdistinct : ∀ c ∈ db.channels, (f c).DistinctKeys)
    (hQ : ∀ k, Q k → P k ∧ ∀ c ∈ db.channels, c.id = k → f c = c) :
    IndexedOn Q { db with channels := db.channels.map f } where
  ids := by
    rw [map_map, show Channel.id ∘ f = Channel.id from funext hid]
    exact h.ids
  ids_ne_zero := by
    intro c hc
    obtain ⟨b, hb, rfl⟩ := mem_map.mp hc
    rw [hid]
    exact h.ids_ne_zero b hb
  lastId := h.lastId
  filled := by
    intro c hc
    obtain ⟨b, hb, rfl⟩ := mem_map.mp hc
    exact hfilled b hb
  distinct := by
    intro c hc
    obtain ⟨b, hb, rfl⟩ := mem_map.mp hc
    exact hdistinct b hb
  mirrors := by
    refine (h.mirrors.mono fun k hk => (hQ k hk).1).base_change fun b hb => ?_
    have hkeep := (hQ _ hb).2
    constructor
    · intro hmem
      obtain ⟨c, hc, rfl⟩ := mem_map.mp hmem
      rw [hkeep c hc (hid c).symm]
      exact hc
    · intro hmem
      exact mem_map.mpr ⟨b, hmem, hkeep b hmem rfl⟩
  one := h.one

/-- `AddAbilities` for a channel without rows gives the channel back. -/
theorem addAbilitiesTx (hc : c ∈ db.channels)
    (hnone : ∀ a ∈ db.abilities, a.channelId ≠ c.id) :
    IndexedOn (fun k => P k ∨ k = c.id) (c.addAbilitiesTx db) :=
  { h with
    mirrors := by
      refine h.mirrors.rebuild hc (fun c' hc' => h.eq_of_id hc' hc) fun a => ?_
      rw [mem_addAbilitiesTx (h.filled c hc) (h.distinct c hc) hnone]
      exact or_congr_left (and_iff_left_of_imp (hnone a)).symm
    one := by
      rw [abilities_addAbilitiesTx]
      exact nodup_insertAll h.one }

/-- `UpdateAbilities` gives a channel back. -/
theorem updateAbilitiesTx (hc : c ∈ db.channels) :
    IndexedOn (fun k => P k ∨ k = c.id) (c.updateAbilitiesTx db) := by
  have hdeleted : IndexedOn (fun k => P k ∧ k ≠ c.id)
      { db with abilities := db.abilities.filter fun a => a.channelId ≠ c.id } :=
    { h with
      mirrors := by
        rintro a ⟨ha, hne⟩
        rw [mem_filter, h.mirrors a ha]
        exact and_iff_left (decide_eq_true hne)
      one := h.one.sublist (filter_sublist.map _) }
  refine (hdeleted.addAbilitiesTx hc fun a ha => ?_).mono fun k hk => ?_
  · simpa using (mem_filter.mp ha).2
  · by_cases hkc : k = c.id
    · exact .inr hkc
    · exact .inl ⟨hk.resolve_right hkc, hkc⟩

/-- `UpdateAbilities` for several channels gives them all back. -/
theorem foldl_updateAbilitiesTx (cs : List Channel)
    (hcs : ∀ c ∈ cs, c ∈ db.channels) :
    IndexedOn (fun k => P k ∨ ∃ c ∈ cs, k = c.id)
      (cs.foldl (fun db c => c.updateAbilitiesTx db) db) := by
  induction cs generalizing P db with
  | nil => simpa using h
  | cons c cs ih =>
    obtain ⟨hc, hrest⟩ := forall_mem_cons.mp hcs
    refine (ih (h.updateAbilitiesTx hc) hrest).mono fun k hk => ?_
    rwa [exists_mem_cons_iff, ← or_assoc] at hk

end IndexedOn

end Prox.Routing
