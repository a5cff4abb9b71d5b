import Prox.Routing.Cache

/-! # What the cache lists

`InitChannelCache` completes when the groups of the enabled channels are groups of abilities, and it
then lists every enabled channel, and no other, under each of its groups and models. -/

namespace Prox.Routing

open List Option

variable {m m' : ModelIndex} {entries : List (String × String × Int)} {group model : String}
  {db : DB} {cache cache' : Cache} {id : Int} {c : Channel}

/-! ## Appending -/

/-- An append goes to one list and needs its inner map. -/
theorem push_eq_some {entry : String × String × Int} (h : m.push entry = some m') :
    (∀ g, (m' g).isSome = (m g).isSome) ∧
      ∀ g model, m'.listed g model
        = m.listed g model ++ if entry.1 = g ∧ entry.2.1 = model then [entry.2.2] else [] := by
  obtain ⟨g₀, model₀, id₀⟩ := entry
  obtain ⟨models, hmodels, rfl⟩ := map_eq_some_iff.mp h
  constructor
  · intro g
    by_cases hg : g = g₀
    · subst hg
      rw [Function.update_self, hmodels]
      rfl
    · rw [Function.update_of_ne hg]
  · intro g model
    unfold ModelIndex.listed
    by_cases hg : g₀ = g
    · subst hg
      rw [hmodels]
      by_cases hmodel : model₀ = model
      · subst hmodel
        simp
      · simp [hmodel, Function.update_of_ne (Ne.symm hmodel)]
    · rw [Function.update_of_ne (Ne.symm hg)]
      simp [hg]

/-- The appends complete exactly when the groups have their maps. -/
theorem isSome_foldlM_push :
    (entries.foldlM ModelIndex.push m).isSome = true ↔ ∀ e ∈ entries, (m e.1).isSome = true := by
  induction entries generalizing m with
  | nil => simp
  | cons e entries ih =>
    rw [List.foldlM_cons, forall_mem_cons]
    cases hpush : m.push e with
    | none =>
      have hnone : m e.1 = none := map_eq_none_iff.mp hpush
      simp [hnone]
    | some m₁ =>
      obtain ⟨hsome, -⟩ := push_eq_some hpush
      have hgroup : (m e.1).isSome = true := by
        obtain ⟨models, hmodels, -⟩ := map_eq_some_iff.mp hpush
        rw [hmodels]
        rfl
      show (entries.foldlM ModelIndex.push m₁).isSome = true ↔ _
      rw [ih, and_iff_right hgroup]
      simp [hsome]

/-- The lists after the appends. -/
theorem listed_foldlM_push (h : entries.foldlM ModelIndex.push m = some m') (group model : String) :
    m'.listed group model = m.listed group model
      ++ (entries.filter fun e => e.1 = group ∧ e.2.1 = model).map fun e => e.2.2 := by
  induction entries generalizing m with
  | nil =>
    cases h
    exact (append_nil _).symm
  | cons e entries ih =>
    obtain ⟨m₁, hpush, hrest⟩ := bind_eq_some_iff.mp h
    rw [ih hrest, (push_eq_some hpush).2]
    by_cases he : e.1 = group ∧ e.2.1 = model <;> simp [he]

theorem listed_sorted (m : ModelIndex) (priority : Int → Int) (group model : String) :
    ((m.sorted priority).listed group model).Perm (m.listed group model) := by
  unfold ModelIndex.listed ModelIndex.sorted
  cases m group with
  | none => exact List.Perm.refl _
  | some models => exact perm_insertionSort _ _

/-! ## The built cache -/

theorem mem_cacheEntries {entry : String × String × Int} :
    entry ∈ cacheEntries db ↔ ∃ c ∈ db.channels, c.status = channelStatusEnabled ∧
      entry.1 ∈ c.groupList ∧ entry.2.1 ∈ c.modelList ∧ c.id = entry.2.2 := by
  obtain ⟨group, model, id⟩ := entry
  simp only [cacheEntries, enabledChannels, Channel.cacheEntries, mem_flatMap, mem_filter,
    List.mem_map, decide_eq_true_iff, Prod.mk.injEq]
  constructor
  · rintro ⟨c, ⟨hc, henabled⟩, g, hg, m, hm, rfl, rfl, rfl⟩
    exact ⟨c, hc, henabled, hg, hm, rfl⟩
  · rintro ⟨c, hc, henabled, hg, hm, rfl⟩
    exact ⟨c, ⟨hc, henabled⟩, group, hg, model, hm, rfl, rfl, rfl⟩

/-- **When `InitChannelCache` completes**: every group of an enabled channel is a group of an
ability. -/
theorem initChannelCache_isSome_iff :
    (initChannelCache db cache).isSome = true ↔
      ∀ c ∈ db.channels, c.status = channelStatusEnabled →
        ∀ group ∈ c.groupList, ∃ a ∈ db.abilities, a.group = group := by
  have hmaps : ∀ group, (groupMaps db group).isSome = true ↔ ∃ a ∈ db.abilities, a.group = group := by
    intro group
    unfold groupMaps
    split
    · next hmem => simpa using hmem
    · next hmem => simpa using hmem
  rw [initChannelCache, isSome_map, isSome_foldlM_push]
  simp only [hmaps]
  constructor
  · intro h c hc henabled group hgroup
    obtain ⟨model, hmodel⟩ := exists_mem_of_ne_nil _ (splitOn_ne_nil ',' c.models)
    exact h (group, model, c.id) (mem_cacheEntries.mpr ⟨c, hc, henabled, hgroup, hmodel, rfl⟩)
  · intro h e he
    obtain ⟨c, hc, henabled, hgroup, -, -⟩ := mem_cacheEntries.mp he
    exact h c hc henabled _ hgroup

section

variable (h : initChannelCache db cache = some cache')

include h

/-- What a completed build holds. -/
theorem initChannelCache_eq_some :
    (∀ id, cache'.channelsIDM id = (channelById db id).map (keepPollingIndex (cache.channelsIDM id))) ∧
      ∀ group model, (cache'.listed group model).Perm
        (((cacheEntries db).filter fun e => e.1 = group ∧ e.2.1 = model).map fun e => e.2.2) := by
  obtain ⟨m, hm, rfl⟩ := map_eq_some_iff.mp h
  refine ⟨fun _ => rfl, fun group model => (listed_sorted m _ group model).trans ?_⟩
  rw [listed_foldlM_push hm]
  have hbase : (groupMaps db).listed group model = [] := by
    unfold ModelIndex.listed groupMaps
    split
    · rfl
    · next models hmodels =>
      split at hmodels
      · cases hmodels
        rfl
      · cases hmodels
  rw [hbase, nil_append]

/-- **What the cache lists**: the enabled channels with the group and the model. -/
theorem mem_listed_initChannelCache :
    id ∈ cache'.listed group model ↔ ∃ c ∈ db.channels, c.status = channelStatusEnabled ∧
      group ∈ c.groupList ∧ model ∈ c.modelList ∧ c.id = id := by
  rw [((initChannelCache_eq_some h).2 group model).mem_iff]
  simp only [List.mem_map, mem_filter, decide_eq_true_iff]
  constructor
  · rintro ⟨e, ⟨he, rfl, rfl⟩, rfl⟩
    exact mem_cacheEntries.mp he
  · rintro hc
    exact ⟨(group, model, id), ⟨mem_cacheEntries.mpr hc, rfl, rfl⟩, rfl⟩

/-- **A rebuild from channels without repeated entries lists every channel at most once.** -/
theorem count_listed_initChannelCache
    (hnodup : (cacheEntries db).Nodup) (id : Int) (group model : String) :
    (cache'.listed group model).count id ≤ 1 := by
  rw [((initChannelCache_eq_some h).2 group model).count_eq]
  refine nodup_iff_count_le_one.mp ?_ id
  refine List.Nodup.map_on ?_ (hnodup.filter _)
  intro e he e' he' hid
  obtain ⟨hgroup, hmodel⟩ := of_decide_eq_true (mem_filter.mp he).2
  obtain ⟨hgroup', hmodel'⟩ := of_decide_eq_true (mem_filter.mp he').2
  exact Prod.ext (hgroup.trans hgroup'.symm) (Prod.ext (hmodel.trans hmodel'.symm) hid)

end

/-- With distinct identifiers the map of a build finds the channel. -/
theorem channelById_eq_some (hids : (db.channels.map Channel.id).Nodup) :
    channelById db id = some c ↔ c ∈ db.channels ∧ c.id = id := by
  unfold channelById
  constructor
  · intro h
    exact ⟨mem_reverse.mp (List.mem_of_find?_eq_some h), by simpa using List.find?_some h⟩
  · rintro ⟨hc, rfl⟩
    cases hfind : db.channels.reverse.find? fun row => row.id = c.id with
    | none => exact absurd (decide_eq_true rfl) (List.find?_eq_none.mp hfind c (mem_reverse.mpr hc))
    | some row =>
      have hrow : row.id = c.id := by simpa using List.find?_some hfind
      have hmem := mem_reverse.mp (List.mem_of_find?_eq_some hfind)
      rw [inj_on_of_nodup_map hids hmem hc hrow]

/-- Keeping the polling index changes nothing that a selection reads. -/
theorem keepPollingIndex_same (old : Option Channel) (c : Channel) :
    keepPollingIndex old c = { c with channelInfo := (keepPollingIndex old c).channelInfo } := by
  unfold keepPollingIndex
  repeat' split
  all_goals rfl

end Prox.Routing
