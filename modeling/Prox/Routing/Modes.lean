import Prox.Routing.Selection
import Prox.Routing.Faithful

/-! # Selection with and without the memory cache

The two selection paths side by side: from a freshly built cache, and from tables whose abilities agree
with the channels. They go through the same priority levels and can return the same channels of each,
with one difference: only the cache falls back to the normalized model name when nothing lists the
model itself. -/

namespace Prox.Routing

open Channel List

/-! ## Tables that agree -/

/-- The abilities are the rows of the channels, one for each key. -/
structure Agrees (db : DB) : Prop where
  /-- The rows are those that `AddAbilities` writes. -/
  rows : ∀ a, a ∈ db.abilities ↔
    ∃ c ∈ db.channels, ∃ group ∈ c.groupList, ∃ model ∈ c.modelList, a = c.ability group model
  /-- There is one row for each key. -/
  one : (db.abilities.map Ability.key).Nodup

/-- An enabled channel with the group and the model in its lists. -/
def Channel.Offers (c : Channel) (group model : String) : Prop :=
  c.status = channelStatusEnabled ∧ group ∈ c.groupList ∧ model ∈ c.modelList
  deriving Decidable

theorem Faithful.agrees {db : DB} (h : Faithful db) (hfilled : ∀ c ∈ db.channels, c.Filled) :
    Agrees db where
  rows a := by
    rw [h.rows]
    refine exists_congr fun c => and_congr_right fun hc => ?_
    rw [(hfilled c hc).describes_iff]
    constructor
    · rintro ⟨e, he, rfl⟩
      obtain ⟨hgroup, hmodel⟩ := mem_entries.mp he
      exact ⟨e.1, hgroup, e.2, hmodel, rfl⟩
    · rintro ⟨group, hgroup, model, hmodel, rfl⟩
      exact ⟨(group, model), mem_entries.mpr ⟨hgroup, hmodel⟩, rfl⟩
  one := h.one

variable {tables : Tables} {cache old : Cache} {group model name : String} {excluded : List Int}
  {p retry : Int} {health : Health} {random : RandomSource}

/-! ## The levels of the cache -/

/-- The channels of a level: those that offer the name, are not excluded and have the priority. -/
def AtLevel (db : DB) (group name : String) (excluded : List Int) (p : Int) (c : Channel) : Prop :=
  c ∈ db.channels ∧ c.Offers group name ∧ c.id ∉ excluded ∧ c.getPriority = p

/-- The priorities of the channels that offer the name. -/
def HasPriority (db : DB) (group name : String) (p : Int) : Prop :=
  ∃ c ∈ db.channels, c.Offers group name ∧ c.getPriority = p

/-- The name whose list a selection from the cache reads. -/
def Cache.resolvedName (cache : Cache) (group model : String) : String :=
  if cache.listed group model = [] then formatMatchingModelName model else model

theorem candidates_eq_listed (cache : Cache) (group model : String) :
    cache.candidates group model = cache.listed group (cache.resolvedName group model) := by
  unfold Cache.candidates Cache.resolvedName
  split <;> rfl

section

variable (hinit : initChannelCache tables.db old = some cache)

include hinit

/-- A listed channel of a fresh cache, with the row it was read from. -/
theorem channelsIDM_of_listed {c : Channel}
    (hc : c ∈ tables.db.channels) :
    ∃ c', cache.channelsIDM c.id = some c' ∧ c'.view = c.view ∧ c'.getPriority = c.getPriority := by
  refine ⟨keepPollingIndex (old.channelsIDM c.id) c, ?_, ?_, ?_⟩
  · rw [(initChannelCache_eq_some hinit).1, (channelById_eq_some tables.ids).mpr ⟨hc, rfl⟩]
    rfl
  · rw [keepPollingIndex_same]
    rfl
  · rw [keepPollingIndex_same]
    rfl

theorem mem_candidates {id : Int} :
    id ∈ cache.candidates group model ↔
      ∃ c ∈ tables.db.channels, c.Offers group (cache.resolvedName group model) ∧ c.id = id := by
  rw [candidates_eq_listed, mem_listed_initChannelCache hinit]
  simp [Offers, and_assoc]

/-- **The views of a level of the cache.** -/
theorem view_cachedLevel (v : Int × Int) :
    v ∈ ((cache.openChannels group model excluded).filter fun c => c.getPriority = p).map view ↔
      ∃ c, AtLevel tables.db group (cache.resolvedName group model) excluded p c ∧ c.view = v := by
  have hlists := listsEnabled_init hinit
  rw [mem_map]
  constructor
  · rintro ⟨c', hc', rfl⟩
    obtain ⟨hopen, hp⟩ := mem_filter.mp hc'
    obtain ⟨hmem, hex, hfound⟩ := (mem_openChannels hlists).mp hopen
    obtain ⟨c, hc, hoffers, hid⟩ := (mem_candidates hinit).mp hmem
    obtain ⟨c'', hfound', hview, hprio⟩ := channelsIDM_of_listed hinit hc
    rw [hid, hfound, Option.some.injEq] at hfound'
    subst hfound'
    exact ⟨c, ⟨hc, hoffers, hid ▸ hex, hprio ▸ of_decide_eq_true hp⟩, hview.symm⟩
  · rintro ⟨c, ⟨hc, hoffers, hex, hp⟩, rfl⟩
    obtain ⟨c', hfound, hview, hprio⟩ := channelsIDM_of_listed hinit hc
    have hid : c'.id = c.id := congrArg Prod.fst hview
    refine ⟨c', mem_filter.mpr ⟨(mem_openChannels hlists).mpr ⟨?_, ?_, ?_⟩, ?_⟩, hview⟩
    · rw [hid]
      exact (mem_candidates hinit).mpr ⟨c, hc, hoffers, rfl⟩
    · rwa [hid]
    · rw [hid, hfound]
    · exact decide_eq_true (hprio.trans hp)

theorem mem_cachedPriorities :
    p ∈ cache.priorities group model ↔
      HasPriority tables.db group (cache.resolvedName group model) p := by
  rw [mem_priorities]
  constructor
  · rintro ⟨id, hid, c', hfound, hp⟩
    obtain ⟨c, hc, hoffers, rfl⟩ := (mem_candidates hinit).mp hid
    obtain ⟨c'', hfound', -, hprio⟩ := channelsIDM_of_listed hinit hc
    rw [hfound, Option.some.injEq] at hfound'
    subst hfound'
    exact ⟨c, hc, hoffers, hprio.symm.trans hp⟩
  · rintro ⟨c, hc, hoffers, hp⟩
    obtain ⟨c', hfound, -, hprio⟩ := channelsIDM_of_listed hinit hc
    exact ⟨c.id, (mem_candidates hinit).mpr ⟨c, hc, hoffers, rfl⟩, c', hfound, hprio.trans hp⟩

end

/-! ## The levels of the tables -/

/-- The rows of the first query are those of the channels that offer the model. -/
theorem mem_selectAbilities (hagrees : Agrees tables.db) {a : Ability} :
    a ∈ selectAbilities tables.db group model ↔
      ∃ c ∈ tables.db.channels, c.Offers group model ∧ a = c.ability group model := by
  unfold selectAbilities
  rw [(perm_insertionSort _ _).mem_iff, mem_filter, decide_eq_true_iff, hagrees.rows]
  constructor
  · rintro ⟨⟨c, hc, g, hg, m, hm, rfl⟩, rfl, rfl, henabled⟩
    exact ⟨c, hc, ⟨of_decide_eq_true henabled, hg, hm⟩, rfl⟩
  · rintro ⟨c, hc, ⟨henabled, hg, hm⟩, rfl⟩
    exact ⟨⟨c, hc, group, hg, model, hm, rfl⟩, rfl, rfl, decide_eq_true henabled⟩

theorem mem_storedPriorities (hagrees : Agrees tables.db) :
    p ∈ firstOccurrences ((selectAbilities tables.db group model).map Ability.getPriority) ↔
      HasPriority tables.db group model p := by
  rw [mem_firstOccurrences, mem_map]
  simp only [mem_selectAbilities hagrees]
  constructor
  · rintro ⟨a, ⟨c, hc, hoffers, rfl⟩, hp⟩
    exact ⟨c, hc, hoffers, hp⟩
  · rintro ⟨c, hc, hoffers, hp⟩
    exact ⟨_, ⟨c, hc, hoffers, rfl⟩, hp⟩

/-- The channels of the second query. -/
def storedChannels (db : DB) (group model : String) : List Channel :=
  db.channels.filter fun c =>
    c.id ∈ (selectAbilities db group model).map Ability.channelId ∧ c.status = channelStatusEnabled

/-- The weight an ability takes from a channel, read as the channel's own. -/
theorem wrapInt64_ability_weight (c : Channel) (group model : String) :
    wrapInt64 (c.ability group model).weight.toNat = c.getWeight := by
  cases hw : c.weight with
  | none =>
    have hzero : c.getWeight = 0 := by rw [getWeight, hw]
    have hability : (c.ability group model).weight = UInt64.ofInt c.getWeight := rfl
    rw [hability, hzero]
    decide
  | some w =>
    rw [ability_weight hw, getWeight, hw]

/-- A channel with the priority and the weight of its ability looks the same. -/
theorem view_withAbility (c : Channel) (group model : String) :
    view { c with
      priority := (c.ability group model).priority, weight := some (c.ability group model).weight }
      = c.view := by
  unfold view
  rw [← wrapInt64_ability_weight c group model]
  rfl

/-- **The views of a level of the tables.** -/
theorem view_storedLevel (hagrees : Agrees tables.db) (v : Int × Int) :
    v ∈ (storedLevel (storedChannels tables.db group model) (selectAbilities tables.db group model)
        excluded p).map view ↔
      ∃ c, AtLevel tables.db group model excluded p c ∧ c.view = v := by
  have hfind : ∀ c ∈ tables.db.channels, c.Offers group model →
      (storedChannels tables.db group model).find? (fun row => row.id = c.id) = some c := by
    intro c hc hoffers
    have hmem : c ∈ storedChannels tables.db group model :=
      mem_filter.mpr ⟨hc, decide_eq_true
        ⟨mem_map.mpr ⟨_, (mem_selectAbilities hagrees).mpr ⟨c, hc, hoffers, rfl⟩, rfl⟩, hoffers.1⟩⟩
    cases hrow : (storedChannels tables.db group model).find? fun row => row.id = c.id with
    | none => exact absurd (decide_eq_true rfl) (List.find?_eq_none.mp hrow c hmem)
    | some row =>
      have hrowmem := mem_of_mem_filter (List.mem_of_find?_eq_some hrow)
      have hrowid : row.id = c.id := by simpa using List.find?_some hrow
      rw [inj_on_of_nodup_map tables.ids hrowmem hc hrowid]
  unfold storedLevel
  simp only [mem_map, mem_filterMap, mem_selectAbilities hagrees]
  constructor
  · rintro ⟨c', ⟨a, ⟨c, hc, hoffers, rfl⟩, hc'⟩, rfl⟩
    split at hc'
    · cases hc'
    · next hopen =>
      rw [not_or, not_not] at hopen
      rw [show (c.ability group model).channelId = c.id from rfl, hfind c hc hoffers,
        Option.map_some, Option.some.injEq] at hc'
      subst hc'
      exact ⟨c, ⟨hc, hoffers, hopen.2, hopen.1⟩, (view_withAbility c group model).symm⟩
  · rintro ⟨c, ⟨hc, hoffers, hex, hp⟩, rfl⟩
    refine ⟨_, ⟨_, ⟨c, hc, hoffers, rfl⟩, ?_⟩, view_withAbility c group model⟩
    rw [if_neg (by
      rw [not_or, not_not]
      exact ⟨hp, hex⟩)]
    rw [show (c.ability group model).channelId = c.id from rfl, hfind c hc hoffers]
    rfl

/-! ## Weights that fit -/

/-- The weight of a view in the choice. -/
def viewWeight (v : Int × Int) : Int := if v.2 = 0 then 100 else v.2

/-- A level whose views are some of those of a level that fits, each once, fits as well. -/
theorem Fits.of_views {l l' : List Channel} (h : Fits l) (hnodup : (l'.map view).Nodup)
    (hsub : ∀ v ∈ l'.map view, v ∈ l.map view) : Fits l' where
  nonneg c hc := by
    obtain ⟨c', hc', hv⟩ := mem_map.mp (hsub _ (mem_map_of_mem hc))
    have := h.nonneg c' hc'
    rwa [show c'.getWeight = c.getWeight from congrArg Prod.snd hv] at this
  total := by
    refine lt_of_le_of_lt ?_ h.total
    have hweights : ∀ k : List Channel, k.map choiceWeight
        = (k.map view).map viewWeight := fun k => by
      rw [map_map]
      rfl
    obtain ⟨k, hperm, hsublist⟩ := subperm_of_subset hnodup hsub
    rw [hweights, hweights, ← (hperm.map viewWeight).sum_eq]
    refine (hsublist.map viewWeight).sum_le_sum fun x hx => ?_
    rw [← hweights] at hx
    obtain ⟨c, hc, rfl⟩ := mem_map.mp hx
    exact (h.choiceWeight_pos hc).le

variable (group model) in
/-- The rows of the first query belong to different channels. -/
theorem nodup_selectAbilities (hagrees : Agrees tables.db) :
    ((selectAbilities tables.db group model).map Ability.channelId).Nodup := by
  have hkeys : ((selectAbilities tables.db group model).map Ability.key).Nodup :=
    ((perm_insertionSort _ _).map Ability.key).nodup_iff.mpr
      (hagrees.one.sublist (filter_sublist.map _))
  refine List.Nodup.map_on (fun a ha b hb hid => ?_) hkeys.of_map
  obtain ⟨c, -, -, rfl⟩ := (mem_selectAbilities hagrees).mp ha
  obtain ⟨c', -, -, rfl⟩ := (mem_selectAbilities hagrees).mp hb
  refine inj_on_of_nodup_map hkeys ha hb ?_
  exact Prod.ext rfl (Prod.ext rfl hid)

/-- A level has at most one channel for each row. -/
theorem storedLevel_ids (channels : List Channel) (abilities : List Ability) (excluded : List Int)
    (p : Int) : ((storedLevel channels abilities excluded p).map Channel.id).Sublist
      (abilities.map Ability.channelId) := by
  unfold storedLevel
  induction abilities with
  | nil => exact List.Sublist.refl _
  | cons a abilities ih =>
    rw [filterMap_cons]
    split
    · exact ih.cons _
    · next c' hc' =>
      split at hc'
      · cases hc'
      · obtain ⟨c, hc, rfl⟩ := Option.map_eq_some_iff.mp hc'
        have hid : c.id = a.channelId := by simpa using List.find?_some hc
        rw [hid]
        exact ih.cons_cons _

/-- The levels of the tables fit when those of the cache do. -/
theorem fits_storedLevel (hagrees : Agrees tables.db)
    (hinit : initChannelCache tables.db old = some cache)
    (hfits : cache.WeightsFit group model excluded) (hname : cache.resolvedName group model = model)
    (p : Int) : Fits (storedLevel (storedChannels tables.db group model)
      (selectAbilities tables.db group model) excluded p) := by
  refine (hfits p).of_views ?_ fun v hv => ?_
  · have hids := (nodup_selectAbilities group model hagrees).sublist
      (storedLevel_ids (storedChannels tables.db group model) _ excluded p)
    rw [show Channel.id = Prod.fst ∘ view from rfl, ← map_map] at hids
    exact hids.of_map
  · rw [view_cachedLevel hinit, hname]
    exact (view_storedLevel hagrees v).mp hv

/-! ## The order of the priorities -/

/-- No row without a priority stands beside one of negative priority: `NULL` is sorted after every
number and then read as zero. -/
def PrioritiesOrdered (db : DB) (group model : String) : Prop :=
  ∀ c ∈ db.channels, c.Offers group model → c.priority = none →
    ∀ c' ∈ db.channels, c'.Offers group model → 0 ≤ c'.getPriority
  deriving Decidable

theorem descNullsLast_total (a b : Option Int) : descNullsLast a b = true ∨ descNullsLast b a = true := by
  cases a <;> cases b <;> simp [descNullsLast]
  omega

theorem descNullsLast_trans {a b c : Option Int} (hab : descNullsLast a b = true)
    (hbc : descNullsLast b c = true) : descNullsLast a c = true := by
  cases a <;> cases b <;> cases c <;> simp [descNullsLast] at hab hbc ⊢
  omega

theorem descNullsLast_antisymm {a b : Option Int} (hab : descNullsLast a b = true)
    (hba : descNullsLast b a = true) : a = b := by
  cases a <;> cases b <;> simp [descNullsLast] at hab hba ⊢
  omega

instance : Std.Total fun a b : Ability => a.before b = true where
  total a b := by
    unfold Ability.before
    by_cases h : a.priority = b.priority
    · rw [if_pos h, if_pos h.symm, decide_eq_true_iff, decide_eq_true_iff]
      exact UInt64.le_total _ _
    · rw [if_neg h, if_neg (Ne.symm h)]
      exact descNullsLast_total _ _

instance : IsTrans Ability fun a b => a.before b = true where
  trans a b c := by
    unfold Ability.before
    intro hab hbc
    by_cases h₁ : a.priority = b.priority
    · by_cases h₂ : b.priority = c.priority
      · rw [if_pos h₁, decide_eq_true_iff] at hab
        rw [if_pos h₂, decide_eq_true_iff] at hbc
        rw [if_pos (h₁.trans h₂), decide_eq_true_iff]
        exact UInt64.le_trans hbc hab
      · rw [if_neg h₂] at hbc
        rw [if_neg (h₁ ▸ h₂), h₁]
        exact hbc
    · rw [if_neg h₁] at hab
      by_cases h₂ : b.priority = c.priority
      · rw [if_neg (h₂ ▸ h₁), ← h₂]
        exact hab
      · rw [if_neg h₂] at hbc
        have hac := descNullsLast_trans hab hbc
        by_cases h₃ : a.priority = c.priority
        · rw [← h₃] at hbc
          exact absurd (descNullsLast_antisymm hab hbc) h₁
        · rwa [if_neg h₃]

/-- Sorted rows have descending priorities. -/
theorem pairwise_selectAbilities (hagrees : Agrees tables.db)
    (hordered : PrioritiesOrdered tables.db group model) :
    ((selectAbilities tables.db group model).map Ability.getPriority).Pairwise fun a b => b ≤ a := by
  have hsorted : (selectAbilities tables.db group model).Pairwise fun a b => a.before b = true :=
    pairwise_insertionSort _ _
  rw [pairwise_map]
  refine hsorted.imp_of_mem fun {a b} ha hb hab => ?_
  obtain ⟨c, hc, hoffers, rfl⟩ := (mem_selectAbilities hagrees).mp ha
  obtain ⟨c', hc', hoffers', rfl⟩ := (mem_selectAbilities hagrees).mp hb
  have hnull := hordered c' hc' hoffers'
  show c'.priority.getD 0 ≤ c.priority.getD 0
  change (if c.priority = c'.priority then _ else descNullsLast c.priority c'.priority) = true at hab
  by_cases heq : c.priority = c'.priority
  · rw [heq]
  · rw [if_neg heq] at hab
    cases hp' : c'.priority with
    | none => exact hnull hp' c hc hoffers
    | some q =>
      cases hp : c.priority with
      | none =>
        rw [hp, hp'] at hab
        cases hab
      | some r =>
        rw [hp, hp'] at hab
        exact of_decide_eq_true hab

/-- **Both paths go through the same priorities.** -/
theorem priorities_eq (hagrees : Agrees tables.db)
    (hinit : initChannelCache tables.db old = some cache)
    (hordered : PrioritiesOrdered tables.db group model)
    (hname : cache.resolvedName group model = model) :
    cache.priorities group model
      = firstOccurrences ((selectAbilities tables.db group model).map Ability.getPriority) := by
  have hsorted : (cache.priorities group model).Pairwise fun a b => b ≤ a :=
    pairwise_insertionSort _ _
  refine List.Perm.eq_of_pairwise (fun a b _ _ hab hba => le_antisymm hba hab) hsorted
    ((pairwise_selectAbilities hagrees hordered).sublist (firstOccurrences_sublist _)) ?_
  refine (perm_ext_iff_of_nodup ?_ (nodup_firstOccurrences _)).mpr fun p => ?_
  · exact (perm_insertionSort _ _).nodup_iff.mpr (nodup_firstOccurrences _)
  · rw [mem_cachedPriorities hinit, hname, mem_storedPriorities hagrees]

/-! ## The two paths -/

/-- The two paths select alike: they can return the same channels, and one returns none exactly when
the other does. -/
structure ModesAgree (health : Health) (cache : Cache) (db : DB) (group model : String) (retry : Int)
    (excluded : List Int) : Prop where
  /-- The cache path reports no inconsistency. -/
  ok : ∀ random, ∃ result,
    getRandomSatisfiedChannelWithExclusions health random cache group model retry excluded = .ok result
  /-- The channels that some draws return are the same. -/
  channels : ∀ id,
    (∃ random c, getRandomSatisfiedChannelWithExclusions health random cache group model retry excluded
        = .ok (some c) ∧ c.id = id) ↔
      ∃ random c, getChannelWithExclusions health random db group model retry excluded = some c ∧
        c.id = id
  /-- Whatever the draws, there is none in one mode exactly when there is none in the other. -/
  none : ∀ random random',
    getRandomSatisfiedChannelWithExclusions health random cache group model retry excluded
        = .ok none ↔
      getChannelWithExclusions health random' db group model retry excluded = none

/-- The first priority that is tried. -/
def startLevel (retry : Int) (excluded : List Int) : Nat :=
  if excluded ≠ [] then 0 else retry.toNat

theorem getChannelWithExclusions_eq (db : DB) :
    getChannelWithExclusions health random db group model retry excluded
      = selectByLevel health random
          (storedLevel (storedChannels db group model) (selectAbilities db group model) excluded)
          (startLevel retry excluded)
          ((firstOccurrences ((selectAbilities db group model).map Ability.getPriority)).drop
            (startLevel retry excluded)) := by
  have hstart : (if excluded = [] ∧ 0 < retry then retry.toNat else 0) = startLevel retry excluded := by
    unfold startLevel
    by_cases hex : excluded = []
    · rw [if_neg (not_not.mpr hex)]
      by_cases hpos : 0 < retry
      · rw [if_pos ⟨hex, hpos⟩]
      · rw [if_neg fun h => hpos h.2]
        omega
    · rw [if_neg fun h => hex h.1, if_pos hex]
  rw [← hstart]
  rfl

variable (health) in
/-- Two loops over the same priorities whose levels have the same views return channels with the same
identifiers. -/
theorem selectByLevel_congr {levels levels' : Int → List Channel} (hfits : ∀ p, Fits (levels p))
    (hfits' : ∀ p, Fits (levels' p))
    (hview : ∀ p v, v ∈ (levels p).map view ↔ v ∈ (levels' p).map view) (start : Nat)
    (priorities : List Int) :
    (∀ id, (∃ random c, selectByLevel health random levels start priorities = some c ∧ c.id = id) →
      ∃ random c, selectByLevel health random levels' start priorities = some c ∧ c.id = id) ∧
    ∀ random random', selectByLevel health random levels start priorities = none →
      selectByLevel health random' levels' start priorities = none := by
  have hempty : ∀ p, levels p ≠ [] ↔ levels' p ≠ [] := by
    intro p
    refine not_congr ?_
    rw [← map_eq_nil_iff (f := view), ← map_eq_nil_iff (f := view)]
    simp only [eq_nil_iff_forall_not_mem]
    exact forall_congr' fun v => not_congr (hview p v)
  have hfindeq : (priorities.find? fun p => levels p ≠ [])
      = priorities.find? fun p => levels' p ≠ [] :=
    congrArg (priorities.find? ·) (funext fun p => decide_eq_decide.mpr (hempty p))
  have hcases := fun random => selectByLevel_cases health random hfits start priorities
  have hcases' := fun random => selectByLevel_cases health random hfits' start priorities
  rw [hfindeq] at hcases
  cases hfind : priorities.find? fun p => levels' p ≠ [] with
  | none =>
    rw [hfind] at hcases hcases'
    refine ⟨?_, fun _ random' _ => hcases' random'⟩
    rintro id ⟨random, c, hc, -⟩
    rw [hcases random] at hc
    cases hc
  | some p =>
    rw [hfind] at hcases hcases'
    constructor
    · rintro id ⟨random, c, hc, hid⟩
      obtain ⟨c₁, hsel, hc₁⟩ := hcases random
      rw [hc, Option.some.injEq] at hc₁
      subst hc₁
      obtain ⟨c', hc', hid'⟩ := selectable_congr (hfits p) (hfits' p) (hview p) ⟨c, hsel, hid⟩
      obtain ⟨random', hreturned⟩ := selectByLevel_surjective hfits' start hfind hc'
      exact ⟨random', c', hreturned, hid'⟩
    · intro random _ hnone
      obtain ⟨c, -, hc⟩ := hcases random
      rw [hnone] at hc
      cases hc

/-- **When the cache lists the model itself, the two paths select alike.** -/
theorem modesAgree_of_listed (hagrees : Agrees tables.db)
    (hinit : initChannelCache tables.db old = some cache)
    (hfits : cache.WeightsFit group model excluded)
    (hordered : PrioritiesOrdered tables.db group model)
    (hlisted : cache.listed group model ≠ []) :
    ModesAgree health cache tables.db group model retry excluded := by
  have hname : cache.resolvedName group model = model := if_neg hlisted
  have hcached := fun random => (listsEnabled_init hinit).select_eq group model health random
    retry excluded
  rw [priorities_eq hagrees hinit hordered hname] at hcached
  have hview : ∀ p v, v ∈ ((cache.openChannels group model excluded).filter
      fun c => c.getPriority = p).map view ↔
        v ∈ (storedLevel (storedChannels tables.db group model) (selectAbilities tables.db group model)
          excluded p).map view := by
    intro p v
    rw [view_cachedLevel hinit, hname, view_storedLevel hagrees]
  have hfits' := fits_storedLevel hagrees hinit hfits hname
  obtain ⟨hto, hnoneto⟩ := selectByLevel_congr health hfits hfits' hview
    (startLevel retry excluded)
    ((firstOccurrences ((selectAbilities tables.db group model).map Ability.getPriority)).drop
      (startLevel retry excluded))
  obtain ⟨hfrom, hnonefrom⟩ := selectByLevel_congr health hfits' hfits
    (fun p v => (hview p v).symm) (startLevel retry excluded)
    ((firstOccurrences ((selectAbilities tables.db group model).map Ability.getPriority)).drop
      (startLevel retry excluded))
  refine ⟨fun random => ⟨_, hcached random⟩, fun id => ?_, fun random random' => ?_⟩
  · simp only [hcached, getChannelWithExclusions_eq, Except.ok.injEq]
    exact ⟨hto id, hfrom id⟩
  · rw [hcached, getChannelWithExclusions_eq, Except.ok.injEq]
    exact ⟨hnoneto random random', hnonefrom random' random⟩

/-! ## The fallback -/

/-- Nothing is selected for a name: all its channels are excluded, or the retries are used up. -/
def NothingLeft (db : DB) (group name : String) (retry : Int) (excluded : List Int) : Prop :=
  if excluded = [] then
    (firstOccurrences ((db.channels.filter (·.Offers group name)).map Channel.getPriority)).length
      ≤ retry.toNat
  else ∀ c ∈ db.channels, c.Offers group name → c.id ∈ excluded
  deriving Decidable

/-- The cache path returns none exactly when nothing is left for the name it resolves to. -/
theorem cached_none_iff (hinit : initChannelCache tables.db old = some cache)
    (hfits : cache.WeightsFit group model excluded) :
    getRandomSatisfiedChannelWithExclusions health random cache group model retry excluded = .ok none ↔
      NothingLeft tables.db group (cache.resolvedName group model) retry excluded := by
  have hlists := listsEnabled_init hinit
  rw [hlists.select_eq, Except.ok.injEq]
  have hcases := selectByLevel_cases health random hfits
    (startLevel retry excluded) ((cache.priorities group model).drop (startLevel retry excluded))
  change selectByLevel health random _ (startLevel retry excluded)
    ((cache.priorities group model).drop (startLevel retry excluded)) = none ↔ _
  have hnone : selectByLevel health random (fun p => (cache.openChannels group model excluded).filter
        fun c => c.getPriority = p) (startLevel retry excluded)
        ((cache.priorities group model).drop (startLevel retry excluded)) = none ↔
      ∀ p ∈ (cache.priorities group model).drop (startLevel retry excluded),
        (cache.openChannels group model excluded).filter (fun c => c.getPriority = p) = [] := by
    cases hfind : ((cache.priorities group model).drop (startLevel retry excluded)).find? fun p =>
        ((cache.openChannels group model excluded).filter fun c => c.getPriority = p) ≠ [] with
    | none =>
      rw [hfind] at hcases
      refine iff_of_true hcases fun p hp => ?_
      simpa using List.find?_eq_none.mp hfind p hp
    | some p =>
      rw [hfind] at hcases
      obtain ⟨c, -, hc⟩ := hcases
      refine iff_of_false (by rw [hc]; exact nofun) fun hall => ?_
      exact absurd (hall p (List.mem_of_find?_eq_some hfind)) (by simpa using List.find?_some hfind)
  rw [hnone]
  unfold NothingLeft startLevel
  by_cases hex : excluded = []
  · -- no channel is excluded, so no level is empty
    rw [if_pos hex, if_neg (not_not.mpr hex)]
    have hlength : (cache.priorities group model).length = (firstOccurrences
        ((tables.db.channels.filter (·.Offers group (cache.resolvedName group model))).map
          getPriority)).length := by
      refine List.Perm.length_eq ((perm_ext_iff_of_nodup ?_ (nodup_firstOccurrences _)).mpr fun p => ?_)
      · exact (perm_insertionSort _ _).nodup_iff.mpr (nodup_firstOccurrences _)
      · rw [mem_cachedPriorities hinit]
        simp [HasPriority, and_assoc]
    rw [← hlength]
    constructor
    · intro hall
      by_contra hlt
      obtain ⟨p, hp⟩ := exists_mem_of_ne_nil ((cache.priorities group model).drop retry.toNat)
        fun hnil => hlt (drop_eq_nil_iff.mp hnil)
      obtain ⟨c, hc, hoffers, hprio⟩ := (mem_cachedPriorities hinit).mp (mem_of_mem_drop hp)
      have hview : c.view ∈ ((cache.openChannels group model excluded).filter
          fun c => c.getPriority = p).map view :=
        (view_cachedLevel hinit _).mpr ⟨c, ⟨hc, hoffers, by simp [hex], hprio⟩, rfl⟩
      rw [hall p hp] at hview
      cases hview
    · intro hle p hp
      rw [drop_eq_nil_iff.mpr hle] at hp
      cases hp
  · rw [if_neg hex, if_pos hex]
    constructor
    · intro hall c hc hoffers
      by_contra hnot
      have hview : c.view ∈ ((cache.openChannels group model excluded).filter
          fun c' => c'.getPriority = c.getPriority).map view :=
        (view_cachedLevel hinit _).mpr ⟨c, ⟨hc, hoffers, hnot, rfl⟩, rfl⟩
      rw [hall _ ((mem_cachedPriorities hinit).mpr ⟨c, hc, hoffers, rfl⟩)] at hview
      cases hview
    · intro hall p _
      refine eq_nil_iff_forall_not_mem.mpr fun c hc => ?_
      obtain ⟨c', ⟨hc', hoffers, hnot, -⟩, -⟩ := (view_cachedLevel hinit c.view).mp (mem_map_of_mem hc)
      exact hnot (hall c' hc' hoffers)

/-- Two channels, one of them for a family of models. -/
def gizmoRun : List Op :=
  [.insert { models := "gpt-4,gpt-4o", weight := some 3, priority := some 1 },
    .insert { models := "gpt-4,gpt-4-gizmo-*" }]

/-- Tables written by a run agree. -/
theorem gizmo_indexed : Indexed (run (Op.step decodeNothing) DB.empty gizmoRun) :=
  indexed_run (by decide)

/-- The tables after that run. -/
def gizmoTables : Tables := ⟨run (Op.step decodeNothing) DB.empty gizmoRun, gizmo_indexed.ids⟩

/-- The cache built from them. -/
def gizmoCache : Cache := (initChannelCache gizmoTables.db {}).getD {}

theorem gizmo_agrees : Agrees gizmoTables.db := gizmo_indexed.faithful.agrees gizmo_indexed.filled

theorem gizmo_init : initChannelCache gizmoTables.db {} = some gizmoCache :=
  eq_some_getD (by decide)

end Prox.Routing
