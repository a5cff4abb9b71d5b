import Prox.Routing.Choice
import Prox.Routing.Listing

/-! # Selection from the cache

What the cache holds along a run of rebuilds and status updates, and what a selection from it returns:
an enabled channel of the highest priority among the listed ones that are not excluded. A status
update takes a disabled channel out of a list once, so the lists stay right as long as a channel that
is disabled occurs at most once in each. -/

namespace Prox.Routing

open List

/-! ## Runs of the cache -/

/-- The tables a rebuild reads: identifiers are a primary key. -/
structure Tables where
  db : DB
  ids : (db.channels.map Channel.id).Nodup

/-- A call that changes the cache. -/
inductive CacheEvent where
  | init (tables : Tables)
  | updateStatus (id status : Int)

/-- The cache after a call; `none` once a rebuild has panicked. -/
def CacheEvent.step (cache : Option Cache) (e : CacheEvent) : Option Cache :=
  cache.bind fun cache =>
    match e with
    | .init tables => initChannelCache tables.db cache
    | .updateStatus id status => some (cacheUpdateChannelStatus id status cache)

/-- A channel that is disabled occurs at most once in each list. -/
def CacheEvent.RemovesAll (cache : Option Cache) (e : CacheEvent) : Prop :=
  match e with
  | .init _ => True
  | .updateStatus id status => status ≠ channelStatusEnabled →
      ∀ current, cache = some current → ∀ group model, (current.listed group model).count id ≤ 1

/-- **The invariant**: the listed channels are known and enabled. -/
def ListsEnabled (cache : Cache) : Prop :=
  ∀ group model, ∀ id ∈ cache.listed group model,
    ∃ c, cache.channelsIDM id = some c ∧ c.id = id ∧ c.status = channelStatusEnabled

variable {cache cache' : Cache} {group model : String} {id : Int} {c : Channel}

theorem listsEnabled_init {tables : Tables} (h : initChannelCache tables.db cache = some cache') :
    ListsEnabled cache' := by
  intro group model id hid
  obtain ⟨c, hc, henabled, -, -, rfl⟩ := (mem_listed_initChannelCache h).mp hid
  refine ⟨keepPollingIndex (cache.channelsIDM c.id) c, ?_, ?_, ?_⟩
  · rw [(initChannelCache_eq_some h).1, (channelById_eq_some tables.ids).mpr ⟨hc, rfl⟩]
    rfl
  · rw [keepPollingIndex_same]
  · rw [keepPollingIndex_same]
    exact henabled

theorem listed_cacheUpdateChannelStatus (id status : Int) (cache : Cache) (group model : String) :
    (cacheUpdateChannelStatus id status cache).listed group model
      = if status ≠ channelStatusEnabled then (cache.listed group model).erase id
        else cache.listed group model := by
  unfold Cache.listed cacheUpdateChannelStatus ModelIndex.listed
  dsimp only
  by_cases hstatus : status ≠ channelStatusEnabled
  · rw [if_pos hstatus, if_pos hstatus]
    cases cache.group2model2channels group with
    | none => rfl
    | some models => rfl
  · rw [if_neg hstatus, if_neg hstatus]

theorem channelsIDM_cacheUpdateChannelStatus (id status : Int) (cache : Cache) (id' : Int) :
    (cacheUpdateChannelStatus id status cache).channelsIDM id'
      = if id' = id then (cache.channelsIDM id).map fun c => { c with status := status }
        else cache.channelsIDM id' := by
  unfold cacheUpdateChannelStatus
  dsimp only
  cases hc : cache.channelsIDM id with
  | none =>
    split
    · next h =>
      rw [h]
      exact hc
    · rfl
  | some c =>
    dsimp only
    by_cases h : id' = id
    · rw [h, Function.update_self, if_pos rfl]
      rfl
    · rw [Function.update_of_ne h, if_neg h]

/-- A status update keeps the lists right when it removes every occurrence. -/
theorem listsEnabled_updateStatus (h : ListsEnabled cache) {status : Int}
    (hcount : status ≠ channelStatusEnabled → ∀ group model, (cache.listed group model).count id ≤ 1) :
    ListsEnabled (cacheUpdateChannelStatus id status cache) := by
  intro group model id' hid'
  rw [listed_cacheUpdateChannelStatus] at hid'
  simp only [channelsIDM_cacheUpdateChannelStatus]
  by_cases hstatus : status ≠ channelStatusEnabled
  · rw [if_pos hstatus] at hid'
    have hne : id' ≠ id := by
      rintro rfl
      have hgone := count_erase_self (a := id') (l := cache.listed group model)
      have hpos := count_pos_iff.mpr hid'
      have := hcount hstatus group model
      omega
    rw [if_neg hne]
    exact h group model id' (mem_of_mem_erase hid')
  · rw [if_neg hstatus] at hid'
    obtain ⟨c, hc, hcid, henabled⟩ := h group model id' hid'
    by_cases hne : id' = id
    · subst hne
      rw [if_pos rfl, hc]
      exact ⟨_, rfl, hcid, not_not.mp hstatus⟩
    · rw [if_neg hne]
      exact ⟨c, hc, hcid, henabled⟩

/-- Along a run that removes disabled channels from the lists, the lists are right. -/
theorem listsEnabled_run {events : List CacheEvent}
    (hevents : Along CacheEvent.step CacheEvent.RemovesAll (some {}) events)
    (hrun : run CacheEvent.step (some {}) events = some cache) : ListsEnabled cache := by
  have hall := run_keeps_along (I := fun s => ∀ current, s = some current → ListsEnabled current)
    (fun s e h he => ?_) (fun current hcurrent => ?_) hevents
  · exact hall cache hrun
  · intro current hstep
    obtain ⟨before, rfl, hafter⟩ := Option.bind_eq_some_iff.mp hstep
    cases e with
    | init tables => exact listsEnabled_init hafter
    | updateStatus id status =>
      cases hafter
      exact listsEnabled_updateStatus (h before rfl) fun hs => he hs before rfl
  · cases hcurrent
    intro _ _ _ hid
    cases hid

/-! ## What a selection returns -/

/-- The listed channels that are not excluded, a channel as often as it is listed. -/
def Cache.openChannels (cache : Cache) (group model : String) (excluded : List Int) : List Channel :=
  ((cache.candidates group model).filter (· ∉ excluded)).filterMap cache.channelsIDM

/-- The weights of each priority among them fit into an `int`. -/
def Cache.WeightsFit (cache : Cache) (group model : String) (excluded : List Int) : Prop :=
  ∀ priority, Fits ((cache.openChannels group model excluded).filter fun c => c.getPriority = priority)

/-- The result of a selection is right: a channel is a listed one that is not excluded, recorded as
enabled, of the highest priority of these; and without one there is no candidate. -/
def Cache.SelectsRight (cache : Cache) (group model : String) (excluded : List Int) :
    Option Channel → Prop
  | some c =>
    c.id ∈ cache.candidates group model ∧ c.id ∉ excluded ∧ cache.channelsIDM c.id = some c ∧
      c.status = channelStatusEnabled ∧
        ∀ c' ∈ cache.openChannels group model excluded, c'.getPriority ≤ c.getPriority
  | none => cache.openChannels group model excluded = []

/-- Every listed channel is known, as one with its identifier. -/
theorem ListsEnabled.candidates (h : ListsEnabled cache) (hid : id ∈ cache.candidates group model) :
    ∃ c, cache.channelsIDM id = some c ∧ c.id = id ∧ c.status = channelStatusEnabled := by
  unfold Cache.candidates at hid
  split at hid
  · exact h _ _ id hid
  · exact h _ _ id hid

variable (cache) in
theorem lookupAll_eq (ids : List Int) (h : ∀ id ∈ ids, ∃ c, cache.channelsIDM id = some c) :
    ∃ channels, cache.lookupAll ids = .ok channels ∧ channels = ids.filterMap cache.channelsIDM ∧
      ∀ excluded priority, cachedLevel (ids.zip channels) excluded priority
        = ((ids.filter (· ∉ excluded)).filterMap cache.channelsIDM).filter
            fun c => c.getPriority = priority := by
  induction ids with
  | nil => exact ⟨[], rfl, rfl, fun _ _ => rfl⟩
  | cons id ids ih =>
    obtain ⟨⟨c, hc⟩, hids⟩ := forall_mem_cons.mp h
    obtain ⟨channels, hlookup, hchannels, hlevel⟩ := ih hids
    refine ⟨c :: channels, ?_, ?_, fun excluded priority => ?_⟩
    · unfold Cache.lookupAll at hlookup ⊢
      rw [mapM_cons, hc, hlookup]
      rfl
    · rw [filterMap_cons, hc, hchannels]
    · have hrest := hlevel excluded priority
      unfold cachedLevel at hrest ⊢
      rw [zip_cons_cons, filter_cons, filter_cons]
      by_cases hex : id ∈ excluded
      · simp only [hex, not_true_eq_false, and_false, decide_false, Bool.false_eq_true, if_false]
        exact hrest
      · simp only [hex, not_false_eq_true, and_true, decide_true, if_true, filterMap_cons, hc,
          filter_cons, decide_eq_true_eq]
        by_cases hp : c.getPriority = priority
        · rw [if_pos hp, if_pos hp, map_cons, hrest]
        · rw [if_neg hp, if_neg hp, hrest]

/-- The priorities of the listed channels, the highest first. -/
def Cache.priorities (cache : Cache) (group model : String) : List Int :=
  (firstOccurrences (((cache.candidates group model).filterMap cache.channelsIDM).map
    Channel.getPriority)).insertionSort fun a b => b ≤ a

variable {health : Health} {random : RandomSource} {retry : Int} {excluded : List Int}

variable (health random group model retry excluded) in
/-- A selection is the loop over the levels of the open channels. -/
theorem ListsEnabled.select_eq (h : ListsEnabled cache) :
    getRandomSatisfiedChannelWithExclusions health random cache group model retry excluded
      = .ok (selectByLevel health random
          (fun p => (cache.openChannels group model excluded).filter fun c => c.getPriority = p)
          (if excluded ≠ [] then 0 else retry.toNat)
          ((cache.priorities group model).drop (if excluded ≠ [] then 0 else retry.toNat))) := by
  obtain ⟨channels, hlookup, hchannels, hlevel⟩ := lookupAll_eq cache
    (cache.candidates group model) fun id hid =>
      let ⟨c, hc, _⟩ := h.candidates hid
      ⟨c, hc⟩
  unfold getRandomSatisfiedChannelWithExclusions
  dsimp only
  split
  · next hnil =>
    have hpriorities : cache.priorities group model = [] := by
      rw [Cache.priorities, hnil]
      rfl
    rw [hpriorities, drop_nil]
    rfl
  · rw [hlookup]
    show Except.ok _ = _
    rw [funext (hlevel excluded), hchannels]
    rfl

/-- The loop starts at the highest priority, so the first level that is not empty is the highest
one. -/
theorem le_of_find?_sorted {l : List Int} (hsorted : l.Pairwise fun a b => b ≤ a) {q : Int → Bool}
    {p : Int} (hfind : l.find? q = some p) {p' : Int} (hp' : p' ∈ l) (hq : q p' = true) : p' ≤ p := by
  obtain ⟨-, before, after, rfl, hbefore⟩ := List.find?_eq_some_iff_append.mp hfind
  rcases mem_append.mp hp' with hmem | hmem
  · have := hbefore p' hmem
    rw [hq] at this
    cases this
  · rcases mem_cons.mp hmem with rfl | hmem
    · exact le_rfl
    · exact (pairwise_cons.mp (pairwise_append.mp hsorted).2.1).1 p' hmem

theorem mem_openChannels (h : ListsEnabled cache) :
    c ∈ cache.openChannels group model excluded ↔
      c.id ∈ cache.candidates group model ∧ c.id ∉ excluded ∧ cache.channelsIDM c.id = some c := by
  unfold Cache.openChannels
  rw [mem_filterMap]
  constructor
  · rintro ⟨id, hid, hc⟩
    obtain ⟨hmem, hex⟩ := mem_filter.mp hid
    obtain ⟨c', hc', hcid, -⟩ := h.candidates hmem
    rw [hc, Option.some.injEq] at hc'
    subst hc'
    rw [hcid]
    exact ⟨hmem, of_decide_eq_true hex, hc⟩
  · rintro ⟨hmem, hex, hc⟩
    exact ⟨c.id, mem_filter.mpr ⟨hmem, decide_eq_true hex⟩, hc⟩

theorem mem_priorities {p : Int} :
    p ∈ cache.priorities group model ↔
      ∃ id ∈ cache.candidates group model, ∃ c, cache.channelsIDM id = some c ∧ c.getPriority = p := by
  unfold Cache.priorities
  rw [(perm_insertionSort _ _).mem_iff, mem_firstOccurrences]
  simp only [mem_map, mem_filterMap]
  constructor
  · rintro ⟨c, ⟨id, hid, hc⟩, hp⟩
    exact ⟨id, hid, c, hc, hp⟩
  · rintro ⟨id, hid, c, hc, hp⟩
    exact ⟨c, ⟨id, hid, hc⟩, hp⟩

/-- **A selection from right lists is right**, for an exclusion set that is not empty or the first
try. -/
theorem ListsEnabled.selectsRight (h : ListsEnabled cache)
    (hfits : cache.WeightsFit group model excluded) (hretry : excluded = [] → retry = 0) :
    ∃ result, getRandomSatisfiedChannelWithExclusions health random cache group model retry excluded
      = .ok result ∧ cache.SelectsRight group model excluded result := by
  have hstart : (if excluded ≠ [] then 0 else retry.toNat) = 0 := by
    split
    · rfl
    · next hex => rw [hretry (not_not.mp hex)]; rfl
  have heq := h.select_eq group model health random retry excluded
  rw [hstart, drop_zero] at heq
  refine ⟨_, heq, ?_⟩
  have hcases := selectByLevel_cases health random hfits 0
    (cache.priorities group model)
  have hsorted : (cache.priorities group model).Pairwise fun a b => b ≤ a :=
    pairwise_insertionSort _ _
  -- the level of an open channel is among those the loop goes through, and is not empty
  have hlevel : ∀ c ∈ cache.openChannels group model excluded,
      c.getPriority ∈ cache.priorities group model ∧
        ((cache.openChannels group model excluded).filter
          fun c' => c'.getPriority = c.getPriority) ≠ [] := by
    intro c hc
    obtain ⟨hmem, -, hfound⟩ := (mem_openChannels h).mp hc
    exact ⟨mem_priorities.mpr ⟨c.id, hmem, c, hfound, rfl⟩,
      ne_nil_of_mem (mem_filter.mpr ⟨hc, decide_eq_true rfl⟩)⟩
  cases hfind : (cache.priorities group model).find? fun p =>
      ((cache.openChannels group model excluded).filter fun c => c.getPriority = p) ≠ [] with
  | none =>
    rw [hfind] at hcases
    rw [hcases]
    refine eq_nil_iff_forall_not_mem.mpr fun c hc => ?_
    obtain ⟨hmem, hne⟩ := hlevel c hc
    exact List.find?_eq_none.mp hfind _ hmem (decide_eq_true hne)
  | some p =>
    rw [hfind] at hcases
    obtain ⟨c, hc, hsel⟩ := hcases
    rw [hsel]
    obtain ⟨hopen, hprio⟩ := mem_filter.mp (mem_of_mem_selectable hc)
    obtain ⟨hmem, hex, hfound⟩ := (mem_openChannels h).mp hopen
    obtain ⟨c', hc', -, henabled⟩ := h.candidates hmem
    rw [hfound, Option.some.injEq] at hc'
    refine ⟨hmem, hex, hfound, hc' ▸ henabled, fun c'' hc'' => ?_⟩
    obtain ⟨hmem'', hne''⟩ := hlevel c'' hc''
    rw [of_decide_eq_true hprio]
    exact le_of_find?_sorted hsorted hfind hmem'' (decide_eq_true hne'')

/-- **Every selection after a run that removes disabled channels from the lists is right.** -/
theorem selection_right (events : List CacheEvent)
    (hevents : Along CacheEvent.step CacheEvent.RemovesAll (some {}) events) (cache : Cache)
    (hrun : run CacheEvent.step (some {}) events = some cache) (health : Health)
    (random : RandomSource) (group model : String) (retry : Int) (excluded : List Int)
    (hretry : excluded = [] → retry = 0) (hfits : cache.WeightsFit group model excluded) :
    ∃ result, getRandomSatisfiedChannelWithExclusions health random cache group model retry excluded
      = .ok result ∧ cache.SelectsRight group model excluded result :=
  (listsEnabled_run hevents hrun).selectsRight hfits hretry

/-! ## Concrete runs -/

/-- No health is tracked. -/
def untracked : Health where
  enabled := false
  cooling _ := false
  failureCount _ := 0
  latencyScaled _ w := w
  latencyScaled_le _ w hw := by omega

/-- Every draw is zero. -/
def drawZero : RandomSource where
  intn _ _ := 0
  range _ _ hn := ⟨le_rfl, hn⟩

/-- Two channels of a model with different priorities. -/
def twoChannels : Tables where
  db :=
    { channels :=
        [{ id := 1, status := 1, models := "gpt-4,gpt-4o", group := "default", weight := some 0,
           priority := some 5 },
         { id := 2, status := 1, models := "gpt-4", group := "default", weight := some 3,
           priority := some 1 }]
      abilities := [{ group := "default", model := "gpt-4", channelId := 1, enabled := true }]
      lastId := 2 }
  ids := by decide

/-- The cache is built and the channel of higher priority is disabled. -/
def disableFirst : List CacheEvent := [.init twoChannels, .updateStatus 1 3]

theorem eq_some_getD {α : Type} {o : Option α} {d : α} (h : o.isSome = true) : o = some (o.getD d) := by
  obtain ⟨a, rfl⟩ := Option.isSome_iff_exists.mp h
  rfl

theorem disableFirst_removesAll :
    Along CacheEvent.step CacheEvent.RemovesAll (some {}) disableFirst := by
  refine ⟨trivial, fun _ current hcurrent group model => ?_, trivial⟩
  have hinit : initChannelCache twoChannels.db {} = some current := hcurrent
  exact count_listed_initChannelCache hinit (by decide) 1 group model

theorem selection_right_second :
    ∃ result, getRandomSatisfiedChannelWithExclusions untracked drawZero
        ((run CacheEvent.step (some {}) disableFirst).getD {}) "default" "gpt-4" 0 [] = .ok result ∧
      ((run CacheEvent.step (some {}) disableFirst).getD {}).SelectsRight "default" "gpt-4" [] result :=
  selection_right disableFirst disableFirst_removesAll _ (eq_some_getD (by decide)) untracked
    drawZero "default" "gpt-4" 0 [] (fun _ => rfl)
    fun _ => Fits.sublist (by decide) filter_sublist

/-- A channel that lists its model twice. -/
def repeatedModel : Tables where
  db :=
    { channels := [{ id := 1, status := 1, models := "gpt-4,gpt-4", group := "default" }]
      abilities := [{ group := "default", model := "gpt-4", channelId := 1, enabled := true }]
      lastId := 1 }
  ids := by decide

/-- A channel that lists its model twice is selected after it was disabled. -/
theorem selection_not_right :
    ¬ ∀ (events : List CacheEvent) (cache : Cache),
      run CacheEvent.step (some {}) events = some cache →
        ∀ (health : Health) (random : RandomSource) (group model : String) (retry : Int)
          (excluded : List Int), (excluded = [] → retry = 0) →
            ∃ result, getRandomSatisfiedChannelWithExclusions health random cache group model retry
                excluded = .ok result ∧ cache.SelectsRight group model excluded result := by
  intro h
  obtain ⟨result, hresult, hright⟩ := h [.init repeatedModel, .updateStatus 1 3] _
    (eq_some_getD (by decide)) untracked drawZero "default" "gpt-4" 0 [] fun _ => rfl
  have hdisabled : (getRandomSatisfiedChannelWithExclusions untracked drawZero
      ((run CacheEvent.step (some {}) [.init repeatedModel, .updateStatus 1 3]).getD {}) "default"
        "gpt-4" 0 []).toOption.map (Option.map Channel.status) = some (some 3) := by
    decide
  rw [hresult] at hdisabled
  cases result with
  | none => cases hdisabled
  | some c =>
    have hstatus : c.status = 3 := Option.some.inj (Option.some.inj hdisabled)
    have henabled : c.status = 1 := hright.2.2.2.1
    omega

end Prox.Routing
