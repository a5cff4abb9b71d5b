import Prox.Routing.Channels
import Prox.Lib.Choice
import Mathlib.Data.List.Sort
import Mathlib.Logic.Function.Basic

/-! # The channel cache and channel selection

`InitChannelCache` and `CacheUpdateChannelStatus` of `model/channel_cache.go`, and the two functions
that select a channel: from the cache, and from the tables when the memory cache is off. Both share
the weighted choice among the channels of one priority, which consults the routing health.

What a selection reads besides its arguments is a parameter: the health of the channels and the
random source. The order that `sort.Slice` and the database leave open is the order of insertion
here. -/

namespace Prox.Routing

/-! ## Model names -/

/-- `handleThinkingBudgetModel`. -/
def handleThinkingBudgetModel (name pre wildcard : String) : String :=
  if hasPrefix name pre && containsText name "-thinking-" then wildcard else name

/-- `FormatMatchingModelName`. -/
def formatMatchingModelName (name : String) : String :=
  let name :=
    if hasPrefix name "gemini-2.5-flash-lite" then
      handleThinkingBudgetModel name "gemini-2.5-flash-lite" "gemini-2.5-flash-lite-thinking-*"
    else if hasPrefix name "gemini-2.5-flash" then
      handleThinkingBudgetModel name "gemini-2.5-flash" "gemini-2.5-flash-thinking-*"
    else if hasPrefix name "gemini-2.5-pro" then
      handleThinkingBudgetModel name "gemini-2.5-pro" "gemini-2.5-pro-thinking-*"
    else name
  let name := if hasPrefix name "gpt-4-gizmo" then "gpt-4-gizmo-*" else name
  if hasPrefix name "gpt-4o-gizmo" then "gpt-4o-gizmo-*" else name

/-! ## The cache -/

/-- `group2model2channels`: no entry for a group is a nil inner map, which can be read and not
assigned to. A model without an entry has the empty list. -/
abbrev ModelIndex := String → Option (String → List Int)

/-- `m[group][model]`. -/
def ModelIndex.listed (m : ModelIndex) (group model : String) : List Int :=
  match m group with
  | none => []
  | some models => models model

/-- The two maps of the cache. -/
structure Cache where
  group2model2channels : ModelIndex := fun _ => none
  /-- All channels, the disabled ones included. -/
  channelsIDM : Int → Option Channel := fun _ => none

/-- `group2model2channels[group][model]`. -/
def Cache.listed (cache : Cache) (group model : String) : List Int :=
  cache.group2model2channels.listed group model

/-- Appends to `m[group][model]`; `none` is the panic of an assignment to a nil map. -/
def ModelIndex.push (m : ModelIndex) (entry : String × String × Int) : Option ModelIndex :=
  (m entry.1).map fun models =>
    Function.update m entry.1
      (some (Function.update models entry.2.1 (models entry.2.1 ++ [entry.2.2])))

/-- What the building loop appends for one channel: groups outside, models inside. -/
def Channel.cacheEntries (c : Channel) : List (String × String × Int) :=
  c.groupList.flatMap fun group => c.modelList.map fun model => (group, model, c.id)

/-- The channels that the building loop does not skip. -/
def enabledChannels (db : DB) : List Channel :=
  db.channels.filter fun c => c.status = channelStatusEnabled

/-- The appends of the building loop in their order. -/
def cacheEntries (db : DB) : List (String × String × Int) :=
  (enabledChannels db).flatMap Channel.cacheEntries

/-- The inner maps are made for the groups of the abilities. -/
def groupMaps (db : DB) : ModelIndex :=
  fun group => if group ∈ db.abilities.map Ability.group then some fun _ => [] else none

/-- `newChannelId2channel`; a later row replaces an earlier one. -/
def channelById (db : DB) (id : Int) : Option Channel := db.channels.reverse.find? fun c => c.id = id

/-- `newChannelId2channel[id].GetPriority()`. -/
def priorityOf (channels : Int → Option Channel) (id : Int) : Int :=
  match channels id with
  | none => 0
  | some c => c.getPriority

/-- The lists sorted by priority, the highest first. -/
def ModelIndex.sorted (m : ModelIndex) (priority : Int → Int) : ModelIndex :=
  fun group => (m group).map fun models model =>
    (models model).insertionSort fun a b => priority b ≤ priority a

/-- A multi-key channel in polling mode keeps the polling index of its predecessor in the cache. -/
def keepPollingIndex (old : Option Channel) (c : Channel) : Channel :=
  if c.channelInfo.isMultiKey && c.channelInfo.multiKeyMode = "polling" then
    match old with
    | none => c
    | some old =>
      if old.channelInfo.isMultiKey && old.channelInfo.multiKeyMode = "polling" then
        { c with channelInfo :=
            { c.channelInfo with multiKeyPollingIndex := old.channelInfo.multiKeyPollingIndex } }
      else c
  else c

/-- `InitChannelCache`; `none` when it panics. -/
def initChannelCache (db : DB) (cache : Cache) : Option Cache :=
  ((cacheEntries db).foldlM ModelIndex.push (groupMaps db)).map fun m =>
    { group2model2channels := m.sorted (priorityOf (channelById db))
      channelsIDM := fun id => (channelById db id).map (keepPollingIndex (cache.channelsIDM id)) }

/-- `CacheUpdateChannelStatus`: the loop over a list ends after the first removal. -/
def cacheUpdateChannelStatus (id status : Int) (cache : Cache) : Cache :=
  { channelsIDM :=
      match cache.channelsIDM id with
      | none => cache.channelsIDM
      | some c => Function.update cache.channelsIDM id (some { c with status := status })
    group2model2channels :=
      if status ≠ channelStatusEnabled then
        fun group => (cache.group2model2channels group).map fun models model => (models model).erase id
      else cache.group2model2channels }

/-! ## The weighted choice -/

/-- The routing health at the time of a selection. -/
structure Health where
  /-- `common.ChannelRoutingHealthEnabled`. -/
  enabled : Bool
  /-- The channel has a local or a distributed cooldown that ends in the future. -/
  cooling : Int → Bool
  /-- The failure count of the channel's state. -/
  failureCount : Int → Nat
  /-- `int(float64(weight) * baseline / latency)` for a latency above the baseline, and the weight
  itself otherwise. -/
  latencyScaled : Channel → Int → Int
  /-- The scaling takes away from a weight; the conversion to `float64` may round it up by one part
  in `2^53`. -/
  latencyScaled_le : ∀ c w, 0 ≤ w → latencyScaled c w ≤ w + w / 2 ^ 52

/-- `rand.Intn`, called once for each priority level that is tried. -/
structure RandomSource where
  intn : Nat → Int → Int
  /-- The number is drawn below the argument. -/
  range : ∀ level n, 0 < n → 0 ≤ intn level n ∧ intn level n < n

/-- `filterChannelRoutingCandidates`: cooling channels are left out unless all are cooling. -/
def filterChannelRoutingCandidates (health : Health) (channels : List Channel) : List Channel :=
  if !health.enabled || channels.length ≤ 1 then channels
  else
    let healthy := channels.filter fun c => !health.cooling c.id
    if healthy = [] then channels else healthy

/-- `channelRoutingEffectiveWeight`. -/
def channelRoutingEffectiveWeight (health : Health) (allConfiguredWeightsZero : Bool) (c : Channel) :
    Int :=
  let weight := if allConfiguredWeightsZero then 100 else c.getWeight
  if weight ≤ 0 then 0
  else if !health.enabled then weight
  else
    let weight := health.latencyScaled c weight
    let weight :=
      if 0 < health.failureCount c.id then weight.tdiv (health.failureCount c.id + 1) else weight
    if weight < 1 then 1 else weight

/-- `selectWeightedChannelByRoutingHealth`. -/
def selectWeightedChannelByRoutingHealth (health : Health) (intn : Int → Int)
    (channels : List Channel) : Option Channel :=
  if channels = [] then none
  else
    let channels := filterChannelRoutingCandidates health channels
    let allConfiguredWeightsZero : Bool := sumInt64 Channel.getWeight channels = 0
    let weight := channelRoutingEffectiveWeight health allConfiguredWeightsZero
    let totalWeight := sumInt64 weight channels
    if totalWeight ≤ 0 then none else pickWeighted weight (intn totalWeight) channels

/-! ## Selection from the cache -/

/-- A listed channel is missing from `channelsIDM`. -/
structure ChannelMissing where
  channelId : Int

/-- The text of the error. -/
def ChannelMissing.message (e : ChannelMissing) : String :=
  "数据库一致性错误，渠道# " ++ toString e.channelId ++ " 不存在，请联系管理员修复"

/-- The channels listed for a model, or else for its normalized name. -/
def Cache.candidates (cache : Cache) (group model : String) : List Int :=
  if cache.listed group model = [] then cache.listed group (formatMatchingModelName model)
  else cache.listed group model

/-- Looks up the listed channels. -/
def Cache.lookupAll (cache : Cache) (ids : List Int) : Except ChannelMissing (List Channel) :=
  ids.mapM fun id =>
    match cache.channelsIDM id with
    | none => .error ⟨id⟩
    | some c => .ok c

/-- The loop over priority levels, with the number of the level. -/
def selectByLevel (health : Health) (random : RandomSource) (atLevel : Int → List Channel) :
    Nat → List Int → Option Channel
  | _, [] => none
  | level, priority :: rest =>
    match selectWeightedChannelByRoutingHealth health (random.intn level) (atLevel priority) with
    | some c => some c
    | none => selectByLevel health random atLevel (level + 1) rest

/-- The channels of one priority that are not excluded. -/
def cachedLevel (channels : List (Int × Channel)) (excluded : List Int) (priority : Int) :
    List Channel :=
  (channels.filter fun entry => entry.2.getPriority = priority ∧ entry.1 ∉ excluded).map Prod.snd

/-- `GetRandomSatisfiedChannelWithExclusions` with the memory cache on. -/
def getRandomSatisfiedChannelWithExclusions (health : Health) (random : RandomSource) (cache : Cache)
    (group model : String) (retry : Int) (excluded : List Int) :
    Except ChannelMissing (Option Channel) := do
  let ids := cache.candidates group model
  if ids = [] then return none
  let channels ← cache.lookupAll ids
  let priorities :=
    (firstOccurrences (channels.map Channel.getPriority)).insertionSort fun a b => b ≤ a
  let startPriorityIndex := if excluded ≠ [] then 0 else retry.toNat
  return selectByLevel health random (cachedLevel (ids.zip channels) excluded) startPriorityIndex
    (priorities.drop startPriorityIndex)

/-! ## Selection from the tables -/

/-- A column sorted `DESC`; `NULL` comes last. -/
def descNullsLast (a b : Option Int) : Bool :=
  match a, b with
  | _, none => true
  | none, some _ => false
  | some a, some b => b ≤ a

/-- `ORDER BY priority DESC, weight DESC`. -/
def Ability.before (a b : Ability) : Bool :=
  if a.priority = b.priority then b.weight ≤ a.weight else descNullsLast a.priority b.priority

/-- The first query of `GetChannelWithExclusions`. -/
def selectAbilities (db : DB) (group model : String) : List Ability :=
  (db.abilities.filter fun a => a.group = group ∧ a.model = model ∧ a.enabled).insertionSort
    fun a b => a.before b

/-- The priority of an ability, `NULL` being zero. -/
def Ability.getPriority (a : Ability) : Int := a.priority.getD 0

/-- The channels of one priority that are not excluded, each with the priority and the weight of its
ability. -/
def storedLevel (channels : List Channel) (abilities : List Ability) (excluded : List Int)
    (priority : Int) : List Channel :=
  abilities.filterMap fun a =>
    if a.getPriority ≠ priority ∨ a.channelId ∈ excluded then none
    else
      (channels.find? fun c => c.id = a.channelId).map fun c =>
        { c with priority := a.priority, weight := some a.weight }

/-- `GetChannelWithExclusions`; the queries do not fail. -/
def getChannelWithExclusions (health : Health) (random : RandomSource) (db : DB)
    (group model : String) (retry : Int) (excluded : List Int) : Option Channel :=
  let abilities := selectAbilities db group model
  let priorities := firstOccurrences (abilities.map Ability.getPriority)
  let skipped := if excluded = [] ∧ 0 < retry then retry.toNat else 0
  let channels := db.channels.filter fun c =>
    c.id ∈ abilities.map Ability.channelId ∧ c.status = channelStatusEnabled
  selectByLevel health random (storedLevel channels abilities excluded) skipped
    (priorities.drop skipped)

end Prox.Routing
