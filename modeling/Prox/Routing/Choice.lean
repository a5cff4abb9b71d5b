import Prox.Routing.Cache
import Mathlib.Algebra.Order.Group.Int

/-! # The weighted choice among channels

What `selectWeightedChannelByRoutingHealth` and the loop over priority levels can return. As long as
the weights of a level fit into an `int`, the choice is one of the channels of positive effective
weight among those the health filter keeps, every one of them for some draw, and there is one unless
the level is empty. -/

namespace Prox.Routing

open Channel List

/-! ## Weights that fit -/

/-- The weight of a channel in the choice, before its health is considered; a weight of zero counts as
the 100 it may be replaced with. -/
def Channel.choiceWeight (c : Channel) : Int := if c.getWeight = 0 then 100 else c.getWeight

/-- The configured weights of a level fit into an `int`, with room for the rounding of `float64`. -/
structure Fits (channels : List Channel) : Prop where
  /-- No weight is negative as an `int`. -/
  nonneg : ∀ c ∈ channels, 0 ≤ c.getWeight
  /-- The sum is in range. -/
  total : (channels.map Channel.choiceWeight).sum < 2 ^ 63 - 2 ^ 11

instance (channels : List Channel) : Decidable (Fits channels) :=
  decidable_of_iff ((∀ c ∈ channels, 0 ≤ c.getWeight) ∧
    (channels.map Channel.choiceWeight).sum < 2 ^ 63 - 2 ^ 11)
    ⟨fun h => ⟨h.1, h.2⟩, fun h => ⟨h.nonneg, h.total⟩⟩

variable {channels : List Channel} {health : Health} {c : Channel}

theorem Fits.choiceWeight_pos (h : Fits channels) (hc : c ∈ channels) : 0 < c.choiceWeight := by
  have := h.nonneg c hc
  unfold choiceWeight
  split <;> omega

/-- Fewer channels fit as well. -/
theorem Fits.sublist (h : Fits channels) {l : List Channel} (hl : l.Sublist channels) : Fits l where
  nonneg c hc := h.nonneg c (hl.subset hc)
  total := by
    refine lt_of_le_of_lt ?_ h.total
    refine (hl.map choiceWeight).sum_le_sum fun x hx => ?_
    obtain ⟨c, hc, rfl⟩ := mem_map.mp hx
    exact (h.choiceWeight_pos hc).le

/-! ## The health filter -/

theorem filterChannelRoutingCandidates_sublist (health : Health) (channels : List Channel) :
    (filterChannelRoutingCandidates health channels).Sublist channels := by
  unfold filterChannelRoutingCandidates
  dsimp only
  split
  · exact List.Sublist.refl _
  · split
    · exact List.Sublist.refl _
    · exact filter_sublist

theorem filterChannelRoutingCandidates_ne_nil (health : Health) (h : channels ≠ []) :
    filterChannelRoutingCandidates health channels ≠ [] := by
  unfold filterChannelRoutingCandidates
  dsimp only
  split
  · exact h
  · split
    · exact h
    · assumption

/-! ## Effective weights -/

/-- The switch that is set when the kept channels have no weight. -/
def allZero (channels : List Channel) : Bool := sumInt64 Channel.getWeight channels = 0

theorem Fits.sum_getWeight (h : Fits channels) :
    sumInt64 getWeight channels = (channels.map getWeight).sum := by
  refine sumInt64_eq h.nonneg (lt_of_le_of_lt ?_ (h.total.trans (by decide)))
  refine sum_le_sum fun c hc => ?_
  unfold choiceWeight
  split <;> omega

/-- The switch is set exactly when every weight is zero. -/
theorem Fits.allZero_iff (h : Fits channels) :
    allZero channels = true ↔ ∀ c ∈ channels, c.getWeight = 0 := by
  rw [allZero, decide_eq_true_iff, h.sum_getWeight]
  constructor
  · intro hzero c hc
    have hle := single_le_sum (l := channels.map getWeight) (fun x hx => by
      obtain ⟨b, hb, rfl⟩ := mem_map.mp hx
      exact h.nonneg b hb) c.getWeight (mem_map_of_mem hc)
    have := h.nonneg c hc
    omega
  · intro hzero
    refine sum_eq_zero fun x hx => ?_
    obtain ⟨b, hb, rfl⟩ := mem_map.mp hx
    exact hzero b hb

variable (health) in
/-- An effective weight is not negative and hardly exceeds the configured one. -/
theorem effectiveWeight_bounds (hc : 0 ≤ c.getWeight) {zero : Bool}
    (hzero : zero = true → c.getWeight = 0) :
    0 ≤ channelRoutingEffectiveWeight health zero c ∧
      channelRoutingEffectiveWeight health zero c ≤ c.choiceWeight + c.choiceWeight / 2 ^ 52 := by
  unfold channelRoutingEffectiveWeight
  dsimp only
  -- the weight the function starts from
  have hstart : (if zero = true then 100 else c.getWeight) ≤ c.choiceWeight ∧
      0 ≤ (if zero = true then 100 else c.getWeight) := by
    unfold choiceWeight
    split
    · next hz => rw [if_pos (hzero hz)]; omega
    · split <;> omega
  generalize (if zero = true then 100 else c.getWeight) = weight at hstart ⊢
  obtain ⟨hle, hnonneg⟩ := hstart
  split
  · omega
  split
  · omega
  have hscaled := health.latencyScaled_le c weight hnonneg
  have hdiv : (health.latencyScaled c weight).tdiv (health.failureCount c.id + 1)
      ≤ max 0 (health.latencyScaled c weight) := by
    by_cases hneg : 0 ≤ health.latencyScaled c weight
    · rw [Int.tdiv_eq_ediv_of_nonneg hneg]
      exact (Int.ediv_le_self _ hneg).trans (le_max_right _ _)
    · refine le_max_of_le_left ?_
      have hquot : 0 ≤ (-health.latencyScaled c weight).tdiv (health.failureCount c.id + 1) :=
        Int.tdiv_nonneg (by omega) (by omega)
      rw [Int.neg_tdiv] at hquot
      omega
  split <;> split <;> omega

/-- An effective weight is positive exactly when the weight it starts from is. -/
theorem effectiveWeight_pos_iff {zero : Bool} :
    0 < channelRoutingEffectiveWeight health zero c ↔ zero = true ∨ 0 < c.getWeight := by
  unfold channelRoutingEffectiveWeight
  cases zero with
  | true =>
    simp only [if_true, true_or, iff_true]
    rw [if_neg (by decide)]
    split
    · decide
    · split <;> split <;> omega
  | false =>
    simp only [Bool.false_eq_true, if_false, false_or]
    by_cases hw : c.getWeight ≤ 0
    · omega
    · rw [if_neg hw]
      refine iff_of_true ?_ (by omega)
      split
      · omega
      · split <;> split <;> omega

/-- The effective weights of a level that fits add up in range. -/
theorem sum_effectiveWeight_lt (h : Fits channels) :
    (channels.map (channelRoutingEffectiveWeight health (allZero channels))).sum < 2 ^ 63 := by
  have hbound : ∀ l : List Channel, (∀ c ∈ l, c ∈ channels) →
      (l.map (channelRoutingEffectiveWeight health (allZero channels))).sum
        ≤ (l.map choiceWeight).sum + (l.map choiceWeight).sum / 2 ^ 52 := by
    intro l
    induction l with
    | nil => exact fun _ => le_rfl
    | cons c l ih =>
      intro hl
      obtain ⟨hc, hl⟩ := forall_mem_cons.mp hl
      have hw := (effectiveWeight_bounds health (h.nonneg c hc)
        fun hz => h.allZero_iff.mp hz c hc).2
      have := ih hl
      simp only [map_cons, sum_cons]
      omega
  have := hbound channels fun _ hc => hc
  have := h.total
  omega

/-! ## What can be chosen -/

/-- The channels the choice can return: those the health filter keeps, with a positive effective
weight. -/
def selectable (health : Health) (channels : List Channel) : List Channel :=
  let kept := filterChannelRoutingCandidates health channels
  kept.filter fun c => 0 < channelRoutingEffectiveWeight health (allZero kept) c

theorem mem_of_mem_selectable (hc : c ∈ selectable health channels) : c ∈ channels :=
  (filterChannelRoutingCandidates_sublist health channels).subset (mem_of_mem_filter hc)

variable (health) in
/-- A level with channels offers one. -/
theorem Fits.selectable_ne_nil (h : Fits channels) (hne : channels ≠ []) :
    selectable health channels ≠ [] := by
  have hkept := h.sublist (filterChannelRoutingCandidates_sublist health channels)
  have hkeptne := filterChannelRoutingCandidates_ne_nil health hne
  unfold selectable
  generalize filterChannelRoutingCandidates health channels = kept at hkept hkeptne
  -- when not all weights are zero, one of them is positive
  have hpos : ∃ c ∈ kept, 0 < channelRoutingEffectiveWeight health (allZero kept) c := by
    simp only [effectiveWeight_pos_iff]
    by_cases hzero : allZero kept = true
    · obtain ⟨c, hc⟩ := exists_mem_of_ne_nil _ hkeptne
      exact ⟨c, hc, .inl hzero⟩
    · have hsome := mt hkept.allZero_iff.mpr hzero
      push Not at hsome
      obtain ⟨c, hc, hne⟩ := hsome
      have := hkept.nonneg c hc
      exact ⟨c, hc, .inr (by omega)⟩
  obtain ⟨c, hc, hw⟩ := hpos
  exact ne_nil_of_mem (mem_filter.mpr ⟨hc, decide_eq_true hw⟩)

variable (health) in
/-- The choice, once the sums are known not to wrap. -/
theorem Fits.select_eq (h : Fits channels) (hne : channels ≠ []) (intn : Int → Int) :
    let kept := filterChannelRoutingCandidates health channels
    let weight := channelRoutingEffectiveWeight health (allZero kept)
    (∀ c ∈ kept, 0 ≤ weight c) ∧ (kept.map weight).sum < 2 ^ 63 ∧ 0 < (kept.map weight).sum ∧
      selectWeightedChannelByRoutingHealth health intn channels
        = pickWeighted weight (intn (kept.map weight).sum) kept := by
  intro kept weight
  have hkept : Fits kept := h.sublist (filterChannelRoutingCandidates_sublist health channels)
  have hnonneg : ∀ c ∈ kept, 0 ≤ weight c := fun c hc =>
    (effectiveWeight_bounds health (hkept.nonneg c hc) fun hz => hkept.allZero_iff.mp hz c hc).1
  have hsum : (kept.map weight).sum < 2 ^ 63 := sum_effectiveWeight_lt hkept
  have hpos : 0 < (kept.map weight).sum := by
    obtain ⟨c, hc⟩ := exists_mem_of_ne_nil _ (h.selectable_ne_nil health hne)
    obtain ⟨hc, hw⟩ := mem_filter.mp hc
    have hle := single_le_sum (l := kept.map weight) (fun x hx => by
      obtain ⟨b, hb, rfl⟩ := mem_map.mp hx
      exact hnonneg b hb) (weight c) (mem_map_of_mem hc)
    exact lt_of_lt_of_le (of_decide_eq_true hw) hle
  refine ⟨hnonneg, hsum, hpos, ?_⟩
  rw [selectWeightedChannelByRoutingHealth, if_neg hne]
  show (if sumInt64 weight kept ≤ 0 then none else pickWeighted weight (intn (sumInt64 weight kept)) kept) = _
  rw [sumInt64_eq hnonneg hsum, if_neg (by omega)]

variable (health) in
/-- **The choice returns a selectable channel.** -/
theorem Fits.select_mem (h : Fits channels) (hne : channels ≠ []) {intn : Int → Int}
    (hrange : ∀ n, 0 < n → 0 ≤ intn n ∧ intn n < n) :
    ∃ c ∈ selectable health channels,
      selectWeightedChannelByRoutingHealth health intn channels = some c := by
  obtain ⟨hnonneg, hsum, hpos, heq⟩ := h.select_eq health hne intn
  obtain ⟨hlo, hhi⟩ := hrange _ hpos
  obtain ⟨c, hc, hw, hpick⟩ := exists_pickWeighted hnonneg hsum hlo hhi
  exact ⟨c, mem_filter.mpr ⟨hc, decide_eq_true hw⟩, heq.trans hpick⟩

/-- **Every selectable channel is returned for some draw.** -/
theorem Fits.select_surjective (h : Fits channels) (hc : c ∈ selectable health channels) :
    ∃ total r, 0 ≤ r ∧ r < total ∧ ∀ intn : Int → Int, intn total = r →
      selectWeightedChannelByRoutingHealth health intn channels = some c := by
  have hne : channels ≠ [] := ne_nil_of_mem (mem_of_mem_selectable hc)
  obtain ⟨hkept, hw⟩ := mem_filter.mp hc
  obtain ⟨hnonneg, hsum, -, -⟩ := h.select_eq health hne id
  obtain ⟨r, hlo, hhi, hpick⟩ := pickWeighted_surjective hnonneg hsum hkept (of_decide_eq_true hw)
  refine ⟨_, r, hlo, hhi, fun intn hintn => ?_⟩
  rw [(h.select_eq health hne intn).2.2.2, hintn]
  exact hpick

/-! ## What the choice depends on -/

/-- The health filter keeps the channel: it is not cooling, or all are. -/
def Kept (health : Health) (channels : List Channel) (c : Channel) : Prop :=
  health.enabled = true → health.cooling c.id = false ∨ ∀ c' ∈ channels, health.cooling c'.id = true

theorem mem_filterChannelRoutingCandidates :
    c ∈ filterChannelRoutingCandidates health channels ↔ c ∈ channels ∧ Kept health channels c := by
  unfold filterChannelRoutingCandidates Kept
  dsimp only
  split
  · next hskip =>
    refine (and_iff_left_of_imp fun hc henabled => ?_).symm
    rw [henabled, Bool.not_true, Bool.false_or, decide_eq_true_iff] at hskip
    -- the only channel is kept whether it is cooling or not
    obtain ⟨c', hsingle⟩ : ∃ c', channels = [c'] :=
      length_eq_one_iff.mp (le_antisymm hskip (length_pos_of_mem hc))
    subst hsingle
    rw [mem_singleton.mp hc]
    cases hcool : health.cooling c'.id with
    | false => exact .inl rfl
    | true => exact .inr fun b hb => by rw [mem_singleton.mp hb, hcool]
  · next hskip =>
    rw [Bool.not_eq_true, Bool.or_eq_false_iff, Bool.not_eq_false'] at hskip
    have hiff : ∀ {p : Prop}, (health.enabled = true → p) ↔ p :=
      ⟨fun h => h hskip.1, fun h _ => h⟩
    rw [hiff]
    split
    · next hnone =>
      have hall : ∀ c' ∈ channels, health.cooling c'.id = true := by
        intro c' hc'
        simpa using filter_eq_nil_iff.mp hnone c' hc'
      exact (and_iff_left (.inr hall)).symm
    · next hsome =>
      rw [mem_filter, Bool.not_eq_true']
      refine and_congr_right fun _ => (or_iff_left fun hall => hsome ?_).symm
      exact filter_eq_nil_iff.mpr fun c' hc' => by simp [hall c' hc']

/-- **A channel can be chosen** when the filter keeps it and it has a weight, or no kept channel has
one. -/
theorem Fits.mem_selectable (h : Fits channels) :
    c ∈ selectable health channels ↔ c ∈ channels ∧ Kept health channels c ∧
      (0 < c.getWeight ∨ ∀ c' ∈ channels, Kept health channels c' → c'.getWeight = 0) := by
  have hkept := h.sublist (filterChannelRoutingCandidates_sublist health channels)
  show c ∈ (filterChannelRoutingCandidates health channels).filter _ ↔ _
  rw [mem_filter, decide_eq_true_iff, effectiveWeight_pos_iff, hkept.allZero_iff,
    mem_filterChannelRoutingCandidates, and_assoc, or_comm]
  simp [mem_filterChannelRoutingCandidates]

/-- What the choice reads of a channel, apart from the size of the weights. -/
def Channel.view (c : Channel) : Int × Int := (c.id, c.getWeight)

/-- Two lists with the same views can return channels with the same identifiers. -/
theorem selectable_congr {channels' : List Channel} (h : Fits channels) (h' : Fits channels')
    (hview : ∀ v, v ∈ channels.map view ↔ v ∈ channels'.map view) {id : Int} :
    (∃ c ∈ selectable health channels, c.id = id) → ∃ c ∈ selectable health channels', c.id = id := by
  rintro ⟨c, hc, rfl⟩
  obtain ⟨hmem, hkept, hweight⟩ := h.mem_selectable.mp hc
  -- each channel of one list has its counterpart in the other
  have hto : ∀ c ∈ channels, ∃ c' ∈ channels', c'.id = c.id ∧ c'.getWeight = c.getWeight := by
    intro c hc
    obtain ⟨c', hc', hv⟩ := mem_map.mp ((hview _).mp (mem_map_of_mem hc))
    exact ⟨c', hc', congrArg Prod.fst hv, congrArg Prod.snd hv⟩
  have hfrom : ∀ c' ∈ channels', ∃ c ∈ channels, c.id = c'.id ∧ c.getWeight = c'.getWeight := by
    intro c' hc'
    obtain ⟨c, hc, hv⟩ := mem_map.mp ((hview _).mpr (mem_map_of_mem hc'))
    exact ⟨c, hc, congrArg Prod.fst hv, congrArg Prod.snd hv⟩
  have hkeptiff : ∀ c c' : Channel, c'.id = c.id →
      (Kept health channels c ↔ Kept health channels' c') := by
    intro c c' hid
    unfold Kept
    rw [hid]
    refine imp_congr_right fun _ => or_congr_right ⟨fun hall b hb => ?_, fun hall b hb => ?_⟩
    · obtain ⟨a, ha, hab, -⟩ := hfrom b hb
      rw [← hab]
      exact hall a ha
    · obtain ⟨a, ha, hab, -⟩ := hto b hb
      rw [← hab]
      exact hall a ha
  obtain ⟨c', hc', hid, hw⟩ := hto c hmem
  refine ⟨c', h'.mem_selectable.mpr ⟨hc', (hkeptiff c c' hid).mp hkept, ?_⟩, hid⟩
  rw [hw]
  refine hweight.imp_right fun hzero b hb hbkept => ?_
  obtain ⟨a, ha, hab, haw⟩ := hfrom b hb
  rw [← haw]
  exact hzero a ha ((hkeptiff a b hab.symm).mpr hbkept)

/-! ## The loop over levels -/

/-- Nothing is chosen from an empty level. -/
theorem select_nil (health : Health) (intn : Int → Int) :
    selectWeightedChannelByRoutingHealth health intn [] = none := rfl

variable {random : RandomSource} {atLevel : Int → List Channel}

variable (health random) in
/-- The loop returns a channel of the first level that is not empty. -/
theorem selectByLevel_eq (hfits : ∀ p, Fits (atLevel p)) (level : Nat) (priorities : List Int) :
    match priorities.find? fun p => atLevel p ≠ [] with
    | none => selectByLevel health random atLevel level priorities = none
    | some p => ∃ k, selectByLevel health random atLevel level priorities
        = selectWeightedChannelByRoutingHealth health (random.intn k) (atLevel p) := by
  induction priorities generalizing level with
  | nil => rfl
  | cons p rest ih =>
    by_cases hp : atLevel p = []
    · rw [List.find?_cons_of_neg (by simpa using hp)]
      have hskip : selectByLevel health random atLevel level (p :: rest)
          = selectByLevel health random atLevel (level + 1) rest := by
        rw [selectByLevel, hp, select_nil]
      rw [hskip]
      exact ih (level + 1)
    · rw [List.find?_cons_of_pos (by simpa using hp)]
      obtain ⟨c, -, hc⟩ := (hfits p).select_mem health hp (random.range level)
      exact ⟨level, by rw [selectByLevel, hc]⟩

variable (health random) in
/-- **What the loop can return**: a selectable channel of the first level that is not empty. -/
theorem selectByLevel_cases (hfits : ∀ p, Fits (atLevel p)) (level : Nat) (priorities : List Int) :
    match priorities.find? fun p => atLevel p ≠ [] with
    | none => selectByLevel health random atLevel level priorities = none
    | some p => ∃ c ∈ selectable health (atLevel p),
        selectByLevel health random atLevel level priorities = some c := by
  have heq := selectByLevel_eq health random hfits level priorities
  cases hfind : priorities.find? fun p => atLevel p ≠ [] with
  | none =>
    rw [hfind] at heq
    exact heq
  | some p =>
    rw [hfind] at heq
    obtain ⟨k, hk⟩ := heq
    have hne : atLevel p ≠ [] := by simpa using List.find?_some hfind
    obtain ⟨c, hc, hsel⟩ := (hfits p).select_mem health hne (random.range k)
    exact ⟨c, hc, hk.trans hsel⟩

/-- **Every such channel is returned for some random source.** -/
theorem selectByLevel_surjective (hfits : ∀ p, Fits (atLevel p)) (level : Nat) {priorities : List Int}
    {p : Int} (hfind : priorities.find? (fun p => atLevel p ≠ []) = some p)
    (hc : c ∈ selectable health (atLevel p)) :
    ∃ random, selectByLevel health random atLevel level priorities = some c := by
  obtain ⟨total, r, hlo, hhi, hsel⟩ := (hfits p).select_surjective hc
  -- a source that draws `r` below `total`, and zero below everything else
  let random : RandomSource :=
    { intn := fun _ n => if n = total then r else 0
      range := by
        intro _ n hn
        split
        · next heq => exact ⟨hlo, heq ▸ hhi⟩
        · exact ⟨le_rfl, hn⟩ }
  refine ⟨random, ?_⟩
  have heq := selectByLevel_eq health random hfits level priorities
  rw [hfind] at heq
  obtain ⟨k, hk⟩ := heq
  rw [hk]
  exact hsel _ (if_pos rfl)

end Prox.Routing
