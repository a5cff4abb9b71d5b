import Mathlib.Tactic.Linarith
import Mathlib.Tactic.Positivity
import Prox.Text.Tiered

/-! # The quota of a text request

The embedding of `calculateTextQuotaSummary` of `service/text_quota.go`. Ratios and prices are decimals, whose
sums, products and quotients are exact here. The completion part of a charge is the price of the completion
tokens alone; everything else of a ratio charge can become negative, as tokens that are counted in several
categories are taken off the prompt once for each of them. -/

namespace Prox

open List Option

/-! ## Requests -/

/-- The ratios and the price that were fixed when the request came in. -/
structure TextPriceData where
  modelPrice : ℚ := 0
  modelRatio : ℚ := 1
  completionRatio : ℚ := 1
  cacheRatio : ℚ := 1
  cacheCreationRatio : ℚ := 1
  cacheCreation5mRatio : ℚ := 1
  cacheCreation1hRatio : ℚ := 1
  imageRatio : ℚ := 1
  /-- The values of the map, in the order in which it is walked. -/
  otherRatios : List ℚ := []
  usePrice : Bool := false
  groupRatio : ℚ := 1

/-- What a charge reads of a request; `channelType` is missing without channel data, and `builtInTools` are the
call counts of the responses API. -/
structure TextRelayInfo extends RelayFormats where
  originModelName : String := ""
  estimatePromptTokens : Int := 0
  priceData : TextPriceData := {}
  channelType : Option Int := none
  builtInTools : Option (String → Option Int) := none
  claudeWebSearchRequests : Int := 0
  /-- Quality and size of an image that was generated. -/
  imageGenerationCall : Option (String × String) := none

/-- The settings that a charge reads. -/
structure TextEnv where
  quotaPerUnit : ℚ
  getToolPriceForModel : String → String → ℚ
  getGPTImage1PriceOnceCall : String → String → ℚ
  getGeminiInputAudioPricePerMillionTokens : String → ℚ
  defaultModelRatio : String → Option ℚ

/-- `constant.ChannelTypeOpenRouter`. -/
def channelTypeOpenRouter : Int := 20

/-! ## Tools -/

/-- The tool calls of a request, with their prices and what they cost together. -/
structure ToolCalls where
  webSearchPrice : ℚ := 0
  webSearchCallCount : Int := 0
  claudeWebSearchPrice : ℚ := 0
  claudeWebSearchCallCount : Int := 0
  fileSearchPrice : ℚ := 0
  fileSearchCallCount : Int := 0
  imageGenerationCallPrice : ℚ := 0
  surcharge : ℚ := 0

/-- A tool of the responses API that was called. -/
def TextRelayInfo.toolCallCount (info : TextRelayInfo) (tool : String) : Option Int :=
  info.builtInTools.bind fun tools => (tools tool).filter (0 < ·)

/-- The quota of `count` calls at a price for a thousand. -/
def toolCallQuota (env : TextEnv) (info : TextRelayInfo) (price : ℚ) (count : Int) : ℚ :=
  price * count / 1000 * info.priceData.groupRatio * env.quotaPerUnit

namespace ToolCalls

/-- Web searches: those of the responses API, or one for a search model. -/
def addWebSearch (env : TextEnv) (info : TextRelayInfo) (calls : ToolCalls) : ToolCalls :=
  let price := env.getToolPriceForModel "web_search_preview" info.originModelName
  let add (count : Int) : ToolCalls := { calls with
    webSearchCallCount := count, webSearchPrice := price
    surcharge := calls.surcharge + toolCallQuota env info price count }
  if info.builtInTools.isSome then
    match info.toolCallCount "web_search_preview" with
    | some count => add count
    | none => calls
  else if info.originModelName.endsWith "search-preview" then add 1
  else calls

/-- Web searches of Claude. -/
def addClaudeWebSearch (env : TextEnv) (info : TextRelayInfo) (calls : ToolCalls) : ToolCalls :=
  let count := info.claudeWebSearchRequests
  let calls := { calls with claudeWebSearchCallCount := count }
  if 0 < count then
    let price := env.getToolPriceForModel "web_search" ""
    { calls with
      claudeWebSearchPrice := price, surcharge := calls.surcharge + toolCallQuota env info price count }
  else calls

/-- File searches of the responses API. -/
def addFileSearch (env : TextEnv) (info : TextRelayInfo) (calls : ToolCalls) : ToolCalls :=
  match info.toolCallCount "file_search" with
  | some count =>
    let price := env.getToolPriceForModel "file_search" ""
    { calls with
      fileSearchCallCount := count, fileSearchPrice := price
      surcharge := calls.surcharge + toolCallQuota env info price count }
  | none => calls

/-- An image that was generated. -/
def addImageGeneration (env : TextEnv) (info : TextRelayInfo) (calls : ToolCalls) : ToolCalls :=
  match info.imageGenerationCall with
  | some (quality, size) =>
    let price := env.getGPTImage1PriceOnceCall quality size
    { calls with
      imageGenerationCallPrice := price
      surcharge := calls.surcharge + price * info.priceData.groupRatio * env.quotaPerUnit }
  | none => calls

end ToolCalls

def calculateTextToolCallSurcharge (env : TextEnv) (info : TextRelayInfo) : ToolCalls :=
  let calls := ToolCalls.addWebSearch env info {}
  let calls := calls.addClaudeWebSearch env info
  let calls := calls.addFileSearch env info
  calls.addImageGeneration env info

/-! ## The summary -/

/-- `textQuotaSummary`, its ratios left in the price data. -/
structure TextQuotaSummary where
  promptTokens : Int
  completionTokens : Int
  totalTokens : Int
  cacheTokens : Int
  cacheCreationTokens : Int
  cacheCreationTokens5m : Int
  cacheCreationTokens1h : Int
  imageTokens : Int
  audioTokens : Int
  usageSemantic : String
  toolCalls : ToolCalls
  audioInputPrice : ℚ := 0
  quota : Int := 0

/-- `IsClaudeUsageSemantic`. -/
def TextQuotaSummary.isClaudeUsageSemantic (s : TextQuotaSummary) : Bool := s.usageSemantic = "anthropic"

def hasCustomModelRatio (env : TextEnv) (modelName : String) (currentRatio : ℚ) : Bool :=
  match env.defaultModelRatio modelName with
  | none => true
  | some defaultRatio => currentRatio ≠ defaultRatio

/-- A usage of Claude that was converted before usages named their semantic. -/
def isLegacyClaudeDerivedOpenAIUsage (info : RelayFormats) (usage : Usage) : Bool :=
  info.getFinalRequestRelayFormat ≠ .claude ∧ usage.usageSource = "" ∧ usage.usageSemantic = "" ∧
    (0 < usage.claudeCacheCreation5mTokens ∨ 0 < usage.claudeCacheCreation1hTokens)

/-- The cache writes that the cost reported by OpenRouter amounts to. -/
def calcOpenRouterCacheCreateTokens (env : TextEnv) (usage : Usage) (priceData : TextPriceData) : Int :=
  if priceData.cacheCreationRatio = 1 then 0 else
  let quotaPrice := priceData.modelRatio / env.quotaPerUnit
  let promptCacheCreatePrice := quotaPrice * priceData.cacheCreationRatio
  let promptCacheReadPrice := quotaPrice * priceData.cacheRatio
  let completionPrice := quotaPrice * priceData.completionRatio
  let cost := match usage.cost with
    | .number x => x
    | _ => 0
  roundHalfAway ((cost - usage.promptTokens * quotaPrice
    + usage.promptTokensDetails.cachedTokens * (quotaPrice - promptCacheReadPrice)
    - usage.completionTokens * completionPrice) / (promptCacheCreatePrice - quotaPrice))

/-- A request to Claude over OpenRouter. -/
def isOpenRouterClaudeBilling (info : TextRelayInfo) (usageSemantic : String) : Bool :=
  info.channelType = some channelTypeOpenRouter ∧ usageSemantic = "anthropic"

/-- The charge looks for cache writes in the cost that OpenRouter reports. -/
def estimatesCacheCreation (env : TextEnv) (info : TextRelayInfo) (usage : Usage) : Bool :=
  usage.promptTokensDetails.cachedCreationTokens = 0 ∧ info.priceData.cacheCreationRatio ≠ 1 ∧
    usage.cost ≠ .integer 0 ∧
    ¬ (info.priceData.usePrice = true ∨
      hasCustomModelRatio env info.originModelName info.priceData.modelRatio = true)

/-- The counts of the usage, before any of them is corrected. -/
def countTextUsage (env : TextEnv) (info : TextRelayInfo) (usage : Usage) (usageSemantic : String) :
    TextQuotaSummary where
  promptTokens := usage.promptTokens
  completionTokens := usage.completionTokens
  totalTokens := usage.promptTokens + usage.completionTokens
  cacheTokens := usage.promptTokensDetails.cachedTokens
  cacheCreationTokens := usage.promptTokensDetails.cachedCreationTokens
  cacheCreationTokens5m := usage.claudeCacheCreation5mTokens
  cacheCreationTokens1h := usage.claudeCacheCreation1hTokens
  imageTokens := usage.promptTokensDetails.imageTokens
  audioTokens := usage.promptTokensDetails.audioTokens
  usageSemantic
  toolCalls := calculateTextToolCallSurcharge env info

/-- OpenRouter reports the cache inside the prompt of Claude. -/
def correctOpenRouterClaude (env : TextEnv) (info : TextRelayInfo) (usage : Usage) (s : TextQuotaSummary) :
    TextQuotaSummary :=
  if isOpenRouterClaudeBilling info s.usageSemantic = false then s else
  let s := { s with promptTokens := s.promptTokens - s.cacheTokens }
  let s :=
    if estimatesCacheCreation env info usage then
      let maybeCacheCreationTokens := calcOpenRouterCacheCreateTokens env usage info.priceData
      if 0 ≤ maybeCacheCreationTokens ∧ maybeCacheCreationTokens ≤ s.promptTokens then
        { s with cacheCreationTokens := maybeCacheCreationTokens }
      else s
    else s
  { s with promptTokens := s.promptTokens - s.cacheCreationTokens }

/-! ## Charges -/

namespace TextQuotaSummary

/-- The price of the cache writes, and what they take off the prompt; `reported` says that they are counted
beside the prompt. -/
def cacheCreationCharge (priceData : TextPriceData) (reported : Bool) (s : TextQuotaSummary) : ℚ × ℚ :=
  if s.cacheCreationTokens = 0 ∧ ¬ (0 < s.cacheCreationTokens5m ∨ 0 < s.cacheCreationTokens1h) then (0, 0)
  else if reported = false then
    (s.cacheCreationTokens * priceData.cacheCreationRatio, s.cacheCreationTokens)
  else
    let remaining := max (s.cacheCreationTokens - s.cacheCreationTokens5m - s.cacheCreationTokens1h) 0
    (remaining * priceData.cacheCreationRatio + s.cacheCreationTokens5m * priceData.cacheCreation5mRatio
      + s.cacheCreationTokens1h * priceData.cacheCreation1hRatio, 0)

/-- The prompt in tokens at the model's own price: each category is taken off it and added at its ratio, but
for audio with a price, which is charged apart. -/
def promptQuota (priceData : TextPriceData) (reported : Bool) (audioInputPrice : ℚ) (s : TextQuotaSummary) : ℚ :=
  let baseTokens : ℚ := s.promptTokens
  let baseTokens := if s.cacheTokens ≠ 0 ∧ reported = false then baseTokens - s.cacheTokens else baseTokens
  let cachedTokensWithRatio : ℚ := s.cacheTokens * priceData.cacheRatio
  let (cachedCreationTokensWithRatio, creationTokens) := s.cacheCreationCharge priceData reported
  let baseTokens := baseTokens - creationTokens
  let baseTokens := if s.imageTokens ≠ 0 then baseTokens - s.imageTokens else baseTokens
  let imageTokensWithRatio : ℚ := s.imageTokens * priceData.imageRatio
  let baseTokens := if s.audioTokens ≠ 0 ∧ 0 < audioInputPrice then baseTokens - s.audioTokens else baseTokens
  baseTokens + cachedTokensWithRatio + imageTokensWithRatio + cachedCreationTokensWithRatio

/-- The charge of an amount, after the other ratios; a priced request costs at least one unit. -/
def ratioQuota (priceData : TextPriceData) (amount : ℚ) : Int :=
  let ratio := priceData.modelRatio * priceData.groupRatio
  let amount := priceData.otherRatios.foldl (· * ·) amount
  intPart (roundHalfAway (if ratio ≠ 0 ∧ amount ≤ 0 then 1 else amount))

/-- The charge at a fixed price. -/
def priceQuota (env : TextEnv) (priceData : TextPriceData) (surcharge : ℚ) : Int :=
  let amount := priceData.modelPrice * env.quotaPerUnit * priceData.groupRatio + surcharge
  intPart (roundHalfAway (priceData.otherRatios.foldl (· * ·) amount))

end TextQuotaSummary

/-- The price of audio input, looked up where there is any. -/
def audioInputPrice (env : TextEnv) (info : TextRelayInfo) (s : TextQuotaSummary) : ℚ :=
  if s.audioTokens ≠ 0 then env.getGeminiInputAudioPricePerMillionTokens info.originModelName else 0

/-- The audio input of a request that has a price for it, in quota. -/
def audioInputQuota (env : TextEnv) (info : TextRelayInfo) (audioInputPrice : ℚ) (s : TextQuotaSummary) : ℚ :=
  if s.audioTokens ≠ 0 ∧ 0 < audioInputPrice then
    audioInputPrice / 1000000 * s.audioTokens * info.priceData.groupRatio * env.quotaPerUnit
  else 0

/-- A request without tokens is free, any other costs at least one unit. -/
def finalTextQuota (priceData : TextPriceData) (totalTokens quota : Int) : Int :=
  if totalTokens = 0 then 0
  else if priceData.modelRatio * priceData.groupRatio ≠ 0 ∧ quota = 0 then 1
  else quota

/-- The usage of a request whose upstream told none. -/
def estimatedUsage (info : TextRelayInfo) : Usage := { promptTokens := info.estimatePromptTokens }

/-- The counts that a usage is charged by. -/
def textCounts (env : TextEnv) (info : TextRelayInfo) (usage? : Option Usage) : TextQuotaSummary :=
  let usage := usage?.getD (estimatedUsage info)
  correctOpenRouterClaude env info usage
    (countTextUsage env info usage (usageSemanticFromUsage info.toRelayFormats usage?))

/-- Cached tokens are reported beside the prompt. -/
def reportedApart (info : TextRelayInfo) (usage : Usage) (s : TextQuotaSummary) : Bool :=
  s.isClaudeUsageSemantic || isLegacyClaudeDerivedOpenAIUsage info.toRelayFormats usage

def calculateTextQuotaSummary (env : TextEnv) (info : TextRelayInfo) (usage? : Option Usage) :
    TextQuotaSummary :=
  let s := textCounts env info usage?
  if info.priceData.usePrice then
    let quota := TextQuotaSummary.priceQuota env info.priceData s.toolCalls.surcharge
    { s with quota := finalTextQuota info.priceData s.totalTokens quota }
  else
    let audioInputPrice := audioInputPrice env info s
    let promptQuota := s.promptQuota info.priceData
      (reportedApart info (usage?.getD (estimatedUsage info)) s) audioInputPrice
    let completionQuota := s.completionTokens * info.priceData.completionRatio
    let ratio := info.priceData.modelRatio * info.priceData.groupRatio
    let quota := TextQuotaSummary.ratioQuota info.priceData ((promptQuota + completionQuota) * ratio
      + s.toolCalls.surcharge + audioInputQuota env info audioInputPrice s)
    { s with audioInputPrice, quota := finalTextQuota info.priceData s.totalTokens quota }

/-! ## Completion tokens and the rest -/

/-- What the completion tokens of a ratio charge come to. -/
def completionPart (priceData : TextPriceData) (completionTokens : Int) : ℚ :=
  completionTokens * priceData.completionRatio * priceData.modelRatio * priceData.groupRatio

/-- What a ratio charge comes to without completion tokens: prompt, tools and audio input. -/
def restPart (env : TextEnv) (info : TextRelayInfo) (usage : Usage) : ℚ :=
  let s := textCounts env info (some usage)
  let audioInputPrice := audioInputPrice env info s
  s.promptQuota info.priceData (reportedApart info usage s) audioInputPrice
      * (info.priceData.modelRatio * info.priceData.groupRatio)
    + s.toolCalls.surcharge + audioInputQuota env info audioInputPrice s

/-- The amount of a ratio charge, before it is rounded. -/
def chargeAmount (env : TextEnv) (info : TextRelayInfo) (usage : Usage) : ℚ :=
  (completionPart info.priceData usage.completionTokens + restPart env info usage)
    * info.priceData.otherRatios.prod

theorem foldl_mul_eq (l : List ℚ) (a : ℚ) : l.foldl (· * ·) a = a * l.prod := by
  induction l generalizing a with
  | nil => simp
  | cons b l ih => rw [foldl_cons, ih, prod_cons, mul_assoc]

section Counts

variable (env : TextEnv) (info : TextRelayInfo) (usage : Usage)

theorem textCounts_completionTokens :
    (textCounts env info (some usage)).completionTokens = usage.completionTokens := by
  unfold textCounts correctOpenRouterClaude
  dsimp only [getD_some]
  repeat' split
  all_goals rfl

theorem textCounts_totalTokens :
    (textCounts env info (some usage)).totalTokens = usage.promptTokens + usage.completionTokens := by
  unfold textCounts correctOpenRouterClaude
  dsimp only [getD_some]
  repeat' split
  all_goals rfl

/-- A ratio charge is the rounded sum of its two parts. -/
theorem quota_eq (huse : info.priceData.usePrice = false) :
    (calculateTextQuotaSummary env info (some usage)).quota
      = finalTextQuota info.priceData (usage.promptTokens + usage.completionTokens)
        (intPart (roundHalfAway
          (if info.priceData.modelRatio * info.priceData.groupRatio ≠ 0 ∧ chargeAmount env info usage ≤ 0 then 1
            else chargeAmount env info usage))) := by
  have hamount : chargeAmount env info usage = info.priceData.otherRatios.foldl (· * ·)
      (((textCounts env info (some usage)).promptQuota info.priceData
          (reportedApart info usage (textCounts env info (some usage)))
          (audioInputPrice env info (textCounts env info (some usage)))
        + (textCounts env info (some usage)).completionTokens * info.priceData.completionRatio)
        * (info.priceData.modelRatio * info.priceData.groupRatio)
        + (textCounts env info (some usage)).toolCalls.surcharge
        + audioInputQuota env info (audioInputPrice env info (textCounts env info (some usage)))
          (textCounts env info (some usage))) := by
    rw [foldl_mul_eq, chargeAmount, completionPart, restPart, textCounts_completionTokens]
    congr 1
    ring
  rw [hamount, ← textCounts_totalTokens env info usage]
  unfold calculateTextQuotaSummary
  rw [huse]
  rfl

end Counts

/-! ## Rounding a charge -/

section Rounding

variable {priceData : TextPriceData} {total : Int} {amount : ℚ}

/-- What becomes of the amount of a charge. -/
def chargedQuota (priceData : TextPriceData) (total : Int) (amount : ℚ) : Int :=
  finalTextQuota priceData total (intPart (roundHalfAway
    (if priceData.modelRatio * priceData.groupRatio ≠ 0 ∧ amount ≤ 0 then 1 else amount)))

/-- A priced request with tokens costs its rounded amount, and one unit at least. -/
theorem chargedQuota_of_priced (hratio : priceData.modelRatio * priceData.groupRatio ≠ 0) (htotal : total ≠ 0)
    (hfits : roundHalfAway amount < 2 ^ 63) :
    chargedQuota priceData total amount = if amount ≤ 0 then 1 else max 1 (roundHalfAway amount) := by
  unfold chargedQuota finalTextQuota
  by_cases hle : amount ≤ 0
  · have hone : intPart (roundHalfAway 1) = 1 := by decide +kernel
    rw [if_pos (c := _ ∧ amount ≤ 0) ⟨hratio, hle⟩, hone, if_neg htotal, if_neg (by simp), if_pos hle]
  · have hnonneg := roundHalfAway_nonneg (not_le.mp hle).le
    rw [if_neg (c := _ ∧ amount ≤ 0) (fun h => hle h.2), intPart_intCast (by omega) hfits, if_neg
        htotal]
    split
    · next hzero => omega
    · next hne =>
      have : roundHalfAway amount ≠ 0 := fun h => hne ⟨hratio, h⟩
      omega

/-- A request without a ratio costs its rounded amount. -/
theorem chargedQuota_of_free (hratio : priceData.modelRatio * priceData.groupRatio = 0) (htotal : total ≠ 0)
    (hamount : 0 ≤ amount) (hfits : roundHalfAway amount < 2 ^ 63) :
    chargedQuota priceData total amount = roundHalfAway amount := by
  have hnonneg := roundHalfAway_nonneg hamount
  unfold chargedQuota finalTextQuota
  have hfree : ¬ (priceData.modelRatio * priceData.groupRatio ≠ 0 ∧ amount ≤ 0) := fun h => h.1 hratio
  rw [if_neg hfree, intPart_intCast (by omega) hfits, if_neg htotal, if_neg (fun h => h.1 hratio)]

theorem chargedQuota_zero : chargedQuota priceData 0 amount = 0 := by
  rw [chargedQuota, finalTextQuota, if_pos rfl]

/-- A charge is not negative, if nothing is charged below zero without a ratio. -/
theorem chargedQuota_nonneg
    (hamount : priceData.modelRatio * priceData.groupRatio = 0 → 0 ≤ amount)
    (hfits : roundHalfAway amount < 2 ^ 63) : 0 ≤ chargedQuota priceData total amount := by
  by_cases htotal : total = 0
  · rw [htotal, chargedQuota_zero]
  by_cases hratio : priceData.modelRatio * priceData.groupRatio = 0
  · rw [chargedQuota_of_free hratio htotal (hamount hratio) hfits]
    exact roundHalfAway_nonneg (hamount hratio)
  · rw [chargedQuota_of_priced hratio htotal hfits]
    split <;> omega

/-- A larger amount is never charged less. -/
theorem chargedQuota_mono {total' : Int} {amount' : ℚ} (htotal : total' = 0 → total = 0) (hle : amount ≤ amount')
    (hamount : priceData.modelRatio * priceData.groupRatio = 0 → 0 ≤ amount)
    (hfits : roundHalfAway amount < 2 ^ 63) (hfits' : roundHalfAway amount' < 2 ^ 63) :
    chargedQuota priceData total amount ≤ chargedQuota priceData total' amount' := by
  by_cases hzero : total = 0
  · rw [hzero]
    exact chargedQuota_nonneg (fun h => (hamount h).trans hle) hfits'
  have hzero' : total' ≠ 0 := fun h => hzero (htotal h)
  by_cases hratio : priceData.modelRatio * priceData.groupRatio = 0
  · rw [chargedQuota_of_free hratio hzero (hamount hratio) hfits,
      chargedQuota_of_free hratio hzero' ((hamount hratio).trans hle) hfits']
    exact roundHalfAway_le (hamount hratio) hle
  · rw [chargedQuota_of_priced hratio hzero hfits, chargedQuota_of_priced hratio hzero' hfits']
    by_cases h : amount ≤ 0
    · split <;> omega
    · have h' : ¬ amount' ≤ 0 := fun h' => h (hle.trans h')
      have hround := roundHalfAway_le (not_le.mp h).le hle
      rw [if_neg h']
      omega

end Rounding

/-! ## The completion part -/

/-- The ratios of a price are not negative. -/
structure TextPriceData.NonNegative (priceData : TextPriceData) : Prop where
  model : 0 ≤ priceData.modelRatio
  completion : 0 ≤ priceData.completionRatio
  group : 0 ≤ priceData.groupRatio
  other : ∀ r ∈ priceData.otherRatios, 0 ≤ r

/-- The prices of tools and audio are not negative, nor is the quota of a unit. -/
structure TextEnv.NonNegative (env : TextEnv) : Prop where
  quotaPerUnit : 0 ≤ env.quotaPerUnit
  tools : ∀ tool model, 0 ≤ env.getToolPriceForModel tool model
  images : ∀ quality size, 0 ≤ env.getGPTImage1PriceOnceCall quality size
  audio : ∀ model, 0 ≤ env.getGeminiInputAudioPricePerMillionTokens model

theorem prod_nonneg_of_forall {l : List ℚ} (h : ∀ r ∈ l, 0 ≤ r) : 0 ≤ l.prod := by
  induction l with
  | nil => simp
  | cons a l ih =>
    exact mul_nonneg (h a (by simp)) (ih fun r hr => h r (by simp [hr]))

section Parts

variable {env : TextEnv} {info : TextRelayInfo} {usage : Usage}

theorem toolCallCount_pos {tool : String} {count : Int} (h : info.toolCallCount tool = some count) : 0 < count := by
  obtain ⟨tools, -, h⟩ := bind_eq_some_iff.mp h
  exact of_decide_eq_true (filter_eq_some_iff.mp h).2

/-- Tool calls never lower a charge. -/
theorem surcharge_nonneg (info : TextRelayInfo) (henv : env.NonNegative) (hgroup : 0 ≤ info.priceData.groupRatio) :
    0 ≤ (calculateTextToolCallSurcharge env info).surcharge := by
  have hcall : ∀ tool model {count : Int}, 0 < count →
      0 ≤ toolCallQuota env info (env.getToolPriceForModel tool model) count := by
    intro tool model count hcount
    have hprice := henv.tools tool model
    have hunit := henv.quotaPerUnit
    unfold toolCallQuota
    positivity
  -- the calls are added one kind after the other
  have hweb : ∀ calls : ToolCalls, 0 ≤ calls.surcharge → 0 ≤ (calls.addWebSearch env info).surcharge := by
    intro calls hcalls
    unfold ToolCalls.addWebSearch
    split
    · split
      · next count hcount => exact add_nonneg hcalls (hcall _ _ (toolCallCount_pos hcount))
      · exact hcalls
    · split
      · exact add_nonneg hcalls (hcall _ _ (by decide))
      · exact hcalls
  have hclaude : ∀ calls : ToolCalls, 0 ≤ calls.surcharge →
      0 ≤ (calls.addClaudeWebSearch env info).surcharge := by
    intro calls hcalls
    unfold ToolCalls.addClaudeWebSearch
    dsimp only
    split
    · next hcount => exact add_nonneg hcalls (hcall _ _ hcount)
    · exact hcalls
  have hfile : ∀ calls : ToolCalls, 0 ≤ calls.surcharge → 0 ≤ (calls.addFileSearch env info).surcharge := by
    intro calls hcalls
    unfold ToolCalls.addFileSearch
    split
    · next count hcount => exact add_nonneg hcalls (hcall _ _ (toolCallCount_pos hcount))
    · exact hcalls
  have himage : ∀ calls : ToolCalls, 0 ≤ calls.surcharge →
      0 ≤ (calls.addImageGeneration env info).surcharge := by
    intro calls hcalls
    unfold ToolCalls.addImageGeneration
    split
    · next quality size _ =>
      exact add_nonneg hcalls (mul_nonneg (mul_nonneg (henv.images quality size) hgroup) henv.quotaPerUnit)
    · exact hcalls
  exact himage _ (hfile _ (hclaude _ (hweb _ le_rfl)))

/-- Audio input never lowers a charge. -/
theorem audioInputQuota_nonneg (info : TextRelayInfo) (henv : env.NonNegative)
    (hgroup : 0 ≤ info.priceData.groupRatio) {s : TextQuotaSummary} (haudio : 0 ≤ s.audioTokens) (price : ℚ) :
    0 ≤ audioInputQuota env info price s := by
  unfold audioInputQuota
  split
  · next h =>
    have hprice := h.2.le
    have hunit := henv.quotaPerUnit
    positivity
  · exact le_rfl

theorem textCounts_audioTokens :
    (textCounts env info (some usage)).audioTokens = usage.promptTokensDetails.audioTokens := by
  unfold textCounts correctOpenRouterClaude
  dsimp only [getD_some]
  repeat' split
  all_goals rfl

theorem textCounts_toolCalls :
    (textCounts env info (some usage)).toolCalls = calculateTextToolCallSurcharge env info := by
  unfold textCounts correctOpenRouterClaude
  dsimp only [getD_some]
  repeat' split
  all_goals rfl

/-- Without a ratio only tools and audio are charged. -/
theorem chargeAmount_nonneg_of_free (henv : env.NonNegative) (hprice : info.priceData.NonNegative)
    (haudio : 0 ≤ usage.promptTokensDetails.audioTokens)
    (hratio : info.priceData.modelRatio * info.priceData.groupRatio = 0) : 0 ≤ chargeAmount env info usage := by
  have hcompletion : completionPart info.priceData usage.completionTokens = 0 := by
    rw [completionPart, mul_assoc, hratio, mul_zero]
  have hsurcharge := surcharge_nonneg info henv hprice.group
  have haudio := audioInputQuota_nonneg info henv hprice.group
    (s := textCounts env info (some usage)) (by rw [textCounts_audioTokens]; exact haudio)
    (audioInputPrice env info (textCounts env info (some usage)))
  unfold chargeAmount restPart
  dsimp only
  rw [hratio, textCounts_toolCalls]
  have hprod := prod_nonneg_of_forall hprice.other
  refine mul_nonneg ?_ hprod
  linarith

/-- The cache writes of a request are taken from its cost. -/
def EstimatesFromCost (env : TextEnv) (info : TextRelayInfo) (usage : Usage) : Prop :=
  isOpenRouterClaudeBilling info (usageSemanticFromUsage info.toRelayFormats (some usage)) = true ∧
    estimatesCacheCreation env info usage = true

/-- Without an estimate the other counts do not depend on the completion tokens. -/
theorem textCounts_completion (c : Int) (hestimate : ¬ EstimatesFromCost env info usage) :
    textCounts env info (some { usage with completionTokens := c })
      = { textCounts env info (some usage) with
          completionTokens := c, totalTokens := usage.promptTokens + c } := by
  unfold textCounts correctOpenRouterClaude
  dsimp only [getD_some]
  have hsemantic : usageSemanticFromUsage info.toRelayFormats (some { usage with completionTokens := c })
      = usageSemanticFromUsage info.toRelayFormats (some usage) := rfl
  have hestimates : estimatesCacheCreation env info { usage with completionTokens := c }
      = estimatesCacheCreation env info usage := rfl
  rw [hsemantic, hestimates]
  by_cases hopen :
      isOpenRouterClaudeBilling info (usageSemanticFromUsage info.toRelayFormats (some usage)) = true
  · have hnone : ¬ estimatesCacheCreation env info usage = true := fun h => hestimate ⟨hopen, h⟩
    simp only [countTextUsage, hopen, hnone]
    rfl
  · simp only [countTextUsage, Bool.not_eq_true] at hopen ⊢
    simp [hopen]

/-- Without an estimate the rest of a charge does not depend on the completion tokens. -/
theorem restPart_completion (c : Int) (hestimate : ¬ EstimatesFromCost env info usage) :
    restPart env info { usage with completionTokens := c } = restPart env info usage := by
  unfold restPart
  rw [textCounts_completion c hestimate]
  rfl

end Parts

/-- What a ratio charge promises: it covers the completion part unless other ratios are applied, it is not
negative, and more completion tokens never cost less. -/
structure CoversCompletion (env : TextEnv) (info : TextRelayInfo) (usage : Usage) : Prop where
  completion : info.priceData.otherRatios = [] →
    roundHalfAway (completionPart info.priceData usage.completionTokens)
      ≤ (calculateTextQuotaSummary env info (some usage)).quota
  nonneg : 0 ≤ (calculateTextQuotaSummary env info (some usage)).quota

section Covers

variable {env : TextEnv} {info : TextRelayInfo} {usage : Usage}

theorem completionPart_nonneg {priceData : TextPriceData} (hprice : priceData.NonNegative) {c : Int} (hc : 0 ≤ c) :
    0 ≤ completionPart priceData c := by
  have := hprice.completion
  have := hprice.model
  have := hprice.group
  unfold completionPart
  positivity

theorem completionPart_mono {priceData : TextPriceData} (hprice : priceData.NonNegative) {c c' : Int}
    (h : c ≤ c') : completionPart priceData c ≤ completionPart priceData c' := by
  have := hprice.completion
  have := hprice.model
  have := hprice.group
  unfold completionPart
  gcongr

/-- A charge covers the completion part when what the rest takes off it is lost in rounding. -/
theorem completion_le_charged_iff {priceData : TextPriceData} {total : Int} {y rest : ℚ} (hy : 0 ≤ y)
    (hzero : total = 0 → y = 0)
    (hfree : priceData.modelRatio * priceData.groupRatio = 0 → y = 0 ∧ 0 ≤ rest)
    (hfits : roundHalfAway (y + rest) < 2 ^ 63) :
    roundHalfAway y ≤ chargedQuota priceData total (y + rest) ↔
      roundHalfAway y ≤ 1 ∨ roundHalfAway y - 1 / 2 ≤ y + rest := by
  have hround : roundHalfAway (0 : ℚ) = 0 := by decide +kernel
  by_cases htotal : total = 0
  · rw [hzero htotal, htotal, hround]
    exact iff_of_true le_rfl (.inl (by omega))
  by_cases hratio : priceData.modelRatio * priceData.groupRatio = 0
  · obtain ⟨rfl, hrest⟩ := hfree hratio
    rw [hround]
    refine iff_of_true (chargedQuota_nonneg (fun _ => ?_) hfits) (.inl (by omega))
    linarith
  · rw [chargedQuota_of_priced hratio htotal hfits]
    by_cases hle : y + rest ≤ 0
    · rw [if_pos hle]
      refine ⟨.inl, fun h => ?_⟩
      rcases h with hone | hhalf
      · exact hone
      · have hhalf : ((roundHalfAway y : Int) : ℚ) < (1 : Int) := by
          push_cast
          linarith
        exact (Int.cast_lt.mp hhalf).le
    · rw [if_neg hle, le_max_iff, le_roundHalfAway (not_le.mp hle).le]

end Covers

/-- A request whose model, output and cache writes have ratios of `10`, `1` and `13 / 10`. -/
def ratioRequest : TextRelayInfo where
  finalRequestRelayFormat := .claude
  originModelName := "model"
  priceData := { modelRatio := 10, cacheRatio := 1 / 10, cacheCreationRatio := 13 / 10, imageRatio := 1 / 2 }
  channelType := some channelTypeOpenRouter

/-- Settings without prices for tools and audio. -/
def ratioEnv : TextEnv where
  quotaPerUnit := 500000
  getToolPriceForModel := fun _ _ => 0
  getGPTImage1PriceOnceCall := fun _ _ => 0
  getGeminiInputAudioPricePerMillionTokens := fun _ => 0
  defaultModelRatio := fun _ => some 10

/-- A prompt of an image that was cached. -/
def cachedImageUsage : Usage where
  promptTokens := 100
  completionTokens := 100
  usageSemantic := "openai"
  promptTokensDetails := { cachedTokens := 100, imageTokens := 100 }

/-- A usage of OpenRouter with its cost. -/
def costUsage (completionTokens : Int) : Usage where
  promptTokens := 1000
  completionTokens := completionTokens
  cost := .number (13 / 500)

/-- A prompt without categories. -/
def plainUsage : Usage where
  promptTokens := 100
  completionTokens := 100
  usageSemantic := "openai"

end Prox
