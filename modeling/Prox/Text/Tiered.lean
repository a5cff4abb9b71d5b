import Prox.Lib.Decimal

/-! # Token counts of a tiered expression

The embedding of `usageSemanticFromUsage` of `service/text_quota.go` and of `BuildTieredTokenParams` of
`service/tiered_settle.go`. A usage reports cached, image and audio tokens as parts of `prompt_tokens`, or
beside `input_tokens`, as Claude does; the counts that an expression is evaluated with should come out the
same. The `float64` values are token counts, which `float64` represents exactly, and stand here as integers. -/

namespace Prox

/-! ## Usage -/

/-- `types.RelayFormat`; `unset` is the empty string. -/
inductive RelayFormat where
  | unset
  | openAI
  | claude
  | gemini
  | openAIResponses
  | openAIResponsesCompaction
  | openAIAudio
  | openAIImage
  | openAIRealtime
  | rerank
  | embedding
  | task
  | mjProxy
  deriving DecidableEq

/-- `dto.InputTokenDetails`. -/
structure InputTokenDetails where
  cachedTokens : Int := 0
  cachedCreationTokens : Int := 0
  audioTokens : Int := 0
  imageTokens : Int := 0

/-- `dto.OutputTokenDetails`. -/
structure OutputTokenDetails where
  audioTokens : Int := 0
  imageTokens : Int := 0

/-- The `cost` member of a usage, which may be any JSON value; `integer` is an untyped number of the code. -/
inductive UsageCost where
  | absent
  | number (x : ℚ)
  | integer (n : Int)
  | other
  deriving DecidableEq

/-- `dto.Usage`. -/
structure Usage where
  promptTokens : Int := 0
  completionTokens : Int := 0
  usageSemantic : String := ""
  usageSource : String := ""
  promptTokensDetails : InputTokenDetails := {}
  completionTokenDetails : OutputTokenDetails := {}
  claudeCacheCreation5mTokens : Int := 0
  claudeCacheCreation1hTokens : Int := 0
  cost : UsageCost := .absent

/-- The formats of a relayed request. -/
structure RelayFormats where
  relayFormat : RelayFormat := .openAI
  finalRequestRelayFormat : RelayFormat := .unset
  requestConversionChain : List RelayFormat := []

/-- The format of the request that went upstream. -/
def RelayFormats.getFinalRequestRelayFormat (info : RelayFormats) : RelayFormat :=
  if info.finalRequestRelayFormat ≠ .unset then info.finalRequestRelayFormat
  else info.requestConversionChain.getLast?.getD info.relayFormat

/-- The semantic of a usage: what it says itself, or else what the request format implies. -/
def usageSemanticFromUsage (info : RelayFormats) (usage : Option Usage) : String :=
  match usage with
  | some usage =>
    if usage.usageSemantic ≠ "" then usage.usageSemantic
    else if info.getFinalRequestRelayFormat = .claude then "anthropic" else "openai"
  | none => if info.getFinalRequestRelayFormat = .claude then "anthropic" else "openai"

/-! ## Parameters -/

/-- `billingexpr.TokenParams`. -/
structure TokenParams where
  p : Int
  c : Int
  len : Int
  cr : Int
  cc : Int
  cc1h : Int
  img : Int
  imgO : Int
  ai : Int
  ao : Int

/-- The counts of a usage for an expression with the variables `usedVars`. -/
def buildTieredTokenParams (usage : Usage) (isClaudeUsageSemantic : Bool) (usedVars : String → Bool) :
    TokenParams :=
  let p := usage.promptTokens
  let c := usage.completionTokens
  let cr := usage.promptTokensDetails.cachedTokens
  let (cc5m, cc1h) := if usage.usageSemantic = "anthropic" then
      (usage.claudeCacheCreation5mTokens, usage.claudeCacheCreation1hTokens)
    else (usage.promptTokensDetails.cachedCreationTokens, 0)
  let img := usage.promptTokensDetails.imageTokens
  let ai := usage.promptTokensDetails.audioTokens
  let imgO := usage.completionTokenDetails.imageTokens
  let ao := usage.completionTokenDetails.audioTokens
  let inputLen := if isClaudeUsageSemantic then p + cr + cc5m + cc1h else p
  let used (name : String) (n : Int) : Int := if usedVars name then n else 0
  -- only a total that includes its parts is reduced
  let (p, c) := if isClaudeUsageSemantic then (p, c) else
    (p - used "cr" cr - used "cc" cc5m - used "cc1h" cc1h - used "img" img - used "ai" ai,
      c - used "img_o" imgO - used "ao" ao)
  { p := max p 0, c := max c 0, len := inputLen, cr, cc := cc5m, cc1h, img, imgO, ai, ao }

/-! ## Each token is priced once -/

/-- The count of a variable that the expression has. -/
def priced (usedVars : String → Bool) (name : String) (n : Int) : Int := if usedVars name then n else 0

/-- The count of a variable that the expression lacks. -/
def unpriced (usedVars : String → Bool) (name : String) (n : Int) : Int := if usedVars name then 0 else n

theorem priced_add_unpriced (usedVars : String → Bool) (name : String) (n : Int) :
    priced usedVars name n + unpriced usedVars name n = n := by
  unfold priced unpriced
  split <;> omega

theorem priced_mem_Icc (usedVars : String → Bool) (name : String) {n : Int} (hn : 0 ≤ n) :
    0 ≤ priced usedVars name n ∧ priced usedVars name n ≤ n := by
  unfold priced
  split <;> omega

namespace Usage

/-- All input tokens of a usage: Claude reports the cached ones and the cache writes beside the others. -/
def inputTokens (usage : Usage) (isClaudeUsageSemantic : Bool) : Int :=
  if isClaudeUsageSemantic then usage.promptTokens + usage.promptTokensDetails.cachedTokens
    + usage.promptTokensDetails.cachedCreationTokens
  else usage.promptTokens

/-- Counts are not negative. -/
structure Counts (usage : Usage) : Prop where
  prompt : 0 ≤ usage.promptTokens
  completion : 0 ≤ usage.completionTokens
  cached : 0 ≤ usage.promptTokensDetails.cachedTokens
  cachedCreation : 0 ≤ usage.promptTokensDetails.cachedCreationTokens
  image : 0 ≤ usage.promptTokensDetails.imageTokens
  audio : 0 ≤ usage.promptTokensDetails.audioTokens
  outputImage : 0 ≤ usage.completionTokenDetails.imageTokens
  outputAudio : 0 ≤ usage.completionTokenDetails.audioTokens
  creation5m : 0 ≤ usage.claudeCacheCreation5mTokens
  creation1h : 0 ≤ usage.claudeCacheCreation1hTokens

/-- The categories of a usage are consistent: disjoint parts of the totals, and for Claude the cache writes
beside `input_tokens` are at least their known parts. -/
structure Consistent (usage : Usage) (isClaudeUsageSemantic : Bool) : Prop extends usage.Counts where
  output : usage.completionTokenDetails.imageTokens + usage.completionTokenDetails.audioTokens
    ≤ usage.completionTokens
  parts : isClaudeUsageSemantic = false →
    usage.promptTokensDetails.cachedTokens + usage.promptTokensDetails.cachedCreationTokens
      + usage.promptTokensDetails.imageTokens + usage.promptTokensDetails.audioTokens ≤ usage.promptTokens
  split : isClaudeUsageSemantic = true →
    usage.claudeCacheCreation5mTokens + usage.claudeCacheCreation1hTokens
      ≤ usage.promptTokensDetails.cachedCreationTokens

/-- The cache writes that an expression lacks a variable for. -/
def unpricedCreation (usage : Usage) (usedVars : String → Bool) : Int :=
  if usage.usageSemantic = "anthropic" then
    unpriced usedVars "cc" usage.claudeCacheCreation5mTokens
      + unpriced usedVars "cc1h" usage.claudeCacheCreation1hTokens
  else unpriced usedVars "cc" usage.promptTokensDetails.cachedCreationTokens

end Usage

/-- Each of the `n` input and `m` output tokens is counted by exactly one of the variables of the expression,
and the length is that of the whole input. -/
structure TokenParams.PricedOnce (params : TokenParams) (usedVars : String → Bool) (n m : Int) : Prop where
  input : params.p + priced usedVars "cr" params.cr + priced usedVars "cc" params.cc
    + priced usedVars "cc1h" params.cc1h + priced usedVars "img" params.img + priced usedVars "ai" params.ai = n
  len : params.len = n
  output : params.c + priced usedVars "img_o" params.imgO + priced usedVars "ao" params.ao = m

section PricedOnce

variable {usage : Usage} {usedVars : String → Bool}

/-- The counts of a usage whose totals include their parts. -/
theorem buildTieredTokenParams_openAI (hsemantic : usage.usageSemantic ≠ "anthropic") :
    buildTieredTokenParams usage false usedVars =
      { p := max (usage.promptTokens - priced usedVars "cr" usage.promptTokensDetails.cachedTokens
          - priced usedVars "cc" usage.promptTokensDetails.cachedCreationTokens - priced usedVars "cc1h" 0
          - priced usedVars "img" usage.promptTokensDetails.imageTokens
          - priced usedVars "ai" usage.promptTokensDetails.audioTokens) 0
        c := max (usage.completionTokens - priced usedVars "img_o" usage.completionTokenDetails.imageTokens
          - priced usedVars "ao" usage.completionTokenDetails.audioTokens) 0
        len := usage.promptTokens
        cr := usage.promptTokensDetails.cachedTokens
        cc := usage.promptTokensDetails.cachedCreationTokens
        cc1h := 0
        img := usage.promptTokensDetails.imageTokens
        imgO := usage.completionTokenDetails.imageTokens
        ai := usage.promptTokensDetails.audioTokens
        ao := usage.completionTokenDetails.audioTokens } := by
  simp only [buildTieredTokenParams, if_neg hsemantic, Bool.false_eq_true, if_false]
  rfl

/-- Totals that include their parts are priced once, whatever variables the expression has. -/
theorem pricedOnce_of_openAI (h : usage.Consistent false) (hsemantic : usage.usageSemantic ≠ "anthropic") :
    (buildTieredTokenParams usage false usedVars).PricedOnce usedVars usage.promptTokens
      usage.completionTokens := by
  rw [buildTieredTokenParams_openAI hsemantic]
  have hcr := priced_mem_Icc usedVars "cr" h.cached
  have hcc := priced_mem_Icc usedVars "cc" h.cachedCreation
  have hcc1h := priced_mem_Icc usedVars "cc1h" (le_refl 0)
  have himg := priced_mem_Icc usedVars "img" h.image
  have hai := priced_mem_Icc usedVars "ai" h.audio
  have himgO := priced_mem_Icc usedVars "img_o" h.outputImage
  have hao := priced_mem_Icc usedVars "ao" h.outputAudio
  have hparts := h.parts rfl
  have houtput := h.output
  constructor
  · -- the parts leave something of the total
    dsimp only
    omega
  · rfl
  · dsimp only
    omega

/-- The counts that Claude reports beside each other are priced once when none of them is left out and none
is counted twice. -/
theorem pricedOnce_iff_of_claude (h : usage.Consistent true) :
    (buildTieredTokenParams usage true usedVars).PricedOnce usedVars (usage.inputTokens true)
        usage.completionTokens ↔
      (usage.usageSemantic = "anthropic" → usage.promptTokensDetails.cachedCreationTokens
        = usage.claudeCacheCreation5mTokens + usage.claudeCacheCreation1hTokens) ∧
      unpriced usedVars "cr" usage.promptTokensDetails.cachedTokens + usage.unpricedCreation usedVars
        = priced usedVars "img" usage.promptTokensDetails.imageTokens
          + priced usedVars "ai" usage.promptTokensDetails.audioTokens ∧
      priced usedVars "img_o" usage.completionTokenDetails.imageTokens = 0 ∧
      priced usedVars "ao" usage.completionTokenDetails.audioTokens = 0 := by
  have hprompt := max_eq_left h.prompt
  have hcompletion := max_eq_left h.completion
  have himgO := priced_mem_Icc usedVars "img_o" h.outputImage
  have hao := priced_mem_Icc usedVars "ao" h.outputAudio
  have hcr := priced_add_unpriced usedVars "cr" usage.promptTokensDetails.cachedTokens
  have hcc := priced_add_unpriced usedVars "cc" usage.promptTokensDetails.cachedCreationTokens
  have hcc5m := priced_add_unpriced usedVars "cc" usage.claudeCacheCreation5mTokens
  have hcc1h := priced_add_unpriced usedVars "cc1h" usage.claudeCacheCreation1hTokens
  have hnone : priced usedVars "cc1h" 0 = 0 := by
    unfold priced
    split <;> rfl
  by_cases hsemantic : usage.usageSemantic = "anthropic"
  · simp only [buildTieredTokenParams, hsemantic, if_true, hprompt, hcompletion, Usage.inputTokens,
      Usage.unpricedCreation]
    constructor
    · rintro ⟨hinput, hlen, houtput⟩
      dsimp only at hinput hlen houtput
      omega
    · rintro ⟨htotal, hinput, himage, haudio⟩
      have htotal := htotal trivial
      constructor <;> dsimp only <;> omega
  · simp only [buildTieredTokenParams, hsemantic, if_true, if_false, hprompt, hcompletion, Usage.inputTokens,
      Usage.unpricedCreation]
    constructor
    · rintro ⟨hinput, -, houtput⟩
      dsimp only at hinput houtput
      refine ⟨fun h => h.elim, ?_⟩
      omega
    · rintro ⟨-, hinput, himage, haudio⟩
      constructor <;> dsimp only <;> omega

end PricedOnce

/-- **Every input token is priced once** exactly for usages with the totals of OpenAI, and for those of Claude
whose cache writes are all split, whose counts without a variable of their own amount to the input images and
audio with one, and that have no output images and audio priced apart. -/
theorem tieredParams_pricedOnce_iff (info : RelayFormats) (usage : Usage) (usedVars : String → Bool)
    (h : usage.Consistent (usageSemanticFromUsage info (some usage) = "anthropic")) :
    (buildTieredTokenParams usage (usageSemanticFromUsage info (some usage) = "anthropic")
        usedVars).PricedOnce usedVars
        (usage.inputTokens (usageSemanticFromUsage info (some usage) = "anthropic")) usage.completionTokens ↔
      usageSemanticFromUsage info (some usage) ≠ "anthropic" ∨
      (usage.usageSemantic = "anthropic" → usage.promptTokensDetails.cachedCreationTokens
        = usage.claudeCacheCreation5mTokens + usage.claudeCacheCreation1hTokens) ∧
      unpriced usedVars "cr" usage.promptTokensDetails.cachedTokens + usage.unpricedCreation usedVars
        = priced usedVars "img" usage.promptTokensDetails.imageTokens
          + priced usedVars "ai" usage.promptTokensDetails.audioTokens ∧
      priced usedVars "img_o" usage.completionTokenDetails.imageTokens = 0 ∧
      priced usedVars "ao" usage.completionTokenDetails.audioTokens = 0 := by
  by_cases hclaude : usageSemanticFromUsage info (some usage) = "anthropic"
  · rw [decide_eq_true hclaude] at h ⊢
    rw [pricedOnce_iff_of_claude h]
    exact ⟨.inr, fun hcases => hcases.resolve_left fun hne => hne hclaude⟩
  · rw [decide_eq_false hclaude] at h ⊢
    have hsemantic : usage.usageSemantic ≠ "anthropic" := by
      -- what the usage says itself comes first
      intro heq
      apply hclaude
      simp [usageSemanticFromUsage, heq]
    exact iff_of_true (pricedOnce_of_openAI h hsemantic) (.inl hclaude)

/-- A usage of Claude with cache writes whose split is unknown. -/
def unsplitUsage : Usage where
  promptTokens := 100
  completionTokens := 10
  usageSemantic := "anthropic"
  promptTokensDetails := { cachedTokens := 20, cachedCreationTokens := 30 }

/-- A usage with the same tokens inside `prompt_tokens`. -/
def openAIUsage : Usage where
  promptTokens := 150
  completionTokens := 10
  promptTokensDetails := { cachedTokens := 20, cachedCreationTokens := 30 }

/-- An expression with a variable for each category. -/
def allVars : String → Bool := fun _ => true

theorem tieredParams_pricedOnce_openAI :
    (buildTieredTokenParams openAIUsage false allVars).PricedOnce allVars 150 10 := by
  have hconsistent : openAIUsage.Consistent (usageSemanticFromUsage {} (some openAIUsage) = "anthropic") :=
    ⟨⟨by decide, by decide, by decide, by decide, by decide, by decide, by decide, by decide, by decide,
      by decide⟩, by decide, fun _ => by decide, fun h => absurd h (by decide)⟩
  exact (tieredParams_pricedOnce_iff {} openAIUsage allVars hconsistent).mpr (.inl (by decide))

/-- The cache writes of Claude are free when their split is unknown. -/
theorem tieredParams_unsplit_free :
    unsplitUsage.Consistent (usageSemanticFromUsage {} (some unsplitUsage) = "anthropic") ∧
    unsplitUsage.inputTokens true = 150 ∧
    (buildTieredTokenParams unsplitUsage true allVars).len = 120 ∧
    ¬ (buildTieredTokenParams unsplitUsage (usageSemanticFromUsage {} (some unsplitUsage) = "anthropic")
      allVars).PricedOnce allVars
      (unsplitUsage.inputTokens (usageSemanticFromUsage {} (some unsplitUsage) = "anthropic"))
      unsplitUsage.completionTokens := by
  refine ⟨⟨⟨by decide, by decide, by decide, by decide, by decide, by decide, by decide, by decide, by decide,
    by decide⟩, by decide, fun h => absurd h (by decide), fun _ => by decide⟩, by decide, by decide, fun h => ?_⟩
  exact absurd h.len (by decide)

end Prox
