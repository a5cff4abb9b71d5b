import Prox.Text.Summary

/-! # Settling a text request

The embedding of `TryTieredSettle` of `service/tiered_settle.go` and of `composeTieredTextQuota` and
`PostTextConsumeQuota` of `service/text_quota.go`. The charge is computed by the ratios or the price first and
replaced by that of the expression, if the request is tiered; the counters of used quota and the settlement
take it from there. The texts of the log are left out. An expression is what it makes of token counts. -/

namespace Prox

open Option

/-! ## Tiered billing -/

/-- `billingexpr.BillingSnapshot`: `runExpr` is the cost and the tier that the expression computes, if it can be
run, and `usedVars` are its variables. -/
structure BillingSnapshot where
  billingMode : String
  runExpr : TokenParams → Option (ℚ × String)
  usedVars : String → Bool
  groupRatio : ℚ
  estimatedQuotaAfterGroup : Int
  estimatedTier : String := ""
  quotaPerUnit : ℚ

/-- `billingexpr.TieredResult`. -/
structure TieredResult where
  actualQuotaBeforeGroup : ℚ
  actualQuotaAfterGroup : Int
  matchedTier : String
  crossedTier : Bool

/-- What settling a text request reads of it. -/
structure TextConsumeInfo extends TextRelayInfo where
  finalPreConsumedQuota : Int := 0
  tieredBillingSnapshot : Option BillingSnapshot := none

/-- `billingexpr.QuotaRound`. -/
def quotaRound (f : ℚ) : Int := roundHalfAway f

def computeTieredQuotaWithRequest (snap : BillingSnapshot) (params : TokenParams) : Option TieredResult :=
  (snap.runExpr params).map fun (cost, matchedTier) =>
    let quotaBeforeGroup := cost / 1000000 * snap.quotaPerUnit
    { actualQuotaBeforeGroup := quotaBeforeGroup
      actualQuotaAfterGroup := quotaRound (quotaBeforeGroup * snap.groupRatio)
      matchedTier, crossedTier := matchedTier ≠ snap.estimatedTier }

/-- The quota of a tiered request: that of the expression, or what was frozen if it cannot be run. -/
def tryTieredSettle (info : TextConsumeInfo) (params : TokenParams) : Option (Int × Option TieredResult) :=
  match info.tieredBillingSnapshot with
  | none => none
  | some snap =>
    if snap.billingMode ≠ "tiered_expr" then none else
    match computeTieredQuotaWithRequest snap params with
    | none => some (if info.finalPreConsumedQuota ≤ 0 then snap.estimatedQuotaAfterGroup
        else info.finalPreConsumedQuota, none)
    | some result => some (result.actualQuotaAfterGroup, some result)

/-- Tool calls are charged on top of the expression. -/
def composeTieredTextQuota (info : TextConsumeInfo) (surcharge : ℚ) (tieredQuota : Int)
    (tieredResult : Option TieredResult) : Int :=
  if surcharge = 0 then tieredQuota else
  match tieredResult, info.tieredBillingSnapshot with
  | some result, some snap =>
    intPart (roundHalfAway (result.actualQuotaBeforeGroup * snap.groupRatio + surcharge))
  | _, _ => tieredQuota + intPart (roundHalfAway surcharge)

/-! ## Settlement -/

/-- What `PostTextConsumeQuota` does with a charge: the quota that the counters of the user and of the channel
get, the quota that is settled, and whether the expression gave it. -/
structure TextConsumption where
  summary : TextQuotaSummary
  userUsedQuota : Int
  channelUsedQuota : Int
  settledQuota : Int
  tieredBillingApplied : Bool

/-- The charge of the expression for a usage, if the request is tiered. -/
def tieredTextQuota (env : TextEnv) (info : TextConsumeInfo) (usage : Usage) : Option Int :=
  let summary := calculateTextQuotaSummary env info.toTextRelayInfo (some usage)
  let tieredUsedVars := match info.tieredBillingSnapshot with
    | some snap => snap.usedVars
    | none => fun _ => false
  let params := buildTieredTokenParams usage summary.isClaudeUsageSemantic tieredUsedVars
  (tryTieredSettle info params).map fun (tieredQuota, tieredResult) =>
    composeTieredTextQuota info summary.toolCalls.surcharge tieredQuota tieredResult

def postTextConsumeQuota (env : TextEnv) (info : TextConsumeInfo) (usage? : Option Usage) : TextConsumption :=
  let summary := calculateTextQuotaSummary env info.toTextRelayInfo usage?
  let tiered := usage?.bind (tieredTextQuota env info)
  let summary := { summary with quota := tiered.getD summary.quota }
  let counted := if summary.totalTokens = 0 then 0 else summary.quota
  { summary, userUsedQuota := counted, channelUsedQuota := counted, settledQuota := summary.quota
    tieredBillingApplied := tiered.isSome }

/-! ## One quota -/

/-- The request is billed by an expression. -/
def TextConsumeInfo.Tiered (info : TextConsumeInfo) : Prop :=
  ∃ snap, info.tieredBillingSnapshot = some snap ∧ snap.billingMode = "tiered_expr"

/-- **One quota**: both counters get what is settled, and that is the charge of the expression for a tiered
request, and that of the ratios or the price for any other. -/
structure TextConsumption.OneQuota (c : TextConsumption) (env : TextEnv) (info : TextConsumeInfo)
    (usage? : Option Usage) : Prop where
  user : c.userUsedQuota = c.settledQuota
  channel : c.channelUsedQuota = c.settledQuota
  tiered : info.Tiered → c.tieredBillingApplied = true ∧
    ∀ usage, usage? = some usage → tieredTextQuota env info usage = some c.settledQuota
  ratio : ¬ info.Tiered → c.tieredBillingApplied = false ∧
    c.settledQuota = (calculateTextQuotaSummary env info.toTextRelayInfo usage?).quota

section OneQuota

variable {env : TextEnv} {info : TextConsumeInfo}

/-- A request is settled as a tiered one exactly when it is billed by an expression. -/
theorem tryTieredSettle_isSome (params : TokenParams) :
    (tryTieredSettle info params).isSome = true ↔ info.Tiered := by
  unfold tryTieredSettle TextConsumeInfo.Tiered
  cases hsnap : info.tieredBillingSnapshot with
  | none => simp
  | some snap =>
    by_cases hmode : snap.billingMode = "tiered_expr"
    · dsimp only
      rw [if_neg (not_not.mpr hmode)]
      refine iff_of_true ?_ ⟨snap, rfl, hmode⟩
      split <;> rfl
    · dsimp only
      rw [if_pos hmode]
      refine iff_of_false (by simp) fun ⟨snap', heq, hmode'⟩ => ?_
      cases heq
      exact hmode hmode'

theorem tieredTextQuota_isSome (env : TextEnv) (info : TextConsumeInfo) (usage : Usage) :
    (tieredTextQuota env info usage).isSome = true ↔ info.Tiered := by
  rw [tieredTextQuota, isSome_map]
  exact tryTieredSettle_isSome _

theorem calculateTextQuotaSummary_totalTokens (env : TextEnv) (info : TextRelayInfo) (usage? : Option Usage) :
    (calculateTextQuotaSummary env info usage?).totalTokens = (textCounts env info usage?).totalTokens := by
  unfold calculateTextQuotaSummary
  cases info.priceData.usePrice <;> rfl

/-- A request without tokens costs nothing by ratio or price. -/
theorem quota_eq_zero_of_totalTokens {env : TextEnv} {info : TextRelayInfo} {usage? : Option Usage}
    (h : (textCounts env info usage?).totalTokens = 0) :
    (calculateTextQuotaSummary env info usage?).quota = 0 := by
  unfold calculateTextQuotaSummary
  cases info.priceData.usePrice
  · exact if_pos h
  · exact if_pos h

/-- A tiered request with a usage settles what the expression charges, and counts it if there are tokens. -/
theorem postTextConsumeQuota_of_tiered {usage : Usage} {q : Int} (hq : tieredTextQuota env info usage = some q) :
    (postTextConsumeQuota env info (some usage)).settledQuota = q ∧
      (postTextConsumeQuota env info (some usage)).tieredBillingApplied = true ∧
      (postTextConsumeQuota env info (some usage)).userUsedQuota
        = (if usage.promptTokens + usage.completionTokens = 0 then 0 else q) ∧
      (postTextConsumeQuota env info (some usage)).channelUsedQuota
        = if usage.promptTokens + usage.completionTokens = 0 then 0 else q := by
  have hcounts := textCounts_totalTokens env info.toTextRelayInfo usage
  simp [postTextConsumeQuota, bind_some, hq, getD_some,
      calculateTextQuotaSummary_totalTokens, hcounts, and_self]

/-- Without a charge by the expression that of the ratios or the price is settled and counted. -/
theorem postTextConsumeQuota_of_ratio {usage? : Option Usage}
    (hnone : usage?.bind (tieredTextQuota env info) = none) :
    let c := postTextConsumeQuota env info usage?
    c.settledQuota = (calculateTextQuotaSummary env info.toTextRelayInfo usage?).quota ∧
      c.tieredBillingApplied = false ∧ c.userUsedQuota = c.settledQuota ∧ c.channelUsedQuota = c.settledQuota := by
  have hcounted : (if (textCounts env info.toTextRelayInfo usage?).totalTokens = 0 then 0
      else (calculateTextQuotaSummary env info.toTextRelayInfo usage?).quota)
      = (calculateTextQuotaSummary env info.toTextRelayInfo usage?).quota := by
    split
    · next hzero => exact (quota_eq_zero_of_totalTokens hzero).symm
    · rfl
  simp [postTextConsumeQuota, hnone, getD_none, calculateTextQuotaSummary_totalTokens,
      hcounted, and_self]

end OneQuota

/-- **A text request is charged one quota** exactly when it is not tiered, or has a usage whose charge by the
expression is nothing if it has no tokens. -/
theorem textConsume_oneQuota_iff (env : TextEnv) (info : TextConsumeInfo) (usage? : Option Usage) :
    (postTextConsumeQuota env info usage?).OneQuota env info usage? ↔
      ¬ info.Tiered ∨ ∃ usage, usage? = some usage ∧
        (usage.promptTokens + usage.completionTokens = 0 → tieredTextQuota env info usage = some 0) := by
  by_cases htiered : info.Tiered
  · cases usage? with
    | none =>
      -- the charge by ratio or price stays
      refine iff_of_false (fun h => ?_) fun h => ?_
      · exact absurd (h.tiered htiered).1 (by simp [postTextConsumeQuota])
      · rcases h with hnot | ⟨usage, husage, -⟩
        · exact hnot htiered
        · cases husage
    | some usage =>
      obtain ⟨q, hq⟩ := isSome_iff_exists.mp ((tieredTextQuota_isSome env info usage).mpr htiered)
      obtain ⟨hsettled, happlied, huser, hchannel⟩ := postTextConsumeQuota_of_tiered hq
      constructor
      · intro h
        refine .inr ⟨usage, rfl, fun hzero => ?_⟩
        have huser' := h.user
        rw [huser, hsettled, if_pos hzero] at huser'
        rw [hq, huser']
      · rintro (hnot | ⟨usage', heq, hfree⟩)
        · exact absurd htiered hnot
        · obtain rfl : usage = usage' := Option.some.inj heq
          have hcounted : (if usage.promptTokens + usage.completionTokens = 0 then 0 else q) = q := by
            split
            · next hzero =>
              rw [hq] at hfree
              exact (Option.some.inj (hfree hzero)).symm
            · rfl
          refine ⟨by rw [huser, hsettled, hcounted], by rw [hchannel, hsettled, hcounted],
            fun _ => ⟨happlied, fun u hu => ?_⟩, fun hnot => absurd htiered hnot⟩
          obtain rfl : usage = u := Option.some.inj hu
          rw [hq, hsettled]
  · refine iff_of_true ?_ (.inl htiered)
    have hnone : usage?.bind (tieredTextQuota env info) = none := by
      cases usage? with
      | none => rfl
      | some usage =>
        rw [← not_isSome_iff_eq_none]
        exact fun h => htiered ((tieredTextQuota_isSome env info usage).mp h)
    obtain ⟨hsettled, happlied, huser, hchannel⟩ := postTextConsumeQuota_of_ratio hnone
    exact ⟨huser, hchannel, fun h => absurd h htiered, fun _ => ⟨happlied, hsettled⟩⟩

/-- A request that an expression bills with seven units, whatever it used. -/
def constantRequest : TextConsumeInfo where
  toTextRelayInfo := { ratioRequest with estimatePromptTokens := 100 }
  tieredBillingSnapshot := some
    { billingMode := "tiered_expr"
      runExpr := fun _ => some (7 * 1000000, "base")
      usedVars := fun _ => false
      groupRatio := 1
      estimatedQuotaAfterGroup := 7
      quotaPerUnit := 1 }

/-- Without a usage the request is billed by its ratios, and without tokens the counters miss what is settled. -/
theorem textConsume_tiered_apart :
    (postTextConsumeQuota ratioEnv constantRequest none).settledQuota = 1000 ∧
    ¬ (postTextConsumeQuota ratioEnv constantRequest none).OneQuota ratioEnv constantRequest none ∧
    (postTextConsumeQuota ratioEnv constantRequest (some {})).settledQuota = 7 ∧
    (postTextConsumeQuota ratioEnv constantRequest (some {})).userUsedQuota = 0 ∧
    ¬ (postTextConsumeQuota ratioEnv constantRequest (some {})).OneQuota ratioEnv constantRequest (some {}) := by
  have hsettled : (postTextConsumeQuota ratioEnv constantRequest (some {})).settledQuota = 7 := by decide +kernel
  have huser : (postTextConsumeQuota ratioEnv constantRequest (some {})).userUsedQuota = 0 := by decide +kernel
  refine ⟨by decide +kernel, fun h => ?_, hsettled, huser, fun h => ?_⟩
  · have happlied := (h.tiered ⟨_, rfl, rfl⟩).1
    exact absurd happlied (by decide)
  · have hsame := h.user
    rw [hsettled, huser] at hsame
    exact absurd hsame (by decide)

end Prox
