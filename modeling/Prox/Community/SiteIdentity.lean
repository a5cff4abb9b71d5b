import Mathlib.Data.List.Infix
import Mathlib.Logic.Function.Iterate
import Prox.Lib.Go

/-! # The identity of a site

The embedding of `CanonicalSiteID` in `model/site_identity.go`. A candidate is either an address, of which a
label of the host counts, or a text, of which the letters, the digits, `-` and `_` count. The main result says
when a canonical id is canonical again. -/

namespace Prox

open List

/-! ## Candidates -/

/-- The classes of characters of the package `unicode`. -/
structure CharClasses where
  isLetter : Char → Bool
  isDigit : Char → Bool
  toLower : Char → Char
  toLower_toLower : ∀ c, toLower (toLower c) = toLower c
  toLower_of_isLower : ∀ c, c.isLower = true → toLower c = c
  isLetter_of_isLower : ∀ c, c.isLower = true → isLetter c = true
  not_isSpace : ∀ c, (isLetter c || isDigit c) = true → isSpace c = false
  not_slash : (isLetter '/' || isDigit '/') = false
  slash_of_toLower : ∀ c, toLower c = '/' → c = '/'

/-- What the identity of a site depends on besides a text: the classes of characters, the parser of addresses,
the variables of the environment and the settings of the agent. -/
structure SiteEnv extends CharClasses where
  /-- `url.Parse` and `Hostname`: an address may be malformed, and a host has no slash. -/
  hostname : String → Option { host : String // '/' ∉ host.toList }
  communitySiteID : String
  siteID : String
  agentSiteID : String
  /-- `SiteID`, `APIBaseURL` and `PublicBaseURL`. -/
  agentSetting : Option (String × String × String)

def ignoredSiteIDHostLabels : List String :=
  ["", "www", "api", "ai", "app", "web", "admin", "console", "panel"]

namespace SiteEnv

variable (env : SiteEnv)

/-- `strings.ToLower`. -/
def lower (s : String) : String := String.ofList (s.toList.map env.toLower)

/-- The characters of an id. -/
def isSiteChar (c : Char) : Bool := env.isLetter c || env.isDigit c || c = '-' || c = '_'

/-- The characters that an id neither begins nor ends with. -/
def isEdge (c : Char) : Bool := c = '-' || c = '_'

/-- The characters of an id in a text, without those at its edges. -/
def cleaned (raw : String) : String :=
  String.ofList ((((raw.toList.filter env.isSiteChar).map env.toLower).dropWhile isEdge).rdropWhile isEdge)

/-- The labels of a host that are not common ones. -/
def hostLabels (host : String) : List String :=
  ((splitOn '.' host).map fun part => trimSpace (env.lower part)).filter fun part =>
    part ∉ ignoredSiteIDHostLabels ∧ 2 < byteLen part

/-- `inferSiteIDFromURL`: the first of these labels of which anything is left. -/
def inferSiteIDFromURL (sanitize : String → String) (raw : String) : String :=
  let raw := trimSpace raw
  if raw = "" then ""
  else
    match env.hostname (if containsText raw "://" then raw else "https://" ++ raw) with
    | none => ""
    | some host =>
      let host := trimSpace (env.lower host)
      if host = "" then "" else (((env.hostLabels host).map sanitize).find? (· ≠ "")).getD ""

/-- `sanitizeSiteIDCandidate`, with the depth of the recursion: the labels of a host are no addresses. -/
def sanitizeSiteIDCandidate : Nat → String → String
  | 0, _ => ""
  | depth + 1, raw =>
    let raw := trimSpace (env.lower raw)
    if raw = "" ∨ raw = "default" then ""
    else
      let inferred :=
        if containsText raw "://" ∨ containsText raw "/" then
          env.inferSiteIDFromURL (sanitizeSiteIDCandidate depth) raw
        else ""
      if inferred ≠ "" then inferred else env.cleaned raw

/-- The other candidates. -/
def fallbacks : List String :=
  [trimSpace env.communitySiteID, trimSpace env.siteID, trimSpace env.agentSiteID] ++
    match env.agentSetting with
    | none => []
    | some (siteID, apiBaseURL, publicBaseURL) => [trimSpace siteID, trimSpace apiBaseURL, trimSpace publicBaseURL]

/-- `CanonicalSiteID`. -/
def canonicalSiteID (explicit : String) : String :=
  (((explicit :: env.fallbacks).map (env.sanitizeSiteIDCandidate 2)).find? (· ≠ "")).getD "default"

/-! ## Depth -/

theorem sanitize_succ (depth : Nat) (raw : String) :
    env.sanitizeSiteIDCandidate (depth + 1) raw =
      if trimSpace (env.lower raw) = "" ∨ trimSpace (env.lower raw) = "default" then ""
      else
        let inferred :=
          if containsText (trimSpace (env.lower raw)) "://" ∨ containsText (trimSpace (env.lower raw)) "/" then
            env.inferSiteIDFromURL (env.sanitizeSiteIDCandidate depth) (trimSpace (env.lower raw))
          else ""
        if inferred ≠ "" then inferred else env.cleaned (trimSpace (env.lower raw)) := rfl

variable {env}

theorem notMem_trimSpace {c : Char} {s : String} (h : c ∉ s.toList) : c ∉ (trimSpace s).toList := by
  rw [trimSpace, String.toList_ofList]
  exact fun hc => h ((dropWhile_suffix _).subset (( rdropWhile_prefix _ _).subset hc))

theorem notMem_lower {s : String} (h : '/' ∉ s.toList) : '/' ∉ (env.lower s).toList := by
  rw [lower, String.toList_ofList]
  intro hc
  obtain ⟨c, hmem, hlower⟩ := mem_map.mp hc
  exact h (env.slash_of_toLower c hlower ▸ hmem)

theorem containsText_eq_false {s t : String} {c : Char} (ht : c ∈ t.toList) (h : c ∉ s.toList) :
    containsText s t = false := by
  rw [containsText, any_eq_false]
  intro u hu hpre
  exact h (((mem_tails _ _).mp hu).subset (( isPrefixOf_iff_prefix.mp hpre).subset ht))

/-- The parts of a text have its characters. -/
theorem subset_of_mem_splitChars {sep : Char} {cs : List Char} : ∀ part ∈ splitChars sep cs, part ⊆ cs := by
  induction cs with
  | nil => simp [splitChars]
  | cons c cs ih =>
    intro part hpart
    rw [splitChars] at hpart
    split at hpart
    · rcases mem_cons.mp hpart with rfl | hpart
      · exact nil_subset _
      · exact List.Subset.trans (ih part hpart) (subset_cons_self c cs)
    · split at hpart
      next => simp [mem_singleton.mp hpart]
      next first rest hcons =>
        rw [hcons] at ih
        rcases mem_cons.mp hpart with rfl | hpart
        · exact cons_subset_cons c (ih first mem_cons_self)
        · exact List.Subset.trans (ih part (mem_cons_of_mem _ hpart)) (subset_cons_self c cs)

/-- A text without a slash is no address. -/
theorem sanitize_of_noSlash {raw : String} (h : '/' ∉ raw.toList) (depth : Nat) :
    env.sanitizeSiteIDCandidate (depth + 1) raw =
      if trimSpace (env.lower raw) = "" ∨ trimSpace (env.lower raw) = "default" then ""
      else env.cleaned (trimSpace (env.lower raw)) := by
  have hno : '/' ∉ (trimSpace (env.lower raw)).toList := notMem_trimSpace (notMem_lower h)
  rw [sanitizeSiteIDCandidate]
  simp [containsText_eq_false (t := "://") (by decide) hno, containsText_eq_false (t := "/") (by decide) hno]

theorem noSlash_of_mem_hostLabels {host : String} (h : '/' ∉ host.toList) :
    ∀ part ∈ env.hostLabels host, '/' ∉ part.toList := by
  intro part hpart
  obtain ⟨label, hlabel, rfl⟩ := mem_map.mp (mem_filter.mp hpart).1
  obtain ⟨cs, hcs, rfl⟩ := mem_map.mp hlabel
  refine notMem_trimSpace (notMem_lower fun hslash => h ?_)
  rw [String.toList_ofList] at hslash
  exact subset_of_mem_splitChars cs hcs hslash

theorem infer_congr {f g : String → String} (h : ∀ part, '/' ∉ part.toList → f part = g part) (raw : String) :
    env.inferSiteIDFromURL f raw = env.inferSiteIDFromURL g raw := by
  unfold inferSiteIDFromURL
  dsimp only
  cases env.hostname (if containsText (trimSpace raw) "://" then trimSpace raw else "https://" ++ trimSpace raw) with
  | none => rfl
  | some host =>
    dsimp only
    have hlabels : ∀ part ∈ env.hostLabels (trimSpace (env.lower host)), '/' ∉ part.toList :=
      noSlash_of_mem_hostLabels (notMem_trimSpace (notMem_lower host.2))
    rw [map_congr_left fun part hpart => h part (hlabels part hpart)]

/-- An id: not empty, of the characters of an id, and without `-` and `_` at its edges. -/
structure IsSiteID (env : SiteEnv) (s : String) : Prop where
  nonempty : s ≠ ""
  chars : ∀ c ∈ s.toList, env.isSiteChar c = true ∧ env.toLower c = c
  first : ∀ _ : 0 < s.toList.length, ¬ isEdge s.toList[0] = true
  last : ∀ h : s.toList ≠ [], ¬ isEdge (s.toList.getLast h) = true

theorem cleaned_spec {raw : String} (hlower : ∀ c ∈ raw.toList, env.toLower c = c) :
    env.cleaned raw = "" ∨ IsSiteID env (env.cleaned raw) := by
  refine or_iff_not_imp_left.mpr fun hne => ⟨hne, ?_, ?_, ?_⟩
  all_goals rw [cleaned, String.toList_ofList]
  · intro c hc
    obtain ⟨c, hmem, rfl⟩ := mem_map.mp ((dropWhile_suffix _).subset (( rdropWhile_prefix _ _).subset hc))
    obtain ⟨hmem, hsite⟩ := mem_filter.mp hmem
    rw [hlower c hmem]
    exact ⟨hsite, hlower c hmem⟩
  · exact dropWhile_eq_self_iff.mp (dropWhile_rdropWhile_dropWhile _ _)
  · exact rdropWhile_eq_self_iff.mp (rdropWhile_idempotent _ _)

theorem toLower_of_mem_trimSpace_lower {raw : String} : ∀ c ∈ (trimSpace (env.lower raw)).toList, env.toLower c = c := by
  intro c hc
  by_contra hne
  refine notMem_trimSpace (fun hmem => ?_) hc
  rw [lower, String.toList_ofList] at hmem
  obtain ⟨c, -, rfl⟩ := mem_map.mp hmem
  exact hne (env.toLower_toLower c)

theorem find?_getD_cases {l : List String} {p : String → Prop} (h : ∀ s ∈ l, s = "" ∨ p s) (d : String) :
    (l.find? (· ≠ "")).getD d = d ∨ p ((l.find? (· ≠ "")).getD d) := by
  cases hfind : l.find? (· ≠ "") with
  | none => exact .inl rfl
  | some s => exact .inr ((h s (mem_of_find?_eq_some hfind)).resolve_left (by simpa using find?_some hfind))

theorem infer_spec {f : String → String} (h : ∀ part, f part = "" ∨ IsSiteID env (f part)) (raw : String) :
    env.inferSiteIDFromURL f raw = "" ∨ IsSiteID env (env.inferSiteIDFromURL f raw) := by
  unfold inferSiteIDFromURL
  dsimp only
  split
  · exact .inl rfl
  · split
    · exact .inl rfl
    · split
      · exact .inl rfl
      · exact find?_getD_cases (forall_mem_map.mpr fun _ _ => h _) ""

theorem sanitize_spec (depth : Nat) :
    ∀ raw, env.sanitizeSiteIDCandidate depth raw = "" ∨ IsSiteID env (env.sanitizeSiteIDCandidate depth raw) := by
  induction depth with
  | zero => exact fun _ => .inl rfl
  | succ depth ih =>
    intro raw
    have hinferred : (if containsText (trimSpace (env.lower raw)) "://" ∨ containsText (trimSpace (env.lower raw)) "/"
          then env.inferSiteIDFromURL (env.sanitizeSiteIDCandidate depth) (trimSpace (env.lower raw)) else "") = "" ∨
        IsSiteID env (if containsText (trimSpace (env.lower raw)) "://" ∨ containsText (trimSpace (env.lower raw)) "/"
          then env.inferSiteIDFromURL (env.sanitizeSiteIDCandidate depth) (trimSpace (env.lower raw)) else "") := by
      split
      · exact infer_spec ih _
      · exact .inl rfl
    rw [sanitize_succ]
    dsimp only
    split
    · exact .inl rfl
    · rcases hinferred with hnone | hsome
      · rw [if_neg (not_not_intro hnone)]
        exact cleaned_spec toLower_of_mem_trimSpace_lower
      · rw [if_pos hsome.nonempty]
        exact .inr hsome

/-- An id other than `default` is a candidate that stays as it is. -/
theorem sanitize_of_isSiteID {s : String} (h : IsSiteID env s) (depth : Nat) :
    env.sanitizeSiteIDCandidate (depth + 1) s = if s = "default" then "" else s := by
  have hspace : ∀ c ∈ s.toList, isSpace c = false := by
    intro c hc
    have hsite := (h.chars c hc).1
    unfold isSiteChar at hsite
    simp only [Bool.or_eq_true, decide_eq_true_eq] at hsite
    rcases hsite with (hclass | rfl) | rfl
    · exact env.not_isSpace c (by simpa using hclass)
    · decide
    · decide
  have hslash : '/' ∉ s.toList := by
    intro hmem
    have hsite := (h.chars _ hmem).1
    simp [isSiteChar, env.not_slash] at hsite
  have hlower : env.lower s = s := by
    rw [lower, map_congr_left fun c hc => (h.chars c hc).2, map_id', String.ofList_toList]
  have htrim : trimSpace s = s := by
    rw [trimSpace, dropWhile_eq_self_iff.mpr fun _ => by simp [hspace _ (getElem_mem _)],
      rdropWhile_eq_self_iff.mpr fun _ => by simp [hspace _ (getLast_mem _)], String.ofList_toList]
  have hcleaned : env.cleaned s = s := by
    rw [cleaned, filter_eq_self.mpr fun c hc => (h.chars c hc).1, map_congr_left fun c hc => (h.chars c hc).2, map_id',
      dropWhile_eq_self_iff.mpr h.first, rdropWhile_eq_self_iff.mpr h.last, String.ofList_toList]
  rw [sanitize_of_noSlash hslash, hlower, htrim, hcleaned]
  simp [h.nonempty]

/-! ## Canonical ids -/

theorem isSiteID_default : IsSiteID env "default" := by
  refine ⟨by decide, fun c hc => ?_, by decide, by decide⟩
  have hall : "default".toList.all Char.isLower = true := by decide
  have hlower := all_eq_true.mp hall c hc
  exact ⟨by simp [isSiteChar, env.isLetter_of_isLower c hlower], env.toLower_of_isLower c hlower⟩

theorem canonical_spec (s : String) : IsSiteID env (env.canonicalSiteID s) := by
  rw [canonicalSiteID]
  rcases find?_getD_cases (forall_mem_map.mpr fun raw _ => sanitize_spec 2 raw) "default" with h | h
  · rw [h]
    exact isSiteID_default
  · exact h

theorem sanitize_default (depth : Nat) : env.sanitizeSiteIDCandidate depth "default" = "" := by
  cases depth with
  | zero => rfl
  | succ depth => exact sanitize_of_isSiteID isSiteID_default depth

theorem canonical_of_sanitize {s : String} (h : env.sanitizeSiteIDCandidate 2 s = "") :
    env.canonicalSiteID s = env.canonicalSiteID "default" := by
  simp [canonicalSiteID, h, sanitize_default]

theorem canonical_of_ne {s : String} (h : env.sanitizeSiteIDCandidate 2 s ≠ "") :
    env.canonicalSiteID s = env.sanitizeSiteIDCandidate 2 s := by
  simp [canonicalSiteID, h]

/-- The word `default` is canonical if the other candidates give no other id. -/
theorem canonical_default_iff : env.canonicalSiteID "default" = "default" ↔
    ∀ id ∈ (env.fallbacks.map (env.sanitizeSiteIDCandidate 2)).find? (· ≠ ""), id = "default" := by
  rw [canonicalSiteID, map_cons, sanitize_default, find?_cons_of_neg (by simp)]
  cases (env.fallbacks.map (env.sanitizeSiteIDCandidate 2)).find? (· ≠ "") with
  | none => exact ⟨fun _ => nofun, fun _ => rfl⟩
  | some id => simp

/-- **Canonical ids stay canonical** unless the text is a spelling of `default` other than the word itself, and
the other candidates give another id. -/
theorem canonicalSiteID_normal_iff (env : SiteEnv) (s : String) :
    (IsSiteID env (env.canonicalSiteID s) ∧
        ∀ n, env.canonicalSiteID^[n] (env.canonicalSiteID s) = env.canonicalSiteID s) ↔
      (env.sanitizeSiteIDCandidate 2 s = "default" →
        ∀ id ∈ (env.fallbacks.map (env.sanitizeSiteIDCandidate 2)).find? (· ≠ ""), id = "default") := by
  rw [← canonical_default_iff]
  constructor
  · rintro ⟨-, hstays⟩ hdefault
    have hs : env.canonicalSiteID s = "default" := (canonical_of_ne (by simp [hdefault])).trans hdefault
    simpa [hs] using hstays 1
  · intro h
    refine ⟨canonical_spec s, fun n => Function.iterate_fixed ?_ n⟩
    by_cases hnone : env.sanitizeSiteIDCandidate 2 s = ""
    · rw [canonical_of_sanitize hnone]
      by_cases hword : env.canonicalSiteID "default" = "default"
      · rw [hword, hword]
      · have hspec : IsSiteID env (env.canonicalSiteID "default") := canonical_spec "default"
        have hstays := (sanitize_of_isSiteID hspec 1).trans (if_neg hword)
        exact (canonical_of_ne (hstays.trans_ne hspec.nonempty)).trans hstays
    · rw [canonical_of_ne hnone]
      by_cases hword : env.sanitizeSiteIDCandidate 2 s = "default"
      · rw [hword, h hword]
      · have hstays := (sanitize_of_isSiteID ((sanitize_spec 2 s).resolve_left hnone) 1).trans (if_neg hword)
        exact (canonical_of_ne (hstays.trans_ne hnone)).trans hstays

/-- Texts without capital letters, where the site is named by `SITE_ID`. -/
def namedSite : SiteEnv where
  isLetter := Char.isLower
  isDigit := Char.isDigit
  toLower c := c
  toLower_toLower _ := rfl
  toLower_of_isLower _ _ := rfl
  isLetter_of_isLower _ h := h
  not_isSpace c h := by
    delta Char.isLower at h
    simp only [Char.isDigit, Bool.or_eq_true, Bool.and_eq_true, decide_eq_true_eq] at h
    simp only [isSpace, mem_cons, not_mem_nil, or_false, Bool.or_eq_false_iff, decide_eq_false_iff_not,
      Bool.and_eq_false_iff]
    have : 48 ≤ c.toNat ∧ c.toNat ≤ 57 ∨ 97 ≤ c.toNat ∧ c.toNat ≤ 122 := h.symm
    omega
  not_slash := by decide
  slash_of_toLower _ h := h
  hostname _ := none
  communitySiteID := ""
  siteID := "main"
  agentSiteID := ""
  agentSetting := none

/-- With a full stop behind it, `default` is an id once, and another one the next time. -/
theorem default_not_canonical : namedSite.canonicalSiteID "default." = "default" ∧
    namedSite.canonicalSiteID (namedSite.canonicalSiteID "default.") = "main" := by
  decide +kernel

end SiteEnv

end Prox
