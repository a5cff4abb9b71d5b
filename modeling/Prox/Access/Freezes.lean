import Prox.Access.Control

/-! # Freezing the tokens of a user

The embedding of the freezes of `model/access_control.go` and `model/community_gate.go`. Two mechanisms
disable the enabled tokens of a user and enable them again; each keeps a book of the tokens that it has
disabled, in rows with its own key. The errors of the database are left out. -/

namespace Prox

open List

/-! ## Tokens and freezes -/

/-- `TokenStatusEnabled`. -/
def tokenStatusEnabled : Int := 1

/-- `TokenStatusDisabled`. -/
def tokenStatusDisabled : Int := 2

/-- The columns of a token that an update of its settings copies from the request. -/
structure TokenLimits where
  expiredTime : Int := -1
  remainQuota : Int := 0
  unlimitedQuota : Bool := false
  modelLimitsEnabled : Bool := false
  modelLimits : String := ""
  allowIps : Option String := none
  crossGroupRetry : Bool := false

/-- A row of `tokens`: an API key of a user. -/
structure UserToken where
  id : Int := 0
  userId : Int
  key : String
  status : Int := tokenStatusEnabled
  name : String := ""
  limits : TokenLimits := {}
  group : String := ""
  /-- The row is deleted softly: only an unscoped query finds it. -/
  deleted : Bool := false

instance : Row UserToken String := ⟨UserToken.id, UserToken.key⟩

/-- `AccessControlFreezeKey`. -/
def accessControlFreezeKey : String := "access_control"

/-- A row of `community_gate_token_freezes`. -/
structure CommunityGateTokenFreeze where
  id : Int := 0
  userId : Int
  tokenId : Int
  oldStatus : Int
  newStatus : Int
  freezeKey : String
  reason : String
  frozenAt : Int
  restoredAt : Int := 0

instance : Row CommunityGateTokenFreeze Int := ⟨CommunityGateTokenFreeze.id, CommunityGateTokenFreeze.id⟩

/-- The tables of tokens and freezes. -/
structure KeyTables where
  tokens : Table UserToken
  freezes : Table CommunityGateTokenFreeze

/-- `CommunityGateTokenFreezeStats`. -/
structure CommunityGateTokenFreezeStats where
  eligible : Nat := 0
  disabled : Nat := 0
  alreadyFrozen : Nat := 0
  activeFrozen : Nat := 0
  restored : Nat := 0

/-- The assignment of a status to tokens. -/
def UserToken.setStatus (status : Int) : Patch UserToken where
  apply token := { token with status }
  id_apply _ := rfl
  key_apply _ := rfl

@[simp] theorem UserToken.setStatus_apply (status : Int) (token : UserToken) :
    (UserToken.setStatus status).apply token = { token with status } := rfl

/-- `UPDATE tokens SET status = new WHERE id AND status = old`. -/
def updateTokenStatus (id old new : Int) (tokens : Table UserToken) : Table UserToken × Nat :=
  tokens.updateWhere (fun t => t.id = id ∧ t.status = old ∧ t.deleted = false) (UserToken.setStatus new)

/-- A token that a freeze of the tokens of a user disables. -/
def UserToken.enabledOf (token : UserToken) (userID : Int) : Bool :=
  token.userId = userID ∧ token.status = tokenStatusEnabled ∧ token.deleted = false

/-- A freeze of a token under a key that is not restored. -/
def CommunityGateTokenFreeze.activeFor (freeze : CommunityGateTokenFreeze) (tokenID : Int) (key : String) : Bool :=
  freeze.tokenId = tokenID ∧ freeze.freezeKey = key ∧ freeze.restoredAt = 0

/-! ## Freezing -/

section Freeze

variable (freezeKey reason : String) (now userID : Int)

/-- The loop body of a freeze: the token is put into the book, unless it is there, and disabled. -/
def freezeToken (acc : CommunityGateTokenFreezeStats × KeyTables) (token : UserToken) :
    CommunityGateTokenFreezeStats × KeyTables :=
  let (stats, db) := acc
  let active := db.freezes.rows.any (·.activeFor token.id freezeKey)
  let stats := if active then { stats with alreadyFrozen := stats.alreadyFrozen + 1 } else stats
  -- the row gets the next key, so that no index refuses it
  let freezes :=
    if active then db.freezes
    else (db.freezes.insertIgnore
      { id := db.freezes.nextId, userId := userID, tokenId := token.id, oldStatus := token.status
        newStatus := tokenStatusDisabled, freezeKey, reason := trimSpace reason, frozenAt := now }).1
  let (tokens, rowsAffected) := updateTokenStatus token.id token.status tokenStatusDisabled db.tokens
  ({ stats with disabled := stats.disabled + (if 0 < rowsAffected then 1 else 0) }, ⟨tokens, freezes⟩)

/-- The freeze of the enabled tokens of a user under a key, at a time in seconds. -/
def freezeEnabledTokens (dryRun : Bool) (db : KeyTables) : CommunityGateTokenFreezeStats × KeyTables :=
  let tokens := db.tokens.rows.filter (·.enabledOf userID)
  if dryRun ∨ tokens = [] then ({ eligible := tokens.length }, db)
  else tokens.foldl (freezeToken freezeKey reason now userID) ({ eligible := tokens.length }, db)

/-- `FreezeUserTokensForAccessControl`, which is `freezeUserTokensByKey` with the key of access control:
administrators are exempt. -/
def freezeUserTokensForAccessControl (user : Int → Except Err AccessUser) (reason : String) (dryRun : Bool)
    (db : KeyTables) : Except Err CommunityGateTokenFreezeStats × KeyTables :=
  if userID ≤ 0 then (.error (.text "invalid user id"), db)
  else if (user userID).toOption.any (roleAdminUser ≤ ·.role) then (.ok {}, db)
  else
    let (stats, db) := freezeEnabledTokens accessControlFreezeKey reason now userID dryRun db
    (.ok stats, db)

end Freeze

/-! ## What a freeze changes -/

/-- A freeze with the next key is added to the book. -/
theorem rows_insertIgnore_freeze {freezes : Table CommunityGateTokenFreeze} {f : CommunityGateTokenFreeze}
    (hid : f.id = freezes.nextId) : (freezes.insertIgnore f).1.rows = freezes.rows ++ [f] := by
  have hfree : freezes.byKey (Row.key f) = none := Table.byKey_eq_none.mpr fun r hr => by
    have hlt : r.id < freezes.nextId := Table.id_lt_nextId hr
    show r.id ≠ f.id
    omega
  obtain ⟨freezes', hcreate⟩ := Table.exists_create hid hfree
  rw [Table.insertIgnore, hcreate]
  exact Table.rows_of_create hcreate

/-- The token is disabled if it is one of a list and enabled. -/
def UserToken.disabledIn (ids : List Int) (token : UserToken) : UserToken :=
  if token.id ∈ ids ∧ token.status = tokenStatusEnabled ∧ token.deleted = false then
    { token with status := tokenStatusDisabled }
  else token

@[simp] theorem UserToken.disabledIn_id (ids : List Int) (token : UserToken) :
    (token.disabledIn ids).id = token.id := by
  unfold disabledIn
  split <;> rfl

/-- Disabling the tokens of two lists one after the other is disabling the tokens of both. -/
theorem UserToken.disabledIn_append (ids ids' : List Int) (token : UserToken) :
    (token.disabledIn ids).disabledIn ids' = token.disabledIn (ids ++ ids') := by
  by_cases hfirst : token.id ∈ ids ∧ token.status = tokenStatusEnabled ∧ token.deleted = false
  · -- a disabled token is not enabled, so that the second list leaves it alone
    have hdisabled : token.disabledIn ids = { token with status := tokenStatusDisabled } := if_pos hfirst
    have hboth : token.disabledIn (ids ++ ids') = { token with status := tokenStatusDisabled } :=
      if_pos ⟨mem_append_left _ hfirst.1, hfirst.2⟩
    rw [hdisabled, hboth]
    refine if_neg ?_
    rintro ⟨-, hstatus, -⟩
    cases hstatus
  · have hkept : token.disabledIn ids = token := if_neg hfirst
    rw [hkept]
    refine if_congr ?_ rfl rfl
    rw [mem_append]
    tauto

@[simp] theorem UserToken.disabledIn_nil (token : UserToken) : token.disabledIn [] = token :=
  if_neg fun h => not_mem_nil h.1

/-- What a freeze of a list of tokens under a key changes. -/
structure KeyTables.Freezes (key : String) (userID : Int) (ids : List Int) (db db' : KeyTables) : Prop where
  tokens : db'.tokens.rows = db.tokens.rows.map (UserToken.disabledIn ids)
  /-- The book grows by active freezes of tokens of the list. -/
  book : ∃ new, db'.freezes.rows = db.freezes.rows ++ new ∧
    ∀ f ∈ new, f.userId = userID ∧ f.oldStatus = tokenStatusEnabled ∧ f.freezeKey = key ∧ f.restoredAt = 0 ∧
      f.tokenId ∈ ids
  booked : ∀ id ∈ ids, ∃ f ∈ db'.freezes.rows, f.activeFor id key

variable {key : String} {userID : Int}

/-- The loop body freezes its token. -/
theorem freezeToken_freezes {reason : String} {now : Int} {token : UserToken}
    (hstatus : token.status = tokenStatusEnabled) (acc : CommunityGateTokenFreezeStats × KeyTables) :
    acc.2.Freezes key userID [token.id] (freezeToken key reason now userID acc token).2 := by
  obtain ⟨stats, db⟩ := acc
  have htokens : (updateTokenStatus token.id token.status tokenStatusDisabled db.tokens).1.rows
      = db.tokens.rows.map (UserToken.disabledIn [token.id]) := by
    rw [updateTokenStatus, hstatus]
    refine map_congr_left fun t _ => ?_
    simp [UserToken.disabledIn]
  unfold freezeToken
  dsimp only
  split
  · next hactive =>
    obtain ⟨f, hf, hactive⟩ := any_eq_true.mp hactive
    refine ⟨htokens, ⟨[], (append_nil _).symm, nofun⟩, fun id hid => ?_⟩
    rw [mem_singleton.mp hid]
    exact ⟨f, hf, hactive⟩
  · have hrows : (db.freezes.insertIgnore
        { id := db.freezes.nextId, userId := userID, tokenId := token.id, oldStatus := token.status
          newStatus := tokenStatusDisabled, freezeKey := key, reason := trimSpace reason, frozenAt := now }).1.rows
        = _ := rows_insertIgnore_freeze rfl
    refine ⟨htokens, ⟨_, hrows, fun f hf => ?_⟩, fun id hid => ?_⟩
    · rw [mem_singleton.mp hf]
      exact ⟨rfl, hstatus, rfl, rfl, mem_singleton_self _⟩
    · rw [mem_singleton.mp hid]
      refine ⟨_, hrows ▸ mem_append_right _ (mem_singleton_self _), ?_⟩
      simp [CommunityGateTokenFreeze.activeFor]

variable {db db' : KeyTables}

/-- A freeze of a token and then of others is a freeze of all of them. -/
theorem KeyTables.Freezes.trans {id : Int} {ids : List Int} {db'' : KeyTables}
    (h : db.Freezes key userID [id] db') (h' : db'.Freezes key userID ids db'') :
    db.Freezes key userID (id :: ids) db'' := by
  obtain ⟨new, hbook, hnew⟩ := h.book
  obtain ⟨new', hbook', hnew'⟩ := h'.book
  refine ⟨?_, ⟨new ++ new', by rw [hbook', hbook, append_assoc], fun f hf => ?_⟩, fun x hx => ?_⟩
  · rw [h'.tokens, h.tokens, map_map]
    exact map_congr_left fun t _ => UserToken.disabledIn_append [id] ids t
  · rcases mem_append.mp hf with hf | hf
    · obtain ⟨huser, hold, hkey, hrestored, hid⟩ := hnew f hf
      exact ⟨huser, hold, hkey, hrestored, mem_cons.mpr (.inl (mem_singleton.mp hid))⟩
    · obtain ⟨huser, hold, hkey, hrestored, hid⟩ := hnew' f hf
      exact ⟨huser, hold, hkey, hrestored, mem_cons_of_mem _ hid⟩
  · rcases mem_cons.mp hx with rfl | hx
    · obtain ⟨f, hf, hactive⟩ := h.booked x (mem_singleton_self x)
      exact ⟨f, hbook' ▸ mem_append_left _ hf, hactive⟩
    · exact h'.booked x hx

/-- The loop of a freeze. -/
theorem foldl_freezeToken (key reason : String) (now userID : Int) {tokens : List UserToken}
    (hstatus : ∀ t ∈ tokens, t.status = tokenStatusEnabled) (acc : CommunityGateTokenFreezeStats × KeyTables) :
    acc.2.Freezes key userID (tokens.map (·.id))
      (tokens.foldl (freezeToken key reason now userID) acc).2 := by
  induction tokens generalizing acc with
  | nil =>
    refine ⟨?_, ⟨[], (append_nil _).symm, nofun⟩, nofun⟩
    exact ((map_congr_left fun t _ => t.disabledIn_nil).trans (map_id' _)).symm
  | cons token tokens ih =>
    obtain ⟨htoken, htokens⟩ := forall_mem_cons.mp hstatus
    exact (freezeToken_freezes htoken acc).trans (ih htokens _)

/-- The tokens that a freeze of the tokens of a user reads. -/
def KeyTables.enabledIds (db : KeyTables) (userID : Int) : List Int :=
  (db.tokens.rows.filter (·.enabledOf userID)).map (·.id)

/-- A token is read if it is enabled, of the user and not deleted. -/
theorem KeyTables.mem_enabledIds {token : UserToken} (htoken : token ∈ db.tokens.rows) :
    token.id ∈ db.enabledIds userID ↔ token.enabledOf userID = true := by
  constructor
  · intro h
    obtain ⟨t, ht, hid⟩ := mem_map.mp h
    obtain ⟨ht, henabled⟩ := mem_filter.mp ht
    rwa [Table.eq_of_id_eq htoken ht hid.symm]
  · intro h
    exact mem_map_of_mem (mem_filter.mpr ⟨htoken, h⟩)

/-- A freeze outside of a dry run freezes the tokens that it reads. -/
theorem freezeEnabledTokens_freezes (key reason : String) (now userID : Int) (db : KeyTables) :
    db.Freezes key userID (db.enabledIds userID) (freezeEnabledTokens key reason now userID false db).2 := by
  have hstatus : ∀ t ∈ db.tokens.rows.filter (·.enabledOf userID), t.status = tokenStatusEnabled :=
    fun t ht => (of_decide_eq_true (mem_filter.mp ht).2).2.1
  have hfold := foldl_freezeToken key reason now userID hstatus
    ({ eligible := (db.tokens.rows.filter (·.enabledOf userID)).length }, db)
  unfold freezeEnabledTokens
  dsimp only
  split
  · next hnone =>
    have hnil : db.tokens.rows.filter (·.enabledOf userID) = [] := by simpa using hnone
    simpa [KeyTables.enabledIds, hnil] using hfold
  · exact hfold

/-- Tokens are only frozen under a key: they are disabled and put into the book, and the book only grows. -/
structure KeyTables.FrozenTo (key : String) (db db' : KeyTables) : Prop where
  tokens : ∃ ids, db'.tokens.rows = db.tokens.rows.map (UserToken.disabledIn ids) ∧
    ∀ id ∈ ids, ∃ f ∈ db'.freezes.rows, f.activeFor id key
  book : ∃ new, db'.freezes.rows = db.freezes.rows ++ new

namespace KeyTables

theorem FrozenTo.refl (key : String) (db : KeyTables) : db.FrozenTo key db where
  tokens := ⟨[], ((map_congr_left fun t _ => t.disabledIn_nil).trans (map_id' _)).symm, nofun⟩
  book := ⟨[], (append_nil _).symm⟩

theorem FrozenTo.trans {db'' : KeyTables} (h : db.FrozenTo key db') (h' : db'.FrozenTo key db'') :
    db.FrozenTo key db'' := by
  obtain ⟨ids, htokens, hbooked⟩ := h.tokens
  obtain ⟨ids', htokens', hbooked'⟩ := h'.tokens
  obtain ⟨new, hbook⟩ := h.book
  obtain ⟨new', hbook'⟩ := h'.book
  refine ⟨⟨ids ++ ids', ?_, fun id hid => ?_⟩, new ++ new', by rw [hbook', hbook, append_assoc]⟩
  · rw [htokens', htokens, map_map]
    exact map_congr_left fun t _ => t.disabledIn_append ids ids'
  · rcases mem_append.mp hid with hid | hid
    · obtain ⟨f, hf, hactive⟩ := hbooked id hid
      exact ⟨f, hbook' ▸ mem_append_left _ hf, hactive⟩
    · exact hbooked' id hid

theorem Freezes.frozenTo {ids : List Int} (h : db.Freezes key userID ids db') :
    db.FrozenTo key db' := by
  obtain ⟨new, hbook, -⟩ := h.book
  exact ⟨⟨ids, h.tokens, h.booked⟩, new, hbook⟩

/-- No token of a user is enabled. -/
def Frozen (db : KeyTables) (userID : Int) : Prop := ∀ t ∈ db.tokens.rows, t.enabledOf userID = false

/-- A disabled token is not enabled for anyone, and the others are as they were. -/
theorem enabledOf_disabledIn (ids : List Int) (token : UserToken) (userID : Int) :
    (token.disabledIn ids).enabledOf userID = (token.enabledOf userID && !decide (token.id ∈ ids)) := by
  unfold UserToken.disabledIn UserToken.enabledOf
  split
  · next h => simp [h.1, tokenStatusDisabled, tokenStatusEnabled]
  · next h =>
    by_cases hid : token.id ∈ ids <;> simp_all

/-- The tokens of a user stay frozen while tokens are only frozen. -/
theorem Frozen.frozenTo (h : db.Frozen userID) (hto : db.FrozenTo key db') : db'.Frozen userID := by
  obtain ⟨ids, htokens, -⟩ := hto.tokens
  intro t ht
  rw [htokens] at ht
  obtain ⟨t₀, ht₀, rfl⟩ := mem_map.mp ht
  rw [enabledOf_disabledIn, h t₀ ht₀, Bool.false_and]

/-- A freeze of what is read of a user leaves no enabled token of the user. -/
theorem Freezes.frozen (h : db.Freezes key userID (db.enabledIds userID) db') :
    db'.Frozen userID := by
  intro t ht
  rw [h.tokens] at ht
  obtain ⟨t₀, ht₀, rfl⟩ := mem_map.mp ht
  rw [enabledOf_disabledIn]
  cases henabled : t₀.enabledOf userID with
  | false => rfl
  | true => simp [(mem_enabledIds ht₀).mpr henabled]

/-- A token that was enabled and is of a user without enabled tokens is disabled and in the book. -/
theorem FrozenTo.frozen_token (h : db.FrozenTo key db') (hfrozen : db'.Frozen userID)
    {t : UserToken} (ht : t ∈ db.tokens.rows) (henabled : t.enabledOf userID = true) :
    (∃ t' ∈ db'.tokens.rows, t'.id = t.id ∧ t'.status = tokenStatusDisabled) ∧
      ∃ f ∈ db'.freezes.rows, f.activeFor t.id key := by
  obtain ⟨ids, htokens, hbooked⟩ := h.tokens
  have hmem : t.disabledIn ids ∈ db'.tokens.rows := htokens ▸ mem_map_of_mem ht
  have hoff := hfrozen _ hmem
  rw [enabledOf_disabledIn, henabled, Bool.true_and, Bool.not_eq_false', decide_eq_true_iff] at hoff
  refine ⟨⟨_, hmem, t.disabledIn_id ids, ?_⟩, hbooked _ hoff⟩
  obtain ⟨-, hstatus, hdeleted⟩ := of_decide_eq_true henabled
  rw [UserToken.disabledIn, if_pos ⟨hoff, hstatus, hdeleted⟩]

end KeyTables

/-- A freeze of a user's tokens succeeds, and leaves none enabled unless the user is an administrator. -/
theorem freezeUserTokensForAccessControl_frozenTo (user : Int → Except Err AccessUser)
    (reason : String) (now : Int) (hpos : 0 < userID) (db : KeyTables) :
    ∃ stats db', freezeUserTokensForAccessControl now userID user reason false db = (.ok stats, db') ∧
      db.FrozenTo accessControlFreezeKey db' ∧
      ((user userID).toOption.any (roleAdminUser ≤ ·.role) = false → db'.Frozen userID) := by
  unfold freezeUserTokensForAccessControl
  rw [if_neg (by omega)]
  split
  · next hadmin => exact ⟨_, _, rfl, .refl _ _, fun h => absurd (h.symm.trans hadmin) (by decide)⟩
  · have hfreezes := freezeEnabledTokens_freezes accessControlFreezeKey reason now userID db
    exact ⟨_, _, rfl, hfreezes.frozenTo, fun _ => hfreezes.frozen⟩

end Prox
