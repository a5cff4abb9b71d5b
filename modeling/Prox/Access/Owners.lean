import Prox.Access.Bindings
import Prox.Access.LatestEvent

/-! # A chat identity keeps its owner

What each statement does to the owners of chat identities, and the runs of any number of calls. A call that
asks for the row of another user is refused by every statement that checks, and nothing changes but the log
of membership events, which is written before a binding is looked at. The two statements that do not check
are guarded by a condition. -/

namespace Prox

open BindingStmt BindingThread List MembershipBindingSubject MembershipCall Option OwnerWrite Table Upsert

attribute [local irreducible] trimSpace

/-! ## The condition -/

/-- A write that does not check finds no other owner. -/
def OwnerWrite.Guarded (db : BindingDB) : OwnerWrite → Prop
  | .setAgentChatBindingsEnabled a =>
    0 < a.userID → ∀ b ∈ db.bindings.byKey a.key, 0 < b.newAPIUserId → b.newAPIUserId = a.userID
  | .upsertAgentChatBindingWithTx .. => True
  | .upsertAgentChatBindingFromMembership _ => True
  | .upsertUserIdentityBindingRowWithTx .. => True

/-- An update of a binding finds no other owner than the one it writes. -/
def UpsertStage.Guarded (db : BindingDB) (row : AgentChatBinding) : UpsertStage → Prop
  | .update id => ∀ b ∈ db.bindings.byId id, 0 < b.newAPIUserId → b.newAPIUserId = row.newAPIUserId
  | .first => True
  | .insert => True
  | .again => True

/-- A statement that does not check finds no other owner. -/
def BindingStmt.Guarded (db : BindingDB) : BindingStmt → Prop
  | .request (.write w) => w.Guarded db
  | .binding stage row => stage.Guarded db row
  | .request (.backfillChatMembershipUserByExternal ..) => True
  | .request (.handleChatMembershipEvent _) => True
  | .identity .. => True
  | .subject .. => True
  | .log _ => True
  | .sideEffects _ => True

/-- The statement of a step finds no other owner when it does not check. -/
def BindingSystem.Guarded (s : BindingSystem) : BindingEvent → Prop
  | .request _ => True
  | .step i _ _ => ∀ t ∈ s.threads[i]?, ∀ c ∈ t.stmts.head?, c.Guarded s.shared

instance OwnerWrite.decidableGuarded (db : BindingDB) (w : OwnerWrite) : Decidable (w.Guarded db) :=
  match w with
  | .setAgentChatBindingsEnabled a => inferInstanceAs (Decidable
      (0 < a.userID → ∀ b ∈ db.bindings.byKey a.key, 0 < b.newAPIUserId → b.newAPIUserId = a.userID))
  | .upsertAgentChatBindingWithTx .. => inferInstanceAs (Decidable True)
  | .upsertAgentChatBindingFromMembership _ => inferInstanceAs (Decidable True)
  | .upsertUserIdentityBindingRowWithTx .. => inferInstanceAs (Decidable True)

instance UpsertStage.decidableGuarded (db : BindingDB) (row : AgentChatBinding) (stage : UpsertStage) :
    Decidable (stage.Guarded db row) :=
  match stage with
  | .update id => inferInstanceAs (Decidable
      (∀ b ∈ db.bindings.byId id, 0 < b.newAPIUserId → b.newAPIUserId = row.newAPIUserId))
  | .first => inferInstanceAs (Decidable True)
  | .insert => inferInstanceAs (Decidable True)
  | .again => inferInstanceAs (Decidable True)

instance BindingStmt.decidableGuarded (db : BindingDB) (c : BindingStmt) : Decidable (c.Guarded db) :=
  match c with
  | .request (.write w) => inferInstanceAs (Decidable (w.Guarded db))
  | .binding stage row => inferInstanceAs (Decidable (stage.Guarded db row))
  | .request (.backfillChatMembershipUserByExternal ..) => inferInstanceAs (Decidable True)
  | .request (.handleChatMembershipEvent _) => inferInstanceAs (Decidable True)
  | .identity .. => inferInstanceAs (Decidable True)
  | .subject .. => inferInstanceAs (Decidable True)
  | .log _ => inferInstanceAs (Decidable True)
  | .sideEffects _ => inferInstanceAs (Decidable True)

instance BindingSystem.decidableGuarded (s : BindingSystem) (e : BindingEvent) : Decidable (s.Guarded e) :=
  match e with
  | .request _ => inferInstanceAs (Decidable True)
  | .step i _ _ => inferInstanceAs (Decidable
      (∀ t ∈ s.threads[i]?, ∀ c ∈ t.stmts.head?, c.Guarded s.shared))

/-! ## Tables -/

section Tables

variable {env : BindingEnv} {now : Int} {fault : Option Err} {db db' db'' : BindingDB} {c : BindingStmt}
  {e : MembershipCall} {w : OwnerWrite}

theorem BindingDB.KeepsOwners.refl (db : BindingDB) : db.KeepsOwners db := fun _ _ _ h => h

theorem BindingDB.KeepsOwners.trans (h : db.KeepsOwners db') (h' : db'.KeepsOwners db'') :
    db.KeepsOwners db'' :=
  fun ref u hu howner => h' ref u hu (h ref u hu howner)

/-- The owners of the rows are columns of the two tables. -/
theorem BindingDB.keepsOwners
    (hbindings : db.bindings.KeepsPositive AgentChatBinding.newAPIUserId db'.bindings)
    (hidentities : db.identities.KeepsPositive UserIdentityBinding.userId db'.identities) :
    db.KeepsOwners db' := by
  intro ref
  cases ref with
  | binding key => exact hbindings key
  | identity key => exact hidentities key

/-- A statement that leaves the two tables alone keeps the owners. -/
theorem BindingDB.KeepsOwners.of_eq (hbindings : db'.bindings = db.bindings)
    (hidentities : db'.identities = db.identities) : db.KeepsOwners db' :=
  BindingDB.keepsOwners (hbindings ▸ .refl _ _) (hidentities ▸ .refl _ _)

/-- What no statement changes of a row: the key of a binding, the key and the user of an identity. -/
structure BindingDB.KeepsRows (db db' : BindingDB) : Prop where
  bindings : db.bindings.KeepsColumn Row.key db'.bindings
  identities : db.identities.KeepsColumn (fun b => (Row.key b, b.userId)) db'.identities

/-- A statement that leaves the two tables alone keeps their rows. -/
theorem BindingDB.KeepsRows.of_eq (hbindings : db'.bindings = db.bindings)
    (hidentities : db'.identities = db.identities) : db.KeepsRows db' := by
  exact ⟨hbindings ▸ .refl _ _, hidentities ▸ .refl _ _⟩

/-- An event is logged beside the two tables. -/
theorem MembershipCall.log_tables (env : BindingEnv) (fault : Option Err) (e : MembershipCall)
    (db : BindingDB) :
    (e.log env fault db).2.bindings = db.bindings ∧ (e.log env fault db).2.identities = db.identities := by
  unfold MembershipCall.log
  split
  · exact ⟨rfl, rfl⟩
  · split <;> exact ⟨rfl, rfl⟩

/-- The side effects on memberships are beside the two tables. -/
theorem MembershipCall.sideEffects_tables (env : BindingEnv) (fault : Option Err) (e : MembershipCall)
    (db : BindingDB) :
    (e.sideEffects env fault db).2.bindings = db.bindings ∧
      (e.sideEffects env fault db).2.identities = db.identities := by
  unfold sideEffects
  split <;> exact ⟨rfl, rfl⟩

/-- What a writer does to the bindings: nothing, a whole upsert, or a switch. -/
theorem OwnerWrite.exec_bindings (env : BindingEnv) (now : Int) (fault : Option Err) (w : OwnerWrite)
    (db : BindingDB) :
    (w.exec env now fault db).2.bindings = db.bindings ∨
      (∃ b, upsertAgentChatBinding.exec .diverges 4 .first b db.bindings
        = .ok ((), (w.exec env now fault db).2.bindings)) ∨
      ∃ a, w = .setAgentChatBindingsEnabled a ∧ (w.exec env now fault db).2.bindings
        = (db.bindings.updateWhere (Row.key · = a.key)
            (AgentChatBinding.setEnabled a.enabled a.userID)).1 := by
  cases w with
  | upsertAgentChatBindingWithTx inTx b =>
    simp only [exec]
    split
    · exact .inl rfl
    · next row _ =>
      split
      · rcases transaction_cases fault (upsertAgentChatBinding.exec .diverges 4 .first row) db.bindings with
          ⟨err, htx⟩ | ⟨_, t, hexec, htx⟩
        · rw [htx]
          exact .inl rfl
        · rw [htx]
          exact .inr (.inl ⟨row, hexec⟩)
      · exact .inl rfl
  | upsertAgentChatBindingFromMembership m =>
    simp only [exec]
    split <;> exact .inl rfl
  | setAgentChatBindingsEnabled a =>
    simp only [exec]
    rcases transaction_cases fault a.exec db.bindings with ⟨err, htx⟩ | ⟨_, t, hexec, htx⟩
    · rw [htx]
      exact .inl rfl
    · rw [htx]
      unfold BindingSwitch.exec at hexec
      split at hexec
      · cases hexec
      · cases hexec
        exact .inr (.inr ⟨a, rfl, rfl⟩)
  | upsertUserIdentityBindingRowWithTx inTx b =>
    simp only [exec]
    split
    · exact .inl rfl
    · split <;> exact .inl rfl

/-- What a writer does to the identities: nothing, or a whole upsert. -/
theorem OwnerWrite.exec_identities (env : BindingEnv) (now : Int) (fault : Option Err) (w : OwnerWrite)
    (db : BindingDB) :
    (w.exec env now fault db).2.identities = db.identities ∨
      ∃ b, upsertUserIdentityBinding.exec .diverges 4 .first b db.identities
        = .ok ((), (w.exec env now fault db).2.identities) := by
  cases w with
  | upsertUserIdentityBindingRowWithTx inTx b =>
    simp only [exec]
    split
    · exact .inl rfl
    · next row _ =>
      split
      · rcases transaction_cases fault (upsertUserIdentityBinding.exec .diverges 4 .first (row.stamp now))
            db.identities with ⟨err, htx⟩ | ⟨_, t, hexec, htx⟩
        · rw [htx]
          exact .inl rfl
        · rw [htx]
          exact .inr ⟨row.stamp now, hexec⟩
      · exact .inl rfl
  | upsertAgentChatBindingWithTx inTx b =>
    simp only [exec]
    split
    · exact .inl rfl
    · split <;> exact .inl rfl
  | upsertAgentChatBindingFromMembership m =>
    simp only [exec]
    split <;> exact .inl rfl
  | setAgentChatBindingsEnabled a => exact .inl rfl

/-- A statement keeps the keys of the bindings, and the keys and users of the identities. -/
theorem BindingStmt.exec_keepsRows (env : BindingEnv) (now : Int) (fault : Option Err) (c : BindingStmt)
    (db : BindingDB) : db.KeepsRows (c.exec env now fault db).2 := by
  cases c with
  | request r =>
    cases r with
    | write w =>
      constructor
      · rcases w.exec_bindings env now fault db with heq | ⟨b, hexec⟩ | ⟨a, -, heq⟩
        · show db.bindings.KeepsColumn Row.key (w.exec env now fault db).2.bindings
          rw [heq]
          exact .refl _ _
        · exact exec_keepsColumn (fun _ _ => rfl) hexec
        · show db.bindings.KeepsColumn Row.key (w.exec env now fault db).2.bindings
          rw [heq]
          exact keepsColumn_updateWhere fun _ => rfl
      · rcases w.exec_identities env now fault db with heq | ⟨b, hexec⟩
        · show db.identities.KeepsColumn (fun b => (Row.key b, b.userId)) (w.exec env now fault db).2.identities
          rw [heq]
          exact .refl _ _
        · exact exec_keepsColumn (fun _ _ => rfl) hexec
    | backfillChatMembershipUserByExternal source externalUserID userID => exact .of_eq rfl rfl
    | handleChatMembershipEvent d =>
      simp only [exec]
      split <;> exact .of_eq rfl rfl
  | binding stage row => exact ⟨step_keepsColumn (fun _ _ => rfl) fault stage row _, .refl _ _⟩
  | identity stage row => exact ⟨.refl _ _, step_keepsColumn (fun _ _ => rfl) fault stage row _⟩
  | subject lookup e => exact .of_eq rfl rfl
  | log e => exact .of_eq (e.log_tables env fault db).1 (e.log_tables env fault db).2
  | sideEffects e =>
    exact .of_eq (e.sideEffects_tables env fault db).1 (e.sideEffects_tables env fault db).2

/-- A check lets only rows pass that agree with the owner of the stored row. -/
theorem AgentChatBinding.adopt_owner {b existing row : AgentChatBinding} (h : b.adopt existing = .ok row)
    (howner : 0 < existing.newAPIUserId) : row.newAPIUserId = existing.newAPIUserId := by
  unfold AgentChatBinding.adopt at h
  split at h
  · cases h
  · split at h
    · cases h
    · cases h
      rfl

/-- **A statement keeps the owners** if it checks, or finds no other one. -/
theorem BindingStmt.exec_keepsOwners (hguard : c.Guarded db) :
    db.KeepsOwners (c.exec env now fault db).2 := by
  cases c with
  | request r =>
    cases r with
    | write w =>
      refine BindingDB.keepsOwners ?_ ?_
      · show db.bindings.KeepsPositive _ (w.exec env now fault db).2.bindings
        rcases w.exec_bindings env now fault db with heq | ⟨b, hexec⟩ | ⟨a, rfl, heq⟩
        · rw [heq]
          exact .refl _ _
        · refine exec_keepsPositive (fun b x row hcheck hpos => ?_) hexec
          have howner : row.newAPIUserId = x.newAPIUserId := AgentChatBinding.adopt_owner hcheck hpos
          exact howner
        · rw [heq]
          -- the switch does not look, so the condition says who owns the row
          refine keepsPositive_updateWhere fun x hx hkey hpos => ?_
          have hrow : db.bindings.byKey a.key = some x :=
            byKey_eq_some.mpr ⟨hx, of_decide_eq_true hkey⟩
          show (if 0 < a.userID then a.userID else x.newAPIUserId) = x.newAPIUserId
          split
          · next huser => exact (hguard huser x hrow hpos).symm
          · rfl
      · show db.identities.KeepsPositive _ (w.exec env now fault db).2.identities
        rcases w.exec_identities env now fault db with heq | ⟨b, hexec⟩
        · rw [heq]
          exact .refl _ _
        · exact exec_keepsPositive (fun _ _ _ _ _ => rfl) hexec
    | backfillChatMembershipUserByExternal source externalUserID userID => exact .refl db
    | handleChatMembershipEvent d =>
      simp only [exec]
      split <;> exact .refl db
  | binding stage row =>
    refine BindingDB.keepsOwners ?_ (.refl _ _)
    show db.bindings.KeepsPositive _ (upsertAgentChatBinding.step fault stage row db.bindings).2
    rcases upsertAgentChatBinding.step_table fault stage row db.bindings with heq | hcreate | ⟨id, rfl, heq⟩
    · rw [heq]
      exact .refl _ _
    · exact keepsPositive_create hcreate
    · rw [heq]
      refine keepsPositive_updateWhere fun x hx hid hpos => ?_
      exact (hguard x (byId_eq_some.mpr ⟨hx, of_decide_eq_true hid⟩) hpos).symm
  | identity stage row =>
    refine BindingDB.keepsOwners (.refl _ _) ?_
    show db.identities.KeepsPositive _ (upsertUserIdentityBinding.step fault stage row db.identities).2
    rcases upsertUserIdentityBinding.step_table fault stage row db.identities with
      heq | hcreate | ⟨id, -, heq⟩
    · rw [heq]
      exact .refl _ _
    · exact keepsPositive_create hcreate
    · rw [heq]
      exact keepsPositive_updateWhere fun _ _ _ _ => rfl
  | subject lookup e => exact .refl db
  | log e => exact .of_eq (e.log_tables env fault db).1 (e.log_tables env fault db).2
  | sideEffects e => exact .of_eq (e.sideEffects_tables env fault db).1 (e.sideEffects_tables env fault db).2

end Tables

/-! ## What an update is about -/

/-- An update of a binding is about the row under its key. An update of an identity is about the row under
its key, whose user it asks for. -/
def BindingStmt.Located (db : BindingDB) : BindingStmt → Prop
  | .binding (.update id) row => ∃ b, db.bindings.byId id = some b ∧ Row.key b = Row.key row
  | .identity (.update id) row =>
    ∃ b, db.identities.byId id = some b ∧ (Row.key b, b.userId) = (Row.key row, row.userId)
  | _ => True

variable {next : List BindingStmt} {ask : OwnerAsk} {e : MembershipCall}

section Statements

variable {env : BindingEnv} {now : Int} {fault : Option Err} {db db' : BindingDB} {c : BindingStmt}

/-- Rows that stay are still what an update is about. -/
theorem BindingStmt.Located.mono (h : c.Located db) (hrows : db.KeepsRows db') : c.Located db' := by
  unfold Located at h ⊢
  split
  · obtain ⟨b, hb, hkey⟩ := h
    obtain ⟨b', hb', heq⟩ := hrows.bindings _ b hb
    exact ⟨b', hb', heq.trans hkey⟩
  · obtain ⟨b, hb, hkey⟩ := h
    obtain ⟨b', hb', heq⟩ := hrows.identities _ b hb
    exact ⟨b', hb', heq.trans hkey⟩
  · trivial

/-- The statements that follow an upsert of a binding are about the row under its key. -/
theorem located_binding_next {stage : UpsertStage} {row : AgentChatBinding} {s : UpsertStage × AgentChatBinding}
    (h : (upsertAgentChatBinding.step fault stage row db.bindings).1 = .ok (some s)) :
    (binding s.1 s.2).Located db := by
  obtain ⟨stage', row'⟩ := s
  rcases step_next h with ⟨-, rfl, -⟩ | ⟨-, rfl, -⟩ | ⟨x, hx, hcheck, rfl, -⟩
  · trivial
  · trivial
  · obtain ⟨hmem, hkey⟩ := byKey_eq_some.mp hx
    refine ⟨x, byId_eq_some.mpr ⟨hmem, rfl⟩, hkey.trans ?_⟩
    -- the check does not touch the key
    have hadopt : row.adopt x = .ok row' := hcheck
    unfold AgentChatBinding.adopt at hadopt
    split at hadopt
    · cases hadopt
    · split at hadopt
      · split at hadopt
        · cases hadopt
        · cases hadopt
          rfl
      · cases hadopt
        rfl

/-- The statements that follow an upsert of an identity are about the row that passed the check. -/
theorem located_identity_next {stage : UpsertStage} {row : UserIdentityBinding}
    {s : UpsertStage × UserIdentityBinding}
    (h : (upsertUserIdentityBinding.step fault stage row db.identities).1 = .ok (some s)) :
    (identity s.1 s.2).Located db := by
  obtain ⟨stage', row'⟩ := s
  rcases step_next h with ⟨-, rfl, -⟩ | ⟨-, rfl, -⟩ | ⟨x, hx, hcheck, rfl, -⟩
  · trivial
  · trivial
  · obtain ⟨hmem, hkey⟩ := byKey_eq_some.mp hx
    have hcheck : (if x.userId ≠ row.userId then .error (row.conflict x) else .ok row)
        = (Except.ok row' : Except Err _) := hcheck
    split at hcheck
    · cases hcheck
    · next huser =>
      cases hcheck
      exact ⟨x, byId_eq_some.mpr ⟨hmem, rfl⟩, Prod.ext hkey (not_not.mp huser)⟩

/-- A statement that ends its call is followed by none. -/
theorem next_eq_nil {α : Type} {r : Except Err α}
    (h : (r.map fun _ => ([] : List BindingStmt)) = .ok next) : next = [] := by
  cases r with
  | error err => cases h
  | ok a =>
    cases h
    rfl

/-- A stage of an upsert is followed by the next one, if there is one. -/
theorem next_eq_toList {α : Type} {r : Except Err (Option α)} {f : α → BindingStmt}
    (h : (r.map fun next => next.toList.map f) = .ok next) :
    next = [] ∨ ∃ a, r = .ok (some a) ∧ next = [f a] := by
  cases r with
  | error err => cases h
  | ok o =>
    cases h
    cases o with
    | none => exact .inl rfl
    | some a => exact .inr ⟨a, rfl, rfl⟩

/-- **The statements that follow a statement** are about the rows that it has looked at, and fewer are left
of its call. -/
theorem BindingStmt.exec_next (h : (c.exec env now fault db).1 = .ok next) :
    (∀ c' ∈ next, c'.Located (c.exec env now fault db).2) ∧ (next.map left).sum < c.left := by
  have hnil : next = [] → 0 < c.left →
      (∀ c' ∈ next, c'.Located (c.exec env now fault db).2) ∧ (next.map left).sum < c.left := by
    rintro rfl hpos
    exact ⟨forall_mem_nil _, hpos⟩
  have hone : ∀ {c'}, next = [c'] → c'.Located (c.exec env now fault db).2 → c'.left < c.left →
      (∀ c' ∈ next, c'.Located (c.exec env now fault db).2) ∧ (next.map left).sum < c.left := by
    rintro c' rfl hloc hlt
    exact ⟨forall_mem_singleton.mpr hloc, by simpa using hlt⟩
  cases c with
  | request r =>
    cases r with
    | write w =>
      cases w with
      | upsertAgentChatBindingWithTx inTx b =>
        simp only [exec, OwnerWrite.exec] at h
        split at h
        · cases h
        · split at h
          · exact hnil (next_eq_nil h) (by simp [left])
          · exact hone (Except.ok.inj h).symm trivial (by simp [left, UpsertStage.left])
      | upsertAgentChatBindingFromMembership m =>
        simp only [exec, OwnerWrite.exec] at h
        split at h
        · cases h
        · exact hone (Except.ok.inj h).symm trivial (by simp [left])
      | setAgentChatBindingsEnabled a => exact hnil (next_eq_nil h) (by simp [left])
      | upsertUserIdentityBindingRowWithTx inTx b =>
        simp only [exec, OwnerWrite.exec] at h
        split at h
        · cases h
        · split at h
          · exact hnil (next_eq_nil h) (by simp [left])
          · exact hone (Except.ok.inj h).symm trivial (by simp [left, UpsertStage.left])
    | backfillChatMembershipUserByExternal source externalUserID userID =>
      exact hnil (next_eq_nil h) (by simp [left])
    | handleChatMembershipEvent d =>
      simp only [exec] at h
      split at h
      · cases h
      · exact hone (Except.ok.inj h).symm trivial (by simp [left])
  | binding stage row =>
    rcases next_eq_toList h with hend | ⟨s, hstep, hs⟩
    · exact hnil hend (by cases stage <;> simp [left, UpsertStage.left])
    · exact hone hs ((located_binding_next hstep).mono (exec_keepsRows env now fault (.binding stage row) db))
        (step_left hstep)
  | identity stage row =>
    rcases next_eq_toList h with hend | ⟨s, hstep, hs⟩
    · exact hnil hend (by cases stage <;> simp [left, UpsertStage.left])
    · exact hone hs ((located_identity_next hstep).mono (exec_keepsRows env now fault (.identity stage row) db))
        (step_left hstep)
  | subject lookup e =>
    refine hone (Except.ok.inj h).symm ?_ ?_
    · cases lookup <;> trivial
    · cases lookup <;> simp [SubjectLookup.next, left]
  | log e =>
    simp only [exec, MembershipCall.log] at h
    split at h
    · cases h
    · split at h
      · cases h
      · cases h
        refine ⟨forall_mem_append.mpr ⟨List.forall_mem_map.mpr fun _ _ => trivial, forall_mem_singleton.mpr trivial⟩, ?_⟩
        simp only [MembershipCall.writes]
        split
        · simp [left]
        · split <;> simp [left]
  | sideEffects e =>
    simp only [exec, MembershipCall.sideEffects] at h
    split at h
    · cases h
    · exact hnil (Except.ok.inj h).symm (by simp [left])

/-! ## Refusals -/

/-- What a statement does whose call asks for the row of another user: it changes neither table, and
nothing at all unless it logs an event; and its call returns a conflict or goes on asking. -/
structure BindingStmt.Refused (env : BindingEnv) (fault : Option Err) (c : BindingStmt) (ask : OwnerAsk)
    (db : BindingDB) (r : Except Err (List BindingStmt) × BindingDB) : Prop where
  bindings : r.2.bindings = db.bindings
  identities : r.2.identities = db.identities
  unchanged : c.logs = false → r.2 = db
  result : (∃ err, r.1 = .error err ∧ (err.is .identityBindingConflict = true ∨ fault = some err)) ∨
    ∃ c' rest, r.1 = .ok (c' :: rest) ∧ c'.ask env = some ask

/-- A statement that changes nothing refuses by what it returns. -/
theorem BindingStmt.Refused.of_result {r : Except Err (List BindingStmt)}
    (h : (∃ err, r = .error err ∧ (err.is .identityBindingConflict = true ∨ fault = some err)) ∨
      ∃ c' rest, r = .ok (c' :: rest) ∧ c'.ask env = some ask) :
    c.Refused env fault ask db (r, db) :=
  ⟨rfl, rfl, fun _ => rfl, h⟩

/-- A binding asks for its key and its user. -/
theorem AgentChatBinding.ask_eq_some {b : AgentChatBinding} (h : b.ask = some ask) :
    0 < b.newAPIUserId ∧ ask = (.binding (Row.key b), b.newAPIUserId) := by
  unfold AgentChatBinding.ask at h
  split at h
  · next hpos => exact ⟨hpos, (Option.some.inj h).symm⟩
  · cases h

/-- The check refuses a binding that is contested. -/
theorem AgentChatBinding.adopt_contested {b : AgentChatBinding} (hask : b.ask = some ask)
    (hcontested : db.Contested ask) :
    ∃ x, db.bindings.byKey (Row.key b) = some x ∧ b.adopt x = .error (b.conflict x) := by
  obtain ⟨hpos, rfl⟩ := ask_eq_some hask
  obtain ⟨u, hu, hne, howner⟩ := hcontested
  obtain ⟨x, hx, rfl⟩ := map_eq_some_iff.mp howner
  have hid : ¬ x.id ≤ 0 := Int.not_le.mpr (db.bindings.id_pos x (byKey_eq_some.mp hx).1)
  refine ⟨x, hx, ?_⟩
  rw [adopt, if_neg hid, if_pos hu, if_pos ⟨hpos, hne⟩]

/-- The check refuses an identity that is contested. -/
theorem UserIdentityBinding.check_contested {b : UserIdentityBinding} (hcontested : db.Contested b.ask) :
    ∃ x, db.identities.byKey (Row.key b) = some x ∧
      upsertUserIdentityBinding.check b x = .error (b.conflict x) := by
  obtain ⟨u, hu, hne, howner⟩ := hcontested
  obtain ⟨x, hx, rfl⟩ := map_eq_some_iff.mp howner
  exact ⟨x, hx, if_pos hne⟩

/-- The user that a binding asks for once it is canonical, from its key and user alone. -/
theorem AgentChatBinding.normalize_ask_congr {b b' : AgentChatBinding} (hkey : Row.key b' = Row.key b)
    (huser : b'.newAPIUserId = b.newAPIUserId) :
    (b'.normalize env).toOption.bind AgentChatBinding.ask
      = (b.normalize env).toOption.bind AgentChatBinding.ask := by
  have hcanonical : Row.key (b'.canonical env) = Row.key (b.canonical env) := by
    simp only [Row.key, Prod.mk.injEq] at hkey ⊢
    obtain ⟨hsite, hsource, hroom, hexternal⟩ := hkey
    simp [canonical, hsite, hsource, hroom, hexternal]
  have hask : (b'.canonical env).ask = (b.canonical env).ask := by
    have huser' : (b'.canonical env).newAPIUserId = (b.canonical env).newAPIUserId := huser
    unfold ask
    rw [hcanonical, huser']
  have hincomplete : (b'.canonical env).incomplete = (b.canonical env).incomplete := by
    simp only [Row.key, Prod.mk.injEq] at hcanonical
    obtain ⟨hsite, hsource, hroom, hexternal⟩ := hcanonical
    simp [incomplete, hsite, hsource, hroom, hexternal]
  unfold normalize
  rw [hincomplete]
  split
  · rfl
  · exact hask

/-- **A writer refuses** a contested row, unless it switches bindings. -/
theorem OwnerWrite.exec_refused {w : OwnerWrite} (hguard : w.Guarded db)
    (hask : w.ask env = some ask) (hcontested : db.Contested ask) :
    (request (.write w)).Refused env fault ask db (w.exec env now fault db) := by
  cases w with
  | upsertAgentChatBindingWithTx inTx b =>
    obtain ⟨row, hrow, hask⟩ := bind_eq_some_iff.mp hask
    have hrow := eq_ok_of_toOption hrow
    simp only [exec, hrow]
    split
    · obtain ⟨x, hx, hadopt⟩ := AgentChatBinding.adopt_contested hask hcontested
      have hexec := Upsert.exec_refused (u := upsertAgentChatBinding) hx hadopt .diverges 3
      cases fault with
      | some err => exact .of_result (.inl ⟨err, rfl, .inr rfl⟩)
      | none =>
        rw [transaction_error hexec]
        exact .of_result (.inl ⟨_, rfl, .inl rfl⟩)
    · exact .of_result (.inr ⟨_, _, rfl, hask⟩)
  | upsertAgentChatBindingFromMembership m =>
    obtain ⟨row, hrow, hask⟩ := bind_eq_some_iff.mp hask
    have hrow := eq_ok_of_toOption hrow
    simp only [exec, hrow]
    refine .of_result (.inr ⟨_, _, rfl, ?_⟩)
    refine (AgentChatBinding.normalize_ask_congr (b := row) ?_ ?_).trans hask
    · cases (if fault.isSome then none else db.bindings.byKey (Row.key row)) <;> rfl
    · -- the user of the stored binding stands in for none only
      have hpos : ¬ row.newAPIUserId ≤ 0 := by
        obtain ⟨row', hrow', hask⟩ := bind_eq_some_iff.mp hask
        have hnormal := eq_ok_of_toOption hrow'
        unfold AgentChatBinding.normalize at hnormal
        split at hnormal
        · cases hnormal
        · cases hnormal
          have hpos := (AgentChatBinding.ask_eq_some hask).1
          show ¬ (row.canonical env).newAPIUserId ≤ 0
          omega
      cases (if fault.isSome then none else db.bindings.byKey (Row.key row)) with
      | none => rfl
      | some current => exact if_neg hpos
  | setAgentChatBindingsEnabled a =>
    have hask : (if a.incomplete = false ∧ 0 < a.userID then some (.binding a.key, a.userID) else none)
        = some ask := hask
    split at hask
    · next hvalid =>
      cases hask
      obtain ⟨u, hu, hne, howner⟩ := hcontested
      obtain ⟨x, hx, rfl⟩ := map_eq_some_iff.mp howner
      exact absurd (hguard hvalid.2 x hx hu) hne
    · cases hask
  | upsertUserIdentityBindingRowWithTx inTx b =>
    obtain ⟨row, hrow, rfl⟩ := map_eq_some_iff.mp hask
    have hrow := eq_ok_of_toOption hrow
    simp only [exec, hrow]
    split
    · obtain ⟨x, hx, hcheck⟩ := UserIdentityBinding.check_contested (b := row.stamp now) hcontested
      have hexec := Upsert.exec_refused (u := upsertUserIdentityBinding) hx hcheck .diverges 3
      cases fault with
      | some err => exact .of_result (.inl ⟨err, rfl, .inr rfl⟩)
      | none =>
        rw [transaction_error hexec]
        exact .of_result (.inl ⟨_, rfl, .inl rfl⟩)
    · exact .of_result (.inr ⟨_, _, rfl, rfl⟩)

/-- What a binding from a membership asks for does not depend on names and remarks. -/
theorem MembershipBinding.ask_congr {m m' : MembershipBinding} (hkey : Row.key m'.row = Row.key m.row)
    (huser : m'.userID = m.userID) :
    OwnerWrite.ask env (.upsertAgentChatBindingFromMembership m')
      = OwnerWrite.ask env (.upsertAgentChatBindingFromMembership m) := by
  have hincomplete : m'.row.incomplete = m.row.incomplete := by
    simp only [Row.key, Prod.mk.injEq] at hkey
    obtain ⟨hsite, hsource, hroom, hexternal⟩ := hkey
    simp [AgentChatBinding.incomplete, hsite, hsource, hroom, hexternal]
  show (m'.binding.toOption.bind fun b => (b.normalize env).toOption.bind AgentChatBinding.ask)
    = m.binding.toOption.bind fun b => (b.normalize env).toOption.bind AgentChatBinding.ask
  unfold binding
  rw [hincomplete]
  split
  · rfl
  · exact AgentChatBinding.normalize_ask_congr hkey huser

/-- What an event asks for depends on the event and the user alone. -/
theorem MembershipCall.ask_congr {e' : MembershipCall} (hinput : e'.input = e.input)
    (huser : e'.subject.userID = e.subject.userID) : e'.ask env = e.ask env := by
  have hwrites : (e'.writes env).head?.bind (OwnerWrite.ask env)
      = (e.writes env).head?.bind (OwnerWrite.ask env) := by
    simp only [writes, hinput, huser]
    split
    · rfl
    · split
      · exact MembershipBinding.ask_congr rfl rfl
      · rfl
  unfold MembershipCall.ask
  rw [hinput, hwrites]

/-- An event that asks for a user has one. -/
theorem MembershipCall.userID_pos (h : e.ask env = some ask) : 0 < e.subject.userID := by
  unfold MembershipCall.ask at h
  split at h
  · cases h
  · simp only [writes] at h
    split at h
    · -- a switch asks for a user that is there
      have h : (if _ ∧ 0 < e.subject.userID then some _ else none) = some ask := h
      split at h
      · next hvalid => exact hvalid.2
      · cases h
    · split at h
      · next hpos => exact hpos
      · cases h

theorem SubjectLookup.exec_userID (h : 0 < e.subject.userID) (lookup : SubjectLookup) :
    (lookup.exec env fault e db).userID = e.subject.userID := by
  have hpos : ¬ e.subject.userID ≤ 0 := Int.not_le.mpr h
  have hstate : ∀ row : Option ChatMembershipState,
      ((row.map e.subject.addState).getD e.subject).userID = e.subject.userID := by
    intro row
    cases row with
    | none => rfl
    | some state => simp [addState, hpos]
  cases lookup with
  | binding =>
    simp only [SubjectLookup.exec]
    cases (if fault.isSome then none else db.bindings.byKey _) with
    | none => rfl
    | some b => simp [addBinding, hpos]
  | identity =>
    simp only [SubjectLookup.exec]
    cases (if fault.isSome then none else (db.identities.byKey _).filter _) with
    | none => rfl
    | some b => simp [addIdentity, hpos]
  | state =>
    simp only [SubjectLookup.exec]
    cases e.delivery.crossSource with
    | none => exact hstate _
    | some identity =>
      have huser := hstate (if fault.isSome then none
        else db.membership.states.byKey (e.input.key env.membership.siteID))
      simp only [map_some, getD_some, addCrossSource, huser]
      rw [if_neg hpos]
      exact huser

/-- An event is logged as it came when it names a user. -/
theorem MembershipCall.log_refused (hask : e.ask env = some ask) :
    (BindingStmt.log e).Refused env fault ask db (e.log env fault db) := by
  have htables := e.log_tables env fault db
  refine ⟨htables.1, htables.2, (fun h => Bool.noConfusion h), ?_⟩
  cases fault with
  | some err => exact .inl ⟨err, rfl, .inr rfl⟩
  | none =>
    have hid : ¬ trimSpace e.input.eventID = "" := by
      intro hid
      rw [MembershipCall.ask, if_pos hid] at hask
      cases hask
    have hresolved : e.resolved.eventID = e.input.eventID := by
      unfold resolved
      split <;> rfl
    rw [MembershipCall.ask, if_neg hid] at hask
    obtain ⟨w, hw, hask⟩ := bind_eq_some_iff.mp hask
    obtain ⟨rest, hrest⟩ : ∃ rest, e.writes env = w :: rest := by
      cases hwrites : e.writes env with
      | nil =>
        rw [hwrites] at hw
        cases hw
      | cons w' rest =>
        rw [hwrites] at hw
        cases hw
        exact ⟨rest, rfl⟩
    refine .inr ⟨.request (.write w), rest.map (fun w => .request (.write w)) ++ [.sideEffects e], ?_, hask⟩
    have hlog : ∃ r m, upsertChatMembershipEvent env.membership (unixSeconds e.delivery.now) e.resolved
        db.membership = (.ok r, m) := by
      unfold upsertChatMembershipEvent
      rw [hresolved, if_neg hid]
      dsimp only
      split <;> exact ⟨_, _, rfl⟩
    obtain ⟨r, m, hlog⟩ := hlog
    simp only [MembershipCall.log, hlog, hrest]
    rfl

/-- **A statement refuses** a contested row if it checks. -/
theorem BindingStmt.exec_refused (hloc : c.Located db) (hguard : c.Guarded db)
    (hask : c.ask env = some ask) (hcontested : db.Contested ask) :
    c.Refused env fault ask db (c.exec env now fault db) := by
  cases c with
  | request r =>
    cases r with
    | write w => exact exec_refused hguard hask hcontested
    | backfillChatMembershipUserByExternal source externalUserID userID => cases hask
    | handleChatMembershipEvent d =>
      obtain ⟨e, he, hask⟩ := bind_eq_some_iff.mp hask
      simp only [exec, eq_ok_of_toOption he]
      exact .of_result (.inr ⟨_, _, rfl, hask⟩)
  | binding stage row =>
    obtain ⟨x, hx, hadopt⟩ := AgentChatBinding.adopt_contested hask hcontested
    by_cases hstage : ∃ id, stage = .update id
    · -- the row that the update is about has another owner, against the condition
      obtain ⟨id, rfl⟩ := hstage
      obtain ⟨y, hy, hkey⟩ := hloc
      obtain ⟨-, rfl⟩ := AgentChatBinding.ask_eq_some hask
      obtain ⟨u, hu, hne, howner⟩ := hcontested
      have hrow : db.bindings.byKey (Row.key row) = some y :=
        byKey_eq_some.mpr ⟨(byId_eq_some.mp hy).1, hkey⟩
      have howner : (db.bindings.byKey (Row.key row)).map AgentChatBinding.newAPIUserId = some u := howner
      rw [hrow] at howner
      cases howner
      exact absurd (hguard y hy hu) hne
    · rcases step_refused (u := upsertAgentChatBinding) fault hx hadopt
        (not_exists.mp hstage) with ⟨err, hstep, herr⟩ | ⟨rfl, hstep⟩
      · simp only [exec, hstep]
        refine .of_result (.inl ⟨err, rfl, herr.imp ?_ id⟩)
        rintro rfl
        rfl
      · simp only [exec, hstep]
        exact .of_result (.inr ⟨_, _, rfl, hask⟩)
  | identity stage row =>
    cases hask
    obtain ⟨x, hx, hcheck⟩ := UserIdentityBinding.check_contested hcontested
    by_cases hstage : ∃ id, stage = .update id
    · -- an update of an identity is about a row with its own user
      obtain ⟨id, rfl⟩ := hstage
      obtain ⟨y, hy, heq⟩ := hloc
      obtain ⟨hkey, huser⟩ := Prod.mk.inj heq
      obtain ⟨u, hu, hne, howner⟩ := hcontested
      have hrow : db.identities.byKey (Row.key row) = some y :=
        byKey_eq_some.mpr ⟨(byId_eq_some.mp hy).1, hkey⟩
      have howner : (db.identities.byKey (Row.key row)).map UserIdentityBinding.userId = some u := howner
      rw [hrow] at howner
      cases howner
      exact absurd huser hne
    · rcases step_refused (u := upsertUserIdentityBinding) fault hx hcheck
        (not_exists.mp hstage) with ⟨err, hstep, herr⟩ | ⟨rfl, hstep⟩
      · simp only [exec, hstep]
        refine .of_result (.inl ⟨err, rfl, herr.imp ?_ id⟩)
        rintro rfl
        rfl
      · simp only [exec, hstep]
        exact .of_result (.inr ⟨_, _, rfl, rfl⟩)
  | subject lookup e =>
    refine .of_result (.inr ⟨_, _, rfl, ?_⟩)
    have huser : (lookup.exec env fault e db).userID = e.subject.userID :=
      SubjectLookup.exec_userID (userID_pos hask) lookup
    have hsame : MembershipCall.ask env { e with subject := lookup.exec env fault e db } = e.ask env :=
      ask_congr rfl huser
    cases lookup <;> exact hsame.trans hask
  | log e => exact log_refused hask
  | sideEffects e => cases hask

end Statements

/-! ## Runs -/

/-- What a call does whose row names another user: it changes neither table, and nothing at all unless it
logs an event; and it returns a conflict, or it goes on asking with fewer statements left. -/
structure BindingThread.Refused (env : BindingEnv) (fault : Option Err) (t : BindingThread) (ask : OwnerAsk)
    (db : BindingDB) (r : BindingThread × BindingDB) : Prop where
  bindings : r.2.bindings = db.bindings
  identities : r.2.identities = db.identities
  unchanged : t.logs = false → r.2 = db
  result : (∃ err, r.1 = .returned (.error err) ∧
      (err.is .identityBindingConflict = true ∨ fault = some err)) ∨
    r.1.ask env = some ask ∧ r.1.left < t.left

/-- Every step of a call whose row names another user is refused. -/
def BindingSystem.Refuses (env : BindingEnv) (s : BindingSystem) : BindingEvent → Prop
  | .request _ => True
  | .step i now fault => ∀ t ∈ s.threads[i]?, ∀ ask ∈ t.ask env, s.shared.Contested ask →
    t.Refused env fault ask s.shared (t.step env now fault s.shared)

/-- The updates of a call are about the rows that it has looked at. -/
def BindingThread.Located (db : BindingDB) (t : BindingThread) : Prop := ∀ c ∈ t.stmts, c.Located db

section Runs

variable {env : BindingEnv} {now : Int} {fault : Option Err} {db db' : BindingDB} {t : BindingThread}
  {s : BindingSystem} {e : BindingEvent}

@[simp] theorem BindingThread.stmts_ofList (cs : List BindingStmt) : (ofList cs).stmts = cs := by
  cases cs <;> rfl

/-- A step of a call is its next statement: it returns the error, or goes on with what follows. -/
theorem BindingThread.step_running (env : BindingEnv) (now : Int) (fault : Option Err) (c : BindingStmt)
    (rest : List BindingStmt) (db : BindingDB) :
    (∃ err, (c.exec env now fault db).1 = .error err ∧ (running c rest).step env now fault db
        = (.returned (.error err), (c.exec env now fault db).2)) ∨
      ∃ next, (c.exec env now fault db).1 = .ok next ∧ (running c rest).step env now fault db
        = (.ofList (next ++ rest), (c.exec env now fault db).2) := by
  cases hexec : c.exec env now fault db with
  | mk r db' =>
    cases r with
    | error err => exact .inl ⟨err, rfl, by simp [step, hexec]⟩
    | ok next => exact .inr ⟨next, rfl, by simp [step, hexec]⟩

theorem BindingThread.step_snd (env : BindingEnv) (now : Int) (fault : Option Err) (c : BindingStmt)
    (rest : List BindingStmt) (db : BindingDB) :
    ((running c rest).step env now fault db).2 = (c.exec env now fault db).2 := by
  rcases step_running env now fault c rest db with ⟨err, -, hstep⟩ | ⟨next, -, hstep⟩ <;> rw [hstep]

/-- A call stays about the rows that it has looked at. -/
theorem BindingThread.Located.step (h : t.Located db) :
    (t.step env now fault db).1.Located (t.step env now fault db).2 := by
  cases t with
  | returned r => exact h
  | running c rest =>
    have hrows := c.exec_keepsRows env now fault db
    rcases step_running env now fault c rest db with ⟨err, -, hstep⟩ | ⟨next, hnext, hstep⟩
    · rw [hstep]
      intro c' hc'
      cases hc'
    · rw [hstep]
      intro c' hc'
      rw [stmts_ofList] at hc'
      rcases mem_append.mp hc' with hmem | hmem
      · exact (exec_next hnext).1 c' hmem
      · exact (h c' (mem_cons_of_mem c hmem)).mono hrows

/-- A step of a call that finds no other owner keeps the owners. -/
theorem BindingThread.step_keepsOwners (hguard : ∀ c ∈ t.stmts.head?, c.Guarded db) :
    db.KeepsOwners (t.step env now fault db).2 := by
  cases t with
  | returned r => exact .refl db
  | running c rest =>
    rw [step_snd]
    exact exec_keepsOwners (hguard c rfl)

theorem BindingThread.step_keepsRows (env : BindingEnv) (now : Int) (fault : Option Err) (t : BindingThread)
    (db : BindingDB) : db.KeepsRows (t.step env now fault db).2 := by
  cases t with
  | returned r => exact .of_eq rfl rfl
  | running c rest =>
    rw [step_snd]
    exact c.exec_keepsRows env now fault db

/-- A call whose row names another user is refused. -/
theorem BindingThread.step_refused (hloc : t.Located db)
    (hguard : ∀ c ∈ t.stmts.head?, c.Guarded db) (hask : t.ask env = some ask)
    (hcontested : db.Contested ask) : t.Refused env fault ask db (t.step env now fault db) := by
  cases t with
  | returned r => cases hask
  | running c rest =>
    have hrefused : c.Refused env fault ask db (c.exec env now fault db) :=
      BindingStmt.exec_refused (hloc c mem_cons_self) (hguard c rfl) hask hcontested
    rcases step_running env now fault c rest db with ⟨err, herr, hstep⟩ | ⟨next, hnext, hstep⟩
    · rw [hstep]
      refine ⟨hrefused.bindings, hrefused.identities, hrefused.unchanged, .inl ⟨err, rfl, ?_⟩⟩
      rcases hrefused.result with ⟨err', herr', hconflict⟩ | ⟨c', next, hnext, -⟩
      · cases herr.symm.trans herr'
        exact hconflict
      · cases herr.symm.trans hnext
    · rw [hstep]
      refine ⟨hrefused.bindings, hrefused.identities, hrefused.unchanged, .inr ⟨?_, ?_⟩⟩
      · rcases hrefused.result with ⟨err', herr', -⟩ | ⟨c', next', hnext', hask'⟩
        · cases hnext.symm.trans herr'
        · cases hnext.symm.trans hnext'
          exact hask'
      · -- what is left of the call goes down, and the rest stays
        have hleft := (BindingStmt.exec_next hnext).2
        show ((ofList (next ++ rest)).stmts.map BindingStmt.left).sum
          < ((c :: rest).map BindingStmt.left).sum
        rw [stmts_ofList, map_append, sum_append, map_cons, sum_cons]
        omega

/-- **Step lemma**: the calls stay about the rows that they have looked at. -/
theorem BindingSystem.step_located (h : ∀ t ∈ s.threads, t.Located s.shared) :
    ∀ t ∈ (BindingSystem.step env s e).threads, t.Located (BindingSystem.step env s e).shared := by
  cases e with
  | request r =>
    refine Pool.forall_spawn (P := fun t => BindingThread.Located s.shared t) h fun c hc => ?_
    rw [mem_singleton.mp hc]
    trivial
  | step i now fault =>
    refine Pool.stepAt_elim (P := fun p : BindingSystem => ∀ t ∈ p.threads, t.Located p.shared) (fun _ => h)
      fun t ht => ?_
    have hrows := t.step_keepsRows env now fault s.shared
    exact Pool.forall_mem_set (fun t' ht' c hc => (h t' ht' c hc).mono hrows)
      (h t (mem_of_getElem? ht)).step

/-- **Step lemma**: an owner stays, and a call that asks for the row of another user is refused. -/
theorem BindingSystem.step_owners (hloc : ∀ t ∈ s.threads, t.Located s.shared) (hguard : s.Guarded e) :
    s.shared.KeepsOwners (BindingSystem.step env s e).shared ∧ s.Refuses env e := by
  cases e with
  | request r => exact ⟨.refl s.shared, trivial⟩
  | step i now fault =>
    refine ⟨?_, fun t ht ask hask hcontested => ?_⟩
    · exact Pool.stepAt_elim (P := fun p => s.shared.KeepsOwners p.shared) (fun _ => .refl s.shared)
        fun t ht => step_keepsOwners (hguard t ht)
    · exact step_refused (hloc t (mem_of_getElem? ht)) (hguard t ht) hask hcontested

/-- **A chat identity keeps its owner** in every run in which the writes that do not check find no other
one: whoever a row names after some steps it names after any further ones, and at each of them a call that
asks for the row of another user is refused. -/
theorem chat_identities_keep_owner (env : BindingEnv) (db : BindingDB) (past : List BindingEvent)
    (e : BindingEvent) (later : List BindingEvent)
    (h : Along (BindingSystem.step env) BindingSystem.Guarded ⟨db, []⟩ (past ++ e :: later)) :
    (run (BindingSystem.step env) ⟨db, []⟩ past).shared.KeepsOwners
        (run (BindingSystem.step env) ⟨db, []⟩ (past ++ e :: later)).shared ∧
      BindingSystem.Refuses env (run (BindingSystem.step env) ⟨db, []⟩ past) e := by
  obtain ⟨hpast, hlater⟩ := along_append.mp h
  have hlocated : ∀ t ∈ (run (BindingSystem.step env) ⟨db, []⟩ past).threads,
      t.Located (run (BindingSystem.step env) ⟨db, []⟩ past).shared :=
    run_keeps (I := fun s : BindingSystem => ∀ t ∈ s.threads, t.Located s.shared)
      (fun _ _ hs => BindingSystem.step_located hs) (fun _ ht => (not_mem_nil ht).elim) past
  refine ⟨?_, (BindingSystem.step_owners hlocated hlater.1).2⟩
  -- the invariant of the rest: the owners of the past are kept, and updates are about rows looked at
  rw [run_append]
  refine (run_keeps_along (I := fun s : BindingSystem =>
      (run (BindingSystem.step env) ⟨db, []⟩ past).shared.KeepsOwners s.shared ∧
        ∀ t ∈ s.threads, t.Located s.shared) ?_ ⟨.refl _, hlocated⟩ hlater).1
  intro s e hs hguard
  exact ⟨hs.1.trans (BindingSystem.step_owners hs.2 hguard).1, BindingSystem.step_located hs.2⟩

end Runs

/-! ## One identity -/

/-- A site whose identifiers are canonical. -/
def BindingEnv.sample : BindingEnv := ⟨sampleMembership, id⟩

/-- Tables without rows. -/
def BindingDB.sample : BindingDB := ⟨.empty, .empty, emptyMembershipDb⟩

/-- A call that binds the sample identity to a user, within a transaction or not. -/
def sampleBind (inTx : Bool) (userID : Int) : BindingEvent :=
  .request (.write (.upsertAgentChatBindingWithTx inTx
    { siteId := "prox", source := "qq", roomId := "100200", externalUserId := "42", newAPIUserId := userID }))

/-- The sample identity leaves the room, as another user. -/
def sampleLeave (userID : Int) : BindingEvent :=
  .request (.handleChatMembershipEvent
    { req := { eventID := "leave-1", source := "qq", roomID := "100200", externalUserID := "42"
               newAPIUserID := userID, eventType := "leave", eventAt := 100 }
      now := 1000 * nanosPerSecond, access := sampleAccessEnv [] })

/-- The user of the sample identity after a run. -/
def sampleOwner (events : List BindingEvent) : Option Int :=
  (run (BindingSystem.step .sample) ⟨.sample, []⟩ events).shared.owner (.binding sampleMembershipKey)

/-- The identity of one user is asked for by another one, in a transaction and outside of one. -/
theorem chat_identities_keep_owner_sample :
    sampleOwner [sampleBind true 7, .step 0 0 none] = some 7 ∧
      sampleOwner ([sampleBind true 7, .step 0 0 none] ++ sampleBind true 8 ::
        [sampleBind false 8, .step 1 0 none, .step 2 0 none, .step 2 0 none]) = some 7 := by
  have hbound : sampleOwner [sampleBind true 7, .step 0 0 none] = some 7 := by decide +kernel
  exact ⟨hbound, (chat_identities_keep_owner .sample .sample [sampleBind true 7, .step 0 0 none]
    (sampleBind true 8) [sampleBind false 8, .step 1 0 none, .step 2 0 none, .step 2 0 none]
    (by decide +kernel)).1 (.binding sampleMembershipKey) 7 (by decide) hbound⟩

/-- An identity changes its owner when an event names another user, when two calls have both found it
without one, and it loses its owner to a call that names none. -/
theorem chat_identity_changes_owner :
    (sampleOwner [sampleBind true 7, .step 0 0 none] = some 7 ∧
      sampleOwner ([sampleBind true 7, .step 0 0 none, sampleLeave 8]
        ++ List.replicate 6 (.step 1 0 none)) = some 8) ∧
    (sampleOwner [sampleBind true 0, .step 0 0 none, sampleBind false 7, sampleBind false 8, .step 1 0 none,
        .step 2 0 none, .step 1 0 none, .step 2 0 none, .step 1 0 none] = some 7 ∧
      sampleOwner [sampleBind true 0, .step 0 0 none, sampleBind false 7, sampleBind false 8, .step 1 0 none,
        .step 2 0 none, .step 1 0 none, .step 2 0 none, .step 1 0 none, .step 2 0 none] = some 8) ∧
    (sampleOwner [sampleBind true 0, .step 0 0 none, sampleBind false 0, .step 1 0 none, .step 1 0 none,
        sampleBind true 7, .step 2 0 none] = some 7 ∧
      sampleOwner [sampleBind true 0, .step 0 0 none, sampleBind false 0, .step 1 0 none, .step 1 0 none,
        sampleBind true 7, .step 2 0 none, .step 1 0 none] = some 0) := by
  decide +kernel

end Prox
