import Prox.Lib.Run
import Prox.Lib.Table

/-! # Upserts in several statements

An upsert that looks for its row, inserts it when there is none, and looks again when somebody else was
faster. Within a transaction nothing comes between these statements; outside of one, anything may. The
check of the row that is found is what protects the columns of that row, and the lemmas say how far it
goes. -/

namespace Prox

open Option Table

/-- The statement that an upsert issues next. -/
inductive UpsertStage where
  /-- `SELECT … WHERE key`. -/
  | first
  /-- `INSERT … ON CONFLICT DO NOTHING`. -/
  | insert
  /-- `SELECT … WHERE key`, after an insertion that was ignored. -/
  | again
  /-- `UPDATE … WHERE id`. -/
  | update (id : Int)

/-- The number of statements that are left at most. -/
def UpsertStage.left : UpsertStage → Nat
  | .first => 4
  | .insert => 3
  | .again => 2
  | .update _ => 1

/-- An upsert of rows. -/
structure Upsert (α E : Type) {κ : Type} [Row α κ] where
  /-- The row that is inserted under an auto-increment key. -/
  insertion : α → Int → α
  /-- The insertion keeps the unique key. -/
  insertion_key : ∀ row i, Row.key (insertion row i) = Row.key row
  /-- The check of a row against the stored one, and the row whose columns are then assigned. -/
  check : α → α → Except E α
  /-- A row that is found after the insertion was ignored is assigned as well. -/
  assignsLost : Bool
  /-- The columns that are assigned. -/
  assign : α → Patch α
  /-- The error of a `First` that finds nothing. -/
  missing : E

namespace Upsert

variable {α E κ : Type} [Row α κ] [DecidableEq κ]

/-- One statement of an upsert: what is left to do and the table. -/
def step (u : Upsert α E) (fault : Option E) (stage : UpsertStage) (row : α) (t : Table α) :
    Except E (Option (UpsertStage × α)) × Table α :=
  match fault with
  | some e => (.error e, t)
  | none =>
    match stage with
    | .first =>
      match t.byKey (Row.key row) with
      | none => (.ok (some (.insert, row)), t)
      | some x =>
        match u.check row x with
        | .error e => (.error e, t)
        | .ok row => (.ok (some (.update (Row.id x), row)), t)
    | .insert =>
      match t.insertIgnore (u.insertion row t.nextId) with
      | (_, 0) => (.ok (some (.again, row)), t)
      | (t', _) => (.ok none, t')
    | .again =>
      match t.byKey (Row.key row) with
      | none => (.error u.missing, t)
      | some x =>
        match u.check row x with
        | .error e => (.error e, t)
        | .ok row => (.ok (if u.assignsLost then some (.update (Row.id x), row) else none), t)
    | .update id => (.ok none, (t.updateWhere (fun r => Row.id r = id) (u.assign row)).1)

/-- The statements of an upsert from a stage on, with nothing in between. -/
def exec (u : Upsert α E) (diverged : E) : Nat → UpsertStage → α → Table α → Except E (Unit × Table α)
  | 0, _, _, _ => .error diverged
  | n + 1, stage, row, t =>
    match u.step none stage row t with
    | (.error e, _) => .error e
    | (.ok none, t) => .ok ((), t)
    | (.ok (some (stage, row)), t) => u.exec diverged n stage row t

variable {u : Upsert α E} {fault : Option E} {stage stage' : UpsertStage} {row row' x : α} {t t' : Table α}
  {e : E}

/-- What a statement does to the table. -/
theorem step_table (u : Upsert α E) (fault : Option E) (stage : UpsertStage) (row : α) (t : Table α) :
    (u.step fault stage row t).2 = t ∨
      t.create (u.insertion row t.nextId) = some (u.step fault stage row t).2 ∨
      ∃ id, stage = .update id ∧
        (u.step fault stage row t).2 = (t.updateWhere (fun r => Row.id r = id) (u.assign row)).1 := by
  cases fault with
  | some e => exact .inl rfl
  | none =>
    cases stage with
    | first =>
      simp only [step]
      split
      · exact .inl rfl
      · split <;> exact .inl rfl
    | insert =>
      simp only [step]
      rcases insertIgnore_cases t (u.insertion row t.nextId) with ⟨-, heq⟩ | ⟨t', hcreate, heq⟩
      · rw [heq]
        exact .inl rfl
      · rw [heq]
        exact .inr (.inl hcreate)
    | again =>
      simp only [step]
      split
      · exact .inl rfl
      · split <;> exact .inl rfl
    | update id => exact .inr (.inr ⟨id, rfl, rfl⟩)

/-- What is left after a statement: the upsert goes on with the same row or with the checked one. -/
theorem step_next (h : (u.step fault stage row t).1 = .ok (some (stage', row'))) :
    (stage = .first ∧ stage' = .insert ∧ row' = row) ∨ (stage = .insert ∧ stage' = .again ∧ row' = row) ∨
      ∃ x, t.byKey (Row.key row) = some x ∧ u.check row x = .ok row' ∧ stage' = .update (Row.id x) ∧
        (stage = .first ∨ stage = .again) := by
  cases fault with
  | some e => cases h
  | none =>
    cases stage with
    | first =>
      simp only [step] at h
      split at h
      · cases h
        exact .inl ⟨rfl, rfl, rfl⟩
      · next x hx =>
        split at h
        · cases h
        · next checked hcheck =>
          cases h
          exact .inr (.inr ⟨x, hx, hcheck, rfl, .inl rfl⟩)
    | insert =>
      simp only [step] at h
      split at h
      · cases h
        exact .inr (.inl ⟨rfl, rfl, rfl⟩)
      · cases h
    | again =>
      simp only [step] at h
      split at h
      · cases h
      · next x hx =>
        split at h
        · cases h
        · next checked hcheck =>
          split at h
          · cases h
            exact .inr (.inr ⟨x, hx, hcheck, rfl, .inr rfl⟩)
          · cases h
    | update id => cases h

/-- A statement leaves fewer statements. -/
theorem step_left (h : (u.step fault stage row t).1 = .ok (some (stage', row'))) :
    stage'.left < stage.left := by
  rcases step_next h with ⟨rfl, rfl, -⟩ | ⟨rfl, rfl, -⟩ | ⟨x, -, -, rfl, rfl | rfl⟩ <;>
    simp [UpsertStage.left]

/-- **A row that fails the check is not touched**: every statement but an update leaves the table alone,
and the upsert fails with the error of the check or looks at the row once more. -/
theorem step_refused (fault : Option E) (hx : t.byKey (Row.key row) = some x)
    (hcheck : u.check row x = .error e) (hstage : ∀ id, stage ≠ .update id) :
    (∃ e', u.step fault stage row t = (.error e', t) ∧ (e' = e ∨ fault = some e')) ∨
      stage = .insert ∧ u.step fault stage row t = (.ok (some (.again, row)), t) := by
  cases fault with
  | some e' => exact .inl ⟨e', rfl, .inr rfl⟩
  | none =>
    cases stage with
    | first =>
      refine .inl ⟨e, ?_, .inl rfl⟩
      simp [step, hx, hcheck]
    | insert =>
      have htaken : t.byKey (Row.key (u.insertion row t.nextId)) = some x := by
        rw [u.insertion_key]
        exact hx
      refine .inr ⟨rfl, ?_⟩
      simp [step, insertIgnore_of_byKey htaken]
    | again =>
      refine .inl ⟨e, ?_, .inl rfl⟩
      simp [step, hx, hcheck]
    | update id => exact absurd rfl (hstage id)

/-- A whole upsert of such a row fails with the error of the check. -/
theorem exec_refused (hx : t.byKey (Row.key row) = some x) (hcheck : u.check row x = .error e)
    (diverged : E) (n : Nat) : u.exec diverged (n + 1) .first row t = .error e := by
  have hstep : u.step none .first row t = (.error e, t) := by simp [step, hx, hcheck]
  simp [exec, hstep]

/-- What the statements keep when their updates assign a row that has just been checked, a whole upsert
keeps. -/
theorem exec_keeps {P : Table α → Prop} {diverged : E}
    (hcreate : ∀ t row t', P t → t.create (u.insertion row t.nextId) = some t' → P t')
    (hupdate : ∀ t row x row', P t → t.byKey (Row.key row) = some x → u.check row x = .ok row' →
      P (t.updateWhere (fun r => Row.id r = Row.id x) (u.assign row')).1) :
    ∀ (n : Nat) (row : α) (t t' : Table α), P t →
      u.exec diverged n .first row t = .ok ((), t') → P t' := by
  -- an update comes right after the check of its row
  have hrun : ∀ (n : Nat) (stage : UpsertStage) (row : α) (t t' : Table α), P t →
      (∀ id, stage = .update id → P (t.updateWhere (fun r => Row.id r = id) (u.assign row)).1) →
      u.exec diverged n stage row t = .ok ((), t') → P t' := by
    intro n
    induction n with
    | zero =>
      intro stage row t t' _ _ h
      cases h
    | succ n ih =>
      intro stage row t t' ht hassign h
      have hafter : P (u.step none stage row t).2 := by
        rcases step_table u none stage row t with heq | hcreated | ⟨id, hid, heq⟩
        · rw [heq]
          exact ht
        · exact hcreate t row _ ht hcreated
        · rw [heq]
          exact hassign id hid
      have hsame : ∀ stage' row', (u.step none stage row t).1 = .ok (some (stage', row')) →
          ∀ id, stage' = .update id →
            P ((u.step none stage row t).2.updateWhere (fun r => Row.id r = id) (u.assign row')).1 := by
        intro stage' row' hnext id hid
        rcases step_next hnext with ⟨-, rfl, -⟩ | ⟨-, rfl, -⟩ | ⟨x, hx, hcheck, hstage', hstage⟩
        · cases hid
        · cases hid
        · -- the check has only read the table
          have hread : (u.step none stage row t).2 = t := by
            rcases hstage with rfl | rfl <;> simp [step, hx, hcheck]
          rw [hread]
          cases hstage'.symm.trans hid
          exact hupdate t row x row' ht hx hcheck
      unfold exec at h
      split at h
      · cases h
      · next t₁ hstep =>
        cases h
        rw [hstep] at hafter
        exact hafter
      · next stage' row' t₁ hstep =>
        rw [hstep] at hafter hsame
        exact ih stage' row' t₁ t' hafter (hsame stage' row' rfl) h
  intro n row t t' ht
  exact hrun n .first row t t' ht fun id hid => by cases hid

end Upsert

/-! ## Columns that are kept -/

section Keeps

variable {α κ : Type} [Row α κ]

/-- The rows stay, and with them a value that is read off their columns. -/
def Table.KeepsColumn {β : Type} (f : α → β) (t t' : Table α) : Prop :=
  ∀ i r, t.byId i = some r → ∃ r', t'.byId i = some r' ∧ f r' = f r

variable {β : Type} {f : α → β}

theorem Table.KeepsColumn.refl (f : α → β) (t : Table α) : t.KeepsColumn f t := fun _ r h => ⟨r, h, rfl⟩

theorem Table.KeepsColumn.trans {t t' t'' : Table α} (h : t.KeepsColumn f t') (h' : t'.KeepsColumn f t'') :
    t.KeepsColumn f t'' := by
  intro i r hr
  obtain ⟨r', hr', heq⟩ := h i r hr
  obtain ⟨r'', hr'', heq'⟩ := h' i r' hr'
  exact ⟨r'', hr'', heq'.trans heq⟩

/-- An update keeps the columns that it does not assign. -/
theorem Table.keepsColumn_updateWhere {t : Table α} {p : α → Bool} {a : Patch α}
    (h : ∀ r, f (a.apply r) = f r) : t.KeepsColumn f (t.updateWhere p a).1 := by
  intro i x hx
  refine ⟨if p x then a.apply x else x, ?_, ?_⟩
  · rw [byId_updateWhere, hx, map_some]
  · split
    · exact h x
    · rfl

theorem Table.keepsColumn_create [DecidableEq κ] {t t' : Table α} {r : α} (h : t.create r = some t') :
    t.KeepsColumn f t' := by
  intro i x hx
  obtain ⟨hmem, hid⟩ := byId_eq_some.mp hx
  have hne : i ≠ Row.id r := hid ▸ id_ne_of_create h hmem
  exact ⟨x, (byId_of_create h hne).trans hx, rfl⟩

variable [DecidableEq κ]

/-- A number that is positive in a row stays as it is. -/
def Table.KeepsPositive (col : α → Int) (t t' : Table α) : Prop :=
  ∀ k u, 0 < u → (t.byKey k).map col = some u → (t'.byKey k).map col = some u

variable {col : α → Int} {t t' t'' : Table α} {r : α} {p : α → Bool} {a : Patch α}

theorem Table.KeepsPositive.refl (col : α → Int) (t : Table α) : t.KeepsPositive col t :=
  fun _ _ _ h => h

theorem Table.KeepsPositive.trans (h : t.KeepsPositive col t') (h' : t'.KeepsPositive col t'') :
    t.KeepsPositive col t'' :=
  fun k u hu hk => h' k u hu (h k u hu hk)

/-- An insertion keeps the columns of the stored rows. -/
theorem Table.keepsPositive_create (h : t.create r = some t') : t.KeepsPositive col t' := by
  intro k u _ hk
  obtain ⟨x, hx, rfl⟩ := map_eq_some_iff.mp hk
  rw [byKey_create_of_some h hx]
  rfl

/-- An update keeps a column that it assigns only to rows without a positive number, or as it is. -/
theorem Table.keepsPositive_updateWhere
    (h : ∀ x ∈ t.rows, p x = true → 0 < col x → col (a.apply x) = col x) :
    t.KeepsPositive col (t.updateWhere p a).1 := by
  intro k u hu hk
  obtain ⟨x, hx, rfl⟩ := map_eq_some_iff.mp hk
  rw [byKey_updateWhere, hx, map_some, map_some]
  split
  · next hp => rw [h x (byKey_eq_some.mp hx).1 hp hu]
  · rfl

variable {E : Type} {u : Upsert α E}

/-- The statements of an upsert keep the columns that it does not assign. -/
theorem Upsert.step_keepsColumn (h : ∀ row r, f ((u.assign row).apply r) = f r) (fault : Option E)
    (stage : UpsertStage) (row : α) (t : Table α) : t.KeepsColumn f (u.step fault stage row t).2 := by
  rcases u.step_table fault stage row t with heq | hcreate | ⟨id, -, heq⟩
  · rw [heq]
    exact .refl f t
  · exact keepsColumn_create hcreate
  · rw [heq]
    exact keepsColumn_updateWhere (h row)

theorem Upsert.exec_keepsColumn (h : ∀ row r, f ((u.assign row).apply r) = f r) {diverged : E} {n : Nat}
    {row : α} (hexec : u.exec diverged n .first row t = .ok ((), t')) : t.KeepsColumn f t' :=
  Upsert.exec_keeps (P := fun t' => t.KeepsColumn f t')
    (fun _ _ _ ht hcreate => ht.trans (keepsColumn_create hcreate))
    (fun _ _ _ row' ht _ _ => ht.trans (keepsColumn_updateWhere (h row')))
    n row t t' (.refl f t) hexec

/-- **A check protects a column**: when it lets only rows pass that agree with a positive number of the
stored row, a whole upsert keeps the number. -/
theorem Upsert.exec_keepsPositive
    (h : ∀ row x row', u.check row x = .ok row' → 0 < col x → col ((u.assign row').apply x) = col x)
    {diverged : E} {n : Nat} {row : α} (hexec : u.exec diverged n .first row t = .ok ((), t')) :
    t.KeepsPositive col t' := by
  refine Upsert.exec_keeps (P := fun t' => t.KeepsPositive col t')
    (fun _ _ _ ht hcreate => ht.trans (keepsPositive_create hcreate))
    (fun t₁ row x row' ht hx hcheck => ht.trans ?_) n row t t' (.refl col t) hexec
  refine keepsPositive_updateWhere fun y hy hid hpos => ?_
  obtain rfl : y = x :=
    eq_of_id_eq hy (byKey_eq_some.mp hx).1 (of_decide_eq_true hid)
  exact h row y row' hcheck hpos

end Keeps

end Prox
