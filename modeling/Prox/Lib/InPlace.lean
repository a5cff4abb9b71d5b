import Prox.Lib.Go
import Prox.Lib.Run

/-! # Computations without a rollback

A body that runs inside a transaction of its caller writes in place: when it fails, and the caller drops the
error and commits, what it wrote before the failure stays. `InPlace.statement` runs a single statement, which
writes all or nothing, and `InPlace.andThen` continues with what was written. `InPlace.Unrolled` says that such a computation
is a transaction body in all but its writes before a failure. -/

namespace Prox

namespace InPlace

variable {σ α β E : Type}

/-- One statement: it writes all or nothing. -/
def statement (body : σ → Except E (α × σ)) : σ → Except E α × σ := transaction none body

/-- The computation that writes nothing. -/
def done (r : Except E α) (s : σ) : Except E α × σ := (r, s)

/-- Continues after a success, on what was written. -/
def andThen (x : σ → Except E α × σ) (f : α → σ → Except E β × σ) (s : σ) : Except E β × σ :=
  match x s with
  | (.error e, s') => (.error e, s')
  | (.ok a, s') => f a s'

variable {x : σ → Except E α × σ} {f : α → σ → Except E β × σ} {body : σ → Except E (α × σ)}
  {cont : α → σ → Except E (β × σ)} {s s' : σ} {a : α} {b : β} {e : E}

theorem statement_ok (h : body s = .ok (a, s')) : statement body s = (.ok a, s') := transaction_ok h

theorem statement_error (h : body s = .error e) : statement body s = (.error e, s) := transaction_error h

theorem andThen_ok (h : x s = (.ok a, s')) : andThen x f s = f a s' := by
  simp [andThen, h]

theorem andThen_error (h : x s = (.error e, s')) : andThen x f s = (.error e, s') := by
  simp [andThen, h]

/-- A statement fails and writes nothing, or it succeeds. -/
theorem statement_cases (body : σ → Except E (α × σ)) (s : σ) :
    (∃ e, body s = .error e ∧ statement body s = (.error e, s)) ∨
      ∃ a s', body s = .ok (a, s') ∧ statement body s = (.ok a, s') := by
  cases h : body s with
  | error e => exact .inl ⟨e, rfl, statement_error h⟩
  | ok r =>
    obtain ⟨a, s'⟩ := r
    exact .inr ⟨a, s', rfl, statement_ok h⟩

/-- A continued computation fails with its first part, or it is its second part. -/
theorem andThen_cases (x : σ → Except E α × σ) (f : α → σ → Except E β × σ) (s : σ) :
    (∃ e s', x s = (.error e, s') ∧ andThen x f s = (.error e, s')) ∨
      ∃ a s', x s = (.ok a, s') ∧ andThen x f s = f a s' := by
  rcases h : x s with ⟨r, s'⟩
  cases r with
  | error e => exact .inl ⟨e, s', rfl, andThen_error h⟩
  | ok a => exact .inr ⟨a, s', rfl, andThen_ok h⟩

/-- **The frame rule**: what every statement may do to the state, the whole computation may do. -/
theorem andThen_rel {R : σ → σ → Prop} (htrans : ∀ s s' s'', R s s' → R s' s'' → R s s'')
    (hx : R s (x s).2) (hf : ∀ a s', R s' (f a s').2) : R s (andThen x f s).2 := by
  rcases andThen_cases x f s with ⟨e, s', hs, h⟩ | ⟨a, s', hs, h⟩
  · rw [h]
    rw [hs] at hx
    exact hx
  · rw [h]
    rw [hs] at hx
    exact htrans _ _ _ hx (hf a s')

theorem statement_rel {R : σ → σ → Prop} (hrefl : R s s) (hbody : ∀ a s', body s = .ok (a, s') → R s s') :
    R s (statement body s).2 := by
  rcases statement_cases body s with ⟨e, -, h⟩ | ⟨a, s', hs, h⟩
  · rw [h]
    exact hrefl
  · rw [h]
    exact hbody a s' hs

/-- A result and what it leaves behind, next to what a transaction body computes: the same value and state, or
the same error. -/
def Follows (r : Except E α × σ) (b : Except E (α × σ)) : Prop :=
  (∀ a s', b = .ok (a, s') → r = (.ok a, s')) ∧ ∀ e, b = .error e → ∃ s', r = (.error e, s')

theorem Follows.ok (a : α) (s : σ) : Follows (E := E) (.ok a, s) (.ok (a, s)) := by
  refine ⟨fun a' s' h => ?_, nofun⟩
  cases h
  rfl

theorem Follows.error (e : E) (s : σ) : Follows (α := α) (.error e, s) (.error e) := by
  refine ⟨nofun, fun e' h => ?_⟩
  cases h
  exact ⟨s, rfl⟩

/-- The computation succeeds as the body does and fails as it does; only what it leaves behind when it fails
is its own. -/
def Unrolled (x : σ → Except E α × σ) (body : σ → Except E (α × σ)) : Prop := ∀ s, Follows (x s) (body s)

theorem Unrolled.statement (body : σ → Except E (α × σ)) : Unrolled (statement body) body := by
  intro s
  rcases statement_cases body s with ⟨e, hbody, h⟩ | ⟨a, s', hbody, h⟩
  · rw [h, hbody]
    exact .error e s
  · rw [h, hbody]
    exact .ok a s'

theorem Unrolled.andThen (hx : Unrolled x body) (hf : ∀ a, Unrolled (f a) (cont a)) :
    Unrolled (andThen x f) fun s => body s >>= fun r => cont r.1 r.2 := by
  intro s
  constructor
  · intro b s'' hok
    obtain ⟨⟨a, s'⟩, hbody, hcont⟩ := bind_eq_ok.mp hok
    rw [andThen_ok ((hx s).1 a s' hbody)]
    exact (hf a s').1 b s'' hcont
  · intro e herror
    rcases bind_eq_error.mp herror with hbody | ⟨⟨a, s'⟩, hbody, hcont⟩
    · obtain ⟨s', hs⟩ := (hx s).2 e hbody
      exact ⟨s', andThen_error hs⟩
    · obtain ⟨s'', hs⟩ := (hf a s').2 e hcont
      exact ⟨s'', (andThen_ok ((hx s).1 a s' hbody)).trans hs⟩

/-- The body may be written in another way. -/
theorem Unrolled.congr {body' : σ → Except E (α × σ)} (h : Unrolled x body) (heq : ∀ s, body s = body' s) :
    Unrolled x body' := fun s => heq s ▸ h s

/-- A result that reads no state. -/
theorem Unrolled.done (r : Except E α) : Unrolled (done r) fun s : σ => r.map fun a => (a, s) := by
  intro s
  cases r with
  | error e => exact .error e s
  | ok a => exact .ok a s

/-- Where the body succeeds, the computation has the same effect. -/
theorem Unrolled.ok (h : Unrolled x body) : body s = .ok (a, s') ↔ x s = (.ok a, s') := by
  constructor
  · exact (h s).1 a s'
  · intro hx
    cases hbody : body s with
    | error e =>
      obtain ⟨s'', hs⟩ := (h s).2 e hbody
      rw [hs] at hx
      cases hx
    | ok r =>
      have hs := (h s).1 r.1 r.2 hbody
      rw [hs] at hx
      cases hx
      rfl

end InPlace

end Prox
