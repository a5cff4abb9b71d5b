import Mathlib.Logic.Relation

/-! # Transactions and runs

A component is a deterministic step function `σ → ε → σ`: an event carries everything that is not in
the state (arguments, clock readings, scheduling, injected faults), so a list of events is one
interleaving and a statement about every list is a statement about every run. `transaction` is the
atomic unit most steps are built from, and the rules below lift what one step keeps to what a whole
run keeps. -/

namespace Prox

variable {σ ε α β E : Type}

/-! ## Atomic transactions -/

/-- A database transaction: commit the body's state on success and keep the old state on error.
`fault` is an error the database itself raises at some statement or at the commit. -/
def transaction (fault : Option E) (body : σ → Except E (α × σ)) (s : σ) : Except E α × σ :=
  match fault with
  | some e => (.error e, s)
  | none =>
    match body s with
    | .error e => (.error e, s)
    | .ok (a, s') => (.ok a, s')

variable {body : σ → Except E (α × σ)} {s : σ}

/-- Without a fault a successful body is committed. -/
theorem transaction_ok {s' : σ} {a : α} (h : body s = .ok (a, s')) :
    transaction none body s = (.ok a, s') := by
  simp [transaction, h]

/-- Without a fault a failing body reports its error and changes nothing. -/
theorem transaction_error {e : E} (h : body s = .error e) :
    transaction none body s = (.error e, s) := by
  simp [transaction, h]

/-- A transaction rolls back with an error or commits what its body computed. -/
theorem transaction_cases (fault : Option E) (body : σ → Except E (α × σ)) (s : σ) :
    (∃ e, transaction fault body s = (.error e, s)) ∨
      ∃ a s', body s = .ok (a, s') ∧ transaction fault body s = (.ok a, s') := by
  cases fault with
  | some e => exact .inl ⟨e, rfl⟩
  | none =>
    cases hb : body s with
    | error e => exact .inl ⟨e, transaction_error hb⟩
    | ok r => exact .inr ⟨r.1, r.2, rfl, transaction_ok hb⟩

variable {fault : Option E}

/-- What holds of a rollback with any error, and of every success of the body, holds of a
transaction. -/
theorem transaction_elim {P : Except E α × σ → Prop} (herror : ∀ e, P (.error e, s))
    (hok : ∀ a s', body s = .ok (a, s') → P (.ok a, s')) : P (transaction fault body s) := by
  rcases transaction_cases fault body s with ⟨e, he⟩ | ⟨a, s', hbody, he⟩
  · rw [he]; exact herror e
  · rw [he]; exact hok a s' hbody

variable {P : σ → Prop}

/-- Whatever holds before a transaction and after every success of its body holds after it. -/
theorem transaction_keeps (hs : P s) (hb : ∀ a s', body s = .ok (a, s') → P s') :
    P (transaction fault body s).2 :=
  transaction_elim (P := fun r => P r.2) (fun _ => hs) hb

/-- Argument checks before a transaction: a failing check reports its error and touches nothing. -/
def checked (args : Except E α) (op : α → σ → Except E β × σ) (s : σ) : Except E β × σ :=
  match args with
  | .error e => (.error e, s)
  | .ok a => op a s

variable {args : Except E α}

theorem checked_ok {a : α} (h : args = .ok a) (op : α → σ → Except E β × σ) (s : σ) :
    checked args op s = op a s := by
  simp [checked, h]

/-- Whatever holds before a checked operation and after it for all accepted arguments holds after
it. -/
theorem checked_keeps {op : α → σ → Except E β × σ} (hs : P s)
    (hop : ∀ a, args = .ok a → P (op a s).2) : P (checked args op s).2 := by
  cases ha : args with
  | error e => exact hs
  | ok a => exact hop a ha

/-- A checked transaction fails and changes nothing, or its checks pass and its body commits. -/
theorem checked_transaction_cases (args : Except E α) (fault : Option E)
    (body : α → σ → Except E (β × σ)) (s : σ) :
    (∃ e, checked args (fun a => transaction fault (body a)) s = (.error e, s)) ∨
      ∃ a b s', args = .ok a ∧ body a s = .ok (b, s') ∧
        checked args (fun a => transaction fault (body a)) s = (.ok b, s') := by
  cases args with
  | error e => exact .inl ⟨e, rfl⟩
  | ok a =>
    rcases transaction_cases fault (body a) s with ⟨e, he⟩ | ⟨b, s', hb, he⟩
    · exact .inl ⟨e, he⟩
    · exact .inr ⟨a, b, s', rfl, hb, he⟩

/-- A checked transaction that meets a fault changes nothing. -/
theorem checked_transaction_fault (args : Except E α) (e : E) (body : α → σ → Except E (β × σ))
    (s : σ) : (checked args (fun a => transaction (some e) (body a)) s).2 = s := by
  cases args <;> rfl

/-- Whatever holds before a checked transaction and after every success of its body holds after
it. -/
theorem checked_transaction_keeps {body : α → σ → Except E (β × σ)} (hs : P s)
    (hbody : ∀ a b s', body a s = .ok (b, s') → P s') :
    P (checked args (fun a => transaction fault (body a)) s).2 :=
  checked_keeps hs fun a _ => transaction_keeps hs (hbody a)

/-- An operation that reports one error for every failure. -/
def reportAs (e : E) (op : σ → Except E α × σ) (s : σ) : Except E α × σ :=
  match op s with
  | (.error _, s) => (.error e, s)
  | (.ok a, s) => (.ok a, s)

/-- The reported error does not matter to the state. -/
@[simp] theorem reportAs_snd (e : E) (op : σ → Except E α × σ) (s : σ) :
    (reportAs e op s).2 = (op s).2 := by
  unfold reportAs
  split <;> simp [*]

/-- Without a fault, the error of a checked transaction comes from its checks or from its body. -/
theorem checked_transaction_eq_error {body : α → σ → Except E (β × σ)} {e : E}
    (h : (checked args (fun a => transaction none (body a)) s).1 = .error e) :
    args = .error e ∨ ∃ a, args = .ok a ∧ body a s = .error e := by
  cases args with
  | error e' => cases h; exact .inl rfl
  | ok a =>
    refine .inr ⟨a, rfl, ?_⟩
    cases hb : body a s with
    | error e' =>
      rw [checked_ok rfl, transaction_error hb] at h
      cases h
      rfl
    | ok r =>
      rw [checked_ok rfl, transaction_ok hb] at h
      cases h

/-- The error of a result, if any. -/
def errorOf : Except E α → Option E
  | .ok _ => none
  | .error e => some e

@[simp] theorem errorOf_eq_none {r : Except E α} : errorOf r = none ↔ ∃ a, r = .ok a := by
  cases r <;> simp [errorOf]

/-- What a caller sees of an operation: the error and the state after it. -/
def outcome (r : Except E α × σ) : Option E × σ := (errorOf r.1, r.2)

@[simp] theorem outcome_fst (r : Except E α × σ) : (outcome r).1 = errorOf r.1 := rfl

@[simp] theorem outcome_snd (r : Except E α × σ) : (outcome r).2 = r.2 := rfl

/-- Repeating a successful operation changes nothing when its body is stuck at what it committed. -/
theorem checked_transaction_again {fault' : Option E} {body body' : α → σ → Except E (β × σ)}
    (hfix : ∀ a b s', args = .ok a → body a s = .ok (b, s') →
      ∀ b' s'', body' a s' = .ok (b', s'') → s'' = s')
    (hok : errorOf (checked args (fun a => transaction fault (body a)) s).1 = none) :
    (checked args (fun a => transaction fault' (body' a))
      (checked args (fun a => transaction fault (body a)) s).2).2
      = (checked args (fun a => transaction fault (body a)) s).2 := by
  rcases checked_transaction_cases args fault body s with ⟨e, he⟩ | ⟨a, b, s', ha, hb, he⟩
  · rw [he] at hok; cases hok
  · rw [he]
    rcases checked_transaction_cases args fault' body' s' with ⟨e, he'⟩ | ⟨a', b', s'', ha', hb', he'⟩
    · rw [he']
    · rw [he']
      obtain rfl : a = a' := Except.ok.inj (ha.symm.trans ha')
      exact hfix a b s' ha hb b' s'' hb'

/-! ## Runs -/

/-- The state after a list of events. -/
def run (step : σ → ε → σ) (s : σ) (events : List ε) : σ := events.foldl step s

section Run

variable {step : σ → ε → σ}

@[simp] theorem run_nil (s : σ) : run step s [] = s := rfl

@[simp] theorem run_cons (s : σ) (e : ε) (es : List ε) :
    run step s (e :: es) = run step (step s e) es := rfl

theorem run_append (s : σ) (es es' : List ε) :
    run step s (es ++ es') = run step (run step s es) es' := by
  simp [run]

/-- `Along step P s es`: the run from `s` through `es` meets the condition `P` at each of its
steps. -/
def Along (step : σ → ε → σ) (P : σ → ε → Prop) : σ → List ε → Prop
  | _, [] => True
  | s, e :: es => P s e ∧ Along step P (step s e) es

instance decidableAlong (P : σ → ε → Prop) [∀ s e, Decidable (P s e)] :
    ∀ (s : σ) (es : List ε), Decidable (Along step P s es)
  | _, [] => inferInstanceAs (Decidable True)
  | s, e :: es =>
    have := decidableAlong P (step s e) es
    inferInstanceAs (Decidable (P s e ∧ Along step P (step s e) es))

variable {P : σ → ε → Prop}

variable (step) in
/-- A condition that always holds is met along every run. -/
theorem along_of_forall (h : ∀ s e, P s e) (s : σ) (es : List ε) : Along step P s es := by
  induction es generalizing s with
  | nil => trivial
  | cons e es ih => exact ⟨h s e, ih _⟩

variable {es : List ε}

/-- A condition is met along a run exactly when it is met along both its parts. -/
theorem along_append {es' : List ε} :
    Along step P s (es ++ es') ↔ Along step P s es ∧ Along step P (run step s es) es' := by
  induction es generalizing s with
  | nil => exact (iff_of_eq (true_and _)).symm
  | cons e es ih =>
    show (P s e ∧ Along step P (step s e) (es ++ es')) ↔ _
    rw [ih, ← and_assoc]
    rfl

/-- A condition on the events alone can be added to a condition along a run. -/
theorem Along.and_mem {Q : ε → Prop} (h : Along step P s es) (hQ : ∀ e ∈ es, Q e) :
    Along step (fun s e => Q e ∧ P s e) s es := by
  induction es generalizing s with
  | nil => trivial
  | cons e es ih =>
    obtain ⟨he, hes⟩ := List.forall_mem_cons.mp hQ
    exact ⟨⟨he, h.1⟩, ih h.2 hes⟩

variable {I : σ → Prop}

/-- The invariant rule: what every permitted step keeps, every permitted run keeps. -/
theorem run_keeps_along (hstep : ∀ s e, I s → P s e → I (step s e)) (hs : I s)
    (hP : Along step P s es) : I (run step s es) := by
  induction es generalizing s with
  | nil => exact hs
  | cons e es ih => exact ih (hstep s e hs hP.1) hP.2

/-- What follows at each permitted step from an invariant, holds along the run. -/
theorem along_of_keeps {Q : σ → ε → Prop} (hstep : ∀ s e, I s → P s e → I (step s e))
    (hQ : ∀ s e, I s → P s e → Q s e) (hs : I s) (hP : Along step P s es) : Along step Q s es := by
  induction es generalizing s with
  | nil => trivial
  | cons e es ih => exact ⟨hQ s e hs hP.1, ih (hstep s e hs hP.1) hP.2⟩

/-- The invariant rule without a condition on the steps. -/
theorem run_keeps (hstep : ∀ s e, I s → I (step s e)) (hs : I s) (es : List ε) :
    I (run step s es) :=
  run_keeps_along (P := fun _ _ => True) (fun s e h _ => hstep s e h) hs
    (along_of_forall _ (fun _ _ => trivial) s es)

/-- The invariant rule with a condition on the events alone. -/
theorem run_keeps_mem {Q : ε → Prop} (hstep : ∀ s e, I s → Q e → I (step s e)) (hs : I s)
    (hQ : ∀ e ∈ es, Q e) : I (run step s es) :=
  run_keeps_along (P := fun _ e => Q e ∧ True) (fun s e h he => hstep s e h he.1) hs
    ((along_of_forall step (fun _ _ => trivial) s es).and_mem hQ)

end Run

/-! ## Histories -/

/-- A condition on every entry of a history and the entries before it; the newest entry comes first. -/
def Throughout (P : List ε → ε → Prop) : List ε → Prop
  | [] => True
  | e :: past => P past e ∧ Throughout P past

/-- Entries that the condition permits after any history can be added. -/
theorem throughout_append {P : List ε → ε → Prop} {es past : List ε} (hes : ∀ e ∈ es, ∀ past, P past e)
    (hpast : Throughout P past) : Throughout P (es ++ past) := by
  induction es with
  | nil => exact hpast
  | cons e es ih =>
    obtain ⟨he, hes⟩ := List.forall_mem_cons.mp hes
    exact ⟨he _, ih hes⟩

end Prox
