import Abacus.Record

/-!
# Computations that tell about their work

A traced computation has the records it made, in order, and its outcome. The records made
before an error are kept. Nothing that a computation does depends on records, so the outcome
of a sequence is the sequence of the outcomes.
-/

namespace Abacus

/-- The records of a computation, and its result or error. -/
structure Traced (ε α : Type) where
  records : List Record
  outcome : Except ε α

namespace Traced

variable {ε α β : Type}

/-- A result, with no records. -/
protected def pure (a : α) : Traced ε α := ⟨[], .ok a⟩

/-- A computation and then, if it succeeds, another one. -/
protected def bind (x : Traced ε α) (f : α → Traced ε β) : Traced ε β :=
  match x.outcome with
  | .error e => ⟨x.records, .error e⟩
  | .ok a =>
    let y := f a
    ⟨x.records ++ y.records, y.outcome⟩

instance : Monad (Traced ε) where
  pure := Traced.pure
  bind := Traced.bind

/-- An outcome, with no records. -/
def lift (outcome : Except ε α) : Traced ε α := ⟨[], outcome⟩

/-- An error, with no records. -/
def fail (e : ε) : Traced ε α := ⟨[], .error e⟩

/-- Make records. -/
def tell (records : List Record) : Traced ε Unit := ⟨records, .ok ()⟩

/-- The same computation, its error seen as another one. -/
def mapError {ε' : Type} (f : ε → ε') (x : Traced ε α) : Traced ε' α :=
  ⟨x.records, x.outcome.mapError f⟩

@[simp] theorem outcome_pure (a : α) : (pure a : Traced ε α).outcome = .ok a := rfl

@[simp] theorem outcome_lift (outcome : Except ε α) : (lift outcome).outcome = outcome := rfl

@[simp] theorem outcome_fail (e : ε) : (fail e : Traced ε α).outcome = .error e := rfl

@[simp] theorem outcome_tell (records : List Record) :
    (tell records : Traced ε Unit).outcome = .ok () := rfl

@[simp] theorem outcome_mapError {ε' : Type} (f : ε → ε') (x : Traced ε α) :
    (x.mapError f).outcome = x.outcome.mapError f := rfl

/-- The outcome of a sequence is the sequence of the outcomes. -/
@[simp] theorem outcome_bind (x : Traced ε α) (f : α → Traced ε β) :
    (x >>= f).outcome = x.outcome >>= fun a => (f a).outcome := by
  rcases x with ⟨records, e | a⟩ <;> rfl

@[simp] theorem records_pure (a : α) : (pure a : Traced ε α).records = [] := rfl

@[simp] theorem records_lift (outcome : Except ε α) : (lift outcome).records = [] := rfl

@[simp] theorem records_fail (e : ε) : (fail e : Traced ε α).records = [] := rfl

@[simp] theorem records_tell (records : List Record) :
    (tell records : Traced ε Unit).records = records := rfl

@[simp] theorem records_mapError {ε' : Type} (f : ε → ε') (x : Traced ε α) :
    (x.mapError f).records = x.records := rfl

/-- The records of a sequence whose first part succeeds. -/
theorem records_bind_ok {x : Traced ε α} {a : α} (h : x.outcome = .ok a) (f : α → Traced ε β) :
    (x >>= f).records = x.records ++ (f a).records := by
  rcases x with ⟨records, e | b⟩
  · cases h
  · cases h; rfl

/-- The records of a sequence whose first part fails. -/
theorem records_bind_error {x : Traced ε α} {e : ε} (h : x.outcome = .error e)
    (f : α → Traced ε β) : (x >>= f).records = x.records := by
  rcases x with ⟨records, e' | b⟩
  · rfl
  · cases h

instance : LawfulMonad (Traced ε) := by
  refine LawfulMonad.mk' (Traced ε) ?_ ?_ ?_
  · rintro α ⟨records, e | a⟩ <;> simp [Functor.map, Traced.bind, Traced.pure]
  · intros
    simp [bind, pure, Traced.bind, Traced.pure]
  · rintro α β γ ⟨records, e | a⟩ f g
    · rfl
    · rcases h : f a with ⟨records', e | b⟩ <;> simp [bind, Traced.bind, h]

end Traced

end Abacus
