/-!
# `SchemaEvolution.Proofs.Support.Outcome`: steps that can fail

Most of the library is written as a chain of steps in `Except`, each of
which may end the chain with an error. The lemmas here take such a chain
apart, so that no proof has to unfold it.

* `bind_eq_ok_iff`: a chain succeeds when each of its steps does.
* `guard_eq_ok_iff`: a guarded step succeeds when the guard does not
  strike and the step does.
* `mapError_bind`: the errors of a chain are worded anew step by step.
* `isOk_bind_iff`: whether a chain succeeds, when its later steps do not
  hang on what the first one gives.
* `bind_pure_inj`: a last step that loses nothing can be left out of a
  comparison.
-/

set_option autoImplicit false

namespace SchemaEvolution

variable {ε α β : Type}

/-- Two steps succeed when the first does and the second does with what
the first gives. -/
theorem bind_eq_ok_iff {x : Except ε α} {f : α → Except ε β} {b : β} :
    (x >>= f) = .ok b ↔ ∃ a, x = .ok a ∧ f a = .ok b := by
  cases x <;> simp [bind, Except.bind]

/-- A guarded step succeeds when the guard does not strike and the step
does. -/
theorem guard_eq_ok_iff {c : Prop} [Decidable c] {e : ε}
    {x : Except ε α} {a : α} :
    (if c then .error e else x) = .ok a ↔ ¬ c ∧ x = .ok a := by
  split <;> simp_all

/-- What a step gives is handed on. -/
@[simp]
theorem ok_bind (a : α) (f : α → Except ε β) :
    ((.ok a : Except ε α) >>= f) = f a := rfl

/-- A step that fails ends the chain. -/
@[simp]
theorem error_bind (e : ε) (f : α → Except ε β) :
    ((.error e : Except ε α) >>= f) = .error e := rfl

/-- A chain may end by giving a value. -/
@[simp]
theorem pure_eq_ok (a : α) : (pure a : Except ε α) = .ok a := rfl

/-- A new wording of the error leaves a success alone. -/
@[simp]
theorem ok_mapError {ε' : Type} (f : ε → ε') (a : α) :
    (.ok a : Except ε α).mapError f = .ok a := rfl

/-- A new wording of the error gives a failure that wording. -/
@[simp]
theorem error_mapError {ε' : Type} (f : ε → ε') (e : ε) :
    (.error e : Except ε α).mapError f = .error (f e) := rfl

theorem mapError_eq_ok_iff {ε' : Type} {f : ε → ε'} {x : Except ε α}
    {a : α} : x.mapError f = .ok a ↔ x = .ok a := by
  cases x <;> simp

/-- A chain is worded anew step by step. -/
theorem mapError_bind {ε' : Type} (x : Except ε α) (f : α → Except ε β)
    (g : ε → ε') :
    (x >>= f).mapError g = x.mapError g >>= fun a => (f a).mapError g := by
  cases x <;> rfl

/-- Two chains that begin alike and go on alike, as far as it is looked
at, give the same, as far as it is looked at. -/
theorem map_bind_congr {γ : Type} {x y : Except ε α}
    {f f' : α → Except ε β} {g : β → γ} (h : x = y)
    (hf : ∀ a, (f a).map g = (f' a).map g) :
    (x >>= f).map g = (y >>= f').map g := by
  subst h
  cases x with
  | error e => rfl
  | ok a => exact hf a

theorem map_eq_error_iff {f : α → β} {x : Except ε α} {e : ε} :
    x.map f = .error e ↔ x = .error e := by
  cases x <;> simp [Except.map]

/-- A step is a success when there is something that it gives. -/
theorem isOk_iff {x : Except ε α} : x.isOk ↔ ∃ a, x = .ok a := by
  cases x <;> simp [Except.isOk, Except.toBool]

/-- A chain whose later steps can fail no matter what the first step gives
succeeds when the first step and the later ones do. -/
theorem isOk_bind_iff {x : Except ε α} {f : α → Except ε β} {p : Prop}
    (h : ∀ a, (f a).isOk ↔ p) : (x >>= f).isOk ↔ x.isOk ∧ p := by
  cases x with
  | error e => simp [Except.isOk, Except.toBool]
  | ok a => simpa [Except.isOk, Except.toBool] using h a

/-- A last step that cannot fail does not count. -/
theorem isOk_bind_ok {x : Except ε α} {g : α → β} :
    (x >>= fun a => pure (g a)).isOk ↔ x.isOk := by
  cases x <;> rfl

/-- Two chains with one last step, which tells apart what it is given, are
the same when they are the same before it. -/
theorem bind_pure_inj {f : α → β} (hf : ∀ a b, f a = f b → a = b)
    {x y : Except ε α} :
    ((x >>= fun a => pure (f a)) = y >>= fun a => pure (f a)) ↔ x = y := by
  cases x with
  | error e => cases y <;> simp
  | ok a =>
      cases y with
      | error e => simp
      | ok b => simpa using ⟨hf a b, congrArg f⟩

/-- What a step gives can be looked at without its error. -/
theorem toOption_eq_some_iff {x : Except ε α} {a : α} :
    x.toOption = some a ↔ x = .ok a := by
  cases x <;> simp [Except.toOption]

end SchemaEvolution
