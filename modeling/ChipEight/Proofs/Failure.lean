/-!
# Computations that may fail

What succeeds is told by inversion: a computation in steps succeeds if every step does
(`bind_eq_ok_iff`), and other words for its failures change nothing (`mapError_eq_ok_iff`). What
fails is told by the kind of the failures (`FailsOnly`), which the steps hand on. So two ways to go
on after a step need to agree only where it succeeds (`bind_congr_of_ok`).
-/

namespace ChipEight

/-- A failure ends a computation; otherwise it goes on with the value. -/
theorem bind_eq_ok_iff {ε α β : Type} {x : Except ε α} {f : α → Except ε β} {b : β} :
    x >>= f = .ok b ↔ ∃ a, x = .ok a ∧ f a = .ok b := by
  cases x with
  | error e => simp [bind, Except.bind]
  | ok a => simp [bind, Except.bind]

/-- What comes after a computation matters only where it succeeds. -/
theorem bind_congr_of_ok {ε α β : Type} {x : Except ε α} {f g : α → Except ε β}
    (same : ∀ a, x = .ok a → f a = g a) : x >>= f = x >>= g := by
  cases x with
  | error e => rfl
  | ok a => exact same a rfl

/-- Failures in other words do not change what succeeds. -/
theorem mapError_eq_ok_iff {ε ε' α : Type} {f : ε → ε'} {x : Except ε α} {a : α} :
    x.mapError f = .ok a ↔ x = .ok a := by
  cases x with
  | error e => exact ⟨nofun, nofun⟩
  | ok b =>
    constructor
    · rintro ⟨⟩
      rfl
    · rintro ⟨⟩
      rfl

/-- What is told to succeed has a value. -/
theorem exists_of_toBool {ε α : Type} {x : Except ε α} (succeeds : x.toBool = true) :
    ∃ a, x = .ok a := by
  cases x with
  | error e => cases succeeds
  | ok a => exact ⟨a, rfl⟩

/-- All failures of a computation are of one kind. -/
def FailsOnly {ε α : Type} (kind : ε → Prop) (x : Except ε α) : Prop := ∀ e, x = .error e → kind e

namespace FailsOnly

variable {ε ε' α β : Type} {kind : ε → Prop} {kind' : ε' → Prop}

theorem ok (a : α) : FailsOnly kind (.ok a : Except ε α) := nofun

theorem error {e : ε} (known : kind e) : FailsOnly kind (.error e : Except ε α) := by
  rintro _ ⟨⟩
  exact known

theorem bind {x : Except ε α} {f : α → Except ε β} (first : FailsOnly kind x)
    (second : ∀ a, x = .ok a → FailsOnly kind (f a)) : FailsOnly kind (x >>= f) := by
  cases x with
  | error e => exact error (first e rfl)
  | ok a => exact second a rfl

theorem mono {weaker : ε → Prop} {x : Except ε α} (fails : FailsOnly kind x)
    (implied : ∀ e, kind e → weaker e) : FailsOnly weaker x :=
  fun e failed => implied e (fails e failed)

theorem mapError {f : ε → ε'} (known : ∀ e, kind' (f e)) (x : Except ε α) :
    FailsOnly kind' (x.mapError f) := by
  cases x with
  | ok a => exact .ok a
  | error e => exact .error (known e)

end FailsOnly

end ChipEight
