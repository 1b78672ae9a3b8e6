import Gazette.Proofs.Outcome

set_option autoImplicit false

/-! # Outcomes that end no block

Every kind of error knows whether it is fatal, that is, whether it must end the enclosing block.
An outcome is *harmless* if it is no fatal error. A computation is harmless if its parts are, and
so is a step on a store.
-/

namespace Gazette

variable {ε ε' α β : Type} {fatal : ε → Bool} {fatal' : ε' → Bool}

/-- The outcome is a success or an error that is not fatal. -/
def Harmless (fatal : ε → Bool) (outcome : Except ε α) : Prop :=
  ∀ error, outcome = .error error → fatal error = false

namespace Harmless

theorem ok (a : α) : Harmless fatal (.ok a : Except ε α) := by
  intro error h
  cases h

theorem error {e : ε} (h : fatal e = false) : Harmless fatal (.error e : Except ε α) := by
  rintro _ ⟨⟩
  exact h

theorem of_eq_ok {outcome : Except ε α} {a : α} (h : outcome = .ok a) :
    Harmless fatal outcome := by
  rw [h]
  exact ok a

theorem bind {outcome : Except ε α} {next : α → Except ε β} (h : Harmless fatal outcome)
    (hnext : ∀ a, outcome = .ok a → Harmless fatal (next a)) :
    Harmless fatal (outcome >>= next) := by
  cases outcome with
  | error e => exact error (h e rfl)
  | ok a => exact hnext a rfl

theorem mapError {outcome : Except ε α} {f : ε → ε'}
    (hf : ∀ e, fatal e = false → fatal' (f e) = false) (h : Harmless fatal outcome) :
    Harmless fatal' (outcome.mapError f) := by
  cases outcome with
  | error e => exact error (hf e (h e rfl))
  | ok a => exact ok a

/-! ## Steps -/

variable {store : Store} {step : Tx ε α}

theorem perform_bind {next : α → Tx ε β} (h : Harmless fatal (store.perform step).1)
    (hnext : ∀ a after, store.perform step = (.ok a, after) →
      Harmless fatal (after.perform (next a)).1) :
    Harmless fatal (store.perform (step >>= next)).1 := by
  rw [Store.perform_bind]
  cases hstep : store.perform step with
  | mk outcome after =>
    rw [hstep] at h
    cases outcome with
    | error e => exact error (h e rfl)
    | ok a => exact hnext a after hstep

theorem perform_map (h : Harmless fatal (store.perform step).1) (f : α → β) :
    Harmless fatal (store.perform (f <$> step)).1 :=
  perform_bind h fun a _ _ => ok (f a)

theorem perform_read_bind {look : Store → Except ε α} {next : α → Tx ε β}
    (h : Harmless fatal (look store))
    (hnext : ∀ a, look store = .ok a → Harmless fatal (store.perform (next a)).1) :
    Harmless fatal (store.perform (Tx.read look >>= next)).1 := by
  refine perform_bind h fun a after hread => ?_
  rw [Store.perform_read, Prod.mk.injEq] at hread
  obtain ⟨found, rfl⟩ := hread
  exact hnext a found

theorem perform_mapError {f : ε → ε'} (hf : ∀ e, fatal e = false → fatal' (f e) = false)
    (h : Harmless fatal (store.perform step).1) :
    Harmless fatal' (store.perform (step.mapError f)).1 := by
  rw [Store.perform_mapError]
  exact mapError hf h

end Harmless

end Gazette
