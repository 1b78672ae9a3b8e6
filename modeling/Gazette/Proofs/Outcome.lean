import Gazette.Store.Tx

set_option autoImplicit false

/-! # Successful outcomes

A computation that succeeds did so at every step. The lemmas here take it apart: what a pure
computation succeeded with at each bind, and which store each part of a transaction step left.
One that fails did so at the first step that failed, and left the store that this step left.
-/

namespace Gazette

variable {ε ε' α β : Type}

/-! ## Computations -/

theorem bind_eq_ok {x : Except ε α} {f : α → Except ε β} {b : β} :
    (x >>= f) = .ok b ↔ ∃ a, x = .ok a ∧ f a = .ok b := by
  constructor
  · intro h
    cases x with
    | error e => cases h
    | ok a => exact ⟨a, rfl, h⟩
  · rintro ⟨a, rfl, h⟩
    exact h

/-- Successes in a row succeed with all their results. -/
theorem mapM_map_ok (xs : List α) : (xs.map .ok).mapM id = (.ok xs : Except ε (List α)) := by
  induction xs with
  | nil => rfl
  | cons x xs ih =>
    rw [List.map_cons, List.mapM_cons]
    exact bind_eq_ok.2 ⟨x, rfl, bind_eq_ok.2 ⟨xs, ih, rfl⟩⟩

theorem map_eq_ok {x : Except ε α} {f : α → β} {b : β} :
    (f <$> x) = .ok b ↔ ∃ a, x = .ok a ∧ f a = b := by
  constructor
  · intro h
    cases x with
    | error e => cases h
    | ok a => exact ⟨a, rfl, Except.ok.inj h⟩
  · rintro ⟨a, rfl, rfl⟩
    rfl

theorem mapError_eq_ok {x : Except ε α} {f : ε → ε'} {a : α} :
    x.mapError f = .ok a ↔ x = .ok a := by
  constructor
  · intro h
    cases x with
    | error e => cases h
    | ok b => exact congrArg Except.ok (Except.ok.inj h)
  · rintro rfl
    rfl

theorem bind_eq_error {x : Except ε α} {f : α → Except ε β} {error : ε} :
    (x >>= f) = .error error ↔ x = .error error ∨ ∃ a, x = .ok a ∧ f a = .error error := by
  constructor
  · intro h
    cases x with
    | error e => exact .inl (congrArg Except.error (Except.error.inj h))
    | ok a => exact .inr ⟨a, rfl, h⟩
  · rintro (rfl | ⟨a, rfl, h⟩)
    · rfl
    · exact h

theorem map_eq_error {x : Except ε α} {f : α → β} {error : ε} :
    (f <$> x) = .error error ↔ x = .error error := by
  constructor
  · intro h
    cases x with
    | error e => exact congrArg Except.error (Except.error.inj h)
    | ok a => cases h
  · rintro rfl
    rfl

/-! ## Steps -/

namespace Store

theorem perform_eq_of_fst {store : Store} {step : Tx ε α} {outcome : Except ε α}
    (h : (store.perform step).1 = outcome) :
    store.perform step = (outcome, (store.perform step).2) :=
  Prod.ext h rfl

theorem perform_bind_eq_ok {store last : Store} {step : Tx ε α} {next : α → Tx ε β} {b : β} :
    store.perform (step >>= next) = (.ok b, last) ↔
      ∃ a mid, store.perform step = (.ok a, mid) ∧ mid.perform (next a) = (.ok b, last) := by
  rw [perform_bind]
  constructor
  · intro h
    split at h
    · rename_i a mid first
      exact ⟨a, mid, first, h⟩
    · cases h
  · rintro ⟨a, mid, first, second⟩
    rw [first]
    exact second

theorem perform_map_eq_ok {store last : Store} {step : Tx ε α} {f : α → β} {b : β} :
    store.perform (f <$> step) = (.ok b, last) ↔
      ∃ a, store.perform step = (.ok a, last) ∧ f a = b := by
  show store.perform (step >>= fun a => pure (f a)) = (.ok b, last) ↔ _
  rw [perform_bind_eq_ok]
  constructor
  · rintro ⟨a, mid, first, second⟩
    cases second
    exact ⟨a, first, rfl⟩
  · rintro ⟨a, first, rfl⟩
    exact ⟨a, last, first, rfl⟩

theorem perform_mapError_eq_ok {store last : Store} {step : Tx ε α} {f : ε → ε'} {a : α} :
    store.perform (step.mapError f) = (.ok a, last) ↔ store.perform step = (.ok a, last) := by
  rw [perform_mapError, Prod.mk.injEq, mapError_eq_ok]
  constructor
  · rintro ⟨outcome, after⟩
    exact Prod.ext outcome after
  · intro h
    rw [h]
    exact ⟨rfl, rfl⟩

theorem perform_read_bind_eq_ok {store last : Store} {look : Store → Except ε α}
    {next : α → Tx ε β} {b : β} :
    store.perform (Tx.read look >>= next) = (.ok b, last) ↔
      ∃ a, look store = .ok a ∧ store.perform (next a) = (.ok b, last) := by
  rw [perform_bind_eq_ok]
  constructor
  · rintro ⟨a, mid, first, second⟩
    rw [perform_read, Prod.mk.injEq] at first
    obtain ⟨found, rfl⟩ := first
    exact ⟨a, found, second⟩
  · rintro ⟨a, found, second⟩
    exact ⟨a, store, by rw [perform_read, found], second⟩

theorem perform_read_bind_of_ok {store : Store} {look : Store → Except ε α} {a : α}
    (h : look store = .ok a) (next : α → Tx ε β) :
    store.perform (Tx.read look >>= next) = store.perform (next a) := by
  rw [perform_bind, perform_read, h]

theorem perform_bind_of_ok {store mid : Store} {step : Tx ε α} {a : α}
    (h : store.perform step = (.ok a, mid)) (next : α → Tx ε β) :
    store.perform (step >>= next) = mid.perform (next a) := by
  rw [perform_bind, h]

theorem perform_mapError_of_error {store after : Store} {step : Tx ε α} {error : ε}
    (h : store.perform step = (.error error, after)) (f : ε → ε') :
    store.perform (step.mapError f) = (.error (f error), after) := by
  rw [perform_mapError, h]
  rfl

theorem perform_bind_of_error {store after : Store} {step : Tx ε α} {error : ε}
    (h : store.perform step = (.error error, after)) (next : α → Tx ε β) :
    store.perform (step >>= next) = (.error error, after) := by
  rw [perform_bind, h]

theorem perform_read_bind_of_error {store : Store} {look : Store → Except ε α} {error : ε}
    (h : look store = .error error) (next : α → Tx ε β) :
    store.perform (Tx.read look >>= next) = (.error error, store) :=
  perform_bind_of_error (by rw [perform_read, h]) next

/-- A step that looks first fails if the look does, and goes on with what was found if not. -/
theorem perform_read_bind_cases (store : Store) (look : Store → Except ε α) (next : α → Tx ε β) :
    (∃ error, look store = .error error
        ∧ store.perform (Tx.read look >>= next) = (.error error, store)) ∨
      ∃ a, look store = .ok a ∧ store.perform (Tx.read look >>= next) = store.perform (next a) := by
  cases hlook : look store with
  | error error => exact .inl ⟨error, rfl, perform_read_bind_of_error hlook next⟩
  | ok a => exact .inr ⟨a, rfl, perform_read_bind_of_ok hlook next⟩

end Store

end Gazette
