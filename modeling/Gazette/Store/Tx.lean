import Gazette.Store.Basic

set_option autoImplicit false

/-! # Transaction steps

A step reads a store and writes to it by batches, and ends with a result or with an error. It is
a tree: where it reads, it goes on in a way that depends on what the store holds; where it
writes, in a way that depends on whether the batch was accepted. There is nothing else that it
can do to a store, so a step on an overlay leaves everything below as it is (`perform_staged`).

A failed step does not undo what it wrote. `Store.transact` runs a step on an overlay of its own,
which is committed if the step succeeds and dropped if it fails.
-/

namespace Gazette

/-- A step on a store that ends with a result of `α` or an error of `ε`. -/
inductive Tx (ε α : Type) where
  /-- The end of the step. -/
  | done (outcome : Except ε α)
  /-- Go on from what the store holds. -/
  | withStore (next : Store → Tx ε α)
  /-- Make the writes of a batch, and go on from the outcome. -/
  | afterWrite (batch : List Operation) (next : Except StoreError Unit → Tx ε α)

variable {ε ε' α β : Type}

namespace Tx

/-- The step that fails. -/
def fail (error : ε) : Tx ε α := .done (.error error)

/-- Look at the store without changing it. -/
def read (look : Store → Except ε α) : Tx ε α := .withStore fun store => .done (look store)

/-- Make the writes of a batch. -/
def write (batch : List Operation) : Tx StoreError Unit := .afterWrite batch .done

/-- A step followed by another. The second is left out if the first fails. -/
def bind : Tx ε α → (α → Tx ε β) → Tx ε β
  | .done (.ok a), next => next a
  | .done (.error error), _ => .done (.error error)
  | .withStore step, next => .withStore fun store => (step store).bind next
  | .afterWrite batch step, next => .afterWrite batch fun outcome => (step outcome).bind next

instance : Monad (Tx ε) where
  pure a := .done (.ok a)
  bind := bind

/-- The step with its errors renamed. -/
def mapError (f : ε → ε') : Tx ε α → Tx ε' α
  | .done outcome => .done (outcome.mapError f)
  | .withStore step => .withStore fun store => (step store).mapError f
  | .afterWrite batch step => .afterWrite batch fun outcome => (step outcome).mapError f

/-- Run a step: its outcome, and the store after it. -/
def run : Tx ε α → Store → Except ε α × Store
  | .done outcome, store => (outcome, store)
  | .withStore step, store => (step store).run store
  | .afterWrite batch step, store => (step (store.apply batch).1).run (store.apply batch).2

end Tx

namespace Store

/-- Run a step on a store: its outcome, and the store after it. -/
def perform (store : Store) (step : Tx ε α) : Except ε α × Store := step.run store

/-- Run a step on a new overlay. Its writes reach the store as one batch if it succeeds, and
not at all if it fails. `lift` names a failure of the commit. -/
def transact (store : Store) (lift : StoreError → ε) (step : Tx ε α) : Except ε α × Store :=
  match store.stage.perform step with
  | (.ok result, overlay) =>
    match overlay.commit with
    | (.ok (), store) => (.ok result, store)
    | (.error error, store) => (.error (lift error), store)
  | (.error error, _) => (.error error, store)

@[simp] theorem perform_pure (store : Store) (a : α) :
    store.perform (pure a : Tx ε α) = (.ok a, store) := rfl

@[simp] theorem perform_fail (store : Store) (error : ε) :
    store.perform (Tx.fail error : Tx ε α) = (.error error, store) := rfl

@[simp] theorem perform_read (store : Store) (look : Store → Except ε α) :
    store.perform (Tx.read look) = (look store, store) := rfl

@[simp] theorem perform_write (store : Store) (batch : List Operation) :
    store.perform (Tx.write batch) = store.apply batch := rfl

/-- A step followed by another: the second runs on the store that the first leaves, and not at
all if the first fails. -/
theorem perform_bind (store : Store) (step : Tx ε α) (next : α → Tx ε β) :
    store.perform (step >>= next) =
      match store.perform step with
      | (.ok a, store') => store'.perform (next a)
      | (.error error, store') => (.error error, store') := by
  show (step.bind next).run store = match step.run store with
    | (.ok a, store') => (next a).run store'
    | (.error error, store') => (.error error, store')
  induction step generalizing store with
  | done outcome => cases outcome <;> rfl
  | withStore step ih => exact ih store store
  | afterWrite batch step ih => exact ih (store.apply batch).1 (store.apply batch).2

/-- Renaming the errors of a step changes nothing else. -/
theorem perform_mapError (store : Store) (f : ε → ε') (step : Tx ε α) :
    store.perform (step.mapError f) =
      ((store.perform step).1.mapError f, (store.perform step).2) := by
  show (step.mapError f).run store = ((step.run store).1.mapError f, (step.run store).2)
  induction step generalizing store with
  | done outcome => rfl
  | withStore step ih => exact ih store store
  | afterWrite batch step ih => exact ih (store.apply batch).1 (store.apply batch).2

/-- A step on an overlay leaves an overlay on the same store. -/
theorem perform_staged (below : Store) (writes : WriteSet) (step : Tx ε α) :
    ∃ writes', ((Store.staged below writes).perform step).2 = .staged below writes' := by
  show ∃ writes', (step.run (.staged below writes)).2 = .staged below writes'
  induction step generalizing writes with
  | done outcome => exact ⟨writes, rfl⟩
  | withStore step ih => exact ih (.staged below writes) writes
  | afterWrite batch step ih => exact ih (.ok ()) (batch.foldl WriteSet.record writes)

end Store

end Gazette
