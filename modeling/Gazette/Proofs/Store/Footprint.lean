import Gazette.Proofs.Store.Reliable

set_option autoImplicit false

/-! # Steps that leave keys alone

A step that has no write for some keys in any of its batches, whatever it reads on the way, leaves
what is stored under these keys as it is (`Store.get?_perform_of_writesOutside`). This holds on
every store, also on one that refuses some of the writes.
-/

namespace Gazette

variable {ε ε' α : Type} {keys : Bytes → Prop}

/-- No batch of the step has a write for one of these keys. -/
def Tx.WritesOutside (keys : Bytes → Prop) : Tx ε α → Prop
  | .done _ => True
  | .withStore next => ∀ store, (next store).WritesOutside keys
  | .afterWrite batch next =>
    (∀ write ∈ batch, ¬ keys write.key) ∧ ∀ outcome, (next outcome).WritesOutside keys

namespace Tx.WritesOutside

variable {β : Type}

theorem read_bind {look : Store → Except ε α} {next : α → Tx ε β}
    (h : ∀ store a, look store = .ok a → (next a).WritesOutside keys) :
    (Tx.read look >>= next).WritesOutside keys := by
  intro store
  show ((Tx.done (look store)).bind next).WritesOutside keys
  cases hlook : look store with
  | error error => trivial
  | ok a => exact h store a hlook

theorem write_bind {batch : List Operation} {next : Unit → Tx StoreError β}
    (hbatch : ∀ write ∈ batch, ¬ keys write.key) (hnext : (next ()).WritesOutside keys) :
    (Tx.write batch >>= next).WritesOutside keys := by
  refine ⟨hbatch, fun outcome => ?_⟩
  cases outcome with
  | error error => trivial
  | ok => exact hnext

end Tx.WritesOutside

namespace Store

/-- A batch leaves the keys alone that it does not touch, whether it is accepted or not. -/
theorem get?_apply_of_untouched (store : Store) {batch : List Operation} {key : Bytes}
    (untouched : ∀ write ∈ batch, write.key ≠ key) :
    (store.apply batch).2.contents.get? key = store.contents.get? key := by
  cases store with
  | staged below writes =>
    show (below.contents.apply (batch.foldl WriteSet.record writes).operations).get? key = _
    rw [WriteSet.apply_recordAll, Contents.get?_apply_of_untouched _ untouched]
    rfl
  | base device =>
    show (device.apply batch).2.contents.get? key = device.contents.get? key
    induction batch generalizing device with
    | nil => rfl
    | cons write rest ih =>
      rw [Device.apply]
      split
      · rfl
      · rw [ih (fun w hw => untouched w (List.mem_cons_of_mem _ hw)), Contents.get?_write,
          if_neg (untouched write List.mem_cons_self).symm]

theorem get?_perform_of_writesOutside (store : Store) {step : Tx ε α}
    (h : step.WritesOutside keys) {key : Bytes} (hkey : keys key) :
    (store.perform step).2.contents.get? key = store.contents.get? key := by
  show (step.run store).2.contents.get? key = _
  induction step generalizing store with
  | done outcome => rfl
  | withStore next ih => exact ih store store (h store)
  | afterWrite batch next ih =>
    refine (ih _ _ (h.2 _)).trans (get?_apply_of_untouched store fun write hwrite same => ?_)
    exact h.1 write hwrite (same ▸ hkey)

end Store

end Gazette
