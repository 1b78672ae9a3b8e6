import Gazette.Proofs.Store.Overlay
import Gazette.Store.Tx

set_option autoImplicit false

/-! # Stores that are known by their contents

A store is *reliable* if the device at its bottom refuses nothing. Reading a reliable store
answers from its contents (`get_eq`, `scan_eq`). A store *accepts writes* if it is an overlay, or
a device that refuses no write; a batch then succeeds and does to the contents what the batch
says (`apply_of_acceptsWrites`). What is read from any store, where nothing is refused, comes from its
contents too (`get?_of_get`).
-/

namespace Gazette

variable {ε α : Type}

namespace Store

/-- The device at the bottom refuses nothing. -/
def Reliable (store : Store) : Prop := ∀ access, store.device.refusal access = none

/-- No batch is refused, in whole or in part. -/
def AcceptsWrites : Store → Prop
  | .base device => ∀ write, device.refusal (Device.accessOf write) = none
  | .staged _ _ => True

theorem reliable_memory (contents : Contents) : (memory contents).Reliable := fun _ => rfl

theorem Reliable.acceptsWrites {store : Store} (h : store.Reliable) : store.AcceptsWrites := by
  cases store with
  | base device => exact fun write => h (Device.accessOf write)
  | staged below writes => trivial

@[simp] theorem contents_stage (store : Store) : store.stage.contents = store.contents := rfl

@[simp] theorem contents_memory (contents : Contents) : (memory contents).contents = contents :=
  rfl

theorem reliable_stage {store : Store} (h : store.Reliable) : store.stage.Reliable := h

theorem contents_staged (below : Store) (writes : WriteSet) :
    (staged below writes).contents = below.contents.apply writes.operations := rfl

/-! ## Reading -/

/-- What is read under a key is what the contents hold there. -/
theorem get?_of_get {store : Store} {key : Bytes} {value : Option Bytes}
    (h : store.get key = .ok value) : store.contents.get? key = value := by
  induction store with
  | base device =>
    simp only [get, Device.get] at h
    split at h
    · cases h
    · exact Except.ok.inj h
  | staged below writes ih =>
    rw [contents_staged, WriteSet.get?_apply_operations]
    simp only [get] at h
    split at h
    · rename_i pending found
      rw [found]
      exact Except.ok.inj h
    · rename_i absent
      rw [absent]
      exact ih h

theorem get_eq {store : Store} (h : store.Reliable) (key : Bytes) :
    store.get key = .ok (store.contents.get? key) := by
  induction store with
  | base device =>
    have granted : device.refusal (.get key) = none := h (.get key)
    simp only [get, Device.get, granted]
    rfl
  | staged below writes ih =>
    rw [contents_staged, WriteSet.get?_apply_operations]
    simp only [get]
    split
    · rename_i pending found
      rw [found]
      rfl
    · rename_i absent
      rw [absent]
      exact ih h

theorem has_eq {store : Store} (h : store.Reliable) (key : Bytes) :
    store.has key = .ok (store.contents.get? key).isSome := by
  rw [has, get_eq h]
  rfl

/-- What a scan gives is the first entries of the range. On an overlay the page from below is longer
than what is asked for, so that the pending writes leave enough of it. -/
theorem page_of_scan {store : Store} {start : Bytes} {upper : Option Bytes} {limit : Nat}
    {page : List Entry} (h : store.scan start upper limit = .ok page) :
    page = (store.contents.range start upper).take limit := by
  induction store generalizing limit page with
  | base device =>
    simp only [scan, Device.scan] at h
    split at h
    · cases h
    · exact (Except.ok.inj h).symm
  | staged below writes ih =>
    simp only [scan] at h
    split at h
    · rename_i ends
      rw [KeyMap.range_eq_nil _ ends, List.take_nil]
      exact (Except.ok.inj h).symm
    · split at h
      · cases h
      · -- the page from below and the whole range agree on as many entries as are looked at
        rename_i fetched hfetched
        have ascending := below.contents.range_ascending start upper
        rw [← Except.ok.inj h, ih hfetched, contents_staged, ← WriteSet.overlay_range]
        exact WriteSet.take_overlay ascending.take ascending (by rw [List.take_take, Nat.min_self])

theorem scan_eq {store : Store} (h : store.Reliable) (start : Bytes) (upper : Option Bytes)
    (limit : Nat) :
    store.scan start upper limit = .ok ((store.contents.range start upper).take limit) := by
  have granted : ∃ page, store.scan start upper limit = .ok page := by
    induction store generalizing limit with
    | base device =>
      have granted : device.refusal (.scan start) = none := h (.scan start)
      simp only [scan, Device.scan, granted]
      exact ⟨_, rfl⟩
    | staged below writes ih =>
      simp only [scan]
      split
      · exact ⟨[], rfl⟩
      · obtain ⟨page, hpage⟩ := ih h (limit + (writes.range start upper).length)
        rw [hpage]
        exact ⟨_, rfl⟩
  obtain ⟨page, hpage⟩ := granted
  rw [hpage, page_of_scan hpage]

/-! ## Writing -/

/-- A batch that is accepted changes the contents as it says. -/
theorem apply_of_acceptsWrites {store : Store} (h : store.AcceptsWrites)
    (batch : List Operation) :
    ∃ store', store.apply batch = (.ok (), store')
      ∧ store'.contents = store.contents.apply batch
      ∧ store'.AcceptsWrites ∧ store'.device.refusal = store.device.refusal := by
  cases store with
  | staged below writes =>
    exact ⟨_, rfl, WriteSet.apply_recordAll below.contents writes batch, trivial, rfl⟩
  | base device =>
    -- the writes are made one by one, and the rule of refusal stays the same
    suffices key : ∀ (batch : List Operation) (device : Device),
        (∀ write, device.refusal (Device.accessOf write) = none) →
        device.apply batch =
          (.ok (), { device with contents := device.contents.apply batch }) by
      refine ⟨.base { device with contents := device.contents.apply batch }, ?_, rfl, h, rfl⟩
      simp only [apply, key batch device h]
    intro batch
    induction batch with
    | nil => intro device _; rfl
    | cons write rest ih =>
      intro device accepts
      simp only [Device.apply, accepts write]
      exact ih { device with contents := device.contents.write write } accepts

/-- Closing an overlay makes its pending writes on the store below. -/
theorem commit_eq_apply (below : Store) (writes : WriteSet) :
    (staged below writes).commit = below.apply writes.operations := by
  simp only [commit]
  split
  · rename_i none_pending
    have entries : writes.entries = [] := List.isEmpty_iff.1 none_pending
    rw [WriteSet.operations, entries]
    cases below <;> rfl
  · rfl

/-! ## Steps -/

/-- No step changes which accesses the device refuses. -/
theorem refusal_apply (store : Store) (batch : List Operation) :
    (store.apply batch).2.device.refusal = store.device.refusal := by
  cases store with
  | staged below writes => rfl
  | base device =>
    show (device.apply batch).2.refusal = device.refusal
    induction batch generalizing device with
    | nil => rfl
    | cons write rest ih =>
      simp only [Device.apply]
      split
      · rfl
      · exact ih { device with contents := device.contents.write write }

theorem refusal_perform (store : Store) (step : Tx ε α) :
    (store.perform step).2.device.refusal = store.device.refusal := by
  show (step.run store).2.device.refusal = store.device.refusal
  induction step generalizing store with
  | done outcome => rfl
  | withStore step ih => exact ih store store
  | afterWrite batch step ih => exact (ih _ _).trans (refusal_apply store batch)

theorem reliable_perform {store : Store} (h : store.Reliable) (step : Tx ε α) :
    (store.perform step).2.Reliable := fun access => by
  rw [refusal_perform]
  exact h access

theorem reliable_of_perform {store after : Store} {step : Tx ε α} {outcome : Except ε α}
    (h : store.Reliable) (hrun : store.perform step = (outcome, after)) : after.Reliable := by
  have kept := reliable_perform h step
  rwa [hrun] at kept

/-- Committing what a step left on a new overlay makes its writes on the store. -/
theorem commit_perform_stage {store : Store} (h : store.Reliable) (step : Tx ε α) :
    ∃ after, (store.stage.perform step).2.commit = (.ok (), after)
      ∧ after.contents = (store.stage.perform step).2.contents ∧ after.Reliable := by
  obtain ⟨writes, hoverlay⟩ := perform_staged store .empty step
  obtain ⟨after, hrun, hcontents, -, hrefusal⟩ :=
    apply_of_acceptsWrites h.acceptsWrites writes.operations
  have overlay : (store.stage.perform step).2 = .staged store writes := hoverlay
  rw [overlay, commit_eq_apply]
  exact ⟨after, hrun, hcontents, fun access => (congrFun hrefusal access).trans (h access)⟩

/-- A transaction fails and changes nothing, or leaves what its step left on the overlay. -/
theorem transact_cases {store : Store} (h : store.Reliable) (lift : StoreError → ε)
    (step : Tx ε α) :
    (∃ error, store.transact lift step = (.error error, store)) ∨
      ∃ result overlay after, store.stage.perform step = (.ok result, overlay)
        ∧ store.transact lift step = (.ok result, after)
        ∧ after.contents = overlay.contents ∧ after.Reliable := by
  obtain ⟨after, hcommit, hcontents, hafter⟩ := commit_perform_stage h step
  unfold transact
  cases hrun : store.stage.perform step with
  | mk outcome overlay =>
    rw [hrun] at hcommit hcontents
    cases outcome with
    | error error => exact .inl ⟨error, rfl⟩
    | ok result =>
      refine .inr ⟨result, overlay, after, rfl, ?_, hcontents, hafter⟩
      simp only [hcommit]

end Store

end Gazette
