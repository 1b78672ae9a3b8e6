import Gazette.Store.Basic

set_option autoImplicit false

/-! # What a batch leaves

A write gives one key a new value, or none, and leaves the other keys alone (`get?_write`). A
batch is read off the same way: a key that it does not touch keeps its value, and a key whose
touching writes are all the same ends with what they write (`get?_apply_of_mem`).

Pending writes are a batch with one write for each key. Recording a write and then making the
pending ones is the same as making them and then the write (`apply_record`).
-/

namespace Gazette

/-- What the key holds after a write. -/
def Operation.value : Operation → Option Bytes
  | .set _ value => some value
  | .delete _ => none

namespace Contents

/-! ## Batches -/

theorem get?_write (contents : Contents) (op : Operation) (key : Bytes) :
    (contents.write op).get? key = if key = op.key then op.value else contents.get? key := by
  cases op with
  | set k value => exact KeyMap.get?_insert contents k value key
  | delete k => exact KeyMap.get?_erase contents k key

@[simp] theorem apply_cons (contents : Contents) (op : Operation) (batch : List Operation) :
    contents.apply (op :: batch) = (contents.write op).apply batch := rfl

theorem apply_append (contents : Contents) (first second : List Operation) :
    contents.apply (first ++ second) = (contents.apply first).apply second :=
  List.foldl_append

/-- A batch leaves alone the keys that it does not touch. -/
theorem get?_apply_of_untouched {batch : List Operation} {key : Bytes} (contents : Contents)
    (untouched : ∀ op ∈ batch, op.key ≠ key) :
    (contents.apply batch).get? key = contents.get? key := by
  induction batch generalizing contents with
  | nil => rfl
  | cons op batch ih =>
    rw [apply_cons, ih _ fun o ho => untouched o (List.mem_cons_of_mem _ ho), get?_write,
      if_neg (untouched op List.mem_cons_self).symm]

/-- A key that is touched by one write only ends with what that writes. -/
theorem get?_apply_of_mem {batch : List Operation} {op : Operation} (contents : Contents)
    (mem : op ∈ batch) (only : ∀ o ∈ batch, o.key = op.key → o = op) :
    (contents.apply batch).get? op.key = op.value := by
  induction batch generalizing contents with
  | nil => cases mem
  | cons first batch ih =>
    rw [apply_cons]
    -- the write may stand in the batch more than once, and its last place counts
    by_cases later : op ∈ batch
    · exact ih _ later fun o ho => only o (List.mem_cons_of_mem _ ho)
    · obtain rfl : op = first := (List.mem_cons.1 mem).resolve_right later
      rw [get?_apply_of_untouched, get?_write, if_pos rfl]
      intro o ho same
      exact later (only o (List.mem_cons_of_mem _ ho) same ▸ ho)

end Contents

/-! ## Pending writes -/

namespace WriteSet

theorem get?_record (writes : WriteSet) (op : Operation) (key : Bytes) :
    (writes.record op).get? key = if key = op.key then some op.value else writes.get? key := by
  cases op with
  | set k value => exact KeyMap.get?_insert writes k (some value) key
  | delete k => exact KeyMap.get?_insert writes k none key

@[simp] theorem key_operationOf (entry : Bytes × Option Bytes) :
    (operationOf entry).key = entry.1 := by
  obtain ⟨key, _ | value⟩ := entry <;> rfl

@[simp] theorem value_operationOf (entry : Bytes × Option Bytes) :
    (operationOf entry).value = entry.2 := by
  obtain ⟨key, _ | value⟩ := entry <;> rfl

/-- Making the pending writes: a key that has one ends with what it writes. -/
theorem get?_apply_operations (contents : Contents) (writes : WriteSet) (key : Bytes) :
    (contents.apply writes.operations).get? key =
      (writes.get? key).getD (contents.get? key) := by
  obtain ⟨entries, ascending⟩ := writes
  show (contents.apply (entries.map operationOf)).get? key
    = (entries.lookup key).getD (contents.get? key)
  induction entries generalizing contents with
  | nil => rfl
  | cons entry rest ih =>
    obtain ⟨first, tail⟩ := List.pairwise_cons.1 ascending
    rw [List.map_cons, Contents.apply_cons, ih _ tail, Contents.get?_write, key_operationOf,
      value_operationOf, lookup_entry key entry.1 entry.2 rest]
    by_cases same : key = entry.1
    · rw [if_pos same, if_pos same, same, lookup_eq_none first]
      rfl
    · rw [if_neg same, if_neg same]

theorem apply_record (contents : Contents) (writes : WriteSet) (op : Operation) :
    contents.apply (writes.record op).operations =
      (contents.apply writes.operations).write op := by
  refine KeyMap.ext_get? fun key => ?_
  rw [get?_apply_operations, get?_record, Contents.get?_write, get?_apply_operations]
  split <;> rfl

/-- Recording a batch and then making the pending writes is the same as making them and then
the batch. -/
theorem apply_recordAll (contents : Contents) (writes : WriteSet) (batch : List Operation) :
    contents.apply (batch.foldl record writes).operations =
      (contents.apply writes.operations).apply batch := by
  induction batch generalizing writes with
  | nil => rfl
  | cons op batch ih => rw [List.foldl_cons, ih, apply_record, Contents.apply_cons]

end WriteSet

end Gazette
