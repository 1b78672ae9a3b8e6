import Gazette.Proofs.Bucket.Query
import Gazette.Proofs.Schedule.Queue
import Gazette.Schedule.Executor

set_option autoImplicit false

/-! # Which tasks are due

The tasks that are due at some time are found in the index of run times, in the order of their
run times and, at the same second, of their IDs (`Queue.exists_dueScan`). Before the epoch nothing
is due, and at the last second there is, what runs at that very second is not found.
-/

namespace Gazette.Queue

/-- These are the tasks that run before a time, in the order of their run times and IDs. -/
structure RunBefore (tasks : Table Task) (upper : UnixTime) (ids : List RecordId) : Prop where
  mem_iff : ∀ id, id ∈ ids ↔ ∃ task, tasks.records id = some task ∧ task.runAt < upper
  ordered : ids.Pairwise fun i j => ∃ s t, tasks.records i = some s ∧ tasks.records j = some t
    ∧ (s.runAt < t.runAt ∨ (s.runAt = t.runAt ∧ i < j))

variable {tasks : Table Task} {upper now : UnixTime} {ids : List RecordId} {store : Store}

namespace RunBefore

/-- The order of run times and IDs is strict. -/
theorem asymm {i j : RecordId} {s t s' t' : Task} (hs : tasks.records i = some s)
    (ht : tasks.records j = some t) (order : s.runAt < t.runAt ∨ (s.runAt = t.runAt ∧ i < j))
    (hs' : tasks.records i = some s') (ht' : tasks.records j = some t')
    (order' : t'.runAt < s'.runAt ∨ (t'.runAt = s'.runAt ∧ j < i)) : False := by
  obtain rfl := Option.some.inj (hs.symm.trans hs')
  obtain rfl := Option.some.inj (ht.symm.trans ht')
  simp only [UnixTime.lt_iff] at order order'
  rcases order with less | ⟨same, less⟩ <;> rcases order' with less' | ⟨same', less'⟩
  · omega
  · rw [same'] at less
    omega
  · rw [same] at less'
    omega
  · exact UInt64.lt_asymm less less'

theorem nodup (h : RunBefore tasks upper ids) : ids.Nodup := by
  refine h.ordered.imp fun {i j} hij same => ?_
  obtain ⟨s, t, hs, ht, order⟩ := hij
  subst same
  exact asymm hs ht order ht hs order

/-- There is only one such list. -/
theorem unique {ids' : List RecordId} (h : RunBefore tasks upper ids)
    (h' : RunBefore tasks upper ids') : ids = ids' := by
  have perm : ids.Perm ids' := (List.perm_ext_iff_of_nodup h.nodup h'.nodup).2 fun id =>
    (h.mem_iff id).trans (h'.mem_iff id).symm
  refine perm.eq_of_pairwise (fun i j _ _ hij hji => ?_) h.ordered h'.ordered
  obtain ⟨s, t, hs, ht, order⟩ := hij
  obtain ⟨t', s', ht', hs', order'⟩ := hji
  exact (asymm hs ht order hs' ht' order').elim

/-- Once the first of them are gone, there are the others. -/
theorem drop {tasks' : Table Task} {n : Nat} (h : RunBefore tasks upper ids)
    (left : ∀ i, tasks'.records i = if i ∈ ids.take n then none else tasks.records i) :
    RunBefore tasks' upper (ids.drop n) := by
  have apart := List.disjoint_take_drop h.nodup (Nat.le_refl n)
  have stays : ∀ i ∈ ids.drop n, tasks'.records i = tasks.records i := fun i hi =>
    (left i).trans (if_neg fun taken => apart taken hi)
  constructor
  · intro id
    constructor
    · intro hid
      rw [stays id hid]
      exact (h.mem_iff id).1 (List.mem_of_mem_drop hid)
    · rintro ⟨task, htask, less⟩
      rw [left] at htask
      split at htask
      · cases htask
      · rename_i not_taken
        have mem := (h.mem_iff id).2 ⟨task, htask, less⟩
        rw [← List.take_append_drop n ids] at mem
        exact (List.mem_append.1 mem).resolve_left not_taken
  · refine (h.ordered.sublist (List.drop_sublist n ids)).imp_of_mem fun {i j} hi hj hij => ?_
    rw [stays i hi, stays j hj]
    exact hij

end RunBefore

/-- The scan for due tasks gives those that run before the next second. -/
theorem exists_dueScan (h : bucket.Holds store.contents tasks) (hstore : store.Reliable)
    (now : UnixTime) :
    ∃ scan ids, dueScan now = .ok scan ∧ scan.items store = ids.map .ok
      ∧ RunBefore tasks (now.addSeconds 1) ids := by
  obtain ⟨index, named, extract_eq⟩ : ∃ index, bucket.indexNamed "runat" = .ok index
      ∧ index.extract = Task.runAtKey := ⟨_, rfl, rfl⟩
  have no_start : ([] : Bytes).length ≤ 8 := Nat.zero_le 8
  have bound : ((now.addSeconds 1).keyBytes?.getD []).length ≤ 8 := by
    cases hkey : (now.addSeconds 1).keyBytes? with
    | none => exact Nat.zero_le 8
    | some k => exact Nat.le_of_eq (UnixTime.length_of_keyBytes? hkey)
  obtain ⟨scan, ids, hscan, hitems, hmem, hordered⟩ := h.represents.queryRange_exact hstore named
    (extract_eq ▸ fun _ _ => Task.length_of_runAtKey) no_start bound
  rw [extract_eq] at hmem hordered
  -- the key of a task in the queue is that of its run time, which is after the epoch
  have valid : ∀ {id task}, tasks.records id = some task → task.validate = .ok () :=
    fun {id task} htask => (h.represents.sound id task htask).valid
  have key_eq : ∀ {id task k}, tasks.records id = some task →
      task.runAtKey = .ok (some k) → k = task.runAt.key := fun {id task k} htask hk =>
    Option.some.inj (Except.ok.inj (hk.symm.trans (Task.runAtKey_eq_ok (valid htask))))
  refine ⟨scan, ids, (mapError_eq_ok (f := .store)).2 hscan, hitems, fun id => (hmem id).trans ?_, ?_⟩
  · refine exists_congr fun task => ?_
    constructor
    · rintro ⟨k, htask, hk, -, less⟩
      rw [key_eq htask hk, UnixTime.key_lt_iff (Task.time_of_valid (valid htask))] at less
      exact ⟨htask, less⟩
    · rintro ⟨htask, less⟩
      exact ⟨_, htask, Task.runAtKey_eq_ok (valid htask), List.nil_le _,
        (UnixTime.key_lt_iff (Task.time_of_valid (valid htask))).2 less⟩
  · refine hordered.imp fun {i j} hij => ?_
    obtain ⟨s, t, k, l, hs, ht, hk, hl, order⟩ := hij
    rw [key_eq hs hk, key_eq ht hl] at order
    have after : ∀ {u : UnixTime}, Check.time u = .ok () → 0 ≤ u.seconds.toInt := fun {u} hu => by
      have first : 1 ≤ u.seconds.toInt := UnixTime.le_iff.1 (Check.time_eq_ok.1 hu)
      omega
    have hs' := after (Task.time_of_valid (valid hs))
    have ht' := after (Task.time_of_valid (valid ht))
    rw [UnixTime.key_lt_key_iff hs' ht'] at order
    exact ⟨s, t, hs, ht, order.imp_right (And.imp_left (UnixTime.key_inj hs' ht'))⟩

/-- Which tasks are due is found without fail, and a tick takes them from the front. -/
theorem exists_due (h : bucket.Holds store.contents tasks) (hstore : store.Reliable)
    (now : UnixTime) :
    ∃ ids, RunBefore tasks (now.addSeconds 1) ids ∧ due store now = .ok ids
      ∧ ∀ count, Executor.firstDue count now store = .ok (ids.take count) := by
  obtain ⟨scan, ids, hscan, hitems, hbefore⟩ := exists_dueScan h hstore now
  refine ⟨ids, hbefore, ?_, fun count => ?_⟩
  · refine bind_eq_ok.2 ⟨scan, hscan, mapError_eq_ok.2 ?_⟩
    rw [IndexScan.ids, hitems, mapM_map_ok]
  · refine bind_eq_ok.2 ⟨scan, hscan, mapError_eq_ok.2 ?_⟩
    rw [hitems, ← List.map_take, mapM_map_ok]

end Gazette.Queue
