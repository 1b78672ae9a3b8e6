import Gazette.Proofs.Store.Reliable

set_option autoImplicit false

/-! # Overlays cannot be seen

A history is a list of requests to a store: reads, scans, single writes and batches. What a
reliable store answers is a function of its contents (`serveAll_eq`). So an overlay on a store,
which may itself be an overlay, answers every history like a device in memory that holds the
contents of the store (`serveAll_stage`). What is below stays as it is until the overlay is
committed. The pending writes name each touched key once, in ascending order, and committing the
overlay makes just these.
-/

namespace Gazette

/-- A request to a store. -/
inductive Request where
  | get (key : Bytes)
  | has (key : Bytes)
  | set (key value : Bytes)
  | delete (key : Bytes)
  | apply (batch : List Operation)
  | scan (start : Bytes) (upper : Option Bytes) (limit : Nat)
  deriving DecidableEq, Repr

/-- What a store answers to a request that it does not refuse. -/
inductive Answer where
  | value (found : Option Bytes)
  | present (found : Bool)
  | entries (page : List Entry)
  /-- The writes were made. -/
  | done
  deriving DecidableEq, Repr

/-- The writes that a request asks for. -/
def Request.writes : Request → List Operation
  | .set key value => [.set key value]
  | .delete key => [.delete key]
  | .apply batch => batch
  | .get _ | .has _ | .scan _ _ _ => []

/-- The keys that a request writes to. -/
def Request.touched (request : Request) : List Bytes := request.writes.map (·.key)

/-! ## Serving requests -/

namespace Store

/-- Make the writes of a batch and say so. -/
def acknowledge (store : Store) (batch : List Operation) : Except StoreError Answer × Store :=
  ((fun _ => .done) <$> (store.apply batch).1, (store.apply batch).2)

/-- Serve one request: the answer, and the store after it. -/
def serve (store : Store) : Request → Except StoreError Answer × Store
  | .get key => (.value <$> store.get key, store)
  | .has key => (.present <$> store.has key, store)
  | .scan start upper limit => (.entries <$> store.scan start upper limit, store)
  | .set key value => store.acknowledge [.set key value]
  | .delete key => store.acknowledge [.delete key]
  | .apply batch => store.acknowledge batch

/-- Serve a history: the answers, and the store after it. -/
def serveAll (store : Store) : List Request → List (Except StoreError Answer) × Store
  | [] => ([], store)
  | request :: rest =>
    let (answers, after) := (store.serve request).2.serveAll rest
    ((store.serve request).1 :: answers, after)

end Store

namespace Contents

/-- What contents answer to a request. -/
def answer (contents : Contents) : Request → Answer
  | .get key => .value (contents.get? key)
  | .has key => .present (contents.get? key).isSome
  | .scan start upper limit => .entries ((contents.range start upper).take limit)
  | .set .. | .delete _ | .apply _ => .done

/-- What contents answer to a history, each request being served after those before it. -/
def answers (contents : Contents) : List Request → List Answer
  | [] => []
  | request :: rest => contents.answer request :: (contents.apply request.writes).answers rest

end Contents

namespace Store

/-! ## A reliable store is known by its contents -/

theorem acknowledge_eq {store : Store} (h : store.Reliable) (batch : List Operation) :
    ∃ after, store.acknowledge batch = (.ok .done, after)
      ∧ after.contents = store.contents.apply batch ∧ after.Reliable := by
  obtain ⟨after, run, contents, -, refusal⟩ := apply_of_acceptsWrites h.acceptsWrites batch
  refine ⟨after, ?_, contents, fun access => (congrFun refusal access).trans (h access)⟩
  rw [acknowledge, run]
  rfl

theorem serve_eq {store : Store} (h : store.Reliable) (request : Request) :
    ∃ after, store.serve request = (.ok (store.contents.answer request), after)
      ∧ after.contents = store.contents.apply request.writes ∧ after.Reliable := by
  cases request with
  | get key => exact ⟨store, by rw [serve, get_eq h]; rfl, rfl, h⟩
  | has key => exact ⟨store, by rw [serve, has_eq h]; rfl, rfl, h⟩
  | scan start upper limit => exact ⟨store, by rw [serve, scan_eq h]; rfl, rfl, h⟩
  | set key value => exact acknowledge_eq h [.set key value]
  | delete key => exact acknowledge_eq h [.delete key]
  | apply batch => exact acknowledge_eq h batch

theorem serveAll_eq {store : Store} (h : store.Reliable) (requests : List Request) :
    (store.serveAll requests).1 = (store.contents.answers requests).map .ok
      ∧ (store.serveAll requests).2.contents
          = store.contents.apply (requests.flatMap Request.writes) := by
  induction requests generalizing store with
  | nil => exact ⟨rfl, rfl⟩
  | cons request rest ih =>
    obtain ⟨after, run, contents, reliable⟩ := serve_eq h request
    obtain ⟨answers, last⟩ := ih reliable
    simp only [serveAll, run, Contents.answers, List.map_cons, List.flatMap_cons]
    refine ⟨by rw [answers, contents], ?_⟩
    calc (after.serveAll rest).2.contents
        = after.contents.apply (rest.flatMap Request.writes) := last
      _ = (store.contents.apply request.writes).apply (rest.flatMap Request.writes) := by
          rw [contents]
      _ = store.contents.apply (request.writes ++ rest.flatMap Request.writes) :=
          (Contents.apply_append ..).symm

/-! ## Overlays -/

/-- Serving a history on an overlay records its writes and touches nothing below. -/
theorem serveAll_staged (below : Store) (writes : WriteSet) (requests : List Request) :
    ((staged below writes).serveAll requests).2 =
      .staged below ((requests.flatMap Request.writes).foldl WriteSet.record writes) := by
  induction requests generalizing writes with
  | nil => rfl
  | cons request rest ih =>
    have step : ((staged below writes).serve request).2 =
        .staged below (request.writes.foldl WriteSet.record writes) := by
      cases request <;> rfl
    simp only [serveAll, List.flatMap_cons, List.foldl_append]
    rw [step, ih]

end Store

theorem KeyMap.mem_keys_iff {β : Type} (m : KeyMap β) (key : Bytes) :
    key ∈ m.keys ↔ (m.get? key).isSome := by
  obtain ⟨entries, ascending⟩ := m
  show key ∈ entries.map (·.1) ↔ (entries.lookup key).isSome
  induction entries with
  | nil => simp
  | cons entry rest ih =>
    rw [List.map_cons, List.mem_cons, lookup_entry key entry.1 entry.2 rest,
      ih (List.pairwise_cons.1 ascending).2]
    by_cases same : key = entry.1
    · simp [same]
    · simp [same]

namespace WriteSet

theorem map_key_operations (writes : WriteSet) : writes.operations.map (·.key) = writes.keys := by
  rw [operations, List.map_map]
  exact List.map_congr_left fun entry _ => key_operationOf entry

theorem mem_keys_recordAll (writes : WriteSet) (batch : List Operation) (key : Bytes) :
    key ∈ (batch.foldl record writes).keys ↔ key ∈ writes.keys ∨ ∃ op ∈ batch, op.key = key := by
  induction batch generalizing writes with
  | nil => simp
  | cons op batch ih =>
    rw [List.foldl_cons, ih, KeyMap.mem_keys_iff, KeyMap.mem_keys_iff, get?_record]
    by_cases same : key = op.key
    · simp [same]
    · simp [same, Ne.symm same]

/-- The pending writes name their keys in ascending order, hence each key once. -/
theorem operations_ascending (writes : WriteSet) :
    (writes.operations.map (·.key)).Pairwise (· < ·) := by
  rw [map_key_operations]
  exact List.pairwise_map.2 writes.ascending

end WriteSet

/-- An overlay on a reliable store cannot be told from a device in memory with the contents of
the store, which answers what the contents do as its writes are made on them one after another.
The store below does not change before the commit, which makes the pending writes there: one for
each touched key, in ascending order. -/
theorem Store.serveAll_stage (below : Store) (reliable : below.Reliable)
    (requests : List Request) :
    (below.stage.serveAll requests).1 = ((memory below.contents).serveAll requests).1
      ∧ ((memory below.contents).serveAll requests).1 = (below.contents.answers requests).map .ok
      ∧ ((memory below.contents).serveAll requests).2.contents
          = below.contents.apply (requests.flatMap Request.writes)
      ∧ ∃ writes : WriteSet, (below.stage.serveAll requests).2 = .staged below writes
        ∧ (writes.operations.map (·.key)).Pairwise (· < ·)
        ∧ (∀ key, key ∈ writes.operations.map (·.key) ↔
            ∃ request ∈ requests, key ∈ request.touched)
        ∧ (staged below writes).commit = below.apply writes.operations
        ∧ ∃ after, below.apply writes.operations = (.ok (), after)
          ∧ after.contents = ((memory below.contents).serveAll requests).2.contents := by
  -- the overlay and the device hold the same contents, so they answer alike
  obtain ⟨answers, last⟩ := serveAll_eq (reliable_stage reliable) requests
  obtain ⟨answers', last'⟩ := serveAll_eq (reliable_memory below.contents) requests
  have staged_last : (below.stage.serveAll requests).2 =
      .staged below ((requests.flatMap Request.writes).foldl WriteSet.record .empty) :=
    serveAll_staged below .empty requests
  rw [contents_stage] at answers last
  rw [contents_memory] at answers' last'
  refine ⟨answers.trans answers'.symm, answers', last', _, staged_last,
    WriteSet.operations_ascending _, fun key => ?_, commit_eq_apply below _, ?_⟩
  · rw [WriteSet.map_key_operations, WriteSet.mem_keys_recordAll]
    constructor
    · rintro (empty | ⟨op, written, rfl⟩)
      · cases empty
      · obtain ⟨request, mem, asked⟩ := List.mem_flatMap.1 written
        exact ⟨request, mem, List.mem_map_of_mem asked⟩
    · rintro ⟨request, mem, touched⟩
      obtain ⟨op, asked, rfl⟩ := List.mem_map.1 touched
      exact .inr ⟨op, List.mem_flatMap.2 ⟨request, mem, asked⟩, rfl⟩
  · obtain ⟨after, run, contents, -⟩ := apply_of_acceptsWrites reliable.acceptsWrites
      ((requests.flatMap Request.writes).foldl WriteSet.record .empty).operations
    refine ⟨after, run, ?_⟩
    calc after.contents
        = below.contents.apply
            ((requests.flatMap Request.writes).foldl WriteSet.record .empty).operations := contents
      _ = (below.stage.serveAll requests).2.contents := (congrArg Store.contents staged_last).symm
      _ = below.contents.apply (requests.flatMap Request.writes) := last
      _ = ((memory below.contents).serveAll requests).2.contents := last'.symm

/-- Two overlays on a device: a deletion pending below, and one made on top, shorten a page. -/
theorem Store.serveAll_stage_nested :
    let device := memory (.apply .empty [.set [1] [10], .set [2] [20], .set [3] [30]])
    let below := (device.stage.apply [.delete [2], .set [4] [40]]).2
    let requests : List Request :=
      [.scan [] none 2, .delete [1], .set [5] [50], .scan [] none 2, .scan [3] (some [3]) 9,
       .has [2], .apply [.delete [3], .set [2] [21]], .scan [2] (some [5]) 9]
    below.Reliable
      ∧ (below.stage.serveAll requests).1 =
          [.ok (.entries [([1], [10]), ([3], [30])]), .ok .done, .ok .done,
           .ok (.entries [([3], [30]), ([4], [40])]), .ok (.entries []), .ok (.present false),
           .ok .done, .ok (.entries [([2], [21]), ([4], [40])])]
      ∧ (below.stage.serveAll requests).1 = ((memory below.contents).serveAll requests).1 :=
  ⟨fun _ => rfl, rfl, (serveAll_stage _ (fun _ => rfl) _).1⟩

end Gazette
