import Gazette.Proofs.Bucket.History
import Gazette.Proofs.Bucket.Isolation
import Gazette.Proofs.Bucket.Table

set_option autoImplicit false

/-! # IDs in order

A counter is moved by the batch that writes what it was moved for. A store is meant to make a batch
visible as a whole (`Store.AllOrNothing`), and then the IDs that a counter issues follow each other
without a gap, whatever else happens to the store: puts that fail, deletions, other counters, and
overlays that are dropped, at any depth. What such an overlay issued does not count, for it never
was in the store. After the greatest number nothing is issued any more (`Counter.issued_in_order`).

A device that breaks a batch off half way may have moved the counter for a record that it does not
hold, so this is asked of the device and not of the calls.
-/

namespace Gazette

variable {ρ : Type} {store : Store} {contents mid after : Contents}

/-! ## Batches as a whole -/

namespace Device

/-- A batch that succeeds did what it says. -/
theorem contents_of_apply {device device' : Device} {batch : List Operation}
    (h : device.apply batch = (.ok (), device')) :
    device'.contents = device.contents.apply batch := by
  induction batch generalizing device with
  | nil =>
    cases h
    rfl
  | cons write rest ih =>
    rw [apply] at h
    split at h
    · cases h
    · exact ih h

end Device

namespace Store

/-- The device at the bottom makes a batch as a whole or not at all, whatever it holds. -/
def AllOrNothing (store : Store) : Prop :=
  ∀ (contents : Contents) (batch : List Operation) (error : StoreError) (device : Device),
    (Device.mk contents store.device.refusal).apply batch = (.error error, device) →
      device.contents = contents

theorem AllOrNothing.of_refusal {store' : Store} (h : store.AllOrNothing)
    (same : store'.device.refusal = store.device.refusal) : store'.AllOrNothing := by
  unfold AllOrNothing at h ⊢
  rwa [same]

/-- A device that refuses no write has no batch to break off. -/
theorem Reliable.allOrNothing (h : store.Reliable) : store.AllOrNothing := by
  intro contents batch error device broken
  have accepts : (Store.base ⟨contents, store.device.refusal⟩).AcceptsWrites := fun write => h _
  obtain ⟨after, hrun, -⟩ := apply_of_acceptsWrites accepts batch
  rw [apply, broken] at hrun
  cases hrun

/-- A batch fails and changes nothing, or does what it says. -/
theorem AllOrNothing.apply_cases (h : store.AllOrNothing) (batch : List Operation) :
    (∃ error, store.apply batch = (.error error, store)) ∨
      ∃ after, store.apply batch = (.ok (), after)
        ∧ after.contents = store.contents.apply batch := by
  cases store with
  | staged below writes =>
    exact .inr ⟨_, rfl, WriteSet.apply_recordAll below.contents writes batch⟩
  | base device =>
    have refusal := refusal_apply (.base device) batch
    cases hrun : device.apply batch with
    | mk outcome device' =>
      rw [apply, hrun] at refusal ⊢
      cases outcome with
      | error error =>
        have unchanged : device' = device := by
          cases device'
          cases device
          cases refusal
          cases h _ batch error _ hrun
          rfl
        exact .inl ⟨error, by rw [unchanged]⟩
      | ok done => exact .inr ⟨_, rfl, Device.contents_of_apply hrun⟩

end Store

/-! ## What is written to counters -/

theorem Counter.key_injective {counter other : Counter} (h : counter.key = other.key) :
    counter = other := by
  have names := Name.owner_unique counter.owns_key (h ▸ other.owns_key)
  cases counter
  cases other
  exact congrArg Counter.mk names

namespace Bucket

variable [Record ρ] {bucket : Bucket ρ}

/-- The batch for a record leaves every counter alone. -/
theorem ne_key_of_mem_replacement (counter : Counter) {id : RecordId} {new : Option ρ}
    {changes : List (Index.Change ρ)} {op : Operation}
    (h : op ∈ bucket.replacement id new changes) : op.key ≠ counter.key := by
  intro same
  have names : bucket.name = counter.name :=
    Name.owner_unique (owns_of_mem_replacement h) (same ▸ counter.owns_key)
  have own : counter = bucket.counter := congrArg Counter.mk names.symm
  exact ne_counterKey_of_mem_replacement h (own ▸ same)

/-- A put that succeeds leaves in a counter what the choice of the ID has written there. -/
theorem get?_counterKey_planPut {record : ρ} {plan : PutPlan ρ}
    (h : bucket.planPut store record = .ok plan) (counter : Counter) (contents : Contents) :
    ∃ bump, bucket.assignId store record = .ok (plan.id, bump)
      ∧ (contents.apply plan.batch).get? counter.key = (contents.apply bump).get? counter.key := by
  obtain ⟨bump, old, changes, hassign, -, -, -, -, -, hbatch⟩ := planPut_eq_ok h
  refine ⟨bump, hassign, ?_⟩
  rw [hbatch, Contents.apply_append]
  exact Contents.get?_apply_of_untouched _ fun op hop => ne_key_of_mem_replacement counter hop

/-- A put fails and changes nothing, or makes the batch that it worked out. -/
theorem put_settled (bucket : Bucket ρ) (whole : store.AllOrNothing) (record : ρ) :
    (∃ error, store.perform (bucket.put record) = (.error error, store)) ∨
      ∃ plan after, bucket.planPut store record = .ok plan
        ∧ store.perform (bucket.put record) = (.ok (plan.id, Record.withId record plan.id), after)
        ∧ after.contents = store.contents.apply plan.batch := by
  rw [put, Store.perform_bind, Store.perform_read]
  cases hplan : bucket.planPut store record with
  | error error => exact .inl ⟨error, rfl⟩
  | ok plan =>
    simp only [Store.perform_bind, Store.perform_write, Store.perform_pure]
    rcases whole.apply_cases plan.batch with ⟨error, hrun⟩ | ⟨after, hrun, hcontents⟩
    · exact .inl ⟨error, by rw [hrun]⟩
    · exact .inr ⟨plan, after, rfl, by rw [hrun], hcontents⟩

/-- A deletion leaves every counter alone. -/
theorem get?_counterKey_delete (bucket : Bucket ρ) (store : Store) (id : RecordId)
    (counter : Counter) :
    (store.perform (bucket.delete id)).2.contents.get? counter.key =
      store.contents.get? counter.key := by
  have outside : (bucket.delete id).WritesOutside (· = counter.key) := by
    refine .read_bind fun store batch hplan => ?_
    cases batch with
    | none => trivial
    | some batch =>
      obtain ⟨old, changes, -, -, rfl⟩ := planDelete_eq_ok hplan
      exact .write_bind (fun write hwrite => ne_key_of_mem_replacement counter hwrite) trivial
  exact store.get?_perform_of_writesOutside outside rfl

end Bucket

/-- A request fails and changes nothing, or makes the write that issues the next ID. -/
theorem Counter.next_settled (counter : Counter) (whole : store.AllOrNothing) :
    (∃ error, store.perform counter.next = (.error error, store)) ∨
      ∃ id bump after, counter.reserve store = .ok (id, bump)
        ∧ store.perform counter.next = (.ok id, after)
        ∧ after.contents = store.contents.write bump := by
  rw [next, Store.perform_bind, Store.perform_read]
  cases hreserve : counter.reserve store with
  | error error => exact .inl ⟨error, rfl⟩
  | ok reserved =>
    simp only [Store.perform_bind, Store.perform_write, Store.perform_pure]
    rcases whole.apply_cases [reserved.2] with ⟨error, hrun⟩ | ⟨after, hrun, hcontents⟩
    · exact .inl ⟨error, by rw [hrun]⟩
    · exact .inr ⟨_, _, after, rfl, by rw [hrun], hcontents⟩

namespace Counter

open Bucket (notes)

variable {counter : Counter} {last : UInt64} {ids ids' : List RecordId}

/-! ## Issued in order -/

/-- Between the two contents the counter, which had issued `last` before, has issued these IDs and
no others. -/
structure Issues (counter : Counter) (last : UInt64) (contents : Contents) (ids : List RecordId)
    (after : Contents) : Prop where
  in_order : ids.map (·.sequence.toNat) = List.range' (last.toNat + 1) ids.length
  room : last.toNat + ids.length < UInt64.size
  counted : counter.HasIssued after (.ofNat (last.toNat + ids.length))
  idle : ids = [] → after.get? counter.key = contents.get? counter.key

namespace Issues

theorem none (h : counter.HasIssued contents last)
    (same : after.get? counter.key = contents.get? counter.key) :
    counter.Issues last contents [] after where
  in_order := rfl
  room := last.toNat_lt
  counted := by
    rw [List.length_nil, Nat.add_zero, UInt64.ofNat_toNat]
    exact h.congr same
  idle _ := same

theorem next (room : last.toNat + 1 < UInt64.size)
    (written : after.get? counter.key = some (valueOf (last + 1))) :
    counter.Issues last contents [⟨last + 1⟩] after where
  in_order := congrArg (fun n => [n]) (toNat_add_one room)
  room := room
  counted := .inl <| by
    rw [written, List.length_singleton, UInt64.ofNat_add, UInt64.ofNat_toNat]
    rfl
  idle nothing := by cases nothing

/-- The write that issues the next ID of some counter. -/
theorem bump (h : counter.HasIssued store.contents last) {other : Counter} {n : UInt64}
    (hn : other.current store = .ok n) (room : n.toNat + 1 < UInt64.size)
    (written : after.get? counter.key =
      (store.contents.write (.set other.key (valueOf (n + 1)))).get? counter.key) :
    counter.Issues last store.contents (if other = counter then [⟨n + 1⟩] else []) after := by
  rw [Contents.get?_write] at written
  split
  · rename_i own
    subst own
    obtain rfl := eq_of_current h hn
    exact .next room (written.trans (if_pos rfl))
  · rename_i apart
    exact .none h (written.trans (if_neg fun same => apart (key_injective same).symm))

theorem trans (first : counter.Issues last contents ids mid)
    (second : counter.Issues (.ofNat (last.toNat + ids.length)) mid ids' after) :
    counter.Issues last contents (ids ++ ids') after where
  in_order := by
    have later := second.in_order
    rw [UInt64.toNat_ofNat_of_lt' first.room] at later
    rw [List.map_append, first.in_order, later, List.length_append, ← List.range'_append_1,
      Nat.add_right_comm]
  room := by
    have later := second.room
    rw [UInt64.toNat_ofNat_of_lt' first.room] at later
    rwa [List.length_append, ← Nat.add_assoc]
  counted := by
    have later := second.counted
    rw [UInt64.toNat_ofNat_of_lt' first.room] at later
    rwa [List.length_append, ← Nat.add_assoc]
  idle nothing := by
    obtain ⟨rfl, rfl⟩ := List.append_eq_nil_iff.1 nothing
    exact (second.idle rfl).trans (first.idle rfl)

end Issues

/-! ## Calls -/

/-- A call that may ask a counter for an ID. A reservation is not acted upon. -/
inductive Call : Type 1
  | next (counter : Counter)
  | reserve (counter : Counter)
  | put {ρ : Type} [Record ρ] (bucket : Bucket ρ) (record : ρ)
  | delete {ρ : Type} [Record ρ] (bucket : Bucket ρ) (id : RecordId)

namespace Call

/-- The store after a call, whether it fails or not. -/
def run : Call → Store → Store
  | .next counter, store => (store.perform counter.next).2
  | .reserve _, store => store
  | @put _ _ bucket record, store => (store.perform (bucket.put record)).2
  | @delete _ _ bucket id, store => (store.perform (bucket.delete id)).2

/-- What a call issues from a counter: the ID asked for, or the ID given to a record that has
none. -/
def issued (counter : Counter) : Call → Store → List RecordId
  | .next other, store =>
    match (store.perform other.next).1 with
    | .ok id => if other = counter then [id] else []
    | .error _ => []
  | .reserve _, _ => []
  | @put _ _ bucket record, store =>
    match (store.perform (bucket.put record)).1 with
    | .ok (id, _) => if Record.id record = none ∧ bucket.counter = counter then [id] else []
    | .error _ => []
  | @delete _ _ _ _, _ => []

theorem refusal_run (call : Call) (store : Store) :
    (call.run store).device.refusal = store.device.refusal := by
  cases call with
  | next other => exact store.refusal_perform _
  | reserve other => rfl
  | put bucket record => exact store.refusal_perform _
  | delete bucket id => exact store.refusal_perform _

/-- A call issues the next ID of a counter or none. -/
theorem issues (call : Call) (whole : store.AllOrNothing)
    (h : counter.HasIssued store.contents last) :
    counter.Issues last store.contents (call.issued counter store) (call.run store).contents := by
  cases call with
  | next other =>
    rcases other.next_settled whole with
      ⟨error, hrun⟩ | ⟨id, bump, after, hreserve, hrun, hcontents⟩
    · simp only [Call.run, issued, hrun]
      exact .none h rfl
    · obtain ⟨n, hn, room, rfl, rfl⟩ := reserve_eq_ok hreserve
      simp only [Call.run, issued, hrun, hcontents]
      exact .bump h hn room rfl
  | reserve other => exact .none h rfl
  | put bucket record =>
    rcases bucket.put_settled whole record with
      ⟨error, hrun⟩ | ⟨plan, after, hplan, hrun, hcontents⟩
    · simp only [Call.run, issued, hrun]
      exact .none h rfl
    · obtain ⟨bump, hassign, written⟩ :=
        Bucket.get?_counterKey_planPut hplan counter store.contents
      simp only [Call.run, issued, hrun, hcontents]
      rcases Bucket.assignId_eq_ok hassign with ⟨hown, rfl⟩ | ⟨hnew, n, hn, room, hid, rfl⟩
      · simp only [hown, reduceCtorEq, false_and, if_false]
        exact .none h written
      · simp only [hnew, hid, true_and]
        exact .bump h hn room written
  | delete bucket id => exact .none h (bucket.get?_counterKey_delete store id counter)

end Call

/-! ## Runs -/

/-- Calls one after another. Some are made on an overlay, which is closed before the run goes on
below it, and its writes are committed or dropped. -/
inductive Script : Type 1
  | done
  | call (call : Call) (rest : Script)
  | overlay (inner : Script) (commits : Bool) (rest : Script)

namespace Script

/-- The store after a run. -/
def run : Script → Store → Store
  | .done, store => store
  | .call first rest, store => rest.run (first.run store)
  | .overlay inner true rest, store => rest.run (inner.run store.stage).commit.2
  | .overlay inner false rest, store => rest.run (inner.run store.stage).rollback

/-- What a run issues from a counter. Of what is issued on an overlay, that counts which reaches
the store below. -/
def issued (counter : Counter) : Script → Store → List RecordId
  | .done, _ => []
  | .call first rest, store => first.issued counter store ++ rest.issued counter (first.run store)
  | .overlay inner true rest, store =>
    match (inner.run store.stage).commit with
    | (.ok (), after) => inner.issued counter store.stage ++ rest.issued counter after
    | (.error _, after) => rest.issued counter after
  | .overlay inner false rest, store => rest.issued counter (inner.run store.stage).rollback

/-- A run on an overlay leaves an overlay on the same store. -/
theorem run_staged (script : Script) (below : Store) (writes : WriteSet) :
    ∃ writes', script.run (.staged below writes) = .staged below writes' := by
  induction script generalizing below writes with
  | done => exact ⟨writes, rfl⟩
  | call first rest ih =>
    obtain ⟨writes', hfirst⟩ : ∃ writes', first.run (.staged below writes) =
        .staged below writes' := by
      cases first with
      | next other => exact Store.perform_staged below writes _
      | reserve other => exact ⟨writes, rfl⟩
      | put bucket record => exact Store.perform_staged below writes _
      | delete bucket id => exact Store.perform_staged below writes _
    rw [run, hfirst]
    exact ih below writes'
  | overlay inner commits rest ihInner ih =>
    obtain ⟨top, hinner⟩ := ihInner (.staged below writes) .empty
    cases commits with
    | true =>
      rw [run, Store.stage, hinner, Store.commit_eq_apply]
      exact ih below _
    | false =>
      rw [run, Store.stage, hinner]
      exact ih below writes

theorem run_stage (script : Script) (store : Store) :
    ∃ writes, script.run store.stage = .staged store writes :=
  script.run_staged store .empty

theorem refusal_run (script : Script) (store : Store) :
    (script.run store).device.refusal = store.device.refusal := by
  induction script generalizing store with
  | done => rfl
  | call first rest ih => exact (ih _).trans (first.refusal_run store)
  | overlay inner commits rest ihInner ih =>
    obtain ⟨writes, hinner⟩ := inner.run_stage store
    cases commits with
    | true =>
      rw [run, hinner, Store.commit_eq_apply]
      exact (ih _).trans (store.refusal_apply _)
    | false =>
      rw [run, hinner]
      exact ih store

/-- A run issues the next IDs of a counter, or none. -/
theorem issues (script : Script) (whole : store.AllOrNothing)
    (h : counter.HasIssued store.contents last) :
    counter.Issues last store.contents (script.issued counter store)
      (script.run store).contents := by
  induction script generalizing store last with
  | done => exact .none h rfl
  | call first rest ih =>
    have one := first.issues whole h
    exact one.trans (ih (whole.of_refusal (first.refusal_run store)) one.counted)
  | overlay inner commits rest ihInner ih =>
    -- on the overlay the counter stands as it does below
    have top : counter.Issues last store.stage.contents (inner.issued counter store.stage)
        (inner.run store.stage).contents := ihInner whole h
    obtain ⟨writes, hinner⟩ := inner.run_stage store
    cases commits with
    | false =>
      rw [issued, run, hinner]
      exact ih whole h
    | true =>
      rw [issued, run, hinner, Store.commit_eq_apply]
      rcases whole.apply_cases writes.operations with ⟨error, hrun⟩ | ⟨after, hrun, hcontents⟩
      · rw [hrun]
        exact ih whole h
      · have keeps : after.AllOrNothing := whole.of_refusal (by
          rw [← store.refusal_apply writes.operations, hrun])
        rw [hinner, Store.contents_staged, ← hcontents] at top
        rw [hrun]
        exact top.trans (ih keeps top.counted)

end Script

/-- Every request for an ID is refused, and nothing is written. -/
structure Exhausted (counter : Counter) (store : Store) : Prop where
  reserve : counter.reserve store = .error (.exhausted counter.name.text)
  next : store.perform counter.next = (.error (.exhausted counter.name.text), store)
  put : ∀ {ρ : Type} [Record ρ] (bucket : Bucket ρ) (record : ρ), bucket.counter = counter →
    Record.id record = none →
    store.perform (bucket.put record) = (.error (.exhausted counter.name.text), store)

/-- A counter that has issued the greatest number refuses every request, if it can be read. -/
theorem exhausted_of_last (h : counter.HasIssued store.contents last)
    (greatest : last.toNat + 1 = UInt64.size) {value : Option Bytes}
    (readable : store.get counter.key = .ok value) : counter.Exhausted store := by
  have refused : counter.reserve store = .error (.exhausted counter.name.text) := by
    rw [reserve, current_of_get h readable]
    exact if_neg (by omega)
  refine ⟨refused, Store.perform_read_bind_of_error refused _, ?_⟩
  rintro ρ _ bucket record rfl hnew
  refine Store.perform_read_bind_of_error ?_ _
  have unassigned : bucket.assignId store record = .error (.exhausted bucket.name.text) := by
    simp only [Bucket.assignId, hnew]
    exact map_eq_error.2 refused
  exact bind_eq_error.2 (.inl unassigned)

/-- On a store that makes a batch as a whole or not at all, the IDs that a run issues from a
counter are the next ones in order, each once and none left out, and the counter has counted them.
What issues none leaves the counter as it is. At the greatest number every request is refused and
changes nothing. -/
theorem issued_in_order {start : Store} (whole : start.AllOrNothing)
    (h : counter.HasIssued start.contents last) (script : Script) :
    let store := script.run start
    let ids := script.issued counter start
    counter.Issues last start.contents ids store.contents
      ∧ (∀ more : Script, more.issued counter store = [] →
          (more.run store).contents.get? counter.key = store.contents.get? counter.key)
      ∧ ∀ value, store.get counter.key = .ok value →
          last.toNat + ids.length + 1 = UInt64.size → counter.Exhausted store := by
  intro store ids
  have issues := script.issues whole h
  have keeps : store.AllOrNothing := whole.of_refusal (script.refusal_run start)
  refine ⟨issues, fun more none_more => ?_, fun value readable greatest => ?_⟩
  · exact (more.issues keeps issues.counted).idle none_more
  · refine exhausted_of_last issues.counted ?_ readable
    rwa [UInt64.toNat_ofNat_of_lt' issues.room]

/-! ## Notes, for example -/

/-- Two of the notes are refused or dropped with their overlay, one has an ID of its own, and one is
deleted; the counter is asked for an ID without a note, and so is another. -/
def drafts : Script :=
  let note (author : String) : Note := ⟨none, author, 1, 5⟩
  .call (.put notes (note "ada")) <| .call (.put notes (note "ada")) <|
  .overlay (.call (.put notes (note "bob")) .done) false <|
  .overlay (.call (.put notes (note "bob")) <| .call (.next notes.counter) .done) true <|
  .call (.put notes ⟨some ⟨9⟩, "eve", 1, 5⟩) <| .call (.delete notes ⟨1⟩) <|
  .call (.next ⟨⟨"other", by decide⟩⟩) <| .call (.reserve notes.counter) <|
  .call (.put notes (note "ada")) .done

/-- A store in which the counter of the notes has issued the greatest number. -/
def full : Store :=
  .memory (KeyMap.empty.insert notes.counter.key (valueOf 0xffffffffffffffff))

theorem issued_in_order_drafts :
    drafts.issued notes.counter .memory = [⟨1⟩, ⟨2⟩, ⟨3⟩, ⟨4⟩]
      ∧ notes.counter.HasIssued (drafts.run .memory).contents 4
      ∧ notes.counter.Exhausted full := by
  have ids : drafts.issued notes.counter .memory = [⟨1⟩, ⟨2⟩, ⟨3⟩, ⟨4⟩] := by decide +kernel
  have none_yet : notes.counter.HasIssued Store.memory.contents 0 := .inr ⟨rfl, rfl⟩
  obtain ⟨issues, -⟩ :=
    issued_in_order (Store.reliable_memory _).allOrNothing none_yet drafts
  have counted := issues.counted
  rw [ids] at counted
  have all : notes.counter.HasIssued full.contents 0xffffffffffffffff := .inl (by decide +kernel)
  obtain ⟨-, -, exhausted⟩ :=
    issued_in_order (Store.reliable_memory _).allOrNothing all .done
  have readable : full.get notes.counter.key = .ok (full.contents.get? notes.counter.key) :=
    Store.get_eq (Store.reliable_memory _) _
  exact ⟨ids, counted, exhausted _ readable rfl⟩

end Counter

end Gazette
