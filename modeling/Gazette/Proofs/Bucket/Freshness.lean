import Gazette.Proofs.Bucket.Admission
import Gazette.Proofs.Bucket.History
import Mathlib.Data.List.Induction

set_option autoImplicit false

/-! # IDs of new records

A record without an ID is given the next number of the counter, and a record with one is stored
under it, whatever the counter says. So the next number can be an ID that a record has brought
along, and then the new record takes its place (`new_id_taken`). No record is lost in any other way
by putting a new one: what is stored has an issued ID or has brought its ID along (`Explains`), and
the next number has not been issued (`new_id_free_unless_brought`).
-/

namespace Gazette.Bucket

variable {ρ : Type} [Record ρ] {bucket : Bucket ρ} {start store : Store} {table table' : Table ρ}
  {calls : List (Call ρ)}

theorem callAll_concat (bucket : Bucket ρ) (start : Store) (calls : List (Call ρ))
    (call : Call ρ) :
    bucket.callAll start (calls ++ [call]) = bucket.call (bucket.callAll start calls) call :=
  List.foldl_concat ..

/-! ## What one call does -/

/-- What a call may do to a table: a put that fails does nothing. -/
inductive Does (bucket : Bucket ρ) (store : Store) (table : Table ρ) : Call ρ → Table ρ → Prop
  | fail (record : ρ) : Does bucket store table (.put record) table
  | put (record : ρ) (answer : RecordId × ρ) (after : Store) (room : table.RoomFor record)
      (hput : store.perform (bucket.put record) = (.ok answer, after)) :
    Does bucket store table (.put record) (table.put record)
  | delete (id : RecordId) : Does bucket store table (.delete id) (table.erase id)

theorem Holds.call [LawfulRecord ρ] (h : bucket.Holds store.contents table)
    (hstore : store.Reliable) {call : Call ρ} (hstorable : call.Storable) :
    (bucket.call store call).Reliable ∧ ∃ table', bucket.Does store table call table'
      ∧ bucket.Holds (bucket.call store call).contents table' := by
  cases call with
  | put record =>
    rw [Bucket.call]
    rcases h.perform_put_cases hstore record with
      ⟨answer, after, hput⟩ | ⟨-, hput⟩ | ⟨error, hput, -⟩
    · obtain ⟨-, done⟩ := h.put_done hstore hput
      rw [hput]
      exact ⟨done.reliable, table.put record, .put record answer after done.room hput,
        done.holds hstorable⟩
    · rw [hput]
      exact ⟨hstore, table, .fail record, h⟩
    · rw [hput]
      exact ⟨hstore, table, .fail record, h⟩
  | delete id =>
    obtain ⟨after, hdelete, hafter, hold, -⟩ := h.delete_eq hstore id
    rw [Bucket.call, hdelete]
    exact ⟨hafter, table.erase id, .delete id, hold⟩

/-! ## Where IDs come from -/

/-- One of the calls has stored this record, which brought the ID along. -/
def Brought (bucket : Bucket ρ) (start : Store) (calls : List (Call ρ)) (id : RecordId)
    (record : ρ) : Prop :=
  ∃ earlier later answer after, calls = earlier ++ .put record :: later
    ∧ Record.id record = some id
    ∧ (bucket.callAll start earlier).perform (bucket.put record) = (.ok answer, after)

theorem Brought.concat {id : RecordId} {record : ρ} (h : bucket.Brought start calls id record)
    (call : Call ρ) : bucket.Brought start (calls ++ [call]) id record := by
  obtain ⟨earlier, later, answer, after, rfl, hid, hput⟩ := h
  refine ⟨earlier, later ++ [call], answer, after, ?_, hid, hput⟩
  rw [List.append_assoc, List.cons_append]

/-- Every record of the table has an ID that has been issued, or one that it brought along. -/
def Explains (bucket : Bucket ρ) (start : Store) (calls : List (Call ρ)) (table : Table ρ) : Prop :=
  table.All fun id record => table.Issued id ∨ bucket.Brought start calls id record

theorem Explains.step (h : bucket.Explains start calls table) {call : Call ρ}
    (hdoes : bucket.Does (bucket.callAll start calls) table call table') :
    bucket.Explains start (calls ++ [call]) table' := by
  have kept : table.All fun id record =>
      table.Issued id ∨ bucket.Brought start (calls ++ [call]) id record :=
    h.imp fun id record explained => explained.imp_right fun brought => brought.concat call
  cases hdoes with
  | fail record => exact kept
  | delete id => exact kept.erase id
  | put record answer after room hput =>
    cases hid : Record.id record with
    | none =>
      -- the ID is the next one, which is issued with this
      rw [Explains, Table.put_new hid]
      refine kept.add (fun id old explained => ?_) (.inl (Table.issued_next_add table record))
      exact explained.imp_left fun issued => (room hid).issued_add issued record
    | some id =>
      rw [Explains, Table.put_own hid]
      exact kept.set (fun _ _ _ explained => explained)
        (.inr ⟨calls, [], answer, after, rfl, hid, hput⟩)

/-- After any calls on an empty store the bucket holds a table that they explain. -/
theorem exists_explains [LawfulRecord ρ] (hempty : ∀ key, start.contents.get? key = none)
    (hstart : start.Reliable) (hcalls : ∀ call ∈ calls, call.Storable) :
    (bucket.callAll start calls).Reliable
      ∧ ∃ table, bucket.Explains start calls table
        ∧ bucket.Holds (bucket.callAll start calls).contents table := by
  induction calls using List.reverseRecOn with
  | nil =>
    refine ⟨hstart, .empty, ?_, holds_of_vacant fun key _ => hempty key⟩
    intro id record stored
    cases stored
  | append_singleton calls call ih =>
    obtain ⟨reliable, table, explains, hold⟩ :=
      ih fun c hc => hcalls c (List.mem_append_left _ hc)
    obtain ⟨reliable', table', does, hold'⟩ :=
      hold.call reliable (hcalls call (List.mem_append_right _ List.mem_cons_self))
    rw [callAll_concat]
    exact ⟨reliable', table', explains.step does, hold'⟩

/-- After any calls on an empty store, what is stored under the ID that a new record is given has
brought this ID along, and what is stored under any other ID stays as it is. So if no record has
brought the ID along, a put of a new record only adds to what is stored. -/
theorem new_id_free_unless_brought [LawfulRecord ρ] {before after : Store}
    (hempty : ∀ key, start.contents.get? key = none) (hstart : start.Reliable)
    (hcalls : ∀ call ∈ calls, call.Storable) (hbefore : bucket.callAll start calls = before)
    {record : ρ} (hnew : Record.id record = none) {answer : RecordId × ρ}
    (hput : before.perform (bucket.put record) = (.ok answer, after)) :
    (∀ old, bucket.get before answer.1 = .ok (some old) →
        bucket.Brought start calls answer.1 old)
      ∧ (∀ id ≠ answer.1, bucket.get after id = bucket.get before id)
      ∧ ((∀ old, ¬ bucket.Brought start calls answer.1 old) →
        bucket.get before answer.1 = .ok none
          ∧ ∀ id old, bucket.get before id = .ok (some old) →
            bucket.get after id = .ok (some old)) := by
  obtain ⟨reliable, table, explains, hold⟩ := exists_explains hempty hstart hcalls
  rw [hbefore] at reliable hold
  obtain ⟨rfl, done⟩ := hold.put_done reliable hput
  have next : table.idFor record = table.next := Table.idFor_new hnew
  have get_before : ∀ id, bucket.get before id = .ok (table.records id) := hold.get_eq reliable
  have get_other : ∀ id ≠ table.next, bucket.get after id = bucket.get before id := by
    intro id other
    rw [← next] at other
    exact done.get_other reliable other
  -- what is under the next ID has brought it along, for this ID has not been issued
  have brought : ∀ old, table.records table.next = some old →
      bucket.Brought start calls table.next old := by
    intro old stored
    rcases explains table.next old stored with issued | brought
    · exact absurd rfl ((done.room hnew).ne_next issued)
    · exact brought
  rw [next]
  refine ⟨fun old stored => ?_, get_other, fun unnamed => ?_⟩
  · rw [get_before] at stored
    exact brought old (Except.ok.inj stored)
  · have free : table.records table.next = none := by
      rw [Option.eq_none_iff_forall_ne_some]
      intro old stored
      exact unnamed old (brought old stored)
    refine ⟨by rw [get_before, free], fun id old stored => ?_⟩
    have other : id ≠ table.next := by
      rintro rfl
      rw [get_before, free] at stored
      cases stored
    rw [get_other id other, stored]

/-! ## Notes, for example -/

/-- The first ID of the counter is free for a new note if the one note that was stored has brought
another one along. -/
theorem new_id_free_unless_brought_notes :
    ∃ after, (notes.callAll .memory [.put ⟨some ⟨7⟩, "ada", 1, 5⟩]).perform
        (notes.put ⟨none, "bob", 2, 6⟩) = (.ok (⟨1⟩, ⟨some ⟨1⟩, "bob", 2, 6⟩), after)
      ∧ notes.get after ⟨7⟩ = .ok (some ⟨some ⟨7⟩, "ada", 1, 5⟩) := by
  let before := notes.callAll .memory [.put ⟨some ⟨7⟩, "ada", 1, 5⟩]
  have told : (before.perform (notes.put ⟨none, "bob", 2, 6⟩)).1 =
      .ok (⟨1⟩, ⟨some ⟨1⟩, "bob", 2, 6⟩) := by
    decide +kernel
  have run := Store.perform_eq_of_fst told
  have stored : notes.get before ⟨7⟩ = .ok (some ⟨some ⟨7⟩, "ada", 1, 5⟩) := by decide +kernel
  have empty : ∀ key, Store.memory.contents.get? key = none := fun _ => rfl
  have calls : notes.callAll .memory [.put ⟨some ⟨7⟩, "ada", 1, 5⟩] = before := rfl
  have without : Record.id (⟨none, "bob", 2, 6⟩ : Note) = none := rfl
  obtain ⟨-, -, kept⟩ := new_id_free_unless_brought empty (Store.reliable_memory .empty)
    (storable_notes _) calls without run
  have unnamed : ∀ old, ¬ notes.Brought .memory [.put ⟨some ⟨7⟩, "ada", 1, 5⟩] ⟨1⟩ old := by
    rintro old ⟨earlier, later, answer, last, hcalls, hid, -⟩
    have hgiven : Call.put old ∈ [Call.put (⟨some ⟨7⟩, "ada", 1, 5⟩ : Note)] := by
      rw [hcalls]
      exact List.mem_append_right _ List.mem_cons_self
    cases List.mem_singleton.1 hgiven
    exact absurd hid (by decide)
  exact ⟨_, run, (kept unnamed).2 ⟨7⟩ _ stored⟩

/-- A new note takes the place of one that brought the first ID of the counter along. -/
theorem new_id_taken :
    ¬ ∀ (calls : List (Call Note)) (note : Note) (answer : RecordId × Note) (after : Store),
      Record.id note = none →
      (notes.callAll .memory calls).perform (notes.put note) = (.ok answer, after) →
      notes.get (notes.callAll .memory calls) answer.1 = .ok none
        ∧ ∀ id old, notes.get (notes.callAll .memory calls) id = .ok (some old) →
          notes.get after id = .ok (some old) := by
  intro claimed
  let before := notes.callAll .memory [.put ⟨some ⟨1⟩, "ada", 1, 5⟩]
  have told : (before.perform (notes.put ⟨none, "bob", 2, 6⟩)).1 =
      .ok (⟨1⟩, ⟨some ⟨1⟩, "bob", 2, 6⟩) := by
    decide +kernel
  have stored : notes.get before ⟨1⟩ = .ok (some ⟨some ⟨1⟩, "ada", 1, 5⟩) := by decide +kernel
  have free := (claimed _ _ _ _ rfl (Store.perform_eq_of_fst told)).1
  exact absurd (stored.symm.trans free) (by decide)

end Gazette.Bucket
