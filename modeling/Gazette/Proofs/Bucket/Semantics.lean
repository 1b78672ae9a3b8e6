import Gazette.Proofs.Bucket.Admission
import Gazette.Proofs.Bucket.History

set_option autoImplicit false

/-! # What puts and deletes do

A bucket that represents its records, with a counter that is not damaged, holds a table, and each
put and each delete does to the table what one would expect, for every record and every ID
(`Represents.writes_exact`). The search for keys that are taken looks at the store and not at the
table, and skips the keys that a record had before; that the two agree is what the entries of the
indexes are for.
-/

namespace Gazette.Bucket

variable {ρ : Type} [Record ρ] {bucket : Bucket ρ} {store : Store} {table : Table ρ} {record : ρ}
  {records : RecordId → Option ρ}

/-- The caller's record after a put. A success answers it with the ID written into it. An error
comes without a record, so that it leaves the caller's as it was holds by this definition. -/
def argumentAfter (record : ρ) : Except StoreError (RecordId × ρ) → ρ
  | .ok answer => answer.2
  | .error _ => record

/-- Putting this record into the table does exactly what it should. -/
structure PutsExactly (bucket : Bucket ρ) (store : Store) (table : Table ρ) (record : ρ) :
    Prop where
  /-- It succeeds if there is an ID for the record, the record is valid under it, no index refuses
  it, and no other record has its key in a unique index; and only then. -/
  succeeds_iff : (∃ answer after, store.perform (bucket.put record) = (.ok answer, after)) ↔
    table.RoomFor record
      ∧ bucket.Admits table.records (table.idFor record) (table.numbered record)
  /-- A success answers the ID, writes it into the caller's record, counts if the record had none,
  stores the record under the ID, where it can be read if its bytes can, and leaves what is under
  the other IDs alone. -/
  done : ∀ answer after, store.perform (bucket.put record) = (.ok answer, after) →
    answer.1 = table.idFor record
    ∧ argumentAfter record (.ok answer) = Record.withId record (table.idFor record)
    ∧ (∃ last, bucket.counter.current after = .ok last
      ∧ last.toNat = table.last.toNat + if (Record.id record).isNone then 1 else 0)
    ∧ (Record.Readable (table.numbered record) →
      bucket.get after (table.idFor record) = .ok (some (table.numbered record)))
    ∧ ∀ id ≠ table.idFor record, bucket.get after id = bucket.get store id
  /-- A failure changes nothing, and is a conflict exactly if nothing else is wrong. -/
  failed : ∀ error after, store.perform (bucket.put record) = (.error error, after) →
    after = store ∧ argumentAfter record (.error error) = record
    ∧ ((∃ name index key, error = .conflict name index key) ↔
      table.RoomFor record
        ∧ Record.validate (table.numbered record) = .ok ()
        ∧ (∀ index ∈ bucket.indexes, ∃ key, index.extract (table.numbered record) = .ok key)
        ∧ bucket.KeyTaken table.records (table.idFor record) (table.numbered record))

/-- Deleting what is under this ID does exactly what it should. -/
structure DeletesExactly (bucket : Bucket ρ) (store : Store) (table : Table ρ) (id : RecordId) :
    Prop where
  answer_eq : (store.perform (bucket.delete id)).1 = .ok (table.records id).isSome
  get_self : bucket.get (store.perform (bucket.delete id)).2 id = .ok none
  get_other : ∀ i ≠ id,
    bucket.get (store.perform (bucket.delete id)).2 i = bucket.get store i
  counter_eq :
    bucket.counter.current (store.perform (bucket.delete id)).2 = bucket.counter.current store

namespace Holds

theorem putsExactly [LawfulRecord ρ] (h : bucket.Holds store.contents table)
    (hstore : store.Reliable) (record : ρ) : bucket.PutsExactly store table record where
  succeeds_iff := h.put_iff hstore
  done answer after hput := by
    obtain ⟨rfl, done⟩ := h.put_done hstore hput
    have counted : (table.put record).last.toNat =
        table.last.toNat + if (Record.id record).isNone then 1 else 0 := by
      cases hid : Record.id record with
      | none => rw [Table.put_new hid]; exact toNat_add_one (done.room hid)
      | some id => rw [Table.put_own hid]; rfl
    exact ⟨rfl, rfl, ⟨_, Counter.current_eq done.reliable done.issued, counted⟩, done.get_self,
      fun id other => done.get_other hstore other⟩
  failed error after hput := by
    rcases h.perform_put_cases hstore record with
      ⟨answer, last, hrun⟩ | ⟨full, hrun⟩ | ⟨reason, hrun, room, rejects⟩
    · rw [hrun] at hput
      cases hput
    · rw [hrun] at hput
      cases hput
      refine ⟨rfl, rfl, iff_of_false ?_ fun only => full only.1⟩
      rintro ⟨name, index, key, no_conflict⟩
      cases no_conflict
    · rw [hrun] at hput
      cases hput
      exact ⟨rfl, rfl, rejects.conflict_iff.trans (and_iff_right room).symm⟩

theorem deletesExactly (h : bucket.Holds store.contents table) (hstore : store.Reliable)
    (id : RecordId) : bucket.DeletesExactly store table id := by
  obtain ⟨after, hdelete, hafter, hold, -⟩ := h.delete_eq hstore id
  refine ⟨by rw [hdelete], ?_, fun i other => ?_, ?_⟩
  · rw [hdelete, hold.get_eq hafter]
    exact congrArg Except.ok (Function.update_self ..)
  · rw [hdelete, hold.get_eq hafter, h.get_eq hstore]
    exact congrArg Except.ok (Function.update_of_ne other ..)
  · rw [hdelete, Counter.current_eq hafter hold.issued, Counter.current_eq hstore h.issued]
    rfl

end Holds

/-- On a reliable store in which a bucket represents its records, every put and every delete of
the bucket does exactly what it should. -/
theorem Represents.writes_exact [LawfulRecord ρ] (h : bucket.Represents store.contents records)
    (hstore : store.Reliable)
    (hcounter : ∀ value, store.contents.get? bucket.counter.key = some value →
      value.length = 8) :
    ∃ last, bucket.counter.current store = .ok last
      ∧ (∀ id, bucket.get store id = .ok (records id))
      ∧ (∀ record, bucket.PutsExactly store ⟨records, last⟩ record)
      ∧ ∀ id, bucket.DeletesExactly store ⟨records, last⟩ id := by
  obtain ⟨last, issued⟩ := Counter.exists_hasIssued hcounter
  have hold : bucket.Holds store.contents ⟨records, last⟩ := ⟨h, issued⟩
  exact ⟨last, Counter.current_eq hstore issued, h.get_eq hstore, hold.putsExactly hstore,
    hold.deletesExactly hstore⟩

/-! ## Notes, for example -/

/-- A note by ada under the first ID of the counter and one by bob under an ID of its own. -/
def filed : Store :=
  .memory (notes.callAll .memory
    [.put ⟨none, "ada", 1, 5⟩, .put ⟨some ⟨7⟩, "bob", 2, 6⟩]).contents

/-- A new note is counted, a second one by ada is refused under any ID, and bob's goes. -/
theorem Represents.writes_exact_filed :
    (∃ after, filed.perform (notes.put ⟨none, "eve", 2, 8⟩) =
          (.ok (⟨2⟩, ⟨some ⟨2⟩, "eve", 2, 8⟩), after)
        ∧ notes.get after ⟨2⟩ = .ok (some ⟨some ⟨2⟩, "eve", 2, 8⟩)
        ∧ notes.get after ⟨7⟩ = .ok (some ⟨some ⟨7⟩, "bob", 2, 6⟩)
        ∧ notes.counter.current after = .ok 2)
      ∧ filed.perform (notes.put ⟨some ⟨7⟩, "ada", 2, 8⟩) =
          (.error (.conflict "note" "author" (Utf8.encode "ada")), filed)
      ∧ (filed.perform (notes.delete ⟨7⟩)).1 = .ok true
      ∧ notes.get (filed.perform (notes.delete ⟨7⟩)).2 ⟨7⟩ = .ok none := by
  obtain ⟨records, represents⟩ : ∃ records, notes.Represents filed.contents records :=
    exists_represents_notes notes _
  have width : ∀ value, filed.contents.get? notes.counter.key = some value →
      value.length = 8 := by
    have one : filed.contents.get? notes.counter.key = some (Counter.valueOf 1) := by
      decide +kernel
    rintro value hvalue
    obtain rfl := Option.some.inj (one.symm.trans hvalue)
    exact Counter.length_valueOf 1
  obtain ⟨last, hlast, hget, puts, deletes⟩ :=
    represents.writes_exact (Store.reliable_memory _) width
  have one : notes.counter.current filed = .ok 1 := by decide +kernel
  obtain rfl := Except.ok.inj (one.symm.trans hlast)
  have bob : notes.get filed ⟨7⟩ = .ok (some ⟨some ⟨7⟩, "bob", 2, 6⟩) := by decide +kernel
  refine ⟨⟨(filed.perform (notes.put ⟨none, "eve", 2, 8⟩)).2, ?_⟩, ?_, ?_, (deletes ⟨7⟩).get_self⟩
  · have told : (filed.perform (notes.put ⟨none, "eve", 2, 8⟩)).1 =
        .ok (⟨2⟩, ⟨some ⟨2⟩, "eve", 2, 8⟩) := by
      decide +kernel
    have run := Store.perform_eq_of_fst told
    obtain ⟨-, -, ⟨next, hnext, counted⟩, self, others⟩ :=
      (puts ⟨none, "eve", 2, 8⟩).done _ _ run
    have readable := storable_note ⟨none, "eve", 2, 8⟩ ⟨1 + 1⟩ rfl
    have two : next = 2 := UInt64.toNat_inj.1 counted
    have other : (⟨7⟩ : RecordId) ≠ ⟨1 + 1⟩ := by decide
    exact ⟨run, self readable, (others ⟨7⟩ other).trans bob, two ▸ hnext⟩
  · have told : (filed.perform (notes.put ⟨some ⟨7⟩, "ada", 2, 8⟩)).1 =
        .error (.conflict "note" "author" (Utf8.encode "ada")) := by
      decide +kernel
    have run := Store.perform_eq_of_fst told
    obtain ⟨same, -⟩ := (puts ⟨some ⟨7⟩, "ada", 2, 8⟩).failed _ _ run
    rwa [same] at run
  · have stored : records ⟨7⟩ = some ⟨some ⟨7⟩, "bob", 2, 6⟩ :=
      Except.ok.inj ((hget ⟨7⟩).symm.trans bob)
    have answered := (deletes ⟨7⟩).answer_eq
    simpa only [stored, Option.isSome_some] using answered

end Gazette.Bucket
