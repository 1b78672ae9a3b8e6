import Gazette.Proofs.Bucket.Writing

set_option autoImplicit false

/-! # Buckets as tables

A table is what a bucket stands for: its records, and the last number issued for them. A put that
succeeds adds or replaces one record of the table, a delete takes one away, and neither changes a
key that is not the bucket's (`Contents.AgreeOutside`). On a reliable store a delete never fails.
-/

namespace Gazette

/-- A number below the greatest has a successor. -/
theorem toNat_add_one {n : UInt64} (h : n.toNat + 1 < UInt64.size) :
    (n + 1).toNat = n.toNat + 1 := by
  have fits : n.toNat + 1 < 2 ^ 64 := h
  have one : (1 : UInt64).toNat = 1 := rfl
  rw [UInt64.toNat_add, one, Nat.mod_eq_of_lt fits]

/-- Records with the last number issued for them. -/
structure Table (ρ : Type) where
  records : RecordId → Option ρ
  last : UInt64

namespace Table

variable {ρ : Type}

def empty : Table ρ := ⟨fun _ => none, 0⟩

/-- The ID that the next new record gets. -/
def next (table : Table ρ) : RecordId := ⟨table.last + 1⟩

/-- There is a next ID. -/
def HasRoom (table : Table ρ) : Prop := table.last.toNat + 1 < UInt64.size

def set (table : Table ρ) (id : RecordId) (record : ρ) : Table ρ :=
  { table with records := Function.update table.records id (some record) }

def erase (table : Table ρ) (id : RecordId) : Table ρ :=
  { table with records := Function.update table.records id none }

/-- The table with a new record. -/
def add [Record ρ] (table : Table ρ) (record : ρ) : Table ρ where
  records := Function.update table.records table.next (some (Record.withId record table.next))
  last := table.last + 1

/-- The ID that a record is stored under: its own or, if it has none yet, the next one. -/
def idFor [Record ρ] (table : Table ρ) (record : ρ) : RecordId :=
  (Record.id record).getD table.next

/-- The record as it is stored, with its ID. -/
def numbered [Record ρ] (table : Table ρ) (record : ρ) : ρ :=
  Record.identified record (table.idFor record)

/-- There is an ID for the record. -/
def RoomFor [Record ρ] (table : Table ρ) (record : ρ) : Prop :=
  Record.id record = none → table.HasRoom

/-- The table with a record, which is given an ID if it has none yet. -/
def put [Record ρ] (table : Table ρ) (record : ρ) : Table ρ where
  records := Function.update table.records (table.idFor record) (some (table.numbered record))
  last := if (Record.id record).isNone then table.last + 1 else table.last

/-- The ID has been issued, unless it is zero. -/
def Issued (table : Table ρ) (id : RecordId) : Prop := id.sequence ≤ table.last

theorem HasRoom.last_lt {table : Table ρ} (h : table.HasRoom) : table.last < table.last + 1 := by
  rw [UInt64.lt_iff_toNat_lt, toNat_add_one h]
  omega

/-- The next ID has not been issued. -/
theorem HasRoom.ne_next {table : Table ρ} (h : table.HasRoom) {id : RecordId}
    (hid : table.Issued id) : id ≠ table.next := by
  rintro rfl
  exact UInt64.not_le.2 h.last_lt hid

theorem HasRoom.issued_add [Record ρ] {table : Table ρ} (h : table.HasRoom) {id : RecordId}
    (hid : table.Issued id) (record : ρ) : (table.add record).Issued id :=
  UInt64.le_trans hid (UInt64.le_of_lt h.last_lt)

theorem issued_next_add [Record ρ] (table : Table ρ) (record : ρ) :
    (table.add record).Issued table.next :=
  UInt64.le_refl _

section put

variable [Record ρ] {table : Table ρ} {record : ρ} {id : RecordId}

theorem idFor_new (h : Record.id record = none) : table.idFor record = table.next := by
  rw [idFor, h, Option.getD_none]

theorem idFor_own (h : Record.id record = some id) : table.idFor record = id := by
  rw [idFor, h, Option.getD_some]

theorem numbered_new (h : Record.id record = none) :
    table.numbered record = Record.withId record table.next := by
  rw [numbered, Record.identified_new h, idFor_new h]

theorem numbered_own (h : Record.id record = some id) : table.numbered record = record :=
  Record.identified_own h _

/-- A record is stored with the ID that it is stored under. -/
theorem id_numbered [LawfulRecord ρ] (table : Table ρ) (record : ρ) :
    Record.id (table.numbered record) = some (table.idFor record) :=
  Record.id_identified fun _ own => (idFor_own own).symm

theorem roomFor_new (h : Record.id record = none) : table.RoomFor record ↔ table.HasRoom :=
  ⟨fun room => room h, fun room _ => room⟩

theorem roomFor_own (h : Record.id record = some id) : table.RoomFor record := by
  intro absent
  rw [h] at absent
  cases absent

theorem put_new (h : Record.id record = none) : table.put record = table.add record := by
  rw [put, idFor_new h, numbered_new h, h]
  rfl

theorem put_own (h : Record.id record = some id) :
    table.put record = table.set id record := by
  rw [put, idFor_own h, numbered_own h, h]
  rfl

end put

theorem records_set (table : Table ρ) (id : RecordId) (record : ρ) (i : RecordId) :
    (table.set id record).records i = if i = id then some record else table.records i :=
  Function.update_apply ..

theorem records_set_self (table : Table ρ) (id : RecordId) (record : ρ) :
    (table.set id record).records id = some record :=
  Function.update_self ..

theorem records_erase (table : Table ρ) (id i : RecordId) :
    (table.erase id).records i = if i = id then none else table.records i :=
  Function.update_apply ..

theorem records_add [Record ρ] (table : Table ρ) (record : ρ) (i : RecordId) :
    (table.add record).records i =
      if i = table.next then some (Record.withId record table.next) else table.records i :=
  Function.update_apply ..

theorem records_add_next [Record ρ] (table : Table ρ) (record : ρ) :
    (table.add record).records table.next = some (Record.withId record table.next) :=
  Function.update_self ..

theorem erase_eq_self (table : Table ρ) {id : RecordId} (h : table.records id = none) :
    table.erase id = table := by
  rw [erase, Function.update_eq_self_iff.2 h.symm]

/-- A new record leaves those under issued IDs alone. -/
theorem HasRoom.records_add [Record ρ] {table : Table ρ} (h : table.HasRoom) {id : RecordId}
    (hid : table.Issued id) (record : ρ) :
    (table.add record).records id = table.records id := by
  rw [table.records_add, if_neg (h.ne_next hid)]

/-! ## What holds of every record -/

/-- Every record of the table, with its ID, has a property. -/
def All (table : Table ρ) (p : RecordId → ρ → Prop) : Prop :=
  ∀ id record, table.records id = some record → p id record

namespace All

variable {table : Table ρ} {p q : RecordId → ρ → Prop}

theorem imp (h : table.All p) (himp : ∀ id record, p id record → q id record) : table.All q :=
  fun id record hrecord => himp id record (h id record hrecord)

/-- Storing a record under an ID takes the property for this record, and that the others keep
theirs. -/
theorem set (h : table.All p) {id : RecordId} {record : ρ}
    (himp : ∀ i old, i ≠ id → p i old → q i old) (hnew : q id record) :
    (table.set id record).All q := by
  intro i stored hstored
  rw [records_set] at hstored
  by_cases same : i = id
  · rw [if_pos same, Option.some.injEq] at hstored
    rw [same, ← hstored]
    exact hnew
  · rw [if_neg same] at hstored
    exact himp i stored same (h i stored hstored)

/-- A new record is stored under the next ID. -/
theorem add [Record ρ] (h : table.All p) {record : ρ} (himp : ∀ i old, p i old → q i old)
    (hnew : q table.next (Record.withId record table.next)) : (table.add record).All q :=
  fun i stored hstored => h.set (fun i old _ => himp i old) hnew i stored hstored

theorem erase (h : table.All p) (id : RecordId) : (table.erase id).All p := by
  intro i stored hstored
  rw [records_erase] at hstored
  by_cases same : i = id
  · rw [if_pos same] at hstored
    cases hstored
  · rw [if_neg same] at hstored
    exact h i stored hstored

end All

end Table

/-! ## Agreement -/

/-- The two contents differ at most under keys that are owned by this name. -/
def Contents.AgreeOutside (name : Name) (before after : Contents) : Prop :=
  ∀ key, ¬ name.Owns key → after.get? key = before.get? key

theorem Contents.agreeOutside_apply {name : Name} (contents : Contents) {batch : List Operation}
    (h : ∀ op ∈ batch, name.Owns op.key) : AgreeOutside name contents (contents.apply batch) := by
  intro key hkey
  refine get?_apply_of_untouched contents ?_
  rintro op hop rfl
  exact hkey (h op hop)

namespace Bucket

variable {ρ : Type} [Record ρ] {bucket : Bucket ρ} {table : Table ρ} {store after : Store}
  {contents contents' : Contents} {record : ρ} {id : RecordId}

/-- The contents hold the table in this bucket. -/
structure Holds (bucket : Bucket ρ) (contents : Contents) (table : Table ρ) : Prop where
  represents : bucket.Represents contents table.records
  issued : bucket.counter.HasIssued contents table.last

/-- What a put of this record has done to a store that held the table. The record is in the table
afterwards if it can be read back; the other records are as they were in any case. -/
structure PutDone (bucket : Bucket ρ) (store after : Store) (table : Table ρ) (record : ρ) :
    Prop where
  room : table.RoomFor record
  reliable : after.Reliable
  issued : bucket.counter.HasIssued after.contents (table.put record).last
  bytes : ∀ id, after.contents.get? (bucket.recordKey id) =
    if id = table.idFor record then some (Record.codec.encode (table.numbered record))
    else store.contents.get? (bucket.recordKey id)
  agreeOutside : Contents.AgreeOutside bucket.name store.contents after.contents
  holds : Record.Storable record → bucket.Holds after.contents (table.put record)

namespace PutDone

variable (done : bucket.PutDone store after table record)

include done

theorem get_other (hstore : store.Reliable) (other : id ≠ table.idFor record) :
    bucket.get after id = bucket.get store id :=
  get_congr hstore done.reliable ((done.bytes id).trans (if_neg other))

theorem get_self [LawfulRecord ρ] (readable : Record.Readable (table.numbered record)) :
    bucket.get after (table.idFor record) = .ok (some (table.numbered record)) :=
  get_of_encoded done.reliable ((done.bytes _).trans (if_pos rfl))
    (table.id_numbered record) readable

end PutDone

/-- Contents with nothing of the bucket's in them hold no records. -/
theorem holds_of_vacant (h : ∀ key, bucket.name.Owns key → contents.get? key = none) :
    bucket.Holds contents .empty where
  represents := represents_nothing fun key hkey => h key hkey.owns
  issued := .inr ⟨h _ bucket.owns_counterKey, rfl⟩

theorem holds_empty : bucket.Holds .empty .empty :=
  holds_of_vacant fun _ _ => rfl

/-- Deleting a record that is not there does nothing. -/
theorem Represents.delete_absent {records : RecordId → Option ρ}
    (h : bucket.Represents store.contents records) (hstore : store.Reliable)
    (habsent : records id = none) : store.perform (bucket.delete id) = (.ok false, store) := by
  rcases h.planDelete_eq hstore id with ⟨-, hplan⟩ | ⟨old, changes, hold, -⟩
  · rw [delete, Store.perform_bind, Store.perform_read, hplan]
    rfl
  · rw [habsent] at hold
    cases hold

namespace Holds

/-- What happens under the keys of another name does not matter. -/
theorem of_agreeOutside (h : bucket.Holds contents table) {name : Name}
    (hagree : Contents.AgreeOutside name contents contents') (hother : bucket.name ≠ name) :
    bucket.Holds contents' table where
  represents := h.represents.congr fun key hkey =>
    hagree key fun howns => hother (Name.owner_unique hkey.owns howns)
  issued := h.issued.congr <| hagree _ fun howns =>
    hother (Name.owner_unique bucket.owns_counterKey howns)

/-! ## Reading -/

theorem get_eq (h : bucket.Holds store.contents table) (hstore : store.Reliable) (id : RecordId) :
    bucket.get store id = .ok (table.records id) :=
  h.represents.get_eq hstore id

theorem records_of_one (h : bucket.Holds store.contents table)
    (hone : bucket.one store id = .ok record) : table.records id = some record := by
  obtain ⟨found, hget, hfound⟩ := bind_eq_ok.1 hone
  rw [← h.represents.eq_of_get hget]
  cases found with
  | none => cases hfound
  | some found => exact congrArg some (Except.ok.inj hfound)

/-! ## Writing -/

section put

variable [LawfulRecord ρ] {answer : RecordId × ρ}

/-- A put that succeeds stores the record under its own ID or the next one, and the counter goes
on exactly if it is the next one. -/
theorem put_done (h : bucket.Holds store.contents table) (hstore : store.Reliable)
    (hput : store.perform (bucket.put record) = (.ok answer, after)) :
    answer = (table.idFor record, Record.withId record (table.idFor record))
      ∧ bucket.PutDone store after table record := by
  have hafter : after.Reliable := Store.reliable_of_perform hstore hput
  rcases put_cases bucket hstore.acceptsWrites record with
    ⟨error, hrun⟩ | ⟨plan, last, hplan, hrun, hcontents, -⟩
  · rw [hrun] at hput
    cases hput
  · rw [hrun] at hput
    cases hput
    obtain ⟨bump, old, changes, hassign, hrecord, -, -, -, -, hbatch⟩ := planPut_eq_ok hplan
    have agree : Contents.AgreeOutside bucket.name store.contents after.contents := by
      rw [hcontents]
      exact Contents.agreeOutside_apply _ fun op hop => owns_of_mem_planPut hplan hop
    -- past the counter itself the batch does not come back to it
    have bumped : after.contents.get? bucket.counter.key =
        (store.contents.apply bump).get? bucket.counter.key := by
      rw [hcontents, hbatch, Contents.apply_append]
      exact Contents.get?_apply_of_untouched _ fun op hop => ne_counterKey_of_mem_replacement hop
    have placed : table.RoomFor record ∧ plan.id = table.idFor record
        ∧ bucket.counter.HasIssued after.contents (table.put record).last := by
      rcases assignId_eq_ok hassign with ⟨hown, rfl⟩ | ⟨hnew, last, hlast, room, hid, rfl⟩
      · refine ⟨Table.roomFor_own hown, (Table.idFor_own hown).symm, ?_⟩
        rw [Table.put_own hown]
        exact h.issued.congr bumped
      · obtain rfl := Counter.eq_of_current h.issued hlast
        refine ⟨(Table.roomFor_new hnew).2 room, hid.trans (Table.idFor_new hnew).symm, .inl ?_⟩
        have written := Contents.get?_write store.contents
          (.set bucket.counter.key (Counter.valueOf (table.last + 1))) bucket.counter.key
        rw [bumped, Table.put_new hnew]
        exact written.trans (if_pos rfl)
    obtain ⟨room, hid, issued⟩ := placed
    have numbered : plan.record = table.numbered record := by rw [hrecord, hid, Table.numbered]
    have bytes := get?_recordKey_planPut hplan
    rw [numbered, hid, ← hcontents] at bytes
    refine ⟨by rw [hid], room, hafter, issued, bytes, agree, fun hstorable => ?_⟩
    have represents := h.represents.planPut hplan hstorable
    rw [numbered, hid, ← hcontents] at represents
    exact ⟨represents, issued⟩

/-- Putting a record that has no ID adds it to the table. -/
theorem put_new (h : bucket.Holds store.contents table) (hstore : store.Reliable)
    (hstorable : Record.Storable record) (hnew : Record.id record = none)
    (hput : store.perform (bucket.put record) = (.ok answer, after)) :
    answer.1 = table.next ∧ table.HasRoom ∧ after.Reliable
      ∧ bucket.Holds after.contents (table.add record)
      ∧ Contents.AgreeOutside bucket.name store.contents after.contents := by
  obtain ⟨rfl, done⟩ := h.put_done hstore hput
  have hold := done.holds hstorable
  rw [Table.put_new hnew] at hold
  exact ⟨Table.idFor_new hnew, done.room hnew, done.reliable, hold, done.agreeOutside⟩

/-- Putting a record that has an ID replaces what is stored under the ID. -/
theorem put_own (h : bucket.Holds store.contents table) (hstore : store.Reliable)
    (hstorable : Record.Storable record) (hown : Record.id record = some id)
    (hput : store.perform (bucket.put record) = (.ok answer, after)) :
    answer.1 = id ∧ after.Reliable ∧ bucket.Holds after.contents (table.set id record)
      ∧ Contents.AgreeOutside bucket.name store.contents after.contents := by
  obtain ⟨rfl, done⟩ := h.put_done hstore hput
  have hold := done.holds hstorable
  rw [Table.put_own hown] at hold
  exact ⟨Table.idFor_own hown, done.reliable, hold, done.agreeOutside⟩

end put

/-- On a reliable store a delete succeeds, whether there is a record or not. -/
theorem delete_eq (h : bucket.Holds store.contents table) (hstore : store.Reliable)
    (id : RecordId) :
    ∃ after, store.perform (bucket.delete id) = (.ok (table.records id).isSome, after)
      ∧ after.Reliable ∧ bucket.Holds after.contents (table.erase id)
      ∧ Contents.AgreeOutside bucket.name store.contents after.contents := by
  rcases h.represents.planDelete_eq hstore id with
    ⟨absent, -⟩ | ⟨old, changes, hold, hplan⟩
  · refine ⟨store, ?_, hstore, (table.erase_eq_self absent).symm ▸ h, fun key _ => rfl⟩
    rw [h.represents.delete_absent hstore absent, absent]
    rfl
  · obtain ⟨after, hdelete, hcontents, -⟩ := perform_delete hstore.acceptsWrites hplan
    have hafter : after.Reliable := Store.reliable_of_perform hstore hdelete
    refine ⟨after, by rw [hold]; exact hdelete, hafter, ⟨?_, ?_⟩, ?_⟩
    · rw [hcontents]
      exact h.represents.planDelete hplan
    · refine h.issued.congr ?_
      rw [hcontents]
      exact Contents.get?_apply_of_untouched _ fun op hop => ne_counterKey_of_mem_replacement hop
    · rw [hcontents]
      exact Contents.agreeOutside_apply _ fun op hop => owns_of_mem_replacement hop

end Holds

end Bucket

end Gazette
