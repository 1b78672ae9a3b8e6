import Gazette.Store.Error

set_option autoImplicit false

/-! # Records and indexes

A record type says where a record keeps its ID, which rules its fields obey, and how it is
written as bytes. An index is a function from a record to a key, which may also leave a record
out or refuse it.

`Index.changes` compares two versions of a record, either of which may be absent, and lists the
indexes whose key differs. It reads no store; a bucket turns its answer into writes.
-/

namespace Gazette

/-- A type of records that a bucket can hold. -/
class Record (ρ : Type) where
  /-- The ID of a record, once it has been assigned one. -/
  id : ρ → Option RecordId
  /-- The record with an ID. -/
  withId : ρ → RecordId → ρ
  /-- Check every field. -/
  validate : ρ → Except ValidationErrors Unit
  codec : Codec ρ

namespace Record

variable {ρ : Type} [Record ρ] {record : ρ}

/-- The record as it is stored under an ID: one that has an ID is left as it is, and any other is
given this one. -/
def identified (record : ρ) (id : RecordId) : ρ :=
  match Record.id record with
  | some _ => record
  | none => Record.withId record id

theorem identified_new (h : Record.id record = none) (id : RecordId) :
    identified record id = Record.withId record id := by
  rw [identified, h]

theorem identified_own {own : RecordId} (h : Record.id record = some own) (id : RecordId) :
    identified record id = record := by
  rw [identified, h]

theorem identified_cases (record : ρ) (id : RecordId) :
    identified record id = record ∨ identified record id = Record.withId record id := by
  cases h : Record.id record with
  | none => exact .inr (identified_new h id)
  | some own => exact .inl (identified_own h id)

end Record

/-- A declared index. -/
structure Index (ρ : Type) where
  name : Name
  /-- No two records have the same key. -/
  unique : Bool
  /-- The key of a record, none if the record is left out, or the reason why it is refused. -/
  extract : ρ → Except String (Option Bytes)

/-- An index that refused a record. -/
structure ExtractFault where
  index : String
  reason : String
  deriving DecidableEq, Repr

namespace Index

variable {ρ : Type}

/-- The key of a version of a record; an absent version has none. -/
def keyOf (index : Index ρ) : Option ρ → Except ExtractFault (Option Bytes)
  | none => .ok none
  | some record =>
    match index.extract record with
    | .ok key => .ok key
    | .error reason => .error ⟨index.name.text, reason⟩

/-- An index whose key is `old` in one version of a record and `new` in the other. -/
structure Change (ρ : Type) where
  /-- The place of the index among those declared. -/
  position : Nat
  index : Index ρ
  old : Option Bytes
  new : Option Bytes

/-- The changes in a list of indexes whose first is at `position`. -/
def changesFrom (position : Nat) (old new : Option ρ) :
    List (Index ρ) → Except ExtractFault (List (Change ρ))
  | [] => .ok []
  | index :: rest => do
    let oldKey ← index.keyOf old
    let newKey ← index.keyOf new
    let later ← changesFrom (position + 1) old new rest
    .ok (if oldKey = newKey then later else ⟨position, index, oldKey, newKey⟩ :: later)

/-- The indexes whose key differs between two versions of a record, in the order of their
declaration. The first refusal, of the old version before the new one, is the answer. -/
def changes (indexes : List (Index ρ)) (old new : Option ρ) :
    Except ExtractFault (List (Change ρ)) :=
  changesFrom 0 old new indexes

end Index

end Gazette
