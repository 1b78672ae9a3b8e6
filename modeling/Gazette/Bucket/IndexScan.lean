import Gazette.Bucket.Basic
import Gazette.Store.RangeScan

set_option autoImplicit false

/-! # Queries

A query of an index is a walk over its entries that gives the IDs they hold. An exact query
walks over all entries that start like the one asked for and skips those of another length, which
belong to longer keys. Range and prefix queries give every entry of their range.
-/

namespace Gazette

/-- The state of a walk over the entries of an index. -/
structure IndexScan where
  entries : RangeScan
  /-- If given, entries whose keys have another length are skipped. -/
  exactLength : Option Nat

namespace IndexScan

/-- The ID that an entry holds. -/
def idOf (entry : Entry) : Except StoreError RecordId :=
  match RecordId.ofBytes entry.2 with
  | .ok id => .ok id
  | .error fault => .error (.corrupt entry.1 (.entryWidth fault))

/-- Whether an entry belongs to another key than the one asked for. -/
def skips (scan : IndexScan) (entry : Entry) : Bool := scan.exactLength.any (entry.1.length ≠ ·)

/-- The next ID of the walk, if there is one, and the walk after it. -/
def next (scan : IndexScan) (store : Store) :
    Option (Except StoreError RecordId) × IndexScan :=
  match _step : scan.entries.next store with
  | (none, entries) => (none, { scan with entries })
  | (some (.error error), entries) => (some (.error error), { scan with entries })
  | (some (.ok entry), entries) =>
    if scan.skips entry then next { scan with entries } store
    else (some (idOf entry), { scan with entries })
termination_by scan.entries.weight store
decreasing_by exact RangeScan.weight_next_lt _step

/-- What the walk gives on a store that does not change. -/
def items (scan : IndexScan) (store : Store) : List (Except StoreError RecordId) :=
  (scan.entries.items store).filterMap fun
    | .error error => some (.error error)
    | .ok entry => if scan.skips entry then none else some (idOf entry)

/-- Up to `count` items of the walk, and the walk after them. -/
def take (scan : IndexScan) (store : Store) :
    (count : Nat) → List (Except StoreError RecordId) × IndexScan
  | 0 => ([], scan)
  | count + 1 =>
    match scan.next store with
    | (none, scan') => ([], scan')
    | (some item, scan') =>
      let (rest, scan'') := scan'.take store count
      (item :: rest, scan'')

/-- All IDs of the walk, or the first error. -/
def ids (scan : IndexScan) (store : Store) : Except StoreError (List RecordId) :=
  (scan.items store).mapM id

end IndexScan

namespace Bucket

variable {ρ : Type}

/-- The declared index of this name. -/
def indexNamed (bucket : Bucket ρ) (name : String) : Except StoreError (Index ρ) :=
  match bucket.indexes.find? (·.name.text = name) with
  | some index => .ok index
  | none => .error (.unknownIndex bucket.name.text name)

/-- The IDs of the records under exactly this key, in ascending order. -/
def query (bucket : Bucket ρ) (name : String) (key : Bytes) : Except StoreError IndexScan := do
  let index ← bucket.indexNamed name
  let bound := bucket.boundKey index key
  let length := if index.unique then bound.length else bound.length + RecordId.width
  .ok ⟨RangeScan.startingWith bound bucket.pageSize, some length⟩

/-- The IDs of the records whose key lies in the range from `start` up to but not including
`upper`, in the order of the entries; without an upper end, up to the end of the index. Keys are
compared as they stand in the entries, which is exact when all keys have the same length. -/
def queryRange (bucket : Bucket ρ) (name : String) (start : Bytes) (upper : Option Bytes) :
    Except StoreError IndexScan := do
  let index ← bucket.indexNamed name
  let bound := match upper with
    | some key => some (bucket.boundKey index key)
    | none => Bytes.afterPrefix (bucket.entryStart index)
  .ok ⟨RangeScan.ofRange (bucket.boundKey index start) bound bucket.pageSize, none⟩

/-- The IDs of the records whose key starts with `start`. -/
def queryPrefix (bucket : Bucket ρ) (name : String) (start : Bytes) :
    Except StoreError IndexScan := do
  let index ← bucket.indexNamed name
  .ok ⟨RangeScan.startingWith (bucket.boundKey index start) bucket.pageSize, none⟩

variable [Record ρ]

/-- The record that a unique index has under a key, if there is one. -/
def oneByUnique (bucket : Bucket ρ) (store : Store) (name : String) (key : Bytes) :
    Except StoreError (Option ρ) := do
  let scan ← bucket.query name key
  match (scan.next store).1 with
  | none => .ok none
  | some item => bucket.get store (← item)

/-- The records of the IDs that a walk gives. An entry whose record is missing is damage. -/
def load (bucket : Bucket ρ) (store : Store) (scan : IndexScan) : Except StoreError (List ρ) :=
  (scan.items store).mapM fun item => do
    let id ← item
    match ← bucket.get store id with
    | some record => .ok record
    | none => .error (.corrupt (bucket.recordKey id) .danglingEntry)

/-- The records under exactly this key. -/
def allWith (bucket : Bucket ρ) (store : Store) (name : String) (key : Bytes) :
    Except StoreError (List ρ) := do
  bucket.load store (← bucket.query name key)

end Bucket

end Gazette
