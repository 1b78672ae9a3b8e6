import Gazette.Name
import Gazette.Validation
import Gazette.Wire

set_option autoImplicit false

/-! # Store errors

What reading and writing records can fail with. Damage to stored bytes and failures of the
device below are *fatal*: they must end the enclosing transaction. All other errors are
outcomes that a caller may report and go on from.
-/

namespace Gazette

/-- What is wrong with stored bytes. -/
inductive Damage where
  /-- A record cannot be read. -/
  | unreadable (fault : Wire.Fault)
  /-- A record carries another ID than the one in its key. -/
  | foreignId
  /-- The value of a counter is not a 64-bit number. -/
  | counterWidth
  /-- The value of an index entry is no record ID. -/
  | entryWidth (fault : IdentifierFault)
  /-- An index entry names a record that is not stored. -/
  | danglingEntry
  deriving DecidableEq, Repr

/-- The text of the damage. -/
def Damage.message : Damage → String
  | .unreadable fault => fault.message
  | .foreignId => "stored record carries a different id"
  | .counterWidth => "sequence value is not 8 bytes"
  | .entryWidth fault => fault.message
  | .danglingEntry => "index entry without record"

/-- Why an operation on the store failed. -/
inductive StoreError where
  /-- No record has this ID. -/
  | notFound (bucket : String) (id : RecordId)
  /-- A unique index holds the extracted key for another record. -/
  | conflict (bucket index : String) (key : Bytes)
  /-- The record's own fields are refused. -/
  | validation (errors : ValidationErrors)
  /-- An index cannot take the record. -/
  | invalidIndexKey (bucket index reason : String)
  /-- The bucket has no index of this name. -/
  | unknownIndex (bucket index : String)
  | invalidName (name : String) (fault : NameFault)
  | duplicateIndex (bucket index : String)
  /-- The counter has issued its last number. -/
  | exhausted (counter : String)
  /-- Stored bytes are not what was written. -/
  | corrupt (key : Bytes) (damage : Damage)
  /-- A record cannot be written as bytes. -/
  | unwritable (reason : String)
  /-- The device below failed. -/
  | backend (reason : String)
  deriving DecidableEq, Repr

namespace StoreError

/-- The text of the error, which starts with the bucket where one is concerned. -/
def message : StoreError → String
  | .notFound bucket id => s!"{bucket}: record {id.toHex} not found"
  | .conflict bucket index key =>
    s!"{bucket}: unique index {index} already holds key {Hex.encode key}"
  | .validation errors => errors.message
  | .invalidIndexKey bucket index reason =>
    s!"{bucket}: cannot build key for index {index}: {reason}"
  | .unknownIndex bucket index => s!"{bucket}: unknown index {index}"
  | .invalidName name fault => s!"invalid name {Text.quoted name}: {fault.message}"
  | .duplicateIndex bucket index => s!"{bucket}: index {index} declared twice"
  | .exhausted counter => s!"sequence {counter} exhausted"
  | .corrupt key damage => s!"corrupt value at key {Hex.encode key}: {damage.message}"
  | .unwritable reason => "serialization error: " ++ reason
  | .backend reason => "backend error: " ++ reason

/-- Whether the error must end the enclosing transaction. -/
def isFatal : StoreError → Bool
  | .corrupt .. | .unwritable _ | .backend _ => true
  | _ => false

end StoreError

end Gazette
