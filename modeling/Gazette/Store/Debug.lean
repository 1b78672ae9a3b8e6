import Gazette.Bucket.IndexScan

set_option autoImplicit false

/-! # The storage layer as shown in diagnostics

The short texts in which a log shows a store, a walk through it, and a bucket with its indexes.
-/

namespace Gazette

/-! ## Stores and walks -/

/-- A device shows how many keys it holds, an overlay how many it touches. -/
def Store.debug : Store → String
  | .base device =>
    "InMemoryKvStore \x7b key_count: " ++ toString device.contents.size ++ " \x7d"
  | .staged _ writes => "StagedStore \x7b pending: " ++ toString writes.size ++ " \x7d"

/-- A walk shows where it goes on and what it has fetched ahead. -/
def RangeScan.debug (scan : RangeScan) : String :=
  "RangeIter \x7b next_start: \"" ++ Hex.encode scan.nextStart
    ++ "\", page_size: " ++ toString scan.pageSize
    ++ ", buffered: " ++ toString scan.buffer.length
    ++ ", exhausted: " ++ toString scan.exhausted ++ " \x7d"

/-- A query shows its walk, and the length of the entries that it does not skip. -/
def IndexScan.debug (scan : IndexScan) : String :=
  let length := match scan.exactLength with
    | none => "None"
    | some n => s!"Some({n})"
  "IndexScan \x7b entries: " ++ scan.entries.debug ++ ", exact_len: " ++ length ++ " \x7d"

/-! ## Buckets -/

variable {ρ : Type}

def Index.debug (index : Index ρ) : String :=
  "IndexSpec \x7b name: " ++ Text.quoted index.name.text
    ++ ", unique: " ++ toString index.unique ++ " \x7d"

/-- A bucket shows its indexes in the order of their declaration. -/
def Bucket.debug (bucket : Bucket ρ) : String :=
  "Bucket \x7b name: " ++ Text.quoted bucket.name.text
    ++ ", indexes: [" ++ String.intercalate ", " (bucket.indexes.map Index.debug) ++ "] \x7d"

end Gazette
