import Gazette.Store.KeyMap

set_option autoImplicit false

/-! # Contents and writes

What a store holds is a map from keys to values. A write sets or deletes one key; a batch is a
list of writes made in order. `Contents.changes` is the batch that leads from one map to
another, with one write for each key that differs.
-/

namespace Gazette

/-- A key with its value. -/
abbrev Entry := Bytes × Bytes

/-- What a store holds. -/
abbrev Contents := KeyMap Bytes

/-- A single write of a batch. -/
inductive Operation where
  /-- Create or overwrite a value. -/
  | set (key value : Bytes)
  /-- Remove a key, which need not be there. -/
  | delete (key : Bytes)
  deriving DecidableEq, Repr

/-- The key that a write touches. -/
def Operation.key : Operation → Bytes
  | .set key _ => key
  | .delete key => key

namespace Contents

/-- The contents after one write. -/
def write (contents : Contents) : Operation → Contents
  | .set key value => contents.insert key value
  | .delete key => contents.erase key

/-- The contents after a batch. -/
def apply (contents : Contents) (batch : List Operation) : Contents := batch.foldl write contents

/-- The writes that lead from `before` to `after`, in ascending order of their keys. A key that
has the same value in both is left out. -/
def changes (before after : Contents) : List Operation :=
  let gone := before.entries.filter fun entry => (after.get? entry.1).isNone
  let fresh := after.entries.filter fun entry => before.get? entry.1 ≠ some entry.2
  (gone.map fun entry => .delete entry.1).merge
    (fresh.map fun entry => .set entry.1 entry.2) (fun a b => a.key ≤ b.key)

end Contents

end Gazette
