import Gazette.Store.Tx

set_option autoImplicit false

/-! # Counters

A counter hands out record IDs `1, 2, 3, …`. The last number issued is kept in the store under
the counter's own key, as eight octets, most significant first; a counter without a key has
issued nothing. It never starts over: after the greatest number there is no next one.
-/

namespace Gazette

/-- A named counter. -/
structure Counter where
  name : Name
  deriving DecidableEq, Repr

namespace Counter

/-- The key that holds the last number issued. -/
def key (counter : Counter) : Bytes := Utf8.encode "_s." ++ counter.name.bytes

/-- The value stored for a number. -/
def valueOf (n : UInt64) : Bytes := Bytes.bigEndian 8 n.toNat

/-- The last number issued, zero if there is none. -/
def current (counter : Counter) (store : Store) : Except StoreError UInt64 := do
  match ← store.get counter.key with
  | none => .ok 0
  | some value =>
    if value.length = 8 then .ok (UInt64.ofNat (Bytes.toNatBE value))
    else .error (.corrupt counter.key .counterWidth)

/-- The next ID and the write that issues it. Nothing is issued until the write is made. -/
def reserve (counter : Counter) (store : Store) : Except StoreError (RecordId × Operation) := do
  let last ← counter.current store
  if last.toNat + 1 < UInt64.size then
    .ok (⟨last + 1⟩, .set counter.key (valueOf (last + 1)))
  else .error (.exhausted counter.name.text)

/-- Issue the next ID. -/
def next (counter : Counter) : Tx StoreError RecordId := do
  let (id, bump) ← Tx.read counter.reserve
  Tx.write [bump]
  return id

end Counter

end Gazette
