import Gazette.Store.Contents
import Gazette.Store.Error

set_option autoImplicit false

/-! # Stores

At the bottom of a store is a device: contents, together with a rule that says which accesses
it refuses. A device that refuses nothing keeps its contents in memory. Any number of overlays
can lie on top. An overlay keeps the writes that are made through it, answers reads from them
first, and leaves everything below as it is until it is committed as one batch.

A device makes the writes of a batch one by one and stops at the first that it refuses, keeping
those before. A batch on an overlay cannot fail.

`Store.contents` is the view that all this comes down to: the contents of the device with the
writes of the overlays made on them, lowest first.
-/

namespace Gazette

/-! ## Devices -/

/-- One access to a device. A scan is known by the key that it starts from. -/
inductive Access where
  | get (key : Bytes)
  | set (key : Bytes)
  | delete (key : Bytes)
  | scan (start : Bytes)
  deriving DecidableEq, Repr

/-- Contents behind a rule of refusal. -/
structure Device where
  contents : Contents
  refusal : Access → Option StoreError := fun _ => none

namespace Device

/-- The value under a key. -/
def get (device : Device) (key : Bytes) : Except StoreError (Option Bytes) :=
  match device.refusal (.get key) with
  | some error => .error error
  | none => .ok (device.contents.get? key)

/-- Up to `limit` entries of a range, in order. -/
def scan (device : Device) (start : Bytes) (upper : Option Bytes) (limit : Nat) :
    Except StoreError (List Entry) :=
  match device.refusal (.scan start) with
  | some error => .error error
  | none => .ok ((device.contents.range start upper).take limit)

/-- The access that a write makes. -/
def accessOf : Operation → Access
  | .set key _ => .set key
  | .delete key => .delete key

/-- Make the writes of a batch in order, up to the first that is refused. -/
def apply (device : Device) : List Operation → Except StoreError Unit × Device
  | [] => (.ok (), device)
  | write :: rest =>
    match device.refusal (accessOf write) with
    | some error => (.error error, device)
    | none => apply { device with contents := device.contents.write write } rest

end Device

/-! ## Overlays -/

/-- Pending writes: for each key that was touched, the value it is set to, or none if it is
deleted. -/
abbrev WriteSet := KeyMap (Option Bytes)

namespace WriteSet

/-- The pending writes after one more. -/
def record (writes : WriteSet) : Operation → WriteSet
  | .set key value => writes.insert key (some value)
  | .delete key => writes.insert key none

/-- The write that a pending entry stands for. -/
def operationOf : Bytes × Option Bytes → Operation
  | (key, some value) => .set key value
  | (key, none) => .delete key

/-- The pending writes as a batch, in ascending order of their keys. -/
def operations (writes : WriteSet) : List Operation := writes.entries.map operationOf

/-- Lay pending entries over a list of entries. -/
def overlay (page : List Entry) (pending : List (Bytes × Option Bytes)) : List Entry :=
  pending.foldl (fun page entry =>
    match entry.2 with
    | some value => insertEntry entry.1 value page
    | none => eraseEntry entry.1 page) page

end WriteSet

/-- A device, or an overlay on a store. -/
inductive Store where
  | base (device : Device)
  | staged (below : Store) (writes : WriteSet)

namespace Store

/-- A store that keeps its contents in memory and refuses nothing. -/
def memory (contents : Contents := .empty) : Store := .base { contents }

/-- A new overlay without writes. -/
def stage (store : Store) : Store := .staged store .empty

/-- What the store holds, as a reader sees it. -/
def contents : Store → Contents
  | .base device => device.contents
  | .staged below writes => below.contents.apply writes.operations

/-! ## Reading -/

/-- The value under a key. -/
def get : Store → Bytes → Except StoreError (Option Bytes)
  | .base device, key => device.get key
  | .staged below writes, key =>
    match writes.get? key with
    | some pending => .ok pending
    | none => below.get key

/-- Whether there is a value under a key. -/
def has (store : Store) (key : Bytes) : Except StoreError Bool :=
  Option.isSome <$> store.get key

/-- Up to `limit` entries with keys from `start` up to but not including `upper`, in ascending
order.

A pending deletion hides at most one entry of the store below, so `limit` entries more than
there are pending ones in the range are enough from there. -/
def scan : Store → (start : Bytes) → (upper : Option Bytes) → (limit : Nat) →
    Except StoreError (List Entry)
  | .base device, start, upper, limit => device.scan start upper limit
  | .staged below writes, start, upper, limit =>
    if upper.any (· ≤ start) then .ok []
    else
      let pending := writes.range start upper
      match below.scan start upper (limit + pending.length) with
      | .error error => .error error
      | .ok page => .ok ((WriteSet.overlay page pending).take limit)

/-! ## Writing -/

/-- Make the writes of a batch. On failure the store holds what was written before it. -/
def apply : Store → List Operation → Except StoreError Unit × Store
  | .base device, batch =>
    let (outcome, device) := device.apply batch
    (outcome, .base device)
  | .staged below writes, batch => (.ok (), .staged below (batch.foldl WriteSet.record writes))

/-- The pending writes of the overlay on top. -/
def pending : Store → WriteSet
  | .base _ => .empty
  | .staged _ writes => writes

/-- Close the overlay on top and make its writes on the store below, as one batch. An overlay
without writes leaves the store below untouched. -/
def commit : Store → Except StoreError Unit × Store
  | .base device => (.ok (), .base device)
  | .staged below writes =>
    if writes.isEmpty then (.ok (), below) else below.apply writes.operations

/-- Close the overlay on top and forget its writes. -/
def rollback : Store → Store
  | .base device => .base device
  | .staged below _ => below

/-- The device at the bottom. -/
def device : Store → Device
  | .base device => device
  | .staged below _ => below.device

end Store

end Gazette
