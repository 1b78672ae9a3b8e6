import Gazette.Store.Basic

set_option autoImplicit false

/-! # Injected faults

A rule of refusal for devices that names the kind of access and the start of the key, used to
exercise what is built on a store when the device below fails.
-/

namespace Gazette

/-- The kinds of access to a device. -/
inductive AccessKind where
  | get
  | set
  | delete
  | scan
  deriving DecidableEq, Repr

/-- The name of a kind. -/
def AccessKind.text : AccessKind → String
  | .get => "get"
  | .set => "set"
  | .delete => "delete"
  | .scan => "scan"

namespace Access

/-- The kind of an access. -/
def kind : Access → AccessKind
  | .get _ => .get
  | .set _ => .set
  | .delete _ => .delete
  | .scan _ => .scan

/-- The key that an access names; for a scan, the one it starts from. -/
def key : Access → Bytes
  | .get key | .set key | .delete key | .scan key => key

end Access

/-- Accesses of one kind to keys that start with `start` fail. -/
structure Fault where
  on : AccessKind
  start : Bytes
  deriving DecidableEq, Repr

namespace Fault

/-- Whether a fault makes an access fail. -/
def hits (fault : Fault) (access : Access) : Bool :=
  fault.on = access.kind && fault.start.isPrefixOf access.key

/-- The rule of a device with these faults. -/
def refusal (faults : List Fault) (access : Access) : Option StoreError :=
  if faults.any (·.hits access) then some (.backend (access.kind.text ++ " refused")) else none

end Fault

/-- The store with other faults in its device. -/
def Store.withFaults (faults : List Fault) : Store → Store
  | .base device => .base { device with refusal := Fault.refusal faults }
  | .staged below writes => .staged (below.withFaults faults) writes

end Gazette
