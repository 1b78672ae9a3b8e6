import Gazette.Blog.Error

set_option autoImplicit false

/-! # The context of a request -/

namespace Gazette

/-- What is known about a request besides its message. -/
structure Context where
  /-- The time of the block. Every deadline is compared with it. -/
  blockTime : UnixTime
  /-- Those who signed the request, the main signer first. -/
  signers : List Address
  deriving DecidableEq, Repr

namespace Context

/-- A context that nobody signed, as scheduled tasks run in. -/
def unsigned (blockTime : UnixTime) : Context := ⟨blockTime, []⟩

/-- The signer who answers for the request. -/
def mainSigner (ctx : Context) : Except BlogError Address :=
  match ctx.signers with
  | signer :: _ => .ok signer
  | [] => .error .missingSigner

/-- Whether an address is among the signers. -/
def isSigner (ctx : Context) (a : Address) : Bool := ctx.signers.contains a

/-- Whether a time is at or before that of the block. -/
def inThePast (ctx : Context) (t : UnixTime) : Bool := t ≤ ctx.blockTime

/-- The main signer, who must be `owner` to do this. -/
def requireOwner (ctx : Context) (owner : Address) (action : Action) :
    Except BlogError Address := do
  let signer ← ctx.mainSigner
  if owner = signer then .ok signer else .error (.unauthorized signer action)

/-- A deletion must be scheduled for after the block. -/
def requireAhead (ctx : Context) (deleteAt : UnixTime) : Except BlogError Unit :=
  if ctx.inThePast deleteAt then
    .error (.invalidState (.deletionNotAhead deleteAt ctx.blockTime))
  else .ok ()

end Context

end Gazette
