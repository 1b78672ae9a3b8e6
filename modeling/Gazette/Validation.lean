import Gazette.Identifier
import Gazette.Text.Quoted
import Gazette.UnixTime

set_option autoImplicit false

/-! # Field validation

A record or message is checked field by field. All checks are made, and every field that fails
is reported with its reason, in the order of the checks.
-/

namespace Gazette

/-- Why a field is refused. -/
inductive FieldFault where
  /-- A required value is missing. -/
  | empty
  /-- The value is malformed in itself. -/
  | input (reason : String)
  /-- The value is well formed but breaks a rule of its field. -/
  | model (reason : String)
  deriving DecidableEq, Repr

/-- The text of the fault. -/
def FieldFault.message : FieldFault → String
  | .empty => "empty"
  | .input reason => "invalid input: " ++ reason
  | .model reason => "invalid model: " ++ reason

/-- A refused field. -/
structure FieldError where
  field : String
  fault : FieldFault
  deriving DecidableEq, Repr

/-- The refused fields of one record or message, in the order in which they were found. -/
structure ValidationErrors where
  fields : List FieldError := []
  deriving DecidableEq, Repr

namespace ValidationErrors

/-- The errors with `fault` added for `field`. -/
def add (errors : ValidationErrors) (field : String) (fault : FieldFault) : ValidationErrors :=
  ⟨errors.fields ++ [⟨field, fault⟩]⟩

/-- The errors with the outcome of one check of `field` added. -/
def check (errors : ValidationErrors) (field : String) :
    Except FieldFault Unit → ValidationErrors
  | .ok () => errors
  | .error fault => errors.add field fault

/-- The first fault recorded for a field. -/
def fault? (errors : ValidationErrors) (field : String) : Option FieldFault :=
  (errors.fields.find? (·.field = field)).map (·.fault)

/-- Whether no field is refused. -/
def isEmpty (errors : ValidationErrors) : Bool := errors.fields.isEmpty

/-- The text that lists the refused fields in order. -/
def message (errors : ValidationErrors) : String :=
  let shown := errors.fields.map fun e => e.field ++ " (" ++ e.fault.message ++ ")"
  if shown.isEmpty then "validation failed"
  else "validation failed: " ++ String.intercalate "; " shown

/-- Success if nothing was recorded. -/
def result (errors : ValidationErrors) : Except ValidationErrors Unit :=
  if errors.isEmpty then .ok () else .error errors

/-- Make the given checks, each of a named field, and report every one that failed. -/
def ofChecks (checks : List (String × Except FieldFault Unit)) : ValidationErrors :=
  checks.foldl (fun errors (field, outcome) => errors.check field outcome) ⟨[]⟩

end ValidationErrors

/-! ## Checks of single fields -/

namespace Check

/-- A key must have been assigned. -/
def assigned : Option RecordId → Except FieldFault Unit
  | some _ => .ok ()
  | none => .error .empty

/-- A time must lie after the epoch. -/
def time (t : UnixTime) : Except FieldFault Unit :=
  if t.isNegative then .error (.input t.negativeReason)
  else if t.isZero then .error .empty
  else .ok ()

/-- A text must have between `least` and `most` characters, all of them `allowed`. The first
character that is not is reported. -/
def text (least most : Nat) (allowed : Char → Bool) (s : String) : Except FieldFault Unit :=
  if s.length < least ∨ most < s.length then
    .error (.model s!"length {s.length} outside {least}..={most}")
  else
    match s.toList.find? (fun c => !allowed c) with
    | some c => .error (.model ("forbidden character " ++ Text.quotedChar c))
    | none => .ok ()

end Check

end Gazette
