import Gazette.Validation

set_option autoImplicit false

/-! # Field rules of the blog

Which characters a name, a title or a text may hold, how long each may be, and when a reference
or an owner counts as given. Records and messages share these rules.
-/

namespace Gazette.Field

/-! ## Characters -/

/-- Letters, digits, `_`, `.` and `-`. -/
def isUsernameChar (c : Char) : Bool := c.isAlphanum || "_.-".contains c

/-- Letters, digits, `_` and the space. -/
def isPlainChar (c : Char) : Bool := c.isAlphanum || "_ ".contains c

/-- Letters, digits, some punctuation, and everything from `;` to `_`. -/
def isTitleChar (c : Char) : Bool :=
  c.isAlphanum || "$@!%*?&#'^. +".contains c || (';' ≤ c && c ≤ '_')

/-! ## Texts -/

/-- A name has 4 to 16 characters. -/
def username (s : String) : Except FieldFault Unit := Check.text 4 16 isUsernameChar s

/-- A biography may be left out. -/
def bio (s : String) : Except FieldFault Unit :=
  if s.isEmpty then .ok () else Check.text 4 200 isPlainChar s

/-- A title has 4 to 32 characters. -/
def title (s : String) : Except FieldFault Unit := Check.text 4 32 isTitleChar s

/-- Descriptions of blogs and contents of articles. -/
def longText (s : String) : Except FieldFault Unit := Check.text 4 1000 isTitleChar s

/-- A comment has 4 to 1000 characters. -/
def comment (s : String) : Except FieldFault Unit := Check.text 4 1000 isPlainChar s

/-! ## References and times -/

/-- The zero address owns nothing. -/
def owner (a : Address) : Except FieldFault Unit := if a.isZero then .error .empty else .ok ()

/-- Counters start at one, so zero refers to nothing. -/
def reference (id : RecordId) : Except FieldFault Unit :=
  if id.sequence = 0 then .error .empty else .ok ()

/-- A deadline may be left out. -/
def deadline : Option UnixTime → Except FieldFault Unit
  | none => .ok ()
  | some t => Check.time t

end Gazette.Field
