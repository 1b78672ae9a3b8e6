set_option autoImplicit false

/-! # Values of a TOML document

A document is a table: a list of keys with their values. How a table came about decides what may
still be added to it, so it is kept with the table:

* a table written with braces is complete;
* a table opened by a header takes keys in its own section;
* a table that a dotted key has made takes more dotted keys;
* a table that a longer header implies may still be opened by its own header.
-/

namespace Gazette.Toml

/-- How a table came about. -/
inductive Origin where
  /-- Written with braces. -/
  | braces
  /-- Opened by a header. -/
  | header
  /-- Made by a dotted key. -/
  | dotted
  /-- Implied by a longer header. -/
  | implied
  deriving DecidableEq, Repr

/-- A value. Numbers with a fraction and dates keep the text they were written as. -/
inductive Item where
  | string (s : String)
  | integer (n : Int)
  | float (literal : String)
  | boolean (b : Bool)
  | dateTime (literal : String)
  | array (items : List Item)
  | table (origin : Origin) (fields : List (String × Item))
  /-- The rows of an array of tables; there is at least one. -/
  | tables (rows : List (List (String × Item)))

/-- The keys of a table with their values. -/
abbrev Fields := List (String × Item)

/-- The fields with `item` under `key`, in its old place if there was one. -/
def Fields.set (key : String) (item : Item) : Fields → Fields
  | [] => [(key, item)]
  | field :: rest =>
    if field.1 = key then (key, item) :: rest else field :: Fields.set key item rest

end Gazette.Toml
