import Gazette.Toml.Document
import Gazette.Toml.Scalar
import Gazette.Toml.Text

set_option autoImplicit false

/-! # Reading TOML

Each reader takes characters and gives what it has read together with the rest, or nothing if
the characters do not begin with what it looks for. Loops are bounded by the number of
characters, of which every round takes at least one. Arrays and tables between braces nest to a
fixed depth.
-/

namespace Gazette.Toml

/-- Reads something from the front of a text. -/
abbrev Reader (α : Type) := List Char → Option (α × List Char)

/-- How deep arrays and tables may nest, and how many parts a key may have. -/
def depthLimit : Nat := 79

/-- The items of an array, from behind its opening bracket up to and including the closing one.
A comma may follow the last item. -/
def arrayItems (item : Reader Item) : (bound : Nat) → Reader (List Item)
  | 0, _ => none
  | bound + 1, cs => do
    match ← skipLines false cs with
    | ']' :: rest => some ([], rest)
    | cs => do
      let (first, rest) ← item cs
      match ← skipLines false rest with
      | ',' :: rest => do
        let (others, rest) ← arrayItems item bound rest
        some (first :: others, rest)
      | ']' :: rest => some ([first], rest)
      | _ => none

/-- An assignment of a value to a dotted key. -/
def assignment (item : Reader Item) : Reader ((List String × String) × Item) := fun cs => do
  let (key, rest) ← dottedKey? depthLimit cs
  match rest with
  | '=' :: rest => do
    let (value, rest) ← item (skipBlank rest)
    some ((key, value), rest)
  | _ => none

/-- One or more assignments between braces, up to and including the closing brace. -/
def assignments (item : Reader Item) :
    (bound : Nat) → Reader (List ((List String × String) × Item))
  | 0, _ => none
  | bound + 1, cs => do
    let (first, rest) ← assignment item cs
    match skipBlank rest with
    | ',' :: rest => do
      let (others, rest) ← assignments item bound rest
      some (first :: others, rest)
    | '}' :: rest => some ([first], rest)
    | _ => none

/-- The assignments of a table between braces, from behind the opening one. -/
def braceFields (item : Reader Item) : Reader (List ((List String × String) × Item)) := fun cs =>
  match skipBlank cs with
  | '}' :: rest => some ([], rest)
  | cs => assignments item (cs.length + 1) cs

/-- A value other than an array or a table. -/
def simpleValue : Reader Item := fun cs =>
  match cs with
  | '"' :: _ | '\'' :: _ => do
    let (text, rest) ← string? cs
    some (.string (String.ofList text), rest)
  | _ => Scalar.read cs

/-- A value in which arrays and tables nest at most `depth` deep. -/
def value : (depth : Nat) → Reader Item
  | depth + 1, '[' :: rest => do
    let (items, rest) ← arrayItems (value depth) (rest.length + 1) rest
    some (.array items, rest)
  | depth + 1, '{' :: rest => do
    let (fields, rest) ← braceFields (value depth) rest
    some (← ofAssignments fields, rest)
  | _, cs => simpleValue cs

/-- A header, from behind its first bracket. -/
def header : Reader Statement
  | '[' :: cs => do
    let ((path, key), rest) ← dottedKey? depthLimit cs
    match rest with
    | ']' :: ']' :: rest => some (.openRow path key, rest)
    | _ => none
  | cs => do
    let ((path, key), rest) ← dottedKey? depthLimit cs
    match rest with
    | ']' :: rest => some (.openTable path key, rest)
    | _ => none

/-- A statement, from its first character. -/
def statement : Reader Statement
  | '[' :: cs => header cs
  | cs => do
    let (((path, key), value), rest) ← assignment (value depthLimit) cs
    some (.set path key value, rest)

/-- The statements of a text, each of which ends its line. -/
def statements : (bound : Nat) → List Char → Option (List Statement)
  | 0, _ => none
  | bound + 1, cs => do
    match ← skipLines false cs with
    | [] => some []
    | cs => do
      let (first, rest) ← statement cs
      let rest ← afterLine? rest
      (first :: ·) <$> statements bound rest

/-- The characters of a text without the mark that may stand in front. -/
def withoutMark : List Char → List Char
  | '\ufeff' :: cs => cs
  | cs => cs

/-- The fields of the document that a text writes. -/
def read (s : String) : Option Fields := do
  let cs := withoutMark s.toList
  ofStatements (← statements (cs.length + 1) cs)

end Gazette.Toml
