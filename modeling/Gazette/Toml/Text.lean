import Gazette.Toml.Scalar

set_option autoImplicit false

/-! # Strings, keys and blank space

Four forms of strings: with double marks, where a backslash escapes, or single marks, where
nothing does; each on one line, or over several lines between triple marks. A key is a bare word
or a string on one line; keys can be joined by dots.
-/

namespace Gazette.Toml

/-! ## Characters -/

/-- A space or a tab. -/
def isBlank (c : Char) : Bool := c = ' ' || c = '\t'

/-- A character that may stand in strings and comments: a tab, or no control character. -/
def isVisible (c : Char) : Bool := c = '\t' || (' ' ≤ c && c ≠ '\x7f')

/-! ## Blank space and comments -/

/-- Skip spaces and tabs. -/
def skipBlank (cs : List Char) : List Char := cs.dropWhile isBlank

/-- What follows the end of a line, which is a line break or the end of the text. -/
def afterBreak? : List Char → Option (List Char)
  | [] => some []
  | '\n' :: rest => some rest
  | '\r' :: '\n' :: rest => some rest
  | _ => none

/-- What follows a line that holds nothing more than blank space and a comment. -/
def afterLine? (cs : List Char) : Option (List Char) :=
  match skipBlank cs with
  | '#' :: rest => afterBreak? (rest.dropWhile isVisible)
  | rest => afterBreak? rest

/-- Skip blank space, line breaks and comments; `inComment` says where to begin. -/
def skipLines (inComment : Bool) : List Char → Option (List Char)
  | [] => some []
  | '\n' :: rest => skipLines false rest
  | '\r' :: '\n' :: rest => skipLines false rest
  | c :: rest =>
    if inComment then if isVisible c then skipLines true rest else none
    else if isBlank c then skipLines false rest
    else if c = '#' then skipLines true rest
    else some (c :: rest)

/-! ## Strings -/

/-- The character that a simple escape stands for. -/
def simpleEscape? (c : Char) : Option Char :=
  if c = 'b' then some '\x08'
  else if c = 't' then some '\t'
  else if c = 'n' then some '\n'
  else if c = 'f' then some '\x0c'
  else if c = 'r' then some '\r'
  else if c = '"' ∨ c = '\\' then some c
  else none

/-- The character with this number in hexadecimal, if there is one. -/
def charOfHex? (digits : List Char) : Option Char :=
  let n := valueOf 16 digits
  if digits.all isHexDigit && n.isValidChar then some (Char.ofNat n) else none

/-- Where a reader stands in a string with double marks. -/
inductive StringMode where
  | plain
  /-- After a backslash that should end the line: only blank space may come before the break. -/
  | lineEnd
  /-- After such a break: blank space and line breaks are left out. -/
  | trimming
  deriving DecidableEq

/-- Put a character before the text that is read. -/
def consText (c : Char) : Option (List Char × List Char) → Option (List Char × List Char)
  | some (text, rest) => some (c :: text, rest)
  | none => none

/-- The text of a string with double marks on one line, from behind the first mark. -/
def basicBody : List Char → Option (List Char × List Char)
  | [] => none
  | '"' :: rest => some ([], rest)
  | '\\' :: 'u' :: a :: b :: c :: d :: rest => do
    consText (← charOfHex? [a, b, c, d]) (basicBody rest)
  | '\\' :: 'U' :: a :: b :: c :: d :: e :: f :: g :: h :: rest => do
    consText (← charOfHex? [a, b, c, d, e, f, g, h]) (basicBody rest)
  | '\\' :: c :: rest => do consText (← simpleEscape? c) (basicBody rest)
  | c :: rest => if isVisible c then consText c (basicBody rest) else none

/-- The text of a string between triple double marks, from behind the first three. Up to two
marks may stand in it, also right before the last three. -/
def multilineBody : StringMode → List Char → Option (List Char × List Char)
  | _, [] => none
  | .lineEnd, '\n' :: rest => multilineBody .trimming rest
  | .lineEnd, '\r' :: '\n' :: rest => multilineBody .trimming rest
  | .lineEnd, c :: rest => if isBlank c then multilineBody .lineEnd rest else none
  | .trimming, '\n' :: rest => multilineBody .trimming rest
  | .trimming, '\r' :: '\n' :: rest => multilineBody .trimming rest
  | .trimming, ' ' :: rest => multilineBody .trimming rest
  | .trimming, '\t' :: rest => multilineBody .trimming rest
  | _, '"' :: '"' :: '"' :: '"' :: '"' :: rest => some (['"', '"'], rest)
  | _, '"' :: '"' :: '"' :: '"' :: rest => some (['"'], rest)
  | _, '"' :: '"' :: '"' :: rest => some ([], rest)
  | _, '\\' :: 'u' :: a :: b :: c :: d :: rest => do
    consText (← charOfHex? [a, b, c, d]) (multilineBody .plain rest)
  | _, '\\' :: 'U' :: a :: b :: c :: d :: e :: f :: g :: h :: rest => do
    consText (← charOfHex? [a, b, c, d, e, f, g, h]) (multilineBody .plain rest)
  | _, '\\' :: c :: rest =>
    match simpleEscape? c with
    | some escaped => consText escaped (multilineBody .plain rest)
    | none =>
      if isBlank c then multilineBody .lineEnd rest
      else if c = '\n' then multilineBody .trimming rest
      else if c = '\r' then
        match rest with
        | '\n' :: rest => multilineBody .trimming rest
        | _ => none
      else none
  | _, '\n' :: rest => consText '\n' (multilineBody .plain rest)
  | _, '\r' :: '\n' :: rest => consText '\n' (multilineBody .plain rest)
  | _, c :: rest => if isVisible c then consText c (multilineBody .plain rest) else none

/-- The text of a string with single marks on one line, from behind the first mark. -/
def literalBody : List Char → Option (List Char × List Char)
  | [] => none
  | '\'' :: rest => some ([], rest)
  | c :: rest => if isVisible c then consText c (literalBody rest) else none

/-- The text of a string between triple single marks, from behind the first three. -/
def multilineLiteralBody : List Char → Option (List Char × List Char)
  | [] => none
  | '\'' :: '\'' :: '\'' :: '\'' :: '\'' :: rest => some (['\'', '\''], rest)
  | '\'' :: '\'' :: '\'' :: '\'' :: rest => some (['\''], rest)
  | '\'' :: '\'' :: '\'' :: rest => some ([], rest)
  | '\n' :: rest => consText '\n' (multilineLiteralBody rest)
  | '\r' :: '\n' :: rest => consText '\n' (multilineLiteralBody rest)
  | c :: rest => if isVisible c then consText c (multilineLiteralBody rest) else none

/-- A line break right behind the first marks does not belong to a string over several lines. -/
def skipFirstBreak : List Char → List Char
  | '\n' :: rest => rest
  | '\r' :: '\n' :: rest => rest
  | cs => cs

/-- A string on one line. -/
def lineString? : List Char → Option (List Char × List Char)
  | '"' :: rest => basicBody rest
  | '\'' :: rest => literalBody rest
  | _ => none

/-- A string of any form. -/
def string? : List Char → Option (List Char × List Char)
  | '"' :: '"' :: '"' :: rest => multilineBody .plain (skipFirstBreak rest)
  | '\'' :: '\'' :: '\'' :: rest => multilineLiteralBody (skipFirstBreak rest)
  | cs => lineString? cs

/-! ## Keys -/

/-- A character of a bare key. -/
def isBareChar (c : Char) : Bool := c.isAlphanum || c = '_' || c = '-'

/-- One part of a key. -/
def keyPart? (cs : List Char) : Option (String × List Char) :=
  match cs with
  | '"' :: _ | '\'' :: _ => do
    let (text, rest) ← lineString? cs
    some (String.ofList text, rest)
  | _ =>
    let bare := cs.takeWhile isBareChar
    if bare.isEmpty then none else some (String.ofList bare, cs.drop bare.length)

/-- At most `limit` parts of a key, joined by dots, with blank space around them: all parts but
the last, and the last. -/
def dottedKey? : (limit : Nat) → List Char → Option ((List String × String) × List Char)
  | 0, _ => none
  | limit + 1, cs => do
    let (part, rest) ← keyPart? (skipBlank cs)
    match skipBlank rest with
    | '.' :: rest => do
      let ((path, last), rest) ← dottedKey? limit rest
      some ((part :: path, last), rest)
    | rest => some (([], part), rest)

end Gazette.Toml
