import Gazette.Toml.Item

set_option autoImplicit false

/-! # Numbers, dates and truth values

These values are written without spaces, but for the one that may stand between a date and a
time, so each is read from the whole run of characters that can occur in one. Numbers are read from
runs of digits in one of four bases. Between two digits of a run a single underscore may stand.
-/

namespace Gazette.Toml

/-! ## Digits -/

/-- A digit in base sixteen, in either case. -/
def isHexDigit (c : Char) : Bool := c.isDigit || ('a' ≤ c && c ≤ 'f') || ('A' ≤ c && c ≤ 'F')

/-- A digit in base eight. -/
def isOctalDigit (c : Char) : Bool := '0' ≤ c && c ≤ '7'

/-- A digit in base two. -/
def isBinaryDigit (c : Char) : Bool := c = '0' || c = '1'

/-- Digits, between which single underscores may stand; the digits alone. -/
def ungroup (isDigit : Char → Bool) : List Char → Option (List Char)
  | [] => none
  | [c] => if isDigit c then some [c] else none
  | c :: '_' :: rest => if isDigit c then (c :: ·) <$> ungroup isDigit rest else none
  | c :: rest => if isDigit c then (c :: ·) <$> ungroup isDigit rest else none

/-- The value of a digit in any base up to sixteen. -/
def digitValue (c : Char) : Nat :=
  if c.isDigit then c.toNat - '0'.toNat
  else if 'a' ≤ c ∧ c ≤ 'f' then c.toNat - 'a'.toNat + 10
  else c.toNat - 'A'.toNat + 10

/-- The number that digits stand for. -/
def valueOf (base : Nat) (digits : List Char) : Nat :=
  digits.foldl (fun n c => base * n + digitValue c) 0

namespace Scalar

/-- A character that can occur in a number, a date or a word. -/
def isTokenChar (c : Char) : Bool := c.isAlphanum || "_+-.:".contains c

/-! ## Integers -/

/-- Decimal digits that do not start with a superfluous zero. -/
def decimal? (cs : List Char) : Option (List Char) := do
  let digits ← ungroup Char.isDigit cs
  if digits.head? = some '0' ∧ 1 < digits.length then none else some digits

/-- A sign, if there is one, and the rest; `true` is minus. -/
def splitSign : List Char → Bool × List Char
  | '-' :: rest => (true, rest)
  | '+' :: rest => (false, rest)
  | cs => (false, cs)

/-- A number that a signed 64-bit word holds. -/
def fitting? (n : Int) : Option Int :=
  if Int64.minValue.toInt ≤ n ∧ n ≤ Int64.maxValue.toInt then some n else none

/-- Digits in a base other than ten. -/
def inBase? (base : Nat) (isDigit : Char → Bool) (cs : List Char) : Option Int := do
  fitting? (valueOf base (← ungroup isDigit cs))

/-- An integer, in decimal with an optional sign or in another base without one. -/
def integer? : List Char → Option Int
  | '0' :: 'x' :: cs => inBase? 16 isHexDigit cs
  | '0' :: 'o' :: cs => inBase? 8 isOctalDigit cs
  | '0' :: 'b' :: cs => inBase? 2 isBinaryDigit cs
  | cs => do
    let (negative, body) := splitSign cs
    let n : Int := valueOf 10 (← decimal? body)
    fitting? (if negative then -n else n)

/-! ## Numbers with a fraction or an exponent -/

/-- The letter before an exponent. -/
def isExponentMark (c : Char) : Bool := c = 'e' || c = 'E'

/-- The exponent after a number; none is zero. -/
def exponent? : List Char → Option Int
  | [] => some 0
  | mark :: cs =>
    if isExponentMark mark then do
      let (negative, body) := splitSign cs
      let n : Int := valueOf 10 (← ungroup Char.isDigit body)
      some (if negative then -n else n)
    else none

/-- Half a step above the greatest finite double: from here on a number rounds to infinity. -/
def overflowBound : Nat := ((1 <<< 54) - 1) <<< 970

/-- Whether `mantissa` times ten to the `exponent` rounds to a finite double. -/
def isFinite (mantissa : Nat) (exponent : Int) : Bool :=
  let places : Int := (Nat.toDigits 10 mantissa).length + exponent
  if mantissa = 0 || places < 300 then true
  else if 320 < places then false
  else if 0 ≤ exponent then mantissa * Nat.pow 10 exponent.toNat < overflowBound
  else mantissa < overflowBound * Nat.pow 10 (-exponent).toNat

/-- Whether the characters are a number with a fraction or an exponent, or infinity, or no
number. A positive number must not be too large for a double. -/
def isFloat (cs : List Char) : Bool :=
  let (negative, body) := splitSign cs
  if body = "inf".toList || body = "nan".toList then true
  else
    let whole := body.takeWhile fun c => c ≠ '.' && !isExponentMark c
    let parts : Option (List Char × Int) := do
      let wholeDigits ← decimal? whole
      match body.drop whole.length with
      | [] => none
      | '.' :: rest =>
        let fraction := rest.takeWhile fun c => !isExponentMark c
        let fractionDigits ← ungroup Char.isDigit fraction
        let exponent ← exponent? (rest.drop fraction.length)
        some (wholeDigits ++ fractionDigits, exponent - fractionDigits.length)
      | rest => do some (wholeDigits, ← exponent? rest)
    match parts with
    | none => false
    | some (digits, exponent) => negative || isFinite (valueOf 10 digits) exponent

/-! ## Dates and times -/

/-- Two digits that make a number from `least` to `most`. -/
def isPair (least most : Nat) (a b : Char) : Bool :=
  a.isDigit && b.isDigit && least ≤ valueOf 10 [a, b] && valueOf 10 [a, b] ≤ most

/-- A year that has a 29th of February. -/
def isLeapYear (year : Nat) : Bool := year % 4 = 0 && (year % 100 ≠ 0 || year % 400 = 0)

/-- The number of days in a month. -/
def daysIn (year month : Nat) : Nat :=
  if month = 2 then if isLeapYear year then 29 else 28
  else if month = 4 || month = 6 || month = 9 || month = 11 then 30
  else 31

/-- What follows a date. -/
def afterDate? : List Char → Option (List Char)
  | y₁ :: y₂ :: y₃ :: y₄ :: '-' :: m₁ :: m₂ :: '-' :: d₁ :: d₂ :: rest =>
    let year := valueOf 10 [y₁, y₂, y₃, y₄]
    let month := valueOf 10 [m₁, m₂]
    if [y₁, y₂, y₃, y₄].all Char.isDigit && isPair 1 12 m₁ m₂
        && isPair 1 (daysIn year month) d₁ d₂ then some rest
    else none
  | _ => none

/-- What follows a time of day. -/
def afterTime? : List Char → Option (List Char)
  | h₁ :: h₂ :: ':' :: m₁ :: m₂ :: ':' :: s₁ :: s₂ :: rest =>
    if isPair 0 23 h₁ h₂ && isPair 0 59 m₁ m₂ && isPair 0 60 s₁ s₂ then
      match rest with
      | '.' :: c :: fraction => if c.isDigit then some (fraction.dropWhile Char.isDigit) else none
      | _ => some rest
    else none
  | _ => none

/-- Nothing, or the difference from universal time. -/
def isOffset : List Char → Bool
  | [] => true
  | ['Z'] | ['z'] => true
  | [sign, h₁, h₂, ':', m₁, m₂] =>
    (sign = '+' || sign = '-') && isPair 0 23 h₁ h₂ && isPair 0 59 m₁ m₂
  | _ => false

/-- A time of day, perhaps with an offset. -/
def isTimeWithOffset (cs : List Char) : Bool := (afterTime? cs).any isOffset

/-- A date, a time of day, or a date with a time and perhaps an offset. -/
def isDateTime (cs : List Char) : Bool :=
  match afterDate? cs with
  | some [] => true
  | some (mark :: rest) => (mark = 'T' || mark = 't' || mark = ' ') && isTimeWithOffset rest
  | none => afterTime? cs = some []

/-! ## All together -/

/-- The value that a run of characters writes. -/
def ofToken? (cs : List Char) : Option Item :=
  if cs = "true".toList then some (.boolean true)
  else if cs = "false".toList then some (.boolean false)
  else if isDateTime cs then some (.dateTime (String.ofList cs))
  else
    match integer? cs with
    | some n => some (.integer n)
    | none => if isFloat cs then some (.float (String.ofList cs)) else none

/-- A date that a space and a digit follow goes on with a time. -/
def splitToken (cs : List Char) : List Char × List Char :=
  let token := cs.takeWhile isTokenChar
  let rest := cs.drop token.length
  match rest with
  | ' ' :: c :: more =>
    if afterDate? token = some [] && c.isDigit then
      let time := (c :: more).takeWhile isTokenChar
      (token ++ ' ' :: time, (c :: more).drop time.length)
    else (token, rest)
  | _ => (token, rest)

/-- Read a number, a date or a truth value. -/
def read (cs : List Char) : Option (Item × List Char) := do
  let (token, rest) := splitToken cs
  some (← ofToken? token, rest)

end Scalar

end Gazette.Toml
