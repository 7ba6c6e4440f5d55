import SchemaSampler.Binary64.Decimal
import SchemaSampler.Json.Basic
import SchemaSampler.Text.Digits

/-!
# Reading JSON text

`read?` accepts exactly one JSON value between blanks. The reader is strict: no comments, no
trailing commas, no raw control characters, no lone surrogates, no number out of range, and
fewer than 128 containers inside each other. Of members with equal names the last one counts.
-/

namespace SchemaSampler

namespace Json

/-- The characters still to be read. -/
abbrev Rest := List Char

def isBlank (c : Char) : Bool := c == ' ' || c == '\n' || c == '\t' || c == '\r'

def skipBlanks (rest : Rest) : Rest := rest.dropWhile isBlank

/-- The rest after a fixed text. -/
def skipText? : List Char → Rest → Option Rest
  | [], rest => some rest
  | c :: text, d :: rest => if c == d then skipText? text rest else none
  | _ :: _, [] => none

/-! ## Numbers -/

/-- The exponent part, zero when absent. -/
def readExponent? : Rest → Option (Option Int × Rest)
  | 'e' :: rest | 'E' :: rest =>
    let (negative, rest) := match rest with
      | '-' :: rest => (true, rest)
      | '+' :: rest => (false, rest)
      | rest => (false, rest)
    let digits := rest.takeWhile Char.isDigit
    let power : Int := Digits.number 0 digits
    if digits.isEmpty then none
    else some (some (if negative then -power else power), rest.dropWhile Char.isDigit)
  | rest => some (none, rest)

/-- The digits after the point, nothing when there is no point. -/
def readFraction? : Rest → Option (Option (List Char) × Rest)
  | '.' :: rest =>
    let digits := rest.takeWhile Char.isDigit
    if digits.isEmpty then none else some (some digits, rest.dropWhile Char.isDigit)
  | rest => some (none, rest)

/-- A float that has to be finite. -/
def finite? (x : Binary64) : Option Json := if x.isFinite then some (float x) else none

/-- The value of a number token: an integer when it has neither fraction nor exponent and fits. -/
def numberValue? (negative : Bool) (whole : List Char) (fraction : Option (List Char))
    (exponent : Option Int) : Option Json :=
  let magnitude := Digits.number 0 whole
  match fraction, exponent with
  | none, none =>
    let value : Int := if negative then -(magnitude : Int) else magnitude
    if (negative && magnitude == 0) || value < intMin || intMax < value then
      finite? (Binary64.ofDecimal negative magnitude 0)
    else some (int value)
  | fraction, exponent =>
    let places := fraction.getD []
    finite? (Binary64.ofDecimal negative (Digits.number magnitude places)
      (exponent.getD 0 - places.length))

/-- A number without leading zeros. -/
def readNumber? (input : Rest) : Option (Json × Rest) := do
  let (negative, rest) := match input with
    | '-' :: rest => (true, rest)
    | rest => (false, rest)
  let whole := rest.takeWhile Char.isDigit
  if whole.isEmpty || (1 < whole.length && whole.head? == some '0') then none
  else
    let (fraction, rest) ← readFraction? (rest.dropWhile Char.isDigit)
    let (exponent, rest) ← readExponent? rest
    let value ← numberValue? negative whole fraction exponent
    some (value, rest)

/-! ## Strings -/

/-- A code unit of four hexadecimal digits. -/
def readUnit? : Rest → Option (Nat × Rest)
  | a :: b :: c :: d :: rest => (Digits.hexNumber? [a, b, c, d]).map fun unit => (unit, rest)
  | _ => none

/-- The character of an escaped code unit; a high surrogate needs its low one. -/
def readEscapedUnit? (input : Rest) : Option (Char × Rest) := do
  let (unit, rest) ← readUnit? input
  if 0xD800 ≤ unit && unit < 0xDC00 then
    let rest ← skipText? ['\\', 'u'] rest
    let (low, rest) ← readUnit? rest
    if 0xDC00 ≤ low && low < 0xE000 then
      some (Char.ofNat (0x10000 + (unit - 0xD800) * 0x400 + (low - 0xDC00)), rest)
    else none
  else if 0xDC00 ≤ unit && unit < 0xE000 then none
  else some (Char.ofNat unit, rest)

/-- The characters of a string up to its closing quote, gathered in reverse. -/
def readChars? : (fuel : Nat) → List Char → Rest → Option (String × Rest)
  | 0, _, _ => none
  | _ + 1, _, [] => none
  | _ + 1, chars, '"' :: rest => some (String.ofList chars.reverse, rest)
  | fuel + 1, chars, '\\' :: 'u' :: rest => do
    let (c, rest) ← readEscapedUnit? rest
    readChars? fuel (c :: chars) rest
  | fuel + 1, chars, '\\' :: c :: rest =>
    match c with
    | '"' | '\\' | '/' => readChars? fuel (c :: chars) rest
    | 'b' => readChars? fuel (Char.ofNat 8 :: chars) rest
    | 'f' => readChars? fuel (Char.ofNat 12 :: chars) rest
    | 'n' => readChars? fuel ('\n' :: chars) rest
    | 'r' => readChars? fuel ('\r' :: chars) rest
    | 't' => readChars? fuel ('\t' :: chars) rest
    | _ => none
  | fuel + 1, chars, c :: rest =>
    if c == '\\' || c.toNat < 32 then none else readChars? fuel (c :: chars) rest

/-- A quoted string. -/
def readString? : Rest → Option (String × Rest)
  | '"' :: rest => readChars? (rest.length + 1) [] rest
  | _ => none

/-! ## Values -/

/-- Items up to the closing bracket, gathered in reverse; the fuel bounds their number. -/
def readItems? (item? : Rest → Option (Json × Rest)) :
    (fuel : Nat) → List Json → Rest → Option (Json × Rest)
  | 0, _, _ => none
  | fuel + 1, items, rest => do
    let (item, rest) ← item? rest
    match skipBlanks rest with
    | ',' :: rest => readItems? item? fuel (item :: items) rest
    | ']' :: rest => some (arr (item :: items).reverse, rest)
    | _ => none

/-- Members up to the closing brace; the fuel bounds their number. -/
def readMembers? (item? : Rest → Option (Json × Rest)) :
    (fuel : Nat) → List (String × Json) → Rest → Option (Json × Rest)
  | 0, _, _ => none
  | fuel + 1, members, rest => do
    let (name, rest) ← readString? (skipBlanks rest)
    match skipBlanks rest with
    | ':' :: rest =>
      let (value, rest) ← item? rest
      let members := Entries.insert name value members
      match skipBlanks rest with
      | ',' :: rest => readMembers? item? fuel members rest
      | '\x7d' :: rest => some (obj members, rest)
      | _ => none
    | _ => none

/-- A value after blanks, with the number of containers that may still be opened. -/
def readValue? : (depth : Nat) → Rest → Option (Json × Rest)
  | depth, input =>
    match skipBlanks input with
    | 'n' :: rest => (skipText? ['u', 'l', 'l'] rest).map fun rest => (null, rest)
    | 't' :: rest => (skipText? ['r', 'u', 'e'] rest).map fun rest => (bool true, rest)
    | 'f' :: rest => (skipText? ['a', 'l', 's', 'e'] rest).map fun rest => (bool false, rest)
    | '"' :: rest => (readString? ('"' :: rest)).map fun (text, rest) => (str text, rest)
    | '[' :: rest =>
      match depth with
      | 0 => none
      | depth + 1 =>
        match skipBlanks rest with
        | ']' :: rest => some (arr [], rest)
        | rest => readItems? (readValue? depth) (rest.length + 1) [] rest
    | '\x7b' :: rest =>
      match depth with
      | 0 => none
      | depth + 1 =>
        match skipBlanks rest with
        | '\x7d' :: rest => some (obj [], rest)
        | rest => readMembers? (readValue? depth) (rest.length + 1) [] rest
    | rest => readNumber? rest

/-- The value that a text writes, with at most `depth` containers inside each other. -/
def readWithin? (depth : Nat) (text : String) : Option Json :=
  match readValue? depth text.toList with
  | some (value, rest) => if (skipBlanks rest).isEmpty then some value else none
  | none => none

/-- How many containers may stand inside each other. -/
def depthLimit : Nat := 127

/-- The value that a text writes, nothing when it is not JSON. -/
def read? (text : String) : Option Json := readWithin? depthLimit text

end Json

end SchemaSampler
