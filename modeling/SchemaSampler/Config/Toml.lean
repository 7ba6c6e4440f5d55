import SchemaSampler.Binary64.Decimal
import SchemaSampler.Json.Reader

/-!
# Reading TOML

`Toml.read?` reads a document of key and value lines under table headers and gives its content
as a JSON object; a date or time becomes an object with its text. A key may be set once, a table
may have one header, and neither may change the kind of what is there.
-/

namespace SchemaSampler

namespace Toml

/-! ## Tables under construction -/

/-- How a table came to be: by a header of its own, by the header of an inner one, or by a
dotted key. -/
inductive Origin where
  | header | implied | dotted
deriving DecidableEq, Repr

inductive Item where
  | value (content : Json)
  | table (origin : Origin) (entries : List (String × Item))
  /-- Tables with the same double header, the last one first. -/
  | tables (elements : List (List (String × Item)))

abbrev Table := Entries Item

mutual
def Item.toJson : Item → Json
  | .value content => content
  | .table _ entries => .obj (entriesJson entries)
  | .tables elements => .arr (elementsJson elements).reverse

def entriesJson : List (String × Item) → List (String × Json)
  | [] => []
  | (key, item) :: rest => (key, item.toJson) :: entriesJson rest

def elementsJson : List (List (String × Item)) → List Json
  | [] => []
  | entries :: rest => .obj (entriesJson entries) :: elementsJson rest
end

/-- Sets a value under a dotted key; it extends only tables that come from dotted keys. -/
def setValue? (content : Json) : List String → Table → Option Table
  | [], _ => none
  | [key], table =>
    if Entries.has table key then none else some (Entries.insert key (.value content) table)
  | key :: path, table => do
    let inner ← match Entries.get? table key with
      | none => some []
      | some (.table .dotted inner) => some inner
      | some _ => none
    let inner ← setValue? content path inner
    some (Entries.insert key (.table .dotted inner) table)

/-- Changes the table that a header path leads to; missing tables on the way are implied. -/
def changeAt? (change : Table → Option Table) : List String → Table → Option Table
  | [], table => change table
  | key :: path, table =>
    match Entries.get? table key with
    | none => do
      let inner ← changeAt? change path []
      some (Entries.insert key (.table .implied inner) table)
    | some (.table origin inner) => do
      let inner ← changeAt? change path inner
      some (Entries.insert key (.table origin inner) table)
    | some (.tables (last :: others)) => do
      let last ← changeAt? change path last
      some (Entries.insert key (.tables (last :: others)) table)
    | some _ => none

/-- Opens the table of a header; an implied table gets its header now. -/
def openTable? (key : String) (table : Table) : Option Table :=
  match Entries.get? table key with
  | none => some (Entries.insert key (.table .header []) table)
  | some (.table .implied inner) => some (Entries.insert key (.table .header inner) table)
  | some _ => none

/-- Adds a table to those with the same double header. -/
def appendTable? (key : String) (table : Table) : Option Table :=
  match Entries.get? table key with
  | none => some (Entries.insert key (.tables [[]]) table)
  | some (.tables elements) => some (Entries.insert key (.tables ([] :: elements)) table)
  | some _ => none

/-! ## Characters -/

abbrev Rest := List Char

def isBlank (c : Char) : Bool := c == ' ' || c == '\t'

def skipBlanks (rest : Rest) : Rest := rest.dropWhile isBlank

/-- Control characters other than the tab stand nowhere. -/
def isControl (c : Char) : Bool := (c.toNat < 32 && c != '\t') || c.toNat == 127

/-- The rest after a line end. -/
def lineEnd? : Rest → Option Rest
  | '\n' :: rest => some rest
  | '\r' :: '\n' :: rest => some rest
  | _ => none

/-- The rest after a comment, when there is one. -/
def skipComment? : Rest → Option Rest
  | '#' :: rest =>
    let after := rest.dropWhile fun c => !isControl c
    match after with
    | [] => some []
    | _ => if (lineEnd? after).isSome then some after else none
  | rest => some rest

/-- The rest after blanks, comments and line ends. -/
def skipLines? : (fuel : Nat) → Rest → Option Rest
  | 0, rest => some rest
  | fuel + 1, rest => do
    let rest ← skipComment? (skipBlanks rest)
    match lineEnd? rest with
    | some rest => skipLines? fuel rest
    | none => some rest

/-! ## Strings -/

/-- A character given by its code point. -/
def readCode? (count : Nat) (rest : Rest) : Option (Char × Rest) := do
  let digits := rest.take count
  if digits.length < count then none
  else
    let code ← Digits.hexNumber? digits
    if code.isValidChar then some (Char.ofNat code, rest.drop count) else none

/-- The character of an escape after its backslash. -/
def readEscape? : Rest → Option (Char × Rest)
  | 'b' :: rest => some (Char.ofNat 8, rest)
  | 't' :: rest => some ('\t', rest)
  | 'n' :: rest => some ('\n', rest)
  | 'f' :: rest => some (Char.ofNat 12, rest)
  | 'r' :: rest => some ('\r', rest)
  | '"' :: rest => some ('"', rest)
  | '\\' :: rest => some ('\\', rest)
  | 'u' :: rest => readCode? 4 rest
  | 'U' :: rest => readCode? 8 rest
  | _ => none

/-- The characters of a quoted string on one line, gathered in reverse. -/
def readBasic? : (fuel : Nat) → List Char → Rest → Option (String × Rest)
  | 0, _, _ => none
  | _ + 1, _, [] => none
  | _ + 1, chars, '"' :: rest => some (String.ofList chars.reverse, rest)
  | fuel + 1, chars, '\\' :: rest => do
    let (c, rest) ← readEscape? rest
    readBasic? fuel (c :: chars) rest
  | fuel + 1, chars, c :: rest => if isControl c then none else readBasic? fuel (c :: chars) rest

/-- A string between apostrophes, without escapes. -/
def readLiteral? (rest : Rest) : Option (String × Rest) :=
  let text := rest.takeWhile fun c => c != '\'' && !isControl c
  match rest.drop text.length with
  | '\'' :: rest => some (String.ofList text, rest)
  | _ => none

/-- The quotes at the start, at most five. -/
def countQuotes (quote : Char) (rest : Rest) : Nat :=
  ((rest.take 5).takeWhile fun c => c == quote).length

/-- After a backslash at the end of a line: the rest from the next visible character on. -/
def skipFold? (rest : Rest) : Option Rest :=
  match lineEnd? (skipBlanks rest) with
  | some rest => some (rest.dropWhile fun c => isBlank c || c == '\n' || c == '\r')
  | none => none

/-- The characters of a string over several lines, gathered in reverse; up to two quotes may
stand before the closing three. -/
def readLong? (quote : Char) : (fuel : Nat) → List Char → Rest → Option (String × Rest)
  | 0, _, _ => none
  | _ + 1, _, [] => none
  | fuel + 1, chars, c :: rest =>
    if c == quote then
      let count := countQuotes quote (c :: rest)
      if 3 ≤ count then
        some (String.ofList (List.replicate (count - 3) quote ++ chars).reverse,
          (c :: rest).drop count)
      else readLong? quote fuel (c :: chars) rest
    else if c == '\\' && quote == '"' then
      match skipFold? rest with
      | some rest => readLong? quote fuel chars rest
      | none => do
        let (c, rest) ← readEscape? rest
        readLong? quote fuel (c :: chars) rest
    else
      match lineEnd? (c :: rest) with
      | some rest => readLong? quote fuel ('\n' :: chars) rest
      | none => if isControl c then none else readLong? quote fuel (c :: chars) rest

/-- A string over several lines; a line end right after the opening is dropped. -/
def readLongString? (quote : Char) (rest : Rest) : Option (String × Rest) :=
  let rest := (lineEnd? rest).getD rest
  readLong? quote (rest.length + 1) [] rest

def readString? : Rest → Option (String × Rest)
  | '"' :: '"' :: '"' :: rest => readLongString? '"' rest
  | '\'' :: '\'' :: '\'' :: rest => readLongString? '\'' rest
  | '"' :: rest => readBasic? (rest.length + 1) [] rest
  | '\'' :: rest => readLiteral? rest
  | _ => none

/-! ## Keys -/

def isBareChar (c : Char) : Bool := c.isAlphanum || c == '_' || c == '-'

/-- A part of a key: bare or quoted on one line. -/
def readKeyPart? : Rest → Option (String × Rest)
  | '"' :: rest => readBasic? (rest.length + 1) [] rest
  | '\'' :: rest => readLiteral? rest
  | rest =>
    let name := rest.takeWhile isBareChar
    if name.isEmpty then none else some (String.ofList name, rest.dropWhile isBareChar)

/-- The parts of a dotted key, with blanks around the dots. -/
def readKey? : (fuel : Nat) → Rest → Option (List String × Rest)
  | 0, _ => none
  | fuel + 1, rest => do
    let (part, rest) ← readKeyPart? (skipBlanks rest)
    match skipBlanks rest with
    | '.' :: rest => do
      let (parts, rest) ← readKey? fuel rest
      some (part :: parts, rest)
    | rest => some ([part], rest)

/-! ## Numbers, dates and times -/

/-- The digits of a run in which single underscores stand between digits. -/
def digitRun? (isDigit : Char → Bool) (text : List Char) : Option (List Char) :=
  let groups := (String.ofList text).splitOn "_"
  if groups.all fun group => !group.isEmpty && group.toList.all isDigit then
    some (text.filter fun c => c != '_')
  else none

/-- An integer of 64 bits. -/
def integer? (value : Int) : Option Json :=
  if Binary64.int64Min ≤ value && value ≤ Binary64.int64Max then some (.int value) else none

def radixNumber? (base : Nat) (isDigit : Char → Bool) (text : List Char) : Option Json := do
  let digits ← digitRun? isDigit text
  let values ← digits.mapM Digits.hexValue?
  integer? (values.foldl (fun n d => base * n + d) 0 : Nat)

def isHexDigit (c : Char) : Bool := (Digits.hexValue? c).isSome

/-- The sign and the rest of a number. -/
def splitSign : List Char → Bool × List Char
  | '-' :: rest => (true, rest)
  | '+' :: rest => (false, rest)
  | rest => (false, rest)

/-- Decimal digits without a leading zero. -/
def wholeDigits? (text : List Char) : Option (List Char) := do
  let digits ← digitRun? Char.isDigit text
  if 1 < digits.length && digits.head? == some '0' then none else some digits

/-- The exponent of a float after its letter. -/
def exponent? (text : List Char) : Option Int := do
  let (negative, digits) := splitSign text
  let digits ← digitRun? Char.isDigit digits
  let value : Int := Digits.number 0 digits
  some (if negative then -value else value)

def isExponentMark (c : Char) : Bool := c == 'e' || c == 'E'

/-- A float with a fraction, an exponent, or both. -/
def float? (negative : Bool) (text : List Char) : Option Json := do
  let mantissa := text.takeWhile fun c => !isExponentMark c
  let power ← match text.dropWhile fun c => !isExponentMark c with
    | [] => some 0
    | _ :: rest => exponent? rest
  let whole ← wholeDigits? (mantissa.takeWhile fun c => c != '.')
  let places ← match mantissa.dropWhile fun c => c != '.' with
    | [] => some []
    | _ :: rest => digitRun? Char.isDigit rest
  some (.float (Binary64.ofDecimal negative (Digits.number 0 (whole ++ places))
    (power - places.length)))

def number? (text : List Char) : Option Json :=
  match text with
  | '0' :: 'x' :: digits => radixNumber? 16 isHexDigit digits
  | '0' :: 'o' :: digits => radixNumber? 8 (fun c => '0' ≤ c && c ≤ '7') digits
  | '0' :: 'b' :: digits => radixNumber? 2 (fun c => c == '0' || c == '1') digits
  | text =>
    let (negative, digits) := splitSign text
    if digits == ['i', 'n', 'f'] then
      some (.float (Binary64.ofMagnitude negative infiniteMagnitude))
    else if digits == ['n', 'a', 'n'] then some (.float .nan)
    else if digits.any fun c => c == '.' || isExponentMark c then float? negative digits
    else do
      let digits ← wholeDigits? digits
      let value : Int := Digits.number 0 digits
      integer? (if negative then -value else value)

/-- A number of two digits within bounds. -/
def twoDigits? (low high : Nat) (text : List Char) : Option Nat :=
  let value := Digits.number 0 text
  if text.length == 2 && text.all Char.isDigit && low ≤ value && value ≤ high then some value
  else none

def isLeapYear (year : Nat) : Bool := (year % 4 == 0 && year % 100 != 0) || year % 400 == 0

def daysIn (year month : Nat) : Nat :=
  if month == 2 then (if isLeapYear year then 29 else 28)
  else if [4, 6, 9, 11].contains month then 30
  else 31

/-- A date such as `1979-05-27`. -/
def isDate (text : List Char) : Bool :=
  match (String.ofList text).splitOn "-" with
  | [year, month, day] =>
    let year := year.toList
    match twoDigits? 1 12 month.toList with
    | some month => year.length == 4 && year.all Char.isDigit &&
      (twoDigits? 1 (daysIn (Digits.number 0 year) month) day.toList).isSome
    | none => false
  | _ => false

/-- A time of day such as `07:32:00.5`. -/
def isTime (text : List Char) : Bool :=
  match (String.ofList text).splitOn ":" with
  | [hour, minute, second] =>
    let whole := second.toList.takeWhile fun c => c != '.'
    let places := second.toList.dropWhile fun c => c != '.'
    (twoDigits? 0 23 hour.toList).isSome && (twoDigits? 0 59 minute.toList).isSome &&
      (twoDigits? 0 60 whole).isSome &&
      (places.isEmpty || (1 < places.length && (places.drop 1).all Char.isDigit))
  | _ => false

/-- An offset such as `Z` or `-07:00`. -/
def isOffset : List Char → Bool
  | ['Z'] | ['z'] => true
  | sign :: h :: h' :: ':' :: minutes =>
    (sign == '+' || sign == '-') && (twoDigits? 0 24 [h, h']).isSome &&
      (twoDigits? 0 59 minutes).isSome
  | _ => false

def isTimeChar (c : Char) : Bool := c.isDigit || c == ':' || c == '.'

/-- A date, a time, or a date with a time and perhaps an offset. -/
def isMoment (text : List Char) : Bool :=
  let date := text.take 10
  match text.drop 10 with
  | [] => isDate text || isTime text
  | mark :: rest =>
    let time := rest.takeWhile isTimeChar
    let offset := rest.dropWhile isTimeChar
    isTime text || (isDate date && (mark == 'T' || mark == 't' || mark == ' ') && isTime time &&
      (offset.isEmpty || isOffset offset))

/-- A date or time as a value. -/
def moment (text : List Char) : Json :=
  Json.object [("$__toml_private_datetime", .str (String.ofList text))]

def isScalarChar (c : Char) : Bool :=
  c.isAlphanum || c == '_' || c == '-' || c == '+' || c == '.' || c == ':'

/-- A blank between a date and a time belongs to the value. -/
def scalarText (rest : Rest) : List Char × Rest :=
  let text := rest.takeWhile isScalarChar
  match rest.dropWhile isScalarChar with
  | ' ' :: a :: b :: ':' :: after =>
    if isDate text && a.isDigit && b.isDigit then
      let time := (a :: b :: ':' :: after).takeWhile isScalarChar
      (text ++ ' ' :: time, (a :: b :: ':' :: after).dropWhile isScalarChar)
    else (text, ' ' :: a :: b :: ':' :: after)
  | after => (text, after)

def readScalar? (rest : Rest) : Option (Json × Rest) := do
  let (text, rest) := scalarText rest
  let value ←
    if text == ['t', 'r', 'u', 'e'] then some (.bool true)
    else if text == ['f', 'a', 'l', 's', 'e'] then some (.bool false)
    else if isMoment text then some (moment text)
    else number? text
  some (value, rest)

/-! ## Arrays and inline tables -/

abbrev ValueReader := Rest → Option (Json × Rest)

/-- Items up to the closing bracket, gathered in reverse. -/
def readItems? (value? : ValueReader) :
    (fuel : Nat) → List Json → Rest → Option (Json × Rest)
  | 0, _, _ => none
  | fuel + 1, items, rest => do
    match ← skipLines? (rest.length + 1) rest with
    | ']' :: rest => some (.arr items.reverse, rest)
    | rest => do
      let (item, rest) ← value? rest
      match ← skipLines? (rest.length + 1) rest with
      | ',' :: rest => readItems? value? fuel (item :: items) rest
      | ']' :: rest => some (.arr (item :: items).reverse, rest)
      | _ => none

/-- A key, an equals sign and a value. -/
def readPair? (value? : ValueReader) (rest : Rest) : Option (List String × Json × Rest) := do
  let (key, rest) ← readKey? (rest.length + 1) rest
  match skipBlanks rest with
  | '=' :: rest => do
    let (value, rest) ← value? (skipBlanks rest)
    some (key, value, rest)
  | _ => none

/-- Pairs up to the closing brace, on one line. -/
def readInline? (value? : ValueReader) : (fuel : Nat) → Table → Rest → Option (Json × Rest)
  | 0, _, _ => none
  | fuel + 1, table, rest => do
    let (key, value, rest) ← readPair? value? rest
    let table ← setValue? value key table
    match skipBlanks rest with
    | ',' :: rest => readInline? value? fuel table rest
    | '\x7d' :: rest => some (.obj (entriesJson table), rest)
    | _ => none

/-- A value, with the number of containers that may still be opened. -/
def readValue? : (depth : Nat) → ValueReader
  | depth, input =>
    match input with
    | '"' :: _ => (readString? input).map fun (text, rest) => (.str text, rest)
    | '\'' :: _ => (readString? input).map fun (text, rest) => (.str text, rest)
    | '[' :: rest =>
      match depth with
      | 0 => none
      | depth + 1 => readItems? (readValue? depth) (rest.length + 1) [] rest
    | '\x7b' :: rest =>
      match depth with
      | 0 => none
      | depth + 1 =>
        match skipBlanks rest with
        | '\x7d' :: rest => some (.obj [], rest)
        | rest => readInline? (readValue? depth) (rest.length + 1) [] rest
    | _ => readScalar? input

/-- How many containers may stand inside each other. -/
def depthLimit : Nat := 80

/-! ## Documents -/

/-- The document so far and the path of the open table. -/
structure Reading where
  root : Table := []
  path : List String := []

/-- The rest of a line after its content. -/
def endLine? (rest : Rest) : Option Rest := do
  match ← skipComment? (skipBlanks rest) with
  | [] => some []
  | rest => lineEnd? rest

/-- The path and the last name of a header. -/
def splitLast : List String → Option (List String × String)
  | [] => none
  | [last] => some ([], last)
  | name :: rest => (splitLast rest).map fun (path, last) => (name :: path, last)

/-- A header line after its brackets. -/
def readHeader? (reading : Reading) (double : Bool) (rest : Rest) : Option (Reading × Rest) := do
  let (key, rest) ← readKey? (rest.length + 1) rest
  let rest ← match double, skipBlanks rest with
    | true, ']' :: ']' :: rest => some rest
    | false, ']' :: rest => some rest
    | _, _ => none
  let (path, last) ← splitLast key
  let change := if double then appendTable? last else openTable? last
  let root ← changeAt? change path reading.root
  some (⟨root, key⟩, rest)

/-- A line with content. -/
def readLine? (reading : Reading) : Rest → Option (Reading × Rest)
  | '[' :: '[' :: rest => readHeader? reading true rest
  | '[' :: rest => readHeader? reading false rest
  | rest => do
    let (key, value, rest) ← readPair? (readValue? depthLimit) rest
    let root ← changeAt? (setValue? value key) reading.path reading.root
    some ({ reading with root }, rest)

def readLines? : (fuel : Nat) → Reading → Rest → Option Reading
  | 0, _, _ => none
  | fuel + 1, reading, rest => do
    match ← skipLines? (rest.length + 1) rest with
    | [] => some reading
    | rest => do
      let (reading, rest) ← readLine? reading rest
      let rest ← endLine? rest
      readLines? fuel reading rest

/-- A byte order mark at the start is skipped. -/
def skipMark : List Char → List Char
  | c :: rest => if c.toNat == 0xFEFF then rest else c :: rest
  | [] => []

/-- The content of a document, nothing when it is not TOML. -/
def read? (text : String) : Option Json := do
  let rest := skipMark text.toList
  let reading ← readLines? (rest.length + 1) {} rest
  some (.obj (entriesJson reading.root))

end Toml

end SchemaSampler
