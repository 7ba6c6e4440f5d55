import SchemaSampler.Pattern.Basic
import SchemaSampler.Text.Digits

/-!
# Reading patterns

`Pattern.read?` reads a regular expression: literals, `.`, classes in brackets with ranges,
nesting and set operations, escapes, groups with names and flags, alternation, repetition and
conditions on positions. Look-around, back-references and unknown escapes are refused.

The reader keeps a stack of open groups, and inside brackets a stack of open classes; every step
takes at least one character, so the length of the text bounds the number of steps.
-/

namespace SchemaSampler

namespace Pattern

/-- The flags that groups may set. -/
structure Flags where
  ignoreCase : Bool := false
  multiline : Bool := false
  dotAll : Bool := false
  swapGreed : Bool := false
  unicode : Bool := true
  verbose : Bool := false
  crlf : Bool := false

/-! ## Escapes -/

inductive Escape where
  | char (c : Char)
  | set (chars : Charset)
  | look (condition : Look)

/-- The character whose code point hexadecimal digits write; there is at least one digit, and
surrogates and numbers out of range are refused. -/
def hexChar? (digits : List Char) : Option Char := do
  let code ← Digits.hexNumber? digits
  if !digits.isEmpty && code.isValidChar then some (Char.ofNat code) else none

/-- A code point in braces, or of a fixed number of digits. -/
def readHex? (digits : Nat) : List Char → Option (Char × List Char)
  | '\x7b' :: rest =>
    match rest.dropWhile fun c => c != '\x7d' with
    | _ :: after => (hexChar? (rest.takeWhile fun c => c != '\x7d')).map fun c => (c, after)
    | [] => none
  | rest =>
    if (rest.take digits).length < digits then none
    else (hexChar? (rest.take digits)).map fun c => (c, rest.drop digits)

/-- White space, digits and word characters as a flag understands them. -/
def namedSet (unicode : Bool) (c : Char) : Charset :=
  match c.toLower with
  | 'd' => if unicode then .digit else (Charset.ascii? "digit").getD .empty
  | 's' => if unicode then .blank else (Charset.ascii? "space").getD .empty
  | _ => if unicode then .word else (Charset.ascii? "word").getD .empty

/-- An escaped character that stands for itself. -/
def isEscapable (c : Char) : Bool :=
  c.toNat < 128 && !c.isAlphanum && c != '<' && c != '>'

/-- What follows a backslash. -/
def readEscape? (flags : Flags) : List Char → Option (Escape × List Char)
  | [] => none
  | c :: rest =>
    match c with
    | 'd' | 's' | 'w' => some (.set (namedSet flags.unicode c), rest)
    | 'D' | 'S' | 'W' => some (.set (namedSet flags.unicode c).complement, rest)
    | 'x' => (readHex? 2 rest).map fun (c, rest) => (.char c, rest)
    | 'u' => (readHex? 4 rest).map fun (c, rest) => (.char c, rest)
    | 'U' => (readHex? 8 rest).map fun (c, rest) => (.char c, rest)
    | 'a' => some (.char (Char.ofNat 7), rest)
    | 'f' => some (.char (Char.ofNat 12), rest)
    | 't' => some (.char '\t', rest)
    | 'n' => some (.char '\n', rest)
    | 'r' => some (.char '\r', rest)
    | 'v' => some (.char (Char.ofNat 11), rest)
    | 'A' => some (.look .textStart, rest)
    | 'z' => some (.look .textEnd, rest)
    | 'b' => some (.look .wordBoundary, rest)
    | 'B' => some (.look .noWordBoundary, rest)
    | '<' => some (.look .wordStart, rest)
    | '>' => some (.look .wordEnd, rest)
    | c => if isEscapable c then some (.char c, rest) else none

/-! ## Classes in brackets -/

inductive SetOperation where
  | intersection | difference | symmetricDifference

def SetOperation.apply : SetOperation → Charset → Charset → Charset
  | intersection => Charset.intersection
  | difference => Charset.difference
  | symmetricDifference => Charset.symmetricDifference

/-- An open class: the operand before the last operation, and the characters after it. -/
structure OpenClass where
  negated : Bool
  pending : Option (Charset × SetOperation) := none
  items : Charset := .empty

namespace OpenClass

def add (cls : OpenClass) (chars : Charset) : OpenClass :=
  { cls with items := cls.items.union chars }

/-- The characters so far, with the pending operation applied. -/
def current (cls : OpenClass) (ignoreCase : Bool) : Charset :=
  let items := if ignoreCase then cls.items.foldCase else cls.items
  match cls.pending with
  | none => items
  | some (left, operation) => operation.apply left items

def operate (cls : OpenClass) (ignoreCase : Bool) (operation : SetOperation) : OpenClass :=
  { cls with pending := some (cls.current ignoreCase, operation), items := .empty }

def close (cls : OpenClass) (ignoreCase : Bool) : Charset :=
  let chars := cls.current ignoreCase
  if cls.negated then chars.complement else chars

end OpenClass

/-- The start of a class after its bracket: a negation, leading dashes, or a leading bracket. -/
def openClass (input : List Char) : OpenClass × List Char :=
  let (negated, input) := match input with
    | '^' :: rest => (true, rest)
    | rest => (false, rest)
  let cls : OpenClass := { negated }
  match input with
  | '-' :: _ => (cls.add (.single '-'), input.dropWhile fun c => c == '-')
  | ']' :: rest => (cls.add (.single ']'), rest)
  | rest => (cls, rest)

/-- A class by name such as `[:alpha:]`, after its first bracket. -/
def readNamedClass? : List Char → Option (Charset × List Char)
  | ':' :: rest =>
    let (negated, rest) := match rest with
      | '^' :: rest => (true, rest)
      | rest => (false, rest)
    let name := rest.takeWhile fun c => c != ':'
    match rest.dropWhile fun c => c != ':' with
    | ':' :: ']' :: after => (Charset.ascii? (String.ofList name)).map fun chars =>
      (if negated then chars.complement else chars, after)
    | _ => none
  | _ => none

/-- A character or an escape inside a class. -/
def readClassItem? (flags : Flags) : List Char → Option (Escape × List Char)
  | [] => none
  | '\\' :: rest => readEscape? flags rest
  | c :: rest => some (.char c, rest)

/-- A single item or a range of characters. -/
def readClassRange? (flags : Flags) (input : List Char) : Option (Charset × List Char) := do
  let (first, rest) ← readClassItem? flags input
  let single : Option (Charset × List Char) := match first with
    | .char c => some (.single c, rest)
    | .set chars => some (chars, rest)
    | .look _ => none
  match rest with
  | '-' :: ']' :: _ => single
  | '-' :: '-' :: _ => single
  | '-' :: rest =>
    match first, ← readClassItem? flags rest with
    | .char low, (.char high, rest) =>
      if low ≤ high then some (.range low high, rest) else none
    | _, _ => none
  | _ => single

/-- The characters of a class up to the bracket that closes the outermost one. -/
def readClass? (flags : Flags) :
    (fuel : Nat) → OpenClass → List OpenClass → List Char → Option (Charset × List Char)
  | 0, _, _, _ => none
  | _ + 1, _, _, [] => none
  | fuel + 1, cls, outer, ']' :: rest =>
    match outer with
    | [] => some (cls.close flags.ignoreCase, rest)
    | next :: outer => readClass? flags fuel (next.add (cls.close flags.ignoreCase)) outer rest
  | fuel + 1, cls, outer, '[' :: rest =>
    match readNamedClass? rest with
    | some (chars, rest) => readClass? flags fuel (cls.add chars) outer rest
    | none =>
      let (inner, rest) := openClass rest
      readClass? flags fuel inner (cls :: outer) rest
  | fuel + 1, cls, outer, '&' :: '&' :: rest =>
    readClass? flags fuel (cls.operate flags.ignoreCase .intersection) outer rest
  | fuel + 1, cls, outer, '-' :: '-' :: rest =>
    readClass? flags fuel (cls.operate flags.ignoreCase .difference) outer rest
  | fuel + 1, cls, outer, '~' :: '~' :: rest =>
    readClass? flags fuel (cls.operate flags.ignoreCase .symmetricDifference) outer rest
  | fuel + 1, cls, outer, input => do
    let (chars, rest) ← readClassRange? flags input
    readClass? flags fuel (cls.add chars) outer rest

/-! ## Groups -/

/-- A part of a sequence; a setting of flags is no part that could be repeated. -/
inductive Part where
  | item (pattern : Pattern)
  | setting

/-- An open group: finished branches and the parts of the last one, both in reverse. -/
structure OpenGroup where
  branches : List Pattern := []
  parts : List Part := []
  /-- The number of a capturing group. -/
  number : Option Nat := none
  /-- The flags in force around the group. -/
  around : Flags := {}

structure Reading where
  flags : Flags := {}
  group : OpenGroup := {}
  outer : List OpenGroup := []
  captures : Nat := 0
  names : List String := []

namespace Reading

def push (reading : Reading) (part : Part) : Reading :=
  { reading with group := { reading.group with parts := part :: reading.group.parts } }

def add (reading : Reading) (pattern : Pattern) : Reading := reading.push (.item pattern)

/-- The sequence of the parts of the last branch. -/
def branch (group : OpenGroup) : Pattern :=
  concat (group.parts.reverse.map fun
    | .item pattern => pattern
    | .setting => empty)

/-- The pattern of an open group. -/
def pattern (group : OpenGroup) : Pattern :=
  if group.branches.isEmpty then branch group
  else alternation (branch group :: group.branches).reverse

def nextBranch (reading : Reading) : Reading :=
  { reading with group := {
      reading.group with branches := branch reading.group :: reading.group.branches, parts := [] } }

/-- Opens a group whose inside has the given flags. -/
def openGroup (reading : Reading) (number : Option Nat) (flags : Flags) : Reading :=
  { reading with
    flags, outer := reading.group :: reading.outer, group := { number, around := reading.flags } }

def openCapture (reading : Reading) : Reading :=
  let number := reading.captures + 1
  { reading.openGroup (some number) reading.flags with captures := number }

def closeGroup? (reading : Reading) : Option Reading :=
  match reading.outer with
  | [] => none
  | around :: outer =>
    let inner := pattern reading.group
    let closed := match reading.group.number with
      | some number => capture number inner
      | none => inner
    some ({ reading with flags := reading.group.around, group := around, outer }.add closed)

/-- Replaces the last part, which has to be a pattern, by a repetition of it. -/
def repeatLast? (reading : Reading) (least : Nat) (most : Option Nat) (lazy : Bool) :
    Option Reading :=
  match reading.group.parts with
  | .item pattern :: parts =>
    let greedy := lazy == reading.flags.swapGreed
    let part : Part := .item (repeated least most greedy pattern)
    some { reading with group := { reading.group with parts := part :: parts } }
  | _ => none

end Reading

/-- Sets or clears the flag of a letter. -/
def Flags.set? (flags : Flags) (value : Bool) : Char → Option Flags
  | 'i' => some { flags with ignoreCase := value }
  | 'm' => some { flags with multiline := value }
  | 's' => some { flags with dotAll := value }
  | 'U' => some { flags with swapGreed := value }
  | 'u' => some { flags with unicode := value }
  | 'x' => some { flags with verbose := value }
  | 'R' => some { flags with crlf := value }
  | _ => none

/-- Reads flag letters up to a colon or a closing parenthesis, which is left; a dash clears the
flags after it. -/
def readFlags? :
    (fuel : Nat) → Flags → (seen : List Char) → List Char → Option (Flags × List Char)
  | 0, _, _, _ => none
  | _ + 1, _, _, [] => none
  | fuel + 1, flags, seen, c :: rest =>
    if c == ':' || c == ')' then
      if seen.head? == some '-' then none else some (flags, c :: rest)
    else if seen.contains c then none
    else if c == '-' then readFlags? fuel flags (c :: seen) rest
    else do
      let flags ← flags.set? (!seen.contains '-') c
      readFlags? fuel flags (c :: seen) rest

def isNameStart (c : Char) : Bool := c == '_' || c.isAlpha

def isNameChar (c : Char) : Bool :=
  c == '_' || c.isAlphanum || c == '.' || c == '[' || c == ']'

/-- A named group after the angle bracket; names differ from each other. -/
def readNamedGroup? (reading : Reading) (input : List Char) : Option (Reading × List Char) :=
  let name := input.takeWhile fun c => c != '>'
  match input.dropWhile fun c => c != '>' with
  | _ :: rest =>
    let text := String.ofList name
    if (name.head?.map isNameStart).getD false && name.all isNameChar &&
        !reading.names.contains text then
      some ({ reading.openCapture with names := text :: reading.names }, rest)
    else none
  | [] => none

/-- What follows an opening parenthesis. -/
def readGroup? (reading : Reading) : List Char → Option (Reading × List Char)
  | '?' :: 'P' :: '<' :: rest => readNamedGroup? reading rest
  | '?' :: '<' :: rest => readNamedGroup? reading rest
  | '?' :: rest => do
    let (flags, after) ← readFlags? (rest.length + 1) reading.flags [] rest
    match after with
    | ':' :: rest => some (reading.openGroup none flags, rest)
    | ')' :: after =>
      if rest.head? == some ')' then none else some ({ reading.push .setting with flags }, after)
    | _ => none
  | rest => some (reading.openCapture, rest)

/-! ## Repetitions -/

def isSpace (c : Char) : Bool := Charset.blank.contains c

/-- A number below `2 ^ 32` with blanks around it. -/
def readCount? (input : List Char) : Option (Nat × List Char) :=
  let input := input.dropWhile isSpace
  let digits := input.takeWhile Char.isDigit
  let value := Digits.number 0 digits
  if digits.isEmpty || 0x100000000 ≤ value then none
  else some (value, (input.dropWhile Char.isDigit).dropWhile isSpace)

/-- The counts of a repetition after its opening brace. -/
def readCounts? (input : List Char) : Option (Nat × Option Nat × List Char) := do
  let (least, rest) ← readCount? input
  match rest with
  | '\x7d' :: rest => some (least, some least, rest)
  | ',' :: '\x7d' :: rest => some (least, none, rest)
  | ',' :: rest =>
    match ← readCount? rest with
    | (most, '\x7d' :: rest) => if least ≤ most then some (least, some most, rest) else none
    | _ => none
  | _ => none

/-- A repetition with the mark that makes it lazy. -/
def readRepetition? (reading : Reading) (least : Nat) (most : Option Nat) :
    List Char → Option (Reading × List Char)
  | '?' :: rest => (reading.repeatLast? least most true).map fun reading => (reading, rest)
  | rest => (reading.repeatLast? least most false).map fun reading => (reading, rest)

/-! ## Whole patterns -/

/-- A set of characters under flags. -/
def setPattern (flags : Flags) (chars : Charset) : Pattern :=
  ofSet (if flags.ignoreCase then chars.foldCase else chars)

def anyChar (flags : Flags) : Charset :=
  if flags.dotAll then .full
  else if flags.crlf then (Charset.newline.union (.single '\r')).complement
  else Charset.newline.complement

/-- Reads what starts with the character `c`. -/
def step? (reading : Reading) (c : Char) (rest : List Char) : Option (Reading × List Char) :=
  match c with
  | '(' => readGroup? reading rest
  | ')' => reading.closeGroup?.map fun reading => (reading, rest)
  | '|' => some (reading.nextBranch, rest)
  | '[' =>
    let (cls, inner) := openClass rest
    (readClass? reading.flags (rest.length + 1) cls [] inner).map fun (chars, rest) =>
      (reading.add (ofSet chars), rest)
  | '*' => readRepetition? reading 0 none rest
  | '+' => readRepetition? reading 1 none rest
  | '?' => readRepetition? reading 0 (some 1) rest
  | '\x7b' => do
    let (least, most, rest) ← readCounts? rest
    readRepetition? reading least most rest
  | '.' => some (reading.add (ofSet (anyChar reading.flags)), rest)
  | '^' =>
    some (reading.add (look (if reading.flags.multiline then .lineStart else .textStart)), rest)
  | '$' =>
    some (reading.add (look (if reading.flags.multiline then .lineEnd else .textEnd)), rest)
  | '\\' => do
    match ← readEscape? reading.flags rest with
    | (.char c, rest) => some (reading.add (setPattern reading.flags (.single c)), rest)
    | (.set chars, rest) => some (reading.add (ofSet chars), rest)
    | (.look condition, rest) => some (reading.add (look condition), rest)
  | c =>
    if reading.flags.verbose && isSpace c then some (reading, rest)
    else if reading.flags.verbose && c == '#' then some (reading, rest.dropWhile (· != '\n'))
    else some (reading.add (setPattern reading.flags (.single c)), rest)

def readAll? : (fuel : Nat) → Reading → List Char → Option Pattern
  | _, reading, [] => if reading.outer.isEmpty then some (Reading.pattern reading.group) else none
  | 0, _, _ => none
  | fuel + 1, reading, c :: rest => do
    let (reading, rest) ← step? reading c rest
    readAll? fuel reading rest

/-- The pattern that a text writes, nothing when it is no regular expression. -/
def read? (text : String) : Option Pattern := readAll? text.length {} text.toList

end Pattern

end SchemaSampler
