import SchemaSampler.Binary64.Decimal
import SchemaSampler.Json.Basic

/-!
# Writing JSON text

`compact` writes a value without blanks. `pretty` writes one item or member a line, indented by
two spaces a level; empty arrays and objects stay closed on one line.
-/

namespace SchemaSampler

namespace Json

/-! ## Strings -/

/-- The two hexadecimal digits of a control character. -/
def controlDigits (code : Nat) : List Char :=
  [if 16 ≤ code then '1' else '0', Nat.digitChar (code % 16)]

/-- A character inside a quoted string: quotes, backslashes and controls are escaped. -/
def escapeChar (c : Char) : List Char :=
  if c == '"' then ['\\', '"']
  else if c == '\\' then ['\\', '\\']
  else if c == '\n' then ['\\', 'n']
  else if c == '\r' then ['\\', 'r']
  else if c == '\t' then ['\\', 't']
  else if c.toNat == 8 then ['\\', 'b']
  else if c.toNat == 12 then ['\\', 'f']
  else if c.toNat < 32 then ['\\', 'u', '0', '0'] ++ controlDigits c.toNat
  else [c]

def quote (text : String) : String :=
  "\"" ++ String.ofList (text.toList.flatMap escapeChar) ++ "\""

/-! ## Values -/

/-- The text of a value without inner values. -/
def scalarText : Json → String
  | null => "null"
  | bool value => if value then "true" else "false"
  | int value => toString value
  | float value => value.jsonText
  | str value => quote value
  | arr _ => "[]"
  | obj _ => "\x7b\x7d"

mutual
def compact : Json → String
  | arr items => "[" ++ compactItems items ++ "]"
  | obj members => "\x7b" ++ compactMembers members ++ "\x7d"
  | scalar => scalar.scalarText

def compactItems : List Json → String
  | [] => ""
  | [item] => item.compact
  | item :: rest => item.compact ++ "," ++ compactItems rest

def compactMembers : List (String × Json) → String
  | [] => ""
  | [(name, value)] => quote name ++ ":" ++ value.compact
  | (name, value) :: rest => quote name ++ ":" ++ value.compact ++ "," ++ compactMembers rest
end

/-- A line break and the indentation of a level. -/
def newline (level : Nat) : String := "\n" ++ String.ofList (List.replicate (2 * level) ' ')

mutual
def prettyAt (level : Nat) : Json → String
  | arr [] => "[]"
  | arr items => "[" ++ prettyItems (level + 1) items ++ newline level ++ "]"
  | obj [] => "\x7b\x7d"
  | obj members => "\x7b" ++ prettyMembers (level + 1) members ++ newline level ++ "\x7d"
  | scalar => scalar.scalarText

def prettyItems (level : Nat) : List Json → String
  | [] => ""
  | [item] => newline level ++ item.prettyAt level
  | item :: rest => newline level ++ item.prettyAt level ++ "," ++ prettyItems level rest

def prettyMembers (level : Nat) : List (String × Json) → String
  | [] => ""
  | [(name, value)] => newline level ++ quote name ++ ": " ++ value.prettyAt level
  | (name, value) :: rest =>
    newline level ++ quote name ++ ": " ++ value.prettyAt level ++ "," ++
      prettyMembers level rest
end

def pretty (value : Json) : String := value.prettyAt 0

example : quote "a\"\\\n" = "\"a\\\"\\\\\\n\"" := by decide +kernel
example : (arr [int 1, float .one, arr []]).compact = "[1,1.0,[]]" := by decide +kernel
example : (arr [int 1, arr []]).pretty = "[\n  1,\n  []\n]" := by decide +kernel

end Json

end SchemaSampler
