import SchemaSampler.Pattern.CharacterTables

/-!
# Sets of characters

Characters are numbered without the gap of the surrogates, and a set is a list of ranges of
these numbers in increasing order, neither touching nor overlapping. So the characters of a set
are counted and enumerated range by range.
-/

namespace SchemaSampler

/-- The number of a code point among all characters. -/
def scalarIndex (code : Nat) : Nat := if code < 0xE000 then min code 0xD800 else code - 0x800

/-- The number of a character. -/
def charIndex (c : Char) : Nat := scalarIndex c.toNat

/-- The character with a number. -/
def charAt (index : Nat) : Char := Char.ofNat (if index < 0xD800 then index else index + 0x800)

/-- The greatest number of a character. -/
def lastIndex : Nat := 0x10F7FF

/-- Ranges of character numbers, both ends included. -/
structure Charset where
  ranges : List (Nat × Nat)
deriving DecidableEq, Repr

namespace Charset

def empty : Charset := ⟨[]⟩
def full : Charset := ⟨[(0, lastIndex)]⟩

/-- Adds a range to ranges in order, joining those that touch it. -/
def insertRange (low high : Nat) : List (Nat × Nat) → List (Nat × Nat)
  | [] => [(low, high)]
  | (first, last) :: rest =>
    if high + 1 < first then (low, high) :: (first, last) :: rest
    else if last + 1 < low then (first, last) :: insertRange low high rest
    else insertRange (min low first) (max high last) rest

/-- The set of the characters in any of the ranges; a range is empty when its end comes first. -/
def ofRanges (ranges : List (Nat × Nat)) : Charset :=
  ⟨ranges.foldl (fun all range =>
    if range.1 ≤ range.2 then insertRange range.1 range.2 all else all) []⟩

/-- The set of ranges of code points; the surrogates are left out. -/
def ofCodes (ranges : List (Nat × Nat)) : Charset :=
  ofRanges (ranges.filterMap fun (low, high) =>
    let first := scalarIndex low
    let last := if 0xD800 ≤ high && high < 0xE000 then 0xD7FF else scalarIndex high
    if first ≤ last then some (first, last) else none)

def range (low high : Char) : Charset := ofRanges [(charIndex low, charIndex high)]
def single (c : Char) : Charset := ⟨[(charIndex c, charIndex c)]⟩

def isEmpty (set : Charset) : Bool := set.ranges.isEmpty

def contains (set : Charset) (c : Char) : Bool :=
  let index := charIndex c
  set.ranges.any fun range => range.1 ≤ index && index ≤ range.2

def union (a b : Charset) : Charset :=
  ⟨b.ranges.foldl (fun all range => insertRange range.1 range.2 all) a.ranges⟩

/-- The ranges between those of a list, from `start` on. -/
def gaps (start : Nat) : List (Nat × Nat) → List (Nat × Nat)
  | [] => if start ≤ lastIndex then [(start, lastIndex)] else []
  | (first, last) :: rest =>
    if start < first then (start, first - 1) :: gaps (last + 1) rest else gaps (last + 1) rest

def complement (set : Charset) : Charset := ⟨gaps 0 set.ranges⟩

def intersection (a b : Charset) : Charset := (a.complement.union b.complement).complement

def difference (a b : Charset) : Charset := a.intersection b.complement

def symmetricDifference (a b : Charset) : Charset :=
  (a.difference b).union (b.difference a)

/-- How many characters are in the set. -/
def count (set : Charset) : Nat :=
  set.ranges.foldl (fun total range => total + (range.2 - range.1 + 1)) 0

/-- The character at a place of the enumeration of ranges. -/
def nth (place : Nat) : List (Nat × Nat) → Char
  | [] => Char.ofNat 0
  | (first, last) :: rest =>
    if place ≤ last - first then charAt (first + place) else nth (place - (last - first + 1)) rest

/-- The character at a place in the order of code points. -/
def get (set : Charset) (place : Nat) : Char := nth place set.ranges

/-- The only character of a set. -/
def single? (set : Charset) : Option Char :=
  match set.ranges with
  | [(first, last)] => if first = last then some (charAt first) else none
  | _ => none

/-! ## Named sets -/

def blank : Charset := ofCodes CharacterTables.blanks
def digit : Charset := ofCodes CharacterTables.digits
def word : Charset := ofCodes CharacterTables.words
def newline : Charset := single '\n'

/-- The ASCII classes that are written by name inside brackets. -/
def ascii? : String → Option Charset
  | "alnum" => some (ofCodes [(0x30, 0x39), (0x41, 0x5A), (0x61, 0x7A)])
  | "alpha" => some (ofCodes [(0x41, 0x5A), (0x61, 0x7A)])
  | "ascii" => some (ofCodes [(0, 0x7F)])
  | "blank" => some (ofCodes [(0x9, 0x9), (0x20, 0x20)])
  | "cntrl" => some (ofCodes [(0, 0x1F), (0x7F, 0x7F)])
  | "digit" => some (ofCodes [(0x30, 0x39)])
  | "graph" => some (ofCodes [(0x21, 0x7E)])
  | "lower" => some (ofCodes [(0x61, 0x7A)])
  | "print" => some (ofCodes [(0x20, 0x7E)])
  | "punct" => some (ofCodes [(0x21, 0x2F), (0x3A, 0x40), (0x5B, 0x60), (0x7B, 0x7E)])
  | "space" => some (ofCodes [(0x9, 0xD), (0x20, 0x20)])
  | "upper" => some (ofCodes [(0x41, 0x5A)])
  | "word" => some (ofCodes [(0x30, 0x39), (0x41, 0x5A), (0x5F, 0x5F), (0x61, 0x7A)])
  | "xdigit" => some (ofCodes [(0x30, 0x39), (0x41, 0x46), (0x61, 0x66)])
  | _ => none

/-! ## Letter case -/

/-- Code points as ranges of one. -/
def singles (codes : List Nat) : List (Nat × Nat) := codes.map fun code => (code, code)

/-- The members of a table row that meets a range of numbers, and their partners. -/
def casePartners (low high : Nat) (row : Nat × Nat × Nat × Nat) : List (Nat × Nat) :=
  let (first, last, step, distance) := row
  let lesser := (List.range ((last - first) / step + 1)).map fun place => first + place * step
  (lesser.filter fun code =>
    (low ≤ code && code ≤ high) || (low ≤ code + distance && code + distance ≤ high)).flatMap
    fun code => singles [code, code + distance]

/-- The code point of a character number. -/
def codeAt (index : Nat) : Nat := (charAt index).toNat

/-- The characters that differ from one in a range in case only. -/
def caseVariants (low high : Nat) : List (Nat × Nat) :=
  let meets (row : Nat × Nat × Nat × Nat) : Bool := row.1 ≤ high && low ≤ row.2.1 + row.2.2.2
  let groups := CharacterTables.caseGroups.filter fun group =>
    group.any fun code => low ≤ code && code ≤ high
  (CharacterTables.casePairs.filter meets).flatMap (casePartners low high) ++
    groups.flatMap singles

/-- The set with all case variants of its characters. -/
def foldCase (set : Charset) : Charset :=
  set.union (ofCodes (set.ranges.flatMap fun range =>
    caseVariants (codeAt range.1) (codeAt range.2)))

end Charset

end SchemaSampler
