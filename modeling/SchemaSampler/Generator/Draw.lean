import SchemaSampler.Generator.Basic
import SchemaSampler.Generator.Ranges
import SchemaSampler.Hoist

/-!
# Draws

A draw reads a random source and keeps track of how many references it is inside. It gives a
value or an error, and in both cases the state that it left.

`Generator.drawWith` carries out one generator; what a reference expands to is a parameter.
`Generator.drawWithin` ties the knot: every expansion spends one from the budget that the
depth limit leaves, so draws end also when definitions refer to themselves.
-/

namespace SchemaSampler

/-- The state of a draw: the source and the number of references being expanded. -/
structure Cursor where
  source : Source
  depth : Nat := 0

/-- A computation on the state of a draw that may fail; an error keeps the state it left. -/
def Draw (α : Type) : Type := Cursor → Except SampleError α × Cursor

namespace Draw

variable {α β : Type}

def pure (value : α) : Draw α := fun cursor => (.ok value, cursor)

def bind (draw : Draw α) (next : α → Draw β) : Draw β := fun cursor =>
  match draw cursor with
  | (.ok value, cursor) => next value cursor
  | (.error error, cursor) => (.error error, cursor)

instance : Monad Draw where
  pure := Draw.pure
  bind := Draw.bind

def fail (error : SampleError) : Draw α := fun cursor => (.error error, cursor)

def ofRandom (random : Random α) : Draw α := fun cursor =>
  let (value, source) := random cursor.source
  (.ok value, { cursor with source })

def ofExcept : Except SampleError α → Draw α
  | .ok value => pure value
  | .error error => fail error

def depth : Draw Nat := fun cursor => (.ok cursor.depth, cursor)

/-- Runs a draw one reference deeper. -/
def deeper (draw : Draw α) : Draw α := fun cursor =>
  match draw { cursor with depth := cursor.depth + 1 } with
  | (result, ⟨source, depth + 1⟩) => (result, ⟨source, depth⟩)
  | (_, ⟨source, 0⟩) => (.error (.defect .depthBelowZero), ⟨source, 0⟩)

/-! ## Random draws with a checked range -/

def position (count : Nat) : Draw Nat :=
  if count = 0 then fail (.defect .emptyRange) else ofRandom (Random.position count)

def size (low high : Nat) : Draw Nat :=
  if high < low then fail (.defect .emptyRange) else ofRandom (Random.size low high)

def integer (low high : Int) : Draw Int :=
  if high < low then fail (.defect .emptyRange) else ofRandom (Random.integer low high)

def float (low high : Binary64) : Draw Binary64 :=
  if low.le high && (high.sub low).isFinite then ofRandom (Random.float low high)
  else fail (.defect .emptyRange)

/-- The item at a place. -/
def item (items : List α) (place : Nat) : Draw α :=
  match items[place]? with
  | some value => pure value
  | none => fail (.defect .indexOutside)

/-! ## Repetition -/

/-- The values of consecutive draws, added in reverse to those before. -/
def manyOnto (draw : Draw α) : Nat → List α → Draw (List α)
  | 0, values => pure values
  | count + 1, values => do
    let value ← draw
    manyOnto draw count (value :: values)

/-- The values of a number of consecutive draws. -/
def many (draw : Draw α) (count : Nat) : Draw (List α) := do
  let values ← manyOnto draw count []
  pure values.reverse

end Draw

/-! ## Scalars -/

/-- The characters of unconstrained strings. -/
def alphabet : Array Char :=
  ("abcdefghijklmnopqrstuvwxyzABCDEFGHIJKLMNOPQRSTUVWXYZ0123456789 _-.,!?\"'\\/\x7b\x7d[]\n\t" ++
    "éßñλЖ中文€😀").toList.toArray

def drawChars : Nat → String → Draw String
  | 0, text => pure text
  | count + 1, text => do
    let place ← Draw.position alphabet.size
    match alphabet[place]? with
    | some c => drawChars count (text.push c)
    | none => Draw.fail (.defect .indexOutside)

/-- A string of at most `maxLength` characters. -/
def drawText (maxLength : Nat) : Draw String := do
  let length ← Draw.size 0 maxLength
  drawChars length ""

/-- A float as a JSON number, which has to be finite. -/
def finiteNumber (value : Binary64) : Draw Json :=
  if value.isFinite then pure (.float value)
  else Draw.fail (.invalidSchema (.unrepresentable value))

/-- A multiple of a step; a whole number that fits becomes an integer. -/
def drawWholeMultiple (multiples : Multiples) : Draw Json := do
  let factor ← Draw.integer multiples.least multiples.most
  let value := multiples.value factor
  if value.isWhole && value.abs.lt (Binary64.ofInt signBit) then pure (.int value.toInt64)
  else finiteNumber value

def drawInteger (low high : Int) : Option Multiples → Draw Json
  | none => do
    let value ← Draw.integer low high
    pure (.int value)
  | some multiples => drawWholeMultiple multiples

def drawNumber (low high : Binary64) : Option Multiples → Draw Json
  | some multiples => do
    let factor ← Draw.integer multiples.least multiples.most
    finiteNumber (multiples.value factor)
  | none =>
    if low.same high then finiteNumber low
    else do
      let value ← Draw.float low high
      finiteNumber value

/-! ## Arbitrary values -/

/-- The bounds of arbitrary floats. -/
def arbitraryFloatMin : Binary64 := Binary64.ofInt (-1000000)
def arbitraryFloatMax : Binary64 := Binary64.ofInt 1000000

/-- A scalar of one of five kinds. -/
def drawScalar (maxLength : Nat) : Nat → Draw Json
  | 0 => pure .null
  | 1 => do
    let value ← Draw.ofRandom Random.coin
    pure (.bool value)
  | 2 => do
    let value ← Draw.integer NumericBounds.defaultIntegerMin NumericBounds.defaultIntegerMax
    pure (.int value)
  | 3 => do
    let value ← Draw.float arbitraryFloatMin arbitraryFloatMax
    pure (if value.isFinite then .float value else .null)
  | _ => do
    let text ← drawText maxLength
    pure (.str text)

/-- Members with drawn keys, added to those before; synthetic keys are skipped. -/
def drawMembers (keys : SyntheticKeys) (maxLength : Nat) (value : Draw Json) :
    Nat → Entries Json → Draw Json
  | 0, members => pure (.obj members)
  | count + 1, members => do
    let key ← drawText maxLength
    if keys.contains key then drawMembers keys maxLength value count members
    else do
      let member ← value
      drawMembers keys maxLength value count (Entries.insert key member members)

/-- The number of kinds of scalars, and of all values. -/
def scalarKinds : Nat := 5
def valueKinds : Nat := 7

/-- Any value of at most the given depth; only scalars when recursion winds down. -/
def drawArbitrary (options : Options) (maxEntries maxLength : Nat) : (depth : Nat) → Draw Json
  | 0 => do
    let kind ← Draw.position scalarKinds
    if kind < scalarKinds then drawScalar maxLength kind
    else Draw.fail (.defect .depthBelowZero)
  | depth + 1 => do
    let inside ← Draw.depth
    let kind ← Draw.position
      (if options.limits.windDownDepth ≤ inside then scalarKinds else valueKinds)
    if kind < scalarKinds then drawScalar maxLength kind
    else if kind = scalarKinds then do
      let length ← Draw.size 0 maxEntries
      let items ← Draw.many (drawArbitrary options maxEntries maxLength depth) length
      pure (.arr items)
    else do
      let length ← Draw.size 0 maxEntries
      drawMembers options.keys maxLength (drawArbitrary options maxEntries maxLength depth)
        length []

/-! ## Collections -/

/-- The form in which distinct items are compared: whole floats become integers. -/
def wholeFloat (value : Binary64) : Json :=
  if value.isWhole && value.abs.lt (Binary64.ofInt signBit) then .int value.toInt64
  else .float value

mutual
def uniqueKey : Json → Json
  | .float value => wholeFloat value
  | .arr items => .arr (uniqueKeys items)
  | .obj members => .obj (uniqueMembers members)
  | value => value

def uniqueKeys : List Json → List Json
  | [] => []
  | item :: rest => uniqueKey item :: uniqueKeys rest

def uniqueMembers : List (String × Json) → List (String × Json)
  | [] => []
  | (name, value) :: rest => (name, uniqueKey value) :: uniqueMembers rest
end

/-- The text of an exhausted set. -/
def uniqueFragment (length : Nat) : String :=
  "uniqueItems with at least " ++ toString length ++ " items"

/-- Draws until `needed` more distinct items are found; fewer than `spare` repetitions are
tolerated, of which there is at least one. -/
def drawDistinct (options : Options) (item : Draw Json) (length : Nat) :
    (needed spare : Nat) → (seen found : List Json) → Draw Json
  | 0, _, _, found => pure (.arr found.reverse)
  | _ + 1, 0, _, _ =>
    Draw.fail (.exhausted options.limits.maxAttempts (uniqueFragment length))
  | needed + 1, spare + 1, seen, found => do
    let candidate ← item
    let key := uniqueKey (hoist options.keys candidate)
    if seen.contains key then drawDistinct options item length (needed + 1) spare seen found
    else drawDistinct options item length needed (spare + 1) (key :: seen) (candidate :: found)
termination_by needed spare => needed + spare

/-- Entries with drawn keys, added to those before; keys that are not admitted are dropped. -/
def drawEntries (admits : String → Bool) (key value : Draw Json) :
    Nat → Entries Json → Draw Json
  | 0, members => pure (.obj members)
  | count + 1, members => do
    match ← key with
    | .str name =>
      if admits name then do
        let member ← value
        drawEntries admits key value count (Entries.insert name member members)
      else drawEntries admits key value count members
    | _ => drawEntries admits key value count members

/-- A drawn key may enter a dictionary. -/
def admitsKey (options : Options) (reserved : List String) (excluded : List Pattern)
    (name : String) : Bool :=
  !reserved.contains name && !options.keys.contains name &&
    !excluded.any fun pattern => pattern.isMatch name

/-- Draws until a value is accepted, as often as attempts are left. -/
def drawAccepted (inner : Draw Json) (accepts : Json → Bool) (exhausted : SampleError) :
    (attempts : Nat) → Draw Json
  | 0 => Draw.fail exhausted
  | attempts + 1 => do
    let candidate ← inner
    if accepts candidate then pure candidate
    else drawAccepted inner accepts exhausted attempts

/-! ## Generators -/

/-- Recursion is deep enough for the smallest shapes. -/
def windingDown (options : Options) : Draw Bool := do
  let depth ← Draw.depth
  pure (decide (options.limits.windDownDepth ≤ depth))

/-- The size of a collection, the least one when recursion winds down. -/
def drawSize (options : Options) (least most : Nat) : Draw Nat := do
  if ← windingDown options then pure least else Draw.size least most

/-- The alternative to draw from. -/
def drawPlace (options : Options) (count : Nat) : Option Nat → Draw Nat
  | some minimal => do
    if ← windingDown options then pure minimal else Draw.position count
  | none => Draw.position count

namespace Generator

mutual
/-- Draws a value; `expand` draws from the definition in a slot. -/
def drawWith (options : Options) (expand : Nat → Draw Json) : Generator → Draw Json
  | constant value => pure value
  | boolean => do
    let value ← Draw.ofRandom Random.coin
    pure (.bool value)
  | enumeration _ values => do
    let place ← Draw.position values.length
    Draw.item values place
  | integer low high multiples => drawInteger low high multiples
  | number low high multiples => drawNumber low high multiples
  | text maxLength => do
    let text ← drawText maxLength
    pure (.str text)
  | pattern synthesizer => do
    let text ← Draw.ofRandom synthesizer.draw
    pure (.str text)
  | choice _ alternatives minimal => do
    let place ← drawPlace options alternatives.length minimal
    drawNth options expand place alternatives
  | array items minItems maxItems unique => do
    let length ← drawSize options minItems maxItems
    if unique then
      drawDistinct options (drawWith options expand items) length length
        (max 1 options.limits.maxAttempts) [] []
    else do
      let values ← Draw.many (drawWith options expand items) length
      pure (.arr values)
  | tuple items => do
    let values ← drawAll options expand items
    pure (.arr values)
  | record fields => drawFields options expand [] fields
  | dictionary keys values maxEntries reserved excluded => do
    let count ← drawSize options 0 maxEntries
    drawEntries (admitsKey options reserved excluded) (drawWith options expand keys)
      (drawWith options expand values) count []
  | arbitrary depth maxEntries maxLength => drawArbitrary options maxEntries maxLength depth
  | filter inner fragment accepts =>
    drawAccepted (drawWith options expand inner) accepts
      (.exhausted options.limits.maxAttempts fragment) options.limits.maxAttempts
  | map inner apply => do
    let value ← drawWith options expand inner
    pure (apply value)
  | reference _ slot => expand slot
  | closure draw => Draw.ofRandom draw

/-- Draws from the alternative at a place. -/
def drawNth (options : Options) (expand : Nat → Draw Json) : Nat → List Generator → Draw Json
  | _, [] => Draw.fail (.defect .indexOutside)
  | 0, alternative :: _ => drawWith options expand alternative
  | place + 1, _ :: rest => drawNth options expand place rest

def drawAll (options : Options) (expand : Nat → Draw Json) :
    List Generator → Draw (List Json)
  | [] => pure []
  | item :: rest => do
    let value ← drawWith options expand item
    let values ← drawAll options expand rest
    pure (value :: values)

/-- Draws the fields in order; of equal names the last one stays. -/
def drawFields (options : Options) (expand : Nat → Draw Json) (members : Entries Json) :
    List (String × Generator) → Draw Json
  | [] => pure (.obj members)
  | (name, field) :: rest => do
    let value ← drawWith options expand field
    drawFields options expand (Entries.insert name value members) rest
end

/-- The generators of all slots. -/
abbrev Bodies := List Generator

def bodyIn (bodies : Bodies) (slot : Nat) : Except SampleError Generator :=
  match bodies[slot]? with
  | some body => .ok body
  | none => .error (.unboundDefinition ("slot " ++ toString slot))

/-- Draws a value with at most `budget` references inside each other. -/
def drawWithin (options : Options) (bodies : Bodies) : (budget : Nat) → Generator → Draw Json
  | 0 => drawWith options fun _ => Draw.fail (.recursionLimit options.limits.maxDepth)
  | budget + 1 => drawWith options fun slot => do
    let body ← Draw.ofExcept (bodyIn bodies slot)
    Draw.deeper (drawWithin options bodies budget body)

/-- Draws a value; the depth of the state counts against the depth limit. -/
def draw (options : Options) (bodies : Bodies) (generator : Generator) : Draw Json :=
  fun cursor => drawWithin options bodies (options.limits.maxDepth - cursor.depth) generator cursor

end Generator

end SchemaSampler
