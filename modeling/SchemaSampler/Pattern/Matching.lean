import SchemaSampler.Pattern.Reader

/-!
# Matching

`Pattern.ends` maps a set of positions to the positions where a match that starts at one of
them may end. A text matches a pattern when some part of it does, and matches it in full when
the whole text does.
-/

namespace SchemaSampler

/-- The characters of a text by position. -/
abbrev Subject := Array Char

/-- A set of positions without repetitions. -/
abbrev Positions := List Nat

namespace Positions

def union (a b : Positions) : Positions := a ++ b.filter fun position => !a.contains position

/-- The positions that `step` reaches in at most `fuel` rounds, with the ones reached before. -/
def reach (step : Positions → Positions) :
    (fuel : Nat) → (frontier reached : Positions) → Positions
  | 0, _, reached => reached
  | fuel + 1, frontier, reached =>
    match (step frontier).filter fun position => !reached.contains position with
    | [] => reached
    | next => reach step fuel next (reached ++ next)

/-- The positions after a number of steps. -/
def iterate (step : Positions → Positions) : Nat → Positions → Positions
  | 0, positions => positions
  | _ + 1, [] => []
  | count + 1, positions => iterate step count (step positions)

end Positions

/-! ## Conditions on positions -/

def Subject.before? (subject : Subject) (position : Nat) : Option Char :=
  if position = 0 then none else subject[position - 1]?

def isWordChar (c : Option Char) : Bool := (c.map Charset.word.contains).getD false

def Look.holds (subject : Subject) (position : Nat) : Look → Bool
  | .textStart => position == 0
  | .textEnd => position == subject.size
  | .lineStart => position == 0 || subject.before? position == some '\n'
  | .lineEnd => position == subject.size || subject[position]? == some '\n'
  | .wordBoundary => isWordChar (subject.before? position) != isWordChar subject[position]?
  | .noWordBoundary => isWordChar (subject.before? position) == isWordChar subject[position]?
  | .wordStart => !isWordChar (subject.before? position) && isWordChar subject[position]?
  | .wordEnd => isWordChar (subject.before? position) && !isWordChar subject[position]?

namespace Pattern

/-! ## Ends of matches -/

/-- The characters stand at a position of the subject. -/
def standsAt (subject : Subject) : List Char → Nat → Bool
  | [], _ => true
  | c :: rest, position => subject[position]? == some c && standsAt subject rest (position + 1)

def inSet (chars : Charset) : Option Char → Bool
  | some c => chars.contains c
  | none => false

mutual
def ends (subject : Subject) (starts : Positions) : Pattern → Positions
  | empty => starts
  | literal chars =>
    (starts.filter (standsAt subject chars)).map fun position => position + chars.length
  | set chars => (starts.filter fun position => inSet chars subject[position]?).map (· + 1)
  | look condition => starts.filter fun position => condition.holds subject position
  | repetition least most _ inner =>
    let step (positions : Positions) : Positions := ends subject positions inner
    let first := Positions.iterate step least starts
    let rounds := match most with
      | some most => min (most - least) (subject.size + 1)
      | none => subject.size + 1
    Positions.reach step rounds first first
  | capture _ inner => ends subject starts inner
  | sequence parts => sequenceEnds subject starts parts
  | choice branches => choiceEnds subject starts branches

def sequenceEnds (subject : Subject) (starts : Positions) : List Pattern → Positions
  | [] => starts
  | part :: rest => sequenceEnds subject (ends subject starts part) rest

def choiceEnds (subject : Subject) (starts : Positions) : List Pattern → Positions
  | [] => []
  | branch :: rest =>
    Positions.union (ends subject starts branch) (choiceEnds subject starts rest)
end

/-- Some part of the text matches. -/
def isMatch (pattern : Pattern) (text : String) : Bool :=
  let subject := text.toList.toArray
  !(pattern.ends subject (List.range (subject.size + 1))).isEmpty

end Pattern

end SchemaSampler
