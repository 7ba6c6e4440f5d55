import SchemaSampler.Pattern.Charset

/-!
# Patterns in normal form

A pattern describes a set of strings. The constructors `repeated`, `concat` and `alternation`
bring every pattern they build to a normal form:

* a set with one character is a literal, and neighbouring literals are one literal;
* a sequence holds neither empty parts nor sequences, an alternation no alternations;
* an alternation of single characters, or of sets, is a set;
* leading parts that all branches of an alternation share stand in front of it;
* what matches the empty string only is repeated at most once.
-/

namespace SchemaSampler

/-- A condition on a position. -/
inductive Look where
  | textStart | textEnd | lineStart | lineEnd
  | wordBoundary | noWordBoundary | wordStart | wordEnd
deriving DecidableEq, Repr

inductive Pattern where
  | empty
  | literal (chars : List Char)
  | set (chars : Charset)
  | look (condition : Look)
  | repetition (least : Nat) (most : Option Nat) (greedy : Bool) (inner : Pattern)
  /-- A capturing group with its number. -/
  | capture (number : Nat) (inner : Pattern)
  | sequence (parts : List Pattern)
  | choice (branches : List Pattern)
deriving Repr

namespace Pattern

instance : Inhabited Pattern := ⟨empty⟩

mutual
/-- The same pattern. -/
def beq : Pattern → Pattern → Bool
  | empty, empty => true
  | literal a, literal b => a == b
  | set a, set b => a == b
  | look a, look b => a == b
  | repetition least most greedy inner, repetition least' most' greedy' inner' =>
    least == least' && most == most' && greedy == greedy' && beq inner inner'
  | capture number inner, capture number' inner' => number == number' && beq inner inner'
  | sequence parts, sequence parts' => beqAll parts parts'
  | choice branches, choice branches' => beqAll branches branches'
  | _, _ => false

def beqAll : List Pattern → List Pattern → Bool
  | [], [] => true
  | a :: as, b :: bs => beq a b && beqAll as bs
  | _, _ => false
end

instance : BEq Pattern := ⟨beq⟩

mutual
/-- Nothing but the empty string can match. -/
def onlyEmpty : Pattern → Bool
  | empty => true
  | look _ => true
  | literal chars => chars.isEmpty
  | set _ => false
  | repetition _ most _ inner => most.isSome && inner.onlyEmpty
  | capture _ inner => inner.onlyEmpty
  | sequence parts => allOnlyEmpty parts
  | choice branches => allOnlyEmpty branches

def allOnlyEmpty : List Pattern → Bool
  | [] => true
  | part :: rest => part.onlyEmpty && allOnlyEmpty rest
end

/-! ## Normal forms -/

/-- A set of characters, a literal when there is only one. -/
def ofSet (chars : Charset) : Pattern :=
  match chars.single? with
  | some c => literal [c]
  | none => set chars

def repeated (least : Nat) (most : Option Nat) (greedy : Bool) (inner : Pattern) : Pattern :=
  let (least, most) :=
    if inner.onlyEmpty then (min least 1, some (min (most.getD 1) 1)) else (least, most)
  if most == some 0 then empty
  else if least == 1 && most == some 1 then inner
  else repetition least most greedy inner

/-- Puts a part in front of parts in normal form. -/
def prepend (part : Pattern) (parts : List Pattern) : List Pattern :=
  match part, parts with
  | empty, parts => parts
  | literal chars, literal chars' :: rest => literal (chars ++ chars') :: rest
  | part, parts => part :: parts

/-- The parts of a sequence, the pattern itself otherwise. -/
def partsOf : Pattern → List Pattern
  | sequence parts => parts
  | part => [part]

/-- One pattern after the other. -/
def concat (parts : List Pattern) : Pattern :=
  match (parts.flatMap partsOf).foldr prepend [] with
  | [] => empty
  | [part] => part
  | parts => sequence parts

/-- The branches of an alternation, the pattern itself otherwise. -/
def branchesOf : Pattern → List Pattern
  | choice branches => branches
  | branch => [branch]

/-- The set of a literal of one character. -/
def literalSet? : Pattern → Option Charset
  | literal [c] => some (.single c)
  | _ => none

def set? : Pattern → Option Charset
  | set chars => some chars
  | _ => none

/-- The union of the sets of all branches, when each has one. -/
def unionOf? (setOf? : Pattern → Option Charset) (branches : List Pattern) : Option Charset :=
  (branches.mapM setOf?).map fun sets => sets.foldl Charset.union .empty

/-- The parts of a sequence, nothing for other patterns. -/
def sequence? : Pattern → Option (List Pattern)
  | sequence parts => some parts
  | _ => none

/-- The longest common beginning of two lists. -/
def commonPrefix : List Pattern → List Pattern → List Pattern
  | a :: as, b :: bs => if a == b then a :: commonPrefix as bs else []
  | _, _ => []

/-- The leading parts that all branches share, when all branches are sequences. -/
def sharedParts (branches : List Pattern) : List Pattern :=
  match branches.mapM sequence? with
  | some (first :: rest) => rest.foldl commonPrefix first
  | _ => []

/-- The pattern without its first parts. -/
def dropParts (count : Nat) (branch : Pattern) : Pattern := concat (branch.partsOf.drop count)

mutual
/-- The number of nodes. -/
def size : Pattern → Nat
  | repetition _ _ _ inner => inner.size + 1
  | capture _ inner => inner.size + 1
  | sequence parts => totalSize parts + 1
  | choice branches => totalSize branches + 1
  | _ => 1

def totalSize : List Pattern → Nat
  | [] => 0
  | pattern :: rest => pattern.size + totalSize rest
end

/-- One of several patterns; the fuel bounds how often shared parts are factored out. -/
def alternationWithin : (fuel : Nat) → List Pattern → Pattern
  | fuel, branches =>
    match branches.flatMap branchesOf with
    | [] => set .empty
    | [branch] => branch
    | branches =>
      match unionOf? literalSet? branches, unionOf? set? branches with
      | some chars, _ => ofSet chars
      | none, some chars => ofSet chars
      | none, none =>
        match fuel, sharedParts branches with
        | fuel + 1, part :: shared =>
          let suffixes := branches.map (dropParts (shared.length + 1))
          concat (part :: shared ++ [alternationWithin fuel suffixes])
        | _, _ => choice branches

/-- One of several patterns. -/
def alternation (branches : List Pattern) : Pattern :=
  alternationWithin (totalSize branches) branches

end Pattern

end SchemaSampler
