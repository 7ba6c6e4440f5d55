import SchemaSampler.Pattern.Reader
import SchemaSampler.Random.ChaCha
import SchemaSampler.Random.Uniform

/-!
# Strings from patterns

`Pattern.bodyText` rewrites a pattern for synthesis: anchors at the ends of its top-level
alternatives are dropped, and `\d` and `\w` mean ASCII. A `Recipe` is what remains of the
pattern read from that text: it writes a string by drawing characters, branches and counts.
Each string is drawn from a source of its own, seeded by one word of the surrounding source.
-/

namespace SchemaSampler

/-! ## The text to synthesize -/

namespace Pattern

/-- Where a scan for top-level bars stands. -/
structure Scan where
  depth : Nat := 0
  inClass : Bool := false
  escaped : Bool := false

/-- The bar at this place separates alternatives. -/
def Scan.splits (scan : Scan) (c : Char) : Bool :=
  c == '|' && !scan.escaped && !scan.inClass && scan.depth == 0

def Scan.next (scan : Scan) (c : Char) : Scan :=
  if scan.escaped then { scan with escaped := false }
  else if c == '\\' then { scan with escaped := true }
  else if c == '[' && !scan.inClass then { scan with inClass := true }
  else if c == ']' && scan.inClass then { scan with inClass := false }
  else if c == '(' && !scan.inClass then { scan with depth := scan.depth + 1 }
  else if c == ')' && !scan.inClass then { scan with depth := scan.depth - 1 }
  else scan

/-- The alternatives between bars outside groups, classes and escapes. -/
def alternatives (scan : Scan) : List Char → List (List Char)
  | [] => [[]]
  | c :: rest =>
    if scan.splits c then [] :: alternatives (scan.next c) rest
    else
      match alternatives (scan.next c) rest with
      | [] => [[c]]
      | part :: parts => (c :: part) :: parts

/-- A dollar sign at the end is dropped unless an odd number of backslashes stands before it. -/
def dropEndAnchor (body : List Char) : List Char :=
  match body.reverse with
  | '$' :: before =>
    if (before.takeWhile fun c => c == '\\').length % 2 == 0 then before.reverse else body
  | _ => body

def stripAnchors : List Char → List Char
  | '^' :: body => dropEndAnchor body
  | body => dropEndAnchor body

/-- Writes the digit and word escapes as ASCII classes. -/
def narrowEscapes : List Char → List Char
  | [] => []
  | '\\' :: 'd' :: rest => "[0-9]".toList ++ narrowEscapes rest
  | '\\' :: 'w' :: rest => "[0-9A-Za-z_]".toList ++ narrowEscapes rest
  | '\\' :: c :: rest => '\\' :: c :: narrowEscapes rest
  | c :: rest => c :: narrowEscapes rest

/-- The text of a pattern whose full matches are synthesized. -/
def bodyText (text : String) : String :=
  let parts := (alternatives {} text.toList).map stripAnchors
  String.ofList (narrowEscapes (List.intercalate ['|'] parts))

example : bodyText "^a$|^b$" = "a|b" := by decide +kernel
example : bodyText "^(a|b)$" = "(a|b)" := by decide +kernel
example : bodyText "price\\$" = "price\\$" := by decide +kernel
example : bodyText "^\\d[|^]$" = "[0-9][|^]" := by decide +kernel

end Pattern

/-! ## Recipes -/

/-- How often a recipe is carried out: a constant times drawn counts. -/
structure Factor where
  constant : Nat := 1
  counts : List (Nat × Nat) := []
deriving DecidableEq, Repr

def Factor.isOne (factor : Factor) : Bool := factor.constant == 1 && factor.counts.isEmpty

/-- Repeats `least` to `most` times on top. -/
def Factor.times (factor : Factor) (least most : Nat) : Factor :=
  if least = most then { factor with constant := factor.constant * least }
  else { factor with counts := factor.counts ++ [(least, most)] }

/-- Draws the counts in order and multiplies. -/
def Factor.drawFrom (product : Nat) : List (Nat × Nat) → Random Nat
  | [] => pure product
  | (least, most) :: rest => do
    let extra ← Random.unbiased .single (most - least + 1)
    Factor.drawFrom (product * (least + extra)) rest

def Factor.draw (factor : Factor) : Random Nat := Factor.drawFrom factor.constant factor.counts

inductive Recipe where
  | literal (factor : Factor) (chars : List Char)
  | set (factor : Factor) (chars : Charset)
  | sequence (factor : Factor) (parts : List Recipe)
  | choice (factor : Factor) (branches : List Recipe)
deriving Repr

namespace Recipe

instance : Inhabited Recipe := ⟨literal {} []⟩

def nothing : Recipe := literal {} []

def repeated (least most : Nat) : Recipe → Recipe
  | literal factor chars => literal (factor.times least most) chars
  | set factor chars => set (factor.times least most) chars
  | sequence factor parts => sequence (factor.times least most) parts
  | choice factor branches => choice (factor.times least most) branches

def writesNothing : Recipe → Bool
  | literal factor chars => factor.isOne && chars.isEmpty
  | _ => false

/-- A sequence without its empty parts; a single part stands for itself. -/
def ofParts (parts : List Recipe) : Recipe :=
  match parts.filter fun part => !part.writesNothing with
  | [] => nothing
  | [part] => part
  | parts => sequence {} parts

/-- The branches of an unrepeated choice, the recipe itself otherwise. -/
def branchesOf : Recipe → List Recipe
  | choice factor branches => if factor.isOne then branches else [choice factor branches]
  | branch => [branch]

def ofBranches (branches : List Recipe) : Recipe :=
  match branches.flatMap branchesOf with
  | [branch] => branch
  | branches => choice {} branches

mutual
/-- The recipe of a pattern; open repetitions add at most `maxRepeat`. Conditions on positions
and sets without characters have no recipe. -/
def ofPattern? (maxRepeat : Nat) : Pattern → Option Recipe
  | .empty => some nothing
  | .literal chars => some (literal {} chars)
  | .set chars => if chars.isEmpty then none else some (set {} chars)
  | .look _ => none
  | .repetition least most _ inner =>
    let most := most.getD (least + maxRepeat)
    if most = 0 then some nothing
    else (ofPattern? maxRepeat inner).map (repeated least most)
  | .capture _ inner => ofPattern? maxRepeat inner
  | .sequence parts => (ofPatterns? maxRepeat parts).map ofParts
  | .choice branches => (ofPatterns? maxRepeat branches).map ofBranches

def ofPatterns? (maxRepeat : Nat) : List Pattern → Option (List Recipe)
  | [] => some []
  | pattern :: rest =>
    match ofPattern? maxRepeat pattern, ofPatterns? maxRepeat rest with
    | some recipe, some recipes => some (recipe :: recipes)
    | _, _ => none
end

/-- Carries out a writer a number of times. -/
def repeatWriter (write : String → Random String) : Nat → String → Random String
  | 0, text => pure text
  | count + 1, text => do
    let text ← write text
    repeatWriter write count text

/-- Draws a character of a set. -/
def writeChar (chars : Charset) (text : String) : Random String := do
  let place ← Random.unbiased .single chars.count
  pure (text.push (chars.get place))

mutual
/-- Writes after a text. -/
def write (text : String) : Recipe → Random String
  | literal factor chars => do
    let count ← factor.draw
    repeatWriter (fun text => pure (text ++ String.ofList chars)) count text
  | set factor chars => do
    let count ← factor.draw
    repeatWriter (writeChar chars) count text
  | sequence factor parts => do
    let count ← factor.draw
    repeatWriter (fun text => writeParts text parts) count text
  | choice factor branches => do
    let count ← factor.draw
    repeatWriter (fun text => do
      let place ← Random.unbiased .single branches.length
      writeBranch text place branches) count text

def writeParts (text : String) : List Recipe → Random String
  | [] => pure text
  | part :: rest => do
    let text ← write text part
    writeParts text rest

/-- Writes the branch at a place. -/
def writeBranch (text : String) : Nat → List Recipe → Random String
  | _, [] => pure text
  | 0, branch :: _ => write text branch
  | place + 1, _ :: rest => writeBranch text place rest
end

end Recipe

/-- A pattern with the recipe for strings that match it. -/
structure Synthesizer where
  pattern : String
  recipe : Recipe
deriving Repr

namespace Synthesizer

/-- Nothing when the pattern is no regular expression or has no recipe. -/
def ofPattern? (pattern : String) (maxRepeat : Nat) : Option Synthesizer := do
  let body ← Pattern.read? (Pattern.bodyText pattern)
  let recipe ← Recipe.ofPattern? maxRepeat body
  some ⟨pattern, recipe⟩

/-- A string from a source that one word of the surrounding source seeds. -/
def draw (synthesizer : Synthesizer) : Random String := do
  let seed ← Random.word64
  pure (synthesizer.recipe.write "" (Source.ofSeed seed)).1

end Synthesizer

end SchemaSampler
