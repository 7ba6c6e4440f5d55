import SchemaSampler.Catalog
import SchemaSampler.Definitions
import SchemaSampler.Generator.Numeric
import SchemaSampler.Schema.Document
import SchemaSampler.Subsets
import SchemaSampler.Validity.MetaSchema

/-!
# From schemas to generators

`Compiler.compile` maps a node to its generator. A reference becomes the slot of its target, so
compilation never follows one. An object becomes a choice among records, one for every set of
optional properties that its dependencies allow; smaller sets come first.
-/

namespace SchemaSampler

/-- What nodes are compiled against. -/
structure Compiler where
  binder : Binder
  options : Options
  /-- The definitions as JSON, for the validators of negations. -/
  definitions : Json
  registry : Registry

abbrev Compiled := Except SampleError Generator

/-- A rule that a schema breaks, as a sampling error. -/
def Except.asInvalid {α : Type} : Except InvalidReason α → Except SampleError α
  | .ok value => .ok value
  | .error reason => .error (.invalidSchema reason)

namespace Compiler

/-- A generator of any JSON value within the limits. -/
def arbitrary (compiler : Compiler) : Generator :=
  let limits := compiler.options.limits
  .arbitrary limits.arbitraryDepth limits.maxEntries limits.maxStringLength

/-- A pattern comes before a catalog, and a catalog before free text. -/
def text (compiler : Compiler) (spec : TextSpec) : Except InvalidReason Generator :=
  match spec.pattern, spec.faker with
  | some pattern, _ => Generator.patternOf pattern compiler.options.limits.maxRepeat
  | none, some provider => Generator.catalogOf provider compiler.options
  | none, none => .ok (.text compiler.options.limits.maxStringLength)

/-- Without an upper bound, lengths reach the limit, or the lower bound beyond it. -/
def list (compiler : Compiler) (bounds : ListBounds) (items : Generator) : Compiled :=
  let minItems := bounds.minItems.getD 0
  let maxItems := bounds.maxItems.getD (max compiler.options.limits.maxItems minItems)
  Except.asInvalid (Generator.arrayOf items minItems maxItems bounds.unique)

/-- The schema that a negation is checked against. -/
def negatedSchema (compiler : Compiler) (source : Json) : Json :=
  Json.object [("allOf", .arr [source]), ("definitions", compiler.definitions)]

/-- Arbitrary values that are not valid. -/
def negation (compiler : Compiler) (source : Json) : Compiled :=
  match Validator.ofSchema? (compiler.negatedSchema source) with
  | some validator => .ok (.filter compiler.arbitrary ("not " ++ source.compact)
      fun value => !validator.isValid value)
  | none => .error .noValidator

/-- The key of a member of an `allOf` container, of at least four digits. -/
def memberKey (place : Nat) : String :=
  let digits := toString place
  Binary64.zeros (4 - digits.length) ++ digits

def memberFields : (place : Nat) → List Generator → List (String × Generator)
  | _, [] => []
  | place, member :: rest => (memberKey place, member) :: memberFields (place + 1) rest

/-- The members are drawn into a container under a synthetic key. -/
def merged (compiler : Compiler) (members : List Generator) : Generator :=
  .record [(compiler.options.keys.allOf, .record (memberFields 0 members))]

/-! ## Objects -/

/-- Whatever a present key depends on is present. -/
def dependenciesHold (dependencies : Entries (List String)) (keys : List String) : Bool :=
  keys.all fun key =>
    match dependencies.get? key with
    | some names => names.all fun name => keys.contains name
    | none => true

/-- The sets of optional properties that may join the required ones, smaller sets first. -/
def propertySets (dependencies : Entries (List String)) (required optional : List String) :
    List (List String) :=
  let allowed := (subsets optional).filter fun subset =>
    dependenciesHold dependencies (required ++ subset)
  allowed.mergeSort fun a b => a.length ≤ b.length

/-- The error of an object without a dependency-closed set of keys. -/
def noPropertySet (required : List String) (dependencies : Entries (List String)) : SampleError :=
  .unsupported ⟨.noPropertySubset, Json.object [("required", Json.strings required),
    ("dependencies", .obj (dependencies.map fun (key, names) => (key, Json.strings names)))]⟩

/-- An object over compiled inner schemas, of which some may have failed. -/
structure ObjectParts where
  properties : List (String × Compiled)
  required : List String
  /-- The values of additional properties, when they are allowed. -/
  additional : Option Compiled
  patterns : List (String × Compiled)
  dependencies : Entries (List String)

namespace ObjectParts

/-- The names that `required` adds to the declared properties. -/
def undeclared (parts : ObjectParts) (required : List String) : List String :=
  required.filter fun key => !Entries.has parts.properties key

/-- The patterns as matchers. -/
def matchers : List (String × Compiled) → Except SampleError (List (String × Pattern))
  | [] => .ok []
  | (text, _) :: rest =>
    match Pattern.read? text with
    | some pattern => do
      let others ← matchers rest
      pure ((text, pattern) :: others)
    | none => .error (.invalidSchema (.badPattern text))

/-- A dictionary for every pattern, whose keys match no other one. -/
def groups (options : Options) (reserved : List String) (matchers : List (String × Pattern)) :
    List (String × Compiled) → Except SampleError (List (String × Generator))
  | [] => .ok []
  | (text, values) :: rest => do
    let keys ← Except.asInvalid (Generator.patternOf text options.limits.maxRepeat)
    let values ← values
    let excluded := (matchers.filter fun matcher => matcher.1 != text).map Prod.snd
    let others ← groups options reserved matchers rest
    pure ((text, .dictionary keys values options.limits.maxEntries reserved excluded) :: others)

/-- The dictionary of additional properties, whose keys match no pattern. -/
def additionalEntries (options : Options) (reserved : List String)
    (matchers : List (String × Pattern)) (values : Generator) : Generator :=
  .dictionary (.text options.limits.maxStringLength) values options.limits.maxEntries reserved
    (matchers.map Prod.snd)

/-- The record of a set of keys with the containers of dynamic keys. -/
def record (fields containers : List (String × Generator)) (keys : List String) : Generator :=
  .record ((keys.filterMap fun key => (Entries.get? fields key).map fun field => (key, field)) ++
    containers)

end ObjectParts

/-- The values of additional properties, evaluated before the declared ones. -/
def optionally : Option Compiled → Except SampleError (Option Generator)
  | none => .ok none
  | some (.ok generator) => .ok (some generator)
  | some (.error error) => .error error

def allCompiled : List (String × Compiled) → Except SampleError (List (String × Generator))
  | [] => .ok []
  | (key, compiled) :: rest => do
    let generator ← compiled
    let others ← allCompiled rest
    pure ((key, generator) :: others)

/-- The generator of an object. -/
def object (compiler : Compiler) (parts : ObjectParts) : Compiled := do
  let options := compiler.options
  let required := parts.required.eraseDups
  let optional := (Entries.names parts.properties).filter fun key => !required.contains key
  let sets := propertySets parts.dependencies required optional
  if sets.isEmpty then .error (noPropertySet parts.required parts.dependencies)
  else
    let additional ← optionally parts.additional
    let declared ← allCompiled parts.properties
    let extra := (parts.undeclared required).map fun key =>
      (key, additional.getD compiler.arbitrary)
    let fields := declared ++ extra
    let reserved := Entries.names fields
    let matchers ← ObjectParts.matchers parts.patterns
    let groups ← ObjectParts.groups options reserved matchers parts.patterns
    let additionalContainer := match additional with
      | some values => [(options.keys.additionalProperties,
          ObjectParts.additionalEntries options reserved matchers values)]
      | none => []
    let patternContainer :=
      if groups.isEmpty then [] else [(options.keys.patternProperties, .record groups)]
    let records := sets.map fun subset =>
      ObjectParts.record fields (additionalContainer ++ patternContainer) (required ++ subset)
    match records with
    | [record] => pure record
    | records => Except.asInvalid (Generator.choiceOf "structural.object" records (some 0))

/-! ## Nodes -/

/-- The first alternative without references. -/
def minimalPlace (alternatives : List Node) : Option Nat :=
  alternatives.findIdx? fun node => !node.hasReferences

/-- A choice of one alternative. -/
def alternative (label : String) (nodes : List Node) (alternatives : List Generator) : Compiled :=
  Except.asInvalid (Generator.choiceOf label alternatives (minimalPlace nodes))

mutual
def compile (compiler : Compiler) : Node → Compiled
  | .null => .ok (.constant .null)
  | .boolean => .ok .boolean
  | .constant value => .ok (.constant value)
  | .enumeration _ values =>
    Except.asInvalid (Generator.enumerationOf "primitive.enum" values)
  | .integer bounds => Except.asInvalid (Generator.integerOf bounds)
  | .number bounds => Except.asInvalid (Generator.numberOf bounds)
  | .text spec => Except.asInvalid (compiler.text spec)
  | .reference pointer =>
    match compiler.binder.resolve pointer with
    | .ok slot => .ok (.reference pointer slot)
    | .error error => .error error
  | .list items bounds =>
    match compile compiler items with
    | .ok items => compiler.list bounds items
    | .error error => .error error
  | .tuple items =>
    match compileAll compiler items with
    | .ok items => .ok (.tuple items)
    | .error error => .error error
  | .object spec => compileSpec compiler spec
  | .anyOf members =>
    match compileAll compiler members with
    | .ok alternatives => alternative "structural.any_of" members alternatives
    | .error error => .error error
  | .oneOf members =>
    match compileAll compiler members with
    | .ok alternatives => alternative "structural.one_of" members alternatives
    | .error error => .error error
  | .allOf members =>
    match compileAll compiler members with
    | .ok members => .ok (compiler.merged members)
    | .error error => .error error
  | .negation _ source => compiler.negation source
  | .custom name => compiler.registry.find name
  | .anything => .ok compiler.arbitrary
termination_by structural node => node

/-- Compiles nodes in order, up to the first error. -/
def compileAll (compiler : Compiler) : List Node → Except SampleError (List Generator)
  | [] => .ok []
  | node :: rest =>
    match compile compiler node, compileAll compiler rest with
    | .ok generator, .ok others => .ok (generator :: others)
    | .error error, _ => .error error
    | .ok _, .error error => .error error
termination_by structural nodes => nodes

def compileEntries (compiler : Compiler) : List (String × Node) → List (String × Compiled)
  | [] => []
  | (key, node) :: rest => (key, compile compiler node) :: compileEntries compiler rest
termination_by structural entries => entries

def compileAdditional (compiler : Compiler) : Additional Node → Option Compiled
  | .absent => none
  | .forbidden => none
  | .anything => some (.ok compiler.arbitrary)
  | .schema node => some (compile compiler node)
termination_by structural additional => additional

def compileSpec (compiler : Compiler) : ObjectSpec Node → Compiled
  | ⟨properties, required, additional, patterns, dependencies, _⟩ =>
    compiler.object {
      properties := compileEntries compiler properties
      required
      additional := compileAdditional compiler additional
      patterns := compileEntries compiler patterns
      dependencies }
termination_by structural spec => spec
end

end Compiler

/-! ## Documents -/

namespace Document

/-- A binder with a slot for every name, in order. -/
def registerAll (binder : Binder) (names : List String) : Binder :=
  names.foldl (fun binder name => (binder.register name).2) binder

/-- Compiles definitions in order and fills the slots of their names. -/
def fillAll (compiler : Compiler) (binder : Binder) :
    List (String × Node) → Except SampleError Binder
  | [] => .ok binder
  | (name, node) :: rest => do
    let body ← compiler.compile node
    let binder ← binder.fill (binder.register name).1 body
    fillAll compiler binder rest

/-- The slots of a document: the root, then the definitions in the order of their names. -/
def slots (document : Document) (options : Options) (registry : Registry) :
    Except SampleError Slots := do
  let binder := registerAll {} (Entries.names document.definitions)
  let compiler : Compiler := ⟨binder, options, document.source, registry⟩
  let root ← compiler.compile document.root
  let binder ← binder.fill rootSlot root
  let binder ← fillAll compiler binder document.definitions
  binder.freeze

end Document

end SchemaSampler
