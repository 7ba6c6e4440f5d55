import SchemaSampler.Schema.Classify

/-!
# Schema documents

A document is a root schema with named definitions. The definitions are kept as JSON as well,
because validators are made from it.
-/

namespace SchemaSampler

structure Document where
  root : Node
  definitions : Entries Node
  /-- The object of the definitions as it was written. -/
  source : Json

namespace Document

/-- The definitions as written, an empty object when there are none. -/
def definitionsOf (schema : Json) : Json := (schema.get? "definitions").getD (.obj [])

/-- The root is classified first, then the definitions in the order of their names. -/
def parse (schema : Json) : Except Unsupported Document := do
  let root ← Node.classify schema
  match definitionsOf schema with
  | .obj members =>
    let definitions ← Entries.mapM Node.classify members
    pure ⟨root, definitions, .obj members⟩
  | other => Node.fail .definitionsNotObject other

end Document

end SchemaSampler
