import SchemaSampler.Options

/-!
# Hoisting

A raw draw keeps the dynamically keyed parts of an object in containers under synthetic keys.
Hoisting splices them back, innermost first: the additional entries, then the pattern groups,
then the members of the `allOf` container, later ones winning. An object that holds nothing but
an `allOf` container without objects becomes the last member of the container.
-/

namespace SchemaSampler

/-- The hoisted parts of an object. -/
structure HoistedParts where
  ordinary : Entries Json := []
  additional : Entries Json := []
  groups : List (Entries Json) := []
  /-- The members of the `allOf` container, when it is an object. -/
  merged : Option (List Json) := none

namespace HoistedParts

/-- The members of an object, none for other values. -/
def membersOf : Json → Entries Json
  | .obj members => members
  | _ => []

/-- The entries outside the `allOf` container. -/
def spliced (parts : HoistedParts) : Entries Json :=
  parts.groups.foldl Entries.insertAll (parts.ordinary.insertAll parts.additional)

/-- The object of the parts, or what stands for it. -/
def assemble (parts : HoistedParts) : Json :=
  let out := parts.spliced
  match parts.merged with
  | none => .obj out
  | some members =>
    if out.isEmpty && members.all fun member => !member.isObject then
      members.getLast?.getD (.obj out)
    else
      .obj (members.foldl (fun all member => Entries.insertAll all (membersOf member)) out)

end HoistedParts

mutual
/-- Merges the containers under synthetic keys into the objects around them, at every depth. -/
def hoist (keys : SyntheticKeys) : Json → Json
  | .arr items => .arr (hoistItems keys items)
  | .obj members => (hoistParts keys members).assemble
  | scalar => scalar
termination_by structural value => value

def hoistItems (keys : SyntheticKeys) : List Json → List Json
  | [] => []
  | item :: rest => hoist keys item :: hoistItems keys rest
termination_by structural items => items

def hoistParts (keys : SyntheticKeys) : List (String × Json) → HoistedParts
  | [] => {}
  | (key, value) :: rest =>
    let parts := hoistParts keys rest
    if key = keys.additionalProperties then { parts with additional := hoistEntries keys value }
    else if key = keys.patternProperties then { parts with groups := hoistGroups keys value }
    else if key = keys.allOf then { parts with merged := hoistContainer keys value }
    else { parts with ordinary := (key, hoist keys value) :: parts.ordinary }
termination_by structural members => members

/-- The hoisted entries of a container. -/
def hoistEntries (keys : SyntheticKeys) : Json → Entries Json
  | .obj members => hoistMembers keys members
  | _ => []
termination_by structural value => value

def hoistMembers (keys : SyntheticKeys) : List (String × Json) → Entries Json
  | [] => []
  | (key, value) :: rest => (key, hoist keys value) :: hoistMembers keys rest
termination_by structural members => members

/-- The hoisted entries of every group in a container. -/
def hoistGroups (keys : SyntheticKeys) : Json → List (Entries Json)
  | .obj groups => hoistGroupList keys groups
  | _ => []
termination_by structural value => value

def hoistGroupList (keys : SyntheticKeys) : List (String × Json) → List (Entries Json)
  | [] => []
  | (_, group) :: rest => hoistEntries keys group :: hoistGroupList keys rest
termination_by structural groups => groups

/-- The hoisted members of an `allOf` container in the order of their keys. -/
def hoistContainer (keys : SyntheticKeys) : Json → Option (List Json)
  | .obj members => some (hoistValues keys members)
  | _ => none
termination_by structural value => value

def hoistValues (keys : SyntheticKeys) : List (String × Json) → List Json
  | [] => []
  | (_, value) :: rest => hoist keys value :: hoistValues keys rest
termination_by structural members => members
end

/-! Additional entries replace ordinary ones, and members of the `allOf` container replace both. -/

example :
    hoist ⟨"x", "y", "z"⟩ (.obj [("a", .int 1), ("b", .int 1),
      ("x", .obj [("a", .int 2)]), ("z", .obj [("0", .obj [("a", .int 3)])])]) ==
    .obj [("a", .int 3), ("b", .int 1)] := by decide +kernel
example : hoist ⟨"x", "y", "z"⟩ (.obj [("z", .obj [("0", .int 1), ("1", .int 2)])]) == .int 2 := by
  decide +kernel

end SchemaSampler
