/-!
# Entries sorted by name

A finite map from names is a list of pairs in strictly increasing order of names. Strings are
compared by code points, which is also the order of their UTF-8 bytes.

* `insert` keeps the order and replaces an earlier entry of the same name;
* `ofList` inserts one pair after the other, so the last of equal names stays.
-/

namespace SchemaSampler

/-- Pairs of a name and a value, in increasing order of names. -/
abbrev Entries (α : Type) := List (String × α)

namespace Entries

variable {α β : Type}

/-- Adds an entry at its place, replacing one of the same name. -/
def insert (name : String) (value : α) : Entries α → Entries α
  | [] => [(name, value)]
  | (other, kept) :: rest =>
    if name < other then (name, value) :: (other, kept) :: rest
    else if name = other then (name, value) :: rest
    else (other, kept) :: insert name value rest

def ofList (pairs : List (String × α)) : Entries α :=
  pairs.foldl (fun entries pair => entries.insert pair.1 pair.2) []

def get? (entries : Entries α) (name : String) : Option α := List.lookup name entries

def names (entries : Entries α) : List String := entries.map Prod.fst

def values (entries : Entries α) : List α := entries.map Prod.snd

def has (entries : Entries α) (name : String) : Bool := entries.any fun entry => entry.1 == name

/-- The names are strictly increasing. -/
def Sorted (entries : Entries α) : Prop := entries.Pairwise fun a b => a.1 < b.1

/-- Every entry of the second map is inserted into the first. -/
def insertAll (entries additions : Entries α) : Entries α :=
  additions.foldl (fun all pair => Entries.insert pair.1 pair.2 all) entries

/-- Applies a function that may fail to every value, stopping at the first failure. -/
def mapM {m : Type → Type} [Monad m] (f : α → m β) : Entries α → m (Entries β)
  | [] => pure []
  | (name, value) :: rest => do
    let image ← f value
    let images ← mapM f rest
    pure ((name, image) :: images)

end Entries

end SchemaSampler
