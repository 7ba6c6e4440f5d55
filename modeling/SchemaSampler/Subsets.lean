/-!
# All subsets of a list

Each further item doubles the subsets: first those without it, then the same ones with it at
the end. So the empty subset comes first and every subset keeps the order of the items.
-/

namespace SchemaSampler

def subsets {α : Type} (items : List α) : List (List α) :=
  items.foldl (fun found item => found ++ found.map fun subset => subset ++ [item]) [[]]

example : subsets ["a", "b"] = [[], ["a"], ["b"], ["a", "b"]] := by decide

end SchemaSampler
