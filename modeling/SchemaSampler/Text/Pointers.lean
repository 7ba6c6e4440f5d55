/-!
# Pointers

A JSON pointer names a part of a document by the segments between its slashes. In a segment `~1`
stands for a slash and `~0` for a tilde.
-/

namespace SchemaSampler

namespace Pointer

/-- The segments between slashes, of which there is at least one. -/
def segments : List Char → List (List Char)
  | [] => [[]]
  | c :: rest =>
    match segments rest with
    | first :: others => if c == '/' then [] :: first :: others else (c :: first) :: others
    | [] => [[c]]

/-- Replaces an escape by its character. -/
def unescape (escape : Char) (c : Char) : List Char → List Char
  | '~' :: d :: rest =>
    if d == escape then c :: unescape escape c rest else '~' :: unescape escape c (d :: rest)
  | d :: rest => d :: unescape escape c rest
  | [] => []

/-- The name in an escaped segment; slashes are put back before tildes. -/
def segmentName (segment : List Char) : String :=
  String.ofList (unescape '0' '~' (unescape '1' '/' segment))

end Pointer

end SchemaSampler
