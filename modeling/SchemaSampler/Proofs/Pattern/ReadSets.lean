import SchemaSampler.Proofs.Pattern.Classes

/-!
# Sets that are read

The sets that escapes, classes in brackets and the dot stand for keep within the characters.

Results:
1. `Pattern.bounded_readEscape?`: the sets of escapes.
2. `Pattern.bounded_readClass?`: the sets of classes, over every class that is open.
-/

namespace SchemaSampler

namespace Pattern

/-! ## Escapes -/

theorem bounded_namedSet (unicode : Bool) (c : Char) : (namedSet unicode c).Bounded := by
  have ascii (name : String) : ((Charset.ascii? name).getD .empty).Bounded := by
    cases found : Charset.ascii? name with
    | none => exact Charset.bounded_empty
    | some chars => exact Charset.bounded_ascii found
  unfold namedSet
  split <;> split
  · exact Charset.bounded_digit
  · exact ascii _
  · exact Charset.bounded_blank
  · exact ascii _
  · exact Charset.bounded_word
  · exact ascii _

theorem bounded_readEscape? {flags : Flags} {input rest : List Char} {chars : Charset}
    (read : readEscape? flags input = some (.set chars, rest)) : chars.Bounded := by
  unfold readEscape? at read
  split at read
  · cases read
  · split at read
    case h_7 | h_8 | h_9 =>
      obtain ⟨_, -, same⟩ := Option.map_eq_some_iff.mp read
      cases same
    case h_22 =>
      obtain ⟨-, same⟩ := Option.ite_none_right_eq_some.mp read
      cases same
    all_goals
      cases read
    all_goals first
      | exact bounded_namedSet _ _
      | exact (bounded_namedSet _ _).complement

/-! ## Classes in brackets -/

namespace OpenClass

/-- The characters of a class that is open keep within the characters. -/
structure Bounded (cls : OpenClass) : Prop where
  items : cls.items.Bounded
  pending : ∀ left operation, cls.pending = some (left, operation) → left.Bounded

theorem Bounded.add {cls : OpenClass} (bounded : cls.Bounded) {chars : Charset}
    (own : chars.Bounded) : (cls.add chars).Bounded :=
  ⟨bounded.items.union own, bounded.pending⟩

theorem Bounded.current {cls : OpenClass} (bounded : cls.Bounded) (ignoreCase : Bool) :
    (cls.current ignoreCase).Bounded := by
  have items : (if ignoreCase then cls.items.foldCase else cls.items).Bounded := by
    split
    · exact bounded.items.foldCase
    · exact bounded.items
  unfold OpenClass.current
  dsimp only
  split
  · exact items
  next left operation stated =>
    have own := bounded.pending left operation stated
    cases operation with
    | intersection => exact own.intersection items
    | difference => exact own.difference items
    | symmetricDifference => exact own.symmetricDifference items

theorem Bounded.operate {cls : OpenClass} (bounded : cls.Bounded) (ignoreCase : Bool)
    (operation : SetOperation) : (cls.operate ignoreCase operation).Bounded := by
  refine ⟨Charset.bounded_empty, fun left operation stated => ?_⟩
  cases stated
  exact bounded.current ignoreCase

theorem Bounded.close {cls : OpenClass} (bounded : cls.Bounded) (ignoreCase : Bool) :
    (cls.close ignoreCase).Bounded := by
  unfold OpenClass.close
  dsimp only
  split
  · exact (bounded.current ignoreCase).complement
  · exact bounded.current ignoreCase

end OpenClass

theorem bounded_openClass (input : List Char) : (openClass input).1.Bounded := by
  have leading (negated : Bool) (input : List Char) :
      (leadingItems { negated } input).1.Bounded := by
    have bare : OpenClass.Bounded { negated } := ⟨Charset.bounded_empty, nofun⟩
    unfold leadingItems
    split
    · exact bare.add (Charset.bounded_single _)
    · exact bare.add (Charset.bounded_single _)
    · exact bare
  by_cases caret : input.head? = some '^'
  · obtain ⟨rest, rfl⟩ := List.head?_eq_some_iff.mp caret
    exact leading true rest
  · rw [openClass_of_head? caret]
    exact leading false input

theorem bounded_namedItems? {negated : Bool} {input rest : List Char} {chars : Charset}
    (read : namedItems? negated input = some (chars, rest)) : chars.Bounded := by
  obtain ⟨name, own, -, named, rfl⟩ := namedItems?_eq_some.mp read
  split
  · exact (Charset.bounded_ascii named).complement
  · exact Charset.bounded_ascii named

theorem bounded_readNamedClass? {input rest : List Char} {chars : Charset}
    (read : readNamedClass? input = some (chars, rest)) : chars.Bounded := by
  obtain ⟨start, rfl⟩ := readNamedClass?_colon read
  by_cases caret : start.head? = some '^'
  · obtain ⟨start, rfl⟩ := List.head?_eq_some_iff.mp caret
    exact bounded_namedItems? ((readNamedClass?_caret start).symm.trans read)
  · exact bounded_namedItems? ((readNamedClass?_of_head? caret).symm.trans read)

theorem bounded_readClassItem? {flags : Flags} {input rest : List Char} {escape : Escape}
    {chars : Charset} (read : readClassItem? flags input = some (escape, rest))
    (means : escape.chars? = some chars) : chars.Bounded := by
  cases escape with
  | look => cases means
  | char c =>
    cases means
    exact Charset.bounded_single c
  | set own =>
    cases means
    unfold readClassItem? at read
    split at read
    · cases read
    · exact bounded_readEscape? read
    · cases read

theorem bounded_readClassRange? {flags : Flags} {input rest : List Char} {chars : Charset}
    (read : readClassRange? flags input = some (chars, rest)) : chars.Bounded := by
  obtain ⟨first, after, item, ended⟩ := readClassRange?_eq_some.mp read
  split at ended
  · obtain ⟨last, -, range⟩ := ended
    unfold rangeOf? at range
    split at range
    · obtain ⟨-, same⟩ := Option.ite_none_right_eq_some.mp range
      cases same
      exact Charset.bounded_range _ _
    · cases range
  · exact bounded_readClassItem? item ended.1

theorem bounded_readClass? {flags : Flags} {fuel : Nat} {cls : OpenClass} {outer : List OpenClass}
    {input rest : List Char} {chars : Charset} (bounded : cls.Bounded)
    (around : ∀ cls ∈ outer, cls.Bounded)
    (read : readClass? flags fuel cls outer input = some (chars, rest)) : chars.Bounded := by
  fun_induction readClass? flags fuel cls outer input with
  | case1 => cases read
  | case2 => cases read
  | case3 =>
    cases read
    exact bounded.close _
  | case4 _ _ _ _ _ ih =>
    obtain ⟨own, later⟩ := List.forall_mem_cons.mp around
    exact ih (own.add (bounded.close _)) later read
  | case5 _ _ _ _ _ _ named ih => exact ih (bounded.add (bounded_readNamedClass? named)) around read
  | case6 _ _ _ behind _ _ _ opened ih =>
    have inner := bounded_openClass behind
    rw [opened] at inner
    exact ih inner (List.forall_mem_cons.mpr ⟨bounded, around⟩) read
  | case7 _ _ _ _ ih => exact ih (bounded.operate _ _) around read
  | case8 _ _ _ _ ih => exact ih (bounded.operate _ _) around read
  | case9 _ _ _ _ ih => exact ih (bounded.operate _ _) around read
  | case10 _ _ _ _ _ _ _ _ _ _ ih =>
    obtain ⟨⟨range, after⟩, item, behind⟩ := Option.bind_eq_some_iff.mp read
    exact ih range after (bounded.add (bounded_readClassRange? item)) around behind

theorem bounded_setPattern (flags : Flags) {chars : Charset} (bounded : chars.Bounded) :
    (setPattern flags chars).Bounded := by
  unfold setPattern
  split
  · exact bounded_ofSet bounded.foldCase
  · exact bounded_ofSet bounded

theorem bounded_anyChar (flags : Flags) : (anyChar flags).Bounded := by
  have newline : Charset.newline.Bounded := Charset.bounded_single _
  unfold anyChar
  split
  · exact Charset.bounded_full
  · split
    · exact (newline.union (Charset.bounded_single _)).complement
    · exact newline.complement

end Pattern

end SchemaSampler
