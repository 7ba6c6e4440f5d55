import SchemaSampler.Proofs.Pattern.Ends

/-!
# Escapes in patterns

A backslash escapes the character behind it. Which characters an escape takes in is seen from its
own text, whatever follows.

Results:
1. `Pattern.escapedAfter`: whether the next character is escaped.
2. `Pattern.Plain`: texts without backslashes that do not end with an anchor.
3. `Pattern.local_readEscape?`: an escape takes the same characters whatever follows.
-/

namespace SchemaSampler

namespace Pattern

/-! ## Escaped characters -/

/-- Whether the character after a text is escaped. -/
def escapedAfter : (escaped : Bool) → List Char → Bool
  | escaped, [] => escaped
  | escaped, c :: rest => escapedAfter (!escaped && c == '\\') rest

theorem escapedAfter_append (escaped : Bool) (first second : List Char) :
    escapedAfter escaped (first ++ second) = escapedAfter (escapedAfter escaped first) second := by
  induction first generalizing escaped with
  | nil => rfl
  | cons c rest ih => exact ih _

theorem escapedAfter_of_not_mem {text : List Char} (plain : '\\' ∉ text) :
    escapedAfter false text = false := by
  induction text with
  | nil => rfl
  | cons c rest ih =>
    rw [List.mem_cons, not_or] at plain
    have own : (c == '\\') = false := by simpa using Ne.symm plain.1
    rw [escapedAfter, own]
    exact ih plain.2

theorem escapedAfter_cons_of_not_mem {escaped : Bool} {c : Char} {rest : List Char}
    (own : escaped = true ∨ c ≠ '\\') (plain : '\\' ∉ rest) :
    escapedAfter escaped (c :: rest) = false := by
  have closed : (!escaped && c == '\\') = false := by
    rcases own with rfl | own
    · rfl
    · simp [own]
  rw [escapedAfter, closed]
  exact escapedAfter_of_not_mem plain

/-! ## Characters up to a mark -/

/-- What is taken up to a mark is the same whatever follows the mark. -/
theorem takeWhile_local {p : Char → Bool} {input after : List Char} {mark : Char}
    (found : input.dropWhile p = mark :: after) :
    input = input.takeWhile p ++ mark :: after ∧ p mark = false ∧ ∀ other,
      (input.takeWhile p ++ mark :: other).takeWhile p = input.takeWhile p ∧
        (input.takeWhile p ++ mark :: other).dropWhile p = mark :: other := by
  have ended : p mark = false := by
    have head := List.head?_dropWhile_not p input
    rw [found] at head
    simpa using head
  refine ⟨by rw [← found, List.takeWhile_append_dropWhile], ended, fun other => ?_⟩
  have each : ∀ c ∈ input.takeWhile p, p c = true := fun c => List.mem_takeWhile_imp
  rw [List.takeWhile_append_of_pos each, List.dropWhile_append_of_pos each,
    List.takeWhile_cons_of_neg (by simp [ended]), List.dropWhile_cons_of_neg (by simp [ended]),
    List.append_nil]
  exact ⟨rfl, rfl⟩

/-! ## Escapes -/

/-- A hexadecimal number has digits, and none of them is a mark of the syntax. -/
theorem digits_of_hexChar? {digits : List Char} {c : Char} (found : hexChar? digits = some c) :
    digits ≠ [] ∧ ∀ mark, Digits.hexValue? mark = none → mark ∉ digits := by
  obtain ⟨code, number, valid⟩ := Option.bind_eq_some_iff.mp found
  obtain ⟨values, mapped, -⟩ := Option.map_eq_some_iff.mp number
  constructor
  · rintro rfl
    cases valid
  · intro mark none listed
    have each := forall₂_of_mapM mapped
    clear mapped number valid found
    induction each with
    | nil => cases listed
    | cons own _ ih =>
      rcases List.mem_cons.mp listed with rfl | later
      · rw [none] at own
        cases own
      · exact ih later

/-- A text without backslashes that does not end with a dollar sign. -/
def Plain (token : List Char) : Prop := '\\' ∉ token ∧ token.getLast? ≠ some '$'

theorem plain_nil : Plain [] := ⟨List.not_mem_nil, nofun⟩

theorem plain_concat {text : List Char} {mark : Char} (front : '\\' ∉ text)
    (own : mark ≠ '\\' ∧ mark ≠ '$') : Plain (text ++ [mark]) := by
  refine ⟨?_, ?_⟩
  · rw [List.mem_append, List.mem_singleton, not_or]
    exact ⟨front, Ne.symm own.1⟩
  · rw [List.getLast?_concat]
    exact fun same => own.2 (Option.some.inj same)

theorem Plain.append {first second : List Char} (front : Plain first) (back : Plain second) :
    Plain (first ++ second) := by
  refine ⟨?_, ?_⟩
  · rw [List.mem_append, not_or]
    exact ⟨front.1, back.1⟩
  · rw [List.getLast?_append, Ne, Option.or_eq_some_iff, not_or]
    exact ⟨back.2, fun same => front.2 same.2⟩

/-- A code point in braces. -/
theorem readHex?_braces {count : Nat} {input rest : List Char} {c : Char} :
    readHex? count ('\x7b' :: input) = some (c, rest) ↔
      ∃ digits, input = digits ++ '\x7d' :: rest ∧ hexChar? digits = some c := by
  constructor
  · intro read
    simp only [readHex?] at read
    split at read
    next mark after found =>
      obtain ⟨own, number, same⟩ := Option.map_eq_some_iff.mp read
      cases same
      obtain ⟨split, ended, -⟩ := takeWhile_local found
      have closing : mark = '\x7d' := by simpa using ended
      exact ⟨_, closing ▸ split, number⟩
    next => cases read
  · rintro ⟨digits, rfl, number⟩
    have inside : ∀ d ∈ digits, (d != '\x7d') = true := by
      intro d listed
      rw [bne_iff_ne]
      rintro rfl
      exact (digits_of_hexChar? number).2 _ rfl listed
    simp only [readHex?]
    rw [List.dropWhile_append_of_pos inside, List.takeWhile_append_of_pos inside,
      List.dropWhile_cons_of_neg (by simp), List.takeWhile_cons_of_neg (by simp), List.append_nil]
    dsimp only
    rw [number]
    rfl

/-- A code point of a fixed number of digits. -/
theorem readHex?_digits {count : Nat} {input rest : List Char} {c : Char}
    (open' : input.head? ≠ some '\x7b') :
    readHex? count input = some (c, rest) ↔
      ∃ digits, input = digits ++ rest ∧ digits.length = count ∧ hexChar? digits = some c := by
  have fixed : readHex? count input =
      if (input.take count).length < count then none
      else (hexChar? (input.take count)).map fun c => (c, input.drop count) := by
    unfold readHex?
    split
    · exact absurd rfl open'
    · rfl
  rw [fixed]
  constructor
  · intro read
    split at read
    next => cases read
    next enough =>
      obtain ⟨own, number, same⟩ := Option.map_eq_some_iff.mp read
      cases same
      refine ⟨_, (List.take_append_drop count input).symm, ?_, number⟩
      exact Nat.le_antisymm (List.length_take_le _ _) (not_lt.mp enough)
  · rintro ⟨digits, rfl, rfl, number⟩
    rw [List.take_left, List.drop_left, if_neg (Nat.lt_irrefl _), number]
    rfl

theorem local_readHex? {count : Nat} {input rest : List Char} {c : Char}
    (read : readHex? count input = some (c, rest)) :
    ∃ token, input = token ++ rest ∧ Plain token ∧
      ∀ other, readHex? count (token ++ other) = some (c, other) := by
  by_cases open' : input.head? = some '\x7b'
  · obtain ⟨input, rfl⟩ := List.head?_eq_some_iff.mp open'
    obtain ⟨digits, rfl, number⟩ := readHex?_braces.mp read
    refine ⟨'\x7b' :: digits ++ ['\x7d'], by simp, plain_concat ?_ (by decide), fun other => ?_⟩
    · rw [List.mem_cons, not_or]
      exact ⟨by decide, (digits_of_hexChar? number).2 _ rfl⟩
    · refine readHex?_braces.mpr ⟨digits, by simp, number⟩
  · obtain ⟨digits, rfl, enough, number⟩ := (readHex?_digits open').mp read
    obtain ⟨nonempty, marks⟩ := digits_of_hexChar? number
    have first (other : List Char) : (digits ++ other).head? ≠ some '\x7b' := by
      cases digits with
      | nil => exact absurd rfl nonempty
      | cons digit digits =>
        intro same
        cases same
        exact marks _ rfl List.mem_cons_self
    refine ⟨digits, rfl, ⟨marks _ rfl, fun last => ?_⟩, fun other => ?_⟩
    · exact marks '$' rfl (List.mem_of_getLast? last)
    · exact (readHex?_digits (first other)).mpr ⟨digits, rfl, enough, number⟩

/-- The text of an escape behind its backslash. -/
structure EscapeText (token : List Char) : Prop where
  closed : escapedAfter true token = false
  dollar : token.getLast? = some '$' → token = ['$']

theorem escapeText_single (c : Char) : EscapeText [c] := by
  refine ⟨by simp [escapedAfter], fun last => ?_⟩
  cases last
  rfl

theorem escapeText_cons {c : Char} {token : List Char} (plain : Plain token) :
    EscapeText (c :: token) := by
  refine ⟨escapedAfter_cons_of_not_mem (.inl rfl) plain.1, fun last => ?_⟩
  cases token with
  | nil =>
    cases last
    rfl
  | cons => exact absurd last plain.2

theorem local_readEscape? {flags : Flags} {input rest : List Char} {escape : Escape}
    (read : readEscape? flags input = some (escape, rest)) :
    ∃ token, input = token ++ rest ∧ EscapeText token ∧
      ∀ other, readEscape? flags (token ++ other) = some (escape, other) := by
  have hex {c : Char} {count : Nat} {input : List Char}
      (marked : ∀ input, readEscape? flags (c :: input) =
        (readHex? count input).map fun item => (.char item.1, item.2))
      (read : readEscape? flags (c :: input) = some (escape, rest)) :
      ∃ token, c :: input = token ++ rest ∧ EscapeText token ∧
        ∀ other, readEscape? flags (token ++ other) = some (escape, other) := by
    rw [marked] at read
    obtain ⟨⟨d, after⟩, number, same⟩ := Option.map_eq_some_iff.mp read
    cases same
    obtain ⟨token, rfl, plain, again⟩ := local_readHex? number
    refine ⟨c :: token, rfl, escapeText_cons plain, fun other => ?_⟩
    rw [List.cons_append, marked, again]
    rfl
  unfold readEscape? at read
  split at read
  · cases read
  next c input =>
  split at read
  case h_7 => exact hex (fun _ => rfl) read
  case h_8 => exact hex (fun _ => rfl) read
  case h_9 => exact hex (fun _ => rfl) read
  case h_22 =>
    have alone (other : List Char) : readEscape? flags (c :: other) =
        if isEscapable c then some (.char c, other) else none := by
      simp only [readEscape?]
    obtain ⟨escapable, same⟩ := Option.ite_none_right_eq_some.mp read
    cases same
    exact ⟨[c], rfl, escapeText_single c, fun other => (alone other).trans (if_pos escapable)⟩
  all_goals
    cases read
    exact ⟨_, rfl, escapeText_single _, fun _ => rfl⟩

end Pattern

end SchemaSampler
