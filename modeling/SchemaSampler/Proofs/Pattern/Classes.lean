import SchemaSampler.Proofs.Pattern.Escapes

/-!
# Classes in brackets

A class ends at the bracket that closes it, and the characters up to there decide what it means:
ranges look two characters ahead, a leading bracket stands for itself, and a name between colons is
told from an inner class by the next closing bracket, all of which lie in front of the end.

Results:
1. `Pattern.readClassRange?_eq_some`, `Pattern.local_readClassRange?`: items and ranges.
2. `Pattern.local_openClass`, `Pattern.local_readNamedClass?`: the start of a class and names.
3. `Pattern.local_readClass?`: a class takes the same characters whatever follows.
-/

namespace SchemaSampler

namespace Pattern

/-! ## Items and ranges -/

theorem local_readClassItem? {flags : Flags} {input rest : List Char} {escape : Escape}
    (read : readClassItem? flags input = some (escape, rest)) :
    ∃ c token, input = c :: token ++ rest ∧ escapedAfter false (c :: token) = false ∧
      ∀ other, readClassItem? flags (c :: token ++ other) = some (escape, other) := by
  unfold readClassItem? at read
  split at read
  · cases read
  next input =>
    obtain ⟨token, rfl, text, again⟩ := local_readEscape? read
    exact ⟨'\\', token, rfl, text.closed, again⟩
  next c input single =>
    cases read
    refine ⟨c, [], rfl, escapedAfter_cons_of_not_mem (.inr single) List.not_mem_nil, fun other => ?_⟩
    show readClassItem? flags (c :: other) = _
    simp only [readClassItem?]

/-- A dash and the end of a range follow. -/
def opensRange (rest : List Char) : Bool :=
  rest.head? == some '-' && rest.tail.head? != some ']' && rest.tail.head? != some '-'

/-- The characters of a single item. -/
def Escape.chars? : Escape → Option Charset
  | char c => some (.single c)
  | set chars => some chars
  | look _ => none

/-- The characters between two items. -/
def rangeOf? : Escape → Escape → Option Charset
  | .char low, .char high => if low ≤ high then some (.range low high) else none
  | _, _ => none

theorem readClassRange?_eq_some {flags : Flags} {input rest : List Char} {chars : Charset} :
    readClassRange? flags input = some (chars, rest) ↔ ∃ first after,
      readClassItem? flags input = some (first, after) ∧
        if opensRange after then ∃ last, readClassItem? flags after.tail = some (last, rest) ∧
          rangeOf? first last = some chars
        else first.chars? = some chars ∧ after = rest := by
  unfold readClassRange?
  cases readClassItem? flags input with
  | none => simp
  | some item =>
    obtain ⟨first, after⟩ := item
    simp only [Option.bind_eq_bind, Option.bind_some, Option.some.injEq, Prod.mk.injEq,
      ↓existsAndEq, true_and]
    split
    case h_1 | h_2 => cases first <;> simp [Escape.chars?, opensRange]
    next after dash double =>
      have opens : opensRange ('-' :: after) = true := by
        cases after with
        | nil => rfl
        | cons c tail =>
          have notBracket : c ≠ ']' := fun same => dash tail (by rw [same])
          have notDash : c ≠ '-' := fun same => double tail (by rw [same])
          simp [opensRange, notBracket, notDash]
      rw [if_pos opens, List.tail_cons]
      cases readClassItem? flags after with
      | none => simp
      | some item =>
        obtain ⟨last, behind⟩ := item
        rw [Option.bind_some]
        cases first <;> cases last <;> simp only [rangeOf?] <;> simp
        tauto
    next _ _ _ notDash =>
      have closed : opensRange after = false := by
        cases after with
        | nil => rfl
        | cons c tail =>
          have other : c ≠ '-' := fun same => notDash tail (by rw [same])
          simp [opensRange, other]
      rw [if_neg (by rw [closed]; exact Bool.false_ne_true)]
      cases first <;> simp [Escape.chars?]

/-- The texts start alike, as far as a range looks ahead. -/
structure SameStart (rest other : List Char) : Prop where
  first : other.head? = rest.head?
  second : rest.head? = some '-' → other.tail.head? = rest.tail.head?

theorem SameStart.opensRange_eq {rest other : List Char} (same : SameStart rest other) :
    opensRange other = opensRange rest := by
  unfold opensRange
  rw [same.first]
  by_cases dash : rest.head? = some '-'
  · rw [same.second dash]
  · have closed : (rest.head? == some '-') = false := by simpa using dash
    simp [closed]

theorem local_readClassRange? {flags : Flags} {input rest : List Char} {chars : Charset}
    (read : readClassRange? flags input = some (chars, rest)) :
    ∃ c token, input = c :: token ++ rest ∧ escapedAfter false (c :: token) = false ∧
      ∀ other, SameStart rest other →
        readClassRange? flags (c :: token ++ other) = some (chars, other) := by
  obtain ⟨first, after, item, ended⟩ := readClassRange?_eq_some.mp read
  obtain ⟨c, token, rfl, closed, again⟩ := local_readClassItem? item
  split at ended
  next opens =>
    obtain ⟨last, item, range⟩ := ended
    obtain ⟨d, behind, split, alsoClosed, alsoAgain⟩ := local_readClassItem? item
    obtain ⟨tail, rfl⟩ : ∃ tail, after = '-' :: tail := by
      cases after with
      | nil => cases opens
      | cons mark tail =>
        have dash : mark = '-' := by
          simp only [opensRange, Bool.and_eq_true, List.head?_cons, beq_iff_eq,
            Option.some.injEq] at opens
          exact opens.1.1
        exact ⟨tail, by rw [dash]⟩
    cases (show tail = d :: behind ++ rest from split)
    refine ⟨c, token ++ '-' :: d :: behind, by simp, ?_, fun other same => ?_⟩
    · rw [← List.cons_append, escapedAfter_append, closed]
      exact alsoClosed
    · refine readClassRange?_eq_some.mpr ⟨first, '-' :: (d :: behind ++ other), ?_, ?_⟩
      · rw [← again]
        simp
      · rw [if_pos (show opensRange ('-' :: (d :: behind ++ other)) = true from opens)]
        exact ⟨last, alsoAgain other, range⟩
  next closedRange =>
    obtain ⟨single, rfl⟩ := ended
    refine ⟨c, token, rfl, closed, fun other same => ?_⟩
    refine readClassRange?_eq_some.mpr ⟨first, other, again other, ?_⟩
    rw [same.opensRange_eq, if_neg closedRange]
    exact ⟨single, rfl⟩

/-! ## The start of a class -/

/-- Dashes or a bracket at the start of a class, behind the sign of a negation. -/
def leadingItems (cls : OpenClass) (input : List Char) : OpenClass × List Char :=
  match input with
  | '-' :: _ => (cls.add (.single '-'), input.dropWhile fun c => c == '-')
  | ']' :: rest => (cls.add (.single ']'), rest)
  | rest => (cls, rest)

theorem local_leadingItems (cls : OpenClass) (input : List Char) :
    ∃ lead, input = lead ++ (leadingItems cls input).2 ∧ '\\' ∉ lead ∧
      ∀ other : List Char, other.head? = (leadingItems cls input).2.head? →
        leadingItems cls (lead ++ other) = ((leadingItems cls input).1, other) := by
  unfold leadingItems
  split
  next rest =>
    have dashes : ∀ c ∈ ('-' :: rest).takeWhile (· == '-'), (c == '-') = true :=
      fun c => List.mem_takeWhile_imp
    refine ⟨('-' :: rest).takeWhile (· == '-'), List.takeWhile_append_dropWhile.symm, ?_,
      fun other same => ?_⟩
    · intro listed
      cases dashes _ listed
    · have stops : other.dropWhile (· == '-') = other := by
        cases other with
        | nil => rfl
        | cons c tail =>
          have head := List.head?_dropWhile_not (· == '-') ('-' :: rest)
          dsimp only at same
          rw [← same] at head
          exact List.dropWhile_cons_of_neg (by simpa using head)
      have all := @List.dropWhile_append_of_pos _ (· == '-') _ other dashes
      rw [stops] at all
      rw [List.takeWhile_cons_of_pos (by rfl)] at all ⊢
      exact congrArg (Prod.mk _) all
  next rest => exact ⟨[']'], rfl, by decide, fun other _ => rfl⟩
  next dash bracket =>
    refine ⟨[], rfl, List.not_mem_nil, fun other same => ?_⟩
    rw [List.nil_append]
    split
    next tail =>
      cases input with
      | nil => cases same
      | cons c rest =>
        cases same
        exact absurd rfl (dash rest)
    next tail =>
      cases input with
      | nil => cases same
      | cons c rest =>
        cases same
        exact absurd rfl (bracket rest)
    next => rfl

theorem openClass_of_head? {input : List Char} (positive : input.head? ≠ some '^') :
    openClass input = leadingItems { negated := false } input := by
  unfold openClass
  split
  next same =>
    split at same
    · exact absurd rfl positive
    · cases same
      rfl

/-- The start of a class is the same when the first character behind it is. -/
theorem local_openClass (input : List Char) :
    ∃ lead, input = lead ++ (openClass input).2 ∧ '\\' ∉ lead ∧
      ∀ other : List Char, other.head? = (openClass input).2.head? →
        openClass (lead ++ other) = ((openClass input).1, other) := by
  by_cases caret : input.head? = some '^'
  · obtain ⟨rest, rfl⟩ := List.head?_eq_some_iff.mp caret
    obtain ⟨lead, split, plain, again⟩ := local_leadingItems { negated := true } rest
    refine ⟨'^' :: lead, congrArg _ split, ?_, again⟩
    rw [List.mem_cons, not_or]
    exact ⟨by decide, plain⟩
  · obtain ⟨lead, split, plain, again⟩ := local_leadingItems { negated := false } input
    rw [openClass_of_head? caret]
    refine ⟨lead, split, plain, fun other same => ?_⟩
    rw [openClass_of_head?, again other same]
    rwa [List.head?_append, same, ← List.head?_append, ← split]

/-! ## Classes by name -/

theorem ascii_plain {name : List Char} {chars : Charset}
    (found : Charset.ascii? (String.ofList name) = some chars) :
    ∀ mark ∈ ['\\', ']', ':', '^'], mark ∉ name := by
  have names : ∀ text, (Charset.ascii? text).isSome = true →
      ∀ mark ∈ ['\\', ']', ':', '^'], mark ∉ text.toList := by
    intro text known
    unfold Charset.ascii? at known
    split at known
    case h_15 => cases known
    all_goals simp
  have own := names (String.ofList name) (by rw [found]; rfl)
  rwa [String.toList_ofList] at own

/-- The name of a class and its closing mark, behind the sign of a negation. -/
def namedItems? (negated : Bool) (input : List Char) : Option (Charset × List Char) :=
  match input.dropWhile fun c => c != ':' with
  | ':' :: ']' :: after =>
    (Charset.ascii? (String.ofList (input.takeWhile fun c => c != ':'))).map fun chars =>
      (if negated then chars.complement else chars, after)
  | _ => none

theorem readNamedClass?_caret (input : List Char) :
    readNamedClass? (':' :: '^' :: input) = namedItems? true input := rfl

theorem readNamedClass?_of_head? {input : List Char} (positive : input.head? ≠ some '^') :
    readNamedClass? (':' :: input) = namedItems? false input := by
  generalize same : ':' :: input = whole
  fun_cases readNamedClass? whole with
  | case1 _ _ _ sign _ _ found =>
    cases same
    split at sign
    · exact absurd rfl positive
    · cases sign
      rw [namedItems?, found]
      rfl
  | case2 _ _ _ sign unclosed =>
    cases same
    split at sign
    · exact absurd rfl positive
    · cases sign
      unfold namedItems?
      split
      next found => exact absurd found (unclosed _)
      next => rfl
  | case3 _ other => exact absurd same.symm (other input)

theorem namedItems?_eq_some {negated : Bool} {input rest : List Char} {chars : Charset} :
    namedItems? negated input = some (chars, rest) ↔ ∃ name set,
      input = name ++ ':' :: ']' :: rest ∧ Charset.ascii? (String.ofList name) = some set ∧
        chars = if negated then set.complement else set := by
  unfold namedItems?
  constructor
  · intro read
    split at read
    next after found =>
      obtain ⟨set, named, same⟩ := Option.map_eq_some_iff.mp read
      cases same
      exact ⟨_, set, (takeWhile_local found).1, named, rfl⟩
    next => cases read
  · rintro ⟨name, set, rfl, named, rfl⟩
    have inside : ∀ c ∈ name, (c != ':') = true := by
      intro c listed
      rw [bne_iff_ne]
      rintro rfl
      exact ascii_plain named ':' (by decide) listed
    rw [List.takeWhile_append_of_pos inside, List.dropWhile_append_of_pos inside,
      List.dropWhile_cons_of_neg (by simp), List.takeWhile_cons_of_neg (by simp), List.append_nil,
      named]
    rfl

theorem readNamedClass?_colon {input rest : List Char} {chars : Charset}
    (read : readNamedClass? input = some (chars, rest)) : ∃ start, input = ':' :: start := by
  unfold readNamedClass? at read
  split at read
  · exact ⟨_, rfl⟩
  · cases read

/-- A class by name ends with the first bracket, and can be read again whatever follows. -/
theorem local_readNamedClass? {input rest : List Char} {chars : Charset}
    (read : readNamedClass? input = some (chars, rest)) :
    ∃ front, input = front ++ ']' :: rest ∧ ']' ∉ front ∧ '\\' ∉ front ∧
      ∀ other, readNamedClass? (front ++ ']' :: other) = some (chars, other) := by
  obtain ⟨start, rfl⟩ := readNamedClass?_colon read
  by_cases caret : start.head? = some '^'
  · obtain ⟨start, rfl⟩ := List.head?_eq_some_iff.mp caret
    obtain ⟨name, own, rfl, named, same⟩ := namedItems?_eq_some.mp read
    refine ⟨':' :: '^' :: (name ++ [':']), by simp, ?_, ?_, fun other => ?_⟩
    · simpa using ascii_plain named ']' (by decide)
    · simpa using ascii_plain named '\\' (by decide)
    · exact namedItems?_eq_some.mpr ⟨name, own, by simp, named, same⟩
  · rw [readNamedClass?_of_head? caret] at read
    obtain ⟨name, own, rfl, named, same⟩ := namedItems?_eq_some.mp read
    refine ⟨':' :: (name ++ [':']), by simp, ?_, ?_, fun other => ?_⟩
    · simpa using ascii_plain named ']' (by decide)
    · simpa using ascii_plain named '\\' (by decide)
    · rw [List.cons_append, readNamedClass?_of_head?]
      · exact namedItems?_eq_some.mpr ⟨name, own, by simp, named, same⟩
      · cases name with
        | nil => simp
        | cons c name => simpa using caret

/-- A bracket that stands in the first part of a text is found there. -/
theorem split_at_bracket {front after first second : List Char}
    (split : front ++ ']' :: after = first ++ second) (absent : ']' ∉ front)
    (present : ']' ∈ first) : ∃ behind, first = front ++ ']' :: behind := by
  rcases List.append_eq_append_iff.mp split with ⟨more, rfl, same⟩ | ⟨more, rfl, same⟩
  · cases more with
    | nil =>
      rw [List.append_nil] at present
      exact absurd present absent
    | cons c more =>
      cases same
      exact ⟨more, rfl⟩
  · exact absurd (List.mem_append_left _ present) absent

/-- Whether a class by name begins is seen up to the next bracket. -/
theorem readNamedClass?_eq_none {first rest : List Char} (present : ']' ∈ first)
    (unnamed : readNamedClass? (first ++ rest) = none) (other : List Char) :
    readNamedClass? (first ++ other) = none := by
  cases read : readNamedClass? (first ++ other) with
  | none => rfl
  | some result =>
    obtain ⟨chars, after⟩ := result
    obtain ⟨front, split, absent, -, again⟩ := local_readNamedClass? read
    obtain ⟨behind, rfl⟩ := split_at_bracket split.symm absent present
    have found := again (behind ++ rest)
    rw [List.append_assoc, List.cons_append] at unnamed
    rw [found] at unnamed
    cases unnamed

/-! ## Whole classes -/

/-- A text that closes a class. -/
structure ClassText (token : List Char) : Prop where
  closed : escapedAfter false token = false
  bracket : token.getLast? = some ']'

theorem ClassText.append {first second : List Char} (front : escapedAfter false first = false)
    (back : ClassText second) : ClassText (first ++ second) := by
  refine ⟨by rw [escapedAfter_append, front, back.closed], ?_⟩
  have nonempty : second ≠ [] := by
    rintro rfl
    cases back.bracket
  rw [List.getLast?_append_of_ne_nil _ nonempty]
  exact back.bracket

theorem ClassText.sameStart {token : List Char} (text : ClassText token) (rest other : List Char) :
    SameStart (token ++ rest) (token ++ other) := by
  cases token with
  | nil => cases text.bracket
  | cons c token =>
    cases token with
    | nil =>
      cases text.bracket
      exact ⟨rfl, nofun⟩
    | cons d token => exact ⟨rfl, fun _ => rfl⟩

theorem ClassText.ne_nil {token : List Char} (text : ClassText token) : token ≠ [] := by
  rintro rfl
  cases text.bracket

/-- The text of a class read from here, whatever follows. -/
def ReadsClass (flags : Flags) (cls : OpenClass) (outer : List OpenClass) (input : List Char)
    (chars : Charset) (rest : List Char) : Prop :=
  ∃ token, input = token ++ rest ∧ ClassText token ∧ ∀ fuel other, token.length ≤ fuel →
    readClass? flags fuel cls outer (token ++ other) = some (chars, other)

/-- One more piece in front of a text that closes a class. -/
theorem ReadsClass.cons {flags : Flags} {cls next : OpenClass} {outer nextOuter : List OpenClass}
    {c : Char} {input rest : List Char} {chars : Charset} (piece : List Char)
    (behind : ReadsClass flags next nextOuter input chars rest)
    (closed : escapedAfter false (c :: piece) = false)
    (step : ∀ token other, input = token ++ rest → ClassText token → ∀ fuel,
      readClass? flags (fuel + 1) cls outer (c :: piece ++ (token ++ other)) =
        readClass? flags fuel next nextOuter (token ++ other)) :
    ReadsClass flags cls outer (c :: piece ++ input) chars rest := by
  obtain ⟨token, rfl, text, again⟩ := behind
  refine ⟨c :: piece ++ token, by simp, text.append closed, fun fuel other enough => ?_⟩
  rw [List.length_append, List.length_cons] at enough
  obtain ⟨fuel, rfl⟩ := Nat.exists_eq_add_of_lt (show 0 < fuel by omega)
  rw [Nat.zero_add, List.append_assoc, step token other rfl text]
  exact again _ _ (by omega)

theorem readClass?_range {flags : Flags} {cls : OpenClass} {outer : List OpenClass} {fuel : Nat}
    {c d : Char} {more : List Char} (notClose : c ≠ ']') (notOpen : c ≠ '[')
    (notOperation : c = d → c ∉ ['&', '-', '~']) :
    readClass? flags (fuel + 1) cls outer (c :: d :: more) =
      (readClassRange? flags (c :: d :: more)).bind fun item =>
        readClass? flags fuel (cls.add item.1) outer item.2 := by
  have operation (mark : Char) (listed : mark ∈ ['&', '-', '~']) (rest : List Char)
      (same : c :: d :: more = mark :: mark :: rest) : False := by
    cases same
    exact notOperation rfl listed
  rw [readClass?]
  · rfl
  · exact nofun
  · intro rest same
    cases same
    exact notClose rfl
  · intro rest same
    cases same
    exact notOpen rfl
  · exact operation '&' (by decide)
  · exact operation '-' (by decide)
  · exact operation '~' (by decide)

theorem local_readClass? {flags : Flags} {fuel : Nat} {cls : OpenClass} {outer : List OpenClass}
    {input rest : List Char} {chars : Charset}
    (read : readClass? flags fuel cls outer input = some (chars, rest)) :
    ReadsClass flags cls outer input chars rest := by
  fun_induction readClass? flags fuel cls outer input with
  | case1 => cases read
  | case2 => cases read
  | case3 fuel cls behind =>
    cases read
    refine ⟨[']'], rfl, ⟨rfl, rfl⟩, fun fuel other enough => ?_⟩
    obtain ⟨fuel, rfl⟩ := Nat.exists_eq_succ_of_ne_zero (Nat.pos_iff_ne_zero.mp enough)
    rfl
  | case4 _ _ _ _ _ ih => exact (ih read).cons [] rfl fun _ _ _ _ _ => rfl
  | case5 fuel cls outer behind named after found ih =>
    obtain ⟨front, rfl, -, plain, again⟩ := local_readNamedClass? found
    have next : ReadsClass flags cls outer ('[' :: (front ++ [']']) ++ after) chars rest := by
      refine (ih read).cons _ (escapedAfter_of_not_mem (by simp [plain])) fun token other _ _ fuel => ?_
      have shape : '[' :: (front ++ [']']) ++ (token ++ other) =
          '[' :: (front ++ ']' :: (token ++ other)) := by simp
      rw [shape, readClass?, again]
    simpa using next
  | case6 fuel cls outer behind unnamed inner after opened ih =>
    obtain ⟨lead, split, plain, again⟩ := local_openClass behind
    rw [opened] at split again
    subst split
    refine (ih read).cons _ (escapedAfter_of_not_mem (by simp [plain])) fun token other same text fuel => ?_
    have bracket : ']' ∈ lead ++ token :=
      List.mem_append_right _ (List.mem_of_getLast? text.bracket)
    have stillUnnamed : readNamedClass? (lead ++ (token ++ other)) = none := by
      rw [← List.append_assoc]
      rw [same, ← List.append_assoc] at unnamed
      exact readNamedClass?_eq_none bracket unnamed other
    have reopened := again (token ++ other) (by
      rw [show (inner, after).2 = token ++ rest from same]
      exact (text.sameStart rest other).first)
    rw [List.cons_append, readClass?, stillUnnamed]
    dsimp only
    rw [reopened]
  | case7 _ _ _ _ ih => exact (ih read).cons ['&'] rfl fun _ _ _ _ _ => rfl
  | case8 _ _ _ _ ih => exact (ih read).cons ['-'] rfl fun _ _ _ _ _ => rfl
  | case9 _ _ _ _ ih => exact (ih read).cons ['~'] rfl fun _ _ _ _ _ => rfl
  | case10 fuel cls outer input _ notClose notOpen and dash tilde ih =>
    obtain ⟨⟨range, after⟩, item, behindRead⟩ := Option.bind_eq_some_iff.mp read
    obtain ⟨c, token, rfl, closed, again⟩ := local_readClassRange? item
    refine (ih range after behindRead).cons _ closed fun behind other same text fuel => ?_
    subst same
    -- The piece and what closes the class have two characters at least, which tell the cases apart.
    obtain ⟨d, more, split⟩ : ∃ d more, token ++ behind = d :: more :=
      List.exists_cons_of_ne_nil (List.append_ne_nil_of_right_ne_nil _ text.ne_nil)
    have shape (other : List Char) : c :: token ++ (behind ++ other) = c :: d :: (more ++ other) := by
      rw [List.cons_append, ← List.append_assoc, split]
      rfl
    rw [shape] at notClose notOpen and dash tilde
    rw [shape, readClass?_range, ← shape, again _ (text.sameStart rest other)]
    · rfl
    · rintro rfl
      exact notClose _ rfl
    · rintro rfl
      exact notOpen _ rfl
    · rintro rfl listed
      simp only [List.mem_cons, List.not_mem_nil, or_false] at listed
      rcases listed with rfl | rfl | rfl
      · exact and _ rfl
      · exact dash _ rfl
      · exact tilde _ rfl

end Pattern

end SchemaSampler
