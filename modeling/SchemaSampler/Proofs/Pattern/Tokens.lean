import SchemaSampler.Proofs.Pattern.Classes

/-!
# Tokens of patterns

The reader of patterns goes from token to token. What a token means is seen from its own
characters: whatever text follows, as long as it does not go on with what would have belonged to the
token, the reader takes the same characters and goes on in the same state. Comments are the
exception, they reach to the end of the line.

Results:
1. `Pattern.local_readGroup?`: what opens a group, with its name or its flags.
2. `Pattern.local_readCounts?`, `Pattern.local_readRepetition?`: repetitions.
3. `Pattern.local_step?`: a step reads a token, or passes over a comment.
-/

namespace SchemaSampler

namespace Pattern

/-! ## Groups -/

/-- The texts agree in whether they go on with the mark that a token before them takes in. -/
def Follows (rest other : List Char) : Prop := other.head? = some '?' ↔ rest.head? = some '?'

/-- Flag letters up to a mark, whatever follows the mark. -/
def ReadsFlags (flags : Flags) (seen input : List Char) (result : Flags) (rest : List Char) : Prop :=
  ∃ letters mark after, input = letters ++ mark :: after ∧ rest = mark :: after ∧
    (mark = ':' ∨ mark = ')') ∧ '\\' ∉ letters ∧ ∀ fuel other, letters.length < fuel →
      readFlags? fuel flags seen (letters ++ mark :: other) = some (result, mark :: other)

theorem ReadsFlags.cons {flags next result : Flags} {seen nextSeen input rest : List Char} {c : Char}
    (behind : ReadsFlags next nextSeen input result rest) (plain : c ≠ '\\')
    (step : ∀ fuel input,
      readFlags? (fuel + 1) flags seen (c :: input) = readFlags? fuel next nextSeen input) :
    ReadsFlags flags seen (c :: input) result rest := by
  obtain ⟨letters, mark, after, rfl, rfl, marks, plainLetters, again⟩ := behind
  refine ⟨c :: letters, mark, after, rfl, rfl, marks, ?_, fun fuel other enough => ?_⟩
  · rw [List.mem_cons, not_or]
    exact ⟨Ne.symm plain, plainLetters⟩
  · rw [List.length_cons] at enough
    obtain ⟨fuel, rfl⟩ := Nat.exists_eq_add_of_lt (show 0 < fuel by omega)
    rw [Nat.zero_add, List.cons_append, step]
    exact again _ _ (by omega)

theorem local_readFlags? {fuel : Nat} {flags result : Flags} {seen input rest : List Char}
    (read : readFlags? fuel flags seen input = some (result, rest)) :
    ReadsFlags flags seen input result rest := by
  fun_induction readFlags? fuel flags seen input with
  | case1 => cases read
  | case2 => cases read
  | case3 => cases read
  | case4 fuel flags seen c behind mark notDash =>
    cases read
    have marks : c = ':' ∨ c = ')' := by simpa using mark
    refine ⟨[], c, behind, rfl, rfl, marks, List.not_mem_nil, fun fuel other enough => ?_⟩
    obtain ⟨fuel, rfl⟩ := Nat.exists_eq_add_of_lt enough
    show (if c == ':' || c == ')' then
      if seen.head? == some '-' then none else some (result, c :: other) else _) = _
    rw [if_pos mark, if_neg notDash]
  | case5 => cases read
  | case6 fuel flags seen c behind noMark new dash ih =>
    refine (ih read).cons (by simp [eq_of_beq dash]) fun fuel input => ?_
    rw [readFlags?, if_neg noMark, if_neg new, if_pos dash]
  | case7 fuel flags seen c behind noMark new letter ih =>
    obtain ⟨next, set, behindRead⟩ := Option.bind_eq_some_iff.mp read
    refine (ih next behindRead).cons (fun same => ?_) fun fuel input => ?_
    · rw [same] at set
      cases set
    · rw [readFlags?, if_neg noMark, if_neg new, if_neg letter, set]
      rfl

theorem local_readNamedGroup? {reading next : Reading} {input rest : List Char}
    (read : readNamedGroup? reading input = some (next, rest)) :
    ∃ token, input = token ++ rest ∧ Plain token ∧
      ∀ other, readNamedGroup? reading (token ++ other) = some (next, other) := by
  unfold readNamedGroup? at read
  dsimp only at read
  split at read
  next mark after found =>
    obtain ⟨split, ended, again⟩ := takeWhile_local found
    obtain ⟨named, same⟩ := Option.ite_none_right_eq_some.mp read
    cases same
    have closing : mark = '>' := by simpa using ended
    subst closing
    refine ⟨input.takeWhile (· != '>') ++ ['>'], by simpa using split, ?_, fun other => ?_⟩
    · refine plain_concat (fun listed => ?_) (by decide)
      simp only [Bool.and_eq_true, List.all_eq_true] at named
      exact absurd (named.1.2 _ listed) (by decide)
    · rw [List.append_assoc, List.singleton_append]
      unfold readNamedGroup?
      dsimp only
      rw [(again other).1, (again other).2]
      exact if_pos named
  next => cases read

/-- What follows the flags of a group: its inside, or nothing more of a setting. -/
def afterFlags? (reading : Reading) (first : Option Char) (flags : Flags) :
    List Char → Option (Reading × List Char)
  | ':' :: rest => some (reading.openGroup none flags, rest)
  | ')' :: rest =>
    if first == some ')' then none else some ({ reading.push .setting with flags }, rest)
  | _ => none

theorem readGroup?_flags {reading : Reading} {input : List Char}
    (notNamed : ∀ rest, input ≠ 'P' :: '<' :: rest) (notPlain : ∀ rest, input ≠ '<' :: rest) :
    readGroup? reading ('?' :: input) =
      (readFlags? (input.length + 1) reading.flags [] input).bind fun item =>
        afterFlags? reading input.head? item.1 item.2 := by
  rw [readGroup?]
  · rfl
  · exact notNamed
  · exact notPlain

/-- Flag letters and the mark behind them start no name. -/
theorem readGroup?_letters {reading : Reading} {letters after : List Char} {mark : Char}
    (marks : mark = ':' ∨ mark = ')')
    (notNamed : ∀ rest, letters ++ mark :: after ≠ 'P' :: '<' :: rest)
    (notPlain : ∀ rest, letters ++ mark :: after ≠ '<' :: rest) (other : List Char) :
    readGroup? reading ('?' :: (letters ++ mark :: other)) =
      (readFlags? ((letters ++ mark :: other).length + 1) reading.flags []
        (letters ++ mark :: other)).bind fun item =>
          afterFlags? reading (letters ++ mark :: after).head? item.1 item.2 := by
  have sameHead : (letters ++ mark :: other).head? = (letters ++ mark :: after).head? := by
    cases letters <;> rfl
  rw [← sameHead]
  refine readGroup?_flags (fun rest same => ?_) fun rest same => ?_
  · obtain _ | ⟨c, _ | ⟨d, letters⟩⟩ := letters
    · cases same
      simp at marks
    · cases same
      simp at marks
    · cases same
      exact notNamed _ rfl
  · obtain _ | ⟨c, letters⟩ := letters
    · cases same
      simp at marks
    · cases same
      exact notPlain _ rfl

/-- A group with flags, or a setting of flags. -/
theorem local_readFlaggedGroup? {reading next : Reading} {input rest : List Char}
    (notNamed : ∀ rest, input ≠ 'P' :: '<' :: rest) (notPlain : ∀ rest, input ≠ '<' :: rest)
    (read : readGroup? reading ('?' :: input) = some (next, rest)) :
    ∃ token, '?' :: input = token ++ rest ∧ Plain token ∧
      ∀ other, readGroup? reading (token ++ other) = some (next, other) := by
  rw [readGroup?_flags notNamed notPlain] at read
  obtain ⟨⟨flags, tail⟩, flagged, opened⟩ := Option.bind_eq_some_iff.mp read
  obtain ⟨letters, mark, after, rfl, rfl, marks, plain, again⟩ := local_readFlags? flagged
  have text : Plain ('?' :: letters ++ [mark]) := by
    refine plain_concat ?_ ?_
    · rw [List.mem_cons, not_or]
      exact ⟨by decide, plain⟩
    · rcases marks with rfl | rfl <;> decide
  have again (other : List Char) : readGroup? reading ('?' :: letters ++ [mark] ++ other) =
      afterFlags? reading (letters ++ mark :: after).head? flags (mark :: other) := by
    have shape : '?' :: letters ++ [mark] ++ other = '?' :: (letters ++ mark :: other) := by simp
    have enough : letters.length < (letters ++ mark :: other).length + 1 := by
      rw [List.length_append]
      omega
    rw [shape, readGroup?_letters marks notNamed notPlain, again _ _ enough]
    rfl
  rcases marks with rfl | rfl
  · cases opened
    exact ⟨'?' :: letters ++ [':'], by simp, text, again⟩
  · obtain ⟨nonempty, same⟩ := Option.ite_none_left_eq_some.mp opened
    cases same
    refine ⟨'?' :: letters ++ [')'], by simp, text, fun other => (again other).trans ?_⟩
    exact if_neg nonempty

theorem local_readGroup? {reading next : Reading} {input rest : List Char}
    (read : readGroup? reading input = some (next, rest)) :
    ∃ token, input = token ++ rest ∧ Plain token ∧
      ∀ other, Follows rest other → readGroup? reading (token ++ other) = some (next, other) := by
  have named (lead : List Char) (start : ∀ input, readGroup? reading (lead ++ input) =
      readNamedGroup? reading input) (plain : Plain lead) {input : List Char}
      (read : readNamedGroup? reading input = some (next, rest)) :
      ∃ token, lead ++ input = token ++ rest ∧ Plain token ∧ ∀ other, Follows rest other →
        readGroup? reading (token ++ other) = some (next, other) := by
    obtain ⟨token, rfl, text, again⟩ := local_readNamedGroup? read
    refine ⟨lead ++ token, by simp, plain.append text, fun other _ => ?_⟩
    rw [List.append_assoc, start, again]
  fun_cases readGroup? reading input with
  | case1 => exact named ['?', 'P', '<'] (fun _ => rfl) ⟨by decide, by decide⟩ read
  | case2 => exact named ['?', '<'] (fun _ => rfl) ⟨by decide, by decide⟩ read
  | case3 behind notNamed notPlain =>
    obtain ⟨token, split, plain, again⟩ := local_readFlaggedGroup? notNamed notPlain read
    exact ⟨token, split, plain, fun other _ => again other⟩
  | case4 _ notNamed notPlain notFlags =>
    rw [readGroup?] at read
    · cases read
      refine ⟨[], rfl, plain_nil, fun other follows => ?_⟩
      have noMark : ∀ rest, other ≠ '?' :: rest := by
        rintro rest rfl
        obtain ⟨asked, rfl⟩ := List.head?_eq_some_iff.mp (follows.mp rfl)
        exact notFlags _ rfl
      rw [List.nil_append, readGroup?]
      · exact fun rest => noMark _
      · exact fun rest => noMark _
      · exact fun rest => noMark _
    · exact notNamed
    · exact notPlain
    · exact notFlags

/-! ## Repetitions -/

/-- Leading characters are passed over whatever follows the first other one. -/
theorem dropWhile_local {p : Char → Bool} {input more : List Char} {c : Char}
    (found : input.dropWhile p = c :: more) (other : List Char) :
    (input.takeWhile p ++ c :: other).dropWhile p = c :: other :=
  ((takeWhile_local found).2.2 other).2

theorem not_mem_takeWhile {p : Char → Bool} {c : Char} (outside : p c = false) (input : List Char) :
    c ∉ input.takeWhile p := by
  intro listed
  have inside := List.mem_takeWhile_imp listed
  rw [outside] at inside
  cases inside

theorem local_readCount? {input after : List Char} {count : Nat} {mark : Char}
    (read : readCount? input = some (count, mark :: after)) :
    ∃ c token, input = c :: token ++ mark :: after ∧ '\\' ∉ c :: token ∧
      ∀ other, readCount? (c :: token ++ mark :: other) = some (count, mark :: other) := by
  obtain ⟨valid, same⟩ := Option.ite_none_left_eq_some.mp read
  obtain ⟨value, ended⟩ := Prod.mk.inj (Option.some.inj same)
  -- Blanks, digits and blanks again, each up to the first other character.
  let blanks := input.takeWhile isSpace
  let number := input.dropWhile isSpace
  let digits := number.takeWhile Char.isDigit
  let behind := number.dropWhile Char.isDigit
  let moreBlanks := behind.takeWhile isSpace
  have nonempty : digits ≠ [] := by
    intro none
    rw [show number.takeWhile Char.isDigit = [] from none] at valid
    exact valid rfl
  obtain ⟨d, digitsRest, digitsEq⟩ := List.exists_cons_of_ne_nil nonempty
  have numberEq : number = digits ++ behind := List.takeWhile_append_dropWhile.symm
  have behindEq : behind = moreBlanks ++ mark :: after := (takeWhile_local ended).1
  have start (other : List Char) :
      (blanks ++ (digits ++ other)).dropWhile isSpace = digits ++ other := by
    have found : input.dropWhile isSpace = d :: (digitsRest ++ behind) := by
      rw [show input.dropWhile isSpace = digits ++ behind from numberEq, digitsEq]
      rfl
    rw [digitsEq]
    exact dropWhile_local found _
  have middle (other : List Char) :
      (digits ++ (moreBlanks ++ mark :: other)).takeWhile Char.isDigit = digits ∧
        (digits ++ (moreBlanks ++ mark :: other)).dropWhile Char.isDigit =
          moreBlanks ++ mark :: other := by
    cases split : moreBlanks with
    | nil =>
      rw [split] at behindEq
      exact (takeWhile_local behindEq).2.2 other
    | cons e rest =>
      rw [split] at behindEq
      exact (takeWhile_local behindEq).2.2 _
  have text : '\\' ∉ blanks ++ digits ++ moreBlanks := by
    simp only [List.mem_append, not_or]
    exact ⟨⟨not_mem_takeWhile (by decide +kernel) _, not_mem_takeWhile (by decide) _⟩,
      not_mem_takeWhile (by decide +kernel) _⟩
  have shape (other : List Char) : blanks ++ digits ++ moreBlanks ++ mark :: other =
      blanks ++ (digits ++ (moreBlanks ++ mark :: other)) := by simp
  have again (other : List Char) :
      readCount? (blanks ++ digits ++ moreBlanks ++ mark :: other) = some (count, mark :: other) := by
    rw [shape]
    unfold readCount?
    dsimp only
    rw [start, (middle other).1, (middle other).2, dropWhile_local ended other, if_neg valid]
    exact congrArg (fun value => some (value, mark :: other)) value
  have split : input = blanks ++ digits ++ moreBlanks ++ mark :: after := by
    rw [shape, ← behindEq, ← numberEq]
    exact List.takeWhile_append_dropWhile.symm
  obtain ⟨c, token, tokenEq⟩ := List.exists_cons_of_ne_nil
    (show blanks ++ digits ++ moreBlanks ≠ [] by simp [digitsEq])
  rw [tokenEq] at text again split
  exact ⟨c, token, split, text, again⟩

theorem local_readCounts? {input rest : List Char} {least : Nat} {most : Option Nat}
    (read : readCounts? input = some (least, most, rest)) :
    ∃ token, input = token ++ rest ∧ Plain token ∧ ∀ other,
      readCounts? (token ++ other) = some (least, most, other) := by
  obtain ⟨⟨first, after⟩, count, ended⟩ := Option.bind_eq_some_iff.mp read
  dsimp only at ended
  split at ended
  next tail =>
    cases ended
    obtain ⟨c, token, rfl, plain, again⟩ := local_readCount? count
    refine ⟨c :: token ++ ['\x7d'], by simp, plain_concat plain (by decide), fun other => ?_⟩
    rw [List.append_assoc, List.singleton_append]
    exact Option.bind_eq_some_iff.mpr ⟨_, again other, rfl⟩
  next tail =>
    cases ended
    obtain ⟨c, token, rfl, plain, again⟩ := local_readCount? count
    have text : '\\' ∉ c :: token ++ [','] := by simpa using plain
    refine ⟨c :: token ++ [','] ++ ['\x7d'], by simp, plain_concat text (by decide), fun other => ?_⟩
    rw [List.append_assoc, List.append_assoc, List.singleton_append, List.singleton_append]
    exact Option.bind_eq_some_iff.mpr ⟨_, again _, rfl⟩
  next tail notOpen =>
    obtain ⟨⟨second, after⟩, more, ended⟩ := Option.bind_eq_some_iff.mp ended
    split at ended
    next same =>
      cases same
      obtain ⟨ordered, same⟩ := Option.ite_none_right_eq_some.mp ended
      cases same
      obtain ⟨c, token, rfl, plain, again⟩ := local_readCount? count
      obtain ⟨d, digits, rfl, plainDigits, againDigits⟩ := local_readCount? more
      have text : '\\' ∉ c :: token ++ [','] ++ (d :: digits) := by
        simp only [List.mem_append, not_or]
        exact ⟨⟨plain, by decide⟩, plainDigits⟩
      refine ⟨c :: token ++ [','] ++ (d :: digits) ++ ['\x7d'], by simp,
        plain_concat text (by decide), fun other => ?_⟩
      have shape : c :: token ++ [','] ++ (d :: digits) ++ ['\x7d'] ++ other =
          c :: token ++ ',' :: (d :: digits ++ '\x7d' :: other) := by simp
      rw [shape]
      refine Option.bind_eq_some_iff.mpr ⟨_, again _, ?_⟩
      dsimp only
      split
      next tail same => cases same
      next tail same =>
        cases same
        exact absurd rfl (notOpen _)
      next tail _ same =>
        cases same
        exact Option.bind_eq_some_iff.mpr ⟨_, againDigits other, if_pos ordered⟩
      next unmatched => exact absurd rfl (unmatched _)
    next => cases ended
  next => cases ended

theorem local_readRepetition? {reading next : Reading} {least : Nat} {most : Option Nat}
    {input rest : List Char}
    (read : readRepetition? reading least most input = some (next, rest)) :
    ∃ token, input = token ++ rest ∧ Plain token ∧ ∀ other, Follows rest other →
      readRepetition? reading least most (token ++ other) = some (next, other) := by
  unfold readRepetition? at read
  split at read
  next =>
    obtain ⟨own, repeated, same⟩ := Option.map_eq_some_iff.mp read
    cases same
    refine ⟨['?'], rfl, ⟨by decide, by decide⟩, fun other _ => ?_⟩
    show (reading.repeatLast? least most true).map _ = _
    rw [repeated]
    rfl
  next notLazy =>
    obtain ⟨own, repeated, same⟩ := Option.map_eq_some_iff.mp read
    cases same
    refine ⟨[], rfl, plain_nil, fun other follows => ?_⟩
    rw [List.nil_append, readRepetition?]
    · rw [repeated]
      rfl
    · rintro behind rfl
      obtain ⟨asked, rfl⟩ := List.head?_eq_some_iff.mp (follows.mp rfl)
      exact notLazy _ rfl

/-! ## Steps -/

/-- The text of a token that starts with `c`; it ends with a dollar sign when that is escaped only. -/
structure TokenText (c : Char) (token : List Char) : Prop where
  closed : escapedAfter false (c :: token) = false
  dollar : token.getLast? = some '$' → c = '\\' ∧ token = ['$']

theorem Plain.tokenText {c : Char} {token : List Char} (plain : Plain token) (own : c ≠ '\\') :
    TokenText c token :=
  ⟨escapedAfter_cons_of_not_mem (.inr own) plain.1, fun last => absurd last plain.2⟩

theorem EscapeText.tokenText {token : List Char} (text : EscapeText token) :
    TokenText '\\' token :=
  ⟨text.closed, fun last => ⟨rfl, text.dollar last⟩⟩

/-- The step reads a token of this text, whatever follows. -/
def ReadsToken (reading : Reading) (c : Char) (input : List Char) (next : Reading)
    (rest : List Char) : Prop :=
  ∃ token, input = token ++ rest ∧ TokenText c token ∧ ∀ other, Follows rest other →
    step? reading c (token ++ other) = some (next, other)

theorem readsToken_single {reading next : Reading} {c : Char} {input rest : List Char}
    (own : c ≠ '\\') (same : input = rest) (read : ∀ other, step? reading c other = some (next, other)) :
    ReadsToken reading c input next rest :=
  ⟨[], same, plain_nil.tokenText own, fun other _ => read other⟩

theorem readsToken_class {reading next : Reading} {input rest : List Char}
    (read : step? reading '[' input = some (next, rest)) : ReadsToken reading '[' input next rest := by
  have start (input : List Char) : step? reading '[' input =
      (readClass? reading.flags (input.length + 1) (openClass input).1 [] (openClass input).2).map
        fun item => (reading.add (ofSet item.1), item.2) := rfl
  rw [start] at read
  obtain ⟨⟨chars, rest⟩, inside, same⟩ := Option.map_eq_some_iff.mp read
  cases same
  obtain ⟨lead, split, plain, again⟩ := local_openClass input
  obtain ⟨token, inner, text, againInside⟩ := local_readClass? inside
  rw [inner] at split again
  refine ⟨lead ++ token, by rw [List.append_assoc]; exact split, ⟨?_, fun last => ?_⟩,
    fun other _ => ?_⟩
  · have front : escapedAfter false ('[' :: lead) = false :=
      escapedAfter_cons_of_not_mem (.inr (by decide)) plain
    rw [← List.cons_append, escapedAfter_append, front, text.closed]
  · rw [List.getLast?_append_of_ne_nil _ text.ne_nil, text.bracket] at last
    cases last
  · rw [List.append_assoc]
    have reopened := again (token ++ other) (text.sameStart rest other).first
    rw [start, reopened, againInside _ _ (by simp only [List.length_append]; omega)]
    rfl

/-- A step reads a token, or passes over a comment. -/
theorem local_step? {reading next : Reading} {c : Char} {input rest : List Char}
    (read : step? reading c input = some (next, rest)) :
    ReadsToken reading c input next rest ∨
      reading.flags.verbose = true ∧ c = '#' ∧ next = reading ∧ rest = input.dropWhile (· != '\n') := by
  have repetition (least : Nat) (most : Option Nat) (c : Char) (own : c ≠ '\\')
      (start : ∀ input, step? reading c input = readRepetition? reading least most input)
      (read : readRepetition? reading least most input = some (next, rest)) :
      ReadsToken reading c input next rest := by
    obtain ⟨token, split, plain, again⟩ := local_readRepetition? read
    exact ⟨token, split, plain.tokenText own, fun other follows => by rw [start, again other follows]⟩
  unfold step? at read
  split at read
  · -- a group
    obtain ⟨token, split, plain, again⟩ := local_readGroup? read
    exact .inl ⟨token, split, plain.tokenText (by decide), again⟩
  · obtain ⟨closed, found, same⟩ := Option.map_eq_some_iff.mp read
    cases same
    refine .inl (readsToken_single (by decide) rfl fun other => ?_)
    show reading.closeGroup?.map _ = _
    rw [found]
    rfl
  · cases read
    exact .inl (readsToken_single (by decide) rfl fun _ => rfl)
  · exact .inl (readsToken_class read)
  · exact .inl (repetition _ _ '*' (by decide) (fun _ => rfl) read)
  · exact .inl (repetition _ _ '+' (by decide) (fun _ => rfl) read)
  · exact .inl (repetition _ _ '?' (by decide) (fun _ => rfl) read)
  · obtain ⟨⟨least, most, behind⟩, counts, repeated⟩ := Option.bind_eq_some_iff.mp read
    obtain ⟨first, rfl, plain, again⟩ := local_readCounts? counts
    obtain ⟨second, rfl, alsoPlain, alsoAgain⟩ := local_readRepetition? repeated
    refine .inl ⟨first ++ second, by simp, (plain.append alsoPlain).tokenText (by decide),
      fun other follows => ?_⟩
    rw [List.append_assoc]
    exact Option.bind_eq_some_iff.mpr ⟨_, again _, alsoAgain other follows⟩
  · cases read
    exact .inl (readsToken_single (by decide) rfl fun _ => rfl)
  · cases read
    exact .inl (readsToken_single (by decide) rfl fun _ => rfl)
  · cases read
    exact .inl (readsToken_single (by decide) rfl fun _ => rfl)
  · obtain ⟨⟨escape, behind⟩, escaped, meant⟩ := Option.bind_eq_some_iff.mp read
    obtain ⟨token, rfl, text, again⟩ := local_readEscape? escaped
    refine .inl ⟨token, ?_, text.tokenText, fun other _ => ?_⟩
    · cases escape <;> cases meant <;> rfl
    · refine Option.bind_eq_some_iff.mpr ⟨_, again other, ?_⟩
      cases escape <;> cases meant <;> rfl
  next input _ _ _ _ _ _ _ _ _ _ _ escape =>
    have alone (other : List Char) : step? reading c other =
        if reading.flags.verbose && isSpace c then some (reading, other)
        else if reading.flags.verbose && c == '#' then some (reading, other.dropWhile (· != '\n'))
        else some (reading.add (setPattern reading.flags (.single c)), other) := by
      simp only [step?]
    split at read
    next blank =>
      cases read
      exact .inl (readsToken_single escape rfl fun other => by rw [alone, if_pos blank])
    next notBlank =>
      split at read
      next comment =>
        cases read
        rw [Bool.and_eq_true, beq_iff_eq] at comment
        exact .inr ⟨comment.1, comment.2, rfl, rfl⟩
      next notComment =>
        cases read
        refine .inl (readsToken_single escape rfl fun other => ?_)
        rw [alone, if_neg notBlank, if_neg notComment]

end Pattern

end SchemaSampler
