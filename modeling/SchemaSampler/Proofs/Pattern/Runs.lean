import SchemaSampler.Proofs.Pattern.Readings

/-!
# Runs of the reader

A run is the reader's steps from one place of a text to another. Two runs over the same front of a
text go through readings that are alike. A dollar sign that no backslash escapes is read on its own,
unless a comment runs over it to the end of the text.

Results:
1. `Pattern.reads_of_readAll?`: a pattern that is read is the outermost group of a run.
2. `Pattern.Reads.simulate`: a run over the front of one text, beside that over another.
3. `Pattern.Reads.dollar`: where a run reads a dollar sign.
4. `Pattern.Reads.alternative`: a run over an alternative with anchors, beside one without them.
-/

namespace SchemaSampler

namespace Pattern

/-! ## Runs -/

/-- Steps of the reader from a text to what it leaves of it. -/
inductive Reads : Reading → List Char → Reading → List Char → Prop
  | here (reading : Reading) (input : List Char) : Reads reading input reading input
  | step {reading next last : Reading} {c : Char} {input rest left : List Char}
    (one : step? reading c input = some (next, rest)) (later : Reads next rest last left) :
    Reads reading (c :: input) last left

/-- A comment is passed over. -/
theorem step?_comment {reading : Reading} (verbose : reading.flags.verbose = true)
    (input : List Char) : step? reading '#' input = some (reading, input.dropWhile (· != '\n')) := by
  have notBlank : isSpace '#' = false := by decide +kernel
  simp [step?, verbose, notBlank]

theorem suffix_of_step? {reading next : Reading} {c : Char} {input rest : List Char}
    (one : step? reading c input = some (next, rest)) : rest <:+ input := by
  rcases local_step? one with ⟨token, rfl, -⟩ | ⟨-, -, -, rfl⟩
  · exact List.suffix_append token rest
  · exact List.dropWhile_suffix _

theorem Reads.suffix {reading last : Reading} {input left : List Char}
    (run : Reads reading input last left) : left <:+ input := by
  induction run with
  | here => exact List.suffix_rfl
  | step one _ ih => exact ih.trans ((suffix_of_step? one).trans (List.suffix_cons _ _))

/-- A run that leaves less than all of its text begins with a step. -/
theorem Reads.first {reading last : Reading} {c : Char} {input left : List Char}
    (run : Reads reading (c :: input) last left) (less : left.length ≤ input.length) :
    ∃ next rest, step? reading c input = some (next, rest) ∧ Reads next rest last left := by
  cases run with
  | here => exact absurd less (Nat.not_succ_le_self _)
  | step one later => exact ⟨_, _, one, later⟩

/-- A run that leaves all of its text makes no step. -/
theorem Reads.eq_of_length {reading last : Reading} {input left : List Char}
    (run : Reads reading input last left) (all : input.length ≤ left.length) : last = reading := by
  cases run with
  | here => rfl
  | step one later =>
    have shorter := (later.suffix.trans (suffix_of_step? one)).length_le
    exact absurd all (Nat.not_le_of_lt (Nat.lt_succ_of_le shorter))

/-- Of two runs over a text the one that leaves less goes on from the other. -/
theorem Reads.from {reading middle last : Reading} {input left less : List Char}
    (run : Reads reading input middle left) (further : Reads reading input last less)
    (shorter : less.length ≤ left.length) : Reads middle left last less := by
  induction run with
  | here => exact further
  | step one later ih =>
    have within := (later.suffix.trans (suffix_of_step? one)).length_le
    obtain ⟨next, rest, same, further⟩ := further.first (shorter.trans within)
    obtain ⟨rfl, rfl⟩ := Prod.mk.inj (Option.some.inj (one.symm.trans same))
    exact ih further shorter

theorem Reads.trans {reading middle last : Reading} {input left less : List Char}
    (run : Reads reading input middle left) (further : Reads middle left last less) :
    Reads reading input last less := by
  induction run with
  | here => exact further
  | step one _ ih => exact .step one (ih further)

/-! ## Two runs side by side -/

/-- What is left of a comment is not the text behind it, unless that is empty or a new line. -/
theorem eq_nil_of_suffix_dropWhile {tail : List Char} (suffix : tail <:+ tail.dropWhile (· != '\n'))
    (line : tail.head? ≠ some '\n') : tail = [] := by
  cases tail with
  | nil => rfl
  | cons c rest =>
    have other : (c != '\n') = true := by
      rw [bne_iff_ne]
      rintro rfl
      exact line rfl
    rw [List.dropWhile_cons, if_pos other] at suffix
    exact absurd (suffix.length_le.trans (List.dropWhile_suffix _).length_le) (Nat.not_succ_le_self _)

/-- A comment in front of a text ends before the text, or the text is empty. -/
theorem comment_split {front tail : List Char} (suffix : tail <:+ (front ++ tail).dropWhile (· != '\n'))
    (line : tail.head? ≠ some '\n') :
    front.dropWhile (· != '\n') = [] ∧ tail = [] ∨ ∃ comment more, front = comment ++ '\n' :: more ∧
      ∀ other, (front ++ other).dropWhile (· != '\n') = '\n' :: more ++ other := by
  cases ended : front.dropWhile (· != '\n') with
  | nil =>
    rw [List.dropWhile_append, ended, List.isEmpty_nil, if_pos rfl] at suffix
    exact .inl ⟨rfl, eq_nil_of_suffix_dropWhile suffix line⟩
  | cons c more =>
    obtain ⟨split, newline, again⟩ := takeWhile_local ended
    obtain rfl : c = '\n' := by simpa using newline
    refine .inr ⟨_, more, split, fun other => ?_⟩
    rw [split, List.append_assoc]
    exact (again _).2

/-- The texts go on alike behind one that both begin with. -/
theorem Follows.append {tail other : List Char} (follows : Follows tail other) (front : List Char) :
    Follows (front ++ tail) (front ++ other) := by
  cases front with
  | nil => exact follows
  | cons c rest => exact Iff.rfl

/-- A step that stays in the front of a text is made over the same front of another text. -/
theorem step?_front {front tail other rest : List Char} {reading next : Reading} {c : Char}
    (one : step? reading c (front ++ tail) = some (next, rest)) (within : tail <:+ rest)
    (follows : Follows tail other) (ended : tail = [] → other = [])
    (line : tail.head? ≠ some '\n') :
    ∃ more, rest = more ++ tail ∧ step? reading c (front ++ other) = some (next, more ++ other) := by
  rcases local_step? one with ⟨token, split, -, again⟩ | ⟨verbose, rfl, rfl, rfl⟩
  · obtain ⟨more, rfl⟩ := within
    rw [← List.append_assoc] at split
    refine ⟨more, rfl, ?_⟩
    rw [List.append_cancel_right split, List.append_assoc]
    exact again _ (follows.append more)
  · rw [step?_comment verbose]
    rcases comment_split within line with ⟨passed, rfl⟩ | ⟨_, more, -, again⟩
    · rw [ended rfl, List.append_nil, passed]
      exact ⟨[], rfl, rfl⟩
    · exact ⟨'\n' :: more, again tail, by rw [again]⟩

/-- A run over the front of a text is followed by one over the same front of another text. -/
theorem Reads.simulate {front tail bodyTail : List Char} {reading last body bodyLast : Reading}
    (run : Reads reading (front ++ tail) last tail) (alike : reading.Alike body)
    (bodyRun : Reads body (front ++ bodyTail) bodyLast []) (follows : Follows tail bodyTail)
    (ended : tail = [] → bodyTail = []) (line : tail.head? ≠ some '\n') :
    ∃ middle, Reads middle bodyTail bodyLast [] ∧ last.Alike middle := by
  generalize whole : front ++ tail = input at run
  induction run generalizing front body with
  | here =>
    obtain rfl : front = [] := List.append_left_eq_self.mp whole
    exact ⟨body, bodyRun, alike⟩
  | @step reading next last c input rest left one later ih =>
    have within := later.suffix
    obtain _ | ⟨d, front⟩ := front
    · subst whole
      exact absurd (within.trans (suffix_of_step? one)).length_le (Nat.not_succ_le_self _)
    obtain ⟨rfl, rfl⟩ := List.cons.inj whole
    obtain ⟨bodyNext, bodyRest, bodyOne, bodyLater⟩ := bodyRun.first (Nat.zero_le _)
    obtain ⟨more, rfl, again⟩ := step?_front one within follows ended line
    obtain ⟨rfl, alike⟩ := alike.step d _ _ _ _ _ again bodyOne
    exact ih alike bodyLater follows ended line rfl

/-- A step in front of a dollar sign that no backslash escapes stays in front of it, unless a
comment runs over it to the end of the text. -/
theorem step?_dollar {front tail rest : List Char} {reading next : Reading} {c : Char}
    (one : step? reading c (front ++ '$' :: tail) = some (next, rest)) (within : tail <:+ rest)
    (closed : escapedAfter false (c :: front) = false) (line : tail.head? ≠ some '\n') :
    (∃ lead more, c :: front = lead ++ more ∧ rest = more ++ '$' :: tail ∧
        escapedAfter false more = false) ∨
      next = reading ∧ reading.flags.verbose = true ∧ c = '#' ∧
        front.dropWhile (· != '\n') = [] ∧ tail = [] ∧ rest = [] := by
  have shape : front ++ '$' :: tail = front ++ ['$'] ++ tail := by simp
  rw [shape] at one
  rcases local_step? one with ⟨token, split, text, -⟩ | ⟨verbose, rfl, rfl, rfl⟩
  · obtain ⟨more, rfl⟩ := within
    rw [← List.append_assoc] at split
    have split := List.append_cancel_right split
    rcases List.eq_nil_or_concat' more with rfl | ⟨more, last, rfl⟩
    · -- The token ends with the dollar sign: it is an escape, whose backslash stands in front.
      rw [List.append_nil] at split
      obtain ⟨rfl, rfl⟩ := text.dollar (by rw [← split, List.getLast?_concat])
      obtain rfl : front = [] := List.append_left_eq_self.mp split
      cases closed
    · rw [← List.append_assoc] at split
      obtain ⟨rfl, same⟩ := List.append_inj' split rfl
      cases same
      rw [← List.cons_append, escapedAfter_append, text.closed] at closed
      exact .inl ⟨c :: token, more, rfl, by simp, closed⟩
  · rcases comment_split within line with ⟨passed, rfl⟩ | ⟨comment, more, split, again⟩
    · refine .inr ⟨rfl, verbose, rfl, ?_, rfl, by rw [List.append_nil, passed]⟩
      have inside := List.dropWhile_eq_nil_iff.mp passed
      exact List.dropWhile_eq_nil_iff.mpr fun c listed => inside c (List.mem_append_left _ listed)
    · rcases List.eq_nil_or_concat' more with rfl | ⟨more, last, rfl⟩
      · cases (List.append_inj' split rfl).2
      · rw [← List.cons_append, ← List.append_assoc] at split
        obtain ⟨rfl, same⟩ := List.append_inj' split rfl
        cases same
        refine .inl ⟨'#' :: comment, '\n' :: more, rfl, by rw [again]; simp, ?_⟩
        rw [← List.cons_append, escapedAfter_append] at closed
        -- The new line is no backslash, so it does not matter whether it is escaped.
        cases escaped : escapedAfter false ('#' :: comment) <;> rw [escaped] at closed <;>
          exact closed

/-- A dollar sign that no backslash escapes is read on its own, unless it ends the text in a
comment. -/
theorem Reads.dollar {front tail : List Char} {reading last : Reading}
    (run : Reads reading (front ++ '$' :: tail) last tail)
    (closed : escapedAfter false front = false) (line : tail.head? ≠ some '\n') :
    (∃ middle, Reads reading (front ++ '$' :: tail) middle ('$' :: tail) ∧
        step? middle '$' tail = some (last, tail)) ∨
      tail = [] ∧ last.flags.verbose = true ∧ ∃ before comment, front = before ++ '#' :: comment ∧
        comment.dropWhile (· != '\n') = [] ∧
        Reads reading (front ++ ['$']) last ('#' :: comment ++ ['$']) := by
  generalize whole : front ++ '$' :: tail = input at run
  induction run generalizing front with
  | here =>
    have length := congrArg List.length whole
    rw [List.length_append, List.length_cons] at length
    omega
  | @step reading next last c input rest left one later ih =>
    have within := later.suffix
    obtain _ | ⟨d, front⟩ := front
    · obtain ⟨rfl, rfl⟩ := List.cons.inj whole
      obtain rfl := (suffix_of_step? one).eq_of_length_le within.length_le
      rw [later.eq_of_length le_rfl]
      exact .inl ⟨reading, .here _ _, one⟩
    obtain ⟨rfl, rfl⟩ := List.cons.inj whole
    rcases step?_dollar one within closed line with
      ⟨lead, more, split, rfl, closed⟩ | ⟨rfl, verbose, rfl, passed, rfl, rfl⟩
    · rw [split]
      rcases ih closed line rfl with ⟨middle, run, dollar⟩ | ⟨rfl, verbose, before, comment, rfl,
        passed, run⟩
      · exact .inl ⟨middle, .step one run, dollar⟩
      · refine .inr ⟨rfl, verbose, lead ++ before, comment, by simp, passed, ?_⟩
        rw [← split]
        exact .step one run
    · rw [later.eq_of_length le_rfl]
      exact .inr ⟨rfl, verbose, [], front, rfl, passed, .here _ _⟩

/-! ## Alternatives -/

/-- A bar or the end follows in both texts. -/
def BothEnd (tail other : List Char) : Prop :=
  tail = [] ∧ other = [] ∨ tail.head? = some '|' ∧ other.head? = some '|'

theorem BothEnd.line {tail other : List Char} (both : BothEnd tail other) :
    tail.head? ≠ some '\n' := by
  rcases both with ⟨rfl, -⟩ | ⟨bar, -⟩
  · nofun
  · rw [bar]
    decide

theorem BothEnd.follows {tail other : List Char} (both : BothEnd tail other) :
    Follows tail other := by
  rcases both with ⟨rfl, rfl⟩ | ⟨bar, otherBar⟩
  · exact Iff.rfl
  · rw [Follows, bar, otherBar]

theorem BothEnd.ended {tail other : List Char} (both : BothEnd tail other) (ended : tail = []) :
    other = [] := by
  rcases both with ⟨-, rfl⟩ | ⟨bar, -⟩
  · rfl
  · rw [ended] at bar
    cases bar

section

variable {front tail bodyTail : List Char} {reading last body bodyLast : Reading}

/-- A caret at the start of an alternative. -/
theorem Reads.caret (run : Reads reading ('^' :: front) last tail)
    (less : tail.length ≤ front.length) (alike : Reading.AlikeOutside [] reading body)
    (fresh : reading.group.parts = []) (bodyFresh : body.group.parts = []) :
    ∃ next, Reads next front last tail ∧ Reading.AlikeOutside [] next body := by
  obtain ⟨next, rest, one, later⟩ := run.first less
  cases one
  refine ⟨_, later, alike.startAnchor fresh bodyFresh ?_⟩
  split
  · exact .inr rfl
  · exact .inl rfl

/-- A dollar sign at the end of an alternative. -/
theorem Reads.endAnchor (run : Reads reading (front ++ '$' :: tail) last tail)
    (closed : escapedAfter false front = false) (alike : reading.Alike body)
    (bodyRun : Reads body (front ++ bodyTail) bodyLast []) (both : BothEnd tail bodyTail)
    (outside : last.outer = []) :
    ∃ middle back, Reads middle bodyTail bodyLast [] ∧ (∀ part ∈ back, EndAnchor part) ∧
      Reading.AlikeOutside back last middle := by
  rcases run.dollar closed both.line with ⟨middle, toDollar, one⟩ |
    ⟨rfl, verbose, before, comment, rfl, passed, toComment⟩
  · cases one
    have follows : Follows ('$' :: tail) bodyTail := by
      rcases both with ⟨-, rfl⟩ | ⟨-, bar⟩
      · exact Iff.intro nofun nofun
      · rw [Follows, bar]
        exact Iff.intro nofun nofun
    obtain ⟨bodyMiddle, later, alike⟩ := toDollar.simulate alike bodyRun follows nofun nofun
    have anchor : EndAnchor (.item (look (if middle.flags.multiline then .lineEnd else .textEnd))) := by
      split
      · exact .inr rfl
      · exact .inl rfl
    exact ⟨bodyMiddle, _, later, List.forall_mem_singleton.mpr anchor,
      (alike.outside outside).endAnchor anchor⟩
  · -- The comment is passed over with and without the dollar sign.
    rw [both.ended rfl, List.append_nil] at bodyRun
    rw [List.append_assoc] at toComment
    obtain ⟨middle, later, alike⟩ := toComment.simulate alike bodyRun Iff.rfl nofun nofun
    obtain ⟨next, rest, one, later⟩ := later.first (Nat.zero_le _)
    rw [step?_comment (alike.flags ▸ verbose), passed] at one
    cases one
    rw [both.ended rfl]
    exact ⟨middle, [], later, nofun, alike.outside outside⟩

/-- An alternative is read up to its end, and so is what remains of it without its anchors. -/
theorem Reads.alternative {caret dollar : List Char}
    (run : Reads reading (caret ++ (front ++ (dollar ++ tail))) last tail)
    (starts : caret = [] ∨ caret = ['^'])
    (finishes : dollar = [] ∨ dollar = ['$'] ∧ escapedAfter false front = false)
    (alike : Reading.AlikeOutside [] reading body) (fresh : reading.group.parts = [])
    (bodyFresh : body.group.parts = []) (bodyRun : Reads body (front ++ bodyTail) bodyLast [])
    (both : BothEnd tail bodyTail) (outside : last.outer = []) :
    ∃ middle back, Reads middle bodyTail bodyLast [] ∧ (∀ part ∈ back, EndAnchor part) ∧
      Reading.AlikeOutside back last middle := by
  obtain ⟨next, run, alike⟩ : ∃ next, Reads next (front ++ (dollar ++ tail)) last tail ∧
      Reading.AlikeOutside [] next body := by
    rcases starts with rfl | rfl
    · exact ⟨reading, run, alike⟩
    · have less : tail.length ≤ (front ++ (dollar ++ tail)).length := by
        rw [List.length_append, List.length_append]
        omega
      exact run.caret less alike fresh bodyFresh
  rcases finishes with rfl | ⟨rfl, closed⟩
  · obtain ⟨middle, later, alike⟩ :=
      run.simulate alike.alike bodyRun both.follows both.ended both.line
    exact ⟨middle, [], later, nofun, alike.outside outside⟩
  · exact run.endAnchor closed alike.alike bodyRun both outside

end

end Pattern

end SchemaSampler
