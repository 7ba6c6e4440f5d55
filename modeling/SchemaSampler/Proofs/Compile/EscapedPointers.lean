import SchemaSampler.Proofs.Compile.BinderRuns

/-!
# Escaped names in pointers

A name is escaped to a single segment of a pointer: its tildes become `~0`, then its slashes become
`~1`. Reading a segment takes the two steps back in the opposite order, so it gives the name again,
also where the name looks like an escape itself. The pointers to definitions therefore lead to the
slots of their names and tell all names apart.

Results:
1. `Pointer.segmentName_escape`: a segment names what was escaped.
2. `Binder.resolve_toDefinition`: the slot of an escaped name.
3. `Binder.escaped_pointers_resolve`: pointers to definitions after any run of a binder.
-/

namespace SchemaSampler

namespace Pointer

/-- Replaces every occurrence of a character. -/
def replace (c : Char) (replacement text : List Char) : List Char :=
  text.flatMap fun d => if d = c then replacement else [d]

/-- The segment of a name. -/
def escape (name : String) : List Char :=
  replace '/' ['~', '1'] (replace '~' ['~', '0'] name.toList)

/-- The pointer to the definition of a name. -/
def toDefinition (name : String) : String := "#/definitions/" ++ String.ofList (escape name)

/-! ## Replacing a character -/

variable {c d : Char} {replacement : List Char}

theorem replace_cons_self (text : List Char) :
    replace c replacement (c :: text) = replacement ++ replace c replacement text := by
  rw [replace, List.flatMap_cons, if_pos rfl]
  rfl

theorem replace_cons_of_ne (other : d ≠ c) (text : List Char) :
    replace c replacement (d :: text) = d :: replace c replacement text := by
  rw [replace, List.flatMap_cons, if_neg other]
  rfl

theorem not_mem_replace (fresh : c ∉ replacement) (text : List Char) :
    c ∉ replace c replacement text := by
  intro present
  obtain ⟨d, -, added⟩ := List.mem_flatMap.mp present
  split at added
  next => exact fresh added
  next other => exact other (List.mem_singleton.mp added).symm

/-! ## Escaping and reading back -/

theorem unescape_cons_of_ne {escape : Char} (plain : d ≠ '~') (text : List Char) :
    unescape escape c (d :: text) = d :: unescape escape c text := by
  rw [unescape]
  rintro _ _ ⟨⟩
  exact absurd rfl plain

/-- Behind a tilde there is a zero, so no escaped slash arises from a name. -/
theorem unescape_slashes (name : List Char) :
    unescape '1' '/' (replace '/' ['~', '1'] (replace '~' ['~', '0'] name)) =
      replace '~' ['~', '0'] name := by
  induction name with
  | nil => rfl
  | cons d rest ih =>
    by_cases tilde : d = '~'
    · subst tilde
      rw [replace_cons_self, List.cons_append, List.singleton_append,
        replace_cons_of_ne (by decide), replace_cons_of_ne (by decide), unescape,
        if_neg (by decide), unescape_cons_of_ne (by decide), ih]
    · rw [replace_cons_of_ne tilde]
      by_cases slash : d = '/'
      · subst slash
        rw [replace_cons_self, List.cons_append, List.singleton_append, unescape,
          if_pos (by decide), ih]
      · rw [replace_cons_of_ne slash, unescape_cons_of_ne tilde, ih]

theorem unescape_tildes (name : List Char) :
    unescape '0' '~' (replace '~' ['~', '0'] name) = name := by
  induction name with
  | nil => rfl
  | cons d rest ih =>
    by_cases tilde : d = '~'
    · subst tilde
      rw [replace_cons_self, List.cons_append, List.singleton_append, unescape,
        if_pos (by decide), ih]
    · rw [replace_cons_of_ne tilde, unescape_cons_of_ne tilde, ih]

/-- The segment of a name names it. -/
theorem segmentName_escape (name : String) : segmentName (escape name) = name := by
  rw [segmentName, escape, unescape_slashes, unescape_tildes, String.ofList_toList]

theorem slash_not_mem_escape (name : String) : '/' ∉ escape name :=
  not_mem_replace (by decide) _

theorem toList_toDefinition (name : String) :
    (toDefinition name).toList = "#/definitions".toList ++ '/' :: escape name := by
  have segment : (String.ofList (escape name)).toList = escape name := String.toList_ofList
  rw [toDefinition, String.toList_append, segment]
  rfl

end Pointer

namespace Binder

open Pointer

/-- A pointer to a definition leads to the slot of its name and nowhere else. -/
theorem resolve_toDefinition (binder : Binder) (name : String) :
    binder.resolve (toDefinition name) = match binder.index.get? name with
      | some slot => .ok slot
      | none => .error (.unresolvedReference (toDefinition name)) := by
  have last : lastSegment? (toDefinition name) = some (escape name) :=
    lastSegment?_eq_some.mpr ⟨_, toList_toDefinition name, slash_not_mem_escape name⟩
  have inside : ¬ (toDefinition name = "" ∨ toDefinition name = rootPointer) := by
    -- Neither the empty pointer nor the root's has a slash.
    rintro (empty | root)
    · rw [empty] at last
      cases last
    · rw [root] at last
      cases last
  cases found : binder.index.get? name <;>
    simp [resolve, inside, last, segmentName_escape, found]

theorem resolve_toDefinition_eq_ok {binder : Binder} {name : String} {slot : Nat} :
    binder.resolve (toDefinition name) = .ok slot ↔ binder.index.get? name = some slot := by
  rw [resolve_toDefinition]
  cases binder.index.get? name <;> simp

/-- After any calls on a new binder, the pointer to a definition leads to the slot that its name was
registered with; a name that was not registered is unresolved. Pointers to different definitions
lead to different slots. -/
theorem escaped_pointers_resolve (calls : List Call) :
    (∀ earlier name later, calls = earlier ++ .register name :: later →
      (run calls).resolve (toDefinition name) = .ok ((run earlier).register name).1) ∧
    (∀ name, .register name ∉ calls → (run calls).resolve (toDefinition name) =
      .error (.unresolvedReference (toDefinition name))) ∧
    ∀ name other slot, (run calls).resolve (toDefinition name) = .ok slot →
      (run calls).resolve (toDefinition other) = .ok slot → name = other := by
  have consistent := consistent_run calls
  refine ⟨?_, fun name absent => ?_, fun name other slot found also => ?_⟩
  · rintro earlier name later rfl
    rw [resolve_toDefinition_eq_ok, List.append_cons]
    refine get?_run ?_ later
    rw [run_concat, after, get?_register, if_pos rfl]
  · have unnamed : name ∉ (run calls).names.tail := by
      rw [names_run, List.tail_cons, List.mem_eraseDups, List.mem_filterMap]
      rintro ⟨call, listed, named⟩
      cases call with
      | register other =>
        cases named
        exact absent listed
      | fill => cases named
    have missing : (run calls).index.get? name = none := by
      rw [Option.eq_none_iff_forall_ne_some]
      exact fun slot found => unnamed (consistent.found_iff.mp ⟨slot, found⟩)
    rw [resolve_toDefinition, missing]
  · rw [resolve_toDefinition_eq_ok] at found also
    exact consistent.injective found also

/-- Names that look like escapes, the empty one and the root's, each with a slot of its own. -/
example :
    let names := ["~1", "/", "~01", "", "#", "a/b~"]
    let binder := run (names.map .register)
    names.map (fun name => (binder.resolve (toDefinition name)).toOption) =
        [some 1, some 2, some 3, some 4, some 5, some 6] ∧
      names.map toDefinition = ["#/definitions/~01", "#/definitions/~1", "#/definitions/~001",
        "#/definitions/", "#/definitions/#", "#/definitions/a~1b~0"] := by decide +kernel

end Binder

end SchemaSampler
