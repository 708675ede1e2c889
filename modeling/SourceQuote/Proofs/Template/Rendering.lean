import SourceQuote.Proofs.FirstFailure
import SourceQuote.Template.Basic

/-!
Contract: when a template can be rendered, and what it binds.

Owns: the outcome of `renderTexts` for every list of arguments, and the argument that
a name is bound to.

Does not own: what segments hold. The laws here are true of every template.
-/

namespace SourceQuote

namespace Identifier

theorem parse_eq_ok {text : String} {identifier : Identifier}
    (parsed : parse text = .ok identifier) : identifier.text = text := by
  unfold parse ofString? at parsed
  by_cases shape : Text.isIdentifier text = true
  · simp only [dif_pos shape] at parsed
    cases parsed
    rfl
  · simp only [dif_neg shape] at parsed
    contradiction

theorem parse_eq_error {text : String} {error : Error} (failed : parse text = .error error) :
    Text.isIdentifier text = false ∧ error = .invalidIdentifier text := by
  unfold parse ofString? at failed
  by_cases shape : Text.isIdentifier text = true
  · simp only [dif_pos shape] at failed
    contradiction
  · simp only [dif_neg shape] at failed
    cases failed
    exact ⟨eq_false_of_ne_true shape, rfl⟩

/-- Reading texts as identifiers leaves them as they are. -/
theorem map_text_of_parsed {texts : List String} {identifiers : List Identifier}
    (parsed : List.Forall₂ (fun text identifier => parse text = .ok identifier)
      texts identifiers) :
    identifiers.map Identifier.text = texts := by
  induction parsed with
  | nil => rfl
  | cons headParsed _ inductionHypothesis =>
      rw [List.map_cons, parse_eq_ok headParsed, inductionHypothesis]

end Identifier

def firstMisshapen? (texts : List String) : Option String :=
  texts.find? fun text => !Text.isIdentifier text

theorem firstMisshapen?_eq_none {texts : List String} :
    firstMisshapen? texts = none ↔ ∀ text ∈ texts, Text.isIdentifier text = true := by
  simp [firstMisshapen?]

theorem firstMisshapen?_split {before after : List String} {bad : String}
    (earlierShaped : ∀ text ∈ before, Text.isIdentifier text = true)
    (misshapen : Text.isIdentifier bad = false) :
    firstMisshapen? (before ++ bad :: after) = some bad := by
  have passed : firstMisshapen? before = none := firstMisshapen?_eq_none.mpr earlierShaped
  rw [firstMisshapen?] at passed
  rw [firstMisshapen?, List.find?_append, passed, List.find?_cons_of_pos (by simp [misshapen])]
  rfl

namespace Template

/-- The outcome of rendering, for every list of arguments: their number is looked at
first, then their shape from left to right, and nothing else can fail. -/
theorem renderTexts_eq (template : Template) (arguments : List String) :
    template.renderTexts arguments =
      if arguments.length = template.arity then
        match firstMisshapen? arguments with
        | some bad => .error (.invalidIdentifier bad)
        | none => .ok (template.instantiate arguments)
      else
        .error (.arityMismatch template.arity arguments.length) := by
  unfold renderTexts checkArity
  by_cases sameCount : arguments.length = template.arity
  · rw [if_pos sameCount, if_pos sameCount]
    rcases mapM_ok_or_firstFailure Identifier.parse arguments with
      ⟨identifiers, succeeded, parsed⟩ |
        ⟨bad, error, failed, ⟨before, after, split, earlierParsed⟩, badFails⟩
    · have texts := Identifier.map_text_of_parsed parsed
      have shaped : firstMisshapen? arguments = none := by
        rw [firstMisshapen?_eq_none, ← texts]
        intro text member
        obtain ⟨identifier, _, rfl⟩ := List.mem_map.mp member
        exact identifier.shape
      have count : identifiers.length = template.arity := by
        rw [← sameCount, ← texts, List.length_map]
      rw [shaped, succeeded]
      change template.render identifiers = _
      unfold render checkArity
      rw [if_pos count, texts]
      rfl
    · obtain ⟨misshapen, rfl⟩ := Identifier.parse_eq_error badFails
      have found : firstMisshapen? arguments = some bad := by
        rw [split]
        refine firstMisshapen?_split ?_ misshapen
        intro text member
        obtain ⟨identifier, textParsed⟩ := earlierParsed text member
        rw [← Identifier.parse_eq_ok textParsed]
        exact identifier.shape
      rw [found, failed]
      rfl
  · rw [if_neg sameCount, if_neg sameCount]
    rfl

/-- A name is bound to the argument at the first position that declares it. -/
theorem lookup_zip {parameters arguments : List String}
    (sameCount : arguments.length = parameters.length) (name : String) :
    (parameters.zip arguments).lookup name =
      if name ∈ parameters then arguments[parameters.idxOf name]? else none := by
  induction parameters generalizing arguments with
  | nil => simp
  | cons parameter rest inductionHypothesis =>
      cases arguments with
      | nil => simp at sameCount
      | cons argument others =>
          rw [List.zip_cons_cons]
          by_cases same : name = parameter
          · subst same
            simp
          · have further := inductionHypothesis (Nat.succ.inj sameCount)
            have headDiffers : parameter ≠ name := fun equal => same equal.symm
            rw [List.lookup_cons, beq_false_of_ne same]
            simp only [further, List.mem_cons, same, false_or,
              List.idxOf_cons_ne rest headDiffers, List.getElem?_cons_succ]

end Template

end SourceQuote
