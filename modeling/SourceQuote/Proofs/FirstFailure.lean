import Mathlib.Data.List.Forall2

/-!
Contract: doing something to each item of a list stops at the first failure.

Owns: the two ways in which `mapM` over `Except` can end. The rendering of arguments
and the pass over a file are both such runs.
-/

namespace SourceQuote

variable {Item Result Failure : Type}

/-- The items of a list up to one that fails, all earlier ones having succeeded. -/
structure FirstFailure (action : Item → Except Failure Result) (items : List Item)
    (item : Item) (failure : Failure) : Prop where
  split : ∃ before after, items = before ++ item :: after ∧
    ∀ earlier ∈ before, ∃ result, action earlier = .ok result
  fails : action item = .error failure

/-- Either every item succeeds and the results come in the order of the items, or the
failure is that of the first item that fails. -/
theorem mapM_ok_or_firstFailure (action : Item → Except Failure Result)
    (items : List Item) :
    (∃ results, items.mapM action = .ok results ∧
      List.Forall₂ (fun item result => action item = .ok result) items results) ∨
    (∃ item failure, items.mapM action = .error failure ∧
      FirstFailure action items item failure) := by
  induction items with
  | nil => exact .inl ⟨[], rfl, .nil⟩
  | cons item rest inductionHypothesis =>
      rw [List.mapM_cons]
      cases ran : action item with
      | error failure =>
          exact .inr ⟨item, failure, rfl, ⟨[], rest, rfl, fun _ member => nomatch member⟩, ran⟩
      | ok result =>
          rcases inductionHypothesis with ⟨results, succeeded, agree⟩ |
            ⟨later, failure, failed, ⟨before, after, split, earlierOk⟩, fails⟩
          · rw [succeeded]
            exact .inl ⟨result :: results, rfl, .cons ran agree⟩
          · rw [failed]
            refine .inr ⟨later, failure, rfl, ⟨item :: before, after, ?_, ?_⟩, fails⟩
            · rw [split, List.cons_append]
            · intro earlier member
              rcases List.mem_cons.mp member with rfl | further
              · exact ⟨result, ran⟩
              · exact earlierOk earlier further

/-- What is made of every result may be made of each as it comes. -/
theorem mapM_map_result {Other : Type} (action : Item → Except Failure Result)
    (convert : Result → Other) (items : List Item) :
    (items.mapM fun item => (action item).map convert) =
      (items.mapM action).map (List.map convert) := by
  induction items with
  | nil => rfl
  | cons item rest inductionHypothesis =>
      rw [List.mapM_cons, List.mapM_cons, inductionHypothesis]
      cases action item with
      | error failure => rfl
      | ok result =>
          cases rest.mapM action with
          | error failure => rfl
          | ok results => rfl

/-- A run fails exactly with the failure of the first item that fails, whatever comes later. -/
theorem mapM_eq_error_iff {action : Item → Except Failure Result} {items : List Item}
    {failure : Failure} :
    items.mapM action = .error failure ↔
      ∃ item, FirstFailure action items item failure := by
  constructor
  · intro failed
    rcases mapM_ok_or_firstFailure action items with
      ⟨results, succeeded, _⟩ | ⟨item, other, otherFailed, first⟩
    · rw [succeeded] at failed
      cases failed
    · rw [otherFailed] at failed
      cases failed
      exact ⟨item, first⟩
  · rintro ⟨item, ⟨before, after, rfl, earlierOk⟩, fails⟩
    induction before with
    | nil =>
        rw [List.nil_append, List.mapM_cons, fails]
        rfl
    | cons head rest inductionHypothesis =>
        obtain ⟨result, ran⟩ := earlierOk head List.mem_cons_self
        have later := inductionHypothesis fun earlier member =>
          earlierOk earlier (List.mem_cons_of_mem _ member)
        rw [List.cons_append, List.mapM_cons, ran, later]
        rfl

/-- A run fails exactly if some item fails. -/
theorem mapM_fails_iff {action : Item → Except Failure Result} {items : List Item} :
    (∃ failure, items.mapM action = .error failure) ↔
      ∃ item ∈ items, ∃ failure, action item = .error failure := by
  constructor
  · rintro ⟨failure, failed⟩
    obtain ⟨item, ⟨before, after, rfl, _⟩, fails⟩ := mapM_eq_error_iff.mp failed
    exact ⟨item, List.mem_append_right _ List.mem_cons_self, failure, fails⟩
  · rintro ⟨item, member, failure, fails⟩
    induction items with
    | nil => cases member
    | cons head rest inductionHypothesis =>
        rw [List.mapM_cons]
        cases ran : action head with
        | error other => exact ⟨other, rfl⟩
        | ok result =>
            rcases List.mem_cons.mp member with rfl | later
            · rw [ran] at fails
              cases fails
            · obtain ⟨other, failed⟩ := inductionHypothesis later
              rw [failed]
              exact ⟨other, rfl⟩

end SourceQuote
