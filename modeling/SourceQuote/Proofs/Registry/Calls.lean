import SourceQuote.Proofs.Storage.Files
import SourceQuote.Proofs.Text.ByteOrder

/-!
Contract: registries under whole histories of calls.

Owns: the calls that change a registry, the registrations that each of them makes, what a
registry answers after any sequence of calls, and that callers who keep to classes of their own
cannot tell in which order their calls were taken.

A batch of registrations is one call: no other call comes between its parts.
-/

namespace SourceQuote

/-- The order of classes by the bytes of their modules, then of their names. -/
def ClassId.Precedes (first second : ClassId) : Prop :=
  Text.bytes first.moduleName < Text.bytes second.moduleName ∨
    first.moduleName = second.moduleName ∧ Text.bytes first.name < Text.bytes second.name

theorem ClassId.precedes_of_compare {first second : ClassId}
    (before : compare first second = .lt) : first.Precedes second := by
  have parts : compare first.moduleName second.moduleName = .lt ∨
      compare first.moduleName second.moduleName = .eq ∧
        compare first.name second.name = .lt :=
    Ordering.then_eq_lt.mp before
  rcases parts with module | ⟨module, name⟩
  · exact .inl ((Text.compare_eq_lt_iff _ _).mp module)
  · exact .inr ⟨Std.LawfulEqOrd.eq_of_compare module, (Text.compare_eq_lt_iff _ _).mp name⟩

namespace Registry

/-- A call that changes a registry. `stored` is the text of the manifest at the time of the call,
`none` if it cannot be read. -/
inductive Call where
  | register (classId : ClassId) (repository : Repository)
  | registerAll (repositories : List Repository)
  | loadManifest (path : String) (stored : Option String)

def perform (registry : Registry) : Call → Registry
  | .register classId repository => registry.register classId repository
  | .registerAll repositories => registry.registerAll repositories
  | .loadManifest path stored =>
      match registry.loadManifest path stored with
      | .ok (loaded, _) => loaded
      | .error _ => registry

def history (calls : List Call) : Registry :=
  calls.foldl perform empty

/-- Why a manifest cannot be loaded: its text cannot be read, stands for no manifest, or stands
for one of another version. -/
inductive LoadFails (path : String) : Option String → Error → Prop
  | unreadable : LoadFails path none .file
  | malformed {text : String} :
      (Json.parse? text).bind Manifest.ofJson? = none → LoadFails path (some text) .json
  | otherVersion {text : String} {manifest : Manifest} :
      (Json.parse? text).bind Manifest.ofJson? = some manifest →
      manifest.version ≠ Manifest.currentVersion →
      LoadFails path (some text) (.config (.manifestVersion path manifest.version))

theorem loadManifest_eq_error (registry : Registry) (path : String) (stored : Option String)
    (error : Error) :
    registry.loadManifest path stored = .error error ↔ LoadFails path stored error := by
  constructor
  · intro failed
    cases stored with
    | none =>
        cases failed
        exact .unreadable
    | some text =>
        cases decoded : (Json.parse? text).bind Manifest.ofJson? with
        | none =>
            simp only [loadManifest, Manifest.parse, decoded] at failed
            cases failed
            exact .malformed decoded
        | some manifest =>
            by_cases current : manifest.version = Manifest.currentVersion
            · simp only [loadManifest, Manifest.parse, decoded, if_pos current] at failed
              cases failed
            · simp only [loadManifest, Manifest.parse, decoded, if_neg current] at failed
              cases failed
              exact .otherVersion decoded current
  · intro fails
    cases fails with
    | unreadable => rfl
    | malformed decoded => simp only [loadManifest, Manifest.parse, decoded]; rfl
    | otherVersion decoded other =>
        simp only [loadManifest, Manifest.parse, decoded, if_neg other]
        rfl

/-! ## Registrations -/

def Call.registrations : Call → List (ClassId × Repository)
  | .register classId repository => [(classId, repository)]
  | .registerAll repositories => repositories.map fun repository => (repository.classId, repository)
  | .loadManifest _ none => []
  | .loadManifest path (some text) =>
      match Manifest.parse path text with
      | .ok manifest => manifest.repositories.map fun repository => (repository.classId, repository)
      | .error _ => []

def registrations (calls : List Call) : List (ClassId × Repository) :=
  calls.flatMap Call.registrations

theorem registrations_cons (call : Call) (calls : List Call) :
    registrations (call :: calls) = call.registrations ++ registrations calls :=
  List.flatMap_cons

theorem registrations_append (earlier later : List Call) :
    registrations (earlier ++ later) = registrations earlier ++ registrations later :=
  List.flatMap_append

/-- The repository of the last registration under a class. -/
def lastUnder (classId : ClassId) (registrations : List (ClassId × Repository)) :
    Option Repository :=
  (registrations.filter fun registration => registration.1 = classId).getLast?.map Prod.snd

theorem lastUnder_append (classId : ClassId) (earlier later : List (ClassId × Repository)) :
    lastUnder classId (earlier ++ later) =
      (lastUnder classId later).or (lastUnder classId earlier) := by
  simp [lastUnder, List.getLast?_append, Option.map_or]

theorem lastUnder_own (classId : ClassId) (repositories : List Repository) :
    lastUnder classId (repositories.map fun repository => (repository.classId, repository)) =
      (repositories.filter fun repository => repository.classId = classId).getLast? := by
  rw [lastUnder, List.filter_map, List.getLast?_map, Option.map_map]
  simp [Function.comp_def]

theorem isSome_lastUnder (classId : ClassId) (registrations : List (ClassId × Repository)) :
    (lastUnder classId registrations).isSome = true ↔
      classId ∈ registrations.map Prod.fst := by
  simp [lastUnder]

theorem lastUnder_eq_none (classId : ClassId) (registrations : List (ClassId × Repository)) :
    lastUnder classId registrations = none ↔ classId ∉ registrations.map Prod.fst := by
  rw [← isSome_lastUnder, Bool.not_eq_true, Option.isSome_eq_false_iff, Option.isNone_iff_eq_none]

theorem get?_perform (registry : Registry) (call : Call) (classId : ClassId) :
    (registry.perform call).repositories.get? classId =
      (lastUnder classId call.registrations).or (registry.repositories.get? classId) := by
  cases call with
  | register key repository =>
      rw [perform, register, SortedMap.get?_insert]
      by_cases same : classId = key
      · simp [Call.registrations, lastUnder, same]
      · simp [Call.registrations, lastUnder, same, Ne.symm same]
  | registerAll repositories =>
      rw [perform, get?_registerAll_eq, Call.registrations, lastUnder_own]
  | loadManifest path stored =>
      cases stored with
      | none => rfl
      | some text =>
          cases parsed : Manifest.parse path text with
          | error error =>
              simp only [perform, loadManifest, parsed, Call.registrations]
              rfl
          | ok manifest =>
              simp only [perform, loadManifest, parsed, Call.registrations, lastUnder_own]
              exact get?_registerAll_eq registry manifest.repositories classId

theorem get?_foldl_perform (registry : Registry) (calls : List Call) (classId : ClassId) :
    (calls.foldl perform registry).repositories.get? classId =
      (lastUnder classId (registrations calls)).or (registry.repositories.get? classId) := by
  induction calls generalizing registry with
  | nil => rfl
  | cons call rest inductionHypothesis =>
      rw [List.foldl_cons, inductionHypothesis, get?_perform, registrations_cons,
        lastUnder_append, Option.or_assoc]

theorem get?_history (calls : List Call) (classId : ClassId) :
    (history calls).repositories.get? classId = lastUnder classId (registrations calls) := by
  rw [history, get?_foldl_perform]
  exact Option.or_none

theorem eq_of_lookups {first second : Registry}
    (same : ∀ classId, first.repositories.get? classId = second.repositories.get? classId) :
    first = second := by
  have sameMaps : first.repositories = second.repositories := SortedMap.eq_of_get?_eq same
  cases first
  cases second
  exact congrArg Registry.mk sameMaps

/-! ## Several callers -/

/-- A sequence of calls that takes the calls of each caller in their order, one at a time from
whichever caller. -/
inductive Interleaves : List (List Call) → List Call → Prop
  | done {callers : List (List Call)} : (∀ calls ∈ callers, calls = []) → Interleaves callers []
  | next {front back : List (List Call)} {call : Call} {rest mixed : List Call} :
      Interleaves (front ++ rest :: back) mixed →
      Interleaves (front ++ (call :: rest) :: back) (call :: mixed)

def touched (calls : List Call) : List ClassId :=
  (registrations calls).map Prod.fst

/-- Whether no class is registered by two of the callers. -/
def Apart (callers : List (List Call)) : Prop :=
  callers.Pairwise fun calls others => ∀ classId ∈ touched calls, classId ∉ touched others

theorem touched_cons (call : Call) (calls : List Call) :
    touched (call :: calls) = call.registrations.map Prod.fst ++ touched calls := by
  rw [touched, registrations_cons, List.map_append, touched]

theorem Apart.tail_of {front back : List (List Call)} {call : Call} {rest : List Call}
    (apart : Apart (front ++ (call :: rest) :: back)) : Apart (front ++ rest :: back) := by
  unfold Apart at apart ⊢
  simp only [List.pairwise_append, List.pairwise_cons, List.mem_cons] at apart ⊢
  obtain ⟨frontApart, ⟨headApart, backApart⟩, across⟩ := apart
  have fewer : ∀ classId ∈ touched rest, classId ∈ touched (call :: rest) := by
    intro classId isTouched
    rw [touched_cons]
    exact List.mem_append_right _ isTouched
  refine ⟨frontApart, ⟨fun others isBack classId isTouched => ?_, backApart⟩, ?_⟩
  · exact headApart others isBack classId (fewer classId isTouched)
  · rintro calls isFront others (rfl | isBack) classId isTouched
    · intro alsoTouched
      exact across calls isFront _ (.inl rfl) classId isTouched (fewer classId alsoTouched)
    · exact across calls isFront others (.inr isBack) classId isTouched

/-- A class that the next call registers is registered by none of the callers in front. -/
theorem Apart.lastUnder_front {front back : List (List Call)} {call : Call} {rest : List Call}
    (apart : Apart (front ++ (call :: rest) :: back)) {classId : ClassId}
    (isTouched : classId ∈ call.registrations.map Prod.fst) :
    lastUnder classId (registrations front.flatten) = none := by
  rw [lastUnder_eq_none]
  intro isFrontTouched
  obtain ⟨registration, isRegistered, rfl⟩ := List.mem_map.mp isFrontTouched
  obtain ⟨other, isOther, isMade⟩ := List.mem_flatMap.mp isRegistered
  obtain ⟨calls, isFront, isCall⟩ := List.mem_flatten.mp isOther
  have alsoTouched : registration.1 ∈ touched calls :=
    List.mem_map_of_mem (List.mem_flatMap.mpr ⟨other, isCall, isMade⟩)
  refine (List.pairwise_append.mp apart).2.2 calls isFront _ List.mem_cons_self _ alsoTouched ?_
  rw [touched_cons]
  exact List.mem_append_left _ isTouched

/-- The last registration under a class is the last one of the caller that owns the class, so it is
what taking the callers one after the other leads to. -/
theorem Interleaves.lastUnder_eq {callers : List (List Call)} {mixed : List Call}
    (interleaves : Interleaves callers mixed) (apart : Apart callers) (classId : ClassId) :
    lastUnder classId (registrations mixed) =
      lastUnder classId (registrations callers.flatten) := by
  induction interleaves with
  | done finished => rw [List.flatten_eq_nil_iff.mpr finished]
  | @next front back call rest mixed _ inductionHypothesis =>
      have onward := inductionHypothesis apart.tail_of
      simp only [List.flatten_append, List.flatten_cons, registrations_append, registrations_cons,
        lastUnder_append] at onward ⊢
      rw [onward]
      by_cases isTouched : classId ∈ call.registrations.map Prod.fst
      · simp [apart.lastUnder_front isTouched, Option.or_assoc]
      · simp [(lastUnder_eq_none _ _).mpr isTouched]

theorem Interleaves.history_eq {callers : List (List Call)} {mixed : List Call}
    (interleaves : Interleaves callers mixed) (apart : Apart callers) :
    history mixed = history callers.flatten := by
  apply eq_of_lookups
  intro classId
  rw [get?_history, get?_history, interleaves.lastUnder_eq apart]

/-! ## Whole histories -/

theorem lastUnder_eq_some {classId : ClassId} {repository : Repository}
    {earlier later : List (ClassId × Repository)} (isLast : classId ∉ later.map Prod.fst) :
    lastUnder classId (earlier ++ (classId, repository) :: later) = some repository := by
  have absent : lastUnder classId later = none := (lastUnder_eq_none _ _).mpr isLast
  have cut : earlier ++ (classId, repository) :: later =
      earlier ++ ([(classId, repository)] ++ later) := rfl
  rw [cut, lastUnder_append, lastUnder_append, absent]
  simp [lastUnder]

theorem precedes_classes (registry : Registry) :
    registry.classes.Pairwise ClassId.Precedes := by
  rw [classes, SortedMap.keys, List.pairwise_map]
  exact registry.repositories.ascending.imp fun before => ClassId.precedes_of_compare before

theorem history_of_failing (calls : List Call) {path : String} {stored : Option String}
    {error : Error} (fails : LoadFails path stored error) :
    history (calls ++ [.loadManifest path stored]) = history calls := by
  have failed := (loadManifest_eq_error (history calls) path stored error).mpr fails
  rw [history, List.foldl_append, List.foldl_cons, List.foldl_nil, ← history, perform, failed]

/-- Whatever calls a registry has seen, it answers with the last registration under a class and
lists the classes that were registered in the order of their bytes, and a manifest that cannot be
loaded leaves it as it was. Callers who register different classes come to one registry in
whichever order their calls are taken. -/
theorem history_answers :
    (∀ calls,
      (∀ classId,
        (∀ earlier repository later,
          registrations calls = earlier ++ (classId, repository) :: later →
          classId ∉ later.map Prod.fst → (history calls).lookup classId = .ok repository) ∧
        (classId ∉ (registrations calls).map Prod.fst →
          (history calls).lookup classId = .error (.noRepositoryRegistered classId.qualified)) ∧
        ((history calls).contains classId = true ↔
          ∃ repository, (history calls).lookup classId = .ok repository) ∧
        (classId ∈ (history calls).classes ↔ classId ∈ (registrations calls).map Prod.fst)) ∧
      (history calls).classes.Pairwise ClassId.Precedes ∧
      (history calls).size = (history calls).classes.length ∧
      ∀ path stored error,
        ((history calls).loadManifest path stored = .error error ↔ LoadFails path stored error) ∧
        (LoadFails path stored error →
          history (calls ++ [.loadManifest path stored]) = history calls)) ∧
    ∀ callers mixed, Apart callers → Interleaves callers mixed →
      history mixed = history callers.flatten := by
  refine ⟨fun calls => ⟨fun classId => ⟨?_, ?_, ?_, ?_⟩, precedes_classes _, ?_, ?_⟩, ?_⟩
  · intro earlier repository later made isLast
    rw [lookup, get?_history, made, lastUnder_eq_some isLast]
  · intro unregistered
    rw [lookup, get?_history, (lastUnder_eq_none _ _).mpr unregistered]
  · rw [contains, SortedMap.contains, lookup]
    cases (history calls).repositories.get? classId <;> simp
  · rw [classes, SortedMap.mem_keys, get?_history, isSome_lastUnder]
  · rw [size, SortedMap.size, classes, SortedMap.keys, List.length_map]
  · intro path stored error
    exact ⟨loadManifest_eq_error _ path stored error, history_of_failing calls⟩
  · exact fun callers mixed apart interleaves => interleaves.history_eq apart

end Registry

namespace Sample

/-- Two callers, of which the first also tries to load a manifest that is not there. -/
def callers : List (List Registry.Call) :=
  [[.register ⟨"m", "A"⟩ (Repository.empty ⟨"m", "A"⟩), .loadManifest "quotations.json" none],
    [.registerAll [Repository.empty ⟨"m", "B"⟩, twoMethods]]]

/-- The second caller's call between those of the first. -/
def mixedCalls : List Registry.Call :=
  [.register ⟨"m", "A"⟩ (Repository.empty ⟨"m", "A"⟩),
    .registerAll [Repository.empty ⟨"m", "B"⟩, twoMethods], .loadManifest "quotations.json" none]

end Sample

namespace Registry

open Sample

theorem history_answers_mixedCalls :
    Apart callers ∧ Interleaves callers mixedCalls ∧
      history mixedCalls = history callers.flatten ∧
      (history mixedCalls).lookup ⟨"m", "B"⟩ = .ok (Repository.empty ⟨"m", "B"⟩) := by
  have apart : Apart callers := by
    simp [Apart, callers, touched, registrations, Call.registrations, Repository.empty, twoMethods,
      Repository.insert]
  have interleaves : Interleaves callers mixedCalls := by
    refine @Interleaves.next [] _ _ _ _ ?_
    refine @Interleaves.next [_] [] _ _ _ ?_
    refine @Interleaves.next [] _ _ _ _ ?_
    exact .done (by simp)
  obtain ⟨answers, interleaved⟩ := history_answers
  refine ⟨apart, interleaves, interleaved callers mixedCalls apart interleaves, ?_⟩
  refine ((answers mixedCalls).1 ⟨"m", "B"⟩).1 [(⟨"m", "A"⟩, Repository.empty ⟨"m", "A"⟩)] _
    [(twoMethods.classId, twoMethods)] rfl ?_
  decide

end Registry

end SourceQuote
