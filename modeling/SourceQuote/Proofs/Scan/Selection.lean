import SourceQuote.Scan.Selection
import Mathlib.Data.List.DropRight

/-!
Contract: the rules of a selection.

Owns: that they are the rules of its lines one by one, that the lines for what is excluded and
skipped are negated, and the two ways a verdict comes about: a place is kept only by a pattern
that includes, and dropped by a negated rule with none but negated ones behind it.
-/

namespace SourceQuote

open SourceQuote.Text

/-! ## Lines -/

namespace Rule

def Line.rule? : Line → Option Rule
  | .rule held => some held
  | _ => none

theorem Line.rule?_eq_some {line : Line} {rule : Rule} :
    line.rule? = some rule ↔ line = .rule rule := by
  cases line <;> simp [Line.rule?]

/-- A line that starts with something to see is not trimmed to nothing. -/
theorem trimLine_cons {c : Char} (solid : isBlank c = false) (rest : List Char) :
    ∃ kept, trimLine (c :: rest) = c :: kept := by
  unfold trimLine
  split
  · exact ⟨rest, rfl⟩
  · rw [trimEnd, String.toList_ofList, String.toList_ofList]
    show ∃ kept, (c :: rest).rdropWhile isBlank = c :: kept
    have some : (c :: rest).rdropWhile isBlank ≠ [] := by
      intro none
      have blank := List.rdropWhile_eq_nil_iff.mp none c List.mem_cons_self
      rw [solid] at blank
      cases blank
    obtain ⟨first, kept, split⟩ := List.exists_cons_of_ne_nil some
    have isPrefix : first :: kept <+: c :: rest := split ▸ List.rdropWhile_prefix _ _
    exact ⟨kept, by rw [split, (List.cons_prefix_cons.mp isPrefix).1]⟩

theorem Written.negated_ofLine (rest : List Char) :
    (Written.ofLine ('!' :: rest)).negated = true := by
  by_cases anchored : ∃ more, rest = '/' :: more
  · obtain ⟨more, rfl⟩ := anchored
    rfl
  · rw [Written.ofLine.eq_4 _ fun more isMore => anchored ⟨more, isMore⟩]

theorem Written.negated_withoutSlash (written : Written) :
    written.withoutSlash.negated = written.negated := by
  unfold Written.withoutSlash
  split <;> rfl

/-- What a line that says something is read as. -/
theorem ofLine_eq_rule {openClass : Glob.OpenClass} {line : String} {rule : Rule} {first : Char}
    {rest : List Char} (trimmed : trimLine line.toList = first :: rest)
    (isRule : ofLine openClass line = .rule rule) :
    ∃ glob,
      Glob.parse? openClass
        (String.ofList (Written.ofLine (first :: rest)).withoutSlash.wholePattern) = some glob ∧
      rule = ⟨glob, (Written.ofLine (first :: rest)).withoutSlash.negated,
        (Written.ofLine (first :: rest)).withoutSlash.directoriesOnly⟩ := by
  unfold ofLine at isRule
  split at isRule
  · cases isRule
  · rw [trimmed] at isRule
    dsimp only at isRule
    split at isRule
    · cases isRule
    · next glob parsed =>
        cases isRule
        exact ⟨glob, parsed, rfl⟩

theorem negated_of_ofLine {openClass : Glob.OpenClass} {text : String} {rule : Rule}
    (isRule : ofLine openClass ("!" ++ text) = .rule rule) : rule.negated = true := by
  have line : ("!" ++ text).toList = '!' :: text.toList := by
    rw [String.toList_append]
    rfl
  obtain ⟨kept, trimmed⟩ := trimLine_cons (show isBlank '!' = false by decide) text.toList
  obtain ⟨glob, _, rfl⟩ := ofLine_eq_rule (line ▸ trimmed) isRule
  show (Written.ofLine ('!' :: kept)).withoutSlash.negated = true
  rw [Written.negated_withoutSlash, Written.negated_ofLine]

end Rule

/-! ## Rules -/

namespace Selection

variable {project : String} {included excluded skipped : List String} {selection : Selection}

theorem rulesOf_eq_ok {lines : List String} {rules : List Rule}
    (read : rulesOf lines = .ok rules) :
    (rules = lines.filterMap fun line => (Rule.ofLine .refused line).rule?) ∧
      ∀ line ∈ lines, Rule.ofLine .refused line ≠ .malformed := by
  induction lines generalizing rules with
  | nil =>
      cases read
      exact ⟨rfl, nofun⟩
  | cons line rest inductionHypothesis =>
      rw [rulesOf] at read
      rw [List.filterMap_cons, List.forall_mem_cons]
      cases isLine : Rule.ofLine .refused line with
      | malformed =>
          rw [isLine] at read
          cases read
      | silent =>
          rw [isLine] at read
          obtain ⟨rfl, wellFormed⟩ := inductionHypothesis read
          exact ⟨rfl, nofun, wellFormed⟩
      | rule rule =>
          rw [isLine] at read
          cases others : rulesOf rest with
          | error error =>
              rw [others] at read
              cases read
          | ok own =>
              rw [others] at read
              cases read
              obtain ⟨rfl, wellFormed⟩ := inductionHypothesis others
              exact ⟨rfl, nofun, wellFormed⟩

/-- The rules of some lines that are no malformed patterns. -/
def rulesIn (lines : List String) : List Rule :=
  lines.filterMap fun line => (Rule.ofLine .refused line).rule?

theorem mem_rulesIn {lines : List String} {rule : Rule} :
    rule ∈ rulesIn lines ↔ ∃ line ∈ lines, Rule.ofLine .refused line = .rule rule := by
  simp only [rulesIn, List.mem_filterMap, Rule.Line.rule?_eq_some]

theorem rulesOf_of_ofSettings
    (selected : ofSettings project included excluded skipped = .ok selection) :
    rulesOf (lines project included excluded skipped) = .ok selection.rules := by
  unfold ofSettings at selected
  cases read : rulesOf (lines project included excluded skipped) with
  | error error =>
      rw [read] at selected
      cases selected
  | ok rules =>
      rw [read] at selected
      dsimp only [bind, Except.bind] at selected
      split at selected
      · cases selected
        rfl
      · cases selected

theorem rules_eq (selected : ofSettings project included excluded skipped = .ok selection) :
    selection.rules = rulesIn (included.filterMap pattern?) ++
      (rulesIn ((excluded.filterMap pattern?).map ("!" ++ ·)) ++
        rulesIn (skipped.filterMap (skipLine? project))) := by
  rw [(rulesOf_eq_ok (rulesOf_of_ofSettings selected)).1, lines, List.filterMap_append,
    List.filterMap_append, List.append_assoc]
  rfl

/-- What is excluded or skipped is written with a mark of negation. -/
theorem negated_of_mem {rule : Rule}
    (member : rule ∈ rulesIn ((excluded.filterMap pattern?).map ("!" ++ ·)) ++
      rulesIn (skipped.filterMap (skipLine? project))) : rule.negated = true := by
  rcases List.mem_append.mp member with isExcluded | isSkipped
  · obtain ⟨line, isLine, isRule⟩ := mem_rulesIn.mp isExcluded
    obtain ⟨pattern, _, rfl⟩ := List.mem_map.mp isLine
    exact Rule.negated_of_ofLine isRule
  · obtain ⟨line, isLine, isRule⟩ := mem_rulesIn.mp isSkipped
    obtain ⟨directory, _, named⟩ := List.mem_filterMap.mp isLine
    obtain ⟨rest, rfl⟩ : ∃ rest, line = "!" ++ rest := by
      unfold skipLine? at named
      split at named
      · cases named
      · split at named
        · cases named
        · cases named
          exact ⟨"/" ++ Path.forwardSlashes _, by rw [← String.append_assoc]; rfl⟩
    exact Rule.negated_of_ofLine isRule

/-! ## Verdicts -/

variable {path : String} {isDirectory : Bool}

/-- Once rules are all negated, one of them that is about a path has it dropped. -/
theorem verdict?_of_negated {before after : List Rule} {rule : Rule}
    (rules : selection.rules = before ++ after)
    (negated : ∀ other ∈ after, other.negated = true) (member : rule ∈ after)
    (isAbout : rule.isAbout path isDirectory = true) :
    selection.verdict? path isDirectory = some .drop := by
  have found : (after.reverse.find? fun other => other.isAbout path isDirectory).isSome = true := by
    rw [List.find?_isSome]
    exact ⟨rule, List.mem_reverse.mpr member, isAbout⟩
  obtain ⟨last, isLast⟩ := Option.isSome_iff_exists.mp found
  have speaks : Rule.speaking? selection.rules path isDirectory = some last := by
    rw [Rule.speaking?, rules, List.reverse_append, List.find?_append, isLast, Option.some_or]
  have isNegated := negated last (List.mem_reverse.mp (List.mem_of_find?_eq_some isLast))
  rw [verdict?, speaks]
  simp [isNegated]

def Includes (included : List String) (path : String) (isDirectory : Bool) : Prop :=
  ∃ setting ∈ included, ∃ pattern rule, pattern? setting = some pattern ∧
    Rule.ofLine .refused pattern = .rule rule ∧ rule.negated = false ∧
    rule.isAbout path isDirectory = true

/-- A selection keeps a path only because of a pattern that includes. -/
theorem includes_of_verdict?
    (selected : ofSettings project included excluded skipped = .ok selection)
    (kept : selection.verdict? path isDirectory = some .keep) :
    Includes included path isDirectory := by
  unfold verdict? at kept
  split at kept
  · next rule speaks =>
      have plain : rule.negated = false := by
        cases negated : rule.negated with
        | true => simp [negated] at kept
        | false => rfl
      have isAbout : rule.isAbout path isDirectory = true := by
        simpa using List.find?_some speaks
      have member : rule ∈ selection.rules :=
        List.mem_reverse.mp (List.mem_of_find?_eq_some speaks)
      rw [rules_eq selected] at member
      rcases List.mem_append.mp member with isIncluded | others
      · obtain ⟨pattern, isPattern, isRule⟩ := mem_rulesIn.mp isIncluded
        obtain ⟨setting, isSetting, named⟩ := List.mem_filterMap.mp isPattern
        exact ⟨setting, isSetting, pattern, rule, named, isRule, plain, isAbout⟩
      · rw [negated_of_mem others] at plain
        cases plain
  · split at kept <;> cases kept

end Selection

end SourceQuote
