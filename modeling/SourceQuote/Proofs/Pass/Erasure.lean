import Mathlib.Data.List.Induction
import SourceQuote.Proofs.Pass.Rewriting
import SourceQuote.Text.Alphanumeric

/-!
Contract: what meets when markers go.

Owns: words that join where two texts are put together; maximal runs of edits that put
nothing (`Edit.ErasedRun`); what stands on the two sides of such a run in the output; and
exactly when the pass joins two words of the source there.

Does not own: the bytes of the output, see `Pass.Rewriting`.

## The gap goes with the marker

A marker is dropped up to its next sibling, and so the blanks behind it go too. What is
left between its neighbours is what stood ahead of it. Where nothing did, as in
`export@quoted class`, the two neighbours join.
-/

namespace SourceQuote

/-! ## Words -/

namespace Text

variable {first second text : String} {start stop : Nat}

/-- A character of a word: a letter or a digit of some script, `_` or `$`. -/
def isWordPart (c : Char) : Bool :=
  isAlphanumeric c || c = '_' || c = '$'

def endsInWord (text : String) : Bool :=
  text.toList.getLast?.any isWordPart

def startsInWord (text : String) : Bool :=
  text.toList.head?.any isWordPart

/-- Whether the last word of one text and the first of another become one. -/
def joins (first second : String) : Bool :=
  endsInWord first && startsInWord second

theorem inSomeRange_of_lt {ranges : List (Nat × Nat)} {bound : Nat} {c : Char}
    (above : ranges.all (fun range => bound ≤ range.1) = true) (below : c.toNat < bound) :
    inSomeRange ranges.toArray c = false := by
  rw [inSomeRange, List.any_toArray, List.any_eq_false]
  intro range member inside
  have starts := of_decide_eq_true (List.all_eq_true.mp above range member)
  have lower := of_decide_eq_true (Bool.and_eq_true_iff.mp inside).1
  omega

/-- In ASCII, words are made of the characters of identifiers: all ranges of letters and
numbers start beyond it. -/
theorem isWordPart_ascii {c : Char} (ascii : c.toNat < 0x80) :
    isWordPart c = isIdentifierPart c := by
  have letters : inSomeRange alphabeticRanges c = false :=
    inSomeRange_of_lt (by decide +kernel) ascii
  have numbers : inSomeRange numericRanges c = false :=
    inSomeRange_of_lt (by decide +kernel) ascii
  rw [isWordPart, isAlphanumeric, isAlphabetic, letters, numbers, isIdentifierPart,
    isIdentifierStart, Bool.or_false, Bool.or_false]
  simp only [Bool.or_assoc, Bool.or_comm, Bool.or_left_comm]

theorem endsInWord_of_getLast? {c : Char} (ends : text.toList.getLast? = some c)
    (ascii : c.toNat < 0x80) : endsInWord text = isIdentifierPart c := by
  rw [endsInWord, ends, Option.any_some, isWordPart_ascii ascii]

theorem startsInWord_of_head? {c : Char} (starts : text.toList.head? = some c)
    (ascii : c.toNat < 0x80) : startsInWord text = isIdentifierPart c := by
  rw [startsInWord, starts, Option.any_some, isWordPart_ascii ascii]

theorem endsInWord_append (first : String) (nonempty : second ≠ "") :
    endsInWord (first ++ second) = endsInWord second := by
  have characters : second.toList ≠ [] := mt String.toList_eq_nil_iff.mp nonempty
  rw [endsInWord, String.toList_append, List.getLast?_append_of_ne_nil _ characters, endsInWord]

theorem startsInWord_append (second : String) (nonempty : first ≠ "") :
    startsInWord (first ++ second) = startsInWord first := by
  have characters : first.toList ≠ [] := mt String.toList_eq_nil_iff.mp nonempty
  rw [startsInWord, String.toList_append, List.head?_append_of_ne_nil _ characters, startsInWord]

/-- A slice ends as everything up to its end does. -/
theorem endsInWord_slice (isSlice : IsSlice text start stop) (proper : start < stop) :
    endsInWord (slice text start stop) = endsInWord (slice text 0 stop) := by
  have ahead : IsSlice text 0 start := ⟨isBoundary_zero text, isSlice.startBoundary, Nat.zero_le _⟩
  rw [← slice_append_slice ahead isSlice, endsInWord_append _ (slice_ne_empty isSlice proper)]

/-- A slice starts as everything from its start on does. -/
theorem startsInWord_slice (isSlice : IsSlice text start stop) (proper : start < stop) :
    startsInWord (slice text start stop) =
      startsInWord (slice text start text.utf8ByteSize) := by
  have behind : IsSlice text stop text.utf8ByteSize :=
    ⟨isSlice.stopBoundary, isBoundary_size text, isSlice.stopBoundary.le_size⟩
  rw [← slice_append_slice isSlice behind, startsInWord_append _ (slice_ne_empty isSlice proper)]

theorem lineEnding_ne_empty (text : String) : lineEnding text ≠ "" := by
  simp only [lineEnding]
  split <;> decide

theorem startsInWord_lineEnding (text : String) : startsInWord (lineEnding text) = false := by
  simp only [lineEnding]
  split
  · rw [startsInWord_of_head? rfl (by decide)]
    decide
  · rw [startsInWord_of_head? rfl (by decide)]
    decide

end Text

/-! ## Runs of edits that put nothing -/

namespace Edit

variable {source : String} {cursor start stop : Nat} {edit : Edit}
  {before run after rest edits : List Edit}

/-- The text from byte `cursor` up to byte `stop`, with edits made in the order given. -/
def applyBetween (source : String) (cursor stop : Nat) : List Edit → String
  | [] => Text.slice source cursor stop
  | edit :: rest =>
      Text.slice source cursor edit.start ++ edit.text ++ applyBetween source edit.stop stop rest

/-- Edits that put nothing, one right behind the other from one offset to another. -/
def Erases (start stop : Nat) : List Edit → Prop
  | [] => start = stop
  | edit :: rest => edit.start = start ∧ edit.text = "" ∧ Erases edit.stop stop rest

/-- A maximal run of edits that put nothing: an edit that touches it on either side puts
some text. -/
structure ErasedRun (edits : List Edit) (start stop : Nat) where
  before : List Edit
  run : List Edit
  after : List Edit
  split : edits = before ++ (run ++ after)
  nonempty : run ≠ []
  erases : Erases start stop run
  opens : ∀ edit ∈ before.getLast?, edit.stop = start → edit.text ≠ ""
  closes : ∀ edit ∈ after.head?, edit.start = stop → edit.text ≠ ""

namespace ErasedRun

def front (erased : ErasedRun edits start stop) (source : String) : String :=
  applyBetween source 0 start erased.before

def back (erased : ErasedRun edits start stop) (source : String) : String :=
  applyFrom source stop erased.after

/-- No text is put at either end of a run. -/
def IsBare (erased : ErasedRun edits start stop) : Prop :=
  (∀ edit ∈ erased.before.getLast?, edit.stop ≠ start) ∧
    ∀ edit ∈ erased.after.head?, edit.start ≠ stop

end ErasedRun

theorem applyBetween_concat (source : String) (cursor stop : Nat) (before : List Edit)
    (edit : Edit) :
    applyBetween source cursor stop (before ++ [edit]) =
      applyBetween source cursor edit.start before ++ edit.text ++
        Text.slice source edit.stop stop := by
  induction before generalizing cursor with
  | nil => rfl
  | cons first rest inductionHypothesis =>
      rw [List.cons_append, applyBetween, inductionHypothesis, applyBetween]
      simp only [String.append_assoc]

theorem applyFrom_append (source : String) (cursor : Nat) (before rest : List Edit)
    (edit : Edit) :
    applyFrom source cursor (before ++ edit :: rest) =
      applyBetween source cursor edit.start before ++
        applyFrom source edit.start (edit :: rest) := by
  induction before generalizing cursor with
  | nil =>
      rw [List.nil_append, applyBetween, applyFrom, applyFrom,
        Text.slice_eq_empty source (Nat.le_refl edit.start), String.empty_append,
        String.append_assoc]
  | cons first others inductionHypothesis =>
      rw [List.cons_append, applyFrom, inductionHypothesis, applyBetween]
      simp only [String.append_assoc]

theorem Erases.applyFrom_eq (erases : Erases start stop run) :
    applyFrom source start (run ++ after) = applyFrom source stop after := by
  induction run generalizing start with
  | nil =>
      have same : start = stop := erases
      rw [List.nil_append, same]
  | cons edit rest inductionHypothesis =>
      obtain ⟨rfl, silent, following⟩ := erases
      rw [List.cons_append, applyFrom, inductionHypothesis following, silent,
        Text.slice_eq_empty source (Nat.le_refl edit.start), String.empty_append,
        String.empty_append]

theorem Erases.silent (erases : Erases start stop run) : ∀ edit ∈ run, edit.text = "" := by
  induction run generalizing start with
  | nil => exact nofun
  | cons edit rest inductionHypothesis =>
      exact List.forall_mem_cons.mpr ⟨erases.2.1, inductionHypothesis erases.2.2⟩

theorem Erases.apart (erases : Erases start stop run)
    (apart : Apart source start (run ++ after)) : Apart source stop after := by
  induction run generalizing start with
  | nil =>
      have same : start = stop := erases
      rwa [← same]
  | cons edit rest inductionHypothesis => exact inductionHypothesis erases.2.2 apart.2.2

theorem Apart.from_edit (apart : Apart source cursor (before ++ edit :: rest)) :
    Apart source edit.start (edit :: rest) := by
  induction before generalizing cursor with
  | nil =>
      have boundary := apart.1.stopBoundary
      exact ⟨⟨boundary, boundary, Nat.le_refl _⟩, apart.2⟩
  | cons first others inductionHypothesis => exact inductionHypothesis apart.2.2

/-! ## Every edit that puts nothing lies in a run -/

theorem Erases.append {middle : Nat} (first : Erases start middle before)
    (second : Erases middle stop run) : Erases start stop (before ++ run) := by
  induction before generalizing start with
  | nil =>
      have same : start = middle := first
      rwa [List.nil_append, same]
  | cons edit rest inductionHypothesis =>
      exact ⟨first.1, first.2.1, inductionHypothesis first.2.2⟩

theorem exists_erases_ahead (before : List Edit) (stop : Nat) :
    ∃ ahead run start, before = ahead ++ run ∧ Erases start stop run ∧
      ∀ edit ∈ ahead.getLast?, edit.stop = start → edit.text ≠ "" := by
  -- The run is extended from its start, so the edits ahead of it are taken from the last one on.
  induction before using List.reverseRecOn generalizing stop with
  | nil => exact ⟨[], [], stop, rfl, rfl, nofun⟩
  | append_singleton init last inductionHypothesis =>
      by_cases touches : last.stop = stop ∧ last.text = ""
      · obtain ⟨ahead, run, start, rfl, erases, opens⟩ := inductionHypothesis last.start
        have lastErases : Erases last.start stop [last] := ⟨rfl, touches.2, touches.1⟩
        exact ⟨ahead, run ++ [last], start, List.append_assoc _ _ _, erases.append lastErases,
          opens⟩
      · refine ⟨init ++ [last], [], stop, (List.append_nil _).symm, rfl, ?_⟩
        intro edit isLast stops
        rw [List.getLast?_concat] at isLast
        cases isLast
        exact fun silent => touches ⟨stops, silent⟩

theorem exists_erases_behind (after : List Edit) (start : Nat) :
    ∃ run behind stop, after = run ++ behind ∧ Erases start stop run ∧
      ∀ edit ∈ behind.head?, edit.start = stop → edit.text ≠ "" := by
  induction after generalizing start with
  | nil => exact ⟨[], [], start, rfl, rfl, nofun⟩
  | cons first rest inductionHypothesis =>
      by_cases touches : first.start = start ∧ first.text = ""
      · obtain ⟨run, behind, stop, rfl, erases, closes⟩ := inductionHypothesis first.stop
        exact ⟨first :: run, behind, stop, rfl, ⟨touches.1, touches.2, erases⟩, closes⟩
      · refine ⟨[], first :: rest, start, rfl, rfl, ?_⟩
        intro edit isFirst starts
        cases isFirst
        exact fun silent => touches ⟨starts, silent⟩

theorem exists_erasedRun (member : edit ∈ edits) (silent : edit.text = "") :
    ∃ start stop, ∃ erased : ErasedRun edits start stop, edit ∈ erased.run := by
  obtain ⟨before, after, rfl⟩ := List.append_of_mem member
  obtain ⟨ahead, left, start, rfl, leftErases, opens⟩ := exists_erases_ahead before edit.start
  obtain ⟨right, behind, stop, rfl, rightErases, closes⟩ := exists_erases_behind after edit.stop
  have erases : Erases start stop (left ++ edit :: right) :=
    leftErases.append ⟨rfl, silent, rightErases⟩
  exact ⟨start, stop, ⟨ahead, left ++ edit :: right, behind, by simp, by simp, erases, opens, closes⟩,
    by simp⟩

/-! ## The two sides of a run -/

/-- Ahead of an edit stands the end of what is put there, or else what stood there in the
source. -/
theorem endsInWord_applyBetween (apart : Apart source 0 (before ++ edit :: rest))
    (closed : ∀ each ∈ before, Text.endsInWord each.text = false)
    (opens : ∀ each ∈ before.getLast?, each.stop = edit.start → each.text ≠ "") :
    Text.endsInWord (applyBetween source 0 edit.start before) = true ↔
      (∀ each ∈ before.getLast?, each.stop ≠ edit.start) ∧
        Text.endsInWord (Text.slice source 0 edit.start) = true := by
  rcases List.eq_nil_or_concat' before with rfl | ⟨init, last, rfl⟩
  · simp [applyBetween]
  · rw [List.getLast?_concat] at opens ⊢
    rw [List.append_assoc] at apart
    have gap : Text.IsSlice source last.stop edit.start := apart.from_edit.2.2.1
    rw [applyBetween_concat]
    by_cases touches : last.stop = edit.start
    · have quiet := closed last (List.mem_append_right _ List.mem_cons_self)
      rw [Text.slice_eq_empty source (Nat.le_of_eq touches.symm), String.append_empty,
        Text.endsInWord_append _ (opens last rfl touches), quiet]
      simp [touches]
    · have proper : last.stop < edit.start := Nat.lt_of_le_of_ne gap.ordered touches
      rw [Text.endsInWord_append _ (Text.slice_ne_empty gap proper),
        Text.endsInWord_slice gap proper]
      simp [touches]

/-- From an offset on stands the start of what is put there, or else what stood there in the
source. -/
theorem startsInWord_applyFrom (apart : Apart source stop after)
    (closed : ∀ each ∈ after, Text.startsInWord each.text = false)
    (closes : ∀ each ∈ after.head?, each.start = stop → each.text ≠ "") :
    Text.startsInWord (applyFrom source stop after) = true ↔
      (∀ each ∈ after.head?, each.start ≠ stop) ∧
        Text.startsInWord (Text.slice source stop source.utf8ByteSize) = true := by
  cases after with
  | nil => simp [applyFrom]
  | cons first others =>
      rw [List.head?_cons] at closes ⊢
      have gap : Text.IsSlice source stop first.start := apart.1
      rw [applyFrom]
      by_cases touches : first.start = stop
      · have quiet := closed first List.mem_cons_self
        rw [Text.slice_eq_empty source (Nat.le_of_eq touches), String.empty_append,
          Text.startsInWord_append _ (closes first rfl touches), quiet]
        simp [touches]
      · have proper : stop < first.start := Nat.lt_of_le_of_ne gap.ordered (Ne.symm touches)
        have nonempty := Text.slice_ne_empty gap proper
        rw [String.append_assoc, Text.startsInWord_append _ nonempty,
          Text.startsInWord_slice gap proper]
        simp [touches]

namespace ErasedRun

theorem exists_first (erased : ErasedRun edits start stop) :
    ∃ edit rest, erased.run = edit :: rest ∧ edit.start = start := by
  obtain ⟨before, run, after, split, nonempty, erases, opens, closes⟩ := erased
  cases run with
  | nil => exact absurd rfl nonempty
  | cons edit rest => exact ⟨edit, rest, rfl, erases.1⟩

/-- A run leaves nothing between what is ahead of it and what is behind it. -/
theorem applyFrom_eq (erased : ErasedRun edits start stop) (source : String) :
    applyFrom source 0 edits = erased.front source ++ erased.back source := by
  obtain ⟨edit, rest, same, rfl⟩ := erased.exists_first
  have whole := applyFrom_append source 0 erased.before (rest ++ erased.after) edit
  rw [← List.cons_append, ← same, ← erased.split, erased.erases.applyFrom_eq] at whole
  exact whole

/-- The two sides of a run join if and only if they joined in the source and no text is put
between them. -/
theorem joins_iff (erased : ErasedRun edits start stop) (apart : Apart source 0 edits)
    (closed : ∀ edit ∈ edits,
      Text.startsInWord edit.text = false ∧ Text.endsInWord edit.text = false) :
    Text.joins (erased.front source) (erased.back source) = true ↔
      erased.IsBare ∧
        Text.joins (Text.slice source 0 start)
          (Text.slice source stop source.utf8ByteSize) = true := by
  obtain ⟨edit, rest, same, rfl⟩ := erased.exists_first
  have split := erased.split
  have ahead : Apart source 0 (erased.before ++ edit :: (rest ++ erased.after)) := by
    rwa [← List.cons_append, ← same, ← split]
  have behind : Apart source stop erased.after := by
    have fromRun := ahead.from_edit
    rw [← List.cons_append, ← same] at fromRun
    exact erased.erases.apart fromRun
  have left := endsInWord_applyBetween ahead
    (fun each member => (closed each (by rw [split]; simp [member])).2) erased.opens
  have right := startsInWord_applyFrom behind
    (fun each member => (closed each (by rw [split]; simp [member])).1) erased.closes
  simp only [Text.joins, Bool.and_eq_true, front, back, left, right, IsBare]
  exact and_and_and_comm

end ErasedRun

end Edit

/-! ## The pass -/

namespace QuotedClass

variable {unit : SourceUnit} {options : PassOptions} {quoted : QuotedClass} {edit : Edit}

theorem insertion_ne_empty : quoted.insertion unit options ≠ "" := by
  intro isEmpty
  have parts := String.append_eq_empty_iff.mp isEmpty
  exact Text.lineEnding_ne_empty unit.source parts.1

theorem startsInWord_insertion : Text.startsInWord (quoted.insertion unit options) = false := by
  rw [insertion, Text.startsInWord_append _ (Text.lineEnding_ne_empty unit.source),
    Text.startsInWord_lineEnding]

theorem endsInWord_insertion : Text.endsInWord (quoted.insertion unit options) = false := by
  rw [insertion, Repository.registration]
  split
  · rw [← String.append_assoc, Text.endsInWord_append _ (by decide),
      Text.endsInWord_of_getLast? rfl (by decide)]
    decide
  · rw [← String.append_assoc, Text.endsInWord_append _ (by decide),
      Text.endsInWord_of_getLast? rfl (by decide)]
    decide

/-- No edit of a class puts a word at either end of its text. -/
theorem edit_closed (member : edit ∈ quoted.edits unit options) :
    Text.startsInWord edit.text = false ∧ Text.endsInWord edit.text = false := by
  rcases mem_edits.mp member with ⟨mark, _, rfl⟩ | rfl
  · exact ⟨rfl, rfl⟩
  · exact ⟨startsInWord_insertion, endsInWord_insertion⟩

/-- The edits of a class that put nothing are those of its markers. -/
theorem text_eq_empty_iff (member : edit ∈ quoted.edits unit options) :
    edit.text = "" ↔
      ∃ mark ∈ quoted.site.markers unit.source options.marker, dropMarker mark = edit := by
  constructor
  · intro silent
    rcases mem_edits.mp member with marks | rfl
    · exact marks
    · exact absurd silent insertion_ne_empty
  · rintro ⟨mark, _, rfl⟩
    rfl

end QuotedClass

namespace SourceUnit

variable {unit : SourceUnit} {options : PassOptions} {quoted : List QuotedClass} {edit : Edit}

def sortedEdits (unit : SourceUnit) (options : PassOptions) (quoted : List QuotedClass) :
    List Edit :=
  (quoted.flatMap fun each => each.edits unit options).mergeSort Edit.le

def DropsMarker (unit : SourceUnit) (options : PassOptions) (quoted : List QuotedClass)
    (edit : Edit) : Prop :=
  ∃ each ∈ quoted, ∃ mark ∈ each.site.markers unit.source options.marker, dropMarker mark = edit

theorem mem_sortedEdits :
    edit ∈ unit.sortedEdits options quoted ↔
      ∃ each ∈ quoted, edit ∈ each.edits unit options := by
  rw [sortedEdits, List.mem_mergeSort, List.mem_flatMap]

theorem dropsMarker_iff :
    unit.DropsMarker options quoted edit ↔
      edit ∈ unit.sortedEdits options quoted ∧ edit.text = "" := by
  rw [mem_sortedEdits]
  constructor
  · rintro ⟨each, isQuoted, mark, isMark, rfl⟩
    exact ⟨⟨each, isQuoted, QuotedClass.mem_edits.mpr (.inl ⟨mark, isMark, rfl⟩)⟩, rfl⟩
  · rintro ⟨⟨each, isQuoted, isEdit⟩, silent⟩
    exact ⟨each, isQuoted, (QuotedClass.text_eq_empty_iff isEdit).mp silent⟩

theorem sortedEdits_closed :
    ∀ edit ∈ unit.sortedEdits options quoted,
      Text.startsInWord edit.text = false ∧ Text.endsInWord edit.text = false := by
  intro edit member
  obtain ⟨each, _, isEdit⟩ := mem_sortedEdits.mp member
  exact QuotedClass.edit_closed isEdit

/-- The two sides of dropped markers join exactly when nothing stood between them but the
markers and the gaps behind these. Every dropped marker lies in a maximal run of them, the
output is what comes out ahead of such a run and then what comes out behind it, and these
two join if and only if the source has a word right up to the run, a word right behind it,
and no registration is put at either end. -/
theorem transform_joins_iff (unit : SourceUnit) (options : PassOptions)
    {transformed : Transformed}
    (wellFormed : unit.root.WellFormed unit.source)
    (passed : unit.transform options = .ok transformed) :
    ∃ quoted, (unit.markedSites options.marker).mapM (quoteSite unit) = .ok quoted ∧
      (∀ edit, unit.DropsMarker options quoted edit →
        ∃ start stop, ∃ erased : Edit.ErasedRun (unit.sortedEdits options quoted) start stop,
          edit ∈ erased.run) ∧
      ∀ start stop, ∀ erased : Edit.ErasedRun (unit.sortedEdits options quoted) start stop,
        (∀ edit ∈ erased.run, unit.DropsMarker options quoted edit) ∧
        transformed.source = erased.front unit.source ++ erased.back unit.source ∧
        (Text.joins (erased.front unit.source) (erased.back unit.source) = true ↔
          erased.IsBare ∧
            Text.joins (Text.slice unit.source 0 start)
              (Text.slice unit.source stop unit.source.utf8ByteSize) = true) := by
  obtain ⟨quoted, quoting, sites, quotes, rfl⟩ := exists_quoted passed
  have apart := (rewritten_of_quoted wellFormed sites quotes).apart
  refine ⟨quoted, quoting, ?_, ?_⟩
  · intro edit drops
    obtain ⟨member, silent⟩ := dropsMarker_iff.mp drops
    exact Edit.exists_erasedRun member silent
  · intro start stop erased
    refine ⟨?_, erased.applyFrom_eq unit.source, ?_⟩
    · intro edit inRun
      have member : edit ∈ unit.sortedEdits options quoted := by
        rw [erased.split]
        exact List.mem_append_right _ (List.mem_append_left _ inRun)
      exact dropsMarker_iff.mpr ⟨member, erased.erases.silent edit inRun⟩
    · exact erased.joins_iff apart sortedEdits_closed

end SourceUnit

namespace Sample

/-- The edits of `file`. The registration of the first class touches the second marker. -/
def fileEdits : List Edit :=
  [⟨7, 15, ""⟩, ⟨24, 24, "\nquoted.saveRepo(A, \x7b\x7d);"⟩,
   ⟨24, 32, ""⟩, ⟨41, 41, "\nquoted.saveRepo(B, \x7b\x7d);"⟩]

theorem sortedEdits_file : file.sortedEdits {} quotedClasses = fileEdits := by
  have listed : (quotedClasses.flatMap fun each => each.edits file {}) = fileEdits := by
    decide +kernel
  rw [SourceUnit.sortedEdits, listed]
  exact List.mergeSort_of_pairwise (by decide +kernel)

/-- The run of the second marker of `file`. -/
def secondRun : Edit.ErasedRun fileEdits 24 32 where
  before := fileEdits.take 2
  run := [⟨24, 32, ""⟩]
  after := fileEdits.drop 3
  split := rfl
  nonempty := by decide
  erases := ⟨rfl, rfl, rfl⟩
  opens := by decide +kernel
  closes := by decide +kernel

end Sample

namespace SourceUnit

theorem transform_joins_iff_sample :
    Sample.file.root.WellFormed Sample.file.source ∧
    ∃ transformed, Sample.file.transform {} = .ok transformed ∧
      transformed.source =
        Sample.secondRun.front Sample.file.source ++ Sample.secondRun.back Sample.file.source ∧
      Text.joins (Sample.secondRun.front Sample.file.source)
        (Sample.secondRun.back Sample.file.source) = false := by
  have wellFormed : Sample.file.root.WellFormed Sample.file.source := by decide
  have quoting : (Sample.file.markedSites "quoted").mapM (quoteSite Sample.file) =
      .ok Sample.quotedClasses := rfl
  have passed : Sample.file.transform {} =
      .ok ⟨Edit.apply Sample.file.source
          (Sample.quotedClasses.flatMap fun each => each.edits Sample.file {}),
        Sample.quotedClasses.map QuotedClass.repository⟩ := by
    rw [transform, quoting]
    rfl
  refine ⟨wellFormed, _, passed, ?_⟩
  obtain ⟨quoted, quotes, _, sides⟩ := transform_joins_iff Sample.file {} wellFormed passed
  cases quoting.symm.trans quotes
  rw [Sample.sortedEdits_file] at sides
  obtain ⟨_, source, joins⟩ := sides 24 32 Sample.secondRun
  refine ⟨source, Bool.eq_false_iff.mpr fun isJoined => ?_⟩
  have touches := (joins.mp isJoined).1.1 _ rfl
  exact absurd rfl touches

end SourceUnit

namespace Sample

def touchingStatement : Node :=
  node "export_statement" none true 0 23
    [node "export" none false 0 6 [], markedClass (some "declaration") 6]

/-- The marker stands right behind the word `export`. -/
def touching : SourceUnit where
  path := "a.js"
  dialect := .javaScript
  source := "export@quoted class A\x7b\x7d"
  root := node "program" none true 0 23 [touchingStatement]

def touchingClasses : List QuotedClass :=
  [⟨⟨touchingStatement, markedClass (some "declaration") 6, true⟩, "A",
      Repository.empty (.forPath "a.js" "A")⟩]

def touchingEdits : List Edit :=
  [⟨6, 14, ""⟩, ⟨23, 23, "\nquoted.saveRepo(A, \x7b\x7d);"⟩]

theorem edits_touching :
    (touchingClasses.flatMap fun each => each.edits touching {}) = touchingEdits := by
  decide +kernel

theorem sorted_touching : touchingEdits.mergeSort Edit.le = touchingEdits :=
  List.mergeSort_of_pairwise (by decide +kernel)

def touchingRun : Edit.ErasedRun touchingEdits 6 14 where
  before := []
  run := [⟨6, 14, ""⟩]
  after := touchingEdits.drop 1
  split := rfl
  nonempty := by decide
  erases := ⟨rfl, rfl, rfl⟩
  opens := nofun
  closes := by decide +kernel

end Sample

namespace SourceUnit

/-- A marker that touches the word ahead of it takes the only blank with it. -/
theorem transform_joins_touching :
    Sample.touching.root.WellFormed Sample.touching.source ∧
    (Sample.touching.markedSites "quoted").mapM (quoteSite Sample.touching) =
      .ok Sample.touchingClasses ∧
    Sample.touching.sortedEdits {} Sample.touchingClasses = Sample.touchingEdits ∧
    Sample.touching.transform {} =
      .ok ⟨"exportclass A\x7b\x7d\nquoted.saveRepo(A, \x7b\x7d);",
        [Repository.empty (.forPath "a.js" "A")]⟩ ∧
    Sample.touchingRun.front Sample.touching.source = "export" ∧
    Sample.touchingRun.back Sample.touching.source =
      "class A\x7b\x7d\nquoted.saveRepo(A, \x7b\x7d);" ∧
    Text.joins (Sample.touchingRun.front Sample.touching.source)
      (Sample.touchingRun.back Sample.touching.source) = true := by
  have quoting : (Sample.touching.markedSites "quoted").mapM (quoteSite Sample.touching) =
      .ok Sample.touchingClasses := rfl
  have front : Sample.touchingRun.front Sample.touching.source = "export" := by decide +kernel
  have back : Sample.touchingRun.back Sample.touching.source =
      "class A\x7b\x7d\nquoted.saveRepo(A, \x7b\x7d);" := by decide +kernel
  refine ⟨by decide, quoting, ?_, ?_, front, back, ?_⟩
  · rw [sortedEdits, Sample.edits_touching, Sample.sorted_touching]
  · rw [transform, quoting]
    change Except.ok (⟨Edit.apply Sample.touching.source
      (Sample.touchingClasses.flatMap fun each => each.edits Sample.touching {}), _⟩ :
        Transformed) = _
    rw [Sample.edits_touching, Edit.apply, Sample.sorted_touching,
      Sample.touchingRun.applyFrom_eq, front, back]
    rfl
  · rw [front, back, Text.joins, Text.endsInWord_of_getLast? rfl (by decide),
      Text.startsInWord_of_head? rfl (by decide)]
    decide

end SourceUnit

end SourceQuote
