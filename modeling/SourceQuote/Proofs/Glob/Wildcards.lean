import SourceQuote.Glob.Reader
import SourceQuote.Proofs.Glob.Reach

/-!
Contract: texts that are read as patterns of themselves.

Owns: which characters open nothing in a pattern, and that a pattern without any other accepts the
path that is spelled like it.

The reader is followed character by character, with the text it has read as the input: what has
been read reaches the position behind it. A question mark takes itself, one star or two take
themselves as runs, and two stars between slashes take themselves as a directory. The pieces that
the reader holds do not show how they were written, so besides the position behind the text the
invariant keeps what two stars and a slash make of a slash at its end.

Does not own: classes, braces and escapes, which stand for other texts than they are spelled with.
-/

namespace SourceQuote.Glob

open SourceQuote.Marks (Reach)

/-- Whether a character opens no class and no brace and takes nothing from the next one. -/
def OpensNothing (c : Char) : Prop :=
  c ∉ ['[', '\x7b', '\\']

instance (c : Char) : Decidable (OpensNothing c) :=
  inferInstanceAs (Decidable (_ ∉ _))

/-! ## Positions -/

def offset (chars : List Char) : Nat :=
  (chars.flatMap charBytes).length

theorem offset_append (chars more : List Char) :
    offset (chars ++ more) = offset chars + offset more := by
  simp [offset]

theorem offset_cons (c : Char) (chars : List Char) :
    offset (c :: chars) = (charBytes c).length + offset chars := by
  simp [offset]

/-- What an input goes on with behind the characters that it starts with. -/
theorem drop_offset {chars more : List Char} {input : List UInt8}
    (ahead : (chars ++ more).flatMap charBytes <+: input) :
    more.flatMap charBytes <+: input.drop (offset chars) := by
  obtain ⟨rest, rfl⟩ := ahead
  exact ⟨rest, by simp [offset]⟩

theorem getElem?_offset {chars more : List Char} {c : Char} {byte : UInt8} {input : List UInt8}
    (ahead : (chars ++ c :: more).flatMap charBytes <+: input) (bytes : charBytes c = [byte]) :
    input[offset chars]? = some byte := by
  obtain ⟨rest, cut⟩ := drop_offset ahead
  rw [← List.head?_drop, ← cut]
  simp [bytes]

theorem charBytes_star : charBytes '*' = [0x2a] := by
  rw [charBytes_eq]
  rfl

theorem charBytes_question : charBytes '?' = [0x3f] := by
  rw [charBytes_eq]
  rfl

theorem charBytes_slash : charBytes '/' = [slashByte] := by
  rw [charBytes_eq]
  rfl

/-- Whether pieces, the last one first, take what is ahead of a position. -/
def Reaches (input : List UInt8) (current : List GlobPiece) (position : Nat) : Prop :=
  Reach input (afterPieces input current.reverse (Marks.whole input)) position

theorem afterPieces_append (input : List UInt8) (pieces more : List GlobPiece) (marks : Marks) :
    afterPieces input (pieces ++ more) marks =
      afterPieces input more (afterPieces input pieces marks) := by
  induction pieces generalizing marks with
  | nil => rw [List.nil_append, afterPieces]
  | cons piece rest inductionHypothesis =>
      rw [List.cons_append, afterPieces, afterPieces, inductionHypothesis]

theorem reaches_cons {input : List UInt8} {current : List GlobPiece} {piece : GlobPiece}
    {position : Nat} :
    Reaches input (piece :: current) position ↔
      Reach input
        (piece.after input (afterPieces input current.reverse (Marks.whole input))) position := by
  rw [Reaches, List.reverse_cons, afterPieces_append, afterPieces, afterPieces]

/-- The pieces, the last one first, after two stars and a slash behind a slash. -/
def treeAfterSlash : List GlobPiece → List GlobPiece
  | .leadingTree :: rest => .leadingTree :: rest
  | .trailingTree :: rest => .trailingTree :: rest
  | _ :: rest => .innerTree :: rest
  | [] => [.innerTree]

theorem treeAfterSlash_idem (current : List GlobPiece) :
    treeAfterSlash (treeAfterSlash current) = treeAfterSlash current := by
  fun_cases treeAfterSlash current <;> rfl

theorem treeAfterSlash_ne_nil (current : List GlobPiece) : treeAfterSlash current ≠ [] := by
  fun_cases treeAfterSlash current <;> simp

theorem replaceSlash_innerTree (progress : Progress) :
    progress.replaceSlash .innerTree =
      { progress with current := treeAfterSlash progress.current, mode := .plain } := by
  unfold Progress.replaceSlash
  split
  · next held => rw [held, treeAfterSlash, ← held, Progress.within]
  · next held => rw [held, treeAfterSlash, ← held, Progress.within]
  · next leading trailing held => rw [held, treeAfterSlash.eq_3 _ _ leading trailing]
  · next held => rw [held, Progress.push, held, treeAfterSlash]

/-! ## What has been read -/

/-- What the pieces that have been read make of their own text at the start of an input. -/
structure Settled (input : List UInt8) (current : List GlobPiece) (chars : List Char) :
    Prop where
  starts : current = [] → chars = []
  reach : Reaches input current (offset chars)
  /-- A tree in the place of the last slash leads to where the slash leads, and on to whatever
  stands behind a later one. -/
  slash : chars.getLast? = some '/' → ∀ position, offset chars ≤ position →
    (position = offset chars ∨ 0 < position ∧ input[position - 1]? = some slashByte) →
    Reaches input (treeAfterSlash current) position

namespace Settled

variable {input : List UInt8} {current : List GlobPiece} {chars : List Char}

theorem nil (input : List UInt8) : Settled input [] [] where
  starts _ := rfl
  reach := by
    rw [Reaches, List.reverse_nil, afterPieces]
    exact Marks.reach_whole input
  slash := nofun

/-- A character that is no slash leaves no slash at the end. -/
theorem of_reaches {piece : GlobPiece} {c : Char} (flat : c ≠ '/')
    (reach : Reaches input (piece :: current) (offset (chars ++ [c]))) :
    Settled input (piece :: current) (chars ++ [c]) where
  starts := nofun
  reach := reach
  slash isSlash := by
    rw [List.getLast?_concat] at isSlash
    exact absurd (Option.some.inj isSlash) flat

variable (settled : Settled input current chars)
include settled

theorem literal {c : Char} (ahead : (chars ++ [c]).flatMap charBytes <+: input) :
    Settled input (.literal c :: current) (chars ++ [c]) := by
  have next : charBytes c <+: input.drop (offset chars) := by
    simpa using drop_offset ahead
  have reach : Reaches input (.literal c :: current) (offset (chars ++ [c])) := by
    rw [reaches_cons, offset_append, offset, offset, List.flatMap_singleton]
    exact settled.reach.afterBytes next
  by_cases slash : c = '/'
  · subst slash
    refine ⟨nofun, reach, fun _ position order ends => ?_⟩
    have here : input[offset chars]? = some slashByte := getElem?_offset ahead charBytes_slash
    have behind : offset (chars ++ ['/']) = offset chars + 1 := by
      rw [offset_append, offset, offset, List.flatMap_singleton, charBytes_slash]
      rfl
    rw [behind] at order ends
    have taken : Reach input (Marks.afterSlash input
        (afterPieces input current.reverse (Marks.whole input))) (offset chars + 1) :=
      settled.reach.afterByte here (by simp)
    rw [treeAfterSlash]
    · rw [reaches_cons, GlobPiece.after]
      exact taken.afterTree order ends
    · simp
    · simp
  · exact of_reaches slash reach

theorem anyByte (ahead : (chars ++ ['?']).flatMap charBytes <+: input) :
    Settled input (.anyByte :: current) (chars ++ ['?']) := by
  refine of_reaches (by decide) ?_
  have here : input[offset chars]? = some 0x3f := getElem?_offset ahead charBytes_question
  rw [reaches_cons, offset_append, offset_cons, charBytes_question]
  exact settled.reach.afterByte here (by decide)

theorem run (ahead : (chars ++ ['*']).flatMap charBytes <+: input) :
    Settled input (.run :: current) (chars ++ ['*']) := by
  refine of_reaches (by decide) ?_
  have here : input[offset chars]? = some 0x2a := getElem?_offset ahead charBytes_star
  rw [reaches_cons, offset_append, offset_cons, charBytes_star]
  exact settled.reach.afterRun.afterRun_onward here (by decide)

/-- Two stars and a slash behind a slash make a tree of it. -/
theorem tree (slash : chars.getLast? = some '/')
    (ahead : (chars ++ ['*', '*', '/']).flatMap charBytes <+: input) :
    Settled input (treeAfterSlash current) (chars ++ ['*', '*', '/']) := by
  have behind : offset (chars ++ ['*', '*', '/']) = offset chars + 3 := by
    rw [offset_append, offset, offset]
    simp [charBytes_star, charBytes_slash]
  have here : input[offset chars + 2]? = some slashByte := by
    have split : chars ++ ['*', '*', '/'] = (chars ++ ['*', '*']) ++ '/' :: [] := by simp
    rw [split] at ahead
    have isSlash := getElem?_offset ahead charBytes_slash
    rwa [offset_append, offset_cons, offset_cons, charBytes_star] at isSlash
  refine ⟨fun none => absurd none (treeAfterSlash_ne_nil current), ?_, ?_⟩
  · refine settled.slash slash _ (by omega) (Or.inr ⟨by omega, ?_⟩)
    rw [behind]
    exact here
  · intro _ position order ends
    rw [treeAfterSlash_idem]
    refine settled.slash slash position (by omega) (Or.inr ?_)
    rcases ends with same | ends
    · rw [same, behind]
      exact ⟨by omega, here⟩
    · exact ends

end Settled

/-- Two stars and a slash at the start are a tree. -/
theorem settled_leadingTree {input : List UInt8}
    (ahead : ['*', '*', '/'].flatMap charBytes <+: input) :
    Settled input [.leadingTree] ['*', '*', '/'] := by
  have tree : ∀ position,
      position = 0 ∨ 0 < position ∧ input[position - 1]? = some slashByte →
      Reaches input [.leadingTree] position := by
    intro position ends
    rw [reaches_cons, List.reverse_nil, afterPieces, GlobPiece.after]
    exact (Marks.reach_whole input).afterTree (Nat.zero_le position) ends
  have behind : offset ['*', '*', '/'] = 3 := by
    simp [offset, charBytes_star, charBytes_slash]
  have here : input[2]? = some slashByte := by
    have isSlash := @getElem?_offset ['*', '*'] [] '/' slashByte input ahead charBytes_slash
    rwa [offset_cons, offset_cons, charBytes_star] at isSlash
  refine ⟨nofun, tree _ (Or.inr ⟨by omega, by rwa [behind]⟩), fun _ position order ends => ?_⟩
  rw [treeAfterSlash]
  refine tree position (Or.inr ?_)
  rcases ends with same | ends
  · rw [same, behind]
    exact ⟨by omega, here⟩
  · exact ends

/-! ## The reader -/

/-- How the characters that a reader has read stand to its pieces and to what it is in the middle
of: stars are no pieces before the next character. -/
inductive Standing (input : List UInt8) (current : List GlobPiece) :
    Mode → List Char → Prop where
  | plain {chars : List Char} (settled : Settled input current chars) :
      Standing input current .plain chars
  | star {chars : List Char} (settled : Settled input current chars) :
      Standing input current (.star chars.getLast?) (chars ++ ['*'])
  | stars {chars : List Char} (settled : Settled input current chars) :
      Standing input current (.stars chars.getLast?) (chars ++ ['*', '*'])

/-- Whether a reader has read some characters outside of braces, and its pieces make of them what
they are. -/
structure Follows (input : List UInt8) (progress : Progress) (chars : List Char) : Prop where
  last : progress.last = chars.getLast?
  braces : progress.braces = []
  standing : Standing input progress.current progress.mode chars

theorem follows_start (input : List UInt8) : Follows input Progress.start [] :=
  ⟨rfl, rfl, .plain (Settled.nil input)⟩

section Steps

variable {input : List UInt8} {progress next : Progress} {chars : List Char} {c : Char}

theorem standing_of_plainStep (settled : Settled input progress.current chars)
    (last : progress.last = chars.getLast?) (braces : progress.braces = [])
    (opens : OpensNothing c) (ahead : (chars ++ [c]).flatMap charBytes <+: input)
    (stepped : progress.plainStep c = some next) :
    next.braces = [] ∧ Standing input next.current next.mode (chars ++ [c]) := by
  simp only [OpensNothing, List.mem_cons, List.not_mem_nil, or_false, not_or] at opens
  obtain ⟨bracket, brace, escape⟩ := opens
  simp only [Progress.plainStep, braces, bracket, brace, escape, decide_false, Bool.false_and,
    Bool.false_eq_true, if_false] at stepped
  split at stepped
  · next question =>
      cases stepped
      subst question
      exact ⟨braces, .plain (settled.anyByte ahead)⟩
  · split at stepped
    · next star =>
        cases stepped
        subst star
        refine ⟨braces, ?_⟩
        show Standing input progress.current (.star progress.last) (chars ++ ['*'])
        rw [last]
        exact .star settled
    · split at stepped
      · cases stepped
      · split at stepped
        · next comma =>
            cases stepped
            subst comma
            exact ⟨braces, .plain (settled.literal ahead)⟩
        · cases stepped
          exact ⟨braces, .plain (settled.literal ahead)⟩

/-- Two stars are two runs, unless a slash right behind them makes a tree of them. -/
theorem standing_of_starsStep (settled : Settled input progress.current chars)
    (last : progress.last = (chars ++ ['*', '*']).getLast?) (braces : progress.braces = [])
    (opens : OpensNothing c) (ahead : (chars ++ ['*', '*'] ++ [c]).flatMap charBytes <+: input)
    (stepped : progress.starsStep chars.getLast? c = some next) :
    next.braces = [] ∧ Standing input next.current next.mode (chars ++ ['*', '*'] ++ [c]) := by
  have first : (chars ++ ['*']).flatMap charBytes <+: input :=
    List.IsPrefix.trans (by simp) ahead
  have second : (chars ++ ['*'] ++ ['*']).flatMap charBytes <+: input :=
    List.IsPrefix.trans (by simp) ahead
  have runs : Settled input (.run :: .run :: progress.current) (chars ++ ['*', '*']) := by
    have both := (settled.run first).run second
    rwa [List.append_assoc] at both
  have asRuns : progress.pushTwoRuns.plainStep c = some next →
      next.braces = [] ∧ Standing input next.current next.mode (chars ++ ['*', '*'] ++ [c]) :=
    @standing_of_plainStep input progress.pushTwoRuns next _ c runs last braces opens ahead
  have outside : progress.isInBraces = false := by
    rw [Progress.isInBraces, braces]
    rfl
  unfold Progress.starsStep at stepped
  split at stepped
  · next empty =>
      split at stepped
      · next slash =>
          -- Nothing has been read before the stars.
          cases stepped
          subst slash
          have nothing : progress.current = [] := List.isEmpty_iff.mp empty
          obtain rfl := settled.starts nothing
          refine ⟨braces, ?_⟩
          show Standing input (.leadingTree :: progress.current) .plain ['*', '*', '/']
          rw [nothing]
          exact .plain (settled_leadingTree ahead)
      · exact asRuns stepped
  · split at stepped
    · next follow =>
        split at stepped
        · next slash =>
            cases stepped
            subst slash
            have isSlash : chars.getLast? = some '/' := by
              simpa [Progress.mayFollow, outside] using follow
            rw [List.append_assoc] at ahead ⊢
            rw [replaceSlash_innerTree]
            exact ⟨braces, .plain (settled.tree isSlash ahead)⟩
        · rw [outside, Bool.false_and, if_neg Bool.false_ne_true] at stepped
          exact asRuns stepped
    · exact asRuns stepped

theorem standing_of_read (follows : Follows input progress chars) (opens : OpensNothing c)
    (ahead : (chars ++ [c]).flatMap charBytes <+: input)
    (isRead : progress.read c = some next) :
    next.braces = [] ∧ Standing input next.current next.mode (chars ++ [c]) := by
  obtain ⟨last, braces, standing⟩ := follows
  unfold Progress.read at isRead
  generalize progress.mode = mode at standing isRead
  cases standing with
  | plain settled => exact standing_of_plainStep settled last braces opens ahead isRead
  | @star chars settled =>
      have shorter : (chars ++ ['*']).flatMap charBytes <+: input :=
        List.IsPrefix.trans (by simp) ahead
      dsimp only at isRead
      split at isRead
      · next second =>
          cases isRead
          subst second
          rw [List.append_assoc]
          exact ⟨braces, .stars settled⟩
      · exact @standing_of_plainStep input (progress.push .run) next _ c (settled.run shorter)
          last braces opens ahead isRead
  | stars settled => exact standing_of_starsStep settled last braces opens ahead isRead

theorem Follows.step (follows : Follows input progress chars) (opens : OpensNothing c)
    (ahead : (chars ++ [c]).flatMap charBytes <+: input)
    (stepped : progress.step c = some next) : Follows input next (chars ++ [c]) := by
  obtain ⟨read, isRead, rfl⟩ := Option.map_eq_some_iff.mp stepped
  obtain ⟨braces, standing⟩ := standing_of_read follows opens ahead isRead
  exact ⟨List.getLast?_concat.symm, braces, standing⟩

theorem Follows.steps {more : List Char} (follows : Follows input progress chars)
    (opens : ∀ c ∈ more, OpensNothing c) (ahead : (chars ++ more).flatMap charBytes <+: input)
    (stepped : more.foldlM Progress.step progress = some next) :
    Follows input next (chars ++ more) := by
  induction more generalizing progress chars with
  | nil =>
      cases stepped
      simpa using follows
  | cons c rest inductionHypothesis =>
      rw [List.foldlM_cons] at stepped
      obtain ⟨middle, isStep, others⟩ := Option.bind_eq_some_iff.mp stepped
      have ready : (chars ++ [c]).flatMap charBytes <+: input :=
        List.IsPrefix.trans (by simp) ahead
      have moved := follows.step (opens c List.mem_cons_self) ready isStep
      have finished := inductionHypothesis moved
        (fun other member => opens other (List.mem_cons_of_mem _ member)) (by simpa using ahead)
        others
      simpa using finished

end Steps

/-! ## Whole patterns -/

variable {openClass : OpenClass} {text : String} {glob : Glob}

section Finish

variable {input : List UInt8} {progress : Progress} {chars : List Char}

theorem Follows.isInBraces (follows : Follows input progress chars) :
    progress.isInBraces = false := by
  rw [Progress.isInBraces, follows.braces]
  rfl

/-- At the end stars are runs, unless they are all of the text or stand behind a slash. -/
theorem Follows.finish (follows : Follows input progress chars)
    (ahead : chars.flatMap charBytes <+: input) (flat : ¬ ['/', '*', '*'] <:+ chars)
    (finished : progress.finish = some glob) :
    glob.pieces = [.leadingTree] ∨
      ∃ current, glob = ⟨current.reverse⟩ ∧ Reaches input current (offset chars) := by
  have outside := follows.isInBraces
  have standing := follows.standing
  unfold Progress.finish at finished
  rw [outside, if_neg Bool.false_ne_true] at finished
  generalize progress.mode = mode at standing finished
  cases standing with
  | plain settled =>
      cases finished
      exact Or.inr ⟨_, rfl, settled.reach⟩
  | star settled =>
      cases finished
      exact Or.inr ⟨_, rfl, (settled.run ahead).reach⟩
  | @stars chars settled =>
      cases finished
      unfold Progress.endStars
      split
      · next empty =>
          rw [List.isEmpty_iff] at empty
          refine Or.inl ?_
          simp [Progress.push, empty]
      · have first : (chars ++ ['*']).flatMap charBytes <+: input :=
          List.IsPrefix.trans (by simp) ahead
        have both := (settled.run first).run (by simpa using ahead)
        rw [List.append_assoc] at both
        have notBehindSlash : progress.mayFollow chars.getLast? = false := by
          rw [Bool.eq_false_iff]
          intro follow
          have slash : chars.getLast? = some '/' := by
            simpa [Progress.mayFollow, outside] using follow
          obtain ⟨front, rfl⟩ := List.getLast?_eq_some_iff.mp slash
          exact flat ⟨front, by simp⟩
        rw [notBehindSlash, if_neg Bool.false_ne_true]
        exact Or.inr ⟨_, rfl, both.reach⟩

/-- Two stars behind a slash, followed by a slash and a star, are a tree and a run. -/
theorem Follows.steps_inside (follows : Follows input progress (chars ++ ['/'])) :
    Settled input progress.current (chars ++ ['/']) ∧
      ∃ last, ['*', '*', '/', '*'].foldlM Progress.step progress = some last ∧
        last.isInClass = false ∧
        last.finish = some ⟨(.run :: treeAfterSlash progress.current).reverse⟩ := by
  obtain ⟨current, braces, last, mode, hasClasses, sinceBracket⟩ := progress
  obtain ⟨isLast, isOutside, standing⟩ := follows
  dsimp only at isLast isOutside standing ⊢
  rw [List.getLast?_concat] at isLast
  subst isLast isOutside
  generalize isRead : chars ++ ['/'] = whole at standing
  cases standing with
  | plain settled =>
      have solid : current ≠ [] := by
        intro none
        simp [settled.starts none] at isRead
      refine ⟨settled, ?_⟩
      simp [Progress.step, Progress.read, Progress.plainStep, Progress.starsStep, Progress.within,
        Progress.mayFollow, Progress.finish, Progress.isInBraces, Progress.isInClass,
        Progress.push, solid, replaceSlash_innerTree]
  | star settled => simp at isRead
  | stars settled =>
      have lasts := congrArg List.getLast? isRead
      simp at lasts

end Finish

theorem accepts_of_reaches {current : List GlobPiece}
    (reach : Reaches (Text.bytes text) current (offset text.toList)) :
    (Glob.mk current.reverse).accepts text = true := by
  rw [offset, ← bytes_eq_flatMap] at reach
  have matched := reach.isExhausted
  unfold accepts
  rw [toList_toUTF8]
  split
  · rfl
  · exact matched

/-- The reader is not in the middle of a class, so the text is read only once. -/
theorem Follows.isInClass {input : List UInt8} {progress : Progress} {chars : List Char}
    (follows : Follows input progress chars) : progress.isInClass = false := by
  have standing := follows.standing
  unfold Progress.isInClass
  generalize progress.mode = mode at standing
  cases standing <;> rfl

/-- A text without classes, braces and escapes accepts the path that is spelled like it, unless
two stars at its end stand for what is inside of a directory. -/
theorem accepts_self (parsed : parse? openClass text = some glob)
    (opens : ∀ c ∈ text.toList, OpensNothing c)
    (flat : ¬ ['/', '*', '*'] <:+ text.toList) : glob.accepts text = true := by
  have whole : text.toList.flatMap charBytes <+: Text.bytes text :=
    bytes_eq_flatMap text ▸ List.prefix_rfl
  obtain ⟨progress, stepped, finished⟩ := Option.bind_eq_some_iff.mp parsed
  have follows := (follows_start (Text.bytes text)).steps opens whole stepped
  rw [follows.isInClass, Bool.false_and, if_neg Bool.false_ne_true] at finished
  rcases follows.finish whole flat finished with everything | ⟨current, rfl, reach⟩
  · rw [accepts, everything]
  · exact accepts_of_reaches reach

/-- What speaks about the inside of a directory `**` is about that directory as well. -/
theorem accepts_inside (parsed : parse? openClass (text ++ "/*") = some glob)
    (opens : ∀ c ∈ text.toList, OpensNothing c)
    (deep : ['/', '*', '*'] <:+ text.toList) : glob.accepts text = true := by
  obtain ⟨chars, isText⟩ := deep
  have split : text.toList = (chars ++ ['/']) ++ ['*', '*'] := by simp [← isText]
  have pattern : (text ++ "/*").toList = (chars ++ ['/']) ++ ['*', '*', '/', '*'] := by
    simp [← isText]
  have whole : ((chars ++ ['/']) ++ ['*', '*']).flatMap charBytes <+: Text.bytes text :=
    split ▸ bytes_eq_flatMap text ▸ List.prefix_rfl
  have first : ((chars ++ ['/']) ++ ['*']).flatMap charBytes <+: Text.bytes text :=
    List.IsPrefix.trans (by simp) whole
  have front : (chars ++ ['/']).flatMap charBytes <+: Text.bytes text :=
    List.IsPrefix.trans (by simp) whole
  unfold parse? at parsed
  rw [pattern, List.foldlM_append] at parsed
  obtain ⟨last, stepped, finished⟩ := Option.bind_eq_some_iff.mp parsed
  obtain ⟨progress, read, more⟩ := Option.bind_eq_some_iff.mp stepped
  have follows := (follows_start (Text.bytes text)).steps
    (fun c member => opens c (by rw [split]; exact List.mem_append_left _ member)) front read
  obtain ⟨settled, other, same, closed, isGlob⟩ := Follows.steps_inside follows
  obtain rfl : other = last := Option.some.inj (same.symm.trans more)
  rw [closed, Bool.false_and, if_neg Bool.false_ne_true, isGlob] at finished
  cases finished
  -- The tree stays where it is, and the run takes the two stars.
  have atSlash := settled.slash List.getLast?_concat _ (Nat.le_refl _) (Or.inl rfl)
  have star : (Text.bytes text)[offset (chars ++ ['/'])]? = some 0x2a :=
    getElem?_offset whole charBytes_star
  have second : (Text.bytes text)[offset (chars ++ ['/']) + 1]? = some 0x2a := by
    have next := @getElem?_offset ((chars ++ ['/']) ++ ['*']) [] '*' 0x2a (Text.bytes text)
      (by simpa using whole) charBytes_star
    rwa [offset_append, offset_cons, charBytes_star] at next
  have taken := (atSlash.afterRun.afterRun_onward star (by decide)).afterRun_onward second
    (by decide)
  refine accepts_of_reaches (reaches_cons.mpr ?_)
  rw [split, offset_append, offset_cons, offset_cons, charBytes_star]
  exact taken

end SourceQuote.Glob
