import SourceQuote.Glob.Matching
import SourceQuote.Proofs.Text.ByteOrder

/-!
Contract: how far the pieces of a pattern get in an input.

Owns: positions that some marks reach, and for bytes, runs and trees which positions are reached
after them.

A run stays where it is or goes on over a byte that is no slash. A tree stays where it is or goes
on to any later position right after a slash.

Does not own: positions that are not reached.
-/

namespace SourceQuote

theorem toList_toUTF8 (text : String) : text.toUTF8.toList = Text.bytes text :=
  Text.toList_eq_data text.toUTF8

theorem charBytes_eq (c : Char) : charBytes c = String.utf8EncodeChar c := by
  have alone : String.singleton c = String.ofList [c] := by simp
  rw [charBytes, toList_toUTF8, alone, Text.bytes_ofList, List.flatMap_singleton]

theorem bytes_eq_flatMap (text : String) : Text.bytes text = text.toList.flatMap charBytes := by
  rw [← String.ofList_toList (s := text), Text.bytes_ofList, String.toList_ofList]
  exact List.flatMap_congr fun c _ => (charBytes_eq c).symm

namespace Marks

variable {input : List UInt8} {marks : Marks} {position : Nat}

/-- Whether what follows a position of an input can remain. -/
structure Reach (input : List UInt8) (marks : Marks) (position : Nat) : Prop where
  length : marks.length = input.length + 1
  mark : marks[position]? = some true

theorem reach_whole (input : List UInt8) : Reach input (whole input) 0 :=
  ⟨by simp [whole], by simp [whole]⟩

theorem Reach.isExhausted (reach : Reach input marks input.length) :
    marks.isExhausted = true := by
  rw [Marks.isExhausted, List.getLastD_eq_getLast?, List.getLast?_eq_getElem?, reach.length,
    Nat.add_sub_cancel, reach.mark]
  rfl

/-! ## Bytes -/

theorem Reach.afterByte {holds : UInt8 → Bool} {byte : UInt8}
    (reach : Reach input marks position) (next : input[position]? = some byte)
    (isHeld : holds byte = true) : Reach input (afterByte holds input marks) (position + 1) := by
  refine ⟨by simp [Marks.afterByte, reach.length], ?_⟩
  rw [Marks.afterByte, List.getElem?_cons_succ, List.getElem?_zipWith, next, reach.mark]
  simp [isHeld]

theorem Reach.afterBytes {wanted : List UInt8} (reach : Reach input marks position)
    (next : wanted <+: input.drop position) :
    Reach input (afterBytes input wanted marks) (position + wanted.length) := by
  induction wanted generalizing marks position with
  | nil => exact reach
  | cons byte more inductionHypothesis =>
      obtain ⟨rest, cut⟩ := next
      have here : input[position]? = some byte := by
        rw [← List.head?_drop, ← cut]
        rfl
      have onward : more <+: input.drop (position + 1) := by
        rw [← List.drop_drop, ← cut]
        exact ⟨rest, rfl⟩
      have taken : Reach input (Marks.afterByte (fun other => other = byte) input marks)
          (position + 1) := reach.afterByte here (by simp)
      have advanced := inductionHypothesis taken onward
      rw [List.length_cons, Nat.add_comm more.length, ← Nat.add_assoc]
      exact advanced

/-! ## Runs -/

theorem length_afterRun (reached : Bool) (input : List UInt8) (marks : Marks) :
    (afterRun reached input marks).length = marks.length := by
  induction marks generalizing reached input with
  | nil => cases input <;> rfl
  | cons mark marks inductionHypothesis =>
      cases input with
      | nil => rfl
      | cons byte input => simp [afterRun, inductionHypothesis]

theorem afterRun_of_mark (reached : Bool) (isMarked : marks[position]? = some true) :
    (afterRun reached input marks)[position]? = some true := by
  induction marks generalizing reached input position with
  | nil => cases isMarked
  | cons mark marks inductionHypothesis =>
      cases input with
      | nil => cases position <;> simp_all [afterRun]
      | cons byte input =>
          cases position with
          | zero => simp_all [afterRun]
          | succ position => exact inductionHypothesis _ isMarked

theorem afterRun_onward {reached : Bool} {byte : UInt8}
    (isMarked : (afterRun reached input marks)[position]? = some true)
    (next : input[position]? = some byte) (flat : byte ≠ slashByte)
    (within : position + 1 < marks.length) :
    (afterRun reached input marks)[position + 1]? = some true := by
  induction marks generalizing reached input position with
  | nil => cases within
  | cons mark marks inductionHypothesis =>
      cases input with
      | nil => cases next
      | cons first input =>
          cases position with
          | zero =>
              -- The run is at the first byte and takes it, so it starts over at the second one.
              obtain rfl : first = byte := by simpa using next
              have isHere : (reached || mark) = true := by simpa [afterRun] using isMarked
              obtain ⟨second, others, rfl⟩ := List.exists_cons_of_length_pos
                (show 0 < marks.length by simpa using within)
              rw [afterRun, List.getElem?_cons_succ, isHere, bne_iff_ne.mpr flat]
              cases input <;> simp [afterRun]
          | succ position =>
              exact inductionHypothesis isMarked next (by simpa using within)

theorem Reach.afterRun (reach : Reach input marks position) :
    Reach input (afterRun false input marks) position :=
  ⟨(length_afterRun _ _ _).trans reach.length, afterRun_of_mark false reach.mark⟩

theorem Reach.afterRun_onward {byte : UInt8}
    (reach : Reach input (Marks.afterRun false input marks) position)
    (next : input[position]? = some byte) (flat : byte ≠ slashByte) :
    Reach input (Marks.afterRun false input marks) (position + 1) := by
  have same : marks.length = input.length + 1 := by
    rw [← length_afterRun false input marks, reach.length]
  have inside : position < input.length := (List.getElem?_eq_some_iff.mp next).1
  exact ⟨reach.length, Marks.afterRun_onward reach.mark next flat (by omega)⟩

/-! ## Trees -/

theorem length_afterTree (reached atName : Bool) (input : List UInt8) (marks : Marks) :
    (afterTree reached atName input marks).length = marks.length := by
  induction marks generalizing reached atName input with
  | nil => cases input <;> rfl
  | cons mark marks inductionHypothesis =>
      cases input with
      | nil => rfl
      | cons byte input => simp [afterTree, inductionHypothesis]

theorem afterTree_of_mark (reached atName : Bool) (isMarked : marks[position]? = some true) :
    (afterTree reached atName input marks)[position]? = some true := by
  induction marks generalizing reached atName input position with
  | nil => cases isMarked
  | cons mark marks inductionHypothesis =>
      cases input with
      | nil => cases position <;> simp_all [afterTree]
      | cons byte input =>
          cases position with
          | zero => simp_all [afterTree]
          | succ position => exact inductionHypothesis _ _ isMarked

/-- What was reached before goes on to the position after any slash. -/
theorem afterTree_of_reached (atName : Bool) (slash : input[position]? = some slashByte)
    (within : position + 1 < marks.length) :
    (afterTree true atName input marks)[position + 1]? = some true := by
  induction position generalizing input marks atName with
  | zero =>
      obtain ⟨first, others, rfl⟩ := List.exists_cons_of_length_pos
        (show 0 < marks.length by omega)
      obtain ⟨second, rest, rfl⟩ := List.exists_cons_of_length_pos
        (show 0 < others.length by simpa using within)
      cases input with
      | nil => cases slash
      | cons byte input =>
          obtain rfl : byte = slashByte := by simpa using slash
          cases input <;> simp [afterTree]
  | succ position inductionHypothesis =>
      obtain ⟨first, others, rfl⟩ := List.exists_cons_of_length_pos
        (show 0 < marks.length by omega)
      cases input with
      | nil => cases slash
      | cons byte input =>
          rw [afterTree, List.getElem?_cons_succ, Bool.true_or]
          exact inductionHypothesis _ slash (by simpa using within)

theorem afterTree_onward {later : Nat} (reached atName : Bool)
    (isMarked : marks[position]? = some true) (order : position ≤ later)
    (slash : input[later]? = some slashByte) (within : later + 1 < marks.length) :
    (afterTree reached atName input marks)[later + 1]? = some true := by
  induction marks generalizing reached atName input position later with
  | nil => cases isMarked
  | cons mark marks inductionHypothesis =>
      cases input with
      | nil => cases slash
      | cons byte input =>
          cases position with
          | zero =>
              -- What starts here is reached for all that follows.
              obtain rfl : mark = true := by simpa using isMarked
              have same : afterTree reached atName (byte :: input) (true :: marks) =
                  afterTree true true (byte :: input) (true :: marks) := by simp [afterTree]
              rw [same]
              exact afterTree_of_reached true slash within
          | succ position =>
              obtain ⟨later, rfl⟩ := Nat.exists_eq_add_one.mpr (show 0 < later by omega)
              exact inductionHypothesis _ _ isMarked (by omega) slash (by simpa using within)

/-- A tree leads to where it starts, and to every later position right after a slash. -/
theorem Reach.afterTree {later : Nat} (reach : Reach input marks position)
    (order : position ≤ later)
    (ends : later = position ∨ 0 < later ∧ input[later - 1]? = some slashByte) :
    Reach input (Marks.afterTree false false input marks) later := by
  refine ⟨(length_afterTree _ _ _ _).trans reach.length, ?_⟩
  by_cases here : later = position
  · rw [here]
    exact afterTree_of_mark false false reach.mark
  · obtain ⟨positive, slash⟩ := ends.resolve_left here
    have inside : later - 1 < input.length := (List.getElem?_eq_some_iff.mp slash).1
    have isMarked := @afterTree_onward input marks position (later - 1) false false reach.mark
      (by omega) slash (by rw [reach.length]; omega)
    rwa [Nat.sub_add_cancel positive] at isMarked

end Marks

end SourceQuote
