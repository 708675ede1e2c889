import SourceQuote.Log.Expression.Mode
import SourceQuote.Text.Alphanumeric

/-!
Contract: what may follow a parenthesis that opens something.

Owns: flags and the names of groups.

Does not own: groups that look ahead or behind; their marks are no flags, and no
name starts with them, so they are refused.
-/

namespace SourceQuote.Log.Expression

open SourceQuote.Text

inductive Opening where
  /-- A group, with its name if it has one, and the mode inside. -/
  | group (name : Option String) (mode : Mode)
  /-- A change of the mode for what follows. -/
  | change (mode : Mode)
deriving DecidableEq, Repr

def flagLetters : List Char :=
  ['i', 'm', 's', 'U', 'u', 'R', 'x']

/-- The mode with a flag turned on or off; most flags do not change how an
expression is read. -/
def Mode.set (mode : Mode) (flag : Char) (on : Bool) : Mode :=
  match flag with
  | 'x' => { mode with freeSpacing := on }
  | 'u' => { mode with unicode := on }
  | _ => mode

/-- Reads flags, each at most once, after those that have been seen. A dash turns off
the flags after it, and there must be one. -/
def flags? (seen : List Char) (mode : Mode) : List Char → Option (Opening × List Char)
  | [] => none
  | ':' :: rest => if seen.head? = some '-' then none else some (.group none mode, rest)
  | ')' :: rest =>
      if seen.isEmpty || seen.head? = some '-' then none else some (.change mode, rest)
  | c :: rest =>
      if (c = '-' || flagLetters.contains c) && !seen.contains c then
        flags? (c :: seen) (mode.set c (!seen.contains '-')) rest
      else
        none

def isGroupName : List Char → Bool
  | [] => false
  | first :: rest =>
      (first = '_' || isAlphabetic first) &&
        rest.all fun c => c = '_' || c = '.' || c = '[' || c = ']' || isAlphanumeric c

def groupName? (mode : Mode) (chars : List Char) : Option (Opening × List Char) :=
  let name := chars.takeWhile (· ≠ '>')
  match chars.dropWhile (· ≠ '>') with
  | _ :: rest =>
      if isGroupName name then some (.group (some (String.ofList name)) mode, rest) else none
  | [] => none

def opening? (mode : Mode) (chars : List Char) : Option (Opening × List Char) :=
  match mode.skip chars with
  | '?' :: 'P' :: '<' :: rest => groupName? mode rest
  | '?' :: '<' :: rest => groupName? mode rest
  | '?' :: rest => flags? [] mode rest
  | rest => some (.group none mode, rest)

end SourceQuote.Log.Expression
