import SourceQuote.Text.Blank

/-!
Contract: how much is logged, and in which form.

Owns: levels and formats with their names. A level lets through the events of
its own level and of the graver ones.

Does not own: filters, which choose levels by the part of the library that an
event comes from.
-/

namespace SourceQuote.Log

open SourceQuote.Text

/-- Levels, gravest first. -/
inductive Level where
  | error
  | warn
  | info
  | debug
  | trace
deriving DecidableEq, Repr

namespace Level

/-- Levels by gravity: zero is the gravest. -/
def rank : Level → Nat
  | .error => 0
  | .warn => 1
  | .info => 2
  | .debug => 3
  | .trace => 4

/-- The level with a given name; capitals do not matter. -/
def parse? (text : String) : Option Level :=
  match lowerAscii text with
  | "error" => some .error
  | "err" => some .error
  | "warn" => some .warn
  | "warning" => some .warn
  | "info" => some .info
  | "debug" => some .debug
  | "trace" => some .trace
  | "verbose" => some .trace
  | _ => none

def name : Level → String
  | .error => "error"
  | .warn => "warn"
  | .info => "info"
  | .debug => "debug"
  | .trace => "trace"

/-- The name that an event of this level is logged with. -/
def tag : Level → String
  | .error => "ERROR"
  | .warn => "WARN"
  | .info => "INFO"
  | .debug => "DEBUG"
  | .trace => "TRACE"

end Level

inductive Format where
  | text
  | json
deriving DecidableEq, Repr

/-- The format with a given name; capitals do not matter. -/
def Format.parse? (text : String) : Option Format :=
  match lowerAscii text with
  | "text" => some .text
  | "plain" => some .text
  | "json" => some .json
  | _ => none

def Format.name : Format → String
  | .text => "text"
  | .json => "json"

end SourceQuote.Log
