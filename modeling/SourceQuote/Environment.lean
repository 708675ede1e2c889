/-!
Contract: what a run sees of the account that it runs for.

Owns: the type, looking up a variable that has a value, and the home directory.

Does not own: what a variable means; that stands with the settings it overrides.
-/

namespace SourceQuote

inductive EnvironmentEntry where
  | assignment (variableName value : String)
  /-- The home directory that the system keeps for the account. -/
  | accountHome (path : String)

namespace EnvironmentEntry

/-- A name with its value stands for an assignment. -/
instance : Coe (String × String) EnvironmentEntry where
  coe pair := .assignment pair.1 pair.2

def valueOf? (variableName : String) : EnvironmentEntry → Option String
  | .assignment assigned value => if assigned = variableName then some value else none
  | .accountHome _ => none

def accountHome? : EnvironmentEntry → Option String
  | .assignment .. => none
  | .accountHome path => some path

end EnvironmentEntry

/-- The variables, and the account's home directory if the system keeps one. -/
abbrev Environment := List EnvironmentEntry

namespace Environment

def lookup (environment : Environment) (variableName : String) : Option String :=
  environment.findSome? (EnvironmentEntry.valueOf? variableName)

/-- The value of a variable, none if it is unset or empty. -/
def filled? (environment : Environment) (variableName : String) : Option String :=
  (environment.lookup variableName).filter fun value => !value.isEmpty

/-- The user's home directory: the one that `HOME` names comes before the account's. -/
def home? (environment : Environment) : Option String :=
  (environment.filled? "HOME").or (environment.findSome? EnvironmentEntry.accountHome?)

end Environment

end SourceQuote
