/-!
Contract: options and operands of a command line.

Owns: how a list of arguments falls into options with values, flags and operands.

Arguments are read from left to right, and the first that is wrong, or that asks
for help or for the version, ends the reading. An option is written `--name value`,
`--name=value`, `-n value`, `-nvalue` or `-n=value`. A value in an argument of its
own does not start with a dash, unless it is the dash alone. No option may come
twice. After `--` every argument is an operand.

Does not own: which options a program has.
-/

namespace SourceQuote.Command

/-- Why reading arguments ended early. -/
inductive Stop where
  | usage
  | help
  | version
deriving DecidableEq, Repr

structure OptionSpec where
  long : String
  short : Option Char := none
  takesValue : Bool := true
  /-- Whether a value is acceptable. -/
  accepts : String → Bool := fun _ => true

structure Spec where
  options : List OptionSpec
  /-- The largest number of operands, none for any number. -/
  operandLimit : Option Nat
  /-- Whether the version can be asked for. -/
  hasVersion : Bool := false
  /-- Whether the first operand ends the reading. -/
  stopsAtOperand : Bool := false

structure Scanned where
  /-- Options with their values; a flag has the empty value. -/
  options : List (String × String) := []
  operands : List String := []
  /-- The arguments that were left unread. -/
  unread : List String := []

namespace Scanned

def value? (scanned : Scanned) (long : String) : Option String :=
  scanned.options.lookup long

def hasFlag (scanned : Scanned) (long : String) : Bool :=
  (scanned.value? long).isSome

/-- Adds an option, unless it is there already or its value is not acceptable. -/
def addOption (scanned : Scanned) (option : OptionSpec) (value : String) :
    Except Stop Scanned :=
  if scanned.hasFlag option.long || !option.accepts value then .error .usage
  else .ok { scanned with options := scanned.options ++ [(option.long, value)] }

/-- Adds operands, unless they are too many. -/
def addOperands (scanned : Scanned) (spec : Spec) (operands : List String) :
    Except Stop Scanned :=
  let all := scanned.operands ++ operands
  match spec.operandLimit with
  | none => .ok { scanned with operands := all }
  | some limit =>
      if limit < all.length then .error .usage else .ok { scanned with operands := all }

end Scanned

inductive Argument where
  | operand
  /-- Ends the options. -/
  | separator
  | flag (option : OptionSpec)
  | valued (option : OptionSpec) (value : String)
  /-- The value is the next argument. -/
  | awaiting (option : OptionSpec)
  | stop (stop : Stop)

/-- A text cut at its first equals sign. -/
def cutAtEquals (text : List Char) : List Char × Option (List Char) :=
  let name := text.takeWhile (· ≠ '=')
  match text.drop name.length with
  | [] => (name, none)
  | _ :: value => (name, some value)

/-- What an argument is that starts with two dashes. -/
def Argument.ofLong (spec : Spec) (text : List Char) : Argument :=
  let (written, value) := cutAtEquals text
  let name := String.ofList written
  if name = "help" && value.isNone then .stop .help
  else if name = "version" && spec.hasVersion && value.isNone then .stop .version
  else
    match spec.options.find? fun option => option.long = name with
    | none => .stop .usage
    | some option =>
        match option.takesValue, value with
        | true, some value => .valued option (String.ofList value)
        | true, none => .awaiting option
        | false, some _ => .stop .usage
        | false, none => .flag option

/-- A value that is written right after the letter of its option. -/
def attachedValue : List Char → List Char
  | '=' :: value => value
  | value => value

/-- What an argument is that starts with one dash and a letter. -/
def Argument.ofShort (spec : Spec) (letter : Char) (rest : List Char) : Argument :=
  if letter = 'h' then .stop .help
  else if letter = 'V' && spec.hasVersion then .stop .version
  else
    match spec.options.find? fun option => option.short = some letter with
    | none => .stop .usage
    | some option =>
        if rest.isEmpty then .awaiting option
        else .valued option (String.ofList (attachedValue rest))

def Argument.ofText (spec : Spec) (text : String) : Argument :=
  match text.toList with
  | ['-', '-'] => .separator
  | '-' :: '-' :: rest => .ofLong spec rest
  | '-' :: letter :: rest => .ofShort spec letter rest
  | _ => .operand

/-- Whether an argument can be the value of the option before it. -/
def canBeValue (text : String) : Bool :=
  match text.toList with
  | ['-'] => true
  | '-' :: _ => false
  | _ => true

def scan (spec : Spec) (scanned : Scanned) : List String → Except Stop Scanned
  | [] => .ok scanned
  | text :: rest =>
      match Argument.ofText spec text with
      | .stop stop => .error stop
      | .separator => scanned.addOperands spec rest
      | .operand =>
          if spec.stopsAtOperand then
            .ok { scanned with unread := text :: rest }
          else do
            let scanned ← scanned.addOperands spec [text]
            scan spec scanned rest
      | .flag option => do
          let scanned ← scanned.addOption option ""
          scan spec scanned rest
      | .valued option value => do
          let scanned ← scanned.addOption option value
          scan spec scanned rest
      | .awaiting option =>
          match rest with
          | [] => .error .usage
          | value :: more =>
              if canBeValue value then do
                let scanned ← scanned.addOption option value
                scan spec scanned more
              else
                .error .usage

end SourceQuote.Command
