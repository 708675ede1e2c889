import SourceQuote.Command.Options
import SourceQuote.Log.Level
import SourceQuote.Pass.Options
import SourceQuote.Text.Natural

/-!
Contract: the commands and their arguments.

Owns: what can be asked of the program, and which arguments ask for it.

The level and the format of the log can be chosen before and after the name of a
command; what comes after it wins. A name that is not known chooses the default.
-/

namespace SourceQuote

open SourceQuote.Command

structure BuildRequest where
  project : String
  configPath : Option String
  outDir : Option String
  workers : Option Nat
  /-- Whether the report is shown as JSON. -/
  asJson : Bool
deriving DecidableEq, Repr

structure QuoteRequest where
  path : String
  className : String
  method : String
  span : String
  /-- Replacements for the parameter names; none at all to keep them. -/
  names : List String
deriving DecidableEq, Repr

inductive Request where
  | build (request : BuildRequest)
  | transform (path marker : String)
  | quote (request : QuoteRequest)
deriving DecidableEq, Repr

/-- A request and how the work on it is logged. -/
structure Invocation where
  request : Request
  level : Log.Level
  format : Log.Format
deriving DecidableEq, Repr

namespace Invocation

/-- The options for the log, which every command takes. -/
def logOptions : List OptionSpec :=
  [⟨"log-level", none, true, fun _ => true⟩, ⟨"log-format", none, true, fun _ => true⟩]

/-- What may come before the name of a command. -/
def outerSpec : Spec :=
  ⟨logOptions, some 0, true, true⟩

def isWorkers (text : String) : Bool :=
  (Text.natural? Text.wordBound text).isSome

def buildSpec : Spec :=
  ⟨logOptions ++
    [⟨"project", some 'p', true, fun _ => true⟩,
      ⟨"config", some 'c', true, fun _ => true⟩,
      ⟨"out-dir", none, true, fun _ => true⟩,
      ⟨"workers", some 'j', true, isWorkers⟩,
      ⟨"json", none, false, fun _ => true⟩],
    some 0, false, false⟩

def transformSpec : Spec :=
  ⟨logOptions ++ [⟨"marker", none, true, fun _ => true⟩], some 1, false, false⟩

def quoteSpec : Spec :=
  ⟨logOptions ++
    [⟨"class", none, true, fun _ => true⟩,
      ⟨"method", none, true, fun _ => true⟩,
      ⟨"span", none, true, fun _ => true⟩],
    none, false, false⟩

def buildRequest (scanned : Scanned) : Request :=
  .build {
    project := (scanned.value? "project").getD "."
    configPath := scanned.value? "config"
    outDir := scanned.value? "out-dir"
    workers := (scanned.value? "workers").bind (Text.natural? Text.wordBound)
    asJson := scanned.hasFlag "json" }

def transformRequest (scanned : Scanned) : Except Stop Request :=
  let default : PassOptions := {}
  match scanned.operands with
  | [path] => .ok (.transform path ((scanned.value? "marker").getD default.marker))
  | _ => .error .usage

def quoteRequest (scanned : Scanned) : Except Stop Request :=
  match scanned.operands, scanned.value? "class", scanned.value? "method" with
  | path :: names, some className, some method =>
      .ok (.quote {
        path := path
        className := className
        method := method
        span := (scanned.value? "span").getD "func"
        names := names })
  | _, _, _ => .error .usage

/-- An option for the log: the inner value wins over the outer one. -/
def logOption (outer inner : Scanned) (name : String) : Option String :=
  (inner.value? name).or (outer.value? name)

def ofRequest (outer inner : Scanned) (request : Request) : Invocation :=
  { request := request
    level := ((logOption outer inner "log-level").bind Log.Level.parse?).getD .warn
    format := ((logOption outer inner "log-format").bind Log.Format.parse?).getD .text }

def ofCommand (outer : Scanned) (name : String) (arguments : List String) :
    Except Stop Invocation :=
  match name with
  | "build" => do
      let inner ← scan buildSpec {} arguments
      return ofRequest outer inner (buildRequest inner)
  | "transform" => do
      let inner ← scan transformSpec {} arguments
      let request ← transformRequest inner
      return ofRequest outer inner request
  | "quote" => do
      let inner ← scan quoteSpec {} arguments
      let request ← quoteRequest inner
      return ofRequest outer inner request
  | "help" =>
      match arguments with
      | [] => .error .help
      | [topic] =>
          if topic ∈ ["build", "transform", "quote", "help"] then .error .help
          else .error .usage
      | _ => .error .usage
  | _ => .error .usage

def helpText : String :=
  "Quote decorated TypeScript methods into source-text templates\n\n" ++
    "tsq build [-p DIR] [-c FILE] [--out-dir DIR] [-j N] [--json]\n" ++
    "tsq transform PATH [--marker NAME]\n" ++
    "tsq quote PATH --class NAME --method NAME [--span func|body] [NAMES...]\n\n" ++
    "Every command takes --log-level LEVEL and --log-format FORMAT.\n"

/-- Reads the arguments of the program. -/
def parse (arguments : List String) : Except Stop Invocation := do
  let outer ← scan outerSpec {} arguments
  match outer.unread with
  | [] => .error .usage
  | name :: rest => ofCommand outer name rest

end Invocation

end SourceQuote
