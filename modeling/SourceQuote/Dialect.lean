import SourceQuote.Path.Basic

/-!
Contract: the dialects of a source file.

Owns: the dialects and grammars, which dialect a file name stands for, and
whether generated code carries type annotations.

Only ASCII capitals are made small before a name is looked at: no other
character has a small form that occurs in an extension.
-/

namespace SourceQuote

inductive Dialect where
  | typeScript
  | tsx
  | javaScript
deriving DecidableEq, Repr

inductive Grammar where
  | typeScript
  | tsx
deriving DecidableEq, Repr

namespace Dialect

def name : Dialect → String
  | .typeScript => "TypeScript"
  | .tsx => "Tsx"
  | .javaScript => "JavaScript"

/-- The grammar of a dialect. Plain JavaScript may hold tags and has no casts in
angle brackets, so it is read with the tag-aware grammar. -/
def grammar : Dialect → Grammar
  | .typeScript => .typeScript
  | .tsx => .tsx
  | .javaScript => .tsx

/-- Whether generated functions carry type annotations. -/
def isTyped : Dialect → Bool
  | .javaScript => false
  | _ => true

/-- Whether a lower-case path ends like that of a declaration file, which has no
method bodies. -/
def isDeclarationFile (path : String) : Bool :=
  [".d.ts", ".d.mts", ".d.cts"].any fun ending => ending.toList.isSuffixOf path.toList

def ofExtension? : String → Option Dialect
  | "ts" => some .typeScript
  | "mts" => some .typeScript
  | "cts" => some .typeScript
  | "tsx" => some .tsx
  | "js" => some .javaScript
  | "mjs" => some .javaScript
  | _ => none

/-- The dialect of the file at a path; none for other files and for declaration
files. -/
def ofPath? (path : String) : Option Dialect :=
  let lower := Text.lowerAscii path
  if isDeclarationFile lower then none else (Path.extension? lower).bind ofExtension?

end Dialect

end SourceQuote
