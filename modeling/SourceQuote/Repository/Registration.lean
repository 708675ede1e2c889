import SourceQuote.Json.Writer
import SourceQuote.Repository.Basic
import SourceQuote.Template.ArrowFunction

/-!
Contract: the statement that registers a repository in generated code.

Owns: the text of one call with the class and an object literal that holds, for
each method, the arrow functions of its two templates.

A method name with the shape of an identifier is a key as it is; any other is
written as a string.
-/

namespace SourceQuote.Repository

def objectKey (method : String) : String :=
  if Text.isIdentifier method then method else String.ofList (Json.writeString (some method))

def registrationEntry (typed : Bool) (newline : String) (entry : String × Quotation) : String :=
  "  " ++ objectKey entry.1 ++ ": \x7b" ++ newline ++
    "    func: " ++ entry.2.func.arrowFunction typed ++ "," ++ newline ++
    "    body: " ++ entry.2.body.arrowFunction typed ++ "," ++ newline ++
    "  \x7d," ++ newline

/-- The statement that registers a repository for the class that `classRef`
names, by a call of `registerCall`. -/
def registration
    (repository : Repository)
    (classRef : String)
    (registerCall : String)
    (typed : Bool)
    (newline : String) : String :=
  if repository.isEmpty then
    registerCall ++ "(" ++ classRef ++ ", \x7b\x7d);"
  else
    registerCall ++ "(" ++ classRef ++ ", \x7b" ++ newline ++
      String.join (repository.quotations.entries.map (registrationEntry typed newline)) ++
      "\x7d);"

end SourceQuote.Repository
