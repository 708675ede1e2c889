import SourceQuote.Json.Writer

/-!
Contract: the summary of a build.

Owns: what is counted, and the two forms in which a summary is shown.

The time that a build took is not part of what it computes; the two forms take it
as an argument.
-/

namespace SourceQuote

structure BuildReport where
  filesSeen : Nat
  filesTransformed : Nat
  filesCopied : Nat
  filesUnchanged : Nat
  filesFailed : Nat
  classesQuoted : Nat
  methodsQuoted : Nat
  manifestPath : Option String
deriving DecidableEq, Repr

namespace BuildReport

def toJson (report : BuildReport) (milliseconds : Nat) : Json :=
  .record [("files_seen", .natural report.filesSeen),
    ("files_transformed", .natural report.filesTransformed),
    ("files_copied", .natural report.filesCopied),
    ("files_unchanged", .natural report.filesUnchanged),
    ("files_failed", .natural report.filesFailed),
    ("classes_quoted", .natural report.classesQuoted),
    ("methods_quoted", .natural report.methodsQuoted),
    ("elapsed_ms", .natural milliseconds),
    ("manifest_path", (report.manifestPath.map Json.text).getD .null)]

def summary (report : BuildReport) : String :=
  toString report.filesSeen ++ " file(s): " ++
    toString report.filesTransformed ++ " transformed, " ++
    toString report.filesCopied ++ " copied, " ++
    toString report.filesUnchanged ++ " unchanged; " ++
    toString report.classesQuoted ++ " class(es), " ++
    toString report.methodsQuoted ++ " method(s) quoted"

end BuildReport

end SourceQuote
