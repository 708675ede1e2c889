import SourceQuote.Path.Basic

/-!
Contract: the identity of a class across files.

Owns: the pair of module name and class name, its dotted form, and its order.
-/

namespace SourceQuote

/-- A class by the dotted name of its module and its own name. -/
structure ClassId where
  moduleName : String
  name : String
deriving DecidableEq, Repr, Inhabited

namespace ClassId

/-- Classes come in the order of their modules, then of their names, both by
code points. -/
instance : Ord ClassId where
  compare := compareLex (compareOn ClassId.moduleName) (compareOn ClassId.name)

instance : Std.TransOrd ClassId :=
  inferInstanceAs
    (Std.TransCmp (compareLex (compareOn ClassId.moduleName) (compareOn ClassId.name)))

/-- The class of a given name declared in the file at a path. -/
def forPath (path name : String) : ClassId :=
  ⟨Path.moduleName path, name⟩

/-- The dotted name; only the class name if the module has none. -/
def qualified (classId : ClassId) : String :=
  if classId.moduleName.isEmpty then classId.name
  else classId.moduleName ++ "." ++ classId.name

end ClassId

end SourceQuote
