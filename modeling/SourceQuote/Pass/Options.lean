import SourceQuote.Error
import SourceQuote.Text.Identifier

/-!
Contract: the choices of the quoting pass.

Owns: the marker and the registration call, their defaults, and the shape that
they must have.
-/

namespace SourceQuote

structure PassOptions where
  /-- The decorator that marks a class. -/
  marker : String := "quoted"
  /-- What the registration statement calls. -/
  registerCall : String := "quoted.saveRepo"
deriving DecidableEq, Repr

/-- Refuses a marker that is no identifier, then a call that is no dotted path of
identifiers. -/
def PassOptions.validate (options : PassOptions) : Except Error Unit :=
  if Text.isIdentifier options.marker then
    if Text.isDottedIdentifier options.registerCall then .ok ()
    else .error (.config (.registerCallShape options.registerCall))
  else
    .error (.config (.markerShape options.marker))

end SourceQuote
