import SourceQuote.Json.Writer
import SourceQuote.Log.Event

/-!
Contract: events as lines of a log.

Owns: the value of an event, and its line in each format.
-/

namespace SourceQuote.Log.Event

/-- The value of an event: its level, its message and its fields. -/
def toJson (event : Event) : Json :=
  .record (("level", .text event.level.tag) :: ("message", .text event.message) ::
    event.fields.map fun (name, value) => (name, .text value))

def line (event : Event) : Format → String
  | .json => event.toJson.compact
  | .text =>
      event.level.tag ++ " " ++ event.scope ++ ": " ++ event.message ++
        String.join (event.fields.map fun (name, value) => " " ++ name ++ "=" ++ value)

end SourceQuote.Log.Event
