import RouteBook.Json.Print
import RouteBook.Log.Event
import RouteBook.Log.Format
import RouteBook.Text.Quoted

/-! Events as lines, without the time in front. -/

namespace RouteBook.Log

inductive Line where
  | text (value : String)
  | object (value : Json.Value)

namespace FieldValue

/-- A value in a pretty line; `millis` is what the clock says. -/
def pretty (millis : Nat) : FieldValue → String
  | .text value => value
  | .string value => Text.quoted value
  | .number value => toString value
  | .elapsed => toString millis

def toJson (millis : Nat) : FieldValue → Json.Value
  | .text value | .string value => .str value
  | .number value => .num (.int value)
  | .elapsed => .num (.int millis)

end FieldValue

/-- Fields as `name=value` with spaces between. -/
def Fields.pretty (millis : Nat) (fields : Fields) : String :=
  String.intercalate " " (fields.map fun (name, value) => name ++ "=" ++ value.pretty millis)

/-- A span in a pretty line. -/
def Span.pretty (millis : Nat) (span : Span) : String :=
  if span.fields = [] then span.name ++ ":" else span.name ++ "\x7b" ++ Fields.pretty millis span.fields ++ "\x7d:"

namespace Event

/-- The level, the spans, the target, the message and the fields. Fields about the log itself are left out. -/
def pretty (millis : Nat) (event : Event) : String :=
  let level := event.level.name
  let fields := event.fields.filter fun (name, _) => !"log.".toList.isPrefixOf name.toList
  String.intercalate " "
    ((if level.length < 5 then " " ++ level else level) ::
      (if event.spans = [] then [] else [String.join (event.spans.map (Span.pretty millis))]) ++
      [event.target ++ ":", event.message] ++
      (if fields = [] then [] else [Fields.pretty millis fields]))

/-- One object with the fields beside level, target and message, and with the innermost span. -/
def toJson (millis : Nat) (event : Event) : Json.Value :=
  let object (fields : Fields) : List (String × Json.Value) := fields.map fun (name, value) => (name, value.toJson millis)
  let span := event.spans.getLast?.map fun span => ("span", Json.Value.obj (object span.fields ++ [("name", .str span.name)]))
  .obj ([("level", .str event.level.name), ("message", .str event.message)] ++ object event.fields ++
    [("target", .str event.target)] ++ span.toList)

def line (format : Format) (millis : Nat) (event : Event) : Line :=
  match format with
  | .json => .object (event.toJson millis)
  | .pretty => .text (event.pretty millis)

end Event
end RouteBook.Log
