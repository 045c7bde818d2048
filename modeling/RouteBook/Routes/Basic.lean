import RouteBook.Json.Print
import RouteBook.Text.Blank

/-! Route descriptions: what the documentation says about one route, and the Markdown page made from a
list of them. -/

namespace RouteBook.Routes

/-- An example of the body a route answers with. -/
inductive Sample
  | json (value : Json.Value)
  | text (body : String)
  | placeholder

structure Route where
  method : String
  path : String
  function : String
  description : String
  sample : Sample

/-- The language tag and the body of a sample's code block. -/
def Sample.fenced : Sample → String × String
  | json value => ("json", value.pretty)
  | text body => ("text", body)
  | placeholder => ("json", "\x7b\n  \"status\": \"ok\"\n\x7d")

def noDescription : String := "No description provided."

/-- The section of one route. -/
def Route.section (route : Route) : String :=
  let (language, body) := route.sample.fenced
  "## " ++ route.method ++ " " ++ route.path ++ "\n\n**Function**: " ++ route.function ++
    "\n\n**Description**: " ++ route.description ++ "\n\n**Sample Response**:\n\n```" ++ language ++ "\n" ++ body ++
    "\n```\n\n"

/-- The page of a list of routes under a title. -/
def markdown (title : String) (routes : List Route) : String :=
  "# API Documentation (" ++ title ++ ")\n\n" ++ String.join (routes.map Route.section)

/-- A text without the blanks around it, unless nothing else is left. -/
def substance (text : Option String) : Option (List Char) :=
  match text.map (Text.trim ·.toList) with
  | some [] => none
  | other => other

/-- Summary and description as one line: a description that starts with the summary stands for both, and
every run of blanks becomes a single space. -/
def describe (summary description : Option String) : String :=
  let joined : Option (List Char) :=
    match substance summary, substance description with
    | some s, some d => some (if s.isPrefixOf d then d else s ++ ' ' :: d)
    | some s, none => some s
    | none, some d => some d
    | none, none => none
  match joined with
  | none => noDescription
  | some cs => String.intercalate " " ((Text.words cs).map String.ofList)

end RouteBook.Routes
