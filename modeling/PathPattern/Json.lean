import PathPattern.Matcher

/-!
The JSON forms of keys, values and matches. Reading takes a record also as the array of its fields,
and ignores fields it does not know.
-/
namespace PathPattern

/-- A JSON value. The fields of an object have different names. -/
inductive Json where
  | null
  | bool (value : Bool)
  /-- A number, as it is written. -/
  | number (text : String)
  | string (value : String)
  | array (items : List Json)
  | object (fields : List (String × Json))
  deriving Inhabited

namespace Json

def string? : Json → Option String
  | .string value => some value
  | _ => none

def array? : Json → Option (List Json)
  | .array items => some items
  | _ => none

/-- The values of the two fields of a record. -/
def pair? (first second : String) : Json → Option (Json × Json)
  | .object fields => do return (← fields.lookup first, ← fields.lookup second)
  | .array [a, b] => some (a, b)
  | _ => none

end Json

namespace Key.Kind

def label : Key.Kind → String
  | .param => "param"
  | .wildcard => "wildcard"

def ofLabel? (s : String) : Option Key.Kind :=
  if s = "param" then some .param
  else if s = "wildcard" then some .wildcard
  else none

def toJson (kind : Key.Kind) : Json := .string kind.label

/-- A kind is its label, or an object whose one field is the label and holds null. -/
def ofJson? : Json → Option Key.Kind
  | .string label => ofLabel? label
  | .object [(label, .null)] => ofLabel? label
  | _ => none

end Key.Kind

namespace Key

def toJson (key : Key) : Json :=
  .object [("name", .string key.name), ("type", key.kind.toJson)]

def ofJson? (json : Json) : Option Key := do
  let (name, kind) ← json.pair? "name" "type"
  return ⟨← Kind.ofJson? kind, ← name.string?⟩

def listToJson (keys : List Key) : Json := .array (keys.map toJson)

def listOfJson? (json : Json) : Option (List Key) := do (← json.array?).mapM ofJson?

end Key

namespace Value

def toJson : Value → Json
  | .single value => .string value
  | .many values => .array (values.map .string)

def ofJson? : Json → Option Value
  | .string value => some (.single value)
  | .array items => .many <$> items.mapM Json.string?
  | _ => none

end Value

namespace Params

def toJson (params : Params) : Json :=
  .object (params.toList.map fun entry => (entry.1, entry.2.toJson))

def ofJson? : Json → Option Params
  | .object fields => do
    let entries ← fields.mapM fun field => return (field.1, ← Value.ofJson? field.2)
    return entries.foldl (fun acc entry => acc.insert entry.1 entry.2) empty
  | _ => none

end Params

namespace Match

def toJson (m : Match) : Json :=
  .object [("path", .string m.path), ("params", m.params.toJson)]

def ofJson? (json : Json) : Option Match := do
  let (path, params) ← json.pair? "path" "params"
  return ⟨← path.string?, ← Params.ofJson? params⟩

end Match

end PathPattern
