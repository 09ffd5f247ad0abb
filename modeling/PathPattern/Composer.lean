import PathPattern.Params
import PathPattern.Pattern
import PathPattern.Token.Basic

/-!
Composing a path from parameters. A group for which a parameter is missing vanishes; outside groups
every missing parameter is reported.
-/
namespace PathPattern

structure Composer where
  template : Template
  delimiter : String
  /-- Applied to every value; without it values stay as they are. -/
  encode : Option (String → String)

/-- A text, and the names of the parameters that it lacks. -/
structure Part where
  text : String
  missing : List String
  deriving DecidableEq, Repr

namespace Part

def ofText (text : String) : Part := ⟨text, []⟩

def append (a b : Part) : Part := ⟨a.text ++ b.text, a.missing ++ b.missing⟩

/-- Nothing, where a parameter is missing. -/
def optional (p : Part) : Part := if p.missing.isEmpty then p else ofText ""

end Part

namespace Composer

def ofTemplate (o : Options) (template : Template) : Composer :=
  ⟨template, o.delimiter, o.encode⟩

def ofPattern (o : Options) (pattern : Pattern) : Except Error Composer :=
  (pattern.toTemplate o).map (ofTemplate o)

def encodeValue (c : Composer) (value : String) : String :=
  match c.encode with
  | some encode => encode value
  | none => value

/-- What a capture contributes: a param takes one text, a wildcard some segments. -/
def capture (c : Composer) (params : Params) (key : Key) : Except Error Part :=
  match params[key.name]?, key.kind with
  | none, _ => .ok ⟨"", [key.name]⟩
  | some (.single value), .param => .ok (.ofText (c.encodeValue value))
  | some (.many _), .param => .error (.invalidType key.name "a string")
  | some (.many (value :: values)), .wildcard =>
    .ok (.ofText (c.delimiter.intercalate ((value :: values).map c.encodeValue)))
  | some _, .wildcard => .error (.invalidType key.name "a non-empty array")

mutual

/-- What a token contributes. -/
def token (c : Composer) (params : Params) : Token → Except Error Part
  | .text value => .ok (.ofText value)
  | .capture key => c.capture params key
  | .group tokens => (c.tokens params tokens).map Part.optional

/-- What tokens contribute together. -/
def tokens (c : Composer) (params : Params) : List Token → Except Error Part
  | [] => .ok (.ofText "")
  | t :: rest => do
    let first ← c.token params t
    let more ← c.tokens params rest
    return first.append more

end

/-- The path that the parameters give. -/
def compose (c : Composer) (params : Params) : Except Error String := do
  let whole ← c.tokens params c.template
  if whole.missing.isEmpty then return whole.text
  else throw (.missingParameters whole.missing)

end Composer

end PathPattern
