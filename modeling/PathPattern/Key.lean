/-!
Keys: what a pattern captures from a path, and under which name.
-/
namespace PathPattern

/-- A param captures within one segment of a path, a wildcard across segments. -/
inductive Key.Kind where
  | param
  | wildcard
  deriving DecidableEq, Repr

/-- A named capture of a pattern. -/
structure Key where
  kind : Key.Kind
  name : String
  deriving DecidableEq, Repr

/-- The character that announces the name in a pattern. -/
def Key.Kind.sigil : Key.Kind → Char
  | .param => ':'
  | .wildcard => '*'

end PathPattern
