import PathPattern.Options
import PathPattern.Token.Parser

/-!
Patterns: a text still to be read, or a template.
-/
namespace PathPattern

/-- Reads a pattern under the options. -/
def Options.parse (o : Options) (pattern : String) : Except Error Template :=
  (Template.parse (o.encodePath.getD id) pattern).mapError .malformed

inductive Pattern where
  | source (text : String)
  | template (tokens : Template)

/-- The template of a pattern. A ready template is used as it is. -/
def Pattern.toTemplate (o : Options) : Pattern → Except Error Template
  | .source text => o.parse text
  | .template tokens => .ok tokens

end PathPattern
