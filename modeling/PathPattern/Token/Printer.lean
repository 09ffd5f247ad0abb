import PathPattern.Lexeme.Basic
import PathPattern.Text.Identifier
import PathPattern.Token.Basic

/-!
Writing a template as a pattern. Texts get a backslash before every character that would not stand
for itself; a name is bare where it can be and quoted elsewhere.
-/
namespace PathPattern

open Text (Identifier.isName Identifier.isContinue)

/-- Whether the character has a meaning of its own in a pattern. -/
def isReserved (c : Char) : Bool :=
  (Mark.ofChar? c).isSome || c = ':' || c = '*' || c = '\\'

def escapeText (cs : List Char) : List Char :=
  cs.flatMap fun c => if isReserved c then ['\\', c] else [c]

def quoteName (cs : List Char) : List Char :=
  '"' :: cs.flatMap (fun c => if c = '"' ∨ c = '\'' ∨ c = '\\' then ['\\', c] else [c]) ++ ['"']

/-- Whether a bare name in front of these tokens ends where it should: no text right after it
starts with a character that would lengthen it. -/
def endsName : List Token → Bool
  | .text value :: _ => !value.toList.head?.any Identifier.isContinue
  | _ => true

/-- The spelling of a name in front of `rest`. -/
def spellName (name : List Char) (rest : List Token) : List Char :=
  if Identifier.isName name && endsName rest then name else quoteName name

mutual

/-- The characters of a token in front of `rest`. -/
def Token.chars (rest : List Token) : Token → List Char
  | .text value => escapeText value.toList
  | .capture key => key.kind.sigil :: spellName key.name.toList rest
  | .group tokens => '\x7b' :: Template.chars tokens ++ ['\x7d']

/-- The characters of a template. -/
def Template.chars : List Token → List Char
  | [] => []
  | token :: rest => token.chars rest ++ Template.chars rest

end

/-- The pattern of a template. -/
def Template.print (template : Template) : String := String.ofList (Template.chars template)

end PathPattern
