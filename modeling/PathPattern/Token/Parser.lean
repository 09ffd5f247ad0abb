import PathPattern.Lexeme.Cursor
import PathPattern.Token.Basic

/-!
Reading a pattern into a template. The lexemes are fed one by one to a draft, which holds the tokens
read so far at every level of open groups.
-/
namespace PathPattern

/-- A template under construction. -/
structure Draft where
  /-- Literal characters after the last token. -/
  run : String
  /-- Tokens of the innermost open sequence. -/
  tokens : List Token
  /-- For every open group the tokens before it, the innermost group first. -/
  outer : List (List Token)

namespace Draft

/-- Groups nest at most this deep. -/
def maxDepth : Nat := 64

def empty : Draft := ⟨"", [], []⟩

/-- One more literal character. -/
def literal (d : Draft) (c : Char) : Draft := { d with run := d.run.push c }

/-- Turns the literal characters, if there are any, into one text as `encode` writes it. -/
def flush (encode : String → String) (d : Draft) : Draft :=
  if d.run.isEmpty then d
  else { d with run := "", tokens := d.tokens ++ [.text (encode d.run)] }

/-- What has to follow the tokens of the innermost sequence. -/
def expected (d : Draft) : Lexeme.Kind :=
  if d.outer.isEmpty then .finish else .mark .closeBrace

/-- The error at a lexeme that cannot stand where it does. -/
def refuse (d : Draft) (l : Lexeme.Located) : SyntaxError :=
  .unexpected l.lexeme.kind l.index d.expected

/-- Takes the next lexeme. -/
def feed (encode : String → String) (d : Draft) (l : Lexeme.Located) : Except SyntaxError Draft :=
  match l.lexeme with
  | .char c => .ok (d.literal c)
  | .escaped (some c) => .ok (d.literal c)
  | .capture key =>
    let d := d.flush encode
    .ok { d with tokens := d.tokens ++ [.capture key] }
  | .mark .openBrace =>
    let d := d.flush encode
    if maxDepth ≤ d.outer.length then .error (.tooDeep l.index)
    else .ok { d with tokens := [], outer := d.tokens :: d.outer }
  | .mark .closeBrace =>
    let d := d.flush encode
    match d.outer with
    | [] => .error (d.refuse l)
    | before :: outer => .ok { d with tokens := before ++ [.group d.tokens], outer := outer }
  | .finish => if d.outer.isEmpty then .ok (d.flush encode) else .error (d.refuse l)
  | .escaped none | .mark _ => .error (d.refuse l)

/-- Takes lexemes in order, up to the first error among them or of their own. -/
def feedAll (encode : String → String) :
    Draft → List (Except SyntaxError Lexeme.Located) → Except SyntaxError Draft
  | d, [] => .ok d
  | d, result :: results => do
    let l ← result
    let next ← d.feed encode l
    next.feedAll encode results

end Draft

/-- The template of a pattern, each text as `encode` writes it. -/
def Template.parse (encode : String → String) (pattern : String) :
    Except SyntaxError Template := do
  let d ← Draft.empty.feedAll encode (Cursor.ofPattern pattern).lexemes
  return d.tokens

end PathPattern
