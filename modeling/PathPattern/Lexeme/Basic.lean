import PathPattern.Key

/-!
Lexemes: the units in which a pattern is read.
-/
namespace PathPattern

/-- A reserved character, which is a lexeme by itself. -/
inductive Mark where
  | openBrace
  | closeBrace
  | openParen
  | closeParen
  | openBracket
  | closeBracket
  | plus
  | question
  | bang
  deriving DecidableEq, Repr

namespace Mark

def toChar : Mark → Char
  | openBrace => '\x7b'
  | closeBrace => '\x7d'
  | openParen => '('
  | closeParen => ')'
  | openBracket => '['
  | closeBracket => ']'
  | plus => '+'
  | question => '?'
  | bang => '!'

/-- The mark that a character is. -/
def ofChar? (c : Char) : Option Mark :=
  if c = '\x7b' then some openBrace
  else if c = '\x7d' then some closeBrace
  else if c = '(' then some openParen
  else if c = ')' then some closeParen
  else if c = '[' then some openBracket
  else if c = ']' then some closeBracket
  else if c = '+' then some plus
  else if c = '?' then some question
  else if c = '!' then some bang
  else none

theorem ofChar?_toChar (m : Mark) : ofChar? m.toChar = some m := by
  cases m <;> rfl

end Mark

inductive Lexeme where
  /-- A character that stands for itself. -/
  | char (c : Char)
  /-- A backslash with the character it protects, which is missing at the end of the pattern. -/
  | escaped (c : Option Char)
  /-- A named capture, its name without quotes and escapes. -/
  | capture (key : Key)
  | mark (m : Mark)
  /-- The end of the pattern. -/
  | finish
  deriving DecidableEq, Repr

namespace Lexeme

/-- What diagnostics call a lexeme. -/
inductive Kind where
  | char
  | escaped
  | capture (kind : Key.Kind)
  | mark (m : Mark)
  | finish
  deriving DecidableEq, Repr

def Kind.label : Kind → String
  | .char => "CHAR"
  | .escaped => "ESCAPED"
  | .capture .param => "PARAM"
  | .capture .wildcard => "WILDCARD"
  | .mark m => m.toChar.toString
  | .finish => "END"

def kind : Lexeme → Kind
  | .char _ => .char
  | .escaped _ => .escaped
  | .capture key => .capture key.kind
  | .mark m => .mark m
  | .finish => .finish

/-- The text that a lexeme carries. -/
def value : Lexeme → String
  | .char c => c.toString
  | .escaped c => (c.map Char.toString).getD ""
  | .capture key => key.name
  | .mark m => m.toChar.toString
  | .finish => ""

/-- A lexeme and the number of characters before it. -/
structure Located where
  index : Nat
  lexeme : Lexeme
  deriving DecidableEq, Repr

end Lexeme

end PathPattern
