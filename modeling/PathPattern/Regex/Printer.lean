import PathPattern.Regex.Basic
import PathPattern.Text.Utf8

/-!
The source text of a regular expression, and the check that every repetition in it repeats something
that can take a character.
-/
namespace PathPattern.Regex

/-- The characters that have a meaning of their own in a source. -/
def metaChars : List Char := "\\.+*?()|[]\x7b\x7d^$#&-~".toList

def escapeChar (c : Char) : List Char := if metaChars.contains c then ['\\', c] else [c]

/-- The source text. -/
def source : Regex → List Char
  | .empty => []
  | .char c => escapeChar c
  | .any => ['[', '\\', 's', '\\', 'S', ']']
  | .noneOf cs => ['[', '^'] ++ cs.flatMap escapeChar ++ [']']
  | .start => ['^']
  | .finish => ['$']
  | .seq a b => a.source ++ b.source
  | .alt a b => a.source ++ '|' :: b.source
  | .group e => ['(', '?', ':'] ++ e.source ++ [')']
  | .capture _ e => '(' :: e.source ++ [')']
  | .plus e => e.source ++ ['+']
  | .opt e => e.source ++ ['?']
  | .ahead e => ['(', '?', '='] ++ e.source ++ [')']
  | .notAhead e => ['(', '?', '!'] ++ e.source ++ [')']

/-- Whether the expression can take no character at all. -/
def isZeroWidth : Regex → Bool
  | .empty | .start | .finish | .ahead _ | .notAhead _ => true
  | .char _ | .any | .noneOf _ => false
  | .seq a b | .alt a b => a.isZeroWidth && b.isZeroWidth
  | .group e | .capture _ e | .plus e | .opt e => e.isZeroWidth

/-- The place of the first repetition of something that takes no character, in bytes, if the
expression stands at byte `offset`. -/
def badRepeat? (offset : Nat) : Regex → Option Nat
  | .empty | .char _ | .any | .noneOf _ | .start | .finish => none
  | .seq a b => (a.badRepeat? offset).or (b.badRepeat? (offset + Text.Utf8.size a.source))
  | .alt a b => (a.badRepeat? offset).or (b.badRepeat? (offset + Text.Utf8.size a.source + 1))
  | .group e | .ahead e | .notAhead e => e.badRepeat? (offset + 3)
  | .capture _ e => e.badRepeat? (offset + 1)
  | .plus e | .opt e =>
    (e.badRepeat? offset).or
      (if e.isZeroWidth then some (offset + Text.Utf8.size e.source) else none)

end PathPattern.Regex
