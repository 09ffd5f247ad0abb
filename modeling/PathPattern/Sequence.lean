import PathPattern.Error
import PathPattern.Regex.Basic
import PathPattern.Text.Search
import PathPattern.Token.Alternative

/-!
The regular expression of one sequence of pieces.

A param takes characters up to the delimiter. When another capture comes before it in the sequence,
it also keeps clear of the text between the two, so that there is one place to cut; a text that
reaches past a delimiter settles the cut by itself. Two captures with no text between them are
refused.
-/
namespace PathPattern.Sequence

/-- One character that is none of these. -/
def oneBut (cs : List Char) : Regex := if cs.isEmpty then .any else .noneOf cs

/-- One character at which neither the delimiter nor the text begins; an empty one begins
nowhere. -/
def avoiding (delimiter text : List Char) : Regex :=
  if text.length < 2 then
    if delimiter.length < 2 then oneBut (delimiter ++ text)
    else .group (Regex.cat [.notAhead (Regex.literal delimiter), oneBut text])
  else if delimiter.length < 2 then
    .group (Regex.cat [.notAhead (Regex.literal text), oneBut delimiter])
  else
    .group (Regex.cat
      [.notAhead (Regex.oneOf [Regex.literal text, Regex.literal delimiter]), .any])

/-- Whether the first delimiter in the text has something before it. -/
def crosses (delimiter text : List Char) : Bool :=
  (Text.indexOf? delimiter text).any (0 < ·)

/-- The text that the next param has to keep clear of, after one more text. -/
def avoidNext (delimiter : List Char) (avoid : Option (List Char)) (text : List Char) :
    Option (List Char) :=
  avoid.bind fun before => if crosses delimiter text then none else some (before ++ text)

/-- What a capture takes. -/
def body (delimiter : List Char) (avoid : Option (List Char)) : Key.Kind → Regex
  | .param => Regex.cat [.plus (avoiding delimiter (avoid.getD []))]
  | .wildcard => Regex.cat [.plus .any]

/-- The expressions of the pieces, in order. Captures are numbered from `index` on, and `avoid` is
the text that the next param has to keep clear of, if there is one. -/
def items (delimiter : List Char) (index : Nat) (avoid : Option (List Char)) :
    List Piece → Except Error (List Regex)
  | [] => .ok []
  | .text value :: rest => do
    let more ← items delimiter index (avoidNext delimiter avoid value.toList) rest
    return value.toList.map .char ++ more
  | .capture key :: rest =>
    if avoid = some [] then .error (.missingText key.name)
    else do
      let more ← items delimiter (index + 1) (some []) rest
      return .capture index (body delimiter avoid key.kind) :: more

/-- The keys of the captures, in order. -/
def keys (pieces : List Piece) : List Key := pieces.filterMap Piece.key?

/-- The expressions of several sequences, whose captures are numbered through from `index` on. -/
def branches (delimiter : List Char) (index : Nat) :
    List (List Piece) → Except Error (List Regex)
  | [] => .ok []
  | pieces :: rest => do
    let es ← items delimiter index none pieces
    let more ← branches delimiter (index + (keys pieces).length) rest
    return Regex.cat es :: more

end PathPattern.Sequence
