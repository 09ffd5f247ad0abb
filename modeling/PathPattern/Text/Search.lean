/-!
Where a text occurs in another one, and how it cuts that one into parts.
-/
namespace PathPattern.Text

/-- The place of the first occurrence. The empty text occurs at the very start. -/
def indexOf? (needle : List Char) : List Char → Option Nat
  | [] => if needle.isEmpty then some 0 else none
  | c :: rest =>
    if needle.isPrefixOf (c :: rest) then some 0 else (indexOf? needle rest).map (· + 1)

/-- Puts a character in front of the first part. -/
def pushFirst (c : Char) : List (List Char) → List (List Char)
  | [] => [[c]]
  | part :: parts => (c :: part) :: parts

/-- The parts between the occurrences of a non-empty separator, which are taken from left to right
and do not overlap. The first `skip` characters belong to an occurrence already taken. -/
def splitFrom (separator : List Char) : Nat → List Char → List (List Char)
  | _, [] => [[]]
  | skip + 1, _ :: rest => splitFrom separator skip rest
  | 0, c :: rest =>
    if separator.isPrefixOf (c :: rest) then [] :: splitFrom separator (separator.length - 1) rest
    else pushFirst c (splitFrom separator 0 rest)

/-- The parts between the occurrences of the separator. The empty separator occurs before, between
and after the characters. -/
def split (separator text : List Char) : List (List Char) :=
  if separator.isEmpty then [] :: text.map (fun c => [c]) ++ [[]]
  else splitFrom separator 0 text

end PathPattern.Text
