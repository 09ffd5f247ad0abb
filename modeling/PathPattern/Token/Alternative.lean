import PathPattern.Token.Basic

/-!
Alternatives of a template: the sequences that arise when every optional group is either kept or
left out.
-/
namespace PathPattern

/-- A unit of a sequence without groups. -/
inductive Piece where
  | text (value : String)
  | capture (key : Key)
  deriving DecidableEq, Repr

/-- The key that a piece captures under. -/
def Piece.key? : Piece → Option Key
  | .text _ => none
  | .capture key => some key

mutual

/-- Every way in which a token lengthens the sequence `before`. A group is first kept, then left
out. -/
def Token.extend (before : List Piece) : Token → List (List Piece)
  | .text value => [before ++ [.text value]]
  | .capture key => [before ++ [.capture key]]
  | .group tokens => Template.extend before tokens ++ [before]

/-- Every way in which the tokens lengthen the sequence `before`. -/
def Template.extend (before : List Piece) : List Token → List (List Piece)
  | [] => [before]
  | token :: rest => (token.extend before).flatMap fun longer => Template.extend longer rest

end

/-- The alternatives of a template, those that keep a group before those that leave it out. -/
def Template.alternatives (template : Template) : List (List Piece) := Template.extend [] template

end PathPattern
