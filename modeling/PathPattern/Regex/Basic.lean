/-!
Regular expressions, as far as paths need them: literal characters, classes, sequences, choices,
greedy repetition, capture groups, anchors and lookahead.
-/
namespace PathPattern

inductive Regex where
  /-- Matches everywhere and takes nothing. -/
  | empty
  | char (c : Char)
  /-- Any one character. -/
  | any
  /-- Any one character but these. -/
  | noneOf (cs : List Char)
  /-- The very start of the input. -/
  | start
  /-- The very end of the input. -/
  | finish
  | seq (a b : Regex)
  /-- The first alternative is preferred. -/
  | alt (a b : Regex)
  /-- Parentheses that only hold their content together. -/
  | group (e : Regex)
  /-- Parentheses that remember what their content matched. Groups count from one. -/
  | capture (index : Nat) (e : Regex)
  /-- Once or more often, preferring more. -/
  | plus (e : Regex)
  /-- Once or not at all, preferring once. -/
  | opt (e : Regex)
  /-- Succeeds where the content would match, and takes nothing. -/
  | ahead (e : Regex)
  /-- Succeeds where the content would not match, and takes nothing. -/
  | notAhead (e : Regex)
  deriving DecidableEq, Repr

namespace Regex

/-- The expressions one after another. -/
def cat : List Regex → Regex
  | [] => .empty
  | e :: es => .seq e (cat es)

/-- A choice between the expressions, in order of preference. -/
def oneOf : List Regex → Regex
  | [] => .empty
  | [e] => e
  | e :: es => .alt e (oneOf es)

theorem oneOf_cons_cons (e next : Regex) (es : List Regex) :
    oneOf (e :: next :: es) = .alt e (oneOf (next :: es)) := rfl

/-- The characters of a text one after another. -/
def literal (cs : List Char) : Regex := cat (cs.map .char)

/-- Whether the expression looks ahead anywhere. -/
def looksAhead : Regex → Bool
  | .ahead _ | .notAhead _ => true
  | .seq a b | .alt a b => a.looksAhead || b.looksAhead
  | .group e | .capture _ e | .plus e | .opt e => e.looksAhead
  | .empty | .char _ | .any | .noneOf _ | .start | .finish => false

/-- Replaces every literal character, in classes too. -/
def mapChars (f : Char → Char) : Regex → Regex
  | .empty => .empty
  | .char c => .char (f c)
  | .any => .any
  | .noneOf cs => .noneOf (cs.map f)
  | .start => .start
  | .finish => .finish
  | .seq a b => .seq (a.mapChars f) (b.mapChars f)
  | .alt a b => .alt (a.mapChars f) (b.mapChars f)
  | .group e => .group (e.mapChars f)
  | .capture i e => .capture i (e.mapChars f)
  | .plus e => .plus (e.mapChars f)
  | .opt e => .opt (e.mapChars f)
  | .ahead e => .ahead (e.mapChars f)
  | .notAhead e => .notAhead (e.mapChars f)

end Regex

end PathPattern
