import PathPattern.Options
import PathPattern.Pattern
import PathPattern.Regex.Printer
import PathPattern.Regex.Search
import PathPattern.Sequence
import PathPattern.Text.CaseFold

/-!
Routes: one regular expression for one or more templates, with a key for every capture group.
-/
namespace PathPattern

structure Route where
  regex : Regex
  /-- Capture group `n + 1` belongs to key `n`. -/
  keys : List Key
  /-- Letter case matters. -/
  sensitive : Bool
  deriving DecidableEq, Repr

namespace Route

/-- What follows the alternatives: a delimiter that may end the input, then the end itself or a
place where a segment ends. -/
def ending (o : Options) : List Regex :=
  let delimiter := o.delimiter.toList
  (if o.trailing then [.opt (.group (Regex.cat (delimiter.map .char ++ [.finish])))] else []) ++
    [if o.toEnd then .finish
      else .ahead (Regex.oneOf [Regex.literal delimiter, Regex.cat [.finish]])]

/-- The whole expression around the alternatives. -/
def frame (o : Options) (branches : List Regex) : Regex :=
  Regex.cat ([.start, .group (Regex.oneOf branches)] ++ ending o)

/-- The length of the flag that a source carries when letter case does not matter. -/
def flagSize (o : Options) : Nat := if o.sensitive then 0 else 4

/-- The route that tries the alternatives of the templates in order. -/
def synthesize (o : Options) (templates : List Template) : Except Error Route := do
  let sequences := templates.flatMap Template.alternatives
  let branches ← Sequence.branches o.delimiter.toList 1 sequences
  let regex := frame o branches
  match regex.badRepeat? (flagSize o) with
  | some position => throw (.regex (.badRepeat position))
  | none => return ⟨regex, sequences.flatMap Sequence.keys, o.sensitive⟩

/-- The route of patterns, all of which are read first. -/
def ofPatterns (o : Options) (patterns : List Pattern) : Except Error Route := do
  let templates ← patterns.mapM (·.toTemplate o)
  synthesize o templates

/-- The source text of the expression. -/
def source (r : Route) : String := String.ofList r.regex.source

/-- Searches with lookahead are given up after this many retries. -/
def retryLimit : Nat := 1000000

/-- How the route matches an input, if it does. -/
def find (r : Route) (input : List Char) : Except Error (Option Regex.Hit) :=
  let fold := if r.sensitive then id else Text.CaseFold.fold
  let attempt := (r.regex.mapChars fold).search (input.map fold)
  if r.regex.looksAhead && retryLimit < attempt.retries then .error (.regex .backtrackLimit)
  else .ok attempt.hit

/-- The whole match and what every capture group took, in characters. -/
def spans (r : Route) (hit : Regex.Hit) : List (Option Regex.Span) :=
  some ⟨0, hit.stop⟩ :: (List.range r.keys.length).map fun n => hit.group? (n + 1)

end Route

/-- A part of the input in bytes. -/
def Regex.Span.inBytes (s : Regex.Span) (input : List Char) : Regex.Span :=
  ⟨Text.Utf8.size (input.take s.start), Text.Utf8.size (input.take s.stop)⟩

end PathPattern
