import PathPattern.Matcher
import PathPattern.Token.Printer

/-!
What synthesis and matching report while they work.
-/
namespace PathPattern.Log

inductive Level where
  | trace
  | debug
  | error
  deriving DecidableEq, Repr

def Level.label : Level → String
  | .trace => "TRACE"
  | .debug => "DEBUG"
  | .error => "ERROR"

structure Record where
  level : Level
  text : String
  deriving DecidableEq, Repr

/-- A template is about to be turned into expressions. -/
def expansion (template : Template) : Record :=
  ⟨.trace, "expand `" ++ template.print ++ "` into " ++
    toString template.alternatives.length ++ " alternatives"⟩

/-- A route is complete. -/
def completion (route : Route) : Record :=
  ⟨.debug, "synthesize regex `" ++ route.source ++ "` with " ++
    toString route.keys.length ++ " keys"⟩

/-- An input could not be matched because of an error. -/
def failure (route : Route) (input : String) (e : Error) : Record :=
  ⟨.error, "fail to match `" ++ input ++ "` against `" ++ route.source ++ "`: " ++ e.message⟩

/-- The templates whose synthesis is begun: all up to the first that has two captures with no text
between them. -/
def begun (o : Options) : List Template → List Template
  | [] => []
  | t :: ts =>
    match Sequence.branches o.delimiter.toList 1 t.alternatives with
    | .ok _ => t :: begun o ts
    | .error _ => [t]

/-- The records of a synthesis. -/
def synthesis (o : Options) (templates : List Template) : List Record :=
  (begun o templates).map expansion ++
    match Route.synthesize o templates with
    | .ok route => [completion route]
    | .error _ => []

/-- Matches an input. An error is put on record and counts as no match. -/
def matching (m : Matcher) (input : String) : Option Match × List Record :=
  match m.match? input with
  | .ok found => (found, [])
  | .error e => (none, [failure m.route input e])

/-- Reads patterns, makes a matcher and matches inputs, with all records on the way. -/
def run (o : Options) (patterns : List Pattern) (inputs : List String) :
    Except Error (List (Option Match)) × List Record :=
  match patterns.mapM (·.toTemplate o) with
  | .error e => (.error e, [])
  | .ok templates =>
    match Route.synthesize o templates with
    | .error e => (.error e, synthesis o templates)
    | .ok route =>
      let results := inputs.map (matching (Matcher.ofRoute o route))
      (.ok (results.map Prod.fst), synthesis o templates ++ results.flatMap Prod.snd)

end PathPattern.Log
