import PathPattern.Params
import PathPattern.Route

/-!
Matching an input against a route, and decoding what its groups captured.
-/
namespace PathPattern

/-- A successful match. -/
structure Match where
  /-- The part of the input that matched. -/
  path : String
  params : Params

structure Matcher where
  route : Route
  /-- What the segments of a wildcard are separated by. -/
  delimiter : String
  /-- Applied to every captured value; without it values stay as they are. -/
  decode : Option (String → Except Error String)

namespace Matcher

/-- Matches a ready route, with the codec and the delimiter of the options. -/
def ofRoute (o : Options) (route : Route) : Matcher := ⟨route, o.delimiter, o.decode⟩

/-- The matcher of patterns that are tried in order. -/
def ofPatterns (o : Options) (patterns : List Pattern) : Except Error Matcher :=
  (Route.ofPatterns o patterns).map (ofRoute o)

/-- The value of a captured text. With decoding, a wildcard is cut at the delimiter first. -/
def value (m : Matcher) (kind : Key.Kind) (captured : List Char) : Except Error Value :=
  match m.decode, kind with
  | none, _ => .ok (.single (String.ofList captured))
  | some decode, .param => return .single (← decode (String.ofList captured))
  | some decode, .wildcard => do
    let segments := Text.split m.delimiter.toList captured
    return .many (← segments.mapM fun segment => decode (String.ofList segment))

/-- Adds the values of the groups from `index` on, which belong to the keys. A group that took no
part is skipped, and of two groups of one name the later counts. -/
def collect (m : Matcher) (input : List Char) (hit : Regex.Hit) :
    Nat → List Key → Params → Except Error Params
  | _, [], params => .ok params
  | index, key :: keys, params =>
    match hit.group? index with
    | none => collect m input hit (index + 1) keys params
    | some span => do
      let value ← m.value key.kind (span.slice input)
      collect m input hit (index + 1) keys (params.insert key.name value)

/-- Matches an input. Errors of the search and of decoding are reported. -/
def match? (m : Matcher) (input : String) : Except Error (Option Match) := do
  let chars := input.toList
  match ← m.route.find chars with
  | none => return none
  | some hit =>
    let params ← m.collect chars hit 1 m.route.keys Params.empty
    return some ⟨String.ofList (chars.take hit.stop), params⟩

end Matcher

end PathPattern
