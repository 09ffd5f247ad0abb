import PathPattern.Matcher
import PathPattern.Composer
import PathPattern.Token.Printer

/-!
A session: options, a template and what is made of them, changed step by step. A step that fails
changes nothing.
-/
namespace PathPattern

structure Session where
  options : Options := {}
  template : Template := []
  matcher : Option Matcher := none
  composer : Option Composer := none
  params : Params := Params.empty
  path : String := ""

namespace Session

inductive Step where
  | setOptions (options : Options)
  /-- Reads a pattern under the current options. -/
  | parse (pattern : String)
  /-- Reads a pattern under the default options. -/
  | parsePlain (pattern : String)
  | setTemplate (template : Template)
  | print
  /-- Reads the text of the template under the current options. -/
  | reparse
  | makeMatcher
  /-- Puts the codec and the delimiter of the current options on the matcher's route. -/
  | rewrap
  | makeComposer
  | setParams (params : Params)
  | unsetParams (names : List String)
  /-- Matches an input, by default the current path. -/
  | match (input : Option String)
  | compose

inductive Reply where
  | text (value : String)
  | flag (value : Bool)
  | template (result : Except Error Template)
  /-- Whether reading gave the same template. -/
  | same (result : Except Error Bool)
  | route (result : Except Error Route)
  | done
  | params (params : Params)
  | found (result : Except Error (Option Match))
  | path (result : Except Error String)

/-- Takes a template that was read, if reading succeeded. -/
def keepTemplate (s : Session) : Except Error Template → Session
  | .ok template => { s with template := template }
  | .error _ => s

/-- The session after a step, and the answer to it. -/
def step (s : Session) : Step → Session × Reply
  | .setOptions options => ({ s with options := options }, .text options.describe)
  | .parse pattern =>
    let result := s.options.parse pattern
    (s.keepTemplate result, .template result)
  | .parsePlain pattern =>
    let result := Options.parse {} pattern
    (s.keepTemplate result, .template result)
  | .setTemplate template => ({ s with template := template }, .text template.print)
  | .print => (s, .text s.template.print)
  | .reparse =>
    let result := s.options.parse s.template.print
    (s.keepTemplate result, .same (result.map fun template => decide (template = s.template)))
  | .makeMatcher =>
    match Route.synthesize s.options [s.template] with
    | .ok route => ({ s with matcher := some (.ofRoute s.options route) }, .route (.ok route))
    | .error e => (s, .route (.error e))
  | .rewrap =>
    match s.matcher with
    | some m => ({ s with matcher := some (.ofRoute s.options m.route) }, .flag true)
    | none => (s, .flag false)
  | .makeComposer => ({ s with composer := some (.ofTemplate s.options s.template) }, .done)
  | .setParams more =>
    let params := s.params.update more
    ({ s with params := params }, .params params)
  | .unsetParams names =>
    let params := s.params.without names
    ({ s with params := params }, .params params)
  | .match input =>
    match s.matcher with
    | none => (s, .text "no matcher")
    | some m =>
      let result := m.match? (input.getD s.path)
      match result with
      | .ok (some found) => ({ s with params := found.params }, .found result)
      | _ => (s, .found result)
  | .compose =>
    match s.composer with
    | none => (s, .text "no builder")
    | some c =>
      match c.compose s.params with
      | .ok path => ({ s with path := path }, .path (.ok path))
      | .error e => (s, .path (.error e))

/-- The answers to steps taken one after another. -/
def run : Session → List Step → List Reply
  | _, [] => []
  | s, step :: steps => (s.step step).2 :: run (s.step step).1 steps

end Session

end PathPattern
