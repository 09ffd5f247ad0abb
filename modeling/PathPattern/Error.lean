import PathPattern.Lexeme.Basic
import PathPattern.Text.Utf8

/-!
What can go wrong, and the wording of each message.
-/
namespace PathPattern

/-- Why a text is no pattern. Places count characters. -/
inductive SyntaxError where
  /-- The quote at `index` is never closed. -/
  | unterminatedQuote (index : Nat)
  /-- A param or wildcard has no name where one is due at `index`. -/
  | missingName (index : Nat)
  /-- The lexeme at `index` cannot stand there. -/
  | unexpected (found : Lexeme.Kind) (index : Nat) (expected : Lexeme.Kind)
  /-- The group opened at `index` lies inside too many others. -/
  | tooDeep (index : Nat)
  deriving DecidableEq, Repr

def SyntaxError.message : SyntaxError → String
  | .unterminatedQuote index => s!"Unterminated quote at {index}"
  | .missingName index => s!"Missing parameter name at {index}"
  | .unexpected found index expected =>
    "Unexpected " ++ found.label ++ s!" at {index}, expected " ++ expected.label
  | .tooDeep index => s!"Groups nested too deeply at {index}"

/-- Why a regular expression cannot be used. -/
inductive RegexError where
  /-- The repetition at byte `position` of the source repeats nothing that takes a character. -/
  | badRepeat (position : Nat)
  /-- The search was given up after too many retries. -/
  | backtrackLimit
  deriving DecidableEq, Repr

def RegexError.message : RegexError → String
  | .badRepeat position =>
    s!"Parsing error at position {position}: Target of repeat operator is invalid"
  | .backtrackLimit => "Error executing regex: Max limit for backtracking count exceeded"

inductive Error where
  /-- The text of a pattern is malformed. -/
  | malformed (cause : SyntaxError)
  /-- The capture `name` follows another one with no text between them. -/
  | missingText (name : String)
  /-- Parameters that a path needs and that were not given. -/
  | missingParameters (names : List String)
  /-- The parameter `name` was given a value of the wrong shape. -/
  | invalidType (name expected : String)
  /-- The captured `value` does not decode to a text. -/
  | decode (value : String) (cause : Text.Utf8.Fault)
  | regex (cause : RegexError)
  deriving DecidableEq, Repr

namespace Error

/-- The page that explains malformed patterns. -/
def helpPage : String := "https://git.new/pathToRegexpError"

def message : Error → String
  | .malformed cause => cause.message ++ ": " ++ helpPage
  | .missingText name => "Missing text after \"" ++ name ++ "\": " ++ helpPage
  | .missingParameters names => "Missing parameters: " ++ ", ".intercalate names
  | .invalidType name expected => "Expected \"" ++ name ++ "\" to be " ++ expected
  | .decode value cause => cause.message ++ "\nparameter `" ++ value ++ "` is not a valid utf-8 string"
  | .regex cause => "regex error: " ++ cause.message

end Error

end PathPattern
