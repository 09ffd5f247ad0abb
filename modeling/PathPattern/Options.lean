import PathPattern.Error
import PathPattern.Text.Percent
import PathPattern.Text.Quoted

/-!
Options shared by reading, matching and composing.
-/
namespace PathPattern

/-- Undoes the percent encoding of a captured value. -/
def decodeComponent (value : String) : Except Error String :=
  (Text.Percent.decode value).mapError (Error.decode value)

structure Options where
  /-- Letter case matters. -/
  sensitive : Bool := false
  /-- A match has to reach the end of the input. -/
  toEnd : Bool := true
  /-- One more delimiter may end the input. -/
  trailing : Bool := true
  /-- What separates the segments of a path. -/
  delimiter : String := "/"
  /-- Applied to every text of a pattern that is read. -/
  encodePath : Option (String → String) := none
  /-- Applied to values when a path is composed. -/
  encode : Option (String → String) := some Text.Percent.encode
  /-- Applied to values that a match captures. -/
  decode : Option (String → Except Error String) := some decodeComponent

namespace Options

/-- Whether an optional function is there. -/
def status {α : Type} : Option α → String
  | some _ => "\"enabled\""
  | none => "\"disabled\""

/-- The options as one line of text. -/
def describe (o : Options) : String :=
  "Options \x7b sensitive: " ++ toString o.sensitive ++
    ", end: " ++ toString o.toEnd ++
    ", trailing: " ++ toString o.trailing ++
    ", delimiter: " ++ Text.Quoted.quote o.delimiter ++
    ", encode_path: " ++ status o.encodePath ++
    ", encode: " ++ status o.encode ++
    ", decode: " ++ status o.decode ++ " \x7d"

end Options

end PathPattern
