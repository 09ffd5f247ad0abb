import Std.Data.ExtTreeMap

/-!
Parameters: values by name.
-/
namespace PathPattern

inductive Value where
  /-- What a param stands for. -/
  | single (value : String)
  /-- The segments that a wildcard stands for. -/
  | many (values : List String)
  deriving DecidableEq, Repr

abbrev Params := Std.ExtTreeMap String Value

namespace Params

def empty : Params := ∅

/-- The parameters with those of `more` put over them. -/
def update (params more : Params) : Params :=
  more.toList.foldl (fun acc entry => acc.insert entry.1 entry.2) params

/-- The parameters without these names. -/
def without (params : Params) (names : List String) : Params :=
  names.foldl (fun acc name => acc.erase name) params

end Params

end PathPattern
