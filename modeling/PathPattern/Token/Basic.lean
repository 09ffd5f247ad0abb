import PathPattern.Key

/-!
Templates: the trees that patterns stand for.
-/
namespace PathPattern

/-- One unit of a template. -/
inductive Token where
  /-- Literal text. -/
  | text (value : String)
  /-- A named capture. -/
  | capture (key : Key)
  /-- Tokens that may be left out together. -/
  | group (tokens : List Token)
  deriving Repr

/-- A parsed pattern. -/
abbrev Template := List Token

mutual

/-- Equality of tokens, decided level by level. -/
def Token.decEq : (a b : Token) → Decidable (a = b)
  | .text s, .text t =>
    if h : s = t then isTrue (by rw [h]) else isFalse (fun e => h (Token.text.inj e))
  | .capture j, .capture k =>
    if h : j = k then isTrue (by rw [h]) else isFalse (fun e => h (Token.capture.inj e))
  | .group ts, .group us =>
    match Template.decEq ts us with
    | isTrue h => isTrue (by rw [h])
    | isFalse h => isFalse (fun e => h (Token.group.inj e))
  | .text _, .capture _ | .text _, .group _ | .capture _, .text _ | .capture _, .group _
  | .group _, .text _ | .group _, .capture _ => isFalse (fun e => nomatch e)

/-- Equality of templates. -/
def Template.decEq : (ts us : List Token) → Decidable (ts = us)
  | [], [] => isTrue rfl
  | [], _ :: _ | _ :: _, [] => isFalse (fun e => nomatch e)
  | t :: ts, u :: us =>
    match Token.decEq t u with
    | isFalse h => isFalse (fun e => h (List.cons.inj e).1)
    | isTrue h =>
      match Template.decEq ts us with
      | isFalse h' => isFalse (fun e => h' (List.cons.inj e).2)
      | isTrue h' => isTrue (by rw [h, h'])

end

instance : DecidableEq Token := Token.decEq

end PathPattern
