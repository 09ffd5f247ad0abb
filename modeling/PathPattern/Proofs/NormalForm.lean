import PathPattern.Token.Basic

/-!
Normal forms of templates. A pattern cannot say that a text is empty, nor where one text ends and
the next begins, so what it stands for is a template without empty and adjacent texts.
-/
namespace PathPattern

/-- Induction on a template level by level: a group has both its content and what follows it. -/
@[elab_as_elim]
theorem Template.induction {motive : List Token → Prop} (nil : motive [])
    (text : ∀ value rest, motive rest → motive (.text value :: rest))
    (capture : ∀ key rest, motive rest → motive (.capture key :: rest))
    (group : ∀ tokens rest, motive tokens → motive rest → motive (.group tokens :: rest)) :
    ∀ template, motive template
  | [] => nil
  | .text value :: rest => text value rest (induction nil text capture group rest)
  | .capture key :: rest => capture key rest (induction nil text capture group rest)
  | .group tokens :: rest =>
    group tokens rest (induction nil text capture group tokens)
      (induction nil text capture group rest)

def Token.isText : Token → Bool
  | .text _ => true
  | .capture _ | .group _ => false

def Token.isEmptyText : Token → Bool
  | .text value => value.isEmpty
  | .capture _ | .group _ => false

mutual

/-- A token without the empty texts inside it. -/
def Token.withoutEmpty : Token → Token
  | .text value => .text value
  | .capture key => .capture key
  | .group tokens => .group (Template.withoutEmpty tokens)

/-- A template without its empty texts, at every level. -/
def Template.withoutEmpty : List Token → List Token
  | [] => []
  | token :: rest =>
    if token.isEmptyText then Template.withoutEmpty rest
    else token.withoutEmpty :: Template.withoutEmpty rest

end

/-- Literal text in front of a template. An empty text is left out, and a text right after it
becomes one with it. -/
def Template.prependText (value : String) (template : Template) : Template :=
  if value.isEmpty then template
  else
    match template with
    | .text next :: rest => .text (value ++ next) :: rest
    | _ => .text value :: template

mutual

/-- A token, in normal form, in front of a template that is in normal form already. -/
def Token.prepend (rest : List Token) : Token → List Token
  | .text value => Template.prependText value rest
  | .capture key => .capture key :: rest
  | .group tokens => .group (Template.normal tokens) :: rest

/-- At every level, empty texts are left out and adjacent ones become one. -/
def Template.normal : List Token → List Token
  | [] => []
  | token :: rest => token.prepend (Template.normal rest)

end

namespace Template

@[simp] theorem normal_text (value : String) (rest : List Token) :
    normal (.text value :: rest) = prependText value (normal rest) := by
  simp only [normal, Token.prepend]

@[simp] theorem normal_capture (key : Key) (rest : List Token) :
    normal (.capture key :: rest) = .capture key :: normal rest := by
  simp only [normal, Token.prepend]

@[simp] theorem normal_group (tokens rest : List Token) :
    normal (.group tokens :: rest) = .group (normal tokens) :: normal rest := by
  simp only [normal, Token.prepend]

@[simp] theorem prependText_empty (template : Template) : prependText "" template = template := rfl

theorem prependText_prependText (a b : String) (template : Template) :
    prependText a (prependText b template) = prependText (a ++ b) template := by
  by_cases ha : a = ""
  · subst ha
    rw [prependText_empty, String.empty_append]
  by_cases hb : b = ""
  · subst hb
    rw [prependText_empty, String.append_empty]
  have hab : a ++ b ≠ "" := fun h => ha (String.append_eq_empty_iff.mp h).1
  unfold prependText
  simp only [String.isEmpty_iff, ha, hb, hab, if_false]
  cases template with
  | nil => rfl
  | cons token rest =>
      cases token with
      | text next => simp only [String.append_assoc]
      | capture key => rfl
      | group tokens => rfl

theorem prependText_append {rest : List Token} (value : String)
    (h : rest.head?.any Token.isText = false) :
    prependText value rest = prependText value [] ++ rest := by
  unfold prependText
  split
  · rfl
  · cases rest with
    | nil => rfl
    | cons token rest =>
        cases token with
        | text next => simp [Token.isText] at h
        | capture key => rfl
        | group tokens => rfl

end Template

end PathPattern
