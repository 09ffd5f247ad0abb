import Mathlib.Data.List.Basic
import PathPattern.Composer
import PathPattern.Proofs.Alternatives

/-!
Composing settles every group by itself: it is kept if none of its own captures lacks a parameter.
What comes of this is the first of the alternatives, in the order in which a route tries them, that
has all its parameters.
-/
namespace PathPattern

/-- A capture of this kind can be given the value: a param takes one text, a wildcard some
segments. -/
def Value.Fills : Key.Kind → Value → Prop
  | .param, .single _ => True
  | .wildcard, .many values => values ≠ []
  | .param, .many _ | .wildcard, .single _ => False

instance : (kind : Key.Kind) → (value : Value) → Decidable (value.Fills kind)
  | .param, .single _ => isTrue trivial
  | .wildcard, .many values => inferInstanceAs (Decidable (values ≠ []))
  | .param, .many _ | .wildcard, .single _ => isFalse id

namespace Params

/-- No key is given a value of the wrong shape. -/
def Admits (params : Params) (keys : List Key) : Prop :=
  ∀ key ∈ keys, ∀ value ∈ params[key.name]?, value.Fills key.kind

instance (params : Params) (keys : List Key) : Decidable (params.Admits keys) :=
  inferInstanceAs (Decidable (∀ key ∈ keys, ∀ value ∈ params[key.name]?, value.Fills key.kind))

def supplies (params : Params) (pieces : List Piece) : Bool :=
  (Sequence.keys pieces).all fun key => params.contains key.name

theorem supplies_append (params : Params) (a b : List Piece) :
    params.supplies (a ++ b) = (params.supplies a && params.supplies b) := by
  rw [supplies, Sequence.keys_append, List.all_append]
  rfl

end Params

/-- The name that a token captures under, outside every group. -/
def Token.name? : Token → Option String
  | .capture key => some key.name
  | .text _ | .group _ => none

namespace Template

/-- The names outside groups for which there is no parameter. -/
def lacking (params : Params) (template : Template) : List String :=
  (template.filterMap Token.name?).filter fun name => !params.contains name

end Template

mutual

def Token.kept (params : Params) : Token → List Piece
  | .text value => [.text value]
  | .capture key => [.capture key]
  | .group tokens =>
    if (Template.lacking params tokens).isEmpty then Template.kept params tokens else []

/-- What is kept of a template when every group that lacks a parameter is left out. -/
def Template.kept (params : Params) : List Token → List Piece
  | [] => []
  | token :: rest => token.kept params ++ Template.kept params rest

end

namespace Template

theorem lacking_capture (params : Params) (key : Key) (rest : List Token) :
    lacking params (.capture key :: rest) =
      if params.contains key.name then lacking params rest
      else key.name :: lacking params rest := by
  unfold lacking
  rw [List.filterMap_cons, Token.name?, List.filter_cons]
  cases params.contains key.name <;> rfl

/-- The first good pair in an enumeration of pairs is made of the first good ones of each side. -/
theorem find?_flatMap_append {p : List Piece → Bool}
    (hp : ∀ a b, p (a ++ b) = (p a && p b)) (heads tails : List (List Piece)) :
    (heads.flatMap fun head => tails.map (head ++ ·)).find? p =
      (heads.find? p).bind fun head => (tails.find? p).map (head ++ ·) := by
  induction heads with
  | nil => rfl
  | cons head heads ih =>
      have hpair : (p ∘ fun tail => head ++ tail) = fun tail => p head && p tail := by
        funext tail
        exact hp head tail
      rw [List.flatMap_cons, List.find?_append, ih, List.find?_map, List.find?_cons, hpair]
      cases p head with
      | true =>
          simp only [Bool.true_and, Option.bind_some]
          cases tails.find? p with
          | none => cases heads.find? p <;> rfl
          | some tail => rfl
      | false =>
          have hnone : tails.find? (fun tail => false && p tail) = none := by
            apply List.find?_eq_none.mpr
            intro tail _
            exact Bool.false_ne_true
          rw [hnone]
          rfl

/-- Settling every group by itself gives the first alternative that has all its parameters. -/
theorem find?_supplies (params : Params) (template : Template) :
    (alternatives template).find? params.supplies =
      if (lacking params template).isEmpty then some (kept params template) else none := by
  induction template using Template.induction with
  | nil => rfl
  | text value rest ih =>
      have htext : (params.supplies ∘ fun pieces => .text value :: pieces) = params.supplies := rfl
      rw [alternatives_text, List.find?_map, htext, ih, apply_ite (Option.map _)]
      rfl
  | capture key rest ih =>
      have hcapture : (params.supplies ∘ fun pieces => .capture key :: pieces) =
          fun pieces => params.contains key.name && params.supplies pieces := rfl
      rw [alternatives_capture, List.find?_map, hcapture, lacking_capture]
      cases params.contains key.name with
      | true =>
          simp only [Bool.true_and, if_true]
          rw [ih, apply_ite (Option.map _)]
          rfl
      | false => simp
  | group tokens rest ihTokens ih =>
      rw [alternatives_group, List.find?_append, find?_flatMap_append params.supplies_append,
        ihTokens, ih]
      change _ = if (lacking params rest).isEmpty then _ else none
      rw [kept, Token.kept]
      cases (lacking params rest).isEmpty <;> cases (lacking params tokens).isEmpty <;> rfl

end Template

namespace Composer

/-- What a piece contributes: a text itself, a param its encoded value, and a wildcard its encoded
segments with the delimiter between them. -/
def rendering (c : Composer) (params : Params) : Piece → String
  | .text value => value
  | .capture key =>
    match params[key.name]? with
    | some (.single value) => c.encodeValue value
    | some (.many values) => c.delimiter.intercalate (values.map c.encodeValue)
    | none => ""

def render (c : Composer) (params : Params) (pieces : List Piece) : String :=
  String.join (pieces.map (c.rendering params))

variable {c : Composer} {params : Params}

theorem render_cons (piece : Piece) (pieces : List Piece) :
    c.render params (piece :: pieces) = c.rendering params piece ++ c.render params pieces := by
  rw [render, List.map_cons, String.join_cons]
  rfl

theorem render_append (a b : List Piece) :
    c.render params (a ++ b) = c.render params a ++ c.render params b := by
  rw [render, List.map_append, String.join_append]
  rfl

theorem capture_eq {key : Key}
    (h : ∀ value, params[key.name]? = some value → value.Fills key.kind) :
    c.capture params key =
      .ok ⟨c.rendering params (.capture key),
        if params.contains key.name then [] else [key.name]⟩ := by
  have hcontains : params.contains key.name = (params[key.name]?).isSome :=
    Std.ExtTreeMap.contains_eq_isSome_getElem?
  rw [hcontains]
  obtain ⟨kind, name⟩ := key
  unfold capture rendering
  dsimp only at h ⊢
  cases hvalue : params[name]? with
  | none => rfl
  | some value =>
      have hfills := h value hvalue
      cases kind with
      | param =>
          cases value with
          | single text => rfl
          | many values => exact hfills.elim
      | wildcard =>
          cases value with
          | single text => exact hfills.elim
          | many values =>
              obtain ⟨first, more, rfl⟩ := List.exists_cons_of_ne_nil hfills
              rfl

/-- Tokens contribute what is kept of them, and lack what they lack outside groups. -/
theorem tokens_eq {template : Template} (h : params.Admits (Template.keys template)) :
    c.tokens params template =
      .ok ⟨c.render params (Template.kept params template),
        Template.lacking params template⟩ := by
  induction template using Template.induction with
  | nil => rfl
  | text value rest ih =>
      rw [Template.keys_text] at h
      rw [tokens, token, ih h]
      change _ = Except.ok (Part.mk (c.render params (.text value :: Template.kept params rest)) _)
      rw [render_cons]
      rfl
  | capture key rest ih =>
      rw [Template.keys_capture] at h
      have hrest : params.Admits (Template.keys rest) := by
        intro other hother
        exact h other (List.mem_cons_of_mem key hother)
      rw [tokens, token, capture_eq (h key List.mem_cons_self), ih hrest]
      change _ = Except.ok (Part.mk (c.render params (.capture key :: Template.kept params rest)) _)
      rw [render_cons, Template.lacking_capture]
      cases params.contains key.name <;> rfl
  | group tokens rest ihTokens ih =>
      rw [Template.keys_group] at h
      have htokens : params.Admits (Template.keys tokens) := by
        intro key hkey
        exact h key (List.mem_append_left _ hkey)
      have hrest : params.Admits (Template.keys rest) := by
        intro key hkey
        exact h key (List.mem_append_right _ hkey)
      rw [Composer.tokens, token, ihTokens htokens, ih hrest, Template.kept, Token.kept,
        render_append]
      change Except.ok (Part.append (Part.optional ⟨_, Template.lacking params tokens⟩) _) = _
      cases Template.lacking params tokens with
      | nil => rfl
      | cons name names => rfl

theorem compose_eq (h : params.Admits (Template.keys c.template)) :
    c.compose params =
      if (Template.lacking params c.template).isEmpty then
        .ok (c.render params (Template.kept params c.template))
      else .error (.missingParameters (Template.lacking params c.template)) := by
  rw [compose, tokens_eq h]
  rfl

end Composer

/-- Unless a value has the wrong shape, a path is composed exactly if some alternative has all its
parameters, and then the path spells out the first one that does. -/
theorem compose_first_supplied (c : Composer) (params : Params)
    (h : params.Admits (Template.keys c.template)) :
    ((∃ path, c.compose params = .ok path) ↔
        ∃ pieces ∈ Template.alternatives c.template, params.supplies pieces) ∧
      ∀ path, c.compose params = .ok path →
        ∃ pieces, (Template.alternatives c.template).find? params.supplies = some pieces ∧
          path = c.render params pieces := by
  have hfind := Template.find?_supplies params c.template
  have hsome : (∃ pieces ∈ Template.alternatives c.template, params.supplies pieces) ↔
      (Template.lacking params c.template).isEmpty := by
    rw [← List.find?_isSome, hfind]
    cases (Template.lacking params c.template).isEmpty <;> simp
  rw [Composer.compose_eq h, hsome, hfind]
  cases (Template.lacking params c.template).isEmpty with
  | true =>
      constructor
      · exact ⟨fun _ => rfl, fun _ => ⟨_, rfl⟩⟩
      · intro path hpath
        cases hpath
        exact ⟨_, rfl, rfl⟩
  | false =>
      constructor
      · constructor
        · rintro ⟨path, hpath⟩
          cases hpath
        · intro hsupplied
          cases hsupplied
      · intro path hpath
        cases hpath

/-- The outer group is kept without the inner one, and a group of text alone is always kept. -/
theorem compose_first_supplied_nested :
    let c : Composer := ⟨[.group [.text "/", .capture ⟨.param, "a"⟩,
        .group [.text "-", .capture ⟨.param, "b"⟩]], .group [.text "/x"], .text "/",
        .capture ⟨.wildcard, "rest"⟩], "/", some Text.Percent.encode⟩
    let params : Params := (Params.empty.insert "a" (.single "1 2")).insert "rest"
      (.many ["y", "z"])
    params.Admits (Template.keys c.template) ∧ c.compose params = .ok "/1%202/x/y/z" ∧
      ∃ pieces, (Template.alternatives c.template).find? params.supplies = some pieces ∧
        "/1%202/x/y/z" = c.render params pieces := by
  intro c params
  have hadmits : params.Admits (Template.keys c.template) := by
    decide +kernel
  have hcompose : c.compose params = .ok "/1%202/x/y/z" := by
    decide +kernel
  exact ⟨hadmits, hcompose, (compose_first_supplied c params hadmits).2 _ hcompose⟩

end PathPattern
