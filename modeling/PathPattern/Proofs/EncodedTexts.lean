import PathPattern.Proofs.Reading

/-!
Reading a pattern with its texts encoded, set against reading it plainly. Whether there is a text at
all is settled before it is encoded, and what the encoding gives is never read again; so the two
readings go lexeme by lexeme through the same drafts, but for the values of the texts.
-/
namespace PathPattern

mutual

def Token.mapTexts (f : String → String) : Token → Token
  | .text value => .text (f value)
  | .capture key => .capture key
  | .group tokens => .group (Template.mapTexts f tokens)

/-- A template with every text rewritten, at every level. -/
def Template.mapTexts (f : String → String) : List Token → List Token
  | [] => []
  | token :: rest => token.mapTexts f :: Template.mapTexts f rest

end

namespace Template

variable (f g : String → String)

theorem mapTexts_eq_map (template : Template) :
    mapTexts f template = template.map (Token.mapTexts f) := by
  induction template with
  | nil => rfl
  | cons token rest ih => rw [mapTexts, List.map_cons, ih]

@[simp] theorem mapTexts_nil : mapTexts f [] = [] := rfl

@[simp] theorem mapTexts_append (a b : List Token) :
    mapTexts f (a ++ b) = mapTexts f a ++ mapTexts f b := by
  simp only [mapTexts_eq_map, List.map_append]

@[simp] theorem mapTexts_text (value : String) (rest : List Token) :
    mapTexts f (.text value :: rest) = .text (f value) :: mapTexts f rest := by
  rw [mapTexts, Token.mapTexts]

@[simp] theorem mapTexts_capture (key : Key) (rest : List Token) :
    mapTexts f (.capture key :: rest) = .capture key :: mapTexts f rest := by
  rw [mapTexts, Token.mapTexts]

@[simp] theorem mapTexts_group (tokens rest : List Token) :
    mapTexts f (.group tokens :: rest) = .group (mapTexts f tokens) :: mapTexts f rest := by
  rw [mapTexts, Token.mapTexts]

theorem mapTexts_mapTexts (template : Template) :
    mapTexts g (mapTexts f template) = mapTexts (g ∘ f) template := by
  induction template using Template.induction with
  | nil => rfl
  | text value rest ih => simp only [mapTexts_text, ih, Function.comp_apply]
  | capture key rest ih => simp only [mapTexts_capture, ih]
  | group tokens rest ihTokens ih => simp only [mapTexts_group, ihTokens, ih]

end Template

namespace Draft

/-- A draft with the texts of all its tokens rewritten. Characters that are no text yet stay. -/
def mapTexts (f : String → String) (d : Draft) : Draft :=
  ⟨d.run, Template.mapTexts f d.tokens, d.outer.map (Template.mapTexts f)⟩

variable (f encode : String → String) (d : Draft)

theorem settled_mapTexts :
    (d.mapTexts f).settled (f ∘ encode) = Template.mapTexts f (d.settled encode) := by
  unfold settled mapTexts
  rw [Template.mapTexts_append]
  split
  · rfl
  · rw [Template.mapTexts_text]
    rfl

theorem flush_mapTexts :
    (d.mapTexts f).flush (f ∘ encode) = (d.flush encode).mapTexts f := by
  rw [flush_eq, flush_eq, settled_mapTexts]
  rfl

theorem outer_mapTexts : (d.mapTexts f).outer = d.outer.map (Template.mapTexts f) := rfl

theorem refuse_mapTexts (l : Lexeme.Located) : (d.mapTexts f).refuse l = d.refuse l := by
  simp only [refuse, expected, outer_mapTexts, List.isEmpty_map]

/-- Each lexeme does the same to both drafts, and fails on both for the same reason. -/
theorem feed_mapTexts (l : Lexeme.Located) :
    (d.mapTexts f).feed (f ∘ encode) l = (d.feed encode l).map (mapTexts f) := by
  unfold feed
  -- in the order of the definition: two kinds of literal characters, a capture, the two braces, the
  -- end, and the two kinds of lexemes that stand nowhere
  split
  · rfl
  · rfl
  · rw [flush_mapTexts]
    simp only [Except.map, mapTexts, Template.mapTexts_append, Template.mapTexts_capture,
      Template.mapTexts_nil]
  · simp only [flush_mapTexts, outer_mapTexts, List.length_map]
    split
    · rfl
    · rfl
  · simp only [flush_mapTexts, outer_mapTexts, refuse_mapTexts]
    cases (d.flush encode).outer with
    | nil => rfl
    | cons before outer =>
        simp only [List.map_cons, Except.map, mapTexts, Template.mapTexts_append,
          Template.mapTexts_group, Template.mapTexts_nil]
  · simp only [flush_mapTexts, outer_mapTexts, List.isEmpty_map, refuse_mapTexts]
    split
    · rfl
    · rfl
  · rw [refuse_mapTexts]
    rfl
  · rw [refuse_mapTexts]
    rfl

theorem feedAll_mapTexts (results : List (Except SyntaxError Lexeme.Located)) :
    (d.mapTexts f).feedAll (f ∘ encode) results =
      (d.feedAll encode results).map (mapTexts f) := by
  induction results generalizing d with
  | nil => rfl
  | cons result results ih =>
      cases result with
      | error e => rfl
      | ok l =>
          simp only [feedAll, bind, Except.bind, feed_mapTexts]
          cases d.feed encode l with
          | error e => rfl
          | ok next => exact ih next

end Draft

theorem Template.parse_mapTexts (f encode : String → String) (pattern : String) :
    Template.parse (f ∘ encode) pattern = (Template.parse encode pattern).map (mapTexts f) := by
  have hfeed := Draft.feedAll_mapTexts f encode .empty (Cursor.ofPattern pattern).lexemes
  change Draft.feedAll (f ∘ encode) .empty _ = _ at hfeed
  simp only [Template.parse, bind, Except.bind, hfeed]
  cases Draft.empty.feedAll encode (Cursor.ofPattern pattern).lexemes with
  | error e => rfl
  | ok d => rfl

/-- An encoding rewrites the texts of what a pattern is read as, at every level, and nothing else:
with other values for its texts it is the same template, and what cannot be read fails in the same
way. -/
theorem parse_encodePath (o : Options) (f : String → String) (pattern : String) :
    ({ o with encodePath := some f } : Options).parse pattern =
      (({ o with encodePath := none } : Options).parse pattern).map (Template.mapTexts f) ∧
    (({ o with encodePath := some f } : Options).parse pattern).map
        (Template.mapTexts fun _ => "") =
      (({ o with encodePath := none } : Options).parse pattern).map
        (Template.mapTexts fun _ => "") := by
  have hparse : ({ o with encodePath := some f } : Options).parse pattern =
      (({ o with encodePath := none } : Options).parse pattern).map (Template.mapTexts f) := by
    change (Template.parse (f ∘ id) pattern).mapError Error.malformed =
      ((Template.parse id pattern).mapError Error.malformed).map (Template.mapTexts f)
    rw [Template.parse_mapTexts]
    cases Template.parse id pattern with
    | error e => rfl
    | ok template => rfl
  refine ⟨hparse, ?_⟩
  rw [hparse]
  cases ({ o with encodePath := none } : Options).parse pattern with
  | error e => rfl
  | ok template => exact congrArg Except.ok (Template.mapTexts_mapTexts f _ template)

example : (({ encodePath := some (· ++ ":x") } : Options).parse "/a\x7b\\*:b\x7d").toOption =
    some [.text "/a:x", .group [.text "*:x", .capture ⟨.param, "b"⟩]] := by
  decide +kernel

end PathPattern
