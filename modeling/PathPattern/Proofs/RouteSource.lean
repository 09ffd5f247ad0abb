import Mathlib.Data.List.Basic
import PathPattern.Proofs.RegexReader
import PathPattern.Proofs.Synthesis

/-!
The source of a route means what was intended, whatever characters its texts, its names and its
delimiter hold: read by the grammar of expressions it is the route's own expression, with one branch
for each sequence and one capture group for each key.
-/
namespace PathPattern

/-- The capture groups in the order of the source, with their numbers and contents. -/
def Regex.groups : Regex → List (Nat × Regex)
  | .capture index e => (index, e) :: e.groups
  | .seq a b | .alt a b => a.groups ++ b.groups
  | .group e | .plus e | .opt e | .ahead e | .notAhead e => e.groups
  | .empty | .char _ | .any | .noneOf _ | .start | .finish => []

namespace Sequence

/-- The expressions spell the pieces: a text by its characters, and a capture by a group that holds
no other group. Groups are numbered from `index` on and listed with the keys of their captures.
Only a wildcard takes any characters at all, or the first capture if there is no delimiter. -/
inductive Spells (delimiter : List Char) :
    (first : Bool) → (index : Nat) → List Piece → List Regex → List (Key × Regex) → Prop
  | nil {first index} : Spells delimiter first index [] [] []
  | text {first index value rest es groups} : Spells delimiter first index rest es groups →
      Spells delimiter first index (.text value :: rest) (value.toList.map .char ++ es) groups
  | capture {first index key body rest es groups} : body.groups = [] →
      (body = Regex.cat [.plus .any] ↔
        key.kind = .wildcard ∨ first = true ∧ delimiter = []) →
      Spells delimiter false (index + 1) rest es groups →
      Spells delimiter first index (.capture key :: rest) (.capture index body :: es)
        ((key, body) :: groups)

/-- The branches spell the sequences one by one, and their groups are numbered through. -/
inductive SpellsEach (delimiter : List Char) :
    (index : Nat) → List (List Piece) → List Regex → List (Key × Regex) → Prop
  | nil {index} : SpellsEach delimiter index [] [] []
  | cons {index pieces es groups rest bs more} : Spells delimiter true index pieces es groups →
      SpellsEach delimiter (index + groups.length) rest bs more →
      SpellsEach delimiter index (pieces :: rest) (Regex.cat es :: bs) (groups ++ more)

end Sequence

namespace Regex

theorem groups_cat (es : List Regex) : (cat es).groups = es.flatMap groups := by
  induction es with
  | nil => rfl
  | cons e es ih => rw [cat, groups, ih, List.flatMap_cons]

theorem groups_oneOf (es : List Regex) : (oneOf es).groups = es.flatMap groups := by
  induction es with
  | nil => rfl
  | cons e es ih =>
      cases es with
      | nil => simp [oneOf]
      | cons next es =>
          rw [oneOf_cons_cons, groups, ih]
          rfl

theorem groups_chars (cs : List Char) : (cs.map char).flatMap groups = [] := by
  induction cs with
  | nil => rfl
  | cons c cs ih => exact ih

theorem groups_literal (cs : List Char) : (literal cs).groups = [] := by
  rw [literal, groups_cat, groups_chars]

end Regex

namespace Sequence

open Regex

theorem Spells.keys_eq {delimiter : List Char} {first : Bool} {index : Nat} {pieces : List Piece}
    {es : List Regex} {groups : List (Key × Regex)}
    (h : Spells delimiter first index pieces es groups) : groups.map Prod.fst = keys pieces := by
  induction h with
  | nil => rfl
  | text _ ih => exact ih
  | @capture first index key body rest es groups _ _ _ ih =>
      change key :: groups.map Prod.fst = key :: keys rest
      rw [ih]

theorem Spells.groups_eq {delimiter : List Char} {first : Bool} {index : Nat}
    {pieces : List Piece} {es : List Regex} {groups : List (Key × Regex)}
    (h : Spells delimiter first index pieces es groups) :
    es.flatMap Regex.groups = (groups.zipIdx index).map fun g => (g.2, g.1.2) := by
  induction h with
  | nil => rfl
  | text _ ih => rw [List.flatMap_append, groups_chars, List.nil_append, ih]
  | capture hinner _ _ ih =>
      rw [List.flatMap_cons, Regex.groups, hinner, ih]
      rfl

theorem SpellsEach.keys_eq {delimiter : List Char} {index : Nat} {sequences : List (List Piece)}
    {bs : List Regex} {groups : List (Key × Regex)}
    (h : SpellsEach delimiter index sequences bs groups) :
    groups.map Prod.fst = sequences.flatMap keys := by
  induction h with
  | nil => rfl
  | cons hpieces _ ih => rw [List.map_append, hpieces.keys_eq, ih, List.flatMap_cons]

theorem SpellsEach.groups_eq {delimiter : List Char} {index : Nat}
    {sequences : List (List Piece)} {bs : List Regex} {groups : List (Key × Regex)}
    (h : SpellsEach delimiter index sequences bs groups) :
    bs.flatMap Regex.groups = (groups.zipIdx index).map fun g => (g.2, g.1.2) := by
  induction h with
  | nil => rfl
  | cons hpieces _ ih =>
      rw [List.flatMap_cons, groups_cat, hpieces.groups_eq, ih, List.zipIdx_append, List.map_append]

theorem oneBut_eq_any {cs : List Char} : oneBut cs = .any ↔ cs = [] := by
  cases cs <;> simp [oneBut]

theorem avoiding_eq_any {delimiter text : List Char} :
    avoiding delimiter text = .any ↔ delimiter = [] ∧ text = [] := by
  rcases avoiding_shape delimiter text with h | ⟨refused, cs, hne, h⟩
  · rw [h, oneBut_eq_any, List.append_eq_nil_iff]
  · rw [h]
    constructor
    · intro heq
      cases heq
    · intro hnil
      exact absurd hnil hne

theorem body_eq_any {delimiter : List Char} {avoid : Option (List Char)} {kind : Key.Kind} :
    body delimiter avoid kind = cat [.plus .any] ↔
      kind = .wildcard ∨ delimiter = [] ∧ avoid.getD [] = [] := by
  cases kind with
  | param =>
      rw [body, ← avoiding_eq_any]
      simp [cat]
  | wildcard => simp [body]

theorem groups_oneBut (cs : List Char) : (oneBut cs).groups = [] := by
  cases cs <;> rfl

theorem groups_avoiding (delimiter text : List Char) : (avoiding delimiter text).groups = [] := by
  rcases avoiding_shape delimiter text with h | ⟨refused, cs, -, h⟩
  · rw [h, groups_oneBut]
  · have hrefused : (refused.map literal).flatMap Regex.groups = [] := by
      rw [List.flatMap_map, List.flatMap_eq_nil_iff]
      intro text _
      exact groups_literal text
    rw [h, Regex.groups, groups_cat, List.flatMap_cons, List.flatMap_singleton, Regex.groups,
      groups_oneOf, hrefused, groups_oneBut, List.append_nil]

theorem groups_body (delimiter : List Char) (avoid : Option (List Char)) (kind : Key.Kind) :
    (body delimiter avoid kind).groups = [] := by
  cases kind with
  | param => rw [body, groups_cat, List.flatMap_singleton, Regex.groups, groups_avoiding]
  | wildcard => rfl

theorem reads_oneBut (n : Nat) (cs : List Char) : Reads n (oneBut cs) n := by
  cases cs with
  | nil => exact reads_any n
  | cons c cs => exact reads_noneOf n (List.cons_ne_nil c cs)

theorem readsInside_literals (n : Nat) (texts : List (List Char)) :
    ReadsInside n (oneOf (texts.map literal)) n := by
  have heach : ReadsEach n (texts.map fun text => text.map .char) n := by
    induction texts with
    | nil => exact .nil
    | cons text texts ih => exact .cons (readsAll_literal n text) ih
  have h := heach.inside
  rw [List.map_map] at h
  exact h

theorem reads_avoiding (n : Nat) (delimiter text : List Char) :
    Reads n (avoiding delimiter text) n := by
  rcases avoiding_shape delimiter text with h | ⟨refused, cs, -, h⟩
  · rw [h]
    exact reads_oneBut n _
  · rw [h]
    have hguard : Reads n (.notAhead (oneOf (refused.map literal))) n :=
      (readsInside_literals n refused).notAhead
    exact (ReadsAll.cons hguard (.cons (reads_oneBut n cs) (.nil n))).inside.group

theorem isRepetition_avoiding (delimiter text : List Char) :
    (avoiding delimiter text).isRepetition = false := by
  rcases avoiding_shape delimiter text with h | ⟨refused, cs, -, h⟩
  · rw [h]
    cases delimiter ++ text <;> rfl
  · rw [h]
    rfl

theorem readsInside_body (n : Nat) (delimiter : List Char) (avoid : Option (List Char))
    (kind : Key.Kind) : ReadsInside n (body delimiter avoid kind) n := by
  have hplus : ∀ e : Regex, Reads n e n → e.isRepetition = false →
      ReadsInside n (cat [.plus e]) n := by
    intro e he hrepetition
    exact (ReadsAll.cons (he.plus hrepetition) (.nil n)).inside
  cases kind with
  | param => exact hplus _ (reads_avoiding n _ _) (isRepetition_avoiding _ _)
  | wildcard => exact hplus _ (reads_any n) rfl

theorem head?_source_body (delimiter : List Char) (avoid : Option (List Char)) (kind : Key.Kind) :
    (body delimiter avoid kind).source.head? ≠ some '?' := by
  have hany : ∀ cs, (oneBut cs).source.head? = some '[' := by
    intro cs
    cases cs <;> rfl
  cases kind with
  | param =>
      have hhead : (avoiding delimiter (avoid.getD [])).source.head? = some '[' ∨
          (avoiding delimiter (avoid.getD [])).source.head? = some '(' := by
        rcases avoiding_shape delimiter (avoid.getD []) with h | ⟨refused, cs, -, h⟩
        · exact .inl (h ▸ hany _)
        · rw [h]
          exact .inr rfl
      rcases hhead with hhead | hhead <;> simp [body, cat, source, List.head?_append, hhead]
  | wildcard => simp [body, cat, source]

theorem items_reads {delimiter : List Char} {pieces : List Piece} {index : Nat}
    {avoid : Option (List Char)} {es : List Regex}
    (h : items delimiter index avoid pieces = .ok es) :
    ReadsAll index es (index + (keys pieces).length) := by
  induction pieces generalizing index avoid es with
  | nil =>
      cases h
      exact .nil index
  | cons piece rest ih =>
      cases piece with
      | text value =>
          obtain ⟨more, hmore, rfl⟩ := items_text_eq_ok.mp h
          exact (ih hmore).chars value.toList
      | capture key =>
          obtain ⟨-, more, hmore, rfl⟩ := items_capture_eq_ok.mp h
          have hbody := readsInside_body (index + 1) delimiter avoid key.kind
          have hrest := ih hmore
          have hcount : index + (keys (.capture key :: rest)).length =
              index + 1 + (keys rest).length := by
            change index + ((keys rest).length + 1) = _
            omega
          rw [hcount]
          exact .cons (hbody.capture (head?_source_body delimiter avoid key.kind)) hrest

theorem branches_reads {delimiter : List Char} {sequences : List (List Piece)} {index : Nat}
    {bs : List Regex} (h : branches delimiter index sequences = .ok bs) :
    ∃ ess, bs = ess.map cat ∧ ReadsEach index ess (index + (sequences.flatMap keys).length) := by
  induction sequences generalizing index bs with
  | nil =>
      cases h
      exact ⟨[], rfl, .nil⟩
  | cons pieces rest ih =>
      obtain ⟨es, more, hes, hmore, rfl⟩ := branches_cons_eq_ok.mp h
      obtain ⟨ess, rfl, hess⟩ := ih hmore
      refine ⟨es :: ess, rfl, .cons (items_reads hes) ?_⟩
      rwa [List.flatMap_cons, List.length_append, ← Nat.add_assoc]

theorem crosses_nil (text : List Char) : crosses [] text = false := by
  cases text <;> rfl

/-- At the first capture nothing is to be avoided. Later, without a delimiter, something is. -/
theorem items_spells {delimiter : List Char} {pieces : List Piece} {first : Bool} {index : Nat}
    {avoid : Option (List Char)} {es : List Regex} (hfirst : first = true → avoid = none)
    (hlater : first = false → delimiter = [] → avoid ≠ none)
    (h : items delimiter index avoid pieces = .ok es) :
    ∃ groups, Spells delimiter first index pieces es groups := by
  induction pieces generalizing first index avoid es with
  | nil =>
      cases h
      exact ⟨[], .nil⟩
  | cons piece rest ih =>
      cases piece with
      | text value =>
          obtain ⟨more, hmore, rfl⟩ := items_text_eq_ok.mp h
          have hnext : first = true →
              avoidNext delimiter avoid value.toList = none := by
            intro hf
            rw [hfirst hf]
            rfl
          have hnextLater : first = false → delimiter = [] →
              avoidNext delimiter avoid value.toList ≠ none := by
            rintro hf rfl
            obtain ⟨text, htext⟩ := Option.ne_none_iff_exists.mp (hlater hf rfl)
            rw [← htext]
            simp [avoidNext, crosses_nil]
          obtain ⟨groups, hgroups⟩ := ih hnext hnextLater hmore
          exact ⟨groups, .text hgroups⟩
      | capture key =>
          obtain ⟨havoid, more, hmore, rfl⟩ := items_capture_eq_ok.mp h
          have hnext : false = true → some ([] : List Char) = none := fun hf => nomatch hf
          obtain ⟨groups, hgroups⟩ := ih hnext (fun _ _ => Option.some_ne_none []) hmore
          refine ⟨_, .capture (groups_body delimiter avoid key.kind) ?_ hgroups⟩
          rw [body_eq_any]
          refine or_congr_right ?_
          constructor
          · rintro ⟨hdelimiter, hnil⟩
            refine ⟨?_, hdelimiter⟩
            cases first with
            | true => rfl
            | false =>
                obtain ⟨text, rfl⟩ := Option.ne_none_iff_exists'.mp (hlater rfl hdelimiter)
                exact absurd (congrArg some hnil) havoid
          · rintro ⟨hf, hdelimiter⟩
            rw [hfirst hf]
            exact ⟨hdelimiter, rfl⟩

theorem branches_spells {delimiter : List Char} {sequences : List (List Piece)} {index : Nat}
    {bs : List Regex} (h : branches delimiter index sequences = .ok bs) :
    ∃ groups, SpellsEach delimiter index sequences bs groups := by
  induction sequences generalizing index bs with
  | nil =>
      cases h
      exact ⟨[], .nil⟩
  | cons pieces rest ih =>
      obtain ⟨es, more, hes, hmore, rfl⟩ := branches_cons_eq_ok.mp h
      have hlater : true = false → delimiter = [] → (none : Option (List Char)) ≠ none :=
        fun hf => nomatch hf
      obtain ⟨groups, hgroups⟩ := items_spells (fun _ => rfl) hlater hes
      rw [← hgroups.keys_eq, List.length_map] at hmore
      obtain ⟨groupsMore, hgroupsMore⟩ := ih hmore
      exact ⟨_, .cons hgroups hgroupsMore⟩

end Sequence

namespace Route

open Regex

theorem readsAll_ending (n : Nat) (o : Options) : ReadsAll n (ending o) n := by
  have hclosing : ReadsAll n [if o.toEnd then finish
      else ahead (oneOf [literal o.delimiter.toList, cat [finish]])] n := by
    refine .cons ?_ (.nil n)
    cases o.toEnd with
    | true => exact reads_finish n
    | false =>
        have heach : ReadsEach n [o.delimiter.toList.map char, [finish]] n :=
          .cons (readsAll_literal n _) (.cons (.cons (reads_finish n) (.nil n)) .nil)
        exact heach.inside.ahead
  unfold ending
  cases o.trailing with
  | true =>
      have htrailing : Reads n (group (cat (o.delimiter.toList.map char ++ [finish]))) n :=
        (ReadsAll.chars _ (.cons (reads_finish n) (.nil n))).inside.group
      exact .cons (htrailing.opt rfl) hclosing
  | false => exact hclosing

theorem readsAll_frame {o : Options} {sequences : List (List Piece)} {bs : List Regex}
    (h : Sequence.branches o.delimiter.toList 1 sequences = .ok bs) :
    ReadsAll 1 ([start, group (oneOf bs)] ++ ending o)
      (1 + (sequences.flatMap Sequence.keys).length) := by
  obtain ⟨ess, rfl, hess⟩ := Sequence.branches_reads h
  exact .cons (reads_start 1) (.cons hess.inside.group (readsAll_ending _ o))

theorem groups_ending (o : Options) : (ending o).flatMap Regex.groups = [] := by
  have htrailing : (cat (o.delimiter.toList.map char ++ [finish])).groups = [] := by
    rw [groups_cat, List.flatMap_append, groups_chars]
    rfl
  have hahead : (oneOf [literal o.delimiter.toList, cat [finish]]).groups = [] := by
    rw [groups_oneOf, List.flatMap_cons, groups_literal]
    rfl
  unfold ending
  cases o.trailing <;> cases o.toEnd <;> simp [htrailing, hahead, Regex.groups]

end Route

/-- The source of a route, read by the grammar, is the expression of the route: the start of the
input, a choice with one branch for each sequence, an optional trailing delimiter and the end. Its
capture groups are those of the keys, in order. -/
theorem read_route_source {o : Options} {templates : List Template} {route : Route}
    (hroute : Route.ofPatterns o (templates.map .template) = .ok route) :
    Regex.read route.source.toList = some route.regex ∧
      ∃ branches groups,
        route.regex = Regex.cat ([.start, .group (Regex.oneOf branches)] ++
          (if o.trailing then
            [.opt (.group (Regex.cat (o.delimiter.toList.map .char ++ [.finish])))]
          else []) ++
          [if o.toEnd then .finish
            else .ahead (Regex.oneOf [Regex.literal o.delimiter.toList, Regex.cat [.finish]])]) ∧
        Sequence.SpellsEach o.delimiter.toList 1 (templates.flatMap Template.alternatives) branches
          groups ∧
        groups.map Prod.fst = route.keys ∧
        route.regex.groups = (groups.zipIdx 1).map (fun g => (g.2, g.1.2)) ∧
        route.regex.groups.length = route.keys.length := by
  rw [Route.ofPatterns_templates] at hroute
  obtain ⟨bs, hbs, -, rfl⟩ := Route.synthesize_eq_ok.mp hroute
  obtain ⟨groups, hgroups⟩ := Sequence.branches_spells hbs
  have hlist : (Route.frame o bs).groups = (groups.zipIdx 1).map fun g => (g.2, g.1.2) := by
    rw [Route.frame, Regex.groups_cat, List.flatMap_append, Route.groups_ending, List.append_nil,
      List.flatMap_cons, List.flatMap_singleton, Regex.groups, Regex.groups, List.nil_append,
      Regex.groups_oneOf, hgroups.groups_eq]
  refine ⟨?_, bs, groups, ?_, hgroups, hgroups.keys_eq, hlist, ?_⟩
  · rw [Route.source, String.toList_ofList]
    exact Regex.read_of_readsAll (Route.readsAll_frame hbs)
  · rw [List.append_assoc]
    rfl
  · rw [hlist, List.length_map, List.length_zipIdx, ← hgroups.keys_eq, List.length_map]

/-- Every kind of context at once: literals, a class, a lookahead for two texts, and the ending. -/
theorem read_route_source_contexts :
    let o : Options := { delimiter := "--", toEnd := false }
    let templates : List Template :=
      [[.text "/a.b", .group [.text "(", .capture ⟨.param, "x"⟩, .text "[]",
        .capture ⟨.param, "z"⟩], .text "/", .capture ⟨.wildcard, "y"⟩]]
    ∃ route, Route.ofPatterns o (templates.map .template) = .ok route ∧
      route.source =
        "^(?:/a\\.b\\(((?:(?!\\-\\-)[\\s\\S])+)\\[\\]((?:(?!\\[\\]|\\-\\-)[\\s\\S])+)/" ++
        "([\\s\\S]+)|/a\\.b/([\\s\\S]+))(?:\\-\\-$)?(?=\\-\\-|$)" ∧
      Regex.read route.source.toList = some route.regex ∧
      ∃ branches groups,
        Sequence.SpellsEach o.delimiter.toList 1 (templates.flatMap Template.alternatives) branches
          groups ∧
        groups.map Prod.fst = route.keys ∧
        route.regex.groups.length = route.keys.length := by
  intro o templates
  have hrun : (do
      let route ← Route.ofPatterns o (templates.map .template)
      return route.source) = .ok
        ("^(?:/a\\.b\\(((?:(?!\\-\\-)[\\s\\S])+)\\[\\]((?:(?!\\[\\]|\\-\\-)[\\s\\S])+)/" ++
        "([\\s\\S]+)|/a\\.b/([\\s\\S]+))(?:\\-\\-$)?(?=\\-\\-|$)") := by
    decide +kernel
  obtain ⟨route, hroute, hsource⟩ := bind_eq_ok.mp hrun
  obtain ⟨hread, branches, groups, -, hspells, hkeys, -, hcount⟩ := read_route_source hroute
  exact ⟨route, hroute, Except.ok.inj hsource, hread, branches, groups, hspells, hkeys, hcount⟩

/-- Without a delimiter, a param takes any characters too. -/
theorem param_group_takes_any :
    ∃ route,
      Route.ofPatterns { delimiter := "", trailing := false }
          [.template [.capture ⟨.param, "a"⟩]] = .ok route ∧
        route.source = "^(?:([\\s\\S]+))$" ∧
        route.keys = [⟨.param, "a"⟩] ∧
        route.regex.groups = [(1, Regex.cat [.plus .any])] := by
  have hrun : (do
      let route ← Route.ofPatterns { delimiter := "", trailing := false }
        [.template [.capture ⟨.param, "a"⟩]]
      return (route.source, route.keys, route.regex.groups)) = .ok
        ("^(?:([\\s\\S]+))$", [⟨.param, "a"⟩], [(1, Regex.cat [.plus .any])]) := by
    decide +kernel
  obtain ⟨route, hroute, hparts⟩ := bind_eq_ok.mp hrun
  obtain ⟨hsource, hrest⟩ := Prod.mk.inj (Except.ok.inj hparts)
  obtain ⟨hkeys, hgroups⟩ := Prod.mk.inj hrest
  exact ⟨route, hroute, hsource, hkeys, hgroups⟩

end PathPattern
