import PathPattern.Proofs.NormalForm
import PathPattern.Route

/-!
When a route can be made, and what it is then made of.
-/
namespace PathPattern

theorem bind_eq_ok {α β ε : Type} {x : Except ε α} {f : α → Except ε β} {b : β} :
    x >>= f = .ok b ↔ ∃ a, x = .ok a ∧ f a = .ok b := by
  cases x with
  | error e =>
      constructor
      · intro h
        cases h
      · rintro ⟨a, h, -⟩
        cases h
  | ok a =>
      constructor
      · intro h
        exact ⟨a, rfl, h⟩
      · rintro ⟨_, h, hf⟩
        cases h
        exact hf

namespace Regex

theorem badRepeat?_cat {es : List Regex} (h : ∀ e ∈ es, ∀ offset, e.badRepeat? offset = none)
    (offset : Nat) : (cat es).badRepeat? offset = none := by
  induction es generalizing offset with
  | nil => rfl
  | cons e es ih =>
      have hrest := ih fun e' he' => h e' (List.mem_cons_of_mem e he')
      rw [cat, badRepeat?, h e List.mem_cons_self, hrest]
      rfl

theorem badRepeat?_oneOf {es : List Regex} (h : ∀ e ∈ es, ∀ offset, e.badRepeat? offset = none)
    (offset : Nat) : (oneOf es).badRepeat? offset = none := by
  induction es generalizing offset with
  | nil => rfl
  | cons e es ih =>
      cases es with
      | nil => exact h e List.mem_cons_self offset
      | cons next es =>
          have hrest := ih fun e' he' => h e' (List.mem_cons_of_mem e he')
          rw [oneOf_cons_cons, badRepeat?, h e List.mem_cons_self, hrest]
          rfl

theorem badRepeat?_literal (cs : List Char) (offset : Nat) :
    (literal cs).badRepeat? offset = none := by
  apply badRepeat?_cat
  intro e he offset
  obtain ⟨c, -, rfl⟩ := List.mem_map.mp he
  rfl

theorem badRepeat?_cat_ne_none {es : List Regex} {e : Regex} (he : e ∈ es)
    (h : ∀ offset, e.badRepeat? offset ≠ none) (offset : Nat) :
    (cat es).badRepeat? offset ≠ none := by
  induction es generalizing offset with
  | nil => cases he
  | cons first es ih =>
      rw [cat, badRepeat?, ne_eq, Option.or_eq_none_iff]
      rintro ⟨hfirst, hrest⟩
      rcases List.mem_cons.mp he with rfl | he
      · exact h offset hfirst
      · exact ih he _ hrest

end Regex

namespace Sequence

open Regex

/-- The shapes of the expression: a class, or a class behind a lookahead. -/
theorem avoiding_shape (delimiter text : List Char) :
    avoiding delimiter text = oneBut (delimiter ++ text) ∨
      ∃ (refused : List (List Char)) (cs : List Char), ¬ (delimiter = [] ∧ text = []) ∧
        avoiding delimiter text =
          .group (cat [.notAhead (oneOf (refused.map literal)), oneBut cs]) := by
  have hlong : ∀ cs : List Char, ¬ cs.length < 2 → cs ≠ [] := by
    rintro _ h rfl
    exact h (by decide)
  unfold avoiding
  by_cases htext : text.length < 2
  · by_cases hdelimiter : delimiter.length < 2
    · exact .inl (by rw [if_pos htext, if_pos hdelimiter])
    · refine .inr ⟨[delimiter], text, fun h => hlong _ hdelimiter h.1, ?_⟩
      rw [if_pos htext, if_neg hdelimiter]
      rfl
  · by_cases hdelimiter : delimiter.length < 2
    · refine .inr ⟨[text], delimiter, fun h => hlong _ htext h.2, ?_⟩
      rw [if_neg htext, if_pos hdelimiter]
      rfl
    · refine .inr ⟨[text, delimiter], [], fun h => hlong _ htext h.2, ?_⟩
      rw [if_neg htext, if_neg hdelimiter]
      rfl

theorem badRepeat?_oneBut (cs : List Char) (offset : Nat) :
    (oneBut cs).badRepeat? offset = none := by
  cases cs <;> rfl

theorem badRepeat?_avoiding (delimiter text : List Char) (offset : Nat) :
    (avoiding delimiter text).badRepeat? offset = none := by
  rcases avoiding_shape delimiter text with h | ⟨refused, cs, -, h⟩
  · rw [h, badRepeat?_oneBut]
  · rw [h, badRepeat?]
    apply badRepeat?_cat
    intro e he offset
    simp only [List.mem_cons, List.not_mem_nil, or_false] at he
    rcases he with rfl | rfl
    · rw [badRepeat?]
      apply badRepeat?_oneOf
      intro e he offset
      obtain ⟨text, -, rfl⟩ := List.mem_map.mp he
      exact badRepeat?_literal text offset
    · exact badRepeat?_oneBut cs offset

theorem isZeroWidth_avoiding (delimiter text : List Char) :
    (avoiding delimiter text).isZeroWidth = false := by
  have hone : ∀ cs, (oneBut cs).isZeroWidth = false := by
    intro cs
    cases cs <;> rfl
  rcases avoiding_shape delimiter text with h | ⟨refused, cs, -, h⟩
  · rw [h, hone]
  · simp [h, isZeroWidth, cat, hone]

theorem badRepeat?_body (delimiter : List Char) (avoid : Option (List Char)) (kind : Key.Kind)
    (offset : Nat) : (body delimiter avoid kind).badRepeat? offset = none := by
  cases kind with
  | param => simp [body, cat, badRepeat?, badRepeat?_avoiding, isZeroWidth_avoiding]
  | wildcard => rfl

theorem items_text_eq_ok {delimiter : List Char} {index : Nat} {avoid : Option (List Char)}
    {value : String} {rest : List Piece} {es : List Regex} :
    items delimiter index avoid (.text value :: rest) = .ok es ↔
      ∃ more, items delimiter index (avoidNext delimiter avoid value.toList) rest = .ok more ∧
        value.toList.map .char ++ more = es := by
  rw [items, bind_eq_ok]
  simp only [pure, Except.pure, Except.ok.injEq]

theorem items_capture_eq_ok {delimiter : List Char} {index : Nat} {avoid : Option (List Char)}
    {key : Key} {rest : List Piece} {es : List Regex} :
    items delimiter index avoid (.capture key :: rest) = .ok es ↔
      avoid ≠ some [] ∧ ∃ more, items delimiter (index + 1) (some []) rest = .ok more ∧
        .capture index (body delimiter avoid key.kind) :: more = es := by
  rw [items]
  split
  · rename_i havoid
    simp [havoid]
  · rename_i havoid
    rw [bind_eq_ok]
    simp only [pure, Except.pure, Except.ok.injEq, ne_eq, havoid, not_false_eq_true, true_and]

theorem badRepeat?_items {delimiter : List Char} {pieces : List Piece} {index : Nat}
    {avoid : Option (List Char)} {es : List Regex}
    (h : items delimiter index avoid pieces = .ok es) :
    ∀ e ∈ es, ∀ offset, e.badRepeat? offset = none := by
  induction pieces generalizing index avoid es with
  | nil =>
      cases h
      intro e he
      cases he
  | cons piece rest ih =>
      cases piece with
      | text value =>
          obtain ⟨more, hmore, rfl⟩ := items_text_eq_ok.mp h
          intro e he offset
          rcases List.mem_append.mp he with he | he
          · obtain ⟨c, -, rfl⟩ := List.mem_map.mp he
            rfl
          · exact ih hmore e he offset
      | capture key =>
          obtain ⟨-, more, hmore, rfl⟩ := items_capture_eq_ok.mp h
          intro e he offset
          rcases List.mem_cons.mp he with rfl | he
          · exact badRepeat?_body delimiter avoid key.kind (offset + 1)
          · exact ih hmore e he offset

theorem branches_cons_eq_ok {delimiter : List Char} {index : Nat} {pieces : List Piece}
    {rest : List (List Piece)} {bs : List Regex} :
    branches delimiter index (pieces :: rest) = .ok bs ↔
      ∃ es more, items delimiter index none pieces = .ok es ∧
        branches delimiter (index + (keys pieces).length) rest = .ok more ∧
        Regex.cat es :: more = bs := by
  rw [branches, bind_eq_ok]
  simp only [bind_eq_ok, pure, Except.pure, Except.ok.injEq, exists_and_left]

theorem length_branches {delimiter : List Char} {index : Nat} {sequences : List (List Piece)}
    {bs : List Regex} (h : branches delimiter index sequences = .ok bs) :
    bs.length = sequences.length := by
  induction sequences generalizing index bs with
  | nil =>
      cases h
      rfl
  | cons pieces rest ih =>
      obtain ⟨es, more, -, hmore, rfl⟩ := branches_cons_eq_ok.mp h
      rw [List.length_cons, List.length_cons, ih hmore]

theorem items_of_branches {delimiter : List Char} {index : Nat} {sequences : List (List Piece)}
    {bs : List Regex} (h : branches delimiter index sequences = .ok bs) {pieces : List Piece}
    (hpieces : pieces ∈ sequences) : ∃ n es, items delimiter n none pieces = .ok es := by
  induction sequences generalizing index bs with
  | nil => cases hpieces
  | cons first rest ih =>
      obtain ⟨es, more, hes, hmore, rfl⟩ := branches_cons_eq_ok.mp h
      rcases List.mem_cons.mp hpieces with rfl | hpieces
      · exact ⟨index, es, hes⟩
      · exact ih hmore hpieces

/-- Whether a sequence has an expression does not depend on the numbers of its captures. -/
theorem items_renumber {delimiter : List Char} {pieces : List Piece} {index : Nat}
    {avoid : Option (List Char)} {es : List Regex}
    (h : items delimiter index avoid pieces = .ok es) (n : Nat) :
    ∃ es, items delimiter n avoid pieces = .ok es := by
  induction pieces generalizing index avoid es n with
  | nil => exact ⟨[], rfl⟩
  | cons piece rest ih =>
      cases piece with
      | text value =>
          obtain ⟨more, hmore, -⟩ := items_text_eq_ok.mp h
          obtain ⟨more, hmore⟩ := ih hmore n
          exact ⟨_, items_text_eq_ok.mpr ⟨more, hmore, rfl⟩⟩
      | capture key =>
          obtain ⟨hne, more, hmore, -⟩ := items_capture_eq_ok.mp h
          obtain ⟨more, hmore⟩ := ih hmore (n + 1)
          exact ⟨_, items_capture_eq_ok.mpr ⟨hne, more, hmore, rfl⟩⟩

theorem exists_branches {delimiter : List Char} {sequences : List (List Piece)}
    (h : ∀ pieces ∈ sequences, ∃ n es, items delimiter n none pieces = .ok es) (index : Nat) :
    ∃ bs, branches delimiter index sequences = .ok bs := by
  induction sequences generalizing index with
  | nil => exact ⟨[], rfl⟩
  | cons pieces rest ih =>
      obtain ⟨n, es, hes⟩ := h pieces List.mem_cons_self
      obtain ⟨es, hes⟩ := items_renumber hes index
      obtain ⟨more, hmore⟩ := ih (fun later hlater => h later (List.mem_cons_of_mem _ hlater))
        (index + (keys pieces).length)
      exact ⟨_, branches_cons_eq_ok.mpr ⟨es, more, hes, hmore, rfl⟩⟩

theorem badRepeat?_branches {delimiter : List Char} {sequences : List (List Piece)} {index : Nat}
    {bs : List Regex} (h : branches delimiter index sequences = .ok bs) :
    ∀ b ∈ bs, ∀ offset, b.badRepeat? offset = none := by
  induction sequences generalizing index bs with
  | nil =>
      cases h
      intro b hb
      cases hb
  | cons pieces rest ih =>
      obtain ⟨es, more, hes, hmore, rfl⟩ := branches_cons_eq_ok.mp h
      intro b hb offset
      rcases List.mem_cons.mp hb with rfl | hb
      · exact badRepeat?_cat (badRepeat?_items hes) offset
      · exact ih hmore b hb offset

end Sequence

namespace Template

theorem extend_ne_nil (template : Template) (before : List Piece) :
    extend before template ≠ [] := by
  induction template using Template.induction generalizing before with
  | nil => exact List.cons_ne_nil _ _
  | text value rest ih =>
      rw [extend, Token.extend, List.flatMap_singleton]
      exact ih _
  | capture key rest ih =>
      rw [extend, Token.extend, List.flatMap_singleton]
      exact ih _
  | group tokens rest _ ih =>
      rw [extend, Token.extend, List.flatMap_append, List.flatMap_singleton]
      exact List.append_ne_nil_of_right_ne_nil _ (ih before)

theorem flatMap_alternatives_ne_nil {templates : List Template} (h : templates ≠ []) :
    templates.flatMap alternatives ≠ [] := by
  obtain ⟨template, rest, rfl⟩ := List.exists_cons_of_ne_nil h
  rw [List.flatMap_cons]
  exact List.append_ne_nil_of_left_ne_nil (extend_ne_nil template []) _

end Template

namespace Route

open Regex in
/-- Only the trailing delimiter can be a repetition of nothing. -/
theorem badRepeat?_frame {o : Options} {index : Nat} {sequences : List (List Piece)}
    {bs : List Regex} (h : Sequence.branches o.delimiter.toList index sequences = .ok bs)
    (hdelimiter : o.trailing = true → o.delimiter.toList ≠ []) (offset : Nat) :
    (frame o bs).badRepeat? offset = none := by
  have hclosing : ∀ offset, (if o.toEnd then finish
      else ahead (oneOf [literal o.delimiter.toList, cat [finish]])).badRepeat? offset = none := by
    intro offset
    split
    · rfl
    · rw [badRepeat?]
      apply badRepeat?_oneOf
      intro e he offset
      simp only [List.mem_cons, List.not_mem_nil, or_false] at he
      rcases he with rfl | rfl
      · exact badRepeat?_literal _ offset
      · rfl
  have htrailing : o.trailing = true → ∀ offset,
      (opt (group (cat (o.delimiter.toList.map char ++ [finish])))).badRepeat? offset = none := by
    intro ht offset
    obtain ⟨c, cs, hcs⟩ := List.exists_cons_of_ne_nil (hdelimiter ht)
    have hinner : ∀ offset,
        (cat (o.delimiter.toList.map char ++ [finish])).badRepeat? offset = none := by
      apply badRepeat?_cat
      intro e he offset
      rcases List.mem_append.mp he with he | he
      · obtain ⟨c, -, rfl⟩ := List.mem_map.mp he
        rfl
      · rw [List.mem_singleton.mp he]
        rfl
    rw [badRepeat?, badRepeat?, hinner, hcs]
    rfl
  apply badRepeat?_cat
  intro e he offset
  rcases List.mem_append.mp he with he | he
  · simp only [List.mem_cons, List.not_mem_nil, or_false] at he
    rcases he with rfl | rfl
    · rfl
    · exact badRepeat?_oneOf (Sequence.badRepeat?_branches h) (offset + 3)
  · rcases List.mem_append.mp he with he | he
    · split at he
      · rename_i ht
        rw [List.mem_singleton.mp he]
        exact htrailing ht offset
      · cases he
    · rw [List.mem_singleton.mp he]
      exact hclosing offset

open Regex in
/-- With an empty delimiter, the trailing one is a repetition of nothing. -/
theorem badRepeat?_frame_ne_none {o : Options} (htrailing : o.trailing = true)
    (hdelimiter : o.delimiter.toList = []) (bs : List Regex) (offset : Nat) :
    (frame o bs).badRepeat? offset ≠ none := by
  apply badRepeat?_cat_ne_none (e := opt (group (cat [finish])))
  · simp [ending, htrailing, hdelimiter]
  · intro offset h
    cases h

theorem ofPatterns_templates (o : Options) (templates : List Template) :
    ofPatterns o (templates.map .template) = synthesize o templates := by
  have hread : (templates.map Pattern.template).mapM (·.toTemplate o) = .ok templates := by
    induction templates with
    | nil => rfl
    | cons template rest ih =>
        rw [List.map_cons, List.mapM_cons, ih]
        rfl
  rw [ofPatterns, hread]
  rfl

theorem synthesize_eq_ok {o : Options} {templates : List Template} {route : Route} :
    synthesize o templates = .ok route ↔
      ∃ bs, Sequence.branches o.delimiter.toList 1 (templates.flatMap Template.alternatives) =
          .ok bs ∧
        (frame o bs).badRepeat? (flagSize o) = none ∧
        ⟨frame o bs, (templates.flatMap Template.alternatives).flatMap Sequence.keys,
          o.sensitive⟩ = route := by
  rw [synthesize, bind_eq_ok]
  refine exists_congr fun bs => and_congr_right fun _ => ?_
  cases h : (frame o bs).badRepeat? (flagSize o) with
  | none => simp [h, pure, Except.pure]
  | some position => simp [h]

/-- A route can be made of templates just when each of their alternatives has an expression, and
there is no trailing delimiter or it is not empty. -/
theorem exists_synthesize_iff {o : Options} {templates : List Template} :
    (∃ route, synthesize o templates = .ok route) ↔
      (∀ pieces ∈ templates.flatMap Template.alternatives,
        ∃ n es, Sequence.items o.delimiter.toList n none pieces = .ok es) ∧
      (o.trailing = true → o.delimiter.toList ≠ []) := by
  constructor
  · rintro ⟨route, hroute⟩
    obtain ⟨bs, hbs, hrepeat, -⟩ := synthesize_eq_ok.mp hroute
    refine ⟨fun pieces hpieces => Sequence.items_of_branches hbs hpieces, ?_⟩
    intro htrailing hdelimiter
    exact badRepeat?_frame_ne_none htrailing hdelimiter bs _ hrepeat
  · rintro ⟨hitems, hdelimiter⟩
    obtain ⟨bs, hbs⟩ := Sequence.exists_branches hitems 1
    exact ⟨_, synthesize_eq_ok.mpr ⟨bs, hbs, badRepeat?_frame hbs hdelimiter _, rfl⟩⟩

theorem synthesize_nil (o : Options) : synthesize o [] = synthesize o [[]] := rfl

end Route

end PathPattern
