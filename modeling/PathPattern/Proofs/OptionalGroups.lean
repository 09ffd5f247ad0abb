import PathPattern.Proofs.Alternatives
import PathPattern.Proofs.FirstMatch
import PathPattern.Proofs.Separators

/-!
An optional group means: with it or without it. A matcher with a group matches what the matchers
with the content of the group and without it match together. Where the texts next to the group
become one with those inside, this rests on one condition. A param need not keep clear of a text
before it that reaches past a delimiter, and this is told from each text by itself, so the edge of a
group can divide a text that would count as a whole.
-/
namespace PathPattern

/-- A token in front of others. Of two texts that meet, one is made. -/
def Token.joinTo : Token → List Token → List Token
  | .text value, .text next :: rest => .text (value ++ next) :: rest
  | token, rest => token :: rest

mutual

def Token.joined : Token → Token
  | .text value => .text value
  | .capture key => .capture key
  | .group tokens => .group (Template.joined tokens)

/-- A template with adjacent texts made one, at every level. -/
def Template.joined : List Token → List Token
  | [] => []
  | token :: rest => token.joined.joinTo (Template.joined rest)

end

def Piece.joinTo : Piece → List Piece → List Piece
  | .text value, .text next :: rest => .text (value ++ next) :: rest
  | piece, rest => piece :: rest

namespace Sequence

def packed (pieces : List Piece) : List Piece := pieces.foldr Piece.joinTo []

theorem joinTo_text_text (a b : String) (rest : List Piece) :
    Piece.joinTo (.text a) (Piece.joinTo (.text b) rest) = Piece.joinTo (.text (a ++ b)) rest := by
  cases rest with
  | nil => rfl
  | cons piece rest =>
      cases piece with
      | text next =>
          simp only [Piece.joinTo, String.append_assoc]
      | capture key => rfl

theorem foldr_joinTo (piece : Piece) (pieces rest : List Piece) :
    (piece.joinTo pieces).foldr Piece.joinTo rest =
      piece.joinTo (pieces.foldr Piece.joinTo rest) := by
  cases piece with
  | capture key => rfl
  | text value =>
      cases pieces with
      | nil => rfl
      | cons next pieces =>
          cases next with
          | text next => exact (joinTo_text_text value next _).symm
          | capture key => rfl

theorem map_packed_cons (piece : Piece) (sequences : List (List Piece)) :
    (sequences.map (piece :: ·)).map packed = (sequences.map packed).map piece.joinTo := by
  rw [List.map_map, List.map_map]
  rfl

theorem packed_append (a b : List Piece) :
    packed (a ++ b) = (packed a).foldr Piece.joinTo (packed b) := by
  unfold packed
  rw [List.foldr_append]
  induction a with
  | nil => rfl
  | cons piece a ih => rw [List.foldr_cons, List.foldr_cons, foldr_joinTo, ih]

end Sequence

namespace Template

theorem map_packed_joinTo (token : Token) (template : Template) :
    (alternatives (token.joinTo template)).map Sequence.packed =
      (alternatives (token :: template)).map Sequence.packed := by
  cases token with
  | capture key => rfl
  | group tokens => rfl
  | text value =>
      cases template with
      | nil => rfl
      | cons next rest =>
          cases next with
          | capture key => rfl
          | group tokens => rfl
          | text next =>
              change (alternatives (.text (value ++ next) :: rest)).map Sequence.packed = _
              simp only [alternatives_text, List.map_map]
              congr 1
              funext pieces
              exact (Sequence.joinTo_text_text value next _).symm

/-- Made one in the template or in each alternative, the texts come to the same. -/
theorem map_packed_joined (template : Template) :
    (alternatives (joined template)).map Sequence.packed =
      (alternatives template).map Sequence.packed := by
  induction template using Template.induction with
  | nil => rfl
  | text value rest ih =>
      rw [joined, map_packed_joinTo, Token.joined, alternatives_text, alternatives_text,
        Sequence.map_packed_cons, Sequence.map_packed_cons, ih]
  | capture key rest ih =>
      rw [joined, map_packed_joinTo, Token.joined, alternatives_capture, alternatives_capture,
        Sequence.map_packed_cons, Sequence.map_packed_cons, ih]
  | group tokens rest ihTokens ih =>
      -- the packed alternatives of a group depend on its content only by the packed ones of that
      have hcons : ∀ ts t : List Token, (alternatives (.group ts :: t)).map Sequence.packed =
          ((alternatives ts).map Sequence.packed).flatMap (fun inner =>
            ((alternatives t).map Sequence.packed).map (inner.foldr Piece.joinTo)) ++
          (alternatives t).map Sequence.packed := by
        intro ts t
        rw [alternatives_group, List.map_append, List.map_flatMap, List.flatMap_map]
        simp only [List.map_map, Function.comp_def, Sequence.packed_append]
      rw [joined, map_packed_joinTo, Token.joined, hcons, ihTokens, ih, ← hcons]

end Template

namespace Sequence

def textSince (before : List Piece) : Option (List Char) :=
  (textsSince before).map (·.flatMap String.toList)

/-- The text since the last capture reaches past a delimiter, and none of the texts that it is made
of does so by itself. -/
def Divided (delimiter : List Char) (before : List Piece) : Prop :=
  ∃ texts ∈ textsSince before, OccursLate delimiter (texts.flatMap String.toList) ∧
    ∀ text ∈ texts, ¬ OccursLate delimiter text.toList

instance (delimiter : List Char) (before : List Piece) : Decidable (Divided delimiter before) :=
  inferInstanceAs (Decidable (∃ _ ∈ _, _))

theorem divided_iff {delimiter : List Char} {before : List Piece} {texts : List String}
    (h : textsSince before = some texts) :
    Divided delimiter before ↔ OccursLate delimiter (texts.flatMap String.toList) ∧
      ∀ text ∈ texts, ¬ OccursLate delimiter text.toList := by
  unfold Divided
  simp only [h, Option.mem_def, Option.some.injEq, exists_eq_left']

/-- For each capture, whether it is a param after a divided text. -/
def divisions (delimiter : List Char) (before pieces : List Piece) : List Bool :=
  (placedKeys before pieces).map fun place =>
    decide (place.2.kind = .param ∧ Divided delimiter place.1)

def guarded (delimiter : List Char) (divided : Bool) : Option (List Char) → List Char
  | none => []
  | some text => if OccursLate delimiter text ∧ divided = false then [] else text

/-- The pieces fit consecutive parts from `start` to `stop`. Of the texts only the whole since the
last capture counts, and for each capture whether it is divided. -/
def Reaches (o : Options) (input : List Char) :
    List Bool → Option (List Char) → Nat → List Piece → Nat → Prop
  | _, _, start, [], stop => start = stop
  | divided, since, start, .text value :: rest, stop =>
    OccursAt (o.letters value.toList) (o.letters input) start ∧
      Reaches o input divided (since.map (· ++ value.toList)) (start + value.toList.length) rest
        stop
  | divided, since, start, .capture key :: rest, stop =>
    ∃ middle, start < middle ∧ middle ≤ input.length ∧
      (key.kind = .param → ∀ i, start ≤ i → i < middle →
        Clear (o.letters o.delimiter.toList)
          (o.letters (guarded o.delimiter.toList (divided.headD false) since))
          (o.letters input) i) ∧
      Reaches o input divided.tail (some []) middle rest stop

theorem occursAt_append {a b input : List Char} {p : Nat} :
    OccursAt (a ++ b) input p ↔ OccursAt a input p ∧ OccursAt b input (p + a.length) := by
  induction a generalizing p with
  | nil => simp
  | cons c a ih =>
      rw [List.cons_append, occursAt_cons, occursAt_cons, ih, and_assoc, List.length_cons,
        Nat.add_assoc, Nat.add_comm 1]

theorem reaches_joinTo {o : Options} {input : List Char} {divided : List Bool}
    {since : Option (List Char)} {start stop : Nat} {piece : Piece} {rest : List Piece} :
    Reaches o input divided since start (piece.joinTo rest) stop ↔
      Reaches o input divided since start (piece :: rest) stop := by
  cases piece with
  | capture key => rfl
  | text value =>
      match rest with
      | [] => rfl
      | .capture key :: rest => rfl
      | .text next :: rest =>
          simp only [Piece.joinTo, Reaches, String.toList_append, Options.letters, List.map_append,
            occursAt_append, List.length_map, List.length_append, Option.map_map,
            Function.comp_def, List.append_assoc, Nat.add_assoc, and_assoc]

theorem reaches_packed {o : Options} {input : List Char} {divided : List Bool}
    {since : Option (List Char)} {start stop : Nat} {pieces : List Piece} :
    Reaches o input divided since start (packed pieces) stop ↔
      Reaches o input divided since start pieces stop := by
  induction pieces generalizing divided since start with
  | nil => rfl
  | cons piece rest ih =>
      change Reaches o input divided since start (piece.joinTo (packed rest)) stop ↔ _
      rw [reaches_joinTo]
      cases piece with
      | text value => simp only [Reaches, ih]
      | capture key => simp only [Reaches, ih]

theorem occursAt_zero_of_occurs {delimiter text : List Char} (hne : delimiter ≠ [])
    (hoccurs : delimiter <:+: text) (hlate : ¬ OccursLate delimiter text) :
    OccursAt delimiter text 0 := by
  by_contra hzero
  obtain ⟨before, after, rfl⟩ := hoccurs
  refine hlate ⟨hzero, before.length, ?_, ?_⟩
  · have hpos := List.length_pos_of_ne_nil hne
    simp only [List.length_append]
    omega
  · unfold OccursAt
    rw [List.append_assoc, List.drop_left]
    exact List.prefix_append _ _

theorem clear_of_begins {delimiter text input : List Char} {p : Nat} (hne : delimiter ≠ [])
    (hbegins : delimiter <+: text) (h : Clear delimiter [] input p) :
    Clear delimiter text input p := by
  refine ⟨h.1, h.2.1, ?_⟩
  rintro ⟨-, hoccurs⟩
  exact h.2.1 ⟨hne, hbegins.trans hoccurs⟩

theorem clear_nil {delimiter text input : List Char} {p : Nat} (h : Clear delimiter text input p) :
    Clear delimiter [] input p :=
  ⟨h.1, h.2.1, fun hnil => hnil.1 rfl⟩

/-- What the texts of a sequence tell a param to keep clear of comes to the same as what the whole
text tells it, once it is known to be divided. -/
theorem clear_separator_iff {o : Options} {input : List Char} {before : List Piece} {i : Nat} :
    Clear (o.letters o.delimiter.toList)
        (o.letters ((separator o.delimiter.toList before).getD [])) (o.letters input) i ↔
      Clear (o.letters o.delimiter.toList)
        (o.letters (guarded o.delimiter.toList (decide (Divided o.delimiter.toList before))
          (textSince before))) (o.letters input) i := by
  unfold separator textSince
  cases htexts : textsSince before with
  | none => rfl
  | some texts =>
      simp only [Option.bind_some, Option.map_some, guarded, divided_iff htexts,
        decide_eq_false_iff_not]
      by_cases hone : ∃ text ∈ texts, OccursLate o.delimiter.toList text.toList
      · rw [if_pos hone]
        obtain ⟨text, hmem, hoccurs⟩ := hone
        by_cases hlate : OccursLate o.delimiter.toList (texts.flatMap String.toList)
        · rw [if_pos ⟨hlate, fun hdivided => hdivided.2 text hmem hoccurs⟩]
          rfl
        · -- not late as a whole, so the text begins with the delimiter that one of its parts has
          rw [if_neg fun h => hlate h.1]
          obtain ⟨hne, hinside⟩ := hoccurs.occurs_flatMap hmem
          have hbegins := occursAt_zero_of_occurs hne hinside hlate
          refine ⟨clear_of_begins ?_ (List.IsPrefix.map o.letter hbegins), clear_nil⟩
          exact fun hnil => hne (List.map_eq_nil_iff.mp hnil)
      · rw [if_neg hone, if_neg]
        · rfl
        · rintro ⟨hlate, hdivided⟩
          exact hdivided ⟨hlate, fun text hmem hoccurs => hone ⟨text, hmem, hoccurs⟩⟩

theorem textSince_text (before : List Piece) (value : String) :
    textSince (before ++ [.text value]) = (textSince before).map (· ++ value.toList) := by
  unfold textSince
  rw [textsSince_text, Option.map_map, Option.map_map]
  congr 1
  funext texts
  simp

theorem textSince_capture (before : List Piece) (key : Key) :
    textSince (before ++ [.capture key]) = some [] := by
  rw [textSince, textsSince_capture]
  rfl

theorem Decomposes.reaches {o : Options} {input : List Char} {before pieces : List Piece}
    {start : Nat} {stops : List Nat} (h : Decomposes o input before start pieces stops) :
    Reaches o input (divisions o.delimiter.toList before pieces) (textSince before) start pieces
      (stops.getLast?.getD start) := by
  induction h with
  | nil => rfl
  | @cons before start piece rest stop stops hle hend hfits _ ih =>
      rw [List.getLast?_cons, Option.getD_some]
      match piece, hfits with
      | .text value, hfits =>
          rw [textSince_text] at ih
          have hslice := (slice_eq_iff hle (by simpa using hend)).mp hfits
          rw [o.length_letters] at hslice
          obtain ⟨hoccurs, rfl⟩ := hslice
          exact ⟨hoccurs, ih⟩
      | .capture ⟨.wildcard, name⟩, hfits =>
          rw [textSince_capture] at ih
          exact ⟨stop, hfits, hend, (nomatch ·), ih⟩
      | .capture ⟨.param, name⟩, hfits =>
          rw [textSince_capture] at ih
          refine ⟨stop, hfits.1, hend, ?_, ih⟩
          intro _ i hi hlt
          have hclear := clear_separator_iff.mp (hfits.2 i hi hlt)
          simpa [divisions, placedKeys] using hclear

theorem exists_decomposes {o : Options} {input : List Char} {before pieces : List Piece}
    {start stop : Nat} (hstart : start ≤ input.length)
    (h : Reaches o input (divisions o.delimiter.toList before pieces) (textSince before) start
      pieces stop) :
    ∃ stops, Decomposes o input before start pieces stops ∧ stops.getLast?.getD start = stop := by
  -- on the pieces; the text since the last capture and the divisions go on with `before`
  induction pieces generalizing before start with
  | nil => exact ⟨[], .nil, h⟩
  | cons piece rest ih =>
      cases piece with
      | text value =>
          obtain ⟨hoccurs, hrest⟩ := h
          have hend := hoccurs.length_le (by simpa using hstart)
          simp only [Options.length_letters] at hend
          rw [← textSince_text] at hrest
          obtain ⟨stops, hstops, hlast⟩ := ih hend hrest
          refine ⟨_ :: stops, .cons (Nat.le_add_right _ _) hend ?_ hstops, ?_⟩
          · refine (slice_eq_iff (Nat.le_add_right _ _) (by simpa using hend)).mpr ⟨hoccurs, ?_⟩
            rw [o.length_letters]
          · rw [List.getLast?_cons, Option.getD_some]
            exact hlast
      | capture key =>
          obtain ⟨middle, hlt, hend, hclear, hrest⟩ := h
          rw [← textSince_capture before key] at hrest
          obtain ⟨stops, hstops, hlast⟩ := ih hend hrest
          refine ⟨middle :: stops, .cons (Nat.le_of_lt hlt) hend ?_ hstops, ?_⟩
          · match key, hclear with
            | ⟨.wildcard, name⟩, _ => exact hlt
            | ⟨.param, name⟩, hclear =>
                refine ⟨hlt, fun i hi hm => clear_separator_iff.mpr ?_⟩
                simpa [divisions, placedKeys] using hclear rfl i hi hm
          · rw [List.getLast?_cons, Option.getD_some]
            exact hlast

end Sequence

namespace Cut

theorem ends_place {o : Options} {input : List Char} {a b : Cut} (hplace : a.place = b.place)
    (htrailing : a.trailing = b.trailing) (h : a.Ends o input) : b.Ends o input := by
  have hstop : a.stop o = b.stop o := by
    unfold stop
    rw [hplace, htrailing]
  obtain ⟨hends, hend⟩ := h
  rw [htrailing, hstop, hplace] at hends
  rw [hstop] at hend
  exact ⟨hends, hend⟩

theorem exists_of_packed {o : Options} {input : List Char} {a b : List Piece}
    (hpacked : Sequence.packed a = Sequence.packed b)
    (hdivided : Sequence.divisions o.delimiter.toList [] a =
      Sequence.divisions o.delimiter.toList [] b)
    (h : ∃ cut : Cut, cut.Of o input a) : ∃ cut : Cut, cut.Of o input b := by
  obtain ⟨cut, hparts, hends⟩ := h
  have hreaches := hparts.reaches
  rw [← Sequence.reaches_packed, hpacked, Sequence.reaches_packed, hdivided] at hreaches
  obtain ⟨stops, hstops, hlast⟩ := Sequence.exists_decomposes (Nat.zero_le _) hreaches
  exact ⟨⟨stops, cut.trailing⟩, hstops, ends_place hlast.symm rfl hends⟩

end Cut

namespace Template

/-- For each alternative and each capture in it, whether it is a param after a divided text. -/
def divisions (delimiter : List Char) (template : Template) : List (List Bool) :=
  (alternatives template).map (Sequence.divisions delimiter [])

theorem exists_cut_of_packed {o : Options} {input : List Char} {a b : Template}
    (hpacked : (alternatives a).map Sequence.packed = (alternatives b).map Sequence.packed)
    (hdivided : a.divisions o.delimiter.toList = b.divisions o.delimiter.toList)
    (h : ∃ pieces ∈ alternatives a, ∃ cut : Cut, cut.Of o input pieces) :
    ∃ pieces ∈ alternatives b, ∃ cut : Cut, cut.Of o input pieces := by
  obtain ⟨pieces, hpieces, hcut⟩ := h
  -- the alternative of `b` at the same place in the list
  have hmem := List.mem_map_of_mem
    (f := fun pieces => (Sequence.packed pieces, Sequence.divisions o.delimiter.toList [] pieces))
    hpieces
  unfold divisions at hdivided
  rw [← List.zip_map', hpacked, hdivided, List.zip_map'] at hmem
  obtain ⟨other, hother, hsame⟩ := List.mem_map.mp hmem
  obtain ⟨hsame, hdivisions⟩ := Prod.mk.inj hsame
  exact ⟨other, hother, Cut.exists_of_packed hsame.symm hdivisions.symm hcut⟩

theorem exists_cut_joined {o : Options} {input : List Char} {template : Template}
    (hdivided : divisions o.delimiter.toList (joined template) =
      divisions o.delimiter.toList template) :
    (∃ pieces ∈ alternatives (joined template), ∃ cut : Cut, cut.Of o input pieces) ↔
      ∃ pieces ∈ alternatives template, ∃ cut : Cut, cut.Of o input pieces :=
  ⟨exists_cut_of_packed (map_packed_joined template) hdivided,
    exists_cut_of_packed (map_packed_joined template).symm hdivided.symm⟩

theorem mem_alternatives_optional {before inside after : List Token} {pieces : List Piece} :
    pieces ∈ alternatives (before ++ .group inside :: after) ↔
      pieces ∈ alternatives (before ++ inside ++ after) ∨
        pieces ∈ alternatives (before ++ after) := by
  rw [List.append_assoc, mem_alternatives_append, mem_alternatives_append,
    mem_alternatives_append]
  simp only [mem_alternatives_group, mem_alternatives_append (a := inside)]
  constructor
  · rintro ⟨first, hfirst, more, hmore | hmore, hpieces⟩
    · exact .inl ⟨first, hfirst, more, hmore, hpieces⟩
    · exact .inr ⟨first, hfirst, more, hmore, hpieces⟩
  · rintro (⟨first, hfirst, more, hmore, hpieces⟩ | ⟨first, hfirst, more, hmore, hpieces⟩)
    · exact ⟨first, hfirst, more, .inl hmore, hpieces⟩
    · exact ⟨first, hfirst, more, .inr hmore, hpieces⟩

end Template

/-- A group means with it or without it. Its content may become one with the texts next to it,
provided that no param finds the text before it divided on one side only. -/
theorem matches_optional_iff {o : Options} {before inside after : List Token}
    {m kept left : Matcher} {input : String}
    (hm : Matcher.ofPatterns o [.template (before ++ .group inside :: after)] = .ok m)
    (hkept : Matcher.ofPatterns o [.template (Template.joined (before ++ inside ++ after))] =
      .ok kept)
    (hleft : Matcher.ofPatterns o [.template (Template.joined (before ++ after))] = .ok left)
    (hdivided : ∀ template ∈ [before ++ inside ++ after, before ++ after],
      Template.divisions o.delimiter.toList (Template.joined template) =
        Template.divisions o.delimiter.toList template)
    (hlimits : ∀ matcher ∈ [m, kept, left],
      matcher.route.find input.toList ≠ .error (.regex .backtrackLimit)) :
    m.Matches input ↔ kept.Matches input ∨ left.Matches input := by
  simp only [List.forall_mem_cons] at hdivided hlimits
  obtain ⟨hinside, houtside, -⟩ := hdivided
  rw [Matcher.matches_template hm hlimits.1, Matcher.matches_template hkept hlimits.2.1,
    Matcher.matches_template hleft hlimits.2.2.1, Template.exists_cut_joined hinside,
    Template.exists_cut_joined houtside]
  simp only [Template.mem_alternatives_optional, or_and_right, exists_or]

/-- The text of the group reaches past a delimiter by itself, so the hyphen before it may join
it. -/
theorem matches_optional_iff_hyphen :
    let o : Options := {}
    let before : List Token := [.text "/", .capture ⟨.param, "a"⟩, .text "-"]
    let inside : List Token := [.text "k/"]
    let after : List Token := [.capture ⟨.param, "b"⟩]
    let input := "/x-y-K/z-k"
    Template.joined (before ++ inside ++ after) =
      [.text "/", .capture ⟨.param, "a"⟩, .text "-k/", .capture ⟨.param, "b"⟩] ∧
    ∃ m kept left,
      Matcher.ofPatterns o [.template (before ++ .group inside :: after)] = .ok m ∧
      Matcher.ofPatterns o [.template (Template.joined (before ++ inside ++ after))] = .ok kept ∧
      Matcher.ofPatterns o [.template (Template.joined (before ++ after))] = .ok left ∧
      kept.Matches input ∧ ¬ left.Matches input ∧
      (m.Matches input ↔ kept.Matches input ∨ left.Matches input) := by
  intro o before inside after input
  have hrun : Matcher.finds o [.template (before ++ .group inside :: after)] input = .ok true := by
    decide +kernel
  have hrunKept : Matcher.finds o [.template (Template.joined (before ++ inside ++ after))] input =
      .ok true := by
    decide +kernel
  have hrunLeft : Matcher.finds o [.template (Template.joined (before ++ after))] input =
      .ok false := by
    decide +kernel
  obtain ⟨m, hm, hlimit, -⟩ := Matcher.matches_of_finds hrun
  obtain ⟨kept, hkept, hlimitKept, hmatches⟩ := Matcher.matches_of_finds hrunKept
  obtain ⟨left, hleft, hlimitLeft, hmisses⟩ := Matcher.matches_of_finds hrunLeft
  refine ⟨by decide, m, kept, left, hm, hkept, hleft, hmatches.mpr rfl, fun h => ?_, ?_⟩
  · exact absurd (hmisses.mp h) Bool.false_ne_true
  · refine matches_optional_iff hm hkept hleft (by decide) ?_
    simp only [List.forall_mem_cons]
    exact ⟨hlimit, hlimitKept, hlimitLeft, by simp⟩

/-- The slash of the group and the text before it reach past a delimiter only together. The param
after them keeps clear of both while the group divides them, and the input has them at its end. -/
theorem matches_optional_divided :
    let o : Options := {}
    let before : List Token := [.capture ⟨.param, "a"⟩, .text "b"]
    let inside : List Token := [.text "/", .capture ⟨.param, "c"⟩]
    let input := "xb/yb/"
    Template.joined (before ++ inside ++ []) =
      [.capture ⟨.param, "a"⟩, .text "b/", .capture ⟨.param, "c"⟩] ∧
    ∃ m kept left,
      Matcher.ofPatterns o [.template (before ++ .group inside :: [])] = .ok m ∧
      Matcher.ofPatterns o [.template (Template.joined (before ++ inside ++ []))] = .ok kept ∧
      Matcher.ofPatterns o [.template (Template.joined (before ++ []))] = .ok left ∧
      (∀ matcher ∈ [m, kept, left],
        matcher.route.find input.toList ≠ .error (.regex .backtrackLimit)) ∧
      ¬ (m.Matches input ↔ kept.Matches input ∨ left.Matches input) := by
  intro o before inside input
  have hrun : Matcher.finds o [.template (before ++ .group inside :: [])] input = .ok false := by
    decide +kernel
  have hrunKept : Matcher.finds o [.template (Template.joined (before ++ inside ++ []))] input =
      .ok true := by
    decide +kernel
  have hrunLeft : Matcher.finds o [.template (Template.joined (before ++ []))] input =
      .ok false := by
    decide +kernel
  obtain ⟨m, hm, hlimit, hmisses⟩ := Matcher.matches_of_finds hrun
  obtain ⟨kept, hkept, hlimitKept, hmatches⟩ := Matcher.matches_of_finds hrunKept
  obtain ⟨left, hleft, hlimitLeft, -⟩ := Matcher.matches_of_finds hrunLeft
  refine ⟨by decide, m, kept, left, hm, hkept, hleft, ?_, fun h => ?_⟩
  · simp only [List.forall_mem_cons]
    exact ⟨hlimit, hlimitKept, hlimitLeft, by simp⟩
  · exact absurd (hmisses.mp (h.mpr (.inl (hmatches.mpr rfl)))) Bool.false_ne_true

end PathPattern
