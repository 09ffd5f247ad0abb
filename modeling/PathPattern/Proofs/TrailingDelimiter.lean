import PathPattern.Proofs.FirstMatch
import PathPattern.Proofs.Separators

/-!
A trailing delimiter is tolerated where it disturbs no param. A match of an input is a match of the
input with a delimiter after it, unless something that a param keeps clear of begins in the param
and is completed by that delimiter.
-/
namespace PathPattern

/-- The text begins at this place of the input, and only what comes after completes it. -/
def CompletedBy (after text input : List Char) (p : Nat) : Prop :=
  input.length < p + text.length ∧ OccursAt text (input ++ after) p

/-- Some proper end of the text is a beginning of what comes after. -/
def RunsInto (after text : List Char) : Prop :=
  ∃ k < text.length, 0 < k ∧ text.drop k <+: after

instance (after text : List Char) : Decidable (RunsInto after text) :=
  inferInstanceAs (Decidable (∃ k < text.length, _))

theorem OccursAt.append {text input : List Char} {p : Nat} (h : OccursAt text input p)
    (hp : p ≤ input.length) (after : List Char) : OccursAt text (input ++ after) p := by
  unfold OccursAt
  rw [List.drop_append_of_le_length hp]
  exact List.IsPrefix.trans h (List.prefix_append _ _)

theorem occursAt_append_iff {text input after : List Char} {p : Nat} (hp : p ≤ input.length) :
    OccursAt text (input ++ after) p ↔
      OccursAt text input p ∨ CompletedBy after text input p := by
  constructor
  · intro h
    by_cases hlong : input.length < p + text.length
    · exact .inr ⟨hlong, h⟩
    · refine .inl ?_
      unfold OccursAt at h ⊢
      rw [List.drop_append_of_le_length hp] at h
      refine List.prefix_of_prefix_length_le h (List.prefix_append _ _) ?_
      rw [List.length_drop]
      omega
  · rintro (h | h)
    · exact h.append hp after
    · exact h.2

theorem CompletedBy.runsInto {after text input : List Char} {p : Nat} (hp : p < input.length)
    (h : CompletedBy after text input p) : RunsInto after text := by
  obtain ⟨hlong, rest, hrest⟩ := h
  refine ⟨input.length - p, by omega, by omega, rest, ?_⟩
  rw [List.drop_append_of_le_length (Nat.le_of_lt hp)] at hrest
  have hdrop := congrArg (List.drop (input.length - p)) hrest
  rw [List.drop_append_of_le_length (by omega),
    List.drop_append_of_le_length (Nat.le_of_eq List.length_drop.symm), List.drop_drop,
    Nat.add_sub_cancel' (Nat.le_of_lt hp), List.drop_length, List.nil_append] at hdrop
  exact hdrop

theorem clear_append_iff {delimiter text input : List Char} {p : Nat} (hp : p < input.length)
    (after : List Char) :
    Clear delimiter text (input ++ after) p ↔
      Clear delimiter text input p ∧
        ¬ (CompletedBy after delimiter input p ∨ CompletedBy after text input p) := by
  have hsome : ∀ needle : List Char, CompletedBy after needle input p → needle ≠ [] := by
    rintro _ ⟨hlong, -⟩ rfl
    exact absurd hlong (by simpa using Nat.le_of_lt hp)
  have hoccurs : ∀ needle : List Char,
      (needle ≠ [] ∧ OccursAt needle (input ++ after) p) ↔
        (needle ≠ [] ∧ OccursAt needle input p) ∨ CompletedBy after needle input p := by
    intro needle
    rw [occursAt_append_iff (Nat.le_of_lt hp), and_or_left, and_iff_right_of_imp (hsome needle)]
  have hlonger : p < (input ++ after).length := by
    rw [List.length_append]
    omega
  unfold Clear
  rw [hoccurs, hoccurs, and_iff_right hlonger, and_iff_right hp]
  tauto

namespace Sequence

/-- After these pieces, a param keeps clear of something that begins at this place and is completed
by what comes after the input. -/
def Disturbed (o : Options) (after input : List Char) (before : List Piece) (p : Nat) : Prop :=
  CompletedBy (o.letters after) (o.letters o.delimiter.toList) (o.letters input) p ∨
    CompletedBy (o.letters after) (o.letters ((separator o.delimiter.toList before).getD []))
      (o.letters input) p

def Undisturbed (o : Options) (after input : List Char) (before : List Piece) (start : Nat)
    (pieces : List Piece) (stops : List Nat) : Prop :=
  ∀ part ∈ (placedKeys before pieces).zip (captured start pieces stops),
    part.1.2.kind = .param → ∀ i, part.2.start ≤ i → i < part.2.stop →
      ¬ Disturbed o after input part.1.1 i

theorem undisturbed_cons {o : Options} {after input : List Char} {before rest : List Piece}
    {piece : Piece} {start stop : Nat} {stops : List Nat} :
    Undisturbed o after input before start (piece :: rest) (stop :: stops) ↔
      (∀ key ∈ piece.key?, key.kind = .param → ∀ i, start ≤ i → i < stop →
        ¬ Disturbed o after input before i) ∧
      Undisturbed o after input (before ++ [piece]) stop rest stops := by
  cases piece with
  | text value => exact ⟨fun h => ⟨by simp [Piece.key?], h⟩, fun h => h.2⟩
  | capture key =>
      rw [Undisturbed, placedKeys, captured, List.zip_cons_cons, List.forall_mem_cons]
      refine and_congr_left' ?_
      simp only [Piece.key?, Option.mem_def, Option.some.injEq, forall_eq']

theorem decomposes_cons {o : Options} {input : List Char} {before rest : List Piece}
    {piece : Piece} {start stop : Nat} {stops : List Nat} :
    Decomposes o input before start (piece :: rest) (stop :: stops) ↔
      start ≤ stop ∧ stop ≤ input.length ∧ Fits o input before start stop piece ∧
        Decomposes o input (before ++ [piece]) stop rest stops := by
  constructor
  · intro h
    cases h with
    | cons hle hend hfits hrest => exact ⟨hle, hend, hfits, hrest⟩
  · rintro ⟨hle, hend, hfits, hrest⟩
    exact .cons hle hend hfits hrest

theorem slice_append {input : List Char} {start stop : Nat} (hstart : start ≤ stop)
    (hstop : stop ≤ input.length) (after : List Char) :
    Regex.Span.slice ⟨start, stop⟩ (input ++ after) = Regex.Span.slice ⟨start, stop⟩ input := by
  unfold Regex.Span.slice
  rw [List.drop_append_of_le_length (Nat.le_trans hstart hstop), List.take_append_of_le_length]
  rw [List.length_drop]
  exact Nat.sub_le_sub_right hstop start

/-- More after the input changes what fits a param, and nothing else. -/
theorem fits_append_iff {o : Options} {input : List Char} {before : List Piece} {piece : Piece}
    {start stop : Nat} (hstart : start ≤ stop) (hstop : stop ≤ input.length)
    (after : List Char) :
    Fits o (input ++ after) before start stop piece ↔
      Fits o input before start stop piece ∧
        ∀ key ∈ piece.key?, key.kind = .param → ∀ i, start ≤ i → i < stop →
          ¬ Disturbed o after input before i := by
  match piece with
  | .text value =>
      have hslice := slice_append hstart (by simpa using hstop : stop ≤ (o.letters input).length)
        (o.letters after)
      rw [Options.letters, Options.letters, ← List.map_append] at hslice
      simp only [Fits, Options.letters, hslice, Piece.key?, Option.mem_def, reduceCtorEq,
        false_imp_iff, implies_true, and_true]
  | .capture ⟨.wildcard, name⟩ =>
      simp only [Fits, Piece.key?, Option.mem_def, Option.some.injEq, forall_eq', reduceCtorEq,
        false_imp_iff, and_true]
  | .capture ⟨.param, name⟩ =>
      have hclear : ∀ i, i < stop →
          (Clear (o.letters o.delimiter.toList)
              (o.letters ((separator o.delimiter.toList before).getD []))
              (o.letters (input ++ after)) i ↔
            Clear (o.letters o.delimiter.toList)
              (o.letters ((separator o.delimiter.toList before).getD [])) (o.letters input) i ∧
            ¬ Disturbed o after input before i) := by
        intro i hi
        have happend : o.letters (input ++ after) = o.letters input ++ o.letters after :=
          List.map_append
        rw [happend]
        exact clear_append_iff (by rw [o.length_letters]; omega) (o.letters after)
      simp only [Fits, Piece.key?, Option.mem_def, Option.some.injEq, forall_eq', forall_const,
        and_assoc]
      refine and_congr_right fun _ => ?_
      constructor
      · intro h
        exact ⟨fun i hi hlt => ((hclear i hlt).mp (h i hi hlt)).1,
          fun i hi hlt => ((hclear i hlt).mp (h i hi hlt)).2⟩
      · rintro ⟨hplain, hundisturbed⟩ i hi hlt
        exact (hclear i hlt).mpr ⟨hplain i hi hlt, hundisturbed i hi hlt⟩

theorem decomposes_append_iff_of_le {o : Options} {input after : List Char}
    {before pieces : List Piece} {start : Nat} {stops : List Nat}
    (hstops : ∀ stop ∈ stops, stop ≤ input.length) :
    Decomposes o (input ++ after) before start pieces stops ↔
      Decomposes o input before start pieces stops ∧
        Undisturbed o after input before start pieces stops := by
  induction pieces generalizing before start stops with
  | nil =>
      constructor
      · intro h
        cases h
        exact ⟨.nil, fun part hpart => nomatch hpart⟩
      · rintro ⟨h, -⟩
        cases h
        exact .nil
  | cons piece rest ih =>
      cases stops with
      | nil => exact ⟨(nomatch ·), (nomatch ·.1)⟩
      | cons stop stops =>
          obtain ⟨hstop, hmore⟩ := List.forall_mem_cons.mp hstops
          rw [decomposes_cons, decomposes_cons, undisturbed_cons, ih hmore]
          constructor
          · rintro ⟨hle, -, hfits, hrest, hundisturbed⟩
            obtain ⟨hfits, hpart⟩ := (fits_append_iff hle hstop after).mp hfits
            exact ⟨⟨hle, hstop, hfits, hrest⟩, hpart, hundisturbed⟩
          · rintro ⟨⟨hle, -, hfits, hrest⟩, hpart, hundisturbed⟩
            have hend : stop ≤ (input ++ after).length := by
              rw [List.length_append]
              omega
            exact ⟨hle, hend, (fits_append_iff hle hstop after).mpr ⟨hfits, hpart⟩, hrest,
              hundisturbed⟩

theorem Decomposes.le_last {o : Options} {input : List Char} {before pieces : List Piece}
    {start : Nat} {stops : List Nat} (h : Decomposes o input before start pieces stops) :
    ∀ stop ∈ start :: stops, stop ≤ stops.getLast?.getD start := by
  induction h with
  | nil => simp
  | @cons before start piece rest stop stops hle _ _ _ ih =>
      rw [List.getLast?_cons, Option.getD_some, List.forall_mem_cons]
      exact ⟨Nat.le_trans hle (ih stop List.mem_cons_self), ih⟩

/-- Parts that use up the input are parts of it with more after it, if that disturbs no param. -/
theorem decomposes_append_iff {o : Options} {input after : List Char} {before pieces : List Piece}
    {start : Nat} {stops : List Nat} (hlast : stops.getLast?.getD start = input.length) :
    Decomposes o (input ++ after) before start pieces stops ↔
      Decomposes o input before start pieces stops ∧
        Undisturbed o after input before start pieces stops := by
  have hstops : ∀ {more : List Char}, Decomposes o more before start pieces stops →
      ∀ stop ∈ stops, stop ≤ input.length := by
    intro more h stop hstop
    rw [← hlast]
    exact h.le_last stop (List.mem_cons_of_mem _ hstop)
  constructor
  · intro h
    exact (decomposes_append_iff_of_le (hstops h)).mp h
  · intro h
    exact (decomposes_append_iff_of_le (hstops h.1)).mpr h

theorem Decomposes.of_options {o p : Options} {input : List Char} {before pieces : List Piece}
    {start : Nat} {stops : List Nat} (h : Decomposes o input before start pieces stops)
    (hdelimiter : p.delimiter = o.delimiter) (hsensitive : p.sensitive = o.sensitive) :
    Decomposes p input before start pieces stops := by
  induction h with
  | nil => exact .nil
  | @cons before start piece rest stop stops hle hend hfits _ ih =>
      refine .cons hle hend ?_ ih
      match piece, hfits with
      | .text value, hfits =>
          simp only [Fits, Options.letters, Options.letter, hsensitive]
          exact hfits
      | .capture ⟨.wildcard, name⟩, hfits => exact hfits
      | .capture ⟨.param, name⟩, hfits =>
          simp only [Fits, Options.letters, Options.letter, hsensitive, hdelimiter]
          exact hfits

end Sequence

namespace Cut

open Sequence

theorem of_plain_iff {o : Options} {input : List Char} {pieces : List Piece} {cut : Cut}
    (hend : o.toEnd = true) :
    cut.Of { o with trailing := false } input pieces ↔
      Decomposes o input [] 0 pieces cut.stops ∧ cut.trailing = false ∧
        cut.place = input.length := by
  obtain ⟨stops, trailing⟩ := cut
  constructor
  · rintro ⟨hparts, hends⟩
    refine ⟨hparts.of_options rfl rfl, ?_⟩
    cases trailing with
    | true => exact absurd (ends_trailing.mp hends).1 Bool.false_ne_true
    | false =>
        refine ⟨rfl, (ends_plain.mp hends).resolve_right ?_⟩
        simp [hend]
  · rintro ⟨hparts, rfl, hplace⟩
    exact ⟨hparts.of_options rfl rfl, ends_plain.mpr (.inl hplace)⟩

theorem of_trailing_iff {o : Options} {input : List Char} {pieces : List Piece} {cut : Cut}
    (hend : o.toEnd = true) :
    cut.Of { o with trailing := true } input pieces ↔
      Decomposes o input [] 0 pieces cut.stops ∧
        (cut.trailing = false ∧ cut.place = input.length ∨
          cut.trailing = true ∧
            OccursAt (o.letters o.delimiter.toList) (o.letters input) cut.place ∧
            cut.place + o.delimiter.toList.length = input.length) := by
  obtain ⟨stops, trailing⟩ := cut
  constructor
  · rintro ⟨hparts, hends⟩
    refine ⟨hparts.of_options rfl rfl, ?_⟩
    cases trailing with
    | true => exact .inr ⟨rfl, (ends_trailing.mp hends).2⟩
    | false =>
        refine .inl ⟨rfl, (ends_plain.mp hends).resolve_right ?_⟩
        simp [hend]
  · rintro ⟨hparts, ⟨rfl, hplace⟩ | ⟨rfl, hplace⟩⟩
    · exact ⟨hparts.of_options rfl rfl, ends_plain.mpr (.inl hplace)⟩
    · exact ⟨hparts.of_options rfl rfl, ends_trailing.mpr ⟨rfl, hplace⟩⟩

theorem Of.trailing {o : Options} {input : List Char} {pieces : List Piece} {cut : Cut}
    (hend : o.toEnd = true) (h : cut.Of { o with trailing := false } input pieces) :
    cut.Of { o with trailing := true } input pieces := by
  obtain ⟨hparts, hplain, hplace⟩ := (of_plain_iff hend).mp h
  exact (of_trailing_iff hend).mpr ⟨hparts, .inl ⟨hplain, hplace⟩⟩

/-- Exactly the undisturbed cuts of an input can take a delimiter after it. -/
theorem exists_append_iff {o : Options} {input : List Char} {pieces : List Piece}
    (hend : o.toEnd = true) :
    (∃ cut : Cut, cut.Of { o with trailing := true } (input ++ o.delimiter.toList) pieces) ↔
      (∃ cut : Cut, cut.Of { o with trailing := false } (input ++ o.delimiter.toList) pieces) ∨
      ∃ cut : Cut, cut.Of { o with trailing := false } input pieces ∧
        Undisturbed o o.delimiter.toList input [] 0 pieces cut.stops := by
  have hoccurs : OccursAt (o.letters o.delimiter.toList)
      (o.letters (input ++ o.delimiter.toList)) input.length := by
    have hdrop : (o.letters (input ++ o.delimiter.toList)).drop input.length =
        o.letters o.delimiter.toList := by
      rw [Options.letters, ← List.map_drop, List.drop_left]
      rfl
    exact ⟨[], by rw [List.append_nil, hdrop]⟩
  constructor
  · rintro ⟨cut, hcut⟩
    rcases (of_trailing_iff hend).mp hcut with
      ⟨hparts, ⟨hplain, hplace⟩ | ⟨-, -, hplace⟩⟩
    · exact .inl ⟨cut, (of_plain_iff hend).mpr ⟨hparts, hplain, hplace⟩⟩
    · have hplace : cut.place = input.length := by
        rw [List.length_append] at hplace
        omega
      obtain ⟨hparts, hundisturbed⟩ := (decomposes_append_iff hplace).mp hparts
      exact .inr ⟨⟨cut.stops, false⟩, (of_plain_iff hend).mpr ⟨hparts, rfl, hplace⟩, hundisturbed⟩
  · rintro (⟨cut, hcut⟩ | ⟨cut, hcut, hundisturbed⟩)
    · exact ⟨cut, hcut.trailing hend⟩
    · obtain ⟨hparts, -, hplace⟩ := (of_plain_iff hend).mp hcut
      refine ⟨⟨cut.stops, true⟩, (of_trailing_iff hend).mpr ⟨?_, .inr ⟨rfl, ?_, ?_⟩⟩⟩
      · exact (decomposes_append_iff hplace).mpr ⟨hparts, hundisturbed⟩
      · change OccursAt _ _ cut.place
        rw [hplace]
        exact hoccurs
      · change cut.place + _ = _
        rw [hplace, List.length_append]

end Cut

namespace Sequence

/-- After these pieces, no end of what a param keeps clear of is the beginning of a delimiter. The
text may begin with the delimiter instead, since the param keeps clear of that already. -/
def Tolerates (o : Options) (before : List Piece) : Prop :=
  let delimiter := o.letters o.delimiter.toList
  let text := o.letters ((separator o.delimiter.toList before).getD [])
  ¬ RunsInto delimiter delimiter ∧ (RunsInto delimiter text → delimiter <+: text)

instance (o : Options) (before : List Piece) : Decidable (Tolerates o before) :=
  inferInstanceAs (Decidable (_ ∧ _))

theorem Tolerates.undisturbed {o : Options} {input : List Char} {before : List Piece}
    {name : String} {start stop : Nat} (hdelimiter : o.delimiter ≠ "") (h : Tolerates o before)
    (hstop : stop ≤ input.length)
    (hfits : Fits o input before start stop (.capture ⟨.param, name⟩)) :
    ∀ i, start ≤ i → i < stop → ¬ Disturbed o o.delimiter.toList input before i := by
  intro i hi hlt
  have hinside : i < (o.letters input).length := by
    rw [o.length_letters]
    omega
  have hsome : o.letters o.delimiter.toList ≠ [] := by
    simpa [Options.letters] using hdelimiter
  have hclear : ¬ CompletedBy (o.letters o.delimiter.toList) (o.letters o.delimiter.toList)
      (o.letters input) i := fun hcompleted => h.1 (hcompleted.runsInto hinside)
  rintro (hcompleted | hcompleted)
  · exact hclear hcompleted
  · -- the text begins with a delimiter, which then stands at the same place
    have hbegins := h.2 (hcompleted.runsInto hinside)
    have hoccurs : OccursAt (o.letters o.delimiter.toList)
        (o.letters input ++ o.letters o.delimiter.toList) i := hbegins.trans hcompleted.2
    rcases (occursAt_append_iff (Nat.le_of_lt hinside)).mp hoccurs with hoccurs | hcompleted
    · exact (hfits.2 i hi hlt).2.1 ⟨hsome, hoccurs⟩
    · exact hclear hcompleted

theorem Decomposes.undisturbed {o : Options} {input : List Char} {before pieces : List Piece}
    {start : Nat} {stops : List Nat} (hdelimiter : o.delimiter ≠ "")
    (htolerates : AtParams (Tolerates o) before pieces)
    (h : Decomposes o input before start pieces stops) :
    Undisturbed o o.delimiter.toList input before start pieces stops := by
  induction h with
  | nil => exact fun part hpart => nomatch hpart
  | @cons before start piece rest stop stops hle hend hfits _ ih =>
      rw [undisturbed_cons]
      cases piece with
      | text value => exact ⟨by simp [Piece.key?], ih htolerates⟩
      | capture key =>
          obtain ⟨hplace, hrest⟩ := List.forall_mem_cons.mp htolerates
          refine ⟨?_, ih hrest⟩
          obtain ⟨kind, name⟩ := key
          rintro _ ⟨⟩ ⟨⟩
          exact (hplace rfl).undisturbed hdelimiter hend hfits

end Sequence

theorem Pattern.toTemplate_trailing (o : Options) (trailing : Bool) (pattern : Pattern) :
    pattern.toTemplate { o with trailing := trailing } = pattern.toTemplate o := by
  cases pattern with
  | source text => rfl
  | template tokens => rfl

namespace Route

theorem exists_synthesize_trailing {o : Options} {templates : List Template} {plain : Route}
    (hdelimiter : o.delimiter ≠ "")
    (hplain : synthesize { o with trailing := false } templates = .ok plain) :
    ∃ route, synthesize { o with trailing := true } templates = .ok route := by
  refine exists_synthesize_iff.mpr ⟨(exists_synthesize_iff.mp ⟨plain, hplain⟩).1, fun _ => ?_⟩
  simpa using hdelimiter

theorem exists_nonempty (templates : List Template) :
    ∃ others : List Template, others ≠ [] ∧
      (∀ o, synthesize o others = synthesize o templates) ∧
      (templates = [] ∧ others = [[]] ∨ others = templates) := by
  cases templates with
  | nil => exact ⟨[[]], List.cons_ne_nil _ _, fun o => (synthesize_nil o).symm, .inl ⟨rfl, rfl⟩⟩
  | cons template rest =>
      exact ⟨template :: rest, List.cons_ne_nil _ _, fun _ => rfl, .inr rfl⟩

end Route

/-- Patterns that can be synthesized can be synthesized with a trailing delimiter allowed. Then what
matches without it still matches, and with a delimiter after it too, if it matches by an alternative
that tolerates one. -/
theorem matches_with_trailing {o : Options} {patterns : List Pattern} {plain : Matcher}
    (hend : o.toEnd = true) (hdelimiter : o.delimiter ≠ "")
    (hplain : Matcher.ofPatterns { o with trailing := false } patterns = .ok plain) :
    ∃ templates m, patterns.mapM (·.toTemplate o) = .ok templates ∧
      Matcher.ofPatterns { o with trailing := true } patterns = .ok m ∧
      ∀ input : String, plain.route.find input.toList ≠ .error (.regex .backtrackLimit) →
        plain.Matches input →
        (m.route.find input.toList ≠ .error (.regex .backtrackLimit) → m.Matches input) ∧
        (m.route.find (input ++ o.delimiter).toList ≠ .error (.regex .backtrackLimit) →
          (templates ≠ [] → ∃ pieces ∈ templates.flatMap Template.alternatives,
            (∃ cut : Cut, cut.Of { o with trailing := false } input.toList pieces) ∧
              Sequence.AtParams (Sequence.Tolerates o) [] pieces) →
          m.Matches (input ++ o.delimiter)) := by
  obtain ⟨templates, hread, route, hroute, rfl⟩ := Matcher.ofPatterns_eq_ok_iff.mp hplain
  obtain ⟨tolerant, htolerant⟩ := Route.exists_synthesize_trailing hdelimiter hroute
  simp only [Pattern.toTemplate_trailing] at hread
  refine ⟨templates, .ofRoute _ tolerant, mapM_eq_ok.mpr hread,
    Matcher.ofPatterns_eq_ok_iff.mpr ⟨templates, ?_, tolerant, htolerant, rfl⟩, ?_⟩
  · simpa only [Pattern.toTemplate_trailing] using hread
  intro input hlimit hmatches
  obtain ⟨others, hne, hsame, hothers⟩ := Route.exists_nonempty templates
  rw [← hsame] at hroute htolerant
  have hmatched := (Matcher.matches_iff_cut hne hroute hlimit).mp hmatches
  constructor
  · intro hlimit
    obtain ⟨pieces, hpieces, cut, hcut⟩ := hmatched
    exact (Matcher.matches_iff_cut hne htolerant hlimit).mpr
      ⟨pieces, hpieces, cut, hcut.trailing hend⟩
  · intro hlimit htolerates
    have hchosen : ∃ pieces ∈ others.flatMap Template.alternatives,
        (∃ cut : Cut, cut.Of { o with trailing := false } input.toList pieces) ∧
          Sequence.AtParams (Sequence.Tolerates o) [] pieces := by
      rcases hothers with ⟨-, rfl⟩ | rfl
      · -- the empty sequence has no params
        obtain ⟨pieces, hpieces, hcut⟩ := hmatched
        refine ⟨pieces, hpieces, hcut, ?_⟩
        rw [List.flatMap_singleton, Template.alternatives_nil, List.mem_singleton] at hpieces
        rw [hpieces]
        exact fun place hplace => nomatch hplace
      · exact htolerates hne
    obtain ⟨pieces, hpieces, ⟨cut, hcut⟩, hplaces⟩ := hchosen
    refine (Matcher.matches_iff_cut hne htolerant hlimit).mpr ⟨pieces, hpieces, ?_⟩
    rw [String.toList_append]
    refine (Cut.exists_append_iff hend).mpr (.inr ⟨cut, hcut, ?_⟩)
    exact ((Cut.of_plain_iff hend).mp hcut).1.undisturbed hdelimiter hplaces

/-- The text between the params ends with a delimiter, but it also begins with one. -/
theorem matches_with_trailing_between :
    let o : Options := {}
    let patterns : List Pattern := [.source "/:a/x/:b\x7b.:ext\x7d"]
    let input := "/p/X/q.md"
    ∃ plain m, Matcher.ofPatterns { o with trailing := false } patterns = .ok plain ∧
      Matcher.ofPatterns { o with trailing := true } patterns = .ok m ∧
      plain.Matches input ∧ m.Matches input ∧ m.Matches (input ++ o.delimiter) := by
  intro o patterns input
  have hrunPlain : Matcher.finds { o with trailing := false } patterns input = .ok true := by
    decide +kernel
  have hrun : Matcher.finds { o with trailing := true } patterns input = .ok true := by
    decide +kernel
  have hrunAfter : Matcher.finds { o with trailing := true } patterns (input ++ o.delimiter) =
      .ok true := by
    decide +kernel
  obtain ⟨plain, hplain, hlimitPlain, hmatches⟩ := Matcher.matches_of_finds hrunPlain
  obtain ⟨templates, m, htemplates, hm, htolerated⟩ :=
    matches_with_trailing (by decide) (by decide) hplain
  obtain ⟨m', hm', hlimit, -⟩ := Matcher.matches_of_finds hrun
  obtain ⟨m'', hm'', hlimitAfter, -⟩ := Matcher.matches_of_finds hrunAfter
  rw [hm, Except.ok.injEq] at hm' hm''
  subst hm' hm''
  have hread : patterns.mapM (·.toTemplate o) = .ok [[.text "/", .capture ⟨.param, "a"⟩,
      .text "/x/", .capture ⟨.param, "b"⟩, .group [.text ".", .capture ⟨.param, "ext"⟩]]] := by
    decide +kernel
  rw [hread, Except.ok.injEq] at htemplates
  subst htemplates
  obtain ⟨hinput, hafter⟩ := htolerated input hlimitPlain (hmatches.mpr rfl)
  refine ⟨plain, m, hplain, hm, hmatches.mpr rfl, hinput hlimit, hafter hlimitAfter fun _ => ?_⟩
  -- the alternative with the group
  refine ⟨[.text "/", .capture ⟨.param, "a"⟩, .text "/x/", .capture ⟨.param, "b"⟩, .text ".",
    .capture ⟨.param, "ext"⟩], by decide, ⟨⟨[1, 2, 5, 6, 7, 9], false⟩, ?_⟩, by decide +kernel⟩
  exact Cut.mem_list.mp (by decide +kernel)

/-- The group divides the text between the params, so that the second one keeps clear of it, and the
delimiter after the input completes it in that param. -/
theorem matches_with_trailing_divided :
    let o : Options := {}
    let patterns : List Pattern := [.source ":\"a\"b\x7b/:c\x7d"]
    let input := "xb/yb"
    ∃ plain m, Matcher.ofPatterns { o with trailing := false } patterns = .ok plain ∧
      Matcher.ofPatterns { o with trailing := true } patterns = .ok m ∧
      plain.route.find input.toList ≠ .error (.regex .backtrackLimit) ∧ plain.Matches input ∧
      m.route.find (input ++ o.delimiter).toList ≠ .error (.regex .backtrackLimit) ∧
      ¬ m.Matches (input ++ o.delimiter) := by
  intro o patterns input
  have hrunPlain : Matcher.finds { o with trailing := false } patterns input = .ok true := by
    decide +kernel
  have hrun : Matcher.finds { o with trailing := true } patterns (input ++ o.delimiter) =
      .ok false := by
    decide +kernel
  obtain ⟨plain, hplain, hlimitPlain, hmatches⟩ := Matcher.matches_of_finds hrunPlain
  obtain ⟨m, hm, hlimit, hmisses⟩ := Matcher.matches_of_finds hrun
  refine ⟨plain, m, hplain, hm, hlimitPlain, hmatches.mpr rfl, hlimit, fun h => ?_⟩
  exact absurd (hmisses.mp h) Bool.false_ne_true

end PathPattern
