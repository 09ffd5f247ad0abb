import Mathlib.Data.List.Forall2
import PathPattern.Proofs.Matching

/-!
A param never captures what separates it from its neighbours: neither the delimiter, nor the whole
text between it and the capture before it. Where that text is not kept clear of expressly, it has
the delimiter in it.
-/
namespace PathPattern

namespace Sequence

/-- The keys of a sequence, each with the pieces before it. -/
def placedKeys (before : List Piece) : List Piece → List (List Piece × Key)
  | [] => []
  | .text value :: rest => placedKeys (before ++ [.text value]) rest
  | .capture key :: rest => (before, key) :: placedKeys (before ++ [.capture key]) rest

def AtParams (p : List Piece → Prop) (before pieces : List Piece) : Prop :=
  ∀ place ∈ placedKeys before pieces, place.2.kind = .param → p place.1

instance (p : List Piece → Prop) [DecidablePred p] (before pieces : List Piece) :
    Decidable (AtParams p before pieces) :=
  inferInstanceAs (Decidable (∀ _ ∈ _, _))

/-- What a param took after these pieces is not empty, and neither the delimiter nor the text since
the last capture occurs in it. -/
structure KeepsClear (o : Options) (before : List Piece) (taken : List Char) : Prop where
  nonempty : taken ≠ []
  delimiter : o.delimiter ≠ "" → ¬ o.letters o.delimiter.toList <:+: o.letters taken
  text : ∀ texts, textsSince before = some texts →
    ¬ o.letters (texts.flatMap String.toList) <:+: o.letters taken

theorem map_snd_placedKeys (before pieces : List Piece) :
    (placedKeys before pieces).map Prod.snd = keys pieces := by
  induction pieces generalizing before with
  | nil => rfl
  | cons piece rest ih =>
      cases piece with
      | text value => exact ih (before ++ [.text value])
      | capture key => exact congrArg (key :: ·) (ih (before ++ [.capture key]))

theorem Decomposes.captures_fit {o : Options} {input : List Char} {before pieces : List Piece}
    {start : Nat} {stops : List Nat} (h : Decomposes o input before start pieces stops) :
    List.Forall₂
      (fun place span => span.stop ≤ input.length ∧
        Fits o input place.1 span.start span.stop (.capture place.2))
      (placedKeys before pieces) (captured start pieces stops) := by
  induction h with
  | nil => exact .nil
  | @cons before start piece rest stop stops hle hend hfits _ ih =>
      cases piece with
      | text value => exact ih
      | capture key => exact .cons ⟨hend, hfits⟩ ih

theorem separator_ne_nil {delimiter : List Char} (before : List Piece) {pieces : List Piece}
    {index : Nat} {es : List Regex}
    (h : items delimiter index (separator delimiter before) pieces = .ok es) :
    ∀ place ∈ placedKeys before pieces, separator delimiter place.1 ≠ some [] := by
  induction pieces generalizing before index es with
  | nil =>
      intro place hplace
      cases hplace
  | cons piece rest ih =>
      cases piece with
      | text value =>
          obtain ⟨more, hmore, -⟩ := items_text_eq_ok.mp h
          rw [← separator_text] at hmore
          exact ih _ hmore
      | capture key =>
          -- a capture that has nothing before it since the last one has no expression
          obtain ⟨hne, more, hmore, -⟩ := items_capture_eq_ok.mp h
          rw [← separator_capture delimiter before key] at hmore
          intro place hplace
          rcases List.mem_cons.mp hplace with rfl | hplace
          · exact hne
          · exact ih _ hmore place hplace

theorem letters_slice (o : Options) (span : Regex.Span) (input : List Char) :
    o.letters (span.slice input) = span.slice (o.letters input) := by
  unfold Regex.Span.slice Options.letters
  rw [List.map_take, List.map_drop]

theorem not_infix_slice {needle input : List Char} {span : Regex.Span} (hne : needle ≠ [])
    (h : ∀ i, span.start ≤ i → i < span.stop → ¬ OccursAt needle input i) :
    ¬ needle <:+: span.slice input := by
  rintro ⟨before, after, hslice⟩
  have hlength := congrArg List.length hslice
  have hpos := List.length_pos_of_ne_nil hne
  simp only [Regex.Span.slice, List.length_append, List.length_take] at hlength
  apply h (span.start + before.length) (Nat.le_add_right _ _) (by omega)
  have hbegins : before ++ needle <+: input.drop span.start := by
    refine List.IsPrefix.trans ?_ (List.take_prefix (span.stop - span.start) _)
    exact ⟨after, hslice⟩
  obtain ⟨rest, hrest⟩ := hbegins
  unfold OccursAt
  rw [← List.drop_drop, ← hrest, List.append_assoc, List.drop_left]
  exact List.prefix_append needle rest

theorem OccursLate.occurs {delimiter text : List Char} (h : OccursLate delimiter text) :
    delimiter ≠ [] ∧ delimiter <:+: text := by
  obtain ⟨hzero, p, -, hoccurs⟩ := h
  constructor
  · rintro rfl
    exact hzero (occursAt_nil text 0)
  · exact List.IsPrefix.isInfix hoccurs |>.trans (List.drop_suffix p text).isInfix

theorem OccursLate.occurs_flatMap {delimiter : List Char} {text : String} {texts : List String}
    (hmem : text ∈ texts) (h : OccursLate delimiter text.toList) :
    delimiter ≠ [] ∧ delimiter <:+: texts.flatMap String.toList := by
  refine ⟨h.occurs.1, h.occurs.2.trans ?_⟩
  rw [List.flatMap_def]
  exact List.infix_of_mem_flatten (List.mem_map_of_mem hmem)

/-- Characters that are clear of the delimiter and of what the sequence says to avoid are clear of
the whole text since the last capture. -/
theorem Fits.keepsClear {o : Options} {input : List Char} {before : List Piece} {name : String}
    {span : Regex.Span} (hstop : span.stop ≤ input.length)
    (hfits : Fits o input before span.start span.stop (.capture ⟨.param, name⟩))
    (hne : separator o.delimiter.toList before ≠ some []) :
    KeepsClear o before (span.slice input) := by
  obtain ⟨hlt, hclear⟩ := hfits
  have hdelimiter : o.delimiter ≠ "" →
      ¬ o.letters o.delimiter.toList <:+: o.letters (span.slice input) := by
    intro hsome
    have hletters : o.letters o.delimiter.toList ≠ [] := by
      simpa [Options.letters] using hsome
    rw [letters_slice]
    apply not_infix_slice hletters
    intro i hi hlti hoccurs
    exact (hclear i hi hlti).2.1 ⟨hletters, hoccurs⟩
  refine ⟨?_, hdelimiter, ?_⟩
  · intro hnil
    have hlength := congrArg List.length hnil
    simp only [Regex.Span.slice, List.length_take, List.length_drop, List.length_nil] at hlength
    omega
  · intro texts htexts
    unfold separator at hne hclear
    rw [htexts, Option.bind_some] at hne hclear
    by_cases hlate : ∃ text ∈ texts, OccursLate o.delimiter.toList text.toList
    · -- the text as a whole holds the delimiter, so that it cannot occur either
      obtain ⟨text, hmem, hoccurs⟩ := hlate
      obtain ⟨hsome, hwhole⟩ := hoccurs.occurs_flatMap hmem
      intro hcontra
      exact hdelimiter (by simpa using hsome) ((hwhole.map o.letter).trans hcontra)
    · rw [if_neg hlate] at hne hclear
      have hletters : o.letters (texts.flatMap String.toList) ≠ [] := by
        intro hnil
        exact hne (congrArg some (List.map_eq_nil_iff.mp hnil))
      rw [letters_slice]
      apply not_infix_slice hletters
      intro i hi hlti hoccurs
      exact (hclear i hi hlti).2.2 ⟨hletters, hoccurs⟩

theorem Decomposes.keepsClear {o : Options} {input : List Char} {pieces : List Piece}
    {stops : List Nat} {index : Nat} {es : List Regex} (h : Decomposes o input [] 0 pieces stops)
    (hitems : items o.delimiter.toList index none pieces = .ok es) {k : Nat} {before : List Piece}
    {name : String} {span : Regex.Span}
    (hplace : (placedKeys [] pieces)[k]? = some (before, ⟨.param, name⟩))
    (hspan : (captured 0 pieces stops)[k]? = some span) :
    KeepsClear o before (span.slice input) := by
  obtain ⟨hk, hplace⟩ := List.getElem?_eq_some_iff.mp hplace
  obtain ⟨hk', rfl⟩ := List.getElem?_eq_some_iff.mp hspan
  have hne := separator_ne_nil [] hitems _ (List.getElem_mem hk)
  obtain ⟨hstop, hfits⟩ := h.captures_fit.get hk hk'
  simp only [List.get_eq_getElem] at hstop hfits
  rw [hplace] at hfits hne
  exact hfits.keepsClear hstop hne

theorem map_snd_flatMap_placedKeys (sequences : List (List Piece)) :
    (sequences.flatMap (placedKeys [])).map Prod.snd = sequences.flatMap keys := by
  rw [List.map_flatMap]
  congr 1
  funext pieces
  exact map_snd_placedKeys [] pieces

end Sequence

open Regex in
theorem Route.group?_hitOfCut {o : Options} {count n : Nat} {pieces : List Piece} {cut : Cut}
    {span : Span} (h : (hitOfCut o (1 + count) pieces cut).group? (n + 1) = some span) :
    ∃ k, n = count + k ∧ (Sequence.captured 0 pieces cut.stops)[k]? = some span := by
  rw [hitOfCut, Sequence.group?_edges] at h
  split at h
  · rename_i hle
    obtain ⟨k, rfl⟩ := Nat.exists_eq_add_of_le (by omega : count ≤ n)
    have hk : count + k + 1 - (1 + count) = k := by omega
    rw [hk] at h
    exact ⟨k, rfl, h⟩
  · cases h

/-- In every match, each group of a param holds something, and neither the delimiter nor the whole
text since the capture before it occurs there. -/
theorem param_keeps_clear {o : Options} {patterns : List Pattern} {route : Route}
    {input : List Char} {hit : Regex.Hit} (hroute : Route.ofPatterns o patterns = .ok route)
    (hfind : route.find input = .ok (some hit)) :
    ∃ templates places, patterns.mapM (·.toTemplate o) = .ok templates ∧
      (templates.flatMap Template.alternatives).flatMap (Sequence.placedKeys []) = places ∧
      route.keys = places.map Prod.snd ∧
      ∀ n before name span, places[n]? = some (before, ⟨.param, name⟩) →
        hit.group? (n + 1) = some span →
        Sequence.KeepsClear o before (span.slice input) := by
  obtain ⟨templates, htemplates, hsynthesize⟩ := bind_eq_ok.mp hroute
  refine ⟨templates, _, htemplates, rfl, ?_, ?_⟩
  · obtain ⟨bs, -, -, rfl⟩ := Route.synthesize_eq_ok.mp hsynthesize
    exact (Sequence.map_snd_flatMap_placedKeys _).symm
  · intro n before name span hplace hgroup
    have hne : templates ≠ [] := by
      rintro rfl
      cases hplace
    obtain ⟨earlier, pieces, later, cut, hsplit, hcut, rfl⟩ :=
      Route.find_eq_some hne hsynthesize hfind
    obtain ⟨k, rfl, hspan⟩ := Route.group?_hitOfCut hgroup
    -- the group belongs to the alternative that matched, at place `k` of its keys
    have hcount : (earlier.flatMap Sequence.keys).length =
        (earlier.flatMap (Sequence.placedKeys [])).length := by
      rw [← Sequence.map_snd_flatMap_placedKeys, List.length_map]
    have hk : k < (Sequence.placedKeys [] pieces).length := by
      rw [hcut.parts.captures_fit.length_eq]
      exact (List.getElem?_eq_some_iff.mp hspan).1
    rw [hsplit, List.flatMap_append, List.flatMap_cons, hcount,
      List.getElem?_append_right (Nat.le_add_right _ _), Nat.add_sub_cancel_left,
      List.getElem?_append_left hk] at hplace
    obtain ⟨bs, hbs, -, -⟩ := Route.synthesize_eq_ok.mp hsynthesize
    have hpieces : pieces ∈ templates.flatMap Template.alternatives := by
      rw [hsplit]
      exact List.mem_append_right _ List.mem_cons_self
    obtain ⟨index, es, hes⟩ := Sequence.items_of_branches hbs hpieces
    exact hcut.parts.keepsClear hes hplace hspan

/-- The text before the second param reaches past a delimiter, and the input has another case. -/
theorem param_keeps_clear_crossing :
    let o : Options := {}
    let before : List Piece := [.text "/", .capture ⟨.param, "a"⟩, .text "-k/"]
    ∃ route hit, Route.ofPatterns o [.source "/:a-k/:b"] = .ok route ∧
      route.find "/x-y-K/z-k".toList = .ok (some hit) ∧ hit.group? 2 = some ⟨7, 10⟩ ∧
      Sequence.KeepsClear o before "z-k".toList := by
  intro o before
  have hrun : (do
      let route ← Route.ofPatterns o [.source "/:a-k/:b"]
      let found ← route.find "/x-y-K/z-k".toList
      return found.map (Regex.Hit.group? · 2)) = .ok (some (some ⟨7, 10⟩)) := by
    decide +kernel
  obtain ⟨route, hroute, hrun⟩ := bind_eq_ok.mp hrun
  obtain ⟨found, hfind, hgroups⟩ := bind_eq_ok.mp hrun
  obtain ⟨hit, rfl, hgroup⟩ := Option.map_eq_some_iff.mp (Except.ok.inj hgroups)
  obtain ⟨templates, places, htemplates, hplaces, -, hclear⟩ := param_keeps_clear hroute hfind
  have hread : ([.source "/:a-k/:b"] : List Pattern).mapM (·.toTemplate o) =
      .ok [[.text "/", .capture ⟨.param, "a"⟩, .text "-k/", .capture ⟨.param, "b"⟩]] := by
    decide +kernel
  rw [hread] at htemplates
  cases htemplates
  refine ⟨route, hit, hroute, hfind, hgroup, ?_⟩
  exact hclear 1 before "b" ⟨7, 10⟩ (by rw [← hplaces]; rfl) hgroup

end PathPattern
