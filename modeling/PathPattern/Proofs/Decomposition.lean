import PathPattern.Options
import PathPattern.Proofs.Avoiding
import PathPattern.Text.CaseFold

/-!
What it means that a sequence matches an input: a beginning of the input is cut into one part for
each piece, and perhaps a trailing delimiter. Of all cuts, the one with the longest early parts is
the best. The cuts are also listed, best first.
-/
namespace PathPattern

/-- A character as it is compared. -/
def Options.letter (o : Options) : Char → Char :=
  if o.sensitive then id else Text.CaseFold.fold

def Options.letters (o : Options) (cs : List Char) : List Char := cs.map o.letter

@[simp] theorem Options.length_letters (o : Options) (cs : List Char) :
    (o.letters cs).length = cs.length := by
  simp only [letters, List.length_map]

def Piece.text? : Piece → Option String
  | .text value => some value
  | .capture _ => none

namespace Sequence

/-- The texts since the last capture, if there is a capture. -/
def textsSince (before : List Piece) : Option (List String) :=
  if before.any (·.key?.isSome) then
    some ((before.reverse.takeWhile (·.text?.isSome)).reverse.filterMap Piece.text?)
  else none

/-- The delimiter occurs in the text, but not at its start. -/
def OccursLate (delimiter text : List Char) : Prop :=
  ¬ OccursAt delimiter text 0 ∧ ∃ p < text.length, OccursAt delimiter text p

instance (delimiter text : List Char) : Decidable (OccursLate delimiter text) :=
  inferInstanceAs (Decidable (_ ∧ _))

/-- What separates the next capture from the last one. It does not count where one of its texts
has something before the first delimiter in it. -/
def separator (delimiter : List Char) (before : List Piece) : Option (List Char) :=
  (textsSince before).bind fun texts =>
    if ∃ text ∈ texts, OccursLate delimiter text.toList then none
    else some (texts.flatMap String.toList)

/-- The part of the input from `start` to `stop` fits the piece after these pieces. -/
def Fits (o : Options) (input : List Char) (before : List Piece) (start stop : Nat) : Piece → Prop
  | .text value => Regex.Span.slice ⟨start, stop⟩ (o.letters input) = o.letters value.toList
  | .capture ⟨.wildcard, _⟩ => start < stop
  | .capture ⟨.param, _⟩ => start < stop ∧ ∀ i, start ≤ i → i < stop →
      Clear (o.letters o.delimiter.toList)
        (o.letters ((separator o.delimiter.toList before).getD [])) (o.letters input) i

/-- The pieces, which come after others, fit consecutive parts that stop at these places. -/
inductive Decomposes (o : Options) (input : List Char) :
    List Piece → Nat → List Piece → List Nat → Prop
  | nil {before start} : Decomposes o input before start [] []
  | cons {before start piece rest stop stops} : start ≤ stop → stop ≤ input.length →
      Fits o input before start stop piece →
      Decomposes o input (before ++ [piece]) stop rest stops →
      Decomposes o input before start (piece :: rest) (stop :: stops)

def captured (start : Nat) : List Piece → List Nat → List Regex.Span
  | .text _ :: rest, stop :: stops => captured stop rest stops
  | .capture _ :: rest, stop :: stops => ⟨start, stop⟩ :: captured stop rest stops
  | _, _ => []

end Sequence

/-- Where each part of an input stops, and whether a delimiter follows them. -/
structure Cut where
  stops : List Nat
  trailing : Bool
  deriving DecidableEq, Repr

namespace Cut

def place (cut : Cut) : Nat := cut.stops.getLast?.getD 0

def stop (o : Options) (cut : Cut) : Nat :=
  if cut.trailing then cut.place + o.delimiter.toList.length else cut.place

/-- A trailing delimiter reaches the end of the input. The match does so too, or else a segment
ends with it and the end is not asked for. -/
structure Ends (o : Options) (input : List Char) (cut : Cut) : Prop where
  trailing : cut.trailing = true → o.trailing = true ∧ cut.stop o = input.length ∧
    OccursAt (o.letters o.delimiter.toList) (o.letters input) cut.place
  stop : cut.stop o = input.length ∨
    o.toEnd = false ∧ OccursAt (o.letters o.delimiter.toList) (o.letters input) (cut.stop o)

/-- The sequence matches the input with this cut. -/
structure Of (o : Options) (input : List Char) (pieces : List Piece) (cut : Cut) : Prop where
  parts : Sequence.Decomposes o input [] 0 pieces cut.stops
  ends : cut.Ends o input

/-- The first part that differs is longer, or none does and only the first cut takes a trailing
delimiter. -/
def Preferred (a b : Cut) : Prop :=
  b.stops < a.stops ∨ a.stops = b.stops ∧ a.trailing = true ∧ b.trailing = false

structure Best (o : Options) (input : List Char) (pieces : List Piece) (cut : Cut) : Prop where
  isCut : cut.Of o input pieces
  preferred : ∀ other : Cut, other.Of o input pieces → other ≠ cut → cut.Preferred other

end Cut

namespace Sequence

theorem textsSince_text (before : List Piece) (value : String) :
    textsSince (before ++ [.text value]) = (textsSince before).map (· ++ [value]) := by
  have hany : (before ++ [Piece.text value]).any (·.key?.isSome) =
      before.any (·.key?.isSome) := by
    simp only [List.any_append, List.any_cons, List.any_nil, Piece.key?, Option.isSome_none,
      Bool.or_false]
  unfold textsSince
  rw [hany]
  split
  · simp [Piece.text?]
  · rfl

theorem textsSince_capture (before : List Piece) (key : Key) :
    textsSince (before ++ [.capture key]) = some [] := by
  simp [textsSince, Piece.key?, Piece.text?]

theorem indexOf?_eq_zero {needle text : List Char} :
    Text.indexOf? needle text = some 0 ↔ OccursAt needle text 0 := by
  unfold OccursAt
  cases text with
  | nil =>
      rw [Text.indexOf?, List.drop_nil, List.prefix_nil]
      cases needle <;> simp
  | cons c rest =>
      rw [Text.indexOf?, List.drop_zero, ← List.isPrefixOf_iff_prefix]
      split
      · rename_i h
        simp [h]
      · rename_i h
        simp [h]

theorem isSome_indexOf? {needle text : List Char} :
    (Text.indexOf? needle text).isSome ↔ ∃ p ≤ text.length, OccursAt needle text p := by
  induction text with
  | nil =>
      have hzero : OccursAt needle [] 0 ↔ needle = [] := List.prefix_nil
      simp [Text.indexOf?, hzero]
  | cons c rest ih =>
      rw [Text.indexOf?]
      split
      · rename_i h
        refine ⟨fun _ => ⟨0, Nat.zero_le _, ?_⟩, fun _ => rfl⟩
        exact List.isPrefixOf_iff_prefix.mp h
      · rename_i h
        rw [Option.isSome_map, ih]
        constructor
        · rintro ⟨p, hp, hoccurs⟩
          exact ⟨p + 1, Nat.succ_le_succ hp, hoccurs⟩
        · rintro ⟨p, hp, hoccurs⟩
          cases p with
          | zero => exact absurd (List.isPrefixOf_iff_prefix.mpr hoccurs) h
          | succ p => exact ⟨p, Nat.le_of_succ_le_succ hp, hoccurs⟩

theorem crosses_iff {delimiter text : List Char} :
    crosses delimiter text = true ↔ OccursLate delimiter text := by
  have hany : crosses delimiter text = true ↔
      ¬ Text.indexOf? delimiter text = some 0 ∧ (Text.indexOf? delimiter text).isSome := by
    unfold crosses
    cases Text.indexOf? delimiter text with
    | none => simp
    | some n => simp [Nat.pos_iff_ne_zero]
  rw [hany, indexOf?_eq_zero, isSome_indexOf?]
  refine and_congr_right fun hzero => exists_congr fun p => and_congr_left fun hoccurs => ?_
  constructor
  · intro hle
    refine Nat.lt_of_le_of_ne hle ?_
    rintro rfl
    have hnil := hoccurs.length_le (Nat.le_refl _)
    have hempty : delimiter = [] := List.length_eq_zero_iff.mp (by omega)
    exact hzero (hempty ▸ occursAt_nil text 0)
  · exact Nat.le_of_lt

theorem separator_text (delimiter : List Char) (before : List Piece) (value : String) :
    separator delimiter (before ++ [.text value]) =
      avoidNext delimiter (separator delimiter before) value.toList := by
  unfold separator avoidNext
  rw [textsSince_text]
  cases textsSince before with
  | none => rfl
  | some texts =>
      simp only [Option.map_some, Option.bind_some, List.mem_append, List.mem_singleton,
        or_and_right, exists_or, exists_eq_left, List.flatMap_append, List.flatMap_cons,
        List.flatMap_nil, List.append_nil, crosses_iff]
      by_cases htexts : ∃ text ∈ texts, OccursLate delimiter text.toList
      · simp [htexts]
      · simp [htexts]

theorem separator_capture (delimiter : List Char) (before : List Piece) (key : Key) :
    separator delimiter (before ++ [.capture key]) = some [] := by
  rw [separator, textsSince_capture]
  rfl

/-- The places where a part for the piece can stop, the farthest first. -/
def stopsOf (o : Options) (input : List Char) (before : List Piece) (start : Nat) :
    Piece → List Nat
  | .text value =>
    if OccursAt (o.letters value.toList) (o.letters input) start then
      [start + value.toList.length]
    else []
  | .capture ⟨.wildcard, _⟩ => stopsFrom input.length (fun _ => true) start
  | .capture ⟨.param, _⟩ =>
    stopsFrom input.length
      (fun i => decide (Clear (o.letters o.delimiter.toList)
        (o.letters ((separator o.delimiter.toList before).getD [])) (o.letters input) i)) start

/-- All decompositions, the most preferred first. -/
def decompositions (o : Options) (input : List Char) (before : List Piece) (start : Nat) :
    List Piece → List (List Nat)
  | [] => [[]]
  | piece :: rest =>
    (stopsOf o input before start piece).flatMap fun stop =>
      (decompositions o input (before ++ [piece]) stop rest).map (stop :: ·)

theorem slice_eq_iff {text input : List Char} {start stop : Nat} (hstart : start ≤ stop)
    (hstop : stop ≤ input.length) :
    Regex.Span.slice ⟨start, stop⟩ input = text ↔
      OccursAt text input start ∧ stop = start + text.length := by
  unfold Regex.Span.slice OccursAt
  constructor
  · rintro rfl
    refine ⟨List.take_prefix _ _, ?_⟩
    simp only [List.length_take, List.length_drop]
    omega
  · rintro ⟨hoccurs, rfl⟩
    rw [Nat.add_sub_cancel_left]
    exact (List.prefix_iff_eq_take.mp hoccurs).symm

theorem mem_stopsOf {o : Options} {input : List Char} {before : List Piece} {start stop : Nat}
    (hstart : start ≤ input.length) {piece : Piece} :
    stop ∈ stopsOf o input before start piece ↔
      start ≤ stop ∧ stop ≤ input.length ∧ Fits o input before start stop piece := by
  match piece with
  | .text value =>
      simp only [stopsOf, Fits]
      constructor
      · intro hmem
        split at hmem
        · rename_i hoccurs
          have hlength := hoccurs.length_le (by simpa using hstart)
          rw [o.length_letters, o.length_letters] at hlength
          rw [List.mem_singleton] at hmem
          subst hmem
          refine ⟨Nat.le_add_right _ _, hlength, ?_⟩
          rw [slice_eq_iff (Nat.le_add_right _ _) (by simpa using hlength), o.length_letters]
          exact ⟨hoccurs, rfl⟩
        · cases hmem
      · rintro ⟨hle, hstop, hslice⟩
        rw [slice_eq_iff hle (by simpa using hstop), o.length_letters] at hslice
        rw [if_pos hslice.1, List.mem_singleton]
        exact hslice.2
  | .capture ⟨.wildcard, name⟩ =>
      simp only [stopsOf, Fits, mem_stopsFrom]
      constructor
      · rintro ⟨hlt, hstop, -⟩
        exact ⟨Nat.le_of_lt hlt, hstop, hlt⟩
      · rintro ⟨-, hstop, hlt⟩
        exact ⟨hlt, hstop, fun _ _ _ => trivial⟩
  | .capture ⟨.param, name⟩ =>
      simp only [stopsOf, Fits, mem_stopsFrom, decide_eq_true_eq]
      constructor
      · rintro ⟨hlt, hstop, hclear⟩
        exact ⟨Nat.le_of_lt hlt, hstop, hlt, hclear⟩
      · rintro ⟨-, hstop, hlt, hclear⟩
        exact ⟨hlt, hstop, hclear⟩

theorem mem_decompositions {o : Options} {input : List Char} {before : List Piece} {start : Nat}
    (hstart : start ≤ input.length) {pieces : List Piece} {stops : List Nat} :
    stops ∈ decompositions o input before start pieces ↔
      Decomposes o input before start pieces stops := by
  induction pieces generalizing before start stops with
  | nil =>
      rw [decompositions, List.mem_singleton]
      constructor
      · rintro rfl
        exact .nil
      · intro h
        cases h
        rfl
  | cons piece rest ih =>
      rw [decompositions, List.mem_flatMap]
      constructor
      · rintro ⟨stop, hstop, hmem⟩
        obtain ⟨more, hmore, rfl⟩ := List.mem_map.mp hmem
        obtain ⟨hle, hend, hfits⟩ := (mem_stopsOf hstart).mp hstop
        exact .cons hle hend hfits ((ih hend).mp hmore)
      · intro h
        cases h with
        | cons hle hend hfits hrest =>
            refine ⟨_, (mem_stopsOf hstart).mpr ⟨hle, hend, hfits⟩, ?_⟩
            exact List.mem_map.mpr ⟨_, (ih hend).mpr hrest, rfl⟩

theorem pairwise_stopsOf (o : Options) (input : List Char) (before : List Piece) (start : Nat)
    (piece : Piece) : (stopsOf o input before start piece).Pairwise (· > ·) := by
  match piece with
  | .text value =>
      rw [stopsOf]
      split
      · exact List.pairwise_singleton _ _
      · exact .nil
  | .capture ⟨.wildcard, name⟩ => exact pairwise_stopsFrom _ _ _
  | .capture ⟨.param, name⟩ => exact pairwise_stopsFrom _ _ _

/-- The list goes down in lexicographic order. -/
theorem pairwise_decompositions (o : Options) (input : List Char) (before : List Piece)
    (start : Nat) (pieces : List Piece) :
    (decompositions o input before start pieces).Pairwise fun a b => b < a := by
  induction pieces generalizing before start with
  | nil => exact List.pairwise_singleton _ _
  | cons piece rest ih =>
      refine List.pairwise_flatMap.mpr ⟨?_, (pairwise_stopsOf o input before start piece).imp ?_⟩
      · intro stop _
        refine List.pairwise_map.mpr ((ih (before ++ [piece]) stop).imp ?_)
        intro a b hab
        exact List.cons_lt_cons_iff.mpr (.inr ⟨rfl, hab⟩)
      · intro a b hab x hx y hy
        obtain ⟨xs, -, rfl⟩ := List.mem_map.mp hx
        obtain ⟨ys, -, rfl⟩ := List.mem_map.mp hy
        exact List.cons_lt_cons_iff.mpr (.inl hab)

end Sequence

namespace Cut

instance (o : Options) (input : List Char) (cut : Cut) : Decidable (cut.Ends o input) :=
  decidable_of_iff
    ((cut.trailing = true → o.trailing = true ∧ cut.stop o = input.length ∧
        OccursAt (o.letters o.delimiter.toList) (o.letters input) cut.place) ∧
      (cut.stop o = input.length ∨
        o.toEnd = false ∧ OccursAt (o.letters o.delimiter.toList) (o.letters input) (cut.stop o)))
    ⟨fun h => ⟨h.1, h.2⟩, fun h => ⟨h.1, h.2⟩⟩

def endings (o : Options) (input : List Char) (stops : List Nat) : List Cut :=
  [⟨stops, true⟩, ⟨stops, false⟩].filter fun cut => decide (cut.Ends o input)

/-- All cuts for a sequence, the best first. -/
def list (o : Options) (input : List Char) (pieces : List Piece) : List Cut :=
  (Sequence.decompositions o input [] 0 pieces).flatMap (endings o input)

theorem mem_endings {o : Options} {input : List Char} {stops : List Nat} {cut : Cut} :
    cut ∈ endings o input stops ↔ cut.stops = stops ∧ cut.Ends o input := by
  rw [endings, List.mem_filter, decide_eq_true_eq]
  refine and_congr_left' ?_
  obtain ⟨places, trailing⟩ := cut
  cases trailing <;> simp

theorem mem_list {o : Options} {input : List Char} {pieces : List Piece} {cut : Cut} :
    cut ∈ list o input pieces ↔ cut.Of o input pieces := by
  rw [list, List.mem_flatMap]
  constructor
  · rintro ⟨stops, hstops, hmem⟩
    obtain ⟨rfl, hends⟩ := mem_endings.mp hmem
    exact ⟨(Sequence.mem_decompositions (Nat.zero_le _)).mp hstops, hends⟩
  · intro h
    exact ⟨cut.stops, (Sequence.mem_decompositions (Nat.zero_le _)).mpr h.parts,
      mem_endings.mpr ⟨rfl, h.ends⟩⟩

theorem pairwise_list (o : Options) (input : List Char) (pieces : List Piece) :
    (list o input pieces).Pairwise Preferred := by
  refine List.pairwise_flatMap.mpr
    ⟨?_, (Sequence.pairwise_decompositions o input [] 0 pieces).imp ?_⟩
  · intro stops _
    refine List.Pairwise.filter _ (List.pairwise_pair.mpr ?_)
    exact .inr ⟨rfl, rfl, rfl⟩
  · intro a b hab x hx y hy
    refine .inl ?_
    rw [(mem_endings.mp hx).1, (mem_endings.mp hy).1]
    exact hab

theorem best_of_list {o : Options} {input : List Char} {pieces : List Piece} {cut : Cut}
    {rest : List Cut} (h : list o input pieces = cut :: rest) : cut.Best o input pieces := by
  have hpairwise := pairwise_list o input pieces
  rw [h, List.pairwise_cons] at hpairwise
  refine ⟨mem_list.mp (h ▸ List.mem_cons_self), ?_⟩
  intro other hother hne
  have hmem := mem_list.mpr hother
  rw [h, List.mem_cons] at hmem
  rcases hmem with rfl | hmem
  · exact absurd rfl hne
  · exact hpairwise.1 other hmem

end Cut

end PathPattern
