import PathPattern.Proofs.Matching
import PathPattern.Proofs.RouteSource

/-!
The expression that a param repeats has four shapes and one meaning. Whatever characters the
delimiter and the text are made of, its source stands for itself and takes one character from a
clear place. So a repetition can stop wherever all places before are clear, and nowhere else.
-/
namespace PathPattern

namespace Regex

/-- What matching the expression from a place on and then `next` finds, if letters are compared as
the options say. -/
def findFrom (o : Options) (input : List Char) (e : Regex) (p : Nat) (next : Course) :
    Option Hit :=
  (((e.mapChars o.letter).followedBy (o.letters input).toArray next).attempt p).hit

theorem findFrom_eq (o : Options) {input : List Char} (e : Regex) {p : Nat} (next : Course)
    (hp : p ≤ input.length) :
    e.findFrom o input p next = firstWay (fun q => (next.attempt q).hit)
      ((e.mapChars o.letter).ways (o.letters input).toArray p) := by
  have hsize : p ≤ (o.letters input).toArray.size := by
    rw [List.size_toArray, o.length_letters]
    exact hp
  exact hit_followedBy _ _ next p hsize

theorem isSome_firstWay {next : Nat → Option Hit} {hits : List Hit} :
    (firstWay next hits).isSome ↔ ∃ h ∈ hits, (next h.stop).isSome := by
  simp [firstWay, List.findSome?_isSome_iff]

theorem isSome_hit_only_done (j q : Nat) :
    (((Course.only (· == j) .done).attempt q).hit).isSome ↔ q = j := by
  unfold Course.only
  by_cases h : q = j
  · simp [h, Course.done, Attempt.found]
  · simp [h, Attempt.failed]

end Regex

namespace Sequence

open Regex

theorem read_avoiding (delimiter text : List Char) :
    read (avoiding delimiter text).source = some (cat [avoiding delimiter text]) := by
  have hreads := ReadsAll.cons (reads_avoiding 1 delimiter text) (.nil 1)
  have hread := read_of_readsAll hreads
  rwa [cat, cat, source, source, List.append_nil] at hread

theorem read_plus_avoiding (delimiter text : List Char) :
    read ((avoiding delimiter text).source ++ ['+']) =
      some (cat [.plus (avoiding delimiter text)]) := by
  have hreads := (reads_avoiding 1 delimiter text).plus (isRepetition_avoiding delimiter text)
  have hread := read_of_readsAll (ReadsAll.cons hreads (.nil 1))
  rwa [cat, cat, source, source, source, List.append_nil] at hread

theorem findFrom_avoiding (o : Options) (delimiter text : List Char) {input : List Char} {p : Nat}
    (next : Course) (hp : p ≤ input.length) :
    (avoiding delimiter text).findFrom o input p next =
      if Clear (o.letters delimiter) (o.letters text) (o.letters input) p then
        (next.attempt (p + 1)).hit
      else none := by
  rw [findFrom_eq o _ next hp, mapChars_avoiding, ways_avoiding]
  change firstWay _ (if Clear (o.letters delimiter) (o.letters text) (o.letters input) p then _
    else _) = _
  split
  · exact firstWay_here _ (p + 1)
  · rfl

/-- Whatever comes next decides where a repetition stops, among the ends of the clear runs. -/
theorem isSome_findFrom_plus (o : Options) (delimiter text : List Char) {input : List Char}
    {p : Nat} (next : Course) (hp : p ≤ input.length) :
    ((plus (avoiding delimiter text)).findFrom o input p next).isSome ↔
      ∃ j, (p < j ∧ ∀ i, p ≤ i → i < j →
          Clear (o.letters delimiter) (o.letters text) (o.letters input) i) ∧
        (next.attempt j).hit.isSome := by
  have hstops : ∀ j, j ∈ stopsFrom (o.letters input).length (fun i => decide (Clear
      (o.letters delimiter) (o.letters text) (o.letters input) i)) p ↔
      p < j ∧ ∀ i, p ≤ i → i < j →
        Clear (o.letters delimiter) (o.letters text) (o.letters input) i := by
    intro j
    rw [mem_stopsFrom]
    simp only [decide_eq_true_eq]
    constructor
    · rintro ⟨hlt, -, hclear⟩
      exact ⟨hlt, hclear⟩
    · rintro ⟨hlt, hclear⟩
      -- the last place of the run is one of the input
      have hlast := (hclear (j - 1) (by omega) (by omega)).1
      exact ⟨hlt, by omega, hclear⟩
  rw [findFrom_eq o _ next hp, mapChars, mapChars_avoiding, ways_plus_avoiding, isSome_firstWay]
  simp only [List.mem_map, exists_exists_and_eq_and]
  exact exists_congr fun j => and_congr_left fun _ => hstops j

end Sequence

open Regex Sequence in
/-- The source of the expression stands for it, also under a repetition. It matches at a place just
if neither the delimiter nor the text begins there, and then takes one character; a repetition can
stop just where no place before it holds either of them. -/
theorem avoiding_one_meaning (o : Options) (text : List Char) {input : List Char} {p : Nat}
    (hp : p ≤ input.length) :
    let e := avoiding o.delimiter.toList text
    let clear := Clear (o.letters o.delimiter.toList) (o.letters text) (o.letters input)
    read e.source = some (cat [e]) ∧ read (e.source ++ ['+']) = some (cat [plus e]) ∧
      (∀ next, e.findFrom o input p next =
        if clear p then (next.attempt (p + 1)).hit else none) ∧
      ∀ j, ((plus e).findFrom o input p (.only (· == j) .done)).isSome ↔
        p < j ∧ ∀ i, p ≤ i → i < j → clear i := by
  intro e clear
  refine ⟨read_avoiding _ text, read_plus_avoiding _ text, ?_, ?_⟩
  · intro next
    exact findFrom_avoiding o _ text next hp
  · intro j
    rw [isSome_findFrom_plus o _ text _ hp]
    simp only [isSome_hit_only_done, exists_eq_right]
    rfl

open Regex Sequence in
/-- The delimiter begins at the second `K`, in another case, and the text right after it. -/
theorem avoiding_one_meaning_brackets :
    let o : Options := { delimiter := "k]" }
    let e := avoiding "k]".toList "]^".toList
    let stopsAt (j : Nat) := (plus e).findFrom o "xkK]^".toList 0 (.only (· == j) .done)
    e.source = "(?:(?!\\]\\^|k\\])[\\s\\S])".toList ∧ read e.source = some (cat [e]) ∧
      (stopsAt 2).isSome ∧ ¬ (stopsAt 3).isSome := by
  intro o e stopsAt
  have hp : 0 ≤ "xkK]^".toList.length := Nat.zero_le _
  obtain ⟨hread, -, -, hstops⟩ := avoiding_one_meaning o "]^".toList hp
  have hclear : ∀ i < 2, Clear (o.letters o.delimiter.toList) (o.letters "]^".toList)
      (o.letters "xkK]^".toList) i := by
    decide +kernel
  have htaken : ¬ Clear (o.letters o.delimiter.toList) (o.letters "]^".toList)
      (o.letters "xkK]^".toList) 2 := by
    decide +kernel
  refine ⟨by decide +kernel, hread, ?_, ?_⟩
  · exact (hstops 2).mpr ⟨by decide, fun i _ hi => hclear i hi⟩
  · intro hthree
    exact htaken (((hstops 3).mp hthree).2 2 (by decide) (by decide))

end PathPattern
