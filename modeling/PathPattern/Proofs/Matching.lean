import Mathlib.Data.List.Basic
import PathPattern.Proofs.Decomposition
import PathPattern.Proofs.Synthesis

/-!
What a route finds in an input: the best cut for the first of its alternatives that has one.
-/
namespace PathPattern

namespace Regex

theorem mapChars_cat (f : Char → Char) (es : List Regex) :
    (cat es).mapChars f = cat (es.map (mapChars f)) := by
  induction es with
  | nil => rfl
  | cons e es ih => rw [cat, mapChars, ih, List.map_cons, cat]

theorem mapChars_oneOf (f : Char → Char) (es : List Regex) :
    (oneOf es).mapChars f = oneOf (es.map (mapChars f)) := by
  induction es with
  | nil => rfl
  | cons e es ih =>
      cases es with
      | nil => rfl
      | cons next es =>
          rw [oneOf_cons_cons, mapChars, ih]
          rfl

theorem mapChars_chars (f : Char → Char) (cs : List Char) :
    (cs.map char).map (mapChars f) = (cs.map f).map char := by
  rw [List.map_map, List.map_map]
  rfl

theorem mapChars_literal (f : Char → Char) (cs : List Char) :
    (literal cs).mapChars f = literal (cs.map f) := by
  rw [literal, mapChars_cat, mapChars_chars, literal]

theorem ways_cat_singleton (input : Array Char) (e : Regex) (p : Nat) :
    (cat [e]).ways input p = e.ways input p := by
  rw [ways_cat_cons]
  simp [cat, ways]

theorem ways_oneOf (input : Array Char) {es : List Regex} (h : es ≠ []) (p : Nat) :
    (oneOf es).ways input p = es.flatMap fun e => e.ways input p := by
  induction es with
  | nil => exact absurd rfl h
  | cons e es ih =>
      cases es with
      | nil => simp [oneOf]
      | cons next es =>
          rw [oneOf_cons_cons, ways, ih (List.cons_ne_nil _ _)]
          rfl

end Regex

namespace Sequence

open Regex

theorem mapChars_oneBut (f : Char → Char) (cs : List Char) :
    (oneBut cs).mapChars f = oneBut (cs.map f) := by
  cases cs <;> rfl

theorem mapChars_avoiding (f : Char → Char) (delimiter text : List Char) :
    (avoiding delimiter text).mapChars f = avoiding (delimiter.map f) (text.map f) := by
  unfold avoiding
  simp only [List.length_map]
  split
  · split
    · rw [mapChars_oneBut, List.map_append]
    · simp [mapChars, mapChars_cat, mapChars_literal, mapChars_oneBut]
  · split
    · simp [mapChars, mapChars_cat, mapChars_literal, mapChars_oneBut]
    · simp [mapChars, mapChars_cat, mapChars_literal, mapChars_oneOf]

/-- A capture takes the parts that fit it. -/
theorem ways_body (o : Options) (input : List Char) (before : List Piece) (start : Nat)
    (key : Key) :
    ((body o.delimiter.toList (separator o.delimiter.toList before) key.kind).mapChars
        o.letter).ways (o.letters input).toArray start =
      (stopsOf o input before start (.capture key)).map fun q => ⟨q, []⟩ := by
  obtain ⟨kind, name⟩ := key
  cases kind with
  | param =>
      rw [body, mapChars_cat, List.map_cons, List.map_nil, ways_cat_singleton, mapChars,
        mapChars_avoiding, ways_plus_avoiding, o.length_letters]
      rfl
  | wildcard =>
      rw [body, mapChars_cat, List.map_cons, List.map_nil, ways_cat_singleton, mapChars, mapChars,
        ways, List.size_toArray, o.length_letters]
      apply roundWays_stopsFrom
      intro p
      rw [ways, takeWays_toArray]
      by_cases hp : p < input.length <;> simp [hp]

/-- The edges of groups that took these parts, numbered from `index` on. -/
def edges (index : Nat) : List Span → List Edge
  | [] => []
  | s :: rest => .opened index s.start :: .closed index s.stop :: edges (index + 1) rest

/-- The match that a decomposition from `start` on stands for. -/
def hitOf (index start : Nat) (pieces : List Piece) (stops : List Nat) : Hit :=
  ⟨stops.getLast?.getD start, edges index (captured start pieces stops)⟩

theorem hitOf_text (index start stop : Nat) (value : String) (pieces : List Piece)
    (stops : List Nat) :
    hitOf index start (.text value :: pieces) (stop :: stops) = hitOf index stop pieces stops := by
  simp [hitOf, captured, List.getLast?_cons]

theorem hitOf_capture (index start stop : Nat) (key : Key) (pieces : List Piece)
    (stops : List Nat) :
    hitOf index start (.capture key :: pieces) (stop :: stops) =
      Hit.andThen ⟨stop, [.opened index start, .closed index stop]⟩
        (hitOf (index + 1) stop pieces stops) := by
  simp [hitOf, captured, edges, List.getLast?_cons, Hit.andThen]

/-- The expressions of a sequence match by its decompositions. -/
theorem ways_items (o : Options) (input : List Char) {pieces : List Piece} {before : List Piece}
    {index start : Nat} {es : List Regex}
    (h : items o.delimiter.toList index (separator o.delimiter.toList before) pieces = .ok es) :
    (cat (es.map (mapChars o.letter))).ways (o.letters input).toArray start =
      (decompositions o input before start pieces).map (hitOf index start pieces) := by
  induction pieces generalizing before index start es with
  | nil =>
      cases h
      rfl
  | cons piece rest ih =>
      cases piece with
      | text value =>
          obtain ⟨more, hmore, rfl⟩ := items_text_eq_ok.mp h
          rw [← separator_text] at hmore
          rw [List.map_append, mapChars_chars, ways_chars, decompositions, stopsOf]
          change (if OccursAt (o.letters value.toList) _ _ then _ else _) = _
          split
          · rw [ih hmore, List.length_map, List.flatMap_singleton, List.map_map]
            congr 1
            funext stops
            exact (hitOf_text index start _ value rest stops).symm
          · rfl
      | capture key =>
          obtain ⟨-, more, hmore, rfl⟩ := items_capture_eq_ok.mp h
          -- what `items` carries along is what the pieces before the next one say
          rw [← separator_capture o.delimiter.toList before key] at hmore
          rw [List.map_cons, ways_cat_cons, mapChars, ways, ways_body, decompositions,
            List.map_map, List.flatMap_map, List.map_flatMap]
          congr 1
          funext stop
          rw [List.map_map]
          change List.map _ ((cat _).ways _ stop) = _
          rw [ih hmore, List.map_map]
          congr 1
          funext stops
          exact (hitOf_capture index start stop key rest stops).symm

theorem filterMap_edges {f : Edge → Option Nat} {g : Span → Nat} {j : Nat}
    (hf : ∀ i (s : Span), [Edge.opened i s.start, .closed i s.stop].filterMap f =
      if i = j then [g s] else [])
    (index : Nat) (spans : List Span) :
    (edges index spans).filterMap f =
      ((if index ≤ j then spans[j - index]? else none).map g).toList := by
  induction spans generalizing index with
  | nil => simp [edges]
  | cons s rest ih =>
      change ([Edge.opened index s.start, .closed index s.stop] ++ edges (index + 1) rest).filterMap
        f = _
      rw [List.filterMap_append, hf, ih]
      by_cases hindex : index = j
      · subst hindex
        have hlater : ¬ index + 1 ≤ index := by omega
        simp [hlater]
      · by_cases hle : index ≤ j
        · obtain ⟨n, rfl⟩ := Nat.exists_eq_add_of_lt (Nat.lt_of_le_of_ne hle hindex)
          have hrest : index + n + 1 - (index + 1) = n := by omega
          have hall : index + n + 1 - index = n + 1 := by omega
          rw [if_neg hindex, if_pos hle, if_pos (by omega), hrest, hall, List.getElem?_cons_succ,
            List.nil_append]
        · rw [if_neg hindex, if_neg hle, if_neg (by omega), List.nil_append]

theorem group?_edges (stop index j : Nat) (spans : List Span) :
    Hit.group? ⟨stop, edges index spans⟩ j = if index ≤ j then spans[j - index]? else none := by
  unfold Hit.group?
  dsimp only
  rw [filterMap_edges (g := Span.start), filterMap_edges (g := Span.stop)]
  · cases if index ≤ j then spans[j - index]? else none <;> rfl
  · intro i s
    by_cases hi : i = j <;> simp [List.filterMap_cons, Edge.closed?, hi]
  · intro i s
    by_cases hi : i = j <;> simp [List.filterMap_cons, Edge.opened?, hi]

end Sequence

namespace Cut

open Regex

theorem ends_trailing {o : Options} {input : List Char} {stops : List Nat} :
    Ends o input ⟨stops, true⟩ ↔
      o.trailing = true ∧ OccursAt (o.letters o.delimiter.toList) (o.letters input)
          (stops.getLast?.getD 0) ∧
        stops.getLast?.getD 0 + o.delimiter.toList.length = input.length := by
  constructor
  · intro h
    obtain ⟨htrailing, hstop, hoccurs⟩ := h.trailing rfl
    exact ⟨htrailing, hoccurs, hstop⟩
  · rintro ⟨htrailing, hoccurs, hstop⟩
    exact ⟨fun _ => ⟨htrailing, hstop, hoccurs⟩, .inl hstop⟩

theorem ends_plain {o : Options} {input : List Char} {stops : List Nat} :
    Ends o input ⟨stops, false⟩ ↔
      stops.getLast?.getD 0 = input.length ∨
        o.toEnd = false ∧ OccursAt (o.letters o.delimiter.toList) (o.letters input)
          (stops.getLast?.getD 0) := by
  constructor
  · intro h
    exact h.stop
  · intro h
    exact ⟨fun htrailing => absurd htrailing Bool.false_ne_true, h⟩

theorem ways_finish (input : List Char) (p : Nat) :
    finish.ways input.toArray p = if p = input.length then [⟨p, []⟩] else [] := by
  rw [ways, List.size_toArray]

theorem ways_closing (o : Options) (input : List Char) (p : Nat) :
    ((if o.toEnd then finish
        else ahead (oneOf [literal o.delimiter.toList, cat [finish]])).mapChars o.letter).ways
        (o.letters input).toArray p =
      if p = input.length ∨
          o.toEnd = false ∧ OccursAt (o.letters o.delimiter.toList) (o.letters input) p then
        [⟨p, []⟩]
      else [] := by
  cases o.toEnd with
  | true => simp [mapChars, ways_finish]
  | false =>
      rw [if_neg Bool.false_ne_true, mapChars, mapChars_oneOf, ways,
        ways_oneOf _ (by simp)]
      simp only [List.map_cons, List.map_nil, List.flatMap_cons, List.flatMap_nil, List.append_nil,
        mapChars_literal, mapChars_cat, ways_cat_singleton, mapChars, ways_literal, ways_finish,
        o.length_letters]
      change Option.toList (Option.map _ (List.head?
        ((if OccursAt (o.letters o.delimiter.toList) _ p then _ else _) ++ _))) = _
      by_cases hoccurs : OccursAt (o.letters o.delimiter.toList) (o.letters input) p
      · simp [hoccurs]
      · by_cases hp : p = input.length
        · subst hp
          simp [hoccurs]
        · simp [hoccurs, hp]

theorem ways_trailing (o : Options) (input : List Char) (p : Nat) :
    ((opt (group (cat (o.delimiter.toList.map char ++ [finish])))).mapChars o.letter).ways
        (o.letters input).toArray p =
      (if OccursAt (o.letters o.delimiter.toList) (o.letters input) p ∧
          p + o.delimiter.toList.length = input.length then
        [⟨p + o.delimiter.toList.length, []⟩]
      else []) ++ [⟨p, []⟩] := by
  rw [mapChars, mapChars, mapChars_cat, List.map_append, mapChars_chars, ways, ways, ways_chars,
    List.map_cons, List.map_nil, ways_cat_singleton, mapChars, ways_finish, List.length_map,
    o.length_letters]
  change (if OccursAt (o.letters o.delimiter.toList) _ p then _ else _) ++ _ = _
  by_cases hoccurs : OccursAt (o.letters o.delimiter.toList) (o.letters input) p
  · simp [hoccurs]
  · simp [hoccurs]

theorem ways_ending (o : Options) (input : List Char) (stops : List Nat) :
    (cat ((Route.ending o).map (mapChars o.letter))).ways (o.letters input).toArray
        (stops.getLast?.getD 0) =
      (endings o input stops).map fun cut => ⟨cut.stop o, []⟩ := by
  have hendings : endings o input stops =
      (if Ends o input ⟨stops, true⟩ then [⟨stops, true⟩] else []) ++
        (if Ends o input ⟨stops, false⟩ then [⟨stops, false⟩] else []) := by
    simp only [endings, List.filter_cons, List.filter_nil, decide_eq_true_eq]
    split <;> rfl
  have hclosing : (cat ([if o.toEnd then finish
        else ahead (oneOf [literal o.delimiter.toList, cat [finish]])].map
          (mapChars o.letter))).ways (o.letters input).toArray (stops.getLast?.getD 0) =
      (if Ends o input ⟨stops, false⟩ then [(⟨stops, false⟩ : Cut)] else []).map
        fun cut => ⟨cut.stop o, []⟩ := by
    rw [List.map_cons, List.map_nil, ways_cat_singleton, ways_closing]
    simp only [ends_plain]
    split <;> rfl
  rw [hendings, List.map_append, ← hclosing]
  unfold Route.ending
  dsimp only
  by_cases htrailing : o.trailing = true
  · rw [if_pos htrailing, List.singleton_append, List.map_cons, ways_cat_cons, ways_trailing,
      List.flatMap_append, List.flatMap_singleton, map_here_andThen]
    congr 1
    by_cases hends : Ends o input ⟨stops, true⟩
    · have hparts := (ends_trailing.mp hends).2
      rw [if_pos hends, if_pos hparts, List.flatMap_singleton, map_here_andThen, List.map_cons,
        List.map_nil, ways_cat_singleton, ways_closing, if_pos (.inl hparts.2)]
      rfl
    · rw [if_neg hends, if_neg fun hparts => hends (ends_trailing.mpr ⟨htrailing, hparts⟩)]
      rfl
  · rw [if_neg htrailing, List.nil_append, if_neg fun hends => htrailing (ends_trailing.mp hends).1]
    rfl

end Cut

namespace Route

open Regex

/-- The match that a cut stands for, if the first group has this number. -/
def hitOfCut (o : Options) (index : Nat) (pieces : List Piece) (cut : Cut) : Hit :=
  ⟨cut.stop o, Sequence.edges index (Sequence.captured 0 pieces cut.stops)⟩

def hits (o : Options) (input : List Char) (index : Nat) : List (List Piece) → List Hit
  | [] => []
  | pieces :: rest =>
    (Cut.list o input pieces).map (hitOfCut o index pieces) ++
      hits o input (index + (Sequence.keys pieces).length) rest

theorem ways_branches (o : Options) (input : List Char) {sequences : List (List Piece)}
    {index : Nat} {bs : List Regex}
    (h : Sequence.branches o.delimiter.toList index sequences = .ok bs) :
    ((bs.map (mapChars o.letter)).flatMap fun e => e.ways (o.letters input).toArray 0).flatMap
        (fun hit => ((cat ((ending o).map (mapChars o.letter))).ways (o.letters input).toArray
          hit.stop).map hit.andThen) =
      hits o input index sequences := by
  induction sequences generalizing index bs with
  | nil =>
      cases h
      rfl
  | cons pieces rest ih =>
      obtain ⟨es, more, hes, hmore, rfl⟩ := Sequence.branches_cons_eq_ok.mp h
      have hitems : Sequence.items o.delimiter.toList index
          (Sequence.separator o.delimiter.toList []) pieces = .ok es := hes
      rw [List.map_cons, List.flatMap_cons, List.flatMap_append, ih hmore, hits, mapChars_cat,
        Sequence.ways_items o input hitems, List.flatMap_map, Cut.list, List.map_flatMap]
      congr 2
      funext stops
      change List.map _ ((cat _).ways _ (stops.getLast?.getD 0)) = _
      rw [Cut.ways_ending, List.map_map]
      apply List.map_congr_left
      intro cut hcut
      rw [← (Cut.mem_endings.mp hcut).1]
      simp [hitOfCut, Sequence.hitOf, Hit.andThen]

theorem ways_frame (o : Options) (input : List Char) {bs : List Regex} (hbs : bs ≠ []) :
    ((frame o bs).mapChars o.letter).ways (o.letters input).toArray 0 =
      ((bs.map (mapChars o.letter)).flatMap fun e => e.ways (o.letters input).toArray 0).flatMap
        (fun hit => ((cat ((ending o).map (mapChars o.letter))).ways (o.letters input).toArray
          hit.stop).map hit.andThen) := by
  rw [frame, mapChars_cat, List.map_append, List.map_cons, List.map_cons, List.map_nil,
    List.cons_append, List.singleton_append, ways_cat_cons, mapChars, ways, if_pos rfl,
    List.flatMap_singleton, map_here_andThen, ways_cat_cons, mapChars, ways, mapChars_oneOf,
    ways_oneOf _ (by simpa using hbs)]

theorem hits_head? (o : Options) (input : List Char) (index : Nat)
    (sequences : List (List Piece)) :
    ((hits o input index sequences).head? = none ∧
        ∀ pieces ∈ sequences, Cut.list o input pieces = []) ∨
      ∃ before pieces after cut rest,
        (hits o input index sequences).head? =
            some (hitOfCut o (index + (before.flatMap Sequence.keys).length) pieces cut) ∧
          sequences = before ++ pieces :: after ∧
          (∀ earlier ∈ before, Cut.list o input earlier = []) ∧
          Cut.list o input pieces = cut :: rest := by
  induction sequences generalizing index with
  | nil => exact .inl ⟨rfl, fun pieces hpieces => nomatch hpieces⟩
  | cons first later ih =>
      cases hlist : Cut.list o input first with
      | cons cut rest =>
          refine .inr ⟨[], first, later, cut, rest, ?_, rfl, ?_, hlist⟩
          · rw [hits, hlist]
            rfl
          · intro earlier hearlier
            cases hearlier
      | nil =>
          -- a sequence without a cut only moves the numbers of the later groups on
          have hskip : hits o input index (first :: later) =
              hits o input (index + (Sequence.keys first).length) later := by
            rw [hits, hlist]
            rfl
          rw [hskip]
          rcases ih (index + (Sequence.keys first).length) with
            ⟨hnone, hall⟩ | ⟨before, pieces, after, cut, rest, hsome, hsplit, hbefore, hcut⟩
          · refine .inl ⟨hnone, ?_⟩
            intro pieces hpieces
            rcases List.mem_cons.mp hpieces with rfl | hpieces
            · exact hlist
            · exact hall pieces hpieces
          · refine .inr ⟨first :: before, pieces, after, cut, rest, ?_, ?_, ?_, hcut⟩
            · rw [hsome, List.flatMap_cons, List.length_append, Nat.add_assoc]
            · rw [hsplit, List.cons_append]
            · intro earlier hearlier
              rcases List.mem_cons.mp hearlier with rfl | hearlier
              · exact hlist
              · exact hbefore earlier hearlier

/-- A route that does not give up finds the first match of its sequences. -/
theorem find_eq {o : Options} {templates : List Template} {route : Route} {input : List Char}
    (hne : templates ≠ []) (hroute : synthesize o templates = .ok route)
    (hlimit : route.find input ≠ .error (.regex .backtrackLimit)) :
    route.find input = .ok (hits o input 1 (templates.flatMap Template.alternatives)).head? := by
  obtain ⟨bs, hbs, -, rfl⟩ := synthesize_eq_ok.mp hroute
  have hsome : bs ≠ [] := by
    rintro rfl
    have hlength := Sequence.length_branches hbs
    exact Template.flatMap_alternatives_ne_nil hne (List.length_eq_zero_iff.mp hlength.symm)
  have hfind : find ⟨frame o bs, (templates.flatMap Template.alternatives).flatMap Sequence.keys,
      o.sensitive⟩ input =
      if (frame o bs).looksAhead &&
        decide (retryLimit < (((frame o bs).mapChars o.letter).search (o.letters input)).retries)
      then .error (.regex .backtrackLimit)
      else .ok (((frame o bs).mapChars o.letter).search (o.letters input)).hit := rfl
  rw [hfind] at hlimit ⊢
  split at hlimit
  · exact absurd rfl hlimit
  · rename_i hretries
    rw [if_neg hretries, hit_search, ways_frame o input hsome, ways_branches o input hbs]

theorem find_ne_limit {route : Route} {input : List Char} {found? : Option Hit}
    (h : route.find input = .ok found?) :
    route.find input ≠ .error (.regex .backtrackLimit) := by
  intro hlimit
  rw [h] at hlimit
  cases hlimit

theorem find_eq_some {o : Options} {templates : List Template} {route : Route} {input : List Char}
    {hit : Hit} (hne : templates ≠ []) (hroute : synthesize o templates = .ok route)
    (hfind : route.find input = .ok (some hit)) :
    ∃ before pieces after cut,
      templates.flatMap Template.alternatives = before ++ pieces :: after ∧
      Cut.Of o input pieces cut ∧
      hit = hitOfCut o (1 + (before.flatMap Sequence.keys).length) pieces cut := by
  rw [find_eq hne hroute (find_ne_limit hfind), Except.ok.injEq] at hfind
  rcases hits_head? o input 1 (templates.flatMap Template.alternatives) with
    ⟨hnone, -⟩ | ⟨before, pieces, after, cut, rest, hsome, hsplit, -, hcut⟩
  · rw [hnone] at hfind
    cases hfind
  · rw [hsome, Option.some.injEq] at hfind
    exact ⟨before, pieces, after, cut, hsplit, (Cut.best_of_list hcut).isCut, hfind.symm⟩

/-- The route finds a match. -/
def Matches (r : Route) (input : List Char) : Prop := ∃ hit, r.find input = .ok (some hit)

/-- A route that does not give up matches just when one of its alternatives has a cut. -/
theorem matches_iff {o : Options} {templates : List Template} {route : Route} {input : List Char}
    (hne : templates ≠ []) (hroute : synthesize o templates = .ok route)
    (hlimit : route.find input ≠ .error (.regex .backtrackLimit)) :
    route.Matches input ↔
      ∃ pieces ∈ templates.flatMap Template.alternatives, ∃ cut : Cut, cut.Of o input pieces := by
  constructor
  · rintro ⟨hit, hfind⟩
    obtain ⟨before, pieces, after, cut, hsplit, hcut, -⟩ := find_eq_some hne hroute hfind
    refine ⟨pieces, ?_, cut, hcut⟩
    rw [hsplit]
    exact List.mem_append_right _ List.mem_cons_self
  · rintro ⟨pieces, hpieces, cut, hcut⟩
    have hfind := find_eq hne hroute hlimit
    rcases hits_head? o input 1 (templates.flatMap Template.alternatives) with
      ⟨-, hall⟩ | ⟨before, first, after, best, rest, hsome, -, -, -⟩
    · have hmem := Cut.mem_list.mpr hcut
      rw [hall pieces hpieces] at hmem
      cases hmem
    · rw [hsome] at hfind
      exact ⟨_, hfind⟩

theorem map_group?_edges (stop count more : Nat) (spans : List Span) :
    (List.range (count + (spans.length + more))).map
        (fun n => Hit.group? ⟨stop, Sequence.edges (1 + count) spans⟩ (n + 1)) =
      List.replicate count none ++ (spans.map some ++ List.replicate more none) := by
  have hgroup : ∀ n, Hit.group? ⟨stop, Sequence.edges (1 + count) spans⟩ (n + 1) =
      if count ≤ n then spans[n - count]? else none := by
    intro n
    have hsub : n + 1 - (1 + count) = n - count := by omega
    have hle : 1 + count ≤ n + 1 ↔ count ≤ n := by omega
    rw [Sequence.group?_edges, hsub]
    simp only [hle]
  simp only [hgroup]
  rw [List.range_add, List.range_add, List.map_append, List.map_append, List.map_append,
    List.map_map, List.map_map, List.map_map]
  congr 1
  · refine List.eq_replicate_iff.mpr ⟨by simp, ?_⟩
    intro span hspan
    obtain ⟨n, hn, rfl⟩ := List.mem_map.mp hspan
    exact if_neg (Nat.not_le.mpr (List.mem_range.mp hn))
  · congr 1
    · apply List.ext_getElem
      · simp
      · intro n hn _
        have hlt : n < spans.length := by simpa using hn
        simp [hlt]
    · refine List.eq_replicate_iff.mpr ⟨by simp, ?_⟩
      intro span hspan
      obtain ⟨n, -, rfl⟩ := List.mem_map.mp hspan
      simp

end Route

theorem Sequence.Decomposes.length_captured {o : Options} {input : List Char}
    {before pieces : List Piece} {start : Nat} {stops : List Nat}
    (h : Decomposes o input before start pieces stops) :
    (captured start pieces stops).length = (keys pieces).length := by
  induction h with
  | nil => rfl
  | @cons before start piece rest stop stops _ _ _ _ ih =>
      cases piece with
      | text value => exact ih
      | capture key =>
          change (captured stop rest stops).length + 1 = (keys rest).length + 1
          rw [ih]

/-- A route matches by the best cut for the first of its alternatives that has one, and not at all
if none has. The groups of that alternative take the parts of its captures; those of the others
take no part. -/
theorem find_best_cut {o : Options} {templates : List Template} {route : Route}
    {input : List Char} (hne : templates ≠ [])
    (hroute : Route.ofPatterns o (templates.map .template) = .ok route)
    (hlimit : route.find input ≠ .error (.regex .backtrackLimit)) :
    ∃ found, route.find input = .ok found ∧
      (found = none ↔
        ∀ pieces ∈ templates.flatMap Template.alternatives, ∀ cut : Cut,
          ¬ cut.Of o input pieces) ∧
      ∀ hit, found = some hit →
        ∃ (before : List (List Piece)) (pieces : List Piece) (after : List (List Piece))
            (cut : Cut),
          templates.flatMap Template.alternatives = before ++ pieces :: after ∧
          (∀ earlier ∈ before, ∀ other : Cut, ¬ other.Of o input earlier) ∧
          cut.Best o input pieces ∧
          route.spans hit =
            some ⟨0, cut.stop o⟩ :: ((before.flatMap Sequence.keys).map fun _ => none) ++
              (Sequence.captured 0 pieces cut.stops).map some ++
              ((after.flatMap Sequence.keys).map fun _ => none) := by
  rw [Route.ofPatterns_templates] at hroute
  have hno : ∀ pieces, Cut.list o input pieces = [] ↔ ∀ cut : Cut, ¬ cut.Of o input pieces := by
    intro pieces
    rw [List.eq_nil_iff_forall_not_mem]
    exact forall_congr' fun cut => not_congr Cut.mem_list
  refine ⟨_, Route.find_eq hne hroute hlimit, ?_⟩
  obtain ⟨bs, -, -, rfl⟩ := Route.synthesize_eq_ok.mp hroute
  rcases Route.hits_head? o input 1 (templates.flatMap Template.alternatives) with
    ⟨hnone, hall⟩ | ⟨before, pieces, after, cut, rest, hsome, hsplit, hbefore, hcut⟩
  · rw [hnone]
    constructor
    · refine ⟨fun _ pieces hpieces => ?_, fun _ => rfl⟩
      exact (hno pieces).mp (hall pieces hpieces)
    · intro hit h
      cases h
  · have hbest := Cut.best_of_list hcut
    rw [hsome]
    constructor
    · refine ⟨fun h => absurd h (Option.some_ne_none _), fun h => ?_⟩
      have hmem : pieces ∈ templates.flatMap Template.alternatives := by simp [hsplit]
      exact absurd hbest.isCut (h pieces hmem cut)
    · rintro hit h
      cases h
      refine ⟨before, pieces, after, cut, hsplit, ?_, hbest, ?_⟩
      · intro earlier hearlier
        exact (hno earlier).mp (hbefore earlier hearlier)
      · rw [Route.spans, hsplit, List.flatMap_append, List.flatMap_cons, List.length_append,
          List.length_append, ← hbest.isCut.parts.length_captured, List.map_const',
          List.map_const', List.cons_append, List.cons_append, List.append_assoc]
        exact congrArg _ (Route.map_group?_edges _ _ _ _)

/-- A group that is kept, a text between two params, and letters of another case. -/
theorem find_best_cut_flights :
    let o : Options := {}
    let templates : List Template :=
      [[.text "/Flights", .group [.text "/", .capture ⟨.param, "from"⟩, .text "-",
        .capture ⟨.param, "to"⟩], .text "/", .capture ⟨.wildcard, "rest"⟩]]
    let input := "/flights/a-b/x/y/".toList
    ∃ route hit, Route.ofPatterns o (templates.map .template) = .ok route ∧
      route.find input = .ok (some hit) ∧
      route.spans hit = [some ⟨0, 17⟩, some ⟨9, 10⟩, some ⟨11, 12⟩, some ⟨13, 17⟩, none] ∧
      ∃ (before : List (List Piece)) (pieces : List Piece) (after : List (List Piece)) (cut : Cut),
        templates.flatMap Template.alternatives = before ++ pieces :: after ∧
        (∀ earlier ∈ before, ∀ other : Cut, ¬ other.Of o input earlier) ∧
        cut.Best o input pieces ∧
        route.spans hit =
          some ⟨0, cut.stop o⟩ :: ((before.flatMap Sequence.keys).map fun _ => none) ++
            (Sequence.captured 0 pieces cut.stops).map some ++
            ((after.flatMap Sequence.keys).map fun _ => none) := by
  intro o templates input
  have hrun : (do
      let route ← Route.ofPatterns o (templates.map .template)
      let found ← route.find input
      return found.map route.spans) =
      .ok (some [some ⟨0, 17⟩, some ⟨9, 10⟩, some ⟨11, 12⟩, some ⟨13, 17⟩, none]) := by
    decide +kernel
  obtain ⟨route, hroute, hrun⟩ := bind_eq_ok.mp hrun
  obtain ⟨found, hfound, hspans⟩ := bind_eq_ok.mp hrun
  obtain ⟨hit, rfl, hhit⟩ := Option.map_eq_some_iff.mp (Except.ok.inj hspans)
  obtain ⟨_, hsame, -, hbest⟩ :=
    find_best_cut (List.cons_ne_nil _ _) hroute (Route.find_ne_limit hfound)
  rw [hfound] at hsame
  exact ⟨route, hit, hroute, hfound, hhit, hbest hit (Except.ok.inj hsame).symm⟩

end PathPattern
