import PathPattern.Proofs.TrailingDelimiter

/-!
Routes that may stop at the end of a segment, next to routes that must reach the end of the input.
What the first take from an input, the second match by itself: without the rest of the input a param
has less to keep clear of. And what the second match, the first match as well.
-/
namespace PathPattern

theorem Sequence.Decomposes.last_le {o : Options} {input : List Char} {before pieces : List Piece}
    {start : Nat} {stops : List Nat} (h : Decomposes o input before start pieces stops)
    (hstart : start ≤ input.length) : stops.getLast?.getD start ≤ input.length := by
  induction h with
  | nil => exact hstart
  | @cons before start piece rest stop stops _ hend _ _ ih =>
      rw [List.getLast?_cons, Option.getD_some]
      exact ih hend

namespace Cut

theorem Ends.stop_eq {o : Options} {input : List Char} {cut : Cut} (h : cut.Ends o input)
    (hend : o.toEnd = true) : cut.stop o = input.length := by
  refine h.stop.resolve_right ?_
  rintro ⟨hloose, -⟩
  rw [hend] at hloose
  cases hloose

theorem Of.loose {o : Options} {input : List Char} {pieces : List Piece} {cut : Cut}
    (h : cut.Of { o with toEnd := true } input pieces) :
    cut.Of { o with toEnd := false } input pieces :=
  ⟨h.parts.of_options rfl rfl, h.ends.trailing, .inl (h.ends.stop_eq rfl)⟩

/-- What a match takes from an input is matched to its end, by the same cut. -/
theorem Of.whole {o : Options} {input : List Char} {pieces : List Piece} {cut : Cut}
    (h : cut.Of { o with toEnd := false } input pieces) :
    cut.Of { o with toEnd := true } (input.take (cut.stop o)) pieces := by
  have hparts : Sequence.Decomposes { o with toEnd := true } input [] 0 pieces cut.stops :=
    h.parts.of_options rfl rfl
  obtain ⟨stops, trailing⟩ := cut
  cases trailing with
  | true =>
      -- a trailing delimiter reaches the end, so that nothing is left out
      have hends := ends_trailing.mp h.ends
      have hall : input.take (stop o ⟨stops, true⟩) = input :=
        List.take_of_length_le (Nat.le_of_eq hends.2.2.symm)
      rw [hall]
      exact ⟨hparts, ends_trailing.mpr hends⟩
  | false =>
      have hplace : stops.getLast?.getD 0 = (input.take (stops.getLast?.getD 0)).length := by
        rw [List.length_take, Nat.min_eq_left (hparts.last_le (Nat.zero_le _))]
      -- what is left out can only have disturbed a param
      rw [← List.take_append_drop (stops.getLast?.getD 0) input] at hparts
      exact ⟨((Sequence.decomposes_append_iff hplace).mp hparts).1, ends_plain.mpr (.inl hplace)⟩

theorem Ends.rest {o : Options} {input : List Char} {cut : Cut} (h : cut.Ends o input) :
    input.drop (cut.stop o) = [] ∨
      o.letters o.delimiter.toList <+: o.letters (input.drop (cut.stop o)) := by
  rcases h.stop with hstop | ⟨-, hoccurs⟩
  · exact .inl (List.drop_eq_nil_of_le (Nat.le_of_eq hstop.symm))
  · refine .inr ?_
    rw [Options.letters, Options.letters, List.map_drop]
    exact hoccurs

end Cut

theorem Pattern.toTemplate_toEnd (o : Options) (toEnd : Bool) (pattern : Pattern) :
    pattern.toTemplate { o with toEnd := toEnd } = pattern.toTemplate o := by
  cases pattern with
  | source text => rfl
  | template tokens => rfl

namespace Route

/-- The part of the input that the route matches, if it does. -/
def path? (r : Route) (input : String) : Except Error (Option String) := do
  let hit? ← r.find input.toList
  return hit?.map fun hit => String.ofList (input.toList.take hit.stop)

theorem path?_eq_some {r : Route} {input path : String} :
    r.path? input = .ok (some path) ↔
      ∃ hit, r.find input.toList = .ok (some hit) ∧
        String.ofList (input.toList.take hit.stop) = path := by
  simp only [path?, bind_eq_ok, pure, Except.pure, Except.ok.injEq, Option.map_eq_some_iff]
  constructor
  · rintro ⟨_, hfind, hit, rfl, hpath⟩
    exact ⟨hit, hfind, hpath⟩
  · rintro ⟨hit, hfind, hpath⟩
    exact ⟨_, hfind, hit, rfl, hpath⟩

theorem path?_eq_error {r : Route} {input : String} {e : Error} :
    r.path? input = .error e ↔ r.find input.toList = .error e := by
  unfold path?
  cases r.find input.toList with
  | error cause => simp only [bind, Except.bind, Except.error.injEq]
  | ok hit? => exact ⟨(nomatch ·), (nomatch ·)⟩

/-- It is the path that a match reports. -/
theorem path?_of_match? {m : Matcher} {input : String} {found : Match}
    (h : m.match? input = .ok (some found)) : m.route.path? input = .ok (some found.path) := by
  obtain ⟨hit, hfind, -, hpath⟩ := Matcher.match?_eq_some.mp h
  exact path?_eq_some.mpr ⟨hit, hfind, hpath.symm⟩

theorem exists_synthesize_toEnd {o : Options} {templates : List Template} {route : Route}
    (h : synthesize o templates = .ok route) (toEnd : Bool) :
    ∃ other, synthesize { o with toEnd := toEnd } templates = .ok other := by
  have hcan := exists_synthesize_iff.mp ⟨route, h⟩
  exact exists_synthesize_iff.mpr hcan

theorem ofPatterns_toEnd (o : Options) (toEnd : Bool) (patterns : List Pattern) :
    ofPatterns { o with toEnd := toEnd } patterns =
      patterns.mapM (·.toTemplate o) >>= synthesize { o with toEnd := toEnd } := by
  simp only [ofPatterns, Pattern.toTemplate_toEnd]

theorem exists_cut_of_path? {o : Options} {templates : List Template} {route : Route}
    {input path : String} (hne : templates ≠ []) (hroute : synthesize o templates = .ok route)
    (h : route.path? input = .ok (some path)) :
    ∃ pieces ∈ templates.flatMap Template.alternatives, ∃ cut : Cut,
      cut.Of o input.toList pieces ∧ path.toList = input.toList.take (cut.stop o) := by
  obtain ⟨hit, hfind, rfl⟩ := path?_eq_some.mp h
  obtain ⟨before, pieces, after, cut, hsplit, hcut, rfl⟩ := find_eq_some hne hroute hfind
  refine ⟨pieces, ?_, cut, hcut, String.toList_ofList⟩
  rw [hsplit]
  exact List.mem_append_right _ List.mem_cons_self

theorem exists_path?_of_cut {o : Options} {templates : List Template} {route : Route}
    {input : String} {pieces : List Piece} {cut : Cut} (hne : templates ≠ [])
    (hroute : synthesize o templates = .ok route)
    (hlimit : route.path? input ≠ .error (.regex .backtrackLimit))
    (hpieces : pieces ∈ templates.flatMap Template.alternatives)
    (hcut : cut.Of o input.toList pieces) : ∃ path, route.path? input = .ok (some path) := by
  rw [ne_eq, path?_eq_error] at hlimit
  obtain ⟨hit, hfind⟩ := (matches_iff hne hroute hlimit).mpr ⟨pieces, hpieces, cut, hcut⟩
  exact ⟨_, path?_eq_some.mpr ⟨hit, hfind, rfl⟩⟩

theorem path?_eq_input {o : Options} {templates : List Template} {route : Route}
    {input path : String} (hend : o.toEnd = true) (hne : templates ≠ [])
    (hroute : synthesize o templates = .ok route) (h : route.path? input = .ok (some path)) :
    path = input := by
  obtain ⟨pieces, -, cut, hcut, hpath⟩ := exists_cut_of_path? hne hroute h
  apply String.toList_injective
  rw [hpath, hcut.ends.stop_eq hend, List.take_length]

end Route

/-- Patterns that make a route make one that may stop at the end of a segment and one that must
reach the end of the input. The path of the first is a beginning of the input, before its end or a
delimiter, and the second matches this path. The path of the second is the whole input, and the
first matches this input. -/
theorem path?_toEnd {o : Options} {patterns : List Pattern} {route : Route}
    (hroute : Route.ofPatterns o patterns = .ok route) :
    ∃ loose whole, Route.ofPatterns { o with toEnd := false } patterns = .ok loose ∧
      Route.ofPatterns { o with toEnd := true } patterns = .ok whole ∧
      ∀ input path : String,
        (loose.path? input = .ok (some path) →
          (∃ rest, input = path ++ rest ∧
            (rest = "" ∨ o.letters o.delimiter.toList <+: o.letters rest.toList)) ∧
          (whole.path? path ≠ .error (.regex .backtrackLimit) →
            whole.path? path = .ok (some path))) ∧
        (whole.path? input = .ok (some path) →
          path = input ∧
          (loose.path? input ≠ .error (.regex .backtrackLimit) →
            ∃ taken, loose.path? input = .ok (some taken))) := by
  obtain ⟨templates, hread, hroute⟩ := bind_eq_ok.mp hroute
  obtain ⟨loose, hloose⟩ := Route.exists_synthesize_toEnd hroute false
  obtain ⟨whole, hwhole⟩ := Route.exists_synthesize_toEnd hroute true
  refine ⟨loose, whole, ?_, ?_, ?_⟩
  · rw [Route.ofPatterns_toEnd, hread]
    exact hloose
  · rw [Route.ofPatterns_toEnd, hread]
    exact hwhole
  obtain ⟨others, hne, hsame, -⟩ := Route.exists_nonempty templates
  rw [← hsame] at hloose hwhole
  intro input path
  constructor
  · intro hpath
    obtain ⟨pieces, hpieces, cut, hcut, htake⟩ := Route.exists_cut_of_path? hne hloose hpath
    constructor
    · refine ⟨String.ofList (input.toList.drop (cut.stop o)), ?_, ?_⟩
      · apply String.toList_injective
        rw [String.toList_append, htake, String.toList_ofList]
        exact (List.take_append_drop _ _).symm
      · rw [String.ofList_eq_empty_iff, String.toList_ofList]
        exact hcut.ends.rest
    · intro hlimit
      have hpathCut : cut.Of { o with toEnd := true } path.toList pieces := by
        rw [htake]
        exact hcut.whole
      obtain ⟨taken, htaken⟩ := Route.exists_path?_of_cut hne hwhole hlimit hpieces hpathCut
      rw [htaken, Route.path?_eq_input rfl hne hwhole htaken]
  · intro hpath
    obtain ⟨pieces, hpieces, cut, hcut, -⟩ := Route.exists_cut_of_path? hne hwhole hpath
    refine ⟨Route.path?_eq_input rfl hne hwhole hpath, fun hlimit => ?_⟩
    exact Route.exists_path?_of_cut hne hloose hlimit hpieces hcut.loose

/-- The first route stops before the last delimiter, and letters differ in case. -/
theorem path?_toEnd_flights :
    let o : Options := {}
    let patterns : List Pattern := [.source "/flights\x7b/:from-:to\x7d", .source "/x"]
    let input := "/Flights/a-b/menu"
    let path := "/Flights/a-b"
    ∃ loose whole, Route.ofPatterns { o with toEnd := false } patterns = .ok loose ∧
      Route.ofPatterns { o with toEnd := true } patterns = .ok whole ∧
      loose.path? input = .ok (some path) ∧
      (∃ rest, input = path ++ rest ∧
        (rest = "" ∨ o.letters o.delimiter.toList <+: o.letters rest.toList)) ∧
      whole.path? path = .ok (some path) ∧ ∃ taken, loose.path? path = .ok (some taken) := by
  intro o patterns input path
  have hrun : (do
      let loose ← Route.ofPatterns { o with toEnd := false } patterns
      let whole ← Route.ofPatterns { o with toEnd := true } patterns
      let _ ← whole.path? path
      let _ ← loose.path? path
      loose.path? input) = .ok (some path) := by
    decide +kernel
  obtain ⟨loose, hloose, hrun⟩ := bind_eq_ok.mp hrun
  obtain ⟨whole, hwhole, hrun⟩ := bind_eq_ok.mp hrun
  obtain ⟨_, hwholePath, hrun⟩ := bind_eq_ok.mp hrun
  obtain ⟨_, hloosePath, hpath⟩ := bind_eq_ok.mp hrun
  obtain ⟨loose', whole', hloose', hwhole', hagree⟩ := path?_toEnd hloose
  cases hloose.symm.trans hloose'
  cases hwhole.symm.trans hwhole'
  obtain ⟨hrest, hwholeTakes⟩ := (hagree input path).1 hpath
  have hmatch := hwholeTakes (by rw [hwholePath]; exact fun h => nomatch h)
  refine ⟨loose, whole, hloose, hwhole, hpath, hrest, hmatch, ?_⟩
  exact ((hagree path path).2 hmatch).2 (by rw [hloosePath]; exact fun h => nomatch h)

end PathPattern
