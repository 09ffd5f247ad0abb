import PathPattern.Proofs.ComposeMatched

/-!
Several patterns in one route answer as the first of them that matches would answer alone. The
search goes through the alternatives of all patterns in order, so the answer is that of the first
alternative with a cut; which pattern it belongs to shows only in the numbers of its groups.
-/
namespace PathPattern

namespace Matcher

/-- The answer of the first of the matchers that does not miss. -/
def firstOf (input : String) : List Matcher → Except Error (Option Match)
  | [] => .ok none
  | m :: rest =>
    match m.match? input with
    | .ok none => firstOf input rest
    | answer => answer

/-- The matcher does not miss. What it found may still fail to decode. -/
def Matches (m : Matcher) (input : String) : Prop := m.match? input ≠ .ok none

def answerBy (m : Matcher) (o : Options) (input : String) (pieces : List Piece) (cut : Cut) :
    Except Error (Option Match) := do
  let params ← m.collect input.toList (Route.hitOfCut o 1 pieces cut) 1 (Sequence.keys pieces)
    Params.empty
  return some ⟨String.ofList (input.toList.take (cut.stop o)), params⟩

/-- The answer by the best cut for the first of the sequences that has one. -/
def answer (m : Matcher) (o : Options) (input : String) :
    List (List Piece) → Except Error (Option Match)
  | [] => .ok none
  | pieces :: rest =>
    match Cut.list o input.toList pieces with
    | [] => answer m o input rest
    | cut :: _ => m.answerBy o input pieces cut

theorem answerBy_ne_none (m : Matcher) (o : Options) (input : String) (pieces : List Piece)
    (cut : Cut) : m.answerBy o input pieces cut ≠ .ok none := by
  intro h
  obtain ⟨params, -, hnone⟩ := bind_eq_ok.mp h
  cases hnone

theorem matches_iff {m : Matcher} {input : String}
    (hlimit : m.route.find input.toList ≠ .error (.regex .backtrackLimit)) :
    m.Matches input ↔ m.route.Matches input.toList := by
  have hfound : m.route.find input.toList = .error (.regex .backtrackLimit) ∨
      ∃ found?, m.route.find input.toList = .ok found? := by
    unfold Route.find
    exact (ite_eq_or_eq _ _ _).imp_right fun hok => ⟨_, hok⟩
  obtain ⟨found?, hfind⟩ := hfound.resolve_left hlimit
  unfold Matches Route.Matches match?
  dsimp only
  rw [hfind]
  cases found? with
  | none => exact ⟨fun hmiss => (hmiss rfl).elim, fun ⟨_, hhit⟩ => nomatch hhit⟩
  | some hit =>
      refine ⟨fun _ => ⟨hit, rfl⟩, fun _ hnone => ?_⟩
      change (do
        let params ← m.collect input.toList hit 1 m.route.keys Params.empty
        return some _) = .ok none at hnone
      obtain ⟨params, -, hsome⟩ := bind_eq_ok.mp hnone
      cases hsome

theorem matches_iff_cut {o : Options} {templates : List Template} {route : Route} {input : String}
    (hne : templates ≠ []) (hroute : Route.synthesize o templates = .ok route)
    (hlimit : route.find input.toList ≠ .error (.regex .backtrackLimit)) :
    (ofRoute o route).Matches input ↔
      ∃ pieces ∈ templates.flatMap Template.alternatives,
        ∃ cut : Cut, cut.Of o input.toList pieces :=
  (matches_iff hlimit).trans (Route.matches_iff hne hroute hlimit)

def finds (o : Options) (patterns : List Pattern) (input : String) : Except Error Bool := do
  let m ← ofPatterns o patterns
  let hit? ← m.route.find input.toList
  return hit?.isSome

theorem matches_of_finds {o : Options} {patterns : List Pattern} {input : String} {found : Bool}
    (h : finds o patterns input = .ok found) :
    ∃ m, ofPatterns o patterns = .ok m ∧
      m.route.find input.toList ≠ .error (.regex .backtrackLimit) ∧
      (m.Matches input ↔ found = true) := by
  obtain ⟨m, hm, hrun⟩ := bind_eq_ok.mp h
  obtain ⟨hit?, hfind, hfound⟩ := bind_eq_ok.mp hrun
  cases hfound
  have hlimit := Route.find_ne_limit hfind
  refine ⟨m, hm, hlimit, ?_⟩
  rw [matches_iff hlimit, Route.Matches, hfind, Option.isSome_iff_exists]
  simp only [Except.ok.injEq]

theorem answer_skip (m : Matcher) (o : Options) {input : String} {before : List (List Piece)}
    (h : ∀ pieces ∈ before, Cut.list o input.toList pieces = []) (rest : List (List Piece)) :
    m.answer o input (before ++ rest) = m.answer o input rest := by
  induction before with
  | nil => rfl
  | cons pieces before ih =>
      rw [List.cons_append, answer, h pieces List.mem_cons_self]
      exact ih fun later hlater => h later (List.mem_cons_of_mem _ hlater)

theorem answer_append (m : Matcher) (o : Options) (input : String) (a b : List (List Piece)) :
    m.answer o input (a ++ b) =
      match m.answer o input a with
      | .ok none => m.answer o input b
      | answer => answer := by
  induction a with
  | nil => rfl
  | cons pieces a ih =>
      rw [List.cons_append, answer, answer]
      cases Cut.list o input.toList pieces with
      | nil => exact ih
      | cons cut _ =>
          dsimp only
          split
          · -- a cut always answers, if only with an error of decoding
            rename_i hnone
            exact absurd hnone (answerBy_ne_none m o input pieces cut)
          · rfl

theorem collect_congr {m m' : Matcher} {input : List Char} {hit hit' : Regex.Hit} {i j : Nat}
    {keys : List Key} (hvalue : m.value = m'.value)
    (hgroup : ∀ n < keys.length, hit.group? (i + n) = hit'.group? (j + n)) (params : Params) :
    m.collect input hit i keys params = m'.collect input hit' j keys params := by
  induction keys generalizing i j params with
  | nil => rfl
  | cons key keys ih =>
      have hfirst : hit.group? i = hit'.group? j := hgroup 0 (Nat.zero_lt_succ _)
      have hrest : ∀ n < keys.length, hit.group? (i + 1 + n) = hit'.group? (j + 1 + n) := by
        intro n hn
        have hnext := hgroup (n + 1) (Nat.succ_lt_succ hn)
        rw [Nat.add_comm n 1, ← Nat.add_assoc, ← Nat.add_assoc] at hnext
        exact hnext
      rw [collect, collect, hfirst, hvalue]
      cases hit'.group? j with
      | none => exact ih hrest params
      | some span =>
          dsimp only
          congr 1
          funext value
          exact ih hrest _

theorem answer_congr {m m' : Matcher} (hvalue : m.value = m'.value) (o : Options) (input : String)
    (sequences : List (List Piece)) :
    m.answer o input sequences = m'.answer o input sequences := by
  induction sequences with
  | nil => rfl
  | cons pieces rest ih =>
      rw [answer, answer, ih]
      cases Cut.list o input.toList pieces with
      | nil => rfl
      | cons cut _ =>
          dsimp only
          rw [answerBy, answerBy, collect_congr hvalue fun _ _ => rfl]

/-- A matcher that does not give up answers by the alternatives of its templates. -/
theorem match?_eq_answer {o : Options} {templates : List Template} {route : Route}
    {input : String} (hne : templates ≠ []) (hroute : Route.synthesize o templates = .ok route)
    (hlimit : route.find input.toList ≠ .error (.regex .backtrackLimit)) :
    (ofRoute o route).match? input =
      (ofRoute o route).answer o input (templates.flatMap Template.alternatives) := by
  have hfind := Route.find_eq hne hroute hlimit
  rcases Route.hits_head? o input.toList 1 (templates.flatMap Template.alternatives) with
    ⟨hnone, hall⟩ | ⟨before, pieces, after, cut, rest, hsome, hsplit, hbefore, hcut⟩
  · have hskip := answer_skip (ofRoute o route) o hall []
    rw [List.append_nil] at hskip
    rw [hskip, match?, show (ofRoute o route).route.find _ = _ from hfind, hnone]
    rfl
  · have hanswer : (ofRoute o route).answer o input (before ++ pieces :: after) =
        (ofRoute o route).answerBy o input pieces cut := by
      rw [answer_skip _ o hbefore, answer, hcut]
    -- the groups of the other alternatives are unset, and these ones count from `before` on
    have hcollect : (ofRoute o route).collect input.toList
          (Route.hitOfCut o (1 + (before.flatMap Sequence.keys).length) pieces cut) 1 route.keys
          Params.empty =
        (ofRoute o route).collect input.toList (Route.hitOfCut o 1 pieces cut) 1
          (Sequence.keys pieces) Params.empty := by
      rw [Route.keys_eq hroute hsplit, collect_alternative (Cut.best_of_list hcut).isCut]
      refine collect_congr rfl (fun n _ => ?_) _
      rw [Route.group?_alternative]
      exact (Route.group?_alternative o 0 pieces cut n).symm
    rw [hsplit, hanswer, answerBy, ← hcollect, match?,
      show (ofRoute o route).route.find _ = _ from hfind, hsome]
    rfl

theorem answer_flatMap {o : Options} (m : Matcher)
    (hvalue : ∀ route, (ofRoute o route).value = m.value) {input : String}
    {templates : List Template} {matchers : List Matcher}
    (hroutes : List.Forall₂
      (fun template single => ∃ route, Route.synthesize o [template] = .ok route ∧
        single = ofRoute o route)
      templates matchers)
    (hlimits : ∀ single ∈ matchers,
      single.route.find input.toList ≠ .error (.regex .backtrackLimit)) :
    m.answer o input (templates.flatMap Template.alternatives) = firstOf input matchers := by
  induction hroutes with
  | nil => rfl
  | @cons template single templates matchers hfirst _ ih =>
      obtain ⟨route, hroute, rfl⟩ := hfirst
      rw [List.forall_mem_cons] at hlimits
      have hsingle := match?_eq_answer (List.cons_ne_nil _ _) hroute hlimits.1
      rw [List.flatMap_singleton, answer_congr (hvalue route)] at hsingle
      rw [List.flatMap_cons, answer_append, ih hlimits.2, firstOf, hsingle]

end Matcher

theorem mapM_eq_ok {α β ε : Type} {f : α → Except ε β} {xs : List α} {ys : List β} :
    xs.mapM f = .ok ys ↔ List.Forall₂ (fun x y => f x = .ok y) xs ys := by
  induction xs generalizing ys with
  | nil =>
      rw [List.mapM_nil, List.forall₂_nil_left_iff]
      exact ⟨fun h => (Except.ok.inj h).symm, fun h => congrArg _ h.symm⟩
  | cons x xs ih =>
      rw [List.mapM_cons, bind_eq_ok, List.forall₂_cons_left_iff]
      simp only [bind_eq_ok, ih, pure, Except.pure, Except.ok.injEq]
      constructor
      · rintro ⟨y, hy, rest, hrest, rfl⟩
        exact ⟨y, rest, hy, hrest, rfl⟩
      · rintro ⟨y, rest, hy, hrest, rfl⟩
        exact ⟨y, hy, rest, hrest, rfl⟩

namespace Matcher

theorem ofPatterns_eq_ok_iff {o : Options} {patterns : List Pattern} {matcher : Matcher} :
    ofPatterns o patterns = .ok matcher ↔
      ∃ templates, List.Forall₂ (fun pattern template => pattern.toTemplate o = .ok template)
          patterns templates ∧
        ∃ route, Route.synthesize o templates = .ok route ∧ matcher = ofRoute o route := by
  have hmap : ofPatterns o patterns = .ok matcher ↔
      ∃ route, Route.ofPatterns o patterns = .ok route ∧ matcher = ofRoute o route := by
    unfold ofPatterns
    cases Route.ofPatterns o patterns with
    | error e => simp [Except.map]
    | ok route => simp [Except.map, eq_comm]
  rw [hmap]
  simp only [Route.ofPatterns, bind_eq_ok, mapM_eq_ok]
  constructor
  · rintro ⟨route, ⟨templates, hread, hroute⟩, hmatcher⟩
    exact ⟨templates, hread, route, hroute, hmatcher⟩
  · rintro ⟨templates, hread, route, hroute, hmatcher⟩
    exact ⟨route, ⟨templates, hread, hroute⟩, hmatcher⟩

theorem exists_templates {o : Options} {patterns : List Pattern} {matchers : List Matcher}
    (h : List.Forall₂ (fun pattern matcher => ofPatterns o [pattern] = .ok matcher)
      patterns matchers) :
    ∃ templates, List.Forall₂ (fun pattern template => pattern.toTemplate o = .ok template)
        patterns templates ∧
      List.Forall₂
        (fun template matcher => ∃ route, Route.synthesize o [template] = .ok route ∧
          matcher = ofRoute o route)
        templates matchers := by
  induction h with
  | nil => exact ⟨[], .nil, .nil⟩
  | cons hfirst _ ih =>
      obtain ⟨templates, hread, hroutes⟩ := ih
      obtain ⟨_, hsingle, hroute⟩ := ofPatterns_eq_ok_iff.mp hfirst
      obtain ⟨template, _, htemplate, hnil, rfl⟩ := List.forall₂_cons_left_iff.mp hsingle
      cases hnil
      exact ⟨template :: templates, .cons htemplate hread, .cons hroute hroutes⟩

theorem matches_template {o : Options} {template : Template} {m : Matcher} {input : String}
    (hm : ofPatterns o [.template template] = .ok m)
    (hlimit : m.route.find input.toList ≠ .error (.regex .backtrackLimit)) :
    m.Matches input ↔
      ∃ pieces ∈ template.alternatives, ∃ cut : Cut, cut.Of o input.toList pieces := by
  obtain ⟨route, hroute, rfl⟩ := ofPatterns_eq_ok [template] hm
  rw [matches_iff_cut (List.cons_ne_nil _ _) hroute hlimit, List.flatMap_singleton]

end Matcher

theorem Cut.exists_of_nil {o : Options} {input : List Char} :
    (∃ cut : Cut, cut.Of o input []) ↔
      input = [] ∨ (o.trailing = true ∧ o.letters input = o.letters o.delimiter.toList) ∨
        (o.toEnd = false ∧ o.letters o.delimiter.toList <+: o.letters input) := by
  constructor
  · rintro ⟨⟨stops, trailing⟩, hparts, hends⟩
    cases hparts
    -- no part has been taken, so both endings begin at the start of the input
    cases trailing with
    | true =>
        obtain ⟨htrailing, hoccurs, hlength⟩ := ends_trailing.mp hends
        have hbegins : o.letters o.delimiter.toList <+: o.letters input := hoccurs
        have hsame : o.letters o.delimiter.toList = o.letters input := by
          apply hbegins.eq_of_length
          rw [o.length_letters, o.length_letters, ← hlength]
          exact (Nat.zero_add _).symm
        exact .inr (.inl ⟨htrailing, hsame.symm⟩)
    | false =>
        rcases ends_plain.mp hends with hlength | hbegins
        · exact .inl (List.eq_nil_of_length_eq_zero hlength.symm)
        · exact .inr (.inr hbegins)
  · rintro (rfl | ⟨htrailing, hsame⟩ | hbegins)
    · exact ⟨⟨[], false⟩, .nil, ends_plain.mpr (.inl rfl)⟩
    · refine ⟨⟨[], true⟩, .nil, ends_trailing.mpr ⟨htrailing, ?_, ?_⟩⟩
      · rw [hsame]
        exact List.prefix_rfl
      · have hlength := congrArg List.length hsame
        rw [o.length_letters, o.length_letters] at hlength
        exact (Nat.zero_add _).trans hlength.symm
    · exact ⟨⟨[], false⟩, .nil, ends_plain.mpr (.inr hbegins)⟩

theorem Route.exists_synthesize_all {o : Options} {templates : List Template} (hne : templates ≠ [])
    (h : ∀ template ∈ templates, ∃ route, synthesize o [template] = .ok route) :
    ∃ route, synthesize o templates = .ok route := by
  refine exists_synthesize_iff.mpr ⟨?_, ?_⟩
  · intro pieces hpieces
    obtain ⟨template, htemplate, hpieces⟩ := List.mem_flatMap.mp hpieces
    refine (exists_synthesize_iff.mp (h template htemplate)).1 pieces ?_
    rw [List.flatMap_singleton]
    exact hpieces
  · obtain ⟨template, htemplate⟩ := List.exists_mem_of_ne_nil templates hne
    exact (exists_synthesize_iff.mp (h template htemplate)).2

/-- Patterns that can be synthesized one by one can be synthesized together, and the matcher answers
as the first of theirs that does not miss. Without any pattern it is the matcher of the empty one,
which has only the ending of a route to match. -/
theorem match?_eq_firstOf {o : Options} {patterns : List Pattern} {matchers : List Matcher}
    (h : patterns.mapM (fun pattern => Matcher.ofPatterns o [pattern]) = .ok matchers) :
    (patterns ≠ [] → ∃ m, Matcher.ofPatterns o patterns = .ok m ∧
      ∀ input : String, m.route.find input.toList ≠ .error (.regex .backtrackLimit) →
        (∀ single ∈ matchers,
          single.route.find input.toList ≠ .error (.regex .backtrackLimit)) →
        m.match? input = Matcher.firstOf input matchers) ∧
    (patterns = [] →
      Matcher.ofPatterns o patterns = Matcher.ofPatterns o [.template []] ∧
      ∀ m, Matcher.ofPatterns o patterns = .ok m → ∀ input : String,
        m.route.find input.toList ≠ .error (.regex .backtrackLimit) →
        (m.Matches input ↔ input = "" ∨
          (o.trailing = true ∧ o.letters input.toList = o.letters o.delimiter.toList) ∨
          (o.toEnd = false ∧ o.letters o.delimiter.toList <+: o.letters input.toList))) := by
  constructor
  · intro hne
    obtain ⟨templates, hread, hroutes⟩ := Matcher.exists_templates (mapM_eq_ok.mp h)
    have hsome : templates ≠ [] := by
      rintro rfl
      exact hne (List.forall₂_nil_right_iff.mp hread)
    have heach : ∀ template ∈ templates, ∃ route, Route.synthesize o [template] = .ok route :=
      ((List.forall₂_and_left _ _).mp
        (hroutes.imp fun _ _ ⟨route, hroute, _⟩ => ⟨⟨route, hroute⟩, trivial⟩)).1
    obtain ⟨route, hroute⟩ := Route.exists_synthesize_all hsome heach
    refine ⟨_, Matcher.ofPatterns_eq_ok_iff.mpr ⟨templates, hread, route, hroute, rfl⟩, ?_⟩
    intro input hlimit hsingles
    rw [Matcher.match?_eq_answer hsome hroute hlimit]
    exact Matcher.answer_flatMap _ (fun _ => rfl) hroutes hsingles
  · rintro rfl
    refine ⟨rfl, ?_⟩
    intro m hm input hlimit
    have hempty : Matcher.ofPatterns o [.template []] = .ok m := hm
    rw [Matcher.matches_template hempty hlimit, Template.alternatives_nil]
    simp only [List.mem_singleton, exists_eq_left, Cut.exists_of_nil, String.toList_eq_nil_iff]

/-- The first pattern misses, and of the others, which both match, the earlier one answers. -/
theorem match?_eq_firstOf_user :
    let o : Options := {}
    let patterns : List Pattern := [.source "/post/:slug", .source "/:kind/:id", .source "/*rest"]
    let input := "/user/7/"
    ∃ matchers m, patterns.mapM (fun pattern => Matcher.ofPatterns o [pattern]) = .ok matchers ∧
      Matcher.ofPatterns o patterns = .ok m ∧
      (m.match? input).map (Option.map fun found => (found.path, found.params.toList)) =
        .ok (some ("/user/7/", [("id", .single "7"), ("kind", .single "user")])) ∧
      m.match? input = Matcher.firstOf input matchers := by
  intro o patterns input
  have hrun : (do
      let matchers ← patterns.mapM fun pattern => Matcher.ofPatterns o [pattern]
      let m ← Matcher.ofPatterns o patterns
      let _ ← m.route.find input.toList
      let _ ← matchers.mapM (Route.find ·.route input.toList)
      (m.match? input).map (Option.map fun (found : Match) => (found.path, found.params.toList))) =
      (.ok (some ("/user/7/", [("id", .single "7"), ("kind", .single "user")])) :
        Except Error (Option (String × List (String × Value)))) := by
    decide +kernel
  obtain ⟨matchers, hmatchers, hrun⟩ := bind_eq_ok.mp hrun
  obtain ⟨m, hm, hrun⟩ := bind_eq_ok.mp hrun
  obtain ⟨found, hfound, hrun⟩ := bind_eq_ok.mp hrun
  obtain ⟨singles, hsingles, hanswer⟩ := bind_eq_ok.mp hrun
  have hlimits : ∀ single ∈ matchers,
      single.route.find input.toList ≠ .error (.regex .backtrackLimit) := by
    intro single hsingle
    obtain ⟨n, hn, rfl⟩ := List.getElem_of_mem hsingle
    have hfound := (mapM_eq_ok.mp hsingles).get hn ((mapM_eq_ok.mp hsingles).length_eq ▸ hn)
    exact Route.find_ne_limit hfound
  obtain ⟨m', hm', hfirst⟩ := (match?_eq_firstOf hmatchers).1 (List.cons_ne_nil _ _)
  rw [hm, Except.ok.injEq] at hm'
  subst hm'
  exact ⟨matchers, m, hmatchers, hm, hanswer, hfirst input (Route.find_ne_limit hfound) hlimits⟩

/-- Without any pattern there is still a match, that of the empty pattern. -/
theorem match?_ne_firstOf_nil :
    ([] : List Pattern).mapM (fun pattern => Matcher.ofPatterns {} [pattern]) = .ok [] ∧
      ∃ m, Matcher.ofPatterns {} [] = .ok m ∧
        m.route.find "".toList ≠ .error (.regex .backtrackLimit) ∧
        m.match? "" ≠ Matcher.firstOf "" [] := by
  refine ⟨rfl, _, rfl, ?_, ?_⟩
  · decide +kernel
  · intro h
    have hsome : (Matcher.match? _ "").map Option.isSome = _ :=
      congrArg (Except.map Option.isSome) h
    revert hsome
    decide +kernel

end PathPattern
