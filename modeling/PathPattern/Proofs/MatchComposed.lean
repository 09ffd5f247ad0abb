import Mathlib.Data.List.Basic
import PathPattern.Composer
import PathPattern.Matcher
import PathPattern.Proofs.SegmentPatterns

/-!
A path that was composed for a pattern by segments matches the pattern again, and the match gives
back the parameters that the path was composed of.
-/
namespace PathPattern

/-- The slash separates segments, the end of the input is asked for, and values are percent-encoded.
Letter case and a trailing slash are left open. -/
structure Options.Standard (o : Options) : Prop where
  delimiter : o.delimiter = "/"
  toEnd : o.toEnd = true
  encode : o.encode = some Text.Percent.encode
  decode : o.decode = some decodeComponent

theorem Options.Standard.toList_delimiter {o : Options} (ho : o.Standard) :
    o.delimiter.toList = ['/'] := by
  rw [ho.delimiter]
  rfl

/-- The parameters are those of the keys, each with a value that suits it. -/
structure Params.Suit (params : Params) (keys : List Key) : Prop where
  value : params.Gives keys
  name : ∀ name ∈ params, name ∈ keys.map Key.name

namespace Text

theorem splitFrom_of_not_mem {c : Char} {cs : List Char} (h : c ∉ cs) :
    splitFrom [c] 0 cs = [cs] := by
  induction cs with
  | nil => rfl
  | cons d cs ih =>
      rw [List.mem_cons, not_or] at h
      have hno : List.isPrefixOf [c] (d :: cs) = false := by
        simpa [List.isPrefixOf] using h.1
      rw [splitFrom, hno, ih h.2]
      rfl

theorem splitFrom_append {c : Char} {cs : List Char} (h : c ∉ cs) (rest : List Char) :
    splitFrom [c] 0 (cs ++ c :: rest) = cs :: splitFrom [c] 0 rest := by
  induction cs with
  | nil => simp [splitFrom, List.isPrefixOf]
  | cons d cs ih =>
      rw [List.mem_cons, not_or] at h
      have hno : List.isPrefixOf [c] (d :: (cs ++ c :: rest)) = false := by
        simpa [List.isPrefixOf] using h.1
      rw [List.cons_append, splitFrom, hno, ih h.2]
      rfl

theorem split_intercalate {c : Char} {parts : List (List Char)} (hne : parts ≠ [])
    (h : ∀ part ∈ parts, c ∉ part) : split [c] (List.intercalate [c] parts) = parts := by
  change splitFrom [c] 0 _ = _
  induction parts with
  | nil => exact absurd rfl hne
  | cons part parts ih =>
      have hpart := h part List.mem_cons_self
      cases parts with
      | nil =>
          rw [List.intercalate_singleton]
          exact splitFrom_of_not_mem hpart
      | cons next parts =>
          have hrest := ih (List.cons_ne_nil _ _) fun p hp => h p (List.mem_cons_of_mem part hp)
          rw [List.intercalate_cons_cons, List.append_assoc, List.singleton_append,
            splitFrom_append hpart, hrest]

end Text

theorem mapM_decodeComponent (values : List String) :
    (values.map fun value => (Text.Percent.encode value).toList).mapM
      (fun segment => decodeComponent (String.ofList segment)) = .ok values := by
  induction values with
  | nil => rfl
  | cons value values ih =>
      rw [List.map_cons, List.mapM_cons, String.ofList_toList, decodeComponent_encode, ih]
      rfl

namespace Composer

theorem capture_written {o : Options} (ho : o.Standard) {template : Template} {params : Params}
    {key : Key} {value : Value} (hvalue : params[key.name]? = some value)
    (hsuits : value.Suits key.kind) :
    (ofTemplate o template).capture params key =
      .ok (.ofText (String.ofList (Piece.written params (.capture key)))) := by
  have hencode : ∀ text, (ofTemplate o template).encodeValue text = Text.Percent.encode text := by
    intro text
    simp only [encodeValue, ofTemplate, ho.encode]
  obtain ⟨kind, name⟩ := key
  simp only [capture, Piece.written, hvalue]
  cases kind with
  | param =>
      cases value with
      | single text => simp [hencode]
      | many values => exact hsuits.elim
  | wildcard =>
      cases value with
      | single text => exact hsuits.elim
      | many values =>
          obtain ⟨first, more, rfl⟩ := List.exists_cons_of_ne_nil hsuits.1
          have hjoined : (ofTemplate o template).delimiter.intercalate
              ((first :: more).map (ofTemplate o template).encodeValue) =
              String.ofList (List.intercalate ['/']
                ((first :: more).map fun value => (Text.Percent.encode value).toList)) := by
            have hdelimiter : (ofTemplate o template).delimiter = "/" := ho.delimiter
            rw [← String.toList_inj, String.toList_ofList, String.toList_intercalate, hdelimiter,
              List.map_map]
            simp only [Function.comp_def, hencode]
            rfl
          exact congrArg (fun text => Except.ok (Part.ofText text)) hjoined

theorem tokens_written {o : Options} (ho : o.Standard) {template : Template} {params : Params}
    {pieces : List Piece}
    (hgives : params.Gives (Sequence.keys pieces)) :
    (ofTemplate o template).tokens params (pieces.map Piece.token) =
      .ok (.ofText (String.ofList (pieces.flatMap (Piece.written params)))) := by
  induction pieces with
  | nil => rfl
  | cons piece rest ih =>
      have htoken : (ofTemplate o template).token params piece.token =
          .ok (.ofText (String.ofList (piece.written params))) := by
        cases piece with
        | text value =>
            rw [Piece.token, token, Piece.written, String.ofList_toList]
        | capture key =>
            obtain ⟨value, hvalue, hsuit⟩ := hgives key List.mem_cons_self
            rw [Piece.token, token, capture_written ho hvalue hsuit]
      have hrest : params.Gives (Sequence.keys rest) := by
        cases piece with
        | text value => exact hgives
        | capture key => exact hgives.tail
      rw [List.map_cons, tokens, htoken, ih hrest, List.flatMap_cons, String.ofList_append]
      rfl

theorem compose_written {o : Options} (ho : o.Standard) {params : Params} {pieces : List Piece}
    (hgives : params.Gives (Sequence.keys pieces)) :
    (ofTemplate o (pieces.map Piece.token)).compose params =
      .ok (String.ofList (pieces.flatMap (Piece.written params))) := by
  rw [compose]
  change tokens _ params (pieces.map Piece.token) >>= _ = _
  rw [tokens_written ho hgives]
  rfl

end Composer

namespace Matcher

theorem value_written {m : Matcher} (hdelimiter : m.delimiter = "/")
    (hdecode : m.decode = some decodeComponent) {params : Params} {key : Key} {value : Value}
    (hvalue : params[key.name]? = some value) (hsuits : value.Suits key.kind) :
    m.value key.kind (Piece.written params (.capture key)) = .ok value := by
  obtain ⟨kind, name⟩ := key
  simp only [Matcher.value, hdecode, Piece.written, hvalue]
  cases kind with
  | param =>
      cases value with
      | single text =>
          simp only [String.ofList_toList, decodeComponent_encode]
          rfl
      | many values => exact hsuits.elim
  | wildcard =>
      cases value with
      | single text => exact hsuits.elim
      | many values =>
          have hslash : ∀ part ∈ values.map fun value => (Text.Percent.encode value).toList,
              '/' ∉ part := by
            intro part hpart
            obtain ⟨text, -, rfl⟩ := List.mem_map.mp hpart
            exact Text.Percent.slash_not_mem_encode text
          have hsplit : Text.split m.delimiter.toList (List.intercalate ['/']
              (values.map fun value => (Text.Percent.encode value).toList)) =
              values.map fun value => (Text.Percent.encode value).toList := by
            rw [hdelimiter]
            exact Text.split_intercalate (by simpa using hsuits.1) hslash
          simp only [hsplit, mapM_decodeComponent]
          rfl

/-- Groups that took the given parts yield the values of these parts. -/
theorem collect_eq {m : Matcher} {input : List Char} {hit : Regex.Hit} {part : Key → List Char}
    {value : Key → Value} {keys : List Key} {spans : List Regex.Span} {index : Nat}
    (hgroups : ∀ n, hit.group? (index + n) = spans[n]?)
    (hparts : spans.map (fun span => span.slice input) = keys.map part)
    (hvalues : ∀ key ∈ keys, m.value key.kind (part key) = .ok (value key)) (params : Params) :
    m.collect input hit index keys params =
      .ok (keys.foldl (fun params key => params.insert key.name (value key)) params) := by
  induction keys generalizing index spans params with
  | nil => rfl
  | cons key keys ih =>
      cases spans with
      | nil => cases hparts
      | cons span spans =>
          obtain ⟨hpart, hrest⟩ := List.cons.inj hparts
          have hgroup : hit.group? index = some span := hgroups 0
          have hlater : ∀ n, hit.group? (index + 1 + n) = spans[n]? := by
            intro n
            have h := hgroups (n + 1)
            rw [List.getElem?_cons_succ] at h
            rw [← h, Nat.add_assoc, Nat.add_comm 1]
          have hvalue := hvalues key List.mem_cons_self
          rw [← hpart] at hvalue
          rw [collect, hgroup]
          change (m.value key.kind (span.slice input)) >>= _ = _
          rw [hvalue]
          exact ih hlater hrest (fun k hk => hvalues k (List.mem_cons_of_mem key hk)) _

end Matcher

theorem Params.getElem?_foldl_insert {given : Params} {value : Key → Value} {keys : List Key}
    (h : ∀ key ∈ keys, given[key.name]? = some (value key)) (params : Params) (name : String) :
    (keys.foldl (fun params key => params.insert key.name (value key)) params)[name]? =
      if name ∈ keys.map Key.name then given[name]? else params[name]? := by
  induction keys generalizing params with
  | nil => simp
  | cons key keys ih =>
      have hkey := h key List.mem_cons_self
      rw [List.foldl_cons, ih fun k hk => h k (List.mem_cons_of_mem key hk)]
      by_cases hrest : name ∈ keys.map Key.name
      · rw [if_pos hrest, List.map_cons, if_pos (List.mem_cons_of_mem _ hrest)]
      · rw [if_neg hrest, Std.ExtTreeMap.getElem?_insert]
        by_cases hname : key.name = name
        · subst hname
          simp [hkey]
        · simp [hrest, hname, Ne.symm hname]

theorem Sequence.slices_written {params : Params} {input : List Char} {pieces : List Piece}
    {start : Nat} (hinput : input.drop start = pieces.flatMap (Piece.written params)) :
    (captured start pieces (writtenStops params start pieces)).map
        (fun span => span.slice input) =
      (keys pieces).map fun key => Piece.written params (.capture key) := by
  induction pieces generalizing start with
  | nil => rfl
  | cons piece rest ih =>
      rw [List.flatMap_cons] at hinput
      have hrest := ih (drop_of_drop hinput)
      cases piece with
      | text value => exact hrest
      | capture key =>
          have hslice : Regex.Span.slice
              ⟨start, start + (Piece.written params (.capture key)).length⟩ input =
              Piece.written params (.capture key) := by
            rw [Regex.Span.slice, hinput, Nat.add_sub_cancel_left, List.take_left]
          exact congrArg₂ List.cons hslice hrest

theorem Params.Suit.foldl_insert {params : Params} {keys : List Key} {value : Key → Value}
    (h : params.Suit keys) (hvalue : ∀ key ∈ keys, params[key.name]? = some (value key)) :
    keys.foldl (fun params key => params.insert key.name (value key)) Params.empty = params := by
  apply Std.ExtTreeMap.ext_getElem?
  intro name
  rw [Params.getElem?_foldl_insert hvalue]
  split
  · rfl
  · rename_i hname
    have habsent : name ∉ params := fun hmem => hname (h.name name hmem)
    rw [Std.ExtTreeMap.getElem?_eq_none habsent]
    exact Std.ExtTreeMap.getElem?_empty

theorem Route.find_written {o : Options} (ho : o.delimiter.toList = ['/']) {pieces : List Piece}
    (hsegmented : Sequence.Segmented pieces) {params : Params}
    (hgives : params.Gives (Sequence.keys pieces))
    {route : Route} (hroute : synthesize o [pieces.map Piece.token] = .ok route)
    (hlimit : route.find (pieces.flatMap (Piece.written params)) ≠
      .error (.regex .backtrackLimit)) :
    route.find (pieces.flatMap (Piece.written params)) =
      .ok (some (hitOfCut o 1 pieces (Sequence.writtenCut params pieces))) := by
  rw [find_eq (List.cons_ne_nil _ _) hroute hlimit, Template.flatMap_alternatives_pieces, hits,
    hits, List.append_nil, List.head?_map, Sequence.head?_list_written hsegmented ho hgives rfl]
  rfl

theorem Sequence.stop_writtenCut (o : Options) (params : Params) (pieces : List Piece) :
    Cut.stop o (writtenCut params pieces) =
      (pieces.flatMap (Piece.written params)).length := by
  have hlast := getLast?_writtenStops params 0 pieces
  rw [Nat.zero_add] at hlast
  exact hlast

/-- The groups of the match hold what was written, so that the values are found again. -/
theorem Matcher.collect_written {o : Options} (ho : o.Standard) {pieces : List Piece}
    {params : Params} (hparams : params.Suit (Sequence.keys pieces)) (route : Route) :
    (ofRoute o route).collect (pieces.flatMap (Piece.written params))
        (Route.hitOfCut o 1 pieces (Sequence.writtenCut params pieces)) 1 (Sequence.keys pieces)
        Params.empty = .ok params := by
  have hgiven : ∀ key ∈ Sequence.keys pieces,
      params[key.name]? = some ((params[key.name]?).getD (.single "")) := by
    intro key hkey
    obtain ⟨value, hvalue, -⟩ := hparams.value key hkey
    rw [hvalue]
    rfl
  have hgroups : ∀ n, (Route.hitOfCut o 1 pieces (Sequence.writtenCut params pieces)).group?
      (1 + n) = (Sequence.captured 0 pieces (Sequence.writtenStops params 0 pieces))[n]? := by
    intro n
    rw [Route.hitOfCut, Sequence.group?_edges, if_pos (Nat.le_add_right 1 n),
      Nat.add_sub_cancel_left]
    rfl
  have hvalues : ∀ key ∈ Sequence.keys pieces,
      (ofRoute o route).value key.kind (Piece.written params (.capture key)) =
        .ok ((params[key.name]?).getD (.single "")) := by
    intro key hkey
    obtain ⟨value, hvalue, hsuits⟩ := hparams.value key hkey
    rw [value_written ho.delimiter ho.decode hvalue hsuits, hvalue]
    rfl
  have hinput : (pieces.flatMap (Piece.written params)).drop 0 =
      pieces.flatMap (Piece.written params) := List.drop_zero
  rw [collect_eq hgroups (Sequence.slices_written hinput) hvalues, hparams.foldl_insert hgiven]

/-- A path composed for a pattern by segments matches the pattern as a whole, with the parameters
that it was composed of, unless the search gives up. -/
theorem match?_compose {o : Options} (ho : o.Standard) {pieces : List Piece}
    (hsegmented : Sequence.Segmented pieces) {params : Params}
    (hparams : params.Suit (Sequence.keys pieces)) :
    ∃ composer path matcher,
      Composer.ofPattern o (.template (pieces.map Piece.token)) = .ok composer ∧
      composer.compose params = .ok path ∧
      Matcher.ofPatterns o [.template (pieces.map Piece.token)] = .ok matcher ∧
      (matcher.route.find path.toList ≠ .error (.regex .backtrackLimit) →
        matcher.match? path = .ok (some ⟨path, params⟩)) := by
  obtain ⟨route, hroute, hkeys⟩ := Route.synthesize_segmented hsegmented ho.toList_delimiter
  refine ⟨_, _, Matcher.ofRoute o route, rfl, Composer.compose_written ho hparams.value, ?_, ?_⟩
  · have htemplates := Route.ofPatterns_templates o [pieces.map Piece.token]
    rw [hroute] at htemplates
    exact congrArg (Except.map (Matcher.ofRoute o)) htemplates
  · intro hlimit
    rw [String.toList_ofList] at hlimit
    rw [Matcher.match?, String.toList_ofList]
    change (route.find _ >>= _) = _
    rw [Route.find_written ho.toList_delimiter hsegmented hparams.value hroute hlimit]
    change ((Matcher.ofRoute o route).collect _ _ 1 route.keys _ >>= _) = _
    rw [hkeys, Matcher.collect_written ho hparams route, Route.hitOfCut,
      Sequence.stop_writtenCut, List.take_length]
    rfl

/-- A slash inside a value, and an empty segment. -/
theorem match?_compose_files :
    let o : Options := { sensitive := true }
    let pieces : List Piece := [.text "/users/", .capture ⟨.param, "id"⟩, .text "/files/",
      .capture ⟨.wildcard, "path"⟩]
    let params : Params :=
      (Params.empty.insert "id" (.single "a/b")).insert "path" (.many ["", "c d"])
    let path := "/users/a%2Fb/files//c%20d"
    o.Standard ∧ Sequence.Segmented pieces ∧ params.Suit (Sequence.keys pieces) ∧
      ∃ composer matcher,
        Composer.ofPattern o (.template (pieces.map Piece.token)) = .ok composer ∧
        composer.compose params = .ok path ∧
        Matcher.ofPatterns o [.template (pieces.map Piece.token)] = .ok matcher ∧
        matcher.match? path = .ok (some ⟨path, params⟩) := by
  intro o pieces params path
  have ho : o.Standard := ⟨rfl, rfl, rfl, rfl⟩
  have hsegmented : Sequence.Segmented pieces := .text (.param (by decide) .last)
  have hkeys : Sequence.keys pieces = [⟨.param, "id"⟩, ⟨.wildcard, "path"⟩] := rfl
  have hid : params["id"]? = some (.single "a/b") := by
    rw [Std.ExtTreeMap.getElem?_insert, if_neg (by simp), Std.ExtTreeMap.getElem?_insert_self]
  have hpath : params["path"]? = some (.many ["", "c d"]) :=
    Std.ExtTreeMap.getElem?_insert_self
  have hparams : params.Suit (Sequence.keys pieces) := by
    rw [hkeys]
    constructor
    · intro key hkey
      simp only [List.mem_cons, List.not_mem_nil, or_false] at hkey
      rcases hkey with rfl | rfl
      · exact ⟨_, hid, by simp [Value.Suits]⟩
      · exact ⟨_, hpath, by simp [Value.Suits]⟩
    · intro name hname
      rcases Std.ExtTreeMap.mem_insert.mp hname with hname | hname
      · simp [Std.LawfulEqOrd.eq_of_compare hname]
      · rcases Std.ExtTreeMap.mem_insert.mp hname with hname | hname
        · simp [Std.LawfulEqOrd.eq_of_compare hname]
        · exact absurd hname Std.ExtTreeMap.not_mem_empty
  have hrun : (do
      let composer ← Composer.ofPattern o (.template (pieces.map Piece.token))
      composer.compose params) = .ok path := by
    decide +kernel
  have hfind : (do
      let matcher ← Matcher.ofPatterns o [.template (pieces.map Piece.token)]
      let hit? ← matcher.route.find path.toList
      return hit?.isSome) = .ok true := by
    decide +kernel
  obtain ⟨composer, composed, matcher, hcomposer, hcompose, hmatcher, hmatch⟩ :=
    match?_compose ho hsegmented hparams
  have hsame : composed = path := by
    rw [hcomposer] at hrun
    exact Except.ok.inj (hcompose.symm.trans hrun)
  subst hsame
  obtain ⟨found, hfound, hrest⟩ := bind_eq_ok.mp hfind
  obtain rfl : matcher = found := Except.ok.inj (hmatcher.symm.trans hfound)
  obtain ⟨hit?, hhit, -⟩ := bind_eq_ok.mp hrest
  exact ⟨ho, hsegmented, hparams, composer, matcher, hcomposer, hcompose, hmatcher,
    hmatch (Route.find_ne_limit hhit)⟩

end PathPattern
