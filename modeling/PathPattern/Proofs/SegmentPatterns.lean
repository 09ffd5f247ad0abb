import Mathlib.Data.List.Basic
import PathPattern.Params
import PathPattern.Proofs.Matching
import PathPattern.Proofs.Percent

/-!
Patterns in which every param reaches to the end of its segment, with the slash as delimiter. There
is a route for each of them, and a path that was composed for one decomposes as it was composed.
-/
namespace PathPattern

/-- A piece as a token. Sequences of pieces are the templates without groups. -/
def Piece.token : Piece → Token
  | .text value => .text value
  | .capture key => .capture key

/-- What a capture of this kind can stand for. -/
def Value.Suits : Key.Kind → Value → Prop
  | .param, .single value => value ≠ ""
  | .wildcard, .many values => values ≠ [] ∧ values ≠ [""]
  | .param, .many _ | .wildcard, .single _ => False

/-- Every key is given a value that suits it. -/
def Params.Gives (params : Params) (keys : List Key) : Prop :=
  ∀ key ∈ keys, ∃ value, params[key.name]? = some value ∧ value.Suits key.kind

theorem Params.Gives.tail {params : Params} {key : Key} {keys : List Key}
    (h : params.Gives (key :: keys)) : params.Gives keys :=
  fun other hother => h other (List.mem_cons_of_mem key hother)

theorem Options.letter_slash (o : Options) : o.letter '/' = '/' := by
  have hfold : Text.CaseFold.fold '/' = '/' := by decide +kernel
  unfold letter
  split
  · rfl
  · exact hfold

/-- No character of an encoded value is compared like a slash. -/
theorem Options.letter_ne_slash (o : Options) {s : String} {c : Char}
    (h : c ∈ (Text.Percent.encode s).toList) : o.letter c ≠ '/' := by
  have hfold : ∀ n < 0x80, Char.ofNat n ≠ '/' → Text.CaseFold.fold (Char.ofNat n) ≠ '/' := by
    decide +kernel
  have hne : c ≠ '/' := by
    rintro rfl
    exact Text.Percent.slash_not_mem_encode s h
  have hascii : c.toNat < 0x80 := by
    rcases Text.Percent.mem_encode h with hc | rfl
    · exact Text.Percent.toNat_lt_of_isUnreserved hc
    · decide
  unfold letter
  split
  · exact hne
  · have hc := hfold c.toNat hascii
    rw [Char.ofNat_toNat] at hc
    exact hc hne

/-- What a piece contributes to a composed path. -/
def Piece.written (params : Params) : Piece → List Char
  | .text value => value.toList
  | .capture key =>
    match params[key.name]? with
    | some (.single value) => (Text.Percent.encode value).toList
    | some (.many values) =>
      List.intercalate ['/'] (values.map fun value => (Text.Percent.encode value).toList)
    | none => []

theorem Piece.written_param {params : Params} {name : String} {value : Value}
    (hvalue : params[name]? = some value) (hsuits : value.Suits .param) :
    Piece.written params (.capture ⟨.param, name⟩) ≠ [] ∧
      ∀ o : Options, ∀ c ∈ Piece.written params (.capture ⟨.param, name⟩), o.letter c ≠ '/' := by
  simp only [written, hvalue]
  cases value with
  | single text =>
      exact ⟨Text.Percent.encode_ne_empty hsuits, fun o c hc => o.letter_ne_slash hc⟩
  | many values => exact hsuits.elim

theorem Piece.written_ne_nil {params : Params} {key : Key} {value : Value}
    (hvalue : params[key.name]? = some value) (hsuits : value.Suits key.kind) :
    Piece.written params (.capture key) ≠ [] := by
  obtain ⟨kind, name⟩ := key
  cases kind with
  | param => exact (written_param hvalue hsuits).1
  | wildcard =>
      simp only [written, hvalue]
      cases value with
      | single text => exact hsuits.elim
      | many values =>
          obtain ⟨hne, hempty⟩ := hsuits
          match values with
          | [] => exact absurd rfl hne
          | [single] =>
              have hsingle : single ≠ "" := by
                rintro rfl
                exact hempty rfl
              simpa using Text.Percent.encode_ne_empty hsingle
          | first :: next :: values => simp [List.intercalate_cons_cons]

namespace Sequence

/-- Every param is followed by a text that begins with a slash or ends the sequence, and a wildcard
ends it. -/
inductive Segmented : List Piece → Prop
  | nil : Segmented []
  | text {value rest} : Segmented rest → Segmented (.text value :: rest)
  | param {name value rest} : value.toList.head? = some '/' → Segmented rest →
      Segmented (.capture ⟨.param, name⟩ :: .text value :: rest)
  | last {key} : Segmented [.capture key]

def writtenStops (params : Params) (start : Nat) : List Piece → List Nat
  | [] => []
  | piece :: rest =>
    (start + (piece.written params).length) ::
      writtenStops params (start + (piece.written params).length) rest

variable {o : Options} {params : Params} {input first rest avoided : List Char} {start i : Nat}

theorem stop_le_of_drop (hstart : start ≤ input.length) (h : input.drop start = first ++ rest) :
    start + first.length ≤ input.length := by
  have hlength := congrArg List.length h
  rw [List.length_drop, List.length_append] at hlength
  omega

theorem drop_of_drop (h : input.drop start = first ++ rest) :
    input.drop (start + first.length) = rest := by
  rw [← List.drop_drop, h, List.drop_left]

theorem occursAt_of_drop (h : input.drop start = first ++ rest) :
    OccursAt (o.letters first) (o.letters input) start := by
  unfold OccursAt Options.letters
  rw [← List.map_drop, h, List.map_append]
  exact List.prefix_append _ _

theorem letter_of_drop (h : input.drop start = first ++ rest) (hi : start ≤ i)
    (hlt : i < start + first.length) :
    ∃ c ∈ first, (o.letters input)[i]? = some (o.letter c) := by
  obtain ⟨k, rfl⟩ := Nat.exists_eq_add_of_le hi
  have hk : k < first.length := by omega
  refine ⟨first[k], List.getElem_mem hk, ?_⟩
  rw [Options.letters, List.getElem?_map, ← List.getElem?_drop, h, List.getElem?_append_left hk,
    List.getElem?_eq_getElem hk]
  rfl

theorem letters_slash (o : Options) (text : List Char) :
    o.letters ('/' :: text) = '/' :: o.letters text := by
  rw [Options.letters, List.map_cons, o.letter_slash]
  rfl

theorem clear_of_ne_slash {c : Char} (hc : (o.letters input)[i]? = some c) (hne : c ≠ '/')
    (havoided : avoided = [] ∨ avoided.head? = some '/') :
    Clear (o.letters ['/']) (o.letters avoided) (o.letters input) i := by
  have hno : ∀ more, ¬ OccursAt (o.letters ('/' :: more)) (o.letters input) i := by
    intro more hoccurs
    rw [letters_slash, occursAt_cons, hc] at hoccurs
    exact hne (Option.some.inj hoccurs.1)
  refine ⟨(List.getElem?_eq_some_iff.mp hc).1, fun h => hno [] h.2, ?_⟩
  rintro ⟨hsome, hoccurs⟩
  cases avoided with
  | nil => exact hsome rfl
  | cons d more =>
      rcases havoided with hnil | hslash
      · cases hnil
      · cases hslash
        exact hno more hoccurs

/-- The next text, if one is to be avoided at all, begins with a slash. -/
def SlashBefore (before : List Piece) : Prop :=
  ∀ text, separator ['/'] before = some text → text.head? = some '/'

theorem SlashBefore.text {before : List Piece} (h : SlashBefore before) (value : String) :
    SlashBefore (before ++ [.text value]) := by
  intro text htext
  rw [separator_text] at htext
  obtain ⟨earlier, hearlier, hnext⟩ := Option.bind_eq_some_iff.mp htext
  split at hnext
  · cases hnext
  · cases hnext
    rw [List.head?_append, h earlier hearlier]
    rfl

theorem SlashBefore.segment (before : List Piece) (key : Key) {value : String}
    (hvalue : value.toList.head? = some '/') :
    SlashBefore (before ++ [.capture key] ++ [.text value]) := by
  intro text htext
  rw [separator_text, separator_capture] at htext
  obtain ⟨earlier, hearlier, hnext⟩ := Option.bind_eq_some_iff.mp htext
  cases hearlier
  split at hnext
  · cases hnext
  · cases hnext
    exact hvalue

theorem fits_text {before : List Piece} {value : String} (hstart : start ≤ input.length)
    (h : input.drop start = value.toList ++ rest) :
    Fits o input before start (start + value.toList.length) (.text value) := by
  have hstop := stop_le_of_drop hstart h
  rw [Fits, slice_eq_iff (Nat.le_add_right _ _) (by rwa [o.length_letters]), o.length_letters]
  exact ⟨occursAt_of_drop h, rfl⟩

theorem fits_param {before : List Piece} {name : String} (ho : o.delimiter.toList = ['/'])
    (hbefore : SlashBefore before) (hne : first ≠ []) (hletters : ∀ c ∈ first, o.letter c ≠ '/')
    (h : input.drop start = first ++ rest) :
    Fits o input before start (start + first.length) (.capture ⟨.param, name⟩) := by
  refine ⟨Nat.lt_add_of_pos_right (List.length_pos_of_ne_nil hne), ?_⟩
  intro i hi hlt
  obtain ⟨c, hc, hletter⟩ := letter_of_drop (o := o) h hi hlt
  rw [ho]
  refine clear_of_ne_slash hletter (hletters c hc) ?_
  cases hseparator : separator ['/'] before with
  | none => exact .inl rfl
  | some text => exact .inr (hbefore text hseparator)

/-- A composed path decomposes as it was composed. -/
theorem decomposes_written {pieces before : List Piece} (hsegmented : Segmented pieces)
    (ho : o.delimiter.toList = ['/']) (hbefore : SlashBefore before)
    (hgives : params.Gives (keys pieces))
    (hstart : start ≤ input.length)
    (hinput : input.drop start = pieces.flatMap (Piece.written params)) :
    Decomposes o input before start pieces (writtenStops params start pieces) := by
  induction hsegmented generalizing before start with
  | nil => exact .nil
  | @text value rest _ ih =>
      rw [List.flatMap_cons] at hinput
      have hstop := stop_le_of_drop hstart hinput
      refine .cons (Nat.le_add_right _ _) hstop (fits_text hstart hinput) ?_
      exact ih (hbefore.text value) hgives hstop (drop_of_drop hinput)
  | @param name value rest hslash _ ih =>
      rw [List.flatMap_cons, List.flatMap_cons] at hinput
      obtain ⟨given, hgiven, hgivenSuits⟩ := hgives ⟨.param, name⟩ List.mem_cons_self
      obtain ⟨hne, hletters⟩ := Piece.written_param hgiven hgivenSuits
      have hparam := stop_le_of_drop hstart hinput
      have hafter := drop_of_drop hinput
      have htext := stop_le_of_drop hparam hafter
      refine .cons (Nat.le_add_right _ _) hparam
        (fits_param ho hbefore hne (hletters o) hinput) ?_
      refine .cons (Nat.le_add_right _ _) htext (fits_text hparam hafter) ?_
      exact ih (SlashBefore.segment before _ hslash)
        hgives.tail htext (drop_of_drop hafter)
  | @last key =>
      rw [List.flatMap_cons] at hinput
      obtain ⟨given, hgiven, hgivenSuits⟩ := hgives key List.mem_cons_self
      have hstop := stop_le_of_drop hstart hinput
      refine .cons (Nat.le_add_right _ _) hstop ?_ .nil
      obtain ⟨kind, name⟩ := key
      cases kind with
      | param =>
          obtain ⟨hne, hletters⟩ := Piece.written_param hgiven hgivenSuits
          exact fits_param ho hbefore hne (hletters o) hinput
      | wildcard =>
          have hne := Piece.written_ne_nil hgiven hgivenSuits
          exact Nat.lt_add_of_pos_right (List.length_pos_of_ne_nil hne)

theorem stop_of_fits_text {before : List Piece} {value : String} {stop : Nat} (hle : start ≤ stop)
    (hstop : stop ≤ input.length) (h : Fits o input before start stop (.text value)) :
    OccursAt (o.letters value.toList) (o.letters input) start ∧
      stop = start + value.toList.length := by
  rw [Fits, slice_eq_iff hle (by rwa [o.length_letters]), o.length_letters] at h
  exact h

/-- A param goes on to the slash that follows it, and no farther. -/
theorem stop_of_fits_param {before : List Piece} {name value : String} {stop next : Nat}
    (ho : o.delimiter.toList = ['/']) (hletters : ∀ c ∈ first, o.letter c ≠ '/')
    (hslash : value.toList.head? = some '/')
    (hinput : input.drop start = first ++ (value.toList ++ rest))
    (hle : start ≤ stop) (hfits : Fits o input before start stop (.capture ⟨.param, name⟩))
    (hnext : stop ≤ next) (hend : next ≤ input.length)
    (htext : Fits o input (before ++ [.capture ⟨.param, name⟩]) stop next (.text value)) :
    stop = start + first.length := by
  obtain ⟨more, hmore⟩ : ∃ more, value.toList = '/' :: more := by
    cases hvalue : value.toList with
    | nil =>
        rw [hvalue] at hslash
        cases hslash
    | cons c more =>
        rw [hvalue] at hslash
        cases hslash
        exact ⟨more, rfl⟩
  have hnot_past : ¬ start + first.length < stop := by
    intro hpast
    have hclear := hfits.2 (start + first.length) (Nat.le_add_right _ _) hpast
    have hoccurs : OccursAt (o.letters ['/']) (o.letters input) (start + first.length) := by
      have hdrop := drop_of_drop hinput
      rw [hmore, List.cons_append, ← List.singleton_append] at hdrop
      exact occursAt_of_drop hdrop
    rw [ho] at hclear
    refine hclear.2.1 ⟨?_, hoccurs⟩
    rw [letters_slash]
    exact List.cons_ne_nil _ _
  have hnot_before : ¬ stop < start + first.length := by
    intro hshort
    obtain ⟨c, hc, hletter⟩ := letter_of_drop (o := o) hinput hle hshort
    obtain ⟨hoccurs, -⟩ := stop_of_fits_text hnext hend htext
    rw [hmore, letters_slash, occursAt_cons, hletter] at hoccurs
    exact hletters c hc (Option.some.inj hoccurs.1)
  omega

/-- No other decomposition of a composed path has a longer part where the two first differ. -/
theorem stops_le_written {pieces before : List Piece} {stops : List Nat}
    (hsegmented : Segmented pieces) (ho : o.delimiter.toList = ['/'])
    (hgives : params.Gives (keys pieces))
    (hinput : input.drop start = pieces.flatMap (Piece.written params))
    (hstart : start ≤ input.length)
    (h : Decomposes o input before start pieces stops) :
    stops = writtenStops params start pieces ∨ stops < writtenStops params start pieces := by
  induction hsegmented generalizing before start stops with
  | nil =>
      cases h
      exact .inl rfl
  | @text value rest _ ih =>
      rw [List.flatMap_cons] at hinput
      cases h with
      | cons hle hend hfits hrest =>
          obtain ⟨-, rfl⟩ := stop_of_fits_text hle hend hfits
          rcases ih hgives (drop_of_drop hinput) hend hrest with heq | hlt
          · exact .inl (congrArg _ heq)
          · exact .inr (List.cons_lt_cons_iff.mpr (.inr ⟨rfl, hlt⟩))
  | @param name value rest hslash _ ih =>
      rw [List.flatMap_cons, List.flatMap_cons] at hinput
      obtain ⟨given, hgiven, hgivenSuits⟩ := hgives ⟨.param, name⟩ List.mem_cons_self
      obtain ⟨-, hletters⟩ := Piece.written_param hgiven hgivenSuits
      cases h with
      | cons hle hend hfits hmore =>
          cases hmore with
          | cons hnext hnextEnd htext hrest =>
              have hstop := stop_of_fits_param ho (hletters o) hslash hinput hle hfits hnext
                hnextEnd htext
              subst hstop
              obtain ⟨-, rfl⟩ := stop_of_fits_text hnext hnextEnd htext
              have hafter := drop_of_drop (drop_of_drop hinput)
              rcases ih hgives.tail hafter hnextEnd hrest with heq | hlt
              · exact .inl (congrArg _ (congrArg _ heq))
              · exact .inr (List.cons_lt_cons_iff.mpr
                  (.inr ⟨rfl, List.cons_lt_cons_iff.mpr (.inr ⟨rfl, hlt⟩)⟩))
  | @last key =>
      rw [List.flatMap_cons, List.flatMap_nil, List.append_nil] at hinput
      have hlength := congrArg List.length hinput
      rw [List.length_drop] at hlength
      cases h with
      | @cons _ _ _ _ stop _ hle hend _ hrest =>
          cases hrest
          -- only here can a part be shorter: a wildcard may leave its last slash to the ending
          by_cases heq : stop = start + (Piece.written params (.capture key)).length
          · exact .inl (by rw [heq]; rfl)
          · exact .inr (List.cons_lt_cons_iff.mpr (.inl (by omega)))

theorem getLast?_writtenStops (params : Params) (start : Nat) (pieces : List Piece) :
    (writtenStops params start pieces).getLast?.getD start =
      start + (pieces.flatMap (Piece.written params)).length := by
  induction pieces generalizing start with
  | nil => rfl
  | cons piece rest ih =>
      rw [writtenStops, List.getLast?_cons, Option.getD_some, ih, List.flatMap_cons,
        List.length_append, Nat.add_assoc]

/-- The cut along which a path was composed. -/
def writtenCut (params : Params) (pieces : List Piece) : Cut :=
  ⟨writtenStops params 0 pieces, false⟩

/-- A composed path is matched along this cut. -/
theorem head?_list_written {pieces : List Piece} (hsegmented : Segmented pieces)
    (ho : o.delimiter.toList = ['/'])
    (hgives : params.Gives (keys pieces))
    (hinput : input = pieces.flatMap (Piece.written params)) :
    (Cut.list o input pieces).head? = some (writtenCut params pieces) := by
  have hplace : (writtenStops params 0 pieces).getLast?.getD 0 = input.length := by
    rw [getLast?_writtenStops, hinput, Nat.zero_add]
  have hdrop : input.drop 0 = pieces.flatMap (Piece.written params) := hinput
  have hbefore : SlashBefore [] := by
    intro text htext
    cases htext
  have hcut : (writtenCut params pieces).Of o input pieces :=
    ⟨decomposes_written hsegmented ho hbefore hgives (Nat.zero_le _) hdrop,
      Cut.ends_plain.mpr (.inl hplace)⟩
  cases hlist : Cut.list o input pieces with
  | nil =>
      have hmem := Cut.mem_list.mpr hcut
      rw [hlist] at hmem
      cases hmem
  | cons cut more =>
      have hbest := Cut.best_of_list hlist
      by_cases heq : cut = writtenCut params pieces
      · rw [heq, List.head?_cons]
      · exfalso
        rcases hbest.preferred _ hcut (Ne.symm heq) with hlonger | ⟨hstops, htrailing, -⟩
        · rcases stops_le_written hsegmented ho hgives hdrop (Nat.zero_le _) hbest.isCut.parts with
            hsame | hshorter
          · rw [hsame] at hlonger
            exact List.lt_irrefl _ hlonger
          · exact List.lt_asymm hlonger hshorter
        · obtain ⟨-, hstop, -⟩ := hbest.isCut.ends.trailing htrailing
          rw [Cut.stop, if_pos htrailing, Cut.place, hstops, ho] at hstop
          have hlonger : input.length + 1 = input.length := hplace ▸ hstop
          omega

theorem items_segmented {pieces : List Piece} (hsegmented : Segmented pieces) {index : Nat}
    {avoid : Option (List Char)} (havoid : avoid ≠ some []) :
    ∃ es, items ['/'] index avoid pieces = .ok es := by
  induction hsegmented generalizing index avoid with
  | nil => exact ⟨[], rfl⟩
  | @text value rest _ ih =>
      have hnext : avoidNext ['/'] avoid value.toList ≠ some [] := by
        cases avoid with
        | none => exact fun h => nomatch h
        | some before =>
            have hbefore : before ≠ [] := fun h => havoid (congrArg some h)
            simp [avoidNext, hbefore]
      obtain ⟨more, hmore⟩ := ih hnext
      exact ⟨_, items_text_eq_ok.mpr ⟨more, hmore, rfl⟩⟩
  | @param name value rest hslash _ ih =>
      have hnext : avoidNext ['/'] (some []) value.toList ≠ some [] := by
        have hvalue : value.toList ≠ [] := by
          intro hnil
          rw [hnil] at hslash
          cases hslash
        simp only [avoidNext, Option.bind_some]
        split
        · exact fun h => nomatch h
        · simpa using hvalue
      obtain ⟨more, hmore⟩ := ih hnext
      exact ⟨_, items_capture_eq_ok.mpr
        ⟨havoid, _, items_text_eq_ok.mpr ⟨more, hmore, rfl⟩, rfl⟩⟩
  | last => exact ⟨_, items_capture_eq_ok.mpr ⟨havoid, [], rfl, rfl⟩⟩

end Sequence

theorem Template.extend_pieces (before pieces : List Piece) :
    Template.extend before (pieces.map Piece.token) = [before ++ pieces] := by
  induction pieces generalizing before with
  | nil => rw [List.map_nil, Template.extend, List.append_nil]
  | cons piece rest ih =>
      cases piece with
      | text value =>
          rw [List.map_cons, Piece.token, Template.extend, Token.extend, List.flatMap_singleton, ih,
            List.append_assoc, List.singleton_append]
      | capture key =>
          rw [List.map_cons, Piece.token, Template.extend, Token.extend, List.flatMap_singleton, ih,
            List.append_assoc, List.singleton_append]

theorem Template.flatMap_alternatives_pieces (pieces : List Piece) :
    [pieces.map Piece.token].flatMap Template.alternatives = [pieces] := by
  rw [List.flatMap_singleton]
  exact extend_pieces [] pieces

theorem Route.synthesize_segmented {o : Options} {pieces : List Piece}
    (hsegmented : Sequence.Segmented pieces) (ho : o.delimiter.toList = ['/']) :
    ∃ route, synthesize o [pieces.map Piece.token] = .ok route ∧
      route.keys = Sequence.keys pieces := by
  obtain ⟨es, hes⟩ : ∃ es, Sequence.items ['/'] 1 none pieces = .ok es :=
    Sequence.items_segmented hsegmented fun h => nomatch h
  have hbranches : Sequence.branches o.delimiter.toList 1
      ([pieces.map Piece.token].flatMap Template.alternatives) = .ok [Regex.cat es] := by
    rw [Template.flatMap_alternatives_pieces, ho]
    exact Sequence.branches_cons_eq_ok.mpr ⟨es, [], hes, rfl, rfl⟩
  have hrepeat := Route.badRepeat?_frame hbranches
    (fun _ => by rw [ho]; exact List.cons_ne_nil _ _) (flagSize o)
  refine ⟨_, synthesize_eq_ok.mpr ⟨_, hbranches, hrepeat, rfl⟩, ?_⟩
  rw [Template.flatMap_alternatives_pieces]
  exact List.append_nil _

end PathPattern
