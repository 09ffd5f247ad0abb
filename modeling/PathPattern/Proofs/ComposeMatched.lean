import Mathlib.Data.List.Forall2
import Mathlib.Data.List.Nodup
import PathPattern.Matcher
import PathPattern.Proofs.Matching
import PathPattern.Proofs.SuppliedAlternative

/-!
A path composed from the parameters of a match is the path that matched, up to a trailing delimiter.
Which groups took part in the match can be told from the names that it has.
-/
namespace PathPattern

/-- Every group has a capture of its own, outside the groups in it. -/
inductive Template.GroupsCapture : List Token → Prop
  | nil : GroupsCapture []
  | text {value rest} : GroupsCapture rest → GroupsCapture (.text value :: rest)
  | capture {key rest} : GroupsCapture rest → GroupsCapture (.capture key :: rest)
  | group {tokens rest} : (∃ key, .capture key ∈ tokens) → GroupsCapture tokens →
      GroupsCapture rest → GroupsCapture (.group tokens :: rest)

namespace Matcher

/-- The texts that are decoded one by one: that of a param as a whole, that of a wildcard between
delimiters. -/
def parts (m : Matcher) (taken : List Char) : Key.Kind → List (List Char)
  | .param => [taken]
  | .wildcard => Text.split m.delimiter.toList taken

/-- All the texts that are decoded when the input is matched. -/
def decoded (m : Matcher) (input : String) : List String :=
  match m.route.find input.toList with
  | .ok (some hit) =>
    (m.route.keys.zipIdx 1).flatMap fun (key, n) =>
      match hit.group? n with
      | some span => (m.parts (span.slice input.toList) key.kind).map String.ofList
      | none => []
  | _ => []

theorem mem_decoded {m : Matcher} {input : String} {hit : Regex.Hit} {n : Nat} {key : Key}
    {span : Regex.Span} {part : List Char} (hfind : m.route.find input.toList = .ok (some hit))
    (hkey : m.route.keys[n]? = some key) (hgroup : hit.group? (1 + n) = some span)
    (hpart : part ∈ m.parts (span.slice input.toList) key.kind) :
    String.ofList part ∈ m.decoded input := by
  rw [decoded, hfind]
  refine List.mem_flatMap.mpr ⟨(key, 1 + n), List.mk_add_mem_zipIdx_iff_getElem?.mpr hkey, ?_⟩
  simp only [hgroup]
  exact List.mem_map_of_mem hpart

end Matcher

namespace Text

theorem splitFrom_ne_nil (separator : List Char) (skip : Nat) (text : List Char) :
    splitFrom separator skip text ≠ [] := by
  fun_induction splitFrom separator skip text with
  | case1 => exact List.cons_ne_nil _ _
  | case2 skip c rest ih => exact ih
  | case3 c rest _ _ => exact List.cons_ne_nil _ _
  | case4 c rest _ _ =>
      unfold pushFirst
      split <;> exact List.cons_ne_nil _ _

theorem intercalate_pushFirst (separator : List Char) (c : Char) (parts : List (List Char)) :
    List.intercalate separator (pushFirst c parts) = c :: List.intercalate separator parts := by
  cases parts with
  | nil => rfl
  | cons part parts => exact List.intercalate_cons_cons_left

theorem intercalate_splitFrom {separator : List Char} (hne : separator ≠ []) (skip : Nat)
    (text : List Char) :
    List.intercalate separator (splitFrom separator skip text) = text.drop skip := by
  fun_induction splitFrom separator skip text with
  | case1 skip => simp
  | case2 skip c rest ih => exact ih
  | case3 c rest hoccurs ih =>
      obtain ⟨after, hafter⟩ := List.isPrefixOf_iff_prefix.mp hoccurs
      have hrest : rest.drop (separator.length - 1) = after := by
        have hlength := List.length_pos_of_ne_nil hne
        have hdrop : (c :: rest).drop separator.length = after := by
          rw [← hafter, List.drop_left]
        rwa [← Nat.sub_add_cancel hlength, List.drop_succ_cons] at hdrop
      rw [List.intercalate_cons_of_ne_nil (splitFrom_ne_nil _ _ _), ih, hrest, List.nil_append,
        hafter]
      rfl
  | case4 c rest _ ih =>
      rw [intercalate_pushFirst, ih]
      rfl

theorem intercalate_empty (parts : List (List Char)) :
    List.intercalate [] parts = parts.flatten := by
  induction parts with
  | nil => rfl
  | cons part parts ih =>
      cases parts with
      | nil => simp
      | cons next parts =>
          rw [List.intercalate_cons_cons, ih, List.append_nil]
          rfl

theorem intercalate_split (separator text : List Char) :
    List.intercalate separator (split separator text) = text := by
  unfold split
  split
  · rename_i hempty
    rw [List.isEmpty_iff.mp hempty, intercalate_empty]
    simp [← List.flatMap_def]
  · rename_i hne
    exact intercalate_splitFrom (by simpa using hne) 0 text

theorem split_ne_nil (separator text : List Char) : split separator text ≠ [] := by
  unfold split
  split
  · exact List.cons_ne_nil _ _
  · exact splitFrom_ne_nil separator 0 text

end Text

namespace Template

theorem mem_keys_of_capture {template : Template} {key : Key} (h : Token.capture key ∈ template) :
    key ∈ keys template := by
  induction template with
  | nil => cases h
  | cons token rest ih =>
      rw [keys, List.mem_append]
      rcases List.mem_cons.mp h with rfl | h
      · exact .inl (List.mem_singleton.mpr rfl)
      · exact .inr (ih h)

theorem mem_lacking {params : Params} {template : Template} {key : Key}
    (h : Token.capture key ∈ template) (habsent : key.name ∉ params) :
    key.name ∈ lacking params template := by
  have hcontains : params.contains key.name = false := by
    rw [Bool.eq_false_iff, ne_eq, Std.ExtTreeMap.contains_iff_mem]
    exact habsent
  refine List.mem_filter.mpr ⟨List.mem_filterMap.mpr ⟨_, h, rfl⟩, ?_⟩
  rw [hcontains]
  rfl

/-- The parameters have the names of the alternative and no others of the template. -/
def NamedBy (params : Params) (template : Template) (pieces : List Piece) : Prop :=
  ∀ key ∈ keys template, key.name ∈ params ↔ key ∈ Sequence.keys pieces

/-- The names of an alternative say which groups it keeps. -/
theorem kept_of_namedBy {params : Params} {template : Template} {pieces : List Piece}
    (hgroups : GroupsCapture template) (hnames : ((keys template).map Key.name).Nodup)
    (hpieces : pieces ∈ alternatives template) (hparams : NamedBy params template pieces) :
    kept params template = pieces ∧ lacking params template = [] := by
  induction hgroups generalizing pieces with
  | nil =>
      rw [alternatives_nil, List.mem_singleton] at hpieces
      subst hpieces
      exact ⟨rfl, rfl⟩
  | @text value rest _ ih =>
      rw [alternatives_text] at hpieces
      obtain ⟨more, hmore, rfl⟩ := List.mem_map.mp hpieces
      unfold NamedBy at hparams
      rw [keys_text] at hnames hparams
      obtain ⟨hkept, hlacking⟩ := ih hnames hmore hparams
      exact ⟨congrArg (Piece.text value :: ·) hkept, hlacking⟩
  | @capture key rest _ ih =>
      rw [alternatives_capture] at hpieces
      obtain ⟨more, hmore, rfl⟩ := List.mem_map.mp hpieces
      unfold NamedBy at hparams
      rw [keys_capture] at hnames hparams
      rw [List.map_cons, List.nodup_cons] at hnames
      have hrest : NamedBy params rest more := by
        intro other hother
        rw [hparams other (List.mem_cons_of_mem key hother)]
        change other ∈ key :: Sequence.keys more ↔ _
        rw [List.mem_cons]
        refine or_iff_right ?_
        rintro rfl
        exact hnames.1 (List.mem_map_of_mem hother)
      obtain ⟨hkept, hlacking⟩ := ih hnames.2 hmore hrest
      have hgiven : key.name ∈ params :=
        (hparams key List.mem_cons_self).mpr List.mem_cons_self
      refine ⟨congrArg (Piece.capture key :: ·) hkept, ?_⟩
      rw [lacking_capture, if_pos (Std.ExtTreeMap.contains_iff_mem.mpr hgiven), hlacking]
  | @group tokens rest hown _ _ ihTokens ih =>
      unfold NamedBy at hparams
      rw [keys_group] at hnames hparams
      rw [List.map_append, List.nodup_append] at hnames
      obtain ⟨hnamesTokens, hnamesRest, hdisjoint⟩ := hnames
      have hnotBoth : ∀ key ∈ keys tokens, key ∉ keys rest := by
        intro key htokens hrest
        exact hdisjoint _ (List.mem_map_of_mem htokens) _ (List.mem_map_of_mem hrest) rfl
      change (if (lacking params tokens).isEmpty then _ else []) ++ kept params rest = pieces ∧
        lacking params rest = []
      rcases mem_alternatives_group.mp hpieces with
        ⟨inner, hinner, more, hmore, rfl⟩ | hrest
      · simp only [Sequence.keys_append, List.mem_append] at hparams
        have htokens : NamedBy params tokens inner := by
          intro key hkey
          rw [hparams key (.inl hkey)]
          refine or_iff_left ?_
          intro hlater
          exact hnotBoth key hkey ((keys_sublist hmore).subset hlater)
        have hafter : NamedBy params rest more := by
          intro key hkey
          rw [hparams key (.inr hkey)]
          refine or_iff_right ?_
          intro hearlier
          exact hnotBoth key ((keys_sublist hinner).subset hearlier) hkey
        obtain ⟨hkeptTokens, hlackingTokens⟩ := ihTokens hnamesTokens hinner htokens
        obtain ⟨hkept, hlacking⟩ := ih hnamesRest hmore hafter
        rw [hkeptTokens, hlackingTokens, hkept]
        exact ⟨rfl, hlacking⟩
      · -- the group's own capture is not in the alternative, so it lacks its parameter
        obtain ⟨key, hkey⟩ := hown
        have habsent : key.name ∉ params := by
          have hmem := mem_keys_of_capture hkey
          rw [hparams key (List.mem_append_left _ hmem)]
          intro hpiece
          exact hnotBoth key hmem ((keys_sublist hrest).subset hpiece)
        have hlackingTokens : (lacking params tokens).isEmpty = false :=
          List.isEmpty_eq_false_iff_exists_mem.mpr ⟨_, mem_lacking hkey habsent⟩
        have hafter : NamedBy params rest pieces := by
          intro other hother
          exact hparams other (List.mem_append_right _ hother)
        obtain ⟨hkept, hlacking⟩ := ih hnamesRest hrest hafter
        rw [hlackingTokens, hkept]
        exact ⟨rfl, hlacking⟩

end Template

namespace Matcher

variable {m : Matcher} {input : List Char} {hit : Regex.Hit}

theorem match?_eq_some {input : String} {found : Match} :
    m.match? input = .ok (some found) ↔
      ∃ hit, m.route.find input.toList = .ok (some hit) ∧
        m.collect input.toList hit 1 m.route.keys Params.empty = .ok found.params ∧
        found.path = String.ofList (input.toList.take hit.stop) := by
  rw [match?, bind_eq_ok]
  constructor
  · rintro ⟨hit?, hfind, hrest⟩
    cases hit? with
    | none => cases hrest
    | some hit =>
        obtain ⟨params, hcollect, hfound⟩ := bind_eq_ok.mp hrest
        cases hfound
        exact ⟨hit, hfind, hcollect, rfl⟩
  · rintro ⟨hit, hfind, hcollect, hpath⟩
    refine ⟨some hit, hfind, bind_eq_ok.mpr ⟨found.params, hcollect, ?_⟩⟩
    rw [← hpath]
    rfl

theorem collect_unset {index : Nat} {keys : List Key}
    (h : ∀ n < keys.length, hit.group? (index + n) = none) (params : Params) :
    m.collect input hit index keys params = .ok params := by
  induction keys generalizing index with
  | nil => rfl
  | cons key keys ih =>
      have hfirst : hit.group? index = none := h 0 (Nat.zero_lt_succ _)
      rw [collect, hfirst]
      apply ih
      intro n hn
      rw [Nat.add_assoc, Nat.add_comm 1]
      exact h (n + 1) (Nat.succ_lt_succ hn)

theorem collect_append (index : Nat) (a b : List Key) (params : Params) :
    m.collect input hit index (a ++ b) params =
      m.collect input hit index a params >>= m.collect input hit (index + a.length) b := by
  induction a generalizing index params with
  | nil => rfl
  | cons key a ih =>
      have hindex : index + (key :: a).length = index + 1 + a.length := by
        rw [List.length_cons]
        omega
      rw [hindex, List.cons_append, collect, collect]
      cases hit.group? index with
      | none => exact ih (index + 1) params
      | some span =>
          dsimp only
          rw [bind_assoc]
          congr 1
          funext value
          exact ih (index + 1) (params.insert key.name value)

theorem collect_set {index : Nat} {keys : List Key} {spans : List Regex.Span}
    {params result : Params} (hspans : ∀ n, n < keys.length → hit.group? (index + n) = spans[n]?)
    (hlength : spans.length = keys.length) (hnames : (keys.map Key.name).Nodup)
    (h : m.collect input hit index keys params = .ok result) :
    (∀ name, name ∉ keys.map Key.name → result[name]? = params[name]?) ∧
      List.Forall₂
        (fun key span => ∃ value, result[key.name]? = some value ∧
          m.value key.kind (span.slice input) = .ok value) keys spans := by
  induction keys generalizing index spans params with
  | nil =>
      cases h
      rw [List.length_eq_zero_iff.mp hlength]
      exact ⟨fun _ _ => rfl, .nil⟩
  | cons key keys ih =>
      cases spans with
      | nil => cases hlength
      | cons span spans =>
          have hfirst : hit.group? index = some span := hspans 0 (Nat.zero_lt_succ _)
          rw [collect, hfirst] at h
          obtain ⟨value, hvalue, hrest⟩ := bind_eq_ok.mp h
          rw [List.map_cons, List.nodup_cons] at hnames
          have hlater : ∀ n, n < keys.length → hit.group? (index + 1 + n) = spans[n]? := by
            intro n hn
            rw [Nat.add_assoc, Nat.add_comm 1, hspans (n + 1) (Nat.succ_lt_succ hn)]
            rfl
          obtain ⟨hother, hvalues⟩ := ih hlater (Nat.succ.inj hlength) hnames.2 hrest
          constructor
          · intro name hname
            rw [List.map_cons, List.mem_cons, not_or] at hname
            rw [hother name hname.2, Std.ExtTreeMap.getElem?_insert]
            simp [Ne.symm hname.1]
          · refine .cons ⟨value, ?_, hvalue⟩ hvalues
            rw [hother key.name hnames.1, Std.ExtTreeMap.getElem?_insert_self]

theorem mapM_undone {decode : String → Except Error String} {encode : String → String}
    {parts : List (List Char)} {values : List String}
    (h : parts.mapM (fun part => decode (String.ofList part)) = .ok values)
    (hcodec : ∀ part ∈ parts,
      (decode (String.ofList part)).map encode = .ok (String.ofList part)) :
    values.map encode = parts.map String.ofList := by
  induction parts generalizing values with
  | nil =>
      cases h
      rfl
  | cons part parts ih =>
      rw [List.mapM_cons] at h
      obtain ⟨value, hvalue, h⟩ := bind_eq_ok.mp h
      obtain ⟨more, hmore, h⟩ := bind_eq_ok.mp h
      cases h
      have hfirst := hcodec part List.mem_cons_self
      rw [hvalue] at hfirst
      have hrest := ih hmore fun part hpart => hcodec part (List.mem_cons_of_mem _ hpart)
      rw [List.map_cons, List.map_cons, hrest, Except.ok.inj hfirst]

/-- The value of what a group took has the shape that its key asks for, and is written as what the
group took. -/
theorem rendering_of_value {c : Composer} {decode : String → Except Error String}
    {params : Params} {key : Key} {value : Value} {taken : List Char}
    (hdelimiter : c.delimiter = m.delimiter) (hdecode : m.decode = some decode)
    (hgiven : params[key.name]? = some value) (hvalue : m.value key.kind taken = .ok value)
    (hcodec : ∀ part ∈ m.parts taken key.kind,
      (decode (String.ofList part)).map c.encodeValue = .ok (String.ofList part)) :
    value.Fills key.kind ∧ c.rendering params (.capture key) = String.ofList taken := by
  obtain ⟨kind, name⟩ := key
  unfold Matcher.value at hvalue
  rw [hdecode] at hvalue
  simp only [Composer.rendering, hgiven]
  cases kind with
  | param =>
      obtain ⟨text, htext, hvalue⟩ := bind_eq_ok.mp hvalue
      cases hvalue
      have hundone := hcodec taken (List.mem_singleton.mpr rfl)
      rw [htext] at hundone
      exact ⟨trivial, Except.ok.inj hundone⟩
  | wildcard =>
      obtain ⟨values, hvalues, hvalue⟩ := bind_eq_ok.mp hvalue
      cases hvalue
      have hundone := mapM_undone hvalues hcodec
      constructor
      · rintro rfl
        exact Text.split_ne_nil _ _ (List.map_eq_nil_iff.mp hundone.symm)
      · change c.delimiter.intercalate (values.map c.encodeValue) = _
        rw [hundone, hdelimiter, ← String.toList_inj, String.toList_intercalate,
          String.toList_ofList, List.map_map]
        have hsame : String.toList ∘ String.ofList = id := by
          funext cs
          exact String.toList_ofList
        rw [hsame, List.map_id]
        exact Text.intercalate_split _ _

end Matcher

theorem Options.letters_of_sensitive {o : Options} (h : o.sensitive = true) (cs : List Char) :
    o.letters cs = cs := by
  simp [letters, letter, h]

theorem Regex.take_append_slice {input : List Char} {start stop : Nat} (h : start ≤ stop) :
    input.take start ++ Span.slice ⟨start, stop⟩ input = input.take stop := by
  unfold Span.slice
  rw [← List.take_add, Nat.add_sub_cancel' h]

/-- If the captures of a decomposition are written as they were taken, its parts lie one after
another in what is written. -/
theorem Sequence.Decomposes.take_render {o : Options} {c : Composer} {params : Params}
    {input : List Char} {before pieces : List Piece} {start : Nat} {stops : List Nat}
    (h : Decomposes o input before start pieces stops) (hsensitive : o.sensitive = true)
    (hcaptures : List.Forall₂
      (fun key span => c.rendering params (.capture key) = String.ofList (span.slice input))
      (keys pieces) (captured start pieces stops)) :
    input.take start ++ (c.render params pieces).toList =
      input.take (stops.getLast?.getD start) := by
  induction h with
  | nil => exact List.append_nil _
  | @cons before start piece rest stop stops hle _ hfits _ ih =>
      rw [Composer.render_cons, String.toList_append, ← List.append_assoc, List.getLast?_cons,
        Option.getD_some]
      cases piece with
      | text value =>
          simp only [Fits, o.letters_of_sensitive hsensitive] at hfits
          rw [Composer.rendering, ← hfits, Regex.take_append_slice hle]
          exact ih hcaptures
      | capture key =>
          cases hcaptures with
          | cons hfirst hrest =>
              rw [hfirst, String.toList_ofList, Regex.take_append_slice hle]
              exact ih hrest

theorem Cut.Ends.take_stop {o : Options} {input : List Char} {cut : Cut} (h : cut.Ends o input)
    (hsensitive : o.sensitive = true) :
    input.take (cut.stop o) = input.take cut.place ∨
      o.trailing = true ∧
        input.take (cut.stop o) = input.take cut.place ++ o.delimiter.toList := by
  cases htrailing : cut.trailing with
  | false =>
      rw [Cut.stop, htrailing]
      exact .inl rfl
  | true =>
      obtain ⟨hoption, -, hoccurs⟩ := h.trailing htrailing
      rw [o.letters_of_sensitive hsensitive, o.letters_of_sensitive hsensitive] at hoccurs
      refine .inr ⟨hoption, ?_⟩
      rw [Cut.stop, htrailing, if_pos rfl, List.take_add, ← List.prefix_iff_eq_take.mp hoccurs]

theorem Route.keys_eq {o : Options} {templates : List Template} {route : Route}
    {before after : List (List Piece)} {pieces : List Piece}
    (hroute : synthesize o templates = .ok route)
    (hsplit : templates.flatMap Template.alternatives = before ++ pieces :: after) :
    route.keys = before.flatMap Sequence.keys ++
      (Sequence.keys pieces ++ after.flatMap Sequence.keys) := by
  obtain ⟨bs, -, -, rfl⟩ := synthesize_eq_ok.mp hroute
  rw [hsplit, List.flatMap_append, List.flatMap_cons]

theorem Route.group?_alternative (o : Options) (count : Nat) (pieces : List Piece) (cut : Cut)
    (n : Nat) :
    (hitOfCut o (1 + count) pieces cut).group? (1 + count + n) =
      (Sequence.captured 0 pieces cut.stops)[n]? := by
  rw [hitOfCut, Sequence.group?_edges, if_pos (Nat.le_add_right _ _), Nat.add_sub_cancel_left]

theorem Matcher.collect_alternative {m : Matcher} {o : Options} {input : List Char}
    {pieces : List Piece} {cut : Cut} (hcut : cut.Of o input pieces) (before after : List Key)
    (params : Params) :
    m.collect input (Route.hitOfCut o (1 + before.length) pieces cut) 1
        (before ++ (Sequence.keys pieces ++ after)) params =
      m.collect input (Route.hitOfCut o (1 + before.length) pieces cut) (1 + before.length)
        (Sequence.keys pieces) params := by
  have hbefore : ∀ n < before.length,
      (Route.hitOfCut o (1 + before.length) pieces cut).group? (1 + n) = none := by
    intro n hn
    rw [Route.hitOfCut, Sequence.group?_edges, if_neg (by omega)]
  have hafter : ∀ n < after.length,
      (Route.hitOfCut o (1 + before.length) pieces cut).group?
        (1 + before.length + (Sequence.keys pieces).length + n) = none := by
    intro n _
    rw [Nat.add_assoc (1 + before.length), Route.group?_alternative, List.getElem?_eq_none_iff,
      hcut.parts.length_captured]
    exact Nat.le_add_right _ _
  have hlast : m.collect input (Route.hitOfCut o (1 + before.length) pieces cut)
      (1 + before.length + (Sequence.keys pieces).length) after = pure := by
    funext result
    exact collect_unset hafter result
  rw [collect_append, collect_unset hbefore]
  change m.collect input _ _ (Sequence.keys pieces ++ after) params = _
  rw [collect_append, hlast]
  exact bind_pure _

/-- A match is made by some alternative, whose keys have the values of what its captures took. -/
theorem Matcher.match?_alternative {o : Options} {template : Template} {route : Route}
    {input : String} {found : Match} (hroute : Route.synthesize o [template] = .ok route)
    (hnames : ((Template.keys template).map Key.name).Nodup)
    (hmatch : (ofRoute o route).match? input = .ok (some found)) :
    ∃ pieces ∈ Template.alternatives template, ∃ cut : Cut, cut.Of o input.toList pieces ∧
      found.path = String.ofList (input.toList.take (cut.stop o)) ∧
      (∀ name, name ∉ (Sequence.keys pieces).map Key.name → found.params[name]? = none) ∧
      List.Forall₂
        (fun key span =>
          (∃ value, found.params[key.name]? = some value ∧
            (ofRoute o route).value key.kind (span.slice input.toList) = .ok value) ∧
          ∀ part ∈ (ofRoute o route).parts (span.slice input.toList) key.kind,
            String.ofList part ∈ (ofRoute o route).decoded input)
        (Sequence.keys pieces) (Sequence.captured 0 pieces cut.stops) := by
  obtain ⟨hit, hfind, hcollect, hpath⟩ := match?_eq_some.mp hmatch
  obtain ⟨before, pieces, after, cut, hsplit, hcut, rfl⟩ :=
    Route.find_eq_some (List.cons_ne_nil _ _) hroute hfind
  have hkeys := Route.keys_eq hroute hsplit
  rw [List.flatMap_singleton] at hsplit
  have hpieces : pieces ∈ Template.alternatives template := by
    rw [hsplit]
    exact List.mem_append_right _ List.mem_cons_self
  have hnodup : ((Sequence.keys pieces).map Key.name).Nodup :=
    hnames.sublist ((Template.keys_sublist hpieces).map Key.name)
  have hlength := hcut.parts.length_captured
  rw [show (ofRoute o route).route.keys = _ from hkeys, collect_alternative hcut] at hcollect
  obtain ⟨hother, hvalues⟩ := collect_set
    (fun n _ => Route.group?_alternative o _ pieces cut n) hlength hnodup hcollect
  refine ⟨pieces, hpieces, cut, hcut, hpath, ?_, ?_⟩
  · intro name hname
    rw [hother name hname]
    exact Std.ExtTreeMap.getElem?_empty
  · refine List.forall₂_iff_get.mpr ⟨hlength.symm, ?_⟩
    intro n hkey hspan
    refine ⟨hvalues.get hkey hspan, ?_⟩
    intro part hpart
    refine mem_decoded (n := (before.flatMap Sequence.keys).length + n) hfind ?_ ?_ hpart
    · rw [show (ofRoute o route).route.keys = _ from hkeys,
        List.getElem?_append_right (Nat.le_add_right _ _), Nat.add_sub_cancel_left,
        List.getElem?_append_left hkey, List.get_eq_getElem, List.getElem?_eq_getElem]
    · rw [← Nat.add_assoc, Route.group?_alternative, List.get_eq_getElem,
        List.getElem?_eq_getElem]

theorem Matcher.ofPatterns_eq_ok {o : Options} (templates : List Template) {matcher : Matcher}
    (h : ofPatterns o (templates.map .template) = .ok matcher) :
    ∃ route, Route.synthesize o templates = .ok route ∧ matcher = ofRoute o route := by
  rw [ofPatterns, Route.ofPatterns_templates] at h
  cases hroute : Route.synthesize o templates with
  | error e =>
      rw [hroute] at h
      cases h
  | ok route =>
      rw [hroute] at h
      cases h
      exact ⟨route, rfl, rfl⟩

section

variable {params : Params} {template : Template} {pieces : List Piece}

theorem Template.namedBy_of_given (hnames : ((keys template).map Key.name).Nodup)
    (hpieces : pieces ∈ alternatives template)
    (hother : ∀ name, name ∉ (Sequence.keys pieces).map Key.name → params[name]? = none)
    (hgiven : ∀ key ∈ Sequence.keys pieces,
      ∃ value, params[key.name]? = some value ∧ value.Fills key.kind) :
    NamedBy params template pieces := by
  intro key hkey
  rw [Std.ExtTreeMap.mem_iff_isSome_getElem?]
  constructor
  · intro hmem
    by_contra hnot
    have hname : key.name ∉ (Sequence.keys pieces).map Key.name := by
      intro hname
      obtain ⟨same, hsame, heq⟩ := List.mem_map.mp hname
      have hin := (keys_sublist hpieces).subset hsame
      rw [List.inj_on_of_nodup_map hnames hin hkey heq] at hsame
      exact hnot hsame
    rw [hother _ hname] at hmem
    cases hmem
  · intro hmem
    obtain ⟨value, hvalue, -⟩ := hgiven key hmem
    rw [hvalue]
    rfl

theorem Template.NamedBy.admits (h : NamedBy params template pieces)
    (hgiven : ∀ key ∈ Sequence.keys pieces,
      ∃ value, params[key.name]? = some value ∧ value.Fills key.kind) :
    params.Admits (keys template) := by
  intro key hkey value hvalue
  have hmem : key.name ∈ params := by
    rw [Std.ExtTreeMap.mem_iff_isSome_getElem?, hvalue]
    rfl
  obtain ⟨same, hsame, hfills⟩ := hgiven key ((h key hkey).mp hmem)
  cases hvalue.symm.trans hsame
  exact hfills

end

/-- If the codec gives back every text that it decodes, composing a path from the parameters of a
match gives the path that matched, but for its trailing delimiter. -/
theorem compose_of_match? {o : Options} {template : Template} {matcher : Matcher}
    {decode : String → Except Error String} {input : String} {found : Match}
    (hsensitive : o.sensitive = true) (hdecode : o.decode = some decode)
    (hnames : ((Template.keys template).map Key.name).Nodup)
    (hgroups : Template.GroupsCapture template)
    (hmatcher : Matcher.ofPatterns o [.template template] = .ok matcher)
    (hmatch : matcher.match? input = .ok (some found))
    (hcodec : ∀ text ∈ matcher.decoded input,
      (decode text).map (Composer.ofTemplate o template).encodeValue = .ok text) :
    ∃ composer path, Composer.ofPattern o (.template template) = .ok composer ∧
      composer.compose found.params = .ok path ∧
      (found.path = path ∨ o.trailing = true ∧ found.path = path ++ o.delimiter) := by
  obtain ⟨route, hroute, rfl⟩ := Matcher.ofPatterns_eq_ok [template] hmatcher
  obtain ⟨pieces, hpieces, cut, hcut, hpath, hother, hcaptures⟩ :=
    Matcher.match?_alternative hroute hnames hmatch
  let c := Composer.ofTemplate o template
  have hrendered : List.Forall₂
      (fun key span =>
        (∃ value, found.params[key.name]? = some value ∧ value.Fills key.kind) ∧
          c.rendering found.params (.capture key) = String.ofList (span.slice input.toList))
      (Sequence.keys pieces) (Sequence.captured 0 pieces cut.stops) := by
    refine hcaptures.imp ?_
    rintro key span ⟨⟨value, hgiven, hvalue⟩, hdecoded⟩
    obtain ⟨hfills, hrendering⟩ := Matcher.rendering_of_value (c := c) rfl hdecode hgiven hvalue
      fun part hpart => hcodec _ (hdecoded part hpart)
    exact ⟨⟨value, hgiven, hfills⟩, hrendering⟩
  obtain ⟨hgiven, htaken⟩ := (List.forall₂_and_left _ _).mp hrendered
  have hnamed := Template.namedBy_of_given hnames hpieces hother hgiven
  obtain ⟨hkept, hlacking⟩ := Template.kept_of_namedBy hgroups hnames hpieces hnamed
  refine ⟨c, c.render found.params pieces, rfl, ?_, ?_⟩
  · rw [Composer.compose_eq (hnamed.admits hgiven), show c.template = template from rfl, hlacking,
      hkept]
    rfl
  · have hwritten := hcut.parts.take_render hsensitive htaken
    change _ = input.toList.take cut.place at hwritten
    rw [List.take_zero, List.nil_append] at hwritten
    rw [hpath]
    rcases hcut.ends.take_stop hsensitive with hstop | ⟨htrailing, hstop⟩
    · left
      rw [hstop, ← hwritten, String.ofList_toList]
    · right
      refine ⟨htrailing, ?_⟩
      rw [hstop, ← hwritten, String.ofList_append, String.ofList_toList, String.ofList_toList]

/-- The outer group took part in the match and the inner one did not. -/
theorem compose_of_match?_nested :
    let o : Options := { sensitive := true }
    let template : Template := [.text "/", .capture ⟨.wildcard, "dir"⟩, .group [.text "/@",
      .capture ⟨.param, "user"⟩, .group [.text ".", .capture ⟨.param, "ext"⟩]]]
    let input := "/a%20b/c/@me/"
    ((Template.keys template).map Key.name).Nodup ∧ Template.GroupsCapture template ∧
      ∃ matcher found, Matcher.ofPatterns o [.template template] = .ok matcher ∧
        matcher.match? input = .ok (some found) ∧ found.path = "/a%20b/c/@me/" ∧
        (∀ text ∈ matcher.decoded input, (decodeComponent text).map
          (Composer.ofTemplate o template).encodeValue = .ok text) ∧
        ∃ composer path, Composer.ofPattern o (.template template) = .ok composer ∧
          composer.compose found.params = .ok path ∧
          (found.path = path ∨ o.trailing = true ∧ found.path = path ++ o.delimiter) := by
  intro o template input
  have hnames : ((Template.keys template).map Key.name).Nodup := by
    decide
  have hgroups : Template.GroupsCapture template :=
    .text (.capture (.group ⟨⟨.param, "user"⟩, by simp⟩
      (.text (.capture (.group ⟨⟨.param, "ext"⟩, by simp⟩ (.text (.capture .nil)) .nil))) .nil))
  have hrun : (do
      let matcher ← Matcher.ofPatterns o [.template template]
      let found ← matcher.match? input
      return (found.map Match.path, (matcher.decoded input).all fun text =>
        (decodeComponent text).map (Composer.ofTemplate o template).encodeValue = Except.ok text)) =
      Except.ok (some "/a%20b/c/@me/", true) := by
    decide +kernel
  obtain ⟨matcher, hmatcher, hrun⟩ := bind_eq_ok.mp hrun
  obtain ⟨found?, hfound, hrun⟩ := bind_eq_ok.mp hrun
  obtain ⟨hpath?, hall⟩ := Prod.mk.inj (Except.ok.inj hrun)
  obtain ⟨found, rfl, hpath⟩ := Option.map_eq_some_iff.mp hpath?
  have hcodec : ∀ text ∈ matcher.decoded input, (decodeComponent text).map
      (Composer.ofTemplate o template).encodeValue = .ok text := by
    intro text htext
    exact of_decide_eq_true (List.all_eq_true.mp hall text htext)
  exact ⟨hnames, hgroups, matcher, found, hmatcher, hfound, hpath, hcodec,
    compose_of_match? rfl rfl hnames hgroups hmatcher hfound hcodec⟩

end PathPattern
