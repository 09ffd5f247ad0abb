import PathPattern.Proofs.OptionalGroups
import PathPattern.Proofs.PrefixMatch

/-!
Where a sequence has at most one cut. If every capture but the first is a param, and no text between
two captures can overlap itself, then the end of the input fixes where the last param stops; the
text before a param fixes where it starts, since otherwise the param would hold this text; and so on
to the first capture. What the captures take is then the same whichever way is found first.
-/
namespace PathPattern

/-- No beginning of the text, other than nothing and all of it, is also an end of it. -/
def Unbordered (text : List Char) : Prop :=
  ∀ k < text.length, 0 < k → ¬ text.take k <:+ text

instance (text : List Char) : Decidable (Unbordered text) :=
  inferInstanceAs (Decidable (∀ k < text.length, _))

theorem Unbordered.apart {text input : List Char} (h : Unbordered text) {p q : Nat}
    (hp : OccursAt text input p) (hq : OccursAt text input q) (hlt : p < q) :
    p + text.length ≤ q := by
  by_contra hover
  -- where the two overlap, an end of the text is a beginning of it
  apply h (p + text.length - q) (by omega) (by omega)
  have hdrop : text.drop (q - p) <+: input.drop q := by
    obtain ⟨rest, hrest⟩ := hp
    refine ⟨rest, ?_⟩
    rw [← List.drop_append_of_le_length (by omega), hrest, List.drop_drop,
      Nat.add_sub_cancel' (Nat.le_of_lt hlt)]
  have htake : text.take (p + text.length - q) <+: input.drop q :=
    (List.take_prefix _ _).trans hq
  have hlength : (text.take (p + text.length - q)).length = (text.drop (q - p)).length := by
    rw [List.length_take, List.length_drop]
    omega
  rw [(List.prefix_of_prefix_length_le htake hdrop (Nat.le_of_eq hlength)).eq_of_length hlength]
  exact List.drop_suffix _ _

namespace Sequence

theorem infix_slice {needle input : List Char} {start stop p : Nat}
    (h : OccursAt needle input p) (hstart : start ≤ p) (hstop : p + needle.length ≤ stop) :
    needle <:+: Regex.Span.slice ⟨start, stop⟩ input := by
  have hbegins : needle <+: (Regex.Span.slice ⟨start, stop⟩ input).drop (p - start) := by
    unfold Regex.Span.slice
    dsimp only
    rw [List.drop_take, List.drop_drop, Nat.add_sub_cancel' hstart]
    exact List.prefix_take_iff.mpr ⟨h, by omega⟩
  exact hbegins.isInfix.trans (List.drop_suffix _ _).isInfix

def Precedes (o : Options) (input : List Char) (before : List Piece) (start : Nat) : Prop :=
  ∀ text, textSince before = some text →
    ∃ p, OccursAt (o.letters text) (o.letters input) p ∧ p + text.length = start

theorem Precedes.text {o : Options} {input : List Char} {before : List Piece} {start stop : Nat}
    {value : String} (h : Precedes o input before start) (hstart : start ≤ stop)
    (hstop : stop ≤ input.length) (hfits : Fits o input before start stop (.text value)) :
    Precedes o input (before ++ [.text value]) stop := by
  intro text htext
  rw [textSince_text, Option.map_eq_some_iff] at htext
  obtain ⟨text, htext, rfl⟩ := htext
  obtain ⟨p, hoccurs, rfl⟩ := h text htext
  obtain ⟨hvalue, rfl⟩ := (slice_eq_iff hstart (by simpa using hstop)).mp hfits
  refine ⟨p, ?_, ?_⟩
  · rw [Options.letters, List.map_append, occursAt_append, List.length_map]
    exact ⟨hoccurs, hvalue⟩
  · rw [List.length_append, o.length_letters, Nat.add_assoc]

theorem Precedes.capture (o : Options) (input : List Char) (before : List Piece) (key : Key)
    (start : Nat) : Precedes o input (before ++ [.capture key]) start := by
  intro text htext
  rw [textSince_capture, Option.some.injEq] at htext
  subst htext
  exact ⟨start, occursAt_nil _ _, rfl⟩

theorem Fits.not_lt {o : Options} {input : List Char} {before : List Piece} {text : List Char}
    {name : String} {start later stop : Nat} (htext : textSince before = some text)
    (hunbordered : Unbordered (o.letters text))
    (hne : separator o.delimiter.toList before ≠ some [])
    (hfits : Fits o input before start stop (.capture ⟨.param, name⟩))
    (hstop : stop ≤ input.length) (hlater : later ≤ stop) (hstart : Precedes o input before start)
    (hprecedes : Precedes o input before later) : ¬ start < later := by
  intro hlt
  have hclear : KeepsClear o before (Regex.Span.slice ⟨start, stop⟩ input) :=
    Fits.keepsClear hstop hfits hne
  obtain ⟨p, hp, rfl⟩ := hstart text htext
  obtain ⟨q, hq, rfl⟩ := hprecedes text htext
  have hapart := hunbordered.apart hp hq (by omega)
  rw [o.length_letters] at hapart
  -- the text stands between the two places, and so in the param that starts at the first
  obtain ⟨texts, htexts, rfl⟩ := Option.map_eq_some_iff.mp htext
  apply hclear.text texts htexts
  rw [letters_slice]
  apply infix_slice hq hapart
  rw [o.length_letters]
  exact hlater

def UnborderedTexts (o : Options) (before pieces : List Piece) : Prop :=
  ∀ place ∈ placedKeys before pieces, ∀ text ∈ textSince place.1, Unbordered (o.letters text)

/-- Where the rest of a sequence, all of whose captures are params, stops at one place, the text
before it stops at one place. -/
theorem Decomposes.start_unique {o : Options} {input : List Char} {before pieces : List Piece}
    {text : List Char} {index start start' : Nat} {stops stops' : List Nat} {es : List Regex}
    (htext : textSince before = some text)
    (hitems : items o.delimiter.toList index (separator o.delimiter.toList before) pieces = .ok es)
    (hparams : ∀ key ∈ keys pieces, key.kind = .param)
    (htexts : UnborderedTexts o before pieces)
    (hstart : Precedes o input before start) (hstart' : Precedes o input before start')
    (h : Decomposes o input before start pieces stops)
    (h' : Decomposes o input before start' pieces stops')
    (hlast : stops.getLast?.getD start = stops'.getLast?.getD start') : start = start' := by
  -- on the pieces: those that follow settle where each of them stops, from the last one back
  induction pieces generalizing before text index start start' stops stops' es with
  | nil =>
      cases h
      cases h'
      exact hlast
  | cons piece rest ih =>
      cases h with
      | @cons _ _ _ _ stop stops hle hend hfits hrest =>
      cases h' with
      | @cons _ _ _ _ stop' stops' hle' hend' hfits' hrest' =>
      rw [List.getLast?_cons, List.getLast?_cons, Option.getD_some, Option.getD_some] at hlast
      cases piece with
      | text value =>
          obtain ⟨more, hmore, -⟩ := items_text_eq_ok.mp hitems
          rw [← separator_text] at hmore
          have hsince : textSince (before ++ [.text value]) = some (text ++ value.toList) := by
            rw [textSince_text, htext]
            rfl
          have hstop := ih hsince hmore hparams htexts (hstart.text hle hend hfits)
            (hstart'.text hle' hend' hfits') hrest hrest' hlast
          obtain ⟨-, hlength⟩ := (slice_eq_iff hle (by simpa using hend)).mp hfits
          obtain ⟨-, hlength'⟩ := (slice_eq_iff hle' (by simpa using hend')).mp hfits'
          omega
      | capture key =>
          obtain ⟨hne, more, hmore, -⟩ := items_capture_eq_ok.mp hitems
          rw [← separator_capture o.delimiter.toList before key] at hmore
          obtain ⟨hplace, hplaces⟩ := List.forall_mem_cons.mp htexts
          obtain ⟨hkey, hkeys⟩ := List.forall_mem_cons.mp hparams
          have hstop : stop = stop' := ih (textSince_capture before key) hmore hkeys hplaces
            (.capture o input before key stop) (.capture o input before key stop') hrest hrest'
            hlast
          subst hstop
          obtain ⟨kind, name⟩ := key
          cases hkey
          have hunbordered := hplace text htext
          have hnot := Fits.not_lt htext hunbordered hne hfits hend hle' hstart hstart'
          have hnot' := Fits.not_lt htext hunbordered hne hfits' hend hle hstart' hstart
          omega

theorem Decomposes.unique {o : Options} {input : List Char} {before pieces : List Piece}
    {index start : Nat} {stops stops' : List Nat} {es : List Regex}
    (hitems : items o.delimiter.toList index (separator o.delimiter.toList before) pieces = .ok es)
    (hparams : ∀ key ∈ (keys pieces).tail, key.kind = .param)
    (htexts : UnborderedTexts o before pieces)
    (h : Decomposes o input before start pieces stops)
    (h' : Decomposes o input before start pieces stops')
    (hlast : stops.getLast?.getD start = stops'.getLast?.getD start) : stops = stops' := by
  induction pieces generalizing before index start stops stops' es with
  | nil =>
      cases h
      cases h'
      rfl
  | cons piece rest ih =>
      cases h with
      | @cons _ _ _ _ stop stops hle hend hfits hrest =>
      cases h' with
      | @cons _ _ _ _ stop' stops' hle' hend' hfits' hrest' =>
      rw [List.getLast?_cons, List.getLast?_cons, Option.getD_some, Option.getD_some] at hlast
      cases piece with
      | text value =>
          obtain ⟨more, hmore, -⟩ := items_text_eq_ok.mp hitems
          rw [← separator_text] at hmore
          obtain ⟨-, rfl⟩ := (slice_eq_iff hle (by simpa using hend)).mp hfits
          obtain ⟨-, rfl⟩ := (slice_eq_iff hle' (by simpa using hend')).mp hfits'
          rw [ih hmore hparams htexts hrest hrest' hlast]
      | capture key =>
          obtain ⟨-, more, hmore, -⟩ := items_capture_eq_ok.mp hitems
          rw [← separator_capture o.delimiter.toList before key] at hmore
          obtain ⟨-, hplaces⟩ := List.forall_mem_cons.mp htexts
          -- the first capture may be a wildcard, so what it takes says nothing about its end
          have hstop : stop = stop' :=
            Decomposes.start_unique (textSince_capture before key) hmore hparams hplaces
              (.capture o input before key stop) (.capture o input before key stop') hrest hrest'
              hlast
          subst hstop
          have hmoreParams : ∀ key ∈ (keys rest).tail, key.kind = .param := by
            intro key hkey
            exact hparams key (List.mem_of_mem_tail hkey)
          rw [ih hmore hmoreParams hplaces hrest hrest' hlast]

end Sequence

namespace Regex

/-- The expressions match consecutive parts of the input, which stop at these places. -/
inductive InTurn (input : Array Char) : Nat → List Regex → List Nat → Prop
  | nil {start} : InTurn input start [] []
  | cons {start e es hit stops} : hit ∈ e.ways input start → InTurn input hit.stop es stops →
      InTurn input start (e :: es) (hit.stop :: stops)

theorem InTurn.of_append {input : Array Char} {start : Nat} {a b : List Regex} {stops : List Nat}
    (h : InTurn input start (a ++ b) stops) :
    ∃ first second, stops = first ++ second ∧ InTurn input start a first ∧
      InTurn input (first.getLast?.getD start) b second := by
  induction a generalizing start stops with
  | nil => exact ⟨[], stops, rfl, .nil, h⟩
  | cons e a ih =>
      cases h with
      | @cons _ _ _ hit stops hhit hrest =>
          obtain ⟨first, second, rfl, hfirst, hsecond⟩ := ih hrest
          refine ⟨hit.stop :: first, second, rfl, .cons hhit hfirst, ?_⟩
          rw [List.getLast?_cons]
          exact hsecond

theorem InTurn.of_chars {input cs : List Char} {start : Nat} {stops : List Nat}
    (h : InTurn input.toArray start (cs.map char) stops) :
    OccursAt cs input start ∧ stops = List.range' (start + 1) cs.length := by
  induction cs generalizing start stops with
  | nil =>
      cases h
      exact ⟨occursAt_nil input start, rfl⟩
  | cons c cs ih =>
      cases h with
      | @cons _ _ _ hit stops hhit hrest =>
          rw [ways, takeWays_toArray] at hhit
          split at hhit
          · rename_i hc
            rw [List.mem_singleton] at hhit
            subst hhit
            obtain ⟨hoccurs, rfl⟩ := ih hrest
            refine ⟨occursAt_cons.mpr ⟨?_, hoccurs⟩, rfl⟩
            obtain ⟨d, hd, hdc⟩ := (Option.any_eq_true _ _).mp hc
            rw [hd, eq_of_beq hdc]
          · cases hhit

theorem mapChars_id (e : Regex) : e.mapChars id = e := by
  induction e with
  | noneOf cs => rw [mapChars, List.map_id]
  | seq a b iha ihb => rw [mapChars, iha, ihb]
  | alt a b iha ihb => rw [mapChars, iha, ihb]
  | group e ih => rw [mapChars, ih]
  | capture i e ih => rw [mapChars, ih]
  | plus e ih => rw [mapChars, ih]
  | opt e ih => rw [mapChars, ih]
  | ahead e ih => rw [mapChars, ih]
  | notAhead e ih => rw [mapChars, ih]
  | _ => rfl

end Regex

theorem Options.letter_of_sensitive {o : Options} (h : o.sensitive = true) : o.letter = id := by
  rw [letter, if_pos h]

namespace Sequence

/-- Where the expressions of the pieces stop, one for each literal character and each capture, if
the parts of the pieces stop at these places. -/
def places (start : Nat) : List Piece → List Nat → List Nat
  | .text value :: rest, stop :: stops =>
    List.range' (start + 1) value.toList.length ++ places stop rest stops
  | .capture _ :: rest, stop :: stops => stop :: places stop rest stops
  | _, _ => []

theorem ways_body_of_sensitive {o : Options} (h : o.sensitive = true) (input : List Char)
    (before : List Piece) (start : Nat) (key : Key) :
    (body o.delimiter.toList (separator o.delimiter.toList before) key.kind).ways input.toArray
        start =
      (stopsOf o input before start (.capture key)).map fun q => ⟨q, []⟩ := by
  rw [← ways_body, o.letters_of_sensitive h, o.letter_of_sensitive h, Regex.mapChars_id]

theorem exists_decomposes_of_inTurn {o : Options} {input : List Char} {before pieces : List Piece}
    {index start : Nat} {stops : List Nat} {es : List Regex} (hsensitive : o.sensitive = true)
    (hitems : items o.delimiter.toList index (separator o.delimiter.toList before) pieces = .ok es)
    (hstart : start ≤ input.length) (h : Regex.InTurn input.toArray start es stops) :
    ∃ parts, Decomposes o input before start pieces parts ∧ stops = places start pieces parts ∧
      parts.getLast?.getD start = stops.getLast?.getD start := by
  induction pieces generalizing before index start stops es with
  | nil =>
      cases hitems
      cases h
      exact ⟨[], .nil, rfl, rfl⟩
  | cons piece rest ih =>
      cases piece with
      | text value =>
          obtain ⟨more, hmore, rfl⟩ := items_text_eq_ok.mp hitems
          rw [← separator_text] at hmore
          obtain ⟨first, second, rfl, hfirst, hsecond⟩ := h.of_append
          obtain ⟨hoccurs, rfl⟩ := hfirst.of_chars
          have hlast : (List.range' (start + 1) value.toList.length).getLast?.getD start =
              start + value.toList.length := by
            rw [List.getLast?_range']
            split
            · rename_i hempty
              rw [hempty]
              rfl
            · rw [Option.getD_some]
              omega
          have hend := hoccurs.length_le hstart
          rw [hlast] at hsecond
          obtain ⟨parts, hparts, rfl, hparts'⟩ := ih hmore hend hsecond
          refine ⟨(start + value.toList.length) :: parts, ?_, rfl, ?_⟩
          · refine .cons (Nat.le_add_right _ _) hend ?_ hparts
            rw [Fits, o.letters_of_sensitive hsensitive, o.letters_of_sensitive hsensitive,
              slice_eq_iff (Nat.le_add_right _ _) hend]
            exact ⟨hoccurs, rfl⟩
          · rw [List.getLast?_cons, Option.getD_some, hparts', List.getLast?_append, Option.getD_or,
              hlast]
      | capture key =>
          obtain ⟨-, more, hmore, rfl⟩ := items_capture_eq_ok.mp hitems
          rw [← separator_capture o.delimiter.toList before key] at hmore
          cases h with
          | @cons _ _ _ hit stops hhit hrest =>
              rw [Regex.ways, ways_body_of_sensitive hsensitive, List.map_map, List.mem_map] at hhit
              obtain ⟨stop, hstop, rfl⟩ := hhit
              obtain ⟨hle, hend, hfits⟩ := (mem_stopsOf hstart).mp hstop
              obtain ⟨parts, hparts, rfl, hparts'⟩ := ih hmore hend hrest
              refine ⟨stop :: parts, .cons hle hend hfits hparts, rfl, ?_⟩
              rw [List.getLast?_cons, List.getLast?_cons]
              exact hparts'

end Sequence

/-- The parts of the input that stop at these places are all of it, and the expressions match them
one by one. -/
def Regex.CutsUp (input : List Char) (es : List Regex) (stops : List Nat) : Prop :=
  InTurn input.toArray 0 es stops ∧ stops.getLast?.getD 0 = input.length

theorem Cut.Ends.plain {o : Options} {input : List Char} {cut : Cut} (h : cut.Ends o input)
    (hend : o.toEnd = true) (htrailing : o.trailing = false) :
    cut.trailing = false ∧ cut.place = input.length := by
  have hplain : cut.trailing = false := by
    by_contra hcut
    have hallowed := (h.trailing (Bool.not_eq_false _ ▸ hcut)).1
    rw [htrailing] at hallowed
    cases hallowed
  have hstop := h.stop_eq hend
  rw [Cut.stop, hplain] at hstop
  exact ⟨hplain, hstop⟩

theorem Route.ways_frame_singleton {o : Options} {pieces : List Piece} {index : Nat}
    {es : List Regex} (hsensitive : o.sensitive = true)
    (hitems : Sequence.items o.delimiter.toList index none pieces = .ok es) (input : List Char) :
    (frame o [Regex.cat es]).ways input.toArray 0 =
      (Cut.list o input pieces).map (hitOfCut o index pieces) := by
  have hbranches : Sequence.branches o.delimiter.toList index [pieces] = .ok [Regex.cat es] :=
    Sequence.branches_cons_eq_ok.mpr ⟨es, [], hitems, rfl, rfl⟩
  have hways := (ways_frame o input (List.cons_ne_nil _ _)).trans (ways_branches o input hbranches)
  rw [o.letter_of_sensitive hsensitive, Regex.mapChars_id, o.letters_of_sensitive hsensitive, hits,
    hits, List.append_nil] at hways
  exact hways

/-- If the captures of a sequence after the first are params, and the texts between captures have no
border, then an input is cut up in one way at most; so all ways through the expression are one
match, with the same captures. -/
theorem cut_unique {o : Options} {pieces : List Piece} {index : Nat} {es : List Regex}
    (hsensitive : o.sensitive = true) (hend : o.toEnd = true) (htrailing : o.trailing = false)
    (hitems : Sequence.items o.delimiter.toList index none pieces = .ok es)
    (hparams : ∀ key ∈ (Sequence.keys pieces).tail, key.kind = .param)
    (htexts : ∀ place ∈ Sequence.placedKeys [] pieces, ∀ text ∈ Sequence.textSince place.1,
      Unbordered text)
    (input : List Char) :
    (∀ stops stops', Regex.CutsUp input es stops → Regex.CutsUp input es stops' →
      stops = stops') ∧
    ∀ hit ∈ (Route.frame o [Regex.cat es]).ways input.toArray 0,
      ∀ hit' ∈ (Route.frame o [Regex.cat es]).ways input.toArray 0, hit = hit' := by
  have hfirst : Sequence.items o.delimiter.toList index
      (Sequence.separator o.delimiter.toList []) pieces = .ok es := hitems
  have hletters : Sequence.UnborderedTexts o [] pieces := by
    intro place hplace text htext
    rw [o.letters_of_sensitive hsensitive]
    exact htexts place hplace text htext
  constructor
  · rintro stops stops' ⟨hturn, hlast⟩ ⟨hturn', hlast'⟩
    obtain ⟨parts, hparts, rfl, hsame⟩ :=
      Sequence.exists_decomposes_of_inTurn hsensitive hfirst (Nat.zero_le _) hturn
    obtain ⟨parts', hparts', rfl, hsame'⟩ :=
      Sequence.exists_decomposes_of_inTurn hsensitive hfirst (Nat.zero_le _) hturn'
    rw [hparts.unique hfirst hparams hletters hparts' (by omega)]
  · intro hit hhit hit' hhit'
    rw [Route.ways_frame_singleton hsensitive hitems] at hhit hhit'
    obtain ⟨⟨stops, trailing⟩, hcut, rfl⟩ := List.mem_map.mp hhit
    obtain ⟨⟨stops', trailing'⟩, hcut', rfl⟩ := List.mem_map.mp hhit'
    rw [Cut.mem_list] at hcut hcut'
    obtain ⟨rfl, hlast⟩ := hcut.ends.plain hend htrailing
    obtain ⟨rfl, hlast'⟩ := hcut'.ends.plain hend htrailing
    have hstops : stops = stops' :=
      hcut.parts.unique hfirst hparams hletters hcut'.parts (hlast.trans hlast'.symm)
    rw [hstops]

/-- A wildcard, a text that reaches past a delimiter, and a text of two pieces. -/
theorem cut_unique_ranges :
    let o : Options := { sensitive := true, trailing := false }
    let pieces : List Piece := [.text "/", .capture ⟨.wildcard, "dir"⟩, .text "-x/",
      .capture ⟨.param, "from"⟩, .text "t", .text "o", .capture ⟨.param, "until"⟩]
    let input := "/a-x/b-x/tttoo".toList
    ∃ es hit, Sequence.items o.delimiter.toList 1 none pieces = .ok es ∧
      hit ∈ (Route.frame o [Regex.cat es]).ways input.toArray 0 ∧
      [1, 2, 3].map hit.group? = [some ⟨1, 6⟩, some ⟨9, 11⟩, some ⟨13, 14⟩] ∧
      (∀ hit' ∈ (Route.frame o [Regex.cat es]).ways input.toArray 0, hit' = hit) ∧
      ∀ stops stops', Regex.CutsUp input es stops → Regex.CutsUp input es stops' →
        stops = stops' := by
  intro o pieces input
  have hrun : (do
      let es ← Sequence.items o.delimiter.toList 1 none pieces
      return ((Route.frame o [Regex.cat es]).search input).hit.map fun (hit : Regex.Hit) =>
        [1, 2, 3].map hit.group?) =
      .ok (some [some ⟨1, 6⟩, some ⟨9, 11⟩, some ⟨13, 14⟩]) := by
    decide +kernel
  obtain ⟨es, hes, hfound⟩ := bind_eq_ok.mp hrun
  obtain ⟨hit, hhit, hgroups⟩ := Option.map_eq_some_iff.mp (Except.ok.inj hfound)
  rw [Regex.hit_search] at hhit
  have hmem := List.mem_of_mem_head? hhit
  have hunique := cut_unique rfl rfl rfl hes (by decide) (by decide) input
  exact ⟨es, hit, hes, hmem, hgroups, fun hit' hhit' => hunique.2 hit' hhit' hit hmem, hunique.1⟩

end PathPattern
