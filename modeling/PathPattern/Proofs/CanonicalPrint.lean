import PathPattern.Proofs.PrintDomain

/-!
A template and what its print is read as have one print. Normal form changes the spelling of a name
only where the name runs on. A print is read as a template in which no name does, and what can be
read at all has no empty name in it and no group too deep.
-/
namespace PathPattern

open Text (Identifier.isName Identifier.isContinue)

namespace Template

/-- At no level a name runs on. -/
def NamesEnd (template : Template) : Prop := ∀ siblings ∈ levels template, ¬ RunsOn siblings

theorem namesEnd_nil : NamesEnd [] := by
  simp [NamesEnd, levels, contents, RunsOn]

theorem namesEnd_text {value : String} {rest : List Token} :
    NamesEnd (.text value :: rest) ↔ NamesEnd rest := by
  simp [NamesEnd, levels, contents, Token.contents, runsOn_cons]

theorem namesEnd_capture {key : Key} {rest : List Token} :
    NamesEnd (.capture key :: rest) ↔
      (Identifier.isName key.name.toList → endsName rest → prolongs (leadingText rest) = false) ∧
        NamesEnd rest := by
  simp only [NamesEnd, levels, contents, Token.contents, List.nil_append, List.forall_mem_cons,
    runsOn_cons, Token.capture.injEq, exists_eq_left', hidesText_iff, not_or, not_and,
    Bool.not_eq_true, and_assoc]

theorem namesEnd_group {tokens rest : List Token} :
    NamesEnd (.group tokens :: rest) ↔ NamesEnd tokens ∧ NamesEnd rest := by
  simp only [NamesEnd, levels, contents, Token.contents, List.cons_append, List.forall_mem_cons,
    List.forall_mem_append, runsOn_cons, reduceCtorEq, false_and, exists_false, false_or]
  tauto

theorem NamesEnd.dropRun {template : Template} (h : NamesEnd template) :
    NamesEnd (dropRun template) := by
  fun_induction Template.dropRun template with
  | case1 value rest hall ih => exact ih (namesEnd_text.mp h)
  | case2 value rest hall => exact namesEnd_text.mpr (namesEnd_text.mp h)
  | case3 rest hrest => exact h

theorem namesEnd_reread (template : Template) : NamesEnd (reread template) := by
  induction template using Template.induction with
  | nil => exact namesEnd_nil
  | text value rest ih =>
      rw [reread_text]
      exact namesEnd_text.mpr ih
  | capture key rest ih =>
      rw [reread_capture]
      split
      · exact namesEnd_capture.mpr ⟨fun _ _ => prolongs_dropRun _, ih.dropRun⟩
      · rename_i hquoted
        refine namesEnd_capture.mpr ⟨?_, ih⟩
        intro hname hends
        rw [hname, hends] at hquoted
        exact absurd rfl hquoted
  | group tokens rest ihTokens ih =>
      rw [reread_group]
      exact namesEnd_group.mpr ⟨ihTokens, ih⟩

theorem escapeText_append (a b : List Char) : escapeText (a ++ b) = escapeText a ++ escapeText b :=
  List.flatMap_append

theorem chars_prependText (value : String) (template : Template) :
    chars (prependText value template) = escapeText value.toList ++ chars template := by
  unfold prependText
  split
  · rename_i hempty
    rw [String.isEmpty_iff.mp hempty]
    rfl
  · split
    · rw [chars, chars, Token.chars, Token.chars, String.toList_append, escapeText_append,
        List.append_assoc]
    · rw [chars, Token.chars]

/-- In normal form, the look at one token sees all the text that comes next. -/
theorem endsName_normal (template : Template) :
    endsName (normal template) = !prolongs (leadingText template) := by
  induction template using Template.induction with
  | nil => rfl
  | text value rest ih =>
      rw [normal_text]
      by_cases hvalue : value = ""
      · subst hvalue
        exact ih
      · obtain ⟨c, cs, hcs⟩ := List.exists_cons_of_ne_nil
          (fun hnil => hvalue (String.toList_eq_nil_iff.mp hnil))
        have hempty : value.isEmpty = false := by
          simpa using hvalue
        unfold prependText
        rw [hempty, if_neg Bool.false_ne_true]
        split
        · rw [endsName, String.toList_append, leadingText, hcs]
          rfl
        · rw [endsName, leadingText, hcs]
          rfl
  | capture key rest _ =>
      rw [normal_capture]
      rfl
  | group tokens rest _ _ =>
      rw [normal_group]
      rfl

/-- Where no name runs on, a name is spelled alike before the normal form of what follows it. -/
theorem spellName_normal {name : List Char} {rest : List Token}
    (h : Identifier.isName name → endsName rest → prolongs (leadingText rest) = false) :
    spellName name (normal rest) = spellName name rest := by
  unfold spellName
  cases hname : Identifier.isName name with
  | false => rfl
  | true =>
      have hends : endsName (normal rest) = endsName rest := by
        rw [endsName_normal]
        cases hrest : endsName rest with
        | true => rw [h hname hrest, Bool.not_false]
        | false =>
            cases hprolongs : prolongs (leadingText rest) with
            | true => rfl
            | false =>
                rw [endsName_of_prolongs hprolongs] at hrest
                cases hrest
      rw [hends]

theorem NamesEnd.chars_normal {template : Template} (h : NamesEnd template) :
    chars (normal template) = chars template := by
  induction template using Template.induction with
  | nil => rfl
  | text value rest ih =>
      rw [normal_text, chars_prependText, ih (namesEnd_text.mp h), chars, Token.chars]
  | capture key rest ih =>
      obtain ⟨hends, hrest⟩ := namesEnd_capture.mp h
      rw [normal_capture, chars, chars, Token.chars, Token.chars, spellName_normal hends, ih hrest]
  | group tokens rest ihTokens ih =>
      obtain ⟨htokens, hrest⟩ := namesEnd_group.mp h
      rw [normal_group, chars, chars, Token.chars, Token.chars, ihTokens htokens, ih hrest]

end Template

namespace Draft

theorem readFrom_escapeText (d : Draft) (cs more : List Char) (pos : Nat) :
    ∃ (after : Draft) (place : Nat), after.outer = d.outer ∧
      d.readFrom id ⟨pos, escapeText cs ++ more⟩ = after.readFrom id ⟨place, more⟩ := by
  induction cs generalizing d pos with
  | nil => exact ⟨d, pos, rfl, rfl⟩
  | cons c cs ih =>
      have hcons : escapeText (c :: cs) =
          (if isReserved c then ['\\', c] else [c]) ++ escapeText cs := rfl
      rw [hcons, List.append_assoc]
      split
      · obtain ⟨after, place, houter, hread⟩ := ih (d.literal c) (pos + 2)
        refine ⟨after, place, houter, ?_⟩
        rw [List.cons_append, List.cons_append, readFrom_next (List.cons_ne_nil _ _) rfl]
        exact hread
      · rename_i hc
        rw [isReserved_iff] at hc
        obtain ⟨after, place, houter, hread⟩ := ih (d.literal c) (pos + 1)
        refine ⟨after, place, houter, ?_⟩
        rw [List.cons_append, readFrom_next (List.cons_ne_nil _ _) (Grammar.next_literal hc pos _)]
        exact hread

theorem readFrom_unnamed (d : Draft) (kind : Key.Kind) (pos : Nat) (more : List Char) :
    d.readFrom id ⟨pos, kind.sigil :: quoteName [] ++ more⟩ = .error (.missingName (pos + 3)) := by
  have hname : Cursor.name ⟨pos + 1, quoteName [] ++ more⟩ =
      (.error (.missingName (pos + 3)), ⟨pos + 3, more⟩) := by
    have hplace := Cursor.moveTo_append (pos + 1) (quoteName []) more
    change (Except.error
        (SyntaxError.missingName (Cursor.moveTo ⟨pos + 1, quoteName [] ++ more⟩ more).pos),
      Cursor.moveTo ⟨pos + 1, quoteName [] ++ more⟩ more) = _
    rw [hplace]
    rfl
  cases kind with
  | param =>
      refine readFrom_error (List.cons_ne_nil _ _) ?_
      change (Cursor.capture ⟨pos + 1, quoteName [] ++ more⟩ pos .param).1 = _
      rw [Cursor.capture, hname]
  | wildcard =>
      refine readFrom_error (List.cons_ne_nil _ _) ?_
      change (Cursor.capture ⟨pos + 1, quoteName [] ++ more⟩ pos .wildcard).1 = _
      rw [Cursor.capture, hname]

theorem lt_maxDepth_of_readFrom {d result : Draft} {pos : Nat} {more : List Char}
    (h : d.readFrom id ⟨pos, '\x7b' :: more⟩ = .ok result) : d.outer.length < maxDepth := by
  by_contra hdepth
  have hfeed : d.feed id ⟨pos, .mark .openBrace⟩ = .error (.tooDeep pos) := by
    simp only [feed, flush_eq, Nat.not_lt.mp hdepth, if_true]
  rw [readFrom_next (List.cons_ne_nil _ _) rfl, hfeed] at h
  cases h

theorem printable_of_readFrom {template : Template} (hends : Template.NamesEnd template)
    {d result : Draft} {pos : Nat} {tail : List Char} (htail : prolongs tail = false)
    (h : d.readFrom id ⟨pos, Template.chars template ++ tail⟩ = .ok result) :
    Template.Printable (maxDepth - d.outer.length) template := by
  induction template using Template.induction generalizing d pos tail with
  | nil => exact .nil
  | text value rest ih =>
      rw [Template.chars, Token.chars, List.append_assoc] at h
      obtain ⟨after, place, houter, hread⟩ :=
        d.readFrom_escapeText value.toList (Template.chars rest ++ tail) pos
      rw [hread] at h
      rw [← houter]
      exact .text (ih (Template.namesEnd_text.mp hends) htail h)
  | capture key rest ih =>
      obtain ⟨hend, hrest⟩ := Template.namesEnd_capture.mp hends
      obtain ⟨kind, name⟩ := key
      rw [Template.chars, Token.chars, List.append_assoc] at h
      have hname : name.toList ≠ [] := by
        intro hempty
        have hquoted : spellName name.toList rest = quoteName [] := by
          rw [hempty]
          rfl
        rw [hquoted, readFrom_unnamed] at h
        cases h
      have hspells : Grammar.Spells (Template.chars rest ++ tail) (spellName name.toList rest)
          name.toList := by
        refine (Grammar.spells_spellName hname ?_).append htail
        rw [Template.prolongs_chars]
        exact hend
      rw [readFrom_next (List.cons_ne_nil _ _)
        (Cursor.next_sigil kind (hspells.name_eq (pos + 1))), feed_capture] at h
      refine .capture ?_ hend (ih (d := ⟨"", _, d.outer⟩) hrest htail h)
      intro hempty
      exact hname (String.toList_eq_nil_iff.mpr hempty)
  | group tokens rest ihTokens ih =>
      obtain ⟨htokens, hrest⟩ := Template.namesEnd_group.mp hends
      rw [Template.chars, Token.chars, List.append_assoc, List.append_assoc] at h
      have hdepth := lt_maxDepth_of_readFrom h
      have hclose : prolongs ('\x7d' :: (Template.chars rest ++ tail)) = false := by
        exact (by decide : Identifier.isContinue '\x7d' = false)
      rw [List.cons_append, readFrom_next (List.cons_ne_nil _ _) rfl, feed_open id d _ hdepth] at h
      have hinside : Template.Printable (maxDepth - (d.outer.length + 1)) tokens :=
        ihTokens (d := ⟨"", [], d.settled id :: d.outer⟩) htokens hclose h
      -- the content is all there, so reading gets to the closing brace and past it
      obtain ⟨inner, closing, houter, -, hread⟩ := hinside.derives.readFrom
        ⟨"", [], d.settled id :: d.outer⟩ (by rw [List.length_cons]; omega) (pos + 1) _ hclose
      have hclosed : inner.readFrom id ⟨closing, '\x7d' :: (Template.chars rest ++ tail)⟩ =
          .ok result := hread.symm.trans h
      rw [readFrom_next (List.cons_ne_nil _ _) rfl, feed_close id _ _ houter] at hclosed
      have hprintable : Template.Printable (maxDepth - d.outer.length) rest :=
        ih (d := ⟨"", _, d.outer⟩) hrest htail hclosed
      have hlevel : maxDepth - d.outer.length = maxDepth - (d.outer.length + 1) + 1 := by omega
      rw [hlevel] at hprintable ⊢
      exact .group hinside hprintable

end Draft

namespace Template

theorem printable_of_dropRun {depth : Nat} {template : Template}
    (h : Printable depth (dropRun template)) : Printable depth template := by
  fun_induction dropRun template with
  | case1 value rest hall ih => exact .text (ih h)
  | case2 value rest hall =>
      cases h with
      | text hrest => exact .text hrest
  | case3 rest hrest => exact h

/-- The print of a template can be read just when it has all its names and is not too deep. -/
theorem printable_reread_iff {depth : Nat} {template : Template} :
    Printable depth (reread template) ↔
      (∀ key ∈ keys template, key.name ≠ "") ∧ nesting template ≤ depth := by
  refine ⟨?_, fun h => printable_reread h.1 h.2⟩
  intro h
  induction template using Template.induction generalizing depth with
  | nil => simp [keys, nesting]
  | text value rest ih =>
      rw [reread_text] at h
      rw [keys_text, nesting_text]
      cases h with
      | text hrest => exact ih hrest
  | capture key rest ih =>
      rw [keys_capture, nesting_capture, List.forall_mem_cons, and_assoc]
      rw [reread_capture] at h
      split at h
      · rename_i hbare
        rw [Bool.and_eq_true] at hbare
        cases h with
        | capture _ _ hrest =>
            refine ⟨?_, ih (printable_of_dropRun hrest)⟩
            intro hempty
            rw [hempty] at hbare
            cases hbare.1
      · cases h with
        | capture hname _ hrest => exact ⟨hname, ih hrest⟩
  | group tokens rest ihTokens ih =>
      rw [reread_group] at h
      rw [keys_group, nesting_group, List.forall_mem_append]
      cases h with
      | group htokens hrest =>
          obtain ⟨hnames, hnesting⟩ := ihTokens htokens
          obtain ⟨hnames', hnesting'⟩ := ih hrest
          exact ⟨⟨hnames, hnames'⟩, by omega⟩

theorem printable_of_parse_print {template result : Template}
    (h : Template.parse id template.print = .ok result) :
    Printable Draft.maxDepth (reread template) := by
  obtain ⟨d, hread, -⟩ := Template.parse_eq_ok.mp h
  rw [print, String.toList_ofList, ← chars_reread, ← List.append_nil (chars (reread template))]
    at hread
  exact Draft.printable_of_readFrom (namesEnd_reread template) rfl hread

end Template

/-- The print of a template can be read just when all its names are there and its groups are at most
64 deep, and whatever it is read as has the same print. -/
theorem print_of_parse_print (template : Template) :
    ((∃ result, ({} : Options).parse template.print = .ok result) ↔
      (∀ key ∈ Template.keys template, key.name ≠ "") ∧ Template.nesting template ≤ 64) ∧
    ∀ result, ({} : Options).parse template.print = .ok result →
      result.print = template.print := by
  refine ⟨⟨?_, ?_⟩, ?_⟩
  · rintro ⟨result, h⟩
    have hparse := Options.parse_eq_ok h
    exact Template.printable_reread_iff.mp (Template.printable_of_parse_print hparse)
  · rintro ⟨hnames, hnesting⟩
    refine ⟨Template.normal (Template.reread template), ?_⟩
    change (Template.parse id template.print).mapError Error.malformed = _
    rw [Template.parse_print_reread hnames hnesting]
    rfl
  · intro result h
    have hparse := Options.parse_eq_ok h
    obtain ⟨hnames, hnesting⟩ :=
      Template.printable_reread_iff.mp (Template.printable_of_parse_print hparse)
    have hresult : result = Template.normal (Template.reread template) :=
      Except.ok.inj (hparse.symm.trans (Template.parse_print_reread hnames hnesting))
    rw [hresult, Template.print, Template.print, (Template.namesEnd_reread template).chars_normal,
      Template.chars_reread]

/-- A name that runs on, a quoted one, empty and adjacent texts, and a group with a reserved
character in it: the print is read as another template. -/
theorem print_of_parse_print_merged :
    let template : Template := [.text "", .text "/x", .text "(", .capture ⟨.param, "a"⟩, .text "",
      .text "b-c", .group [.capture ⟨.wildcard, "d e"⟩, .text "f", .text "\x7d"]]
    let result : Template := [.text "/x(", .capture ⟨.param, "ab"⟩, .text "-c",
      .group [.capture ⟨.wildcard, "d e"⟩, .text "f\x7d"]]
    ({} : Options).parse template.print = .ok result ∧ result ≠ template ∧
      result.print = template.print := by
  intro template result
  have h : ({} : Options).parse template.print = .ok result := by
    decide +kernel
  exact ⟨h, by decide, (print_of_parse_print template).2 result h⟩

end PathPattern
