import Mathlib.Data.List.TakeWhile
import PathPattern.Proofs.Alternatives
import PathPattern.Proofs.RoundTrip

/-!
What the print of a template is read as, whatever the template. A name that is printed bare looks
at one token only, so it can run on into a text behind empty ones; the template that arises then has
the same print, and all its names end where they should. Reading a print gives the normal form of
the template itself just when no name runs on, none is empty, and groups are not too deep.
-/
namespace PathPattern

open Text (Identifier.isName Identifier.isContinue)

mutual

def Token.nesting : Token → Nat
  | .text _ => 0
  | .capture _ => 0
  | .group tokens => Template.nesting tokens + 1

/-- How many groups lie inside one another in a template. -/
def Template.nesting : List Token → Nat
  | [] => 0
  | token :: rest => max token.nesting (Template.nesting rest)

end

mutual

def Token.contents : Token → List (List Token)
  | .text _ => []
  | .capture _ => []
  | .group tokens => tokens :: Template.contents tokens

/-- The contents of the groups in a template. -/
def Template.contents : List Token → List (List Token)
  | [] => []
  | token :: rest => token.contents ++ Template.contents rest

end

namespace Template

/-- The sequences of siblings: the template itself and the content of every group in it. -/
def levels (template : Template) : List (List Token) := template :: contents template

/-- One empty text or more, and then a text that would prolong a bare name. -/
def HidesText (rest : List Token) : Prop :=
  ∃ empties value after, rest = empties ++ .text value :: after ∧ empties ≠ [] ∧
    (∀ token ∈ empties, token = .text "") ∧ prolongs value.toList

/-- Among these siblings a plain name stands before empty texts and a text that prolongs it. -/
def RunsOn (siblings : List Token) : Prop :=
  ∃ key rest, .capture key :: rest <:+ siblings ∧ Identifier.isName key.name.toList ∧ HidesText rest

@[simp] theorem nesting_text (value : String) (rest : List Token) :
    nesting (.text value :: rest) = nesting rest := by
  rw [nesting, Token.nesting, Nat.zero_max]

@[simp] theorem nesting_capture (key : Key) (rest : List Token) :
    nesting (.capture key :: rest) = nesting rest := by
  rw [nesting, Token.nesting, Nat.zero_max]

@[simp] theorem nesting_group (tokens rest : List Token) :
    nesting (.group tokens :: rest) = max (nesting tokens + 1) (nesting rest) := by
  rw [nesting, Token.nesting]

theorem exists_hidden_text {rest : List Token} (h : prolongs (leadingText rest)) :
    ∃ empties value after, rest = empties ++ .text value :: after ∧
      (∀ token ∈ empties, token = .text "") ∧ prolongs value.toList := by
  induction rest with
  | nil => cases h
  | cons token rest ih =>
      cases token with
      | capture key => cases h
      | group tokens => cases h
      | text value =>
          by_cases hvalue : value = ""
          · subst hvalue
            obtain ⟨empties, next, after, rfl, hempties, hnext⟩ := ih h
            refine ⟨.text "" :: empties, next, after, rfl, ?_, hnext⟩
            intro token htoken
            rcases List.mem_cons.mp htoken with rfl | htoken
            · rfl
            · exact hempties token htoken
          · refine ⟨[], value, rest, rfl, by simp, ?_⟩
            obtain ⟨c, cs, hcs⟩ := List.exists_cons_of_ne_nil
              (fun hnil => hvalue (String.toList_eq_nil_iff.mp hnil))
            rw [leadingText, hcs] at h
            rw [hcs]
            exact h

theorem leadingText_empties {empties : List Token} (h : ∀ token ∈ empties, token = .text "")
    (rest : List Token) : leadingText (empties ++ rest) = leadingText rest := by
  induction empties with
  | nil => rfl
  | cons token empties ih =>
      rw [h token List.mem_cons_self, List.cons_append, leadingText]
      exact ih fun token htoken => h token (List.mem_cons_of_mem _ htoken)

/-- The printer sees nothing wrong with the next token, and yet the text goes on. -/
theorem hidesText_iff {rest : List Token} :
    HidesText rest ↔ endsName rest ∧ prolongs (leadingText rest) := by
  constructor
  · rintro ⟨empties, value, after, rfl, hne, hempties, hvalue⟩
    have hprolongs : prolongs (leadingText (empties ++ .text value :: after)) := by
      rw [leadingText_empties hempties, leadingText]
      cases hcs : value.toList with
      | nil =>
          rw [hcs] at hvalue
          cases hvalue
      | cons c cs =>
          rw [hcs] at hvalue
          exact hvalue
    obtain ⟨token, empties, rfl⟩ := List.exists_cons_of_ne_nil hne
    rw [hempties token List.mem_cons_self] at hprolongs ⊢
    exact ⟨rfl, hprolongs⟩
  · rintro ⟨hends, hprolongs⟩
    obtain ⟨empties, value, after, rfl, hempties, hvalue⟩ := exists_hidden_text hprolongs
    refine ⟨empties, value, after, rfl, ?_, hempties, hvalue⟩
    rintro rfl
    change (!prolongs value.toList) = true at hends
    rw [hvalue] at hends
    cases hends

theorem runsOn_cons {token : Token} {rest : List Token} :
    RunsOn (token :: rest) ↔
      (∃ key, token = .capture key ∧ Identifier.isName key.name.toList ∧ HidesText rest) ∨
        RunsOn rest := by
  constructor
  · rintro ⟨key, after, hsuffix, hname, hhides⟩
    rcases List.suffix_cons_iff.mp hsuffix with heq | hsuffix
    · cases heq
      exact .inl ⟨key, rfl, hname, hhides⟩
    · exact .inr ⟨key, after, hsuffix, hname, hhides⟩
  · rintro (⟨key, rfl, hname, hhides⟩ | ⟨key, after, hsuffix, hname, hhides⟩)
    · exact ⟨key, rest, List.suffix_refl _, hname, hhides⟩
    · exact ⟨key, after, hsuffix.trans (List.suffix_cons _ _), hname, hhides⟩

/-- A print reads back in full just when names are there and end where they should, and groups are
not too deep. -/
theorem printable_iff {depth : Nat} {template : Template} :
    Printable depth template ↔
      (∀ key ∈ keys template, key.name ≠ "") ∧ nesting template ≤ depth ∧
        ∀ siblings ∈ levels template, ¬ RunsOn siblings := by
  induction template using Template.induction generalizing depth with
  | nil =>
      simp [levels, keys, nesting, contents, RunsOn, Printable.nil]
  | text value rest ih =>
      have hcons : Printable depth (.text value :: rest) ↔ Printable depth rest :=
        ⟨fun h => by cases h with | text h => exact h, .text⟩
      rw [hcons, ih]
      simp [levels, contents, Token.contents, runsOn_cons]
  | capture key rest ih =>
      have hcons : Printable depth (.capture key :: rest) ↔
          key.name ≠ "" ∧ ¬ (Identifier.isName key.name.toList ∧ HidesText rest) ∧
            Printable depth rest := by
        rw [hidesText_iff]
        constructor
        · intro h
          cases h with
          | capture hname hends hrest =>
              refine ⟨hname, ?_, hrest⟩
              rintro ⟨hplain, hend, hprolongs⟩
              rw [hends hplain hend] at hprolongs
              cases hprolongs
        · rintro ⟨hname, hends, hrest⟩
          refine .capture hname ?_ hrest
          intro hplain hend
          exact Bool.eq_false_iff.mpr fun hprolongs => hends ⟨hplain, hend, hprolongs⟩
      rw [hcons, ih]
      simp only [levels, contents, Token.contents, List.nil_append, List.forall_mem_cons,
        keys_capture, nesting_capture, runsOn_cons, Token.capture.injEq, exists_eq_left', not_or]
      tauto
  | group tokens rest ihTokens ih =>
      have hcons : Printable depth (.group tokens :: rest) ↔
          ∃ inner, depth = inner + 1 ∧ Printable inner tokens ∧ Printable depth rest := by
        constructor
        · intro h
          cases h with
          | group htokens hrest => exact ⟨_, rfl, htokens, hrest⟩
        · rintro ⟨inner, rfl, htokens, hrest⟩
          exact .group htokens hrest
      have hdepth : nesting (.group tokens :: rest) ≤ depth ↔
          ∃ inner, depth = inner + 1 ∧ nesting tokens ≤ inner ∧ nesting rest ≤ depth := by
        rw [nesting_group]
        constructor
        · intro h
          exact ⟨depth - 1, by omega, by omega, by omega⟩
        · rintro ⟨inner, rfl, htokens, hrest⟩
          omega
      rw [hcons, hdepth]
      simp only [ih, ihTokens, levels, contents, Token.contents, List.cons_append,
        List.forall_mem_cons, List.forall_mem_append, keys_group, runsOn_cons, reduceCtorEq,
        false_and, exists_false, false_or]
      constructor
      · rintro ⟨inner, hinner, ⟨hkeys, hnesting, hlevel, hlevels⟩, hkeys', hnesting', hlevel',
          hlevels'⟩
        exact ⟨⟨hkeys, hkeys'⟩, ⟨inner, hinner, hnesting, hnesting'⟩, hlevel', hlevel, hlevels,
          hlevels'⟩
      · rintro ⟨⟨hkeys, hkeys'⟩, ⟨inner, hinner, hnesting, hnesting'⟩, hlevel', hlevel, hlevels,
          hlevels'⟩
        exact ⟨inner, hinner, ⟨hkeys, hnesting, hlevel, hlevels⟩, hkeys', hnesting', hlevel',
          hlevels'⟩

/-- The template without the characters at its start that would prolong a bare name. -/
def dropRun : List Token → List Token
  | .text value :: rest =>
    if value.toList.all Identifier.isContinue then dropRun rest
    else .text (String.ofList (value.toList.dropWhile Identifier.isContinue)) :: rest
  | rest => rest

end Template

/-- The key whose name runs on through these characters for as long as a bare name would. -/
def Key.prolonged (key : Key) (following : List Char) : Key :=
  ⟨key.kind, key.name ++ String.ofList (following.takeWhile Identifier.isContinue)⟩

mutual

/-- A token in front of others, as their print is read. -/
def Token.reread (later : List Token) : Token → List Token
  | .text value => .text value :: later
  | .capture key =>
    if Identifier.isName key.name.toList && endsName later then
      .capture (key.prolonged (Template.leadingText later)) :: Template.dropRun later
    else .capture key :: later
  | .group tokens => .group (Template.reread tokens) :: later

/-- The template that the print of a template is read as, up to normal form: every bare name takes
in the text that prolongs it. -/
def Template.reread : List Token → List Token
  | [] => []
  | token :: rest => token.reread (Template.reread rest)

end

namespace Template

@[simp] theorem reread_text (value : String) (rest : List Token) :
    reread (.text value :: rest) = .text value :: reread rest := by
  rw [reread, Token.reread]

theorem reread_capture (key : Key) (rest : List Token) :
    reread (.capture key :: rest) =
      if Identifier.isName key.name.toList && endsName (reread rest) then
        .capture (key.prolonged (leadingText (reread rest))) :: dropRun (reread rest)
      else .capture key :: reread rest := by
  rw [reread, Token.reread]

@[simp] theorem reread_group (tokens rest : List Token) :
    reread (.group tokens :: rest) = .group (reread tokens) :: reread rest := by
  rw [reread, Token.reread]

theorem leadingText_dropRun (template : Template) :
    leadingText (dropRun template) = (leadingText template).dropWhile Identifier.isContinue := by
  fun_induction dropRun template with
  | case1 value rest hall ih =>
      rw [ih, leadingText, List.dropWhile_append_of_pos (List.all_eq_true.mp hall)]
  | case2 value rest hall =>
      have hleft : value.toList.dropWhile Identifier.isContinue ≠ [] := by
        intro hnil
        exact hall (List.all_eq_true.mpr (List.dropWhile_eq_nil_iff.mp hnil))
      rw [leadingText, leadingText, List.dropWhile_append, String.toList_ofList,
        if_neg (by simpa using hleft)]
  | case3 rest hrest =>
      unfold leadingText
      split
      · rename_i value rest
        exact absurd rfl (hrest value rest)
      · rfl

theorem prolongs_dropRun (template : Template) :
    prolongs (leadingText (dropRun template)) = false := by
  rw [leadingText_dropRun]
  exact Grammar.prolongs_dropWhile _

theorem endsName_of_prolongs {template : Template} (h : prolongs (leadingText template) = false) :
    endsName template := by
  cases template with
  | nil => rfl
  | cons token rest =>
      cases token with
      | capture key => rfl
      | group tokens => rfl
      | text value =>
          change (!prolongs value.toList) = true
          rw [Grammar.prolongs_of_append h]
          rfl

theorem escapeText_of_isContinue {cs : List Char} (h : ∀ c ∈ cs, Identifier.isContinue c) :
    escapeText cs = cs := by
  induction cs with
  | nil => rfl
  | cons c cs ih =>
      have hc : ¬ isReserved c := by
        intro hreserved
        have hcontinue := h c List.mem_cons_self
        rw [isContinue_of_isReserved hreserved] at hcontinue
        cases hcontinue
      have hrest := ih fun d hd => h d (List.mem_cons_of_mem _ hd)
      unfold escapeText at hrest ⊢
      rw [List.flatMap_cons, hrest, if_neg hc]
      rfl

theorem chars_dropRun (template : Template) :
    chars template =
      (leadingText template).takeWhile Identifier.isContinue ++ chars (dropRun template) := by
  fun_induction dropRun template with
  | case1 value rest hall ih =>
      have hvalue := List.all_eq_true.mp hall
      rw [chars, Token.chars, escapeText_of_isContinue hvalue, ih, leadingText,
        List.takeWhile_append_of_pos hvalue, List.append_assoc]
  | case2 value rest hall =>
      have hrun : (value.toList ++ leadingText rest).takeWhile Identifier.isContinue =
          value.toList.takeWhile Identifier.isContinue := by
        rw [List.takeWhile_append, if_neg]
        intro hlength
        have hself := (List.takeWhile_prefix Identifier.isContinue).eq_of_length hlength
        exact hall (List.all_eq_true.mpr (List.takeWhile_eq_self_iff.mp hself))
      have hsplit : escapeText value.toList =
          value.toList.takeWhile Identifier.isContinue ++
            escapeText (value.toList.dropWhile Identifier.isContinue) := by
        rw [← escapeText_of_isContinue fun c hc => List.mem_takeWhile_imp hc, escapeText,
          escapeText, escapeText, ← List.flatMap_append, List.takeWhile_append_dropWhile]
      rw [chars, Token.chars, hsplit, leadingText, hrun, chars, Token.chars, String.toList_ofList,
        List.append_assoc]
  | case3 rest hrest =>
      have hnone : leadingText rest = [] := by
        unfold leadingText
        split
        · rename_i value rest
          exact absurd rfl (hrest value rest)
        · rfl
      rw [hnone]
      rfl

theorem keys_dropRun (template : Template) : keys (dropRun template) = keys template := by
  fun_induction dropRun template with
  | case1 value rest hall ih => rw [ih, keys_text]
  | case2 value rest hall => rw [keys_text, keys_text]
  | case3 rest hrest => rfl

theorem Printable.dropRun {depth : Nat} {template : Template} (h : Printable depth template) :
    Printable depth (dropRun template) := by
  fun_induction Template.dropRun template with
  | case1 value rest hall ih =>
      cases h with
      | text hrest => exact ih hrest
  | case2 value rest hall =>
      cases h with
      | text hrest => exact .text hrest
  | case3 rest hrest => exact h

theorem leadingText_reread (template : Template) :
    leadingText (reread template) = leadingText template := by
  induction template using Template.induction with
  | nil => rfl
  | text value rest ih => rw [reread_text, leadingText, leadingText, ih]
  | capture key rest ih =>
      rw [reread_capture]
      split <;> rfl
  | group tokens rest _ _ =>
      rw [reread_group]
      rfl

theorem endsName_reread (template : Template) : endsName (reread template) = endsName template := by
  induction template using Template.induction with
  | nil => rfl
  | text value rest _ => rw [reread_text, endsName, endsName]
  | capture key rest _ =>
      rw [reread_capture]
      split <;> rfl
  | group tokens rest _ _ =>
      rw [reread_group]
      rfl

theorem isName_prolonged {key : Key} (h : Identifier.isName key.name.toList)
    (following : List Char) : Identifier.isName (key.prolonged following).name.toList := by
  rw [Key.prolonged, String.toList_append, String.toList_ofList]
  cases hname : key.name.toList with
  | nil =>
      rw [hname] at h
      cases h
  | cons c cs =>
      simp only [hname, Identifier.isName, Bool.and_eq_true, List.cons_append, List.all_append]
        at h ⊢
      exact ⟨h.1, h.2, List.all_eq_true.mpr fun d hd => List.mem_takeWhile_imp hd⟩

theorem spellName_bare {name : List Char} {rest : List Token} (hname : Identifier.isName name)
    (hends : endsName rest) : spellName name rest = name := by
  rw [spellName, hname, hends]
  rfl

/-- Both templates have one print. -/
theorem chars_reread (template : Template) : chars (reread template) = chars template := by
  induction template using Template.induction with
  | nil => rfl
  | text value rest ih =>
      rw [reread_text, chars, chars, ih]
      rfl
  | capture key rest ih =>
      rw [reread_capture]
      split
      · rename_i hbare
        rw [Bool.and_eq_true, endsName_reread] at hbare
        have hname := isName_prolonged hbare.1 (leadingText (reread rest))
        have hends := endsName_of_prolongs (prolongs_dropRun (reread rest))
        -- the name takes in just the characters that the text loses
        rw [chars, chars, ← ih, chars_dropRun (reread rest), Token.chars, Token.chars,
          spellName_bare hname hends, spellName_bare hbare.1 hbare.2, Key.prolonged,
          String.toList_append, String.toList_ofList]
        simp only [List.cons_append, List.append_assoc]
      · rw [chars, chars, Token.chars, Token.chars, spellName, spellName, endsName_reread, ih]
  | group tokens rest ihTokens ih =>
      rw [reread_group, chars, chars, ih, Token.chars, Token.chars, ihTokens]

theorem printable_reread {depth : Nat} {template : Template}
    (hnames : ∀ key ∈ keys template, key.name ≠ "") (hnesting : nesting template ≤ depth) :
    Printable depth (reread template) := by
  induction template using Template.induction generalizing depth with
  | nil => exact .nil
  | text value rest ih =>
      rw [keys_text] at hnames
      rw [nesting_text] at hnesting
      rw [reread_text]
      exact .text (ih hnames hnesting)
  | capture key rest ih =>
      rw [keys_capture, List.forall_mem_cons] at hnames
      rw [nesting_capture] at hnesting
      have hrest := ih hnames.2 hnesting
      rw [reread_capture]
      split
      · refine .capture ?_ (fun _ _ => prolongs_dropRun _) hrest.dropRun
        intro hempty
        exact hnames.1 (String.append_eq_empty_iff.mp hempty).1
      · rename_i hquoted
        refine .capture hnames.1 ?_ hrest
        intro hname hends
        rw [hname, hends] at hquoted
        exact absurd rfl hquoted
  | group tokens rest ihTokens ih =>
      rw [keys_group, List.forall_mem_append] at hnames
      rw [nesting_group] at hnesting
      obtain ⟨inner, rfl⟩ : ∃ inner, depth = inner + 1 := ⟨depth - 1, by omega⟩
      rw [reread_group]
      exact .group (ihTokens hnames.1 (by omega)) (ih hnames.2 (by omega))

theorem length_keys_reread (template : Template) :
    (keys (reread template)).length = (keys template).length := by
  induction template using Template.induction with
  | nil => rfl
  | text value rest ih => rw [reread_text, keys_text, keys_text, ih]
  | capture key rest ih =>
      rw [reread_capture]
      split
      · rw [keys_capture, keys_capture, keys_dropRun, List.length_cons, List.length_cons, ih]
      · rw [keys_capture, keys_capture, List.length_cons, List.length_cons, ih]
  | group tokens rest ihTokens ih =>
      rw [reread_group, keys_group, keys_group, List.length_append, List.length_append, ihTokens,
        ih]

theorem prolongs_of_prolonged {key : Key} {following : List Char}
    (h : key.prolonged following = key) : prolongs following = false := by
  have hname := congrArg Key.name h
  rw [Key.prolonged, String.append_eq_left_iff, String.ofList_eq_empty_iff] at hname
  cases following with
  | nil => rfl
  | cons c cs =>
      change Identifier.isContinue c = false
      by_contra hcontinue
      rw [Bool.not_eq_false] at hcontinue
      rw [List.takeWhile_cons_of_pos hcontinue] at hname
      cases hname

/-- Where no name was prolonged, the template itself has a print that reads back. -/
theorem printable_of_keys_reread {depth : Nat} {template : Template}
    (hnames : ∀ key ∈ keys template, key.name ≠ "") (hnesting : nesting template ≤ depth)
    (hkeys : keys (reread template) = keys template) : Printable depth template := by
  induction template using Template.induction generalizing depth with
  | nil => exact .nil
  | text value rest ih =>
      rw [keys_text] at hnames
      rw [nesting_text] at hnesting
      rw [reread_text, keys_text, keys_text] at hkeys
      exact .text (ih hnames hnesting hkeys)
  | capture key rest ih =>
      rw [keys_capture, List.forall_mem_cons] at hnames
      rw [nesting_capture] at hnesting
      rw [reread_capture, keys_capture] at hkeys
      split at hkeys
      · rw [keys_capture, keys_dropRun, List.cons.injEq, leadingText_reread] at hkeys
        exact .capture hnames.1 (fun _ _ => prolongs_of_prolonged hkeys.1)
          (ih hnames.2 hnesting hkeys.2)
      · rename_i hquoted
        rw [keys_capture, List.cons.injEq] at hkeys
        refine .capture hnames.1 ?_ (ih hnames.2 hnesting hkeys.2)
        intro hname hends
        rw [hname, endsName_reread, hends] at hquoted
        exact absurd rfl hquoted
  | group tokens rest ihTokens ih =>
      rw [keys_group, List.forall_mem_append] at hnames
      rw [nesting_group] at hnesting
      obtain ⟨inner, rfl⟩ : ∃ inner, depth = inner + 1 := ⟨depth - 1, by omega⟩
      rw [reread_group, keys_group, keys_group] at hkeys
      obtain ⟨hinside, hrest⟩ := List.append_inj hkeys (length_keys_reread tokens)
      exact .group (ihTokens hnames.1 (by omega) hinside) (ih hnames.2 (by omega) hrest)

theorem keys_prependText (value : String) (template : Template) :
    keys (prependText value template) = keys template := by
  unfold prependText
  split
  · rfl
  · split
    · rw [keys_text, keys_text]
    · rw [keys_text]

theorem nesting_prependText (value : String) (template : Template) :
    nesting (prependText value template) = nesting template := by
  unfold prependText
  split
  · rfl
  · split
    · rw [nesting_text, nesting_text]
    · rw [nesting_text]

theorem keys_normal (template : Template) : keys (normal template) = keys template := by
  induction template using Template.induction with
  | nil => rfl
  | text value rest ih => rw [normal_text, keys_prependText, ih, keys_text]
  | capture key rest ih => rw [normal_capture, keys_capture, keys_capture, ih]
  | group tokens rest ihTokens ih => rw [normal_group, keys_group, keys_group, ihTokens, ih]

theorem nesting_normal (template : Template) : nesting (normal template) = nesting template := by
  induction template using Template.induction with
  | nil => rfl
  | text value rest ih => rw [normal_text, nesting_prependText, ih, nesting_text]
  | capture key rest ih => rw [normal_capture, nesting_capture, nesting_capture, ih]
  | group tokens rest ihTokens ih =>
      rw [normal_group, nesting_group, nesting_group, ihTokens, ih]

/-- What the print of any template is read as, as long as it has all its names and is not too
deep. -/
theorem parse_print_reread {template : Template} (hnames : ∀ key ∈ keys template, key.name ≠ "")
    (hnesting : nesting template ≤ Draft.maxDepth) :
    Template.parse id template.print = .ok (normal (reread template)) := by
  rw [← parse_print (printable_reread hnames hnesting), print, print, chars_reread]

example : normal (reread [.capture ⟨.param, "a"⟩, .text "", .text "b-c"]) =
    [.capture ⟨.param, "ab"⟩, .text "-c"] := by
  decide +kernel

end Template

/-- The print of a template reads back to its normal form just when all its names are there, its
groups are at most 64 deep, and no plain name runs on into a text behind empty ones. -/
theorem parse_print_eq_normal_iff (template : Template) :
    ({} : Options).parse template.print = .ok (Template.normal template) ↔
      (∀ key ∈ Template.keys template, key.name ≠ "") ∧ Template.nesting template ≤ 64 ∧
        ∀ siblings ∈ Template.levels template, ¬ Template.RunsOn siblings := by
  rw [← Template.printable_iff]
  constructor
  · intro h
    have hparse : Template.parse id template.print = .ok (Template.normal template) :=
      Options.parse_eq_ok h
    have hgiven := Template.parse_given (p := fun _ => True) (fun _ _ => trivial) hparse
    obtain ⟨hnames, hnesting, -⟩ := Template.printable_iff.mp hgiven.printable
    rw [Template.keys_normal] at hnames
    rw [Template.nesting_normal] at hnesting
    rw [Template.parse_print_reread hnames hnesting, Except.ok.injEq] at hparse
    have hkeys := congrArg Template.keys hparse
    rw [Template.keys_normal, Template.keys_normal] at hkeys
    exact Template.printable_of_keys_reread hnames hnesting hkeys
  · intro h
    change (Template.parse id template.print).mapError Error.malformed = _
    rw [Template.parse_print h]
    rfl

end PathPattern
