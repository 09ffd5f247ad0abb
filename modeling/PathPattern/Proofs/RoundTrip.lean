import Mathlib.Data.List.Chain
import PathPattern.Proofs.Grammar
import PathPattern.Token.Printer

/-!
The print of a template derives its normal form; a bare name is the one place where what comes after
it matters. Then, which templates reading a pattern can give, and that the print of each of them
reads back to it.
-/
namespace PathPattern

open Text (Identifier.isName Identifier.isContinue)

/-- The text that a template begins with, in however many tokens. -/
def Template.leadingText : List Token → List Char
  | .text value :: rest => value.toList ++ leadingText rest
  | _ => []

/-- Templates whose print reads back inside at most `depth` further levels of groups: names are
not empty, and a bare name ends before the text after it begins. -/
inductive Template.Printable : Nat → List Token → Prop
  | nil {depth} : Printable depth []
  | text {depth value rest} : Printable depth rest → Printable depth (.text value :: rest)
  | capture {depth key rest} : key.name ≠ "" →
      (Identifier.isName key.name.toList → endsName rest → prolongs (leadingText rest) = false) →
      Printable depth rest → Printable depth (.capture key :: rest)
  | group {depth tokens rest} : Printable depth tokens → Printable (depth + 1) rest →
      Printable (depth + 1) (.group tokens :: rest)

theorem isReserved_iff {c : Char} : isReserved c ↔ c ∈ Grammar.special := by
  rw [Grammar.mem_special, isReserved]
  simp only [Bool.or_eq_true, decide_eq_true_eq, or_assoc]

theorem isContinue_of_isReserved {c : Char} (h : isReserved c) :
    Identifier.isContinue c = false := by
  have hall : Grammar.special.all (Identifier.isContinue · = false) := by
    decide
  exact of_decide_eq_true (List.all_eq_true.mp hall c (isReserved_iff.mp h))

namespace Template

theorem prolongs_chars (template : Template) :
    prolongs (chars template) = prolongs (leadingText template) := by
  induction template using Template.induction with
  | nil => rfl
  | text value rest ih =>
      rw [chars, Token.chars, leadingText]
      cases value.toList with
      | nil => exact ih
      | cons c cs =>
          simp only [escapeText, List.flatMap_cons]
          by_cases hc : isReserved c
          · simp only [hc, if_true, prolongs, List.cons_append, List.head?_cons, Option.any_some,
              isContinue_of_isReserved hc]
            decide
          · simp [hc, prolongs]
  | capture key rest ih =>
      obtain ⟨kind, name⟩ := key
      cases kind with
      | param => exact (by decide : Identifier.isContinue ':' = false)
      | wildcard => exact (by decide : Identifier.isContinue '*' = false)
  | group tokens rest ihTokens ih =>
      exact (by decide : Identifier.isContinue '\x7b' = false)

end Template

namespace Grammar

theorem quotes_escaped (cs : List Char) :
    Quotes (cs.flatMap fun c => if c = '"' ∨ c = '\'' ∨ c = '\\' then ['\\', c] else [c]) cs := by
  induction cs with
  | nil => exact .nil
  | cons c cs ih =>
      rw [List.flatMap_cons]
      split
      · exact .escaped ih
      · rename_i hc
        simp only [not_or] at hc
        exact .plain hc.1 hc.2.2 ih

theorem spells_spellName {name following : List Char} {tokens : List Token} (hname : name ≠ [])
    (hend : Identifier.isName name → endsName tokens → prolongs following = false) :
    Spells following (spellName name tokens) name := by
  unfold spellName
  split
  · rename_i hbare
    rw [Bool.and_eq_true] at hbare
    exact .bare hbare.1 (hend hbare.1 hbare.2)
  · exact .quoted (quotes_escaped name) hname

theorem Derives.escapeText {depth : Nat} {cs : List Char} {template : Template}
    (h : Derives depth cs template) (text : List Char) :
    Derives depth (escapeText text ++ cs)
      (Template.prependText (String.ofList text) template) := by
  induction text with
  | nil => exact h
  | cons c text ih =>
      have hcons : PathPattern.escapeText (c :: text) =
          (if isReserved c then ['\\', c] else [c]) ++ PathPattern.escapeText text := rfl
      rw [hcons, String.ofList_cons, ← Template.prependText_prependText, List.append_assoc]
      split
      · exact .escaped ih
      · rename_i hc
        rw [isReserved_iff] at hc
        exact .literal hc ih

end Grammar

/-- The print of a template derives its normal form. -/
theorem Template.Printable.derives {depth : Nat} {template : Template}
    (h : Printable depth template) :
    Grammar.Derives depth (chars template) (normal template) := by
  induction h with
  | nil => exact .nil
  | @text depth value rest _ ih =>
      have htext := ih.escapeText value.toList
      rw [String.ofList_toList] at htext
      rw [normal_text]
      exact htext
  | @capture depth key rest hname hend _ ih =>
      obtain ⟨kind, name⟩ := key
      have hspells : Grammar.Spells (chars rest) (spellName name.toList rest) name.toList := by
        refine Grammar.spells_spellName ?_ ?_
        · intro hnil
          exact hname (String.toList_eq_nil_iff.mp hnil)
        · rw [prolongs_chars]
          exact hend
      have hcapture : Grammar.Derives depth (kind.sigil :: spellName name.toList rest ++ chars rest)
          (.capture ⟨kind, String.ofList name.toList⟩ :: normal rest) := .capture hspells ih
      rw [String.ofList_toList] at hcapture
      rw [normal_capture]
      exact hcapture
  | @group depth tokens rest _ _ ihTokens ih =>
      rw [chars, Token.chars, List.append_assoc, normal_group]
      exact .group ihTokens ih

theorem Template.parse_print {template : Template} (h : Printable Draft.maxDepth template) :
    Template.parse id template.print = .ok (normal template) := by
  apply Template.parse_of_derives
  rw [Template.print, String.toList_ofList]
  exact h.derives

/-- No text stands right before another one. -/
def Token.Apart (a b : Token) : Prop := (a.isText && b.isText) = false

/-- A token that reading can give where `depth` further levels of groups fit: its texts are as
`p` says, its names are not empty, and no two texts in it are adjacent. -/
inductive Token.Given (p : String → Prop) : Nat → Token → Prop
  | text {depth value} : p value → Given p depth (.text value)
  | capture {depth key} : key.name ≠ "" → Given p depth (.capture key)
  | group {depth tokens} : (∀ token ∈ tokens, Given p depth token) →
      tokens.IsChain Token.Apart → Given p (depth + 1) (.group tokens)

structure Template.Given (p : String → Prop) (depth : Nat) (template : Template) : Prop where
  each : ∀ token ∈ template, token.Given p depth
  apart : template.IsChain Token.Apart

namespace Template.Given

variable {p : String → Prop} {depth : Nat}

theorem nil : Template.Given p depth [] := ⟨by simp, .nil⟩

theorem tail {token : Token} {rest : List Token} (h : Template.Given p depth (token :: rest)) :
    Template.Given p depth rest :=
  ⟨fun t ht => h.each t (List.mem_cons_of_mem _ ht), (List.isChain_cons.mp h.apart).2⟩

theorem head_tail {value : String} {rest : List Token}
    (h : Template.Given p depth (.text value :: rest)) : rest.head?.any Token.isText = false := by
  cases rest with
  | nil => rfl
  | cons token rest =>
      have happart := (List.isChain_cons.mp h.apart).1 token rfl
      simpa [Token.Apart, Token.isText] using happart

theorem group {tokens : List Token} (h : (Token.group tokens).Given p depth) :
    ∃ inner, depth = inner + 1 ∧ Template.Given p inner tokens := by
  cases h with
  | group heach hapart => exact ⟨_, rfl, heach, hapart⟩

theorem snoc {template : Template} {token : Token} (h : Template.Given p depth template)
    (htoken : token.Given p depth)
    (hlast : (template.getLast?.any Token.isText && token.isText) = false) :
    Template.Given p depth (template ++ [token]) := by
  refine ⟨?_, List.isChain_append.mpr ⟨h.apart, .singleton _, ?_⟩⟩
  · intro t ht
    rcases List.mem_append.mp ht with ht | ht
    · exact h.each t ht
    · rw [List.mem_singleton.mp ht]
      exact htoken
  · intro last hlast' first hfirst
    cases hfirst
    rw [Option.mem_def.mp hlast', Option.any_some] at hlast
    exact hlast

/-- Between a capture and the next token that is no text there is one text at most, so the
printer's look at one token is enough. -/
theorem printable {template : Template} (h : Template.Given p depth template) :
    Template.Printable depth template := by
  induction template using Template.induction generalizing depth with
  | nil => exact .nil
  | text value rest ih => exact .text (ih h.tail)
  | capture key rest ih =>
      have hname : key.name ≠ "" := by
        cases h.each _ List.mem_cons_self with
        | capture hname => exact hname
      refine .capture hname ?_ (ih h.tail)
      intro _ hends
      cases rest with
      | nil => rfl
      | cons token rest =>
          cases token with
          | capture key => rfl
          | group tokens => rfl
          | text value =>
              have hrest : leadingText rest = [] := by
                have hhead := h.tail.head_tail
                cases rest with
                | nil => rfl
                | cons token rest =>
                    cases token with
                    | text next => simp [Token.isText] at hhead
                    | capture key => rfl
                    | group tokens => rfl
              simpa [leadingText, hrest, prolongs, endsName] using hends
  | group tokens rest ihTokens ih =>
      obtain ⟨inner, rfl, htokens⟩ := group (h.each _ List.mem_cons_self)
      exact .group (ihTokens htokens) (ih h.tail)

/-- With no adjacent texts, normal form only leaves the empty ones out. -/
theorem normal_eq {template : Template} (h : Template.Given p depth template) :
    normal template = withoutEmpty template := by
  induction template using Template.induction generalizing depth with
  | nil => rfl
  | text value rest ih =>
      have hhead : (normal rest).head?.any Token.isText = false := by
        have hrest := h.head_tail
        cases rest with
        | nil => rfl
        | cons token rest =>
            cases token with
            | text next => simp [Token.isText] at hrest
            | capture key => rfl
            | group tokens => rfl
      rw [normal_text, prependText_append value hhead, ih h.tail]
      by_cases hvalue : value = ""
      · simp [prependText, withoutEmpty, Token.isEmptyText, hvalue]
      · simp [prependText, withoutEmpty, Token.isEmptyText, Token.withoutEmpty, hvalue]
  | capture key rest ih =>
      rw [normal_capture, ih h.tail]
      rfl
  | group tokens rest ihTokens ih =>
      obtain ⟨inner, rfl, htokens⟩ := group (h.each _ List.mem_cons_self)
      rw [normal_group, ihTokens htokens, ih h.tail]
      rfl

theorem withoutEmpty_eq {template : Template} (h : Template.Given (· ≠ "") depth template) :
    withoutEmpty template = template := by
  induction template using Template.induction generalizing depth with
  | nil => rfl
  | text value rest ih =>
      have hvalue : value ≠ "" := by
        cases h.each _ List.mem_cons_self with
        | text hvalue => exact hvalue
      simp [withoutEmpty, Token.isEmptyText, Token.withoutEmpty, hvalue, ih h.tail]
  | capture key rest ih =>
      rw [withoutEmpty, ih h.tail]
      rfl
  | group tokens rest ihTokens ih =>
      obtain ⟨inner, rfl, htokens⟩ := group (h.each _ List.mem_cons_self)
      rw [withoutEmpty, ih h.tail, Token.withoutEmpty, ihTokens htokens]
      rfl

end Template.Given

theorem Cursor.next_name {c after : Cursor} {l : Lexeme.Located} {key : Key} (hrest : c.rest ≠ [])
    (h : c.next = (.ok l, after)) (hl : l.lexeme = .capture key) : key.name ≠ "" := by
  rcases Grammar.next_cases hrest h with ⟨a, hc, -⟩ | ⟨a, hc, -⟩ | ⟨hc, -⟩ | ⟨m, hc, -⟩ |
    ⟨kind, spelling, name, hc, -, hspells⟩ <;> cases hl.symm.trans hc
  intro hempty
  exact hspells.ne_nil (String.ofList_eq_empty_iff.mp hempty)

namespace Draft

/-- For every open group the tokens before it, each at its level. -/
inductive Levels (p : String → Prop) : List (List Token) → Prop
  | nil : Levels p []
  | cons {before outer} : outer.length < maxDepth →
      Template.Given p (maxDepth - outer.length) before → Levels p outer →
      Levels p (before :: outer)

/-- What holds between two lexemes. -/
structure Sound (p : String → Prop) (d : Draft) : Prop where
  tokens : Template.Given p (maxDepth - d.outer.length) d.tokens
  last : d.tokens.getLast?.any Token.isText = false
  levels : Levels p d.outer

variable {p : String → Prop} {encode : String → String}

theorem Sound.empty : Sound p .empty := ⟨.nil, rfl, .nil⟩

theorem Sound.settled {d : Draft} (hp : ∀ run, run ≠ "" → p (encode run)) (h : Sound p d) :
    Template.Given p (maxDepth - d.outer.length) (d.settled encode) := by
  unfold Draft.settled
  split
  · rw [List.append_nil]
    exact h.tokens
  · rename_i hrun
    refine h.tokens.snoc (.text (hp _ ?_)) ?_
    · intro hempty
      exact hrun (String.isEmpty_iff.mpr hempty)
    · rw [h.last, Bool.false_and]

theorem getLast?_snoc {tokens : List Token} {token : Token} (h : token.isText = false) :
    (tokens ++ [token]).getLast?.any Token.isText = false := by
  rw [List.getLast?_append, List.getLast?_singleton, Option.some_or, Option.any_some, h]

/-- A lexeme before the end of the pattern keeps a draft sound. -/
theorem Sound.feed {d d' : Draft} {l : Lexeme.Located} (hp : ∀ run, run ≠ "" → p (encode run))
    (h : Sound p d) (hname : ∀ key, l.lexeme = .capture key → key.name ≠ "")
    (hfinish : l.lexeme ≠ .finish) (hfeed : d.feed encode l = .ok d') : Sound p d' := by
  have hsettled := h.settled hp
  rcases feed_cases hfeed with ⟨c, -, rfl⟩ | ⟨key, hl, rfl⟩ | ⟨-, hdepth, rfl⟩ |
    ⟨before, outer, -, houter, rfl⟩ | ⟨hl, -, -⟩
  · exact ⟨h.tokens, h.last, h.levels⟩
  · refine ⟨?_, getLast?_snoc rfl, h.levels⟩
    exact hsettled.snoc (.capture (hname key hl)) (Bool.and_false _)
  · exact ⟨.nil, rfl, .cons hdepth hsettled h.levels⟩
  · rw [houter] at hsettled
    have hlevels := h.levels
    rw [houter] at hlevels
    cases hlevels with
    | cons hdepth hbefore houter =>
        refine ⟨?_, getLast?_snoc rfl, houter⟩
        have hlevel : maxDepth - outer.length =
            maxDepth - (before :: outer).length + 1 := by
          rw [List.length_cons]
          omega
        refine hbefore.snoc ?_ (Bool.and_false _)
        rw [hlevel]
        exact .group hsettled.each hsettled.apart
  · exact absurd hl hfinish

theorem Sound.readFrom {d d' : Draft} {c : Cursor} (hp : ∀ run, run ≠ "" → p (encode run))
    (h : Sound p d) (hread : d.readFrom encode c = .ok d') :
    Template.Given p maxDepth d'.tokens := by
  revert h
  apply readFrom_induction (motive := fun d _ => Sound p d → Template.Given p maxDepth d'.tokens)
    ?_ ?_ hread
  · intro d c _ houter hd' h
    have hsettled := h.settled hp
    rw [houter] at hsettled
    rw [hd']
    exact hsettled
  · intro d c l next hrest hnext hfeed ih h
    exact ih (h.feed hp (fun _ => Cursor.next_name hrest hnext) (Cursor.next_ne_finish hrest hnext)
      hfeed)

end Draft

theorem Template.parse_given {p : String → Prop} {encode : String → String} {pattern : String}
    {template : Template} (hp : ∀ run, run ≠ "" → p (encode run))
    (h : Template.parse encode pattern = .ok template) :
    Template.Given p Draft.maxDepth template := by
  obtain ⟨d, hread, rfl⟩ := Template.parse_eq_ok.mp h
  exact Draft.Sound.empty.readFrom hp hread

/-- What a pattern was read as, under any encoding of its texts, is what its print stands for by
itself, except for texts that were encoded to nothing. -/
theorem parse_print_of_parse (o : Options) (pattern : String) (template : Template)
    (h : o.parse pattern = .ok template) :
    ({} : Options).parse template.print = .ok (Template.withoutEmpty template) ∧
      (o.encodePath = none → ({} : Options).parse template.print = .ok template) := by
  have hparse := Options.parse_eq_ok h
  have hgiven := Template.parse_given (p := fun _ => True) (fun _ _ => trivial) hparse
  have hprint : ({} : Options).parse template.print = .ok (Template.withoutEmpty template) := by
    change (Template.parse id template.print).mapError Error.malformed = _
    rw [Template.parse_print hgiven.printable, hgiven.normal_eq]
    rfl
  refine ⟨hprint, ?_⟩
  intro hnone
  rw [hnone] at hparse
  have hfull := Template.parse_given (p := (· ≠ "")) (fun _ hrun => hrun) hparse
  rw [hprint, hfull.withoutEmpty_eq]

/-- A quoted name, a group and an escape, read with an encoding that drops every text. -/
theorem parse_print_of_parse_dropped :
    let o : Options := { encodePath := some fun _ => "" }
    let template : Template := [.text "", .capture ⟨.param, "a b"⟩,
      .group [.text "", .capture ⟨.wildcard, "c"⟩], .text ""]
    o.parse "/:\"a b\"\x7b\\:*c\x7dx" = .ok template ∧
      ({} : Options).parse template.print =
        .ok [.capture ⟨.param, "a b"⟩, .group [.capture ⟨.wildcard, "c"⟩]] := by
  intro o template
  have h : o.parse "/:\"a b\"\x7b\\:*c\x7dx" = .ok template := by
    decide +kernel
  exact ⟨h, (parse_print_of_parse o _ template h).1⟩

end PathPattern
