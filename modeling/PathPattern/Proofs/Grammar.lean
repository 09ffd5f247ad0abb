import PathPattern.Proofs.Reading

/-!
The grammar of patterns, and that reading accepts just the patterns it derives and gives their
templates. Derivations speak of whole sequences where reading goes from lexeme to lexeme, so what is
left of a pattern is set against all that the open groups still ask for.
-/
namespace PathPattern

open Text (Identifier.isContinue Identifier.isName)

/-- Whether a bare name in front of these characters would go on. -/
def prolongs (cs : List Char) : Bool := cs.head?.any Identifier.isContinue

namespace Grammar

/-- The characters that are no items by themselves. -/
def special : List Char :=
  ['\x7b', '\x7d', '(', ')', '[', ']', '+', '?', '!', '\\', ':', '*']

/-- What stands between the quotes, and the name that it means. -/
inductive Quotes : List Char → List Char → Prop
  | nil : Quotes [] []
  | escaped {c cs name} : Quotes cs name → Quotes ('\\' :: c :: cs) (c :: name)
  | plain {c cs name} : c ≠ '"' → c ≠ '\\' → Quotes cs name → Quotes (c :: cs) (c :: name)

/-- The spellings of a name in front of the given characters. -/
inductive Spells (following : List Char) : List Char → List Char → Prop
  | bare {name} : Identifier.isName name → prolongs following = false →
      Spells following name name
  | quoted {cs name} : Quotes cs name → name ≠ [] → Spells following ('"' :: cs ++ ['"']) name

/-- Sequences of items with groups of at most the given depth, and the templates that they stand
for. A character becomes one with the text after it, so that each run of them is one text. -/
inductive Derives : Nat → List Char → Template → Prop
  | nil {depth} : Derives depth [] []
  | literal {depth c cs template} : c ∉ special → Derives depth cs template →
      Derives depth (c :: cs) (Template.prependText (String.singleton c) template)
  | escaped {depth c cs template} : Derives depth cs template →
      Derives depth ('\\' :: c :: cs) (Template.prependText (String.singleton c) template)
  | capture {depth kind spelling name cs template} : Spells cs spelling name →
      Derives depth cs template →
      Derives depth (Key.Kind.sigil kind :: spelling ++ cs)
        (.capture ⟨kind, String.ofList name⟩ :: template)
  | group {depth inside tokens cs template} : Derives depth inside tokens →
      Derives (depth + 1) cs template →
      Derives (depth + 1) ('\x7b' :: inside ++ '\x7d' :: cs) (.group tokens :: template)

end Grammar

theorem Mark.eq_toChar {c : Char} {m : Mark} (h : Mark.ofChar? c = some m) : c = m.toChar := by
  unfold Mark.ofChar? at h
  grind [Mark.toChar]

namespace Cursor

theorem moveTo_append (pos : Nat) (cs rest : List Char) :
    moveTo ⟨pos, cs ++ rest⟩ rest = ⟨pos + cs.length, rest⟩ := by
  simp only [moveTo, List.length_append, Nat.add_sub_cancel]

theorem name_quoted {cs quoted rest : List Char} (hcs : cs ≠ [])
    (hread : QuotedName.read (quoted ++ '"' :: rest) = .closed cs rest) (pos : Nat) :
    name ⟨pos, '"' :: quoted ++ ['"'] ++ rest⟩ =
      (.ok (String.ofList cs), ⟨pos + ('"' :: quoted ++ ['"']).length, rest⟩) := by
  obtain ⟨c, more, rfl⟩ := List.exists_cons_of_ne_nil hcs
  rw [← moveTo_append]
  unfold name
  simp only [List.cons_append, List.append_assoc, List.nil_append, if_true]
  rw [hread]

theorem name_bare {cs rest : List Char} (hcs : Identifier.isName cs) (hrest : prolongs rest = false)
    (pos : Nat) :
    name ⟨pos, cs ++ rest⟩ = (.ok (String.ofList cs), ⟨pos + cs.length, rest⟩) := by
  rw [← moveTo_append]
  cases cs with
  | nil => simp [Identifier.isName] at hcs
  | cons first more =>
      simp only [Identifier.isName, Bool.and_eq_true, List.all_eq_true] at hcs
      have hquote : first ≠ '"' := by
        intro h
        rw [h] at hcs
        exact absurd hcs.1 (by decide)
      have htake : (more ++ rest).takeWhile Identifier.isContinue = more := by
        rw [List.takeWhile_append_of_pos hcs.2]
        cases rest with
        | nil => simp
        | cons c rest => simp_all [prolongs]
      have hdrop : (more ++ rest).dropWhile Identifier.isContinue = rest := by
        rw [List.dropWhile_append_of_pos hcs.2]
        cases rest with
        | nil => simp
        | cons c rest => simp_all [prolongs]
      unfold name
      simp only [List.cons_append, hquote, if_false, hcs.1, if_true, htake, hdrop]

theorem next_sigil (kind : Key.Kind) {spelling rest : List Char} {pos : Nat} {name : String}
    (hname : Cursor.name ⟨pos + 1, spelling ++ rest⟩ =
      (.ok name, ⟨pos + 1 + spelling.length, rest⟩)) :
    next ⟨pos, kind.sigil :: spelling ++ rest⟩ =
      (.ok ⟨pos, .capture ⟨kind, name⟩⟩, ⟨pos + (kind.sigil :: spelling).length, rest⟩) := by
  cases kind with
  | param =>
      change capture ⟨pos + 1, spelling ++ rest⟩ pos .param = _
      simp only [capture, hname, List.length_cons]
      simp only [Nat.add_assoc, Nat.add_comm 1]
  | wildcard =>
      change capture ⟨pos + 1, spelling ++ rest⟩ pos .wildcard = _
      simp only [capture, hname, List.length_cons]
      simp only [Nat.add_assoc, Nat.add_comm 1]

end Cursor

namespace Grammar

theorem mem_special {c : Char} :
    c ∈ special ↔ (Mark.ofChar? c).isSome ∨ c = ':' ∨ c = '*' ∨ c = '\\' := by
  constructor
  · intro h
    have hall : special.all fun c => (Mark.ofChar? c).isSome ∨ c = ':' ∨ c = '*' ∨ c = '\\' := by
      decide
    exact of_decide_eq_true (List.all_eq_true.mp hall c h)
  · rintro (h | rfl | rfl | rfl)
    · obtain ⟨m, hm⟩ := Option.isSome_iff_exists.mp h
      rw [Mark.eq_toChar hm]
      cases m <;> decide
    · decide
    · decide
    · decide

theorem Quotes.read {cs name : List Char} (h : Quotes cs name) (rest : List Char) :
    QuotedName.read (cs ++ '"' :: rest) = .closed name rest := by
  induction h with
  | nil => rfl
  | @escaped c cs name _ ih =>
      rw [List.cons_append, List.cons_append, QuotedName.read, ih]
      rfl
  | @plain c cs name hquote hbackslash _ ih =>
      rw [List.cons_append, QuotedName.read, ih]
      · rfl
      · exact hquote
      · intro hc
        exact absurd hc hbackslash
      · intro d ds hc
        exact absurd hc hbackslash

theorem push_eq_closed {c : Char} {q : QuotedName} {name rest : List Char}
    (h : q.push c = .closed name rest) : ∃ more, name = c :: more ∧ q = .closed more rest := by
  cases q with
  | closed more left =>
      cases h
      exact ⟨more, rfl, rfl⟩
  | unclosed left => cases h

theorem quotes_of_read {cs name rest : List Char} (h : QuotedName.read cs = .closed name rest) :
    ∃ quoted, cs = quoted ++ '"' :: rest ∧ Quotes quoted name := by
  fun_induction QuotedName.read cs generalizing name with
  | case1 => cases h
  | case2 rest =>
      cases h
      exact ⟨[], rfl, .nil⟩
  | case3 => cases h
  | case4 c cs ih =>
      obtain ⟨more, rfl, hmore⟩ := push_eq_closed h
      obtain ⟨quoted, rfl, hquoted⟩ := ih hmore
      exact ⟨'\\' :: c :: quoted, rfl, .escaped hquoted⟩
  | case5 c cs hquote hlast hbackslash ih =>
      obtain ⟨more, rfl, hmore⟩ := push_eq_closed h
      obtain ⟨quoted, rfl, hquoted⟩ := ih hmore
      refine ⟨c :: quoted, rfl, .plain ?_ ?_ hquoted⟩
      · exact hquote
      · intro hc
        obtain ⟨d, ds, hcons⟩ := List.exists_cons_of_ne_nil
          (List.append_ne_nil_of_right_ne_nil quoted (List.cons_ne_nil '"' rest))
        exact hbackslash d ds hc hcons

theorem prolongs_append {a b : List Char} (h : prolongs b = false) :
    prolongs (a ++ b) = prolongs a := by
  cases a with
  | nil => exact h
  | cons c cs => rfl

theorem prolongs_of_append {a b : List Char} (h : prolongs (a ++ b) = false) :
    prolongs a = false := by
  cases a with
  | nil => rfl
  | cons c cs => exact h

theorem prolongs_dropWhile (cs : List Char) :
    prolongs (cs.dropWhile Identifier.isContinue) = false := by
  have hhead := List.head?_dropWhile_not Identifier.isContinue cs
  unfold prolongs
  cases hfirst : (cs.dropWhile Identifier.isContinue).head? with
  | none => rfl
  | some c =>
      rw [hfirst] at hhead
      exact hhead

namespace Spells

variable {following spelling name : List Char}

theorem append {tail : List Char} (h : Spells following spelling name)
    (htail : prolongs tail = false) : Spells (following ++ tail) spelling name := by
  cases h with
  | bare hname hend => exact .bare hname ((prolongs_append htail).trans hend)
  | quoted hquoted hne => exact .quoted hquoted hne

theorem of_append {tail : List Char} (h : Spells (following ++ tail) spelling name) :
    Spells following spelling name := by
  cases h with
  | bare hname hend => exact .bare hname (prolongs_of_append hend)
  | quoted hquoted hne => exact .quoted hquoted hne

theorem ne_nil (h : Spells following spelling name) : name ≠ [] := by
  cases h with
  | bare hname _ =>
      rintro rfl
      cases hname
  | quoted _ hne => exact hne

theorem name_eq (h : Spells following spelling name) (pos : Nat) :
    Cursor.name ⟨pos, spelling ++ following⟩ =
      (.ok (String.ofList name), ⟨pos + spelling.length, following⟩) := by
  cases h with
  | bare hname hend => exact Cursor.name_bare hname hend pos
  | quoted hquoted hne => exact Cursor.name_quoted hne (hquoted.read following) pos

end Spells

theorem spells_of_name {c after : Cursor} {name : String} (h : c.name = (.ok name, after)) :
    ∃ spelling chars, c.rest = spelling ++ after.rest ∧ name = String.ofList chars ∧
      Spells after.rest spelling chars := by
  obtain ⟨pos, cs⟩ := c
  cases cs with
  | nil => cases h
  | cons first more =>
      simp only [Cursor.name] at h
      split at h
      · rename_i hfirst
        split at h
        · cases h
        · cases h
        · rename_i d ds left hread
          cases h
          obtain ⟨quoted, rfl, hquoted⟩ := quotes_of_read hread
          refine ⟨'"' :: quoted ++ ['"'], d :: ds, ?_, rfl, .quoted hquoted (List.cons_ne_nil _ _)⟩
          simp [hfirst, Cursor.moveTo]
      · split at h
        · rename_i hstart
          cases h
          refine ⟨first :: more.takeWhile Identifier.isContinue, _, ?_, rfl, .bare ?_ ?_⟩
          · simp [Cursor.moveTo]
          · simp [Identifier.isName, hstart]
          · exact prolongs_dropWhile more
        · cases h

theorem next_literal {c : Char} (h : c ∉ special) (pos : Nat) (rest : List Char) :
    Cursor.next ⟨pos, c :: rest⟩ = (.ok ⟨pos, .char c⟩, ⟨pos + 1, rest⟩) := by
  simp only [mem_special, not_or, Bool.not_eq_true, Option.isSome_eq_false_iff,
    Option.isNone_iff_eq_none] at h
  unfold Cursor.next
  split <;> simp_all

theorem spells_of_capture {c after : Cursor} {index : Nat} {kind : Key.Kind} {l : Lexeme.Located}
    (h : c.capture index kind = (.ok l, after)) :
    ∃ spelling name, l.lexeme = .capture ⟨kind, String.ofList name⟩ ∧
      c.rest = spelling ++ after.rest ∧ Spells after.rest spelling name := by
  unfold Cursor.capture at h
  split at h
  · rename_i name rest hname
    cases h
    obtain ⟨spelling, chars, hrest, rfl, hspells⟩ := spells_of_name hname
    exact ⟨spelling, chars, rfl, hrest, hspells⟩
  · cases h

/-- What a lexeme before the end was read from. -/
theorem next_cases {c after : Cursor} {l : Lexeme.Located} (hrest : c.rest ≠ [])
    (h : c.next = (.ok l, after)) :
    (∃ a, l.lexeme = .char a ∧ c.rest = a :: after.rest ∧ a ∉ special) ∨
    (∃ a, l.lexeme = .escaped (some a) ∧ c.rest = '\\' :: a :: after.rest) ∨
    (l.lexeme = .escaped none ∧ c.rest = ['\\'] ∧ after.rest = []) ∨
    (∃ m, l.lexeme = .mark m ∧ c.rest = m.toChar :: after.rest) ∨
    (∃ kind spelling name, l.lexeme = .capture ⟨kind, String.ofList name⟩ ∧
      c.rest = Key.Kind.sigil kind :: spelling ++ after.rest ∧
      Spells after.rest spelling name) := by
  unfold Cursor.next at h
  split at h
  · contradiction
  · rename_i cs hc
    obtain ⟨spelling, name, hl, rfl, hspells⟩ := spells_of_capture h
    exact .inr (.inr (.inr (.inr ⟨.param, spelling, name, hl, hc, hspells⟩)))
  · rename_i cs hc
    obtain ⟨spelling, name, hl, rfl, hspells⟩ := spells_of_capture h
    exact .inr (.inr (.inr (.inr ⟨.wildcard, spelling, name, hl, hc, hspells⟩)))
  · rename_i hc
    cases h
    exact .inr (.inr (.inl ⟨rfl, hc, rfl⟩))
  · rename_i a cs hc
    cases h
    exact .inr (.inl ⟨a, rfl, hc⟩)
  · rename_i a cs hcolon hstar hlast hbackslash hc
    split at h
    · rename_i m hm
      cases h
      refine .inr (.inr (.inr (.inl ⟨m, rfl, ?_⟩)))
      rw [hc, Mark.eq_toChar hm]
    · rename_i hm
      cases h
      refine .inl ⟨a, rfl, hc, ?_⟩
      have hother : a ≠ '\\' := by
        intro ha
        cases cs with
        | nil => exact hlast ha rfl
        | cons d ds => exact hbackslash d ds ha rfl
      rw [mem_special, hm]
      rintro (hmark | ha | ha | ha)
      · cases hmark
      · exact hcolon ha
      · exact hstar ha
      · exact hother ha

end Grammar

theorem Cursor.next_ne_finish {c after : Cursor} {l : Lexeme.Located} (hrest : c.rest ≠ [])
    (h : c.next = (.ok l, after)) : l.lexeme ≠ .finish := by
  intro hl
  rcases Grammar.next_cases hrest h with ⟨a, hc, -⟩ | ⟨a, hc, -⟩ | ⟨hc, -⟩ | ⟨m, hc, -⟩ |
    ⟨kind, spelling, name, hc, -, -⟩ <;> cases hl.symm.trans hc

namespace Draft

open Grammar

/-- The tokens of the innermost sequence once the rest of it has been read as `template`. -/
def completed (d : Draft) (template : Template) : List Token :=
  d.tokens ++ Template.prependText d.run template

theorem completed_literal (d : Draft) (c : Char) (template : Template) :
    (d.literal c).completed template =
      d.completed (Template.prependText (String.singleton c) template) := by
  simp only [completed, literal, Template.prependText_prependText, String.push_eq_append]

theorem completed_snoc (d : Draft) {token : Token} (outer : List (List Token))
    (template : Template) (h : token.isText = false) :
    completed ⟨"", d.settled id ++ [token], outer⟩ template = d.completed (token :: template) := by
  have hhead : ((token :: template).head?.any Token.isText) = false := h
  simp only [completed, settled_id, Template.prependText_empty,
    Template.prependText_append d.run hhead, List.append_assoc, List.singleton_append]

end Draft

/-- Reading a derived sequence, whatever stands after it, completes the tokens before it. -/
theorem Grammar.Derives.readFrom {depth : Nat} {cs : List Char} {template : Template}
    (h : Derives depth cs template) (d : Draft)
    (hdepth : d.outer.length + depth ≤ Draft.maxDepth) (pos : Nat) (tail : List Char)
    (htail : prolongs tail = false) :
    ∃ (after : Draft) (place : Nat), after.outer = d.outer ∧
      after.settled id = d.completed template ∧
      d.readFrom id ⟨pos, cs ++ tail⟩ = after.readFrom id ⟨place, tail⟩ := by
  induction h generalizing d pos tail with
  | nil => exact ⟨d, pos, rfl, d.settled_id, rfl⟩
  | @literal depth c cs template hc _ ih =>
      obtain ⟨after, place, houter, hsettled, hread⟩ := ih (d.literal c) hdepth (pos + 1) tail htail
      refine ⟨after, place, houter, hsettled.trans (d.completed_literal c template), ?_⟩
      rw [List.cons_append, Draft.readFrom_next (List.cons_ne_nil _ _) (next_literal hc pos _)]
      exact hread
  | @escaped depth c cs template _ ih =>
      obtain ⟨after, place, houter, hsettled, hread⟩ := ih (d.literal c) hdepth (pos + 2) tail htail
      refine ⟨after, place, houter, hsettled.trans (d.completed_literal c template), ?_⟩
      rw [List.cons_append, List.cons_append, Draft.readFrom_next (List.cons_ne_nil _ _) rfl]
      exact hread
  | @capture depth kind spelling name cs template hspells _ ih =>
      obtain ⟨after, place, houter, hsettled, hread⟩ :=
        ih ⟨"", d.settled id ++ [.capture ⟨kind, String.ofList name⟩], d.outer⟩ hdepth
          (pos + (kind.sigil :: spelling).length) tail htail
      refine ⟨after, place, houter, hsettled.trans (d.completed_snoc d.outer template rfl), ?_⟩
      have hname := (hspells.append htail).name_eq (pos + 1)
      rw [List.append_assoc, Draft.readFrom_next (List.cons_ne_nil _ _)
        (Cursor.next_sigil kind hname), Draft.feed_capture]
      exact hread
  | @group depth inside tokens cs template _ _ ihInside ih =>
      have hopen : d.outer.length < Draft.maxDepth := by omega
      have hinner : (d.settled id :: d.outer).length + depth ≤ Draft.maxDepth := by
        rw [List.length_cons]
        omega
      have hclose : prolongs ('\x7d' :: (cs ++ tail)) = false := by
        exact (by decide : Identifier.isContinue '\x7d' = false)
      -- the content is read into an empty draft, with the closing brace as its tail
      obtain ⟨inner, closing, hinnerOuter, hinnerSettled, hinnerRead⟩ :=
        ihInside ⟨"", [], d.settled id :: d.outer⟩ hinner (pos + 1) _ hclose
      obtain ⟨after, place, houter, hsettled, hread⟩ :=
        ih ⟨"", d.settled id ++ [.group tokens], d.outer⟩ hdepth (closing + 1) tail htail
      refine ⟨after, place, houter, hsettled.trans (d.completed_snoc d.outer template rfl), ?_⟩
      rw [List.append_assoc, List.cons_append, List.cons_append,
        Draft.readFrom_next (List.cons_ne_nil _ _) rfl, Draft.feed_open id d _ hopen]
      change Draft.readFrom id ⟨"", [], d.settled id :: d.outer⟩ _ = _
      rw [hinnerRead, Draft.readFrom_next (List.cons_ne_nil _ _) rfl,
        Draft.feed_close id _ _ hinnerOuter, hinnerSettled]
      exact hread

theorem Template.parse_of_derives {pattern : String} {template : Template}
    (h : Grammar.Derives Draft.maxDepth pattern.toList template) :
    Template.parse id pattern = .ok template := by
  obtain ⟨d, place, houter, hsettled, hread⟩ :=
    h.readFrom .empty (Nat.le_of_eq (Nat.zero_add _)) 0 [] rfl
  rw [List.append_nil, Draft.readFrom_nil id d rfl, Draft.feed_finish id d _ houter, hsettled]
    at hread
  exact Template.parse_eq_ok.mpr ⟨_, hread, rfl⟩

namespace Draft

open Grammar

/-- What open groups ask for after the tokens of the innermost one: a closing brace and a further
sequence for each, and in the end nothing. -/
def Closes (result : Template) : List (List Token) → List Token → List Char → Prop
  | [], tokens, rest => rest = [] ∧ result = tokens
  | before :: outer, tokens, rest =>
    ∃ cs left template, rest = '\x7d' :: cs ++ left ∧
      Derives (maxDepth - outer.length) cs template ∧
      Closes result outer (before ++ .group tokens :: template) left

/-- The characters finish the open sequences of a draft, which comes to `result`. -/
def Finishes (d : Draft) (chars : List Char) (result : Template) : Prop :=
  ∃ cs left template, chars = cs ++ left ∧ Derives (maxDepth - d.outer.length) cs template ∧
    Closes result d.outer (d.completed template) left

/-- The first sequence that is asked for is the content of the group, the second one follows it. -/
theorem Finishes.opened {d : Draft} {rest : List Char} {result : Template}
    (hdepth : d.outer.length < maxDepth)
    (h : Finishes ⟨"", [], d.settled id :: d.outer⟩ rest result) :
    d.Finishes ('\x7b' :: rest) result := by
  obtain ⟨inside, _, tokens, rfl, hinside, cs, left, template, rfl, hderives, hcloses⟩ := h
  have hlevel : maxDepth - d.outer.length = maxDepth - (d.settled id :: d.outer).length + 1 := by
    rw [List.length_cons]
    omega
  refine ⟨'\x7b' :: inside ++ '\x7d' :: cs, left, .group tokens :: template, ?_, ?_, ?_⟩
  · simp only [List.cons_append, List.append_assoc]
  · rw [hlevel] at hderives ⊢
    exact .group hinside hderives
  · rw [← completed_snoc d d.outer template rfl]
    simpa [completed] using hcloses

theorem Finishes.closed {d : Draft} {rest : List Char} {result : Template} {before : List Token}
    {outer : List (List Token)} (houter : d.outer = before :: outer)
    (h : Finishes ⟨"", before ++ [.group (d.settled id)], outer⟩ rest result) :
    d.Finishes ('\x7d' :: rest) result := by
  obtain ⟨cs, left, template, rfl, hderives, hcloses⟩ := h
  refine ⟨[], '\x7d' :: cs ++ left, [], rfl, .nil, ?_⟩
  rw [houter]
  refine ⟨cs, left, template, rfl, hderives, ?_⟩
  simpa [completed, settled_id] using hcloses

/-- One lexeme: if what comes after it finishes the draft that it leads to, the lexeme and what
comes after it finish the draft before. -/
theorem Finishes.of_feed {d next : Draft} {c after : Cursor} {l : Lexeme.Located}
    {result : Template} (hrest : c.rest ≠ []) (hnext : c.next = (.ok l, after))
    (hfeed : d.feed id l = .ok next) (h : next.Finishes after.rest result) :
    d.Finishes c.rest result := by
  obtain ⟨index, lexeme⟩ := l
  rcases next_cases hrest hnext with ⟨a, rfl, hc, ha⟩ | ⟨a, rfl, hc⟩ | ⟨rfl, -⟩ | ⟨m, rfl, hc⟩ |
    ⟨kind, spelling, name, rfl, hc, hspells⟩
  · cases hfeed
    obtain ⟨cs, left, template, hsplit, hderives, hcloses⟩ := h
    refine ⟨a :: cs, left, _, ?_, .literal ha hderives, ?_⟩
    · rw [hc, hsplit]
      rfl
    · rw [← completed_literal]
      exact hcloses
  · cases hfeed
    obtain ⟨cs, left, template, hsplit, hderives, hcloses⟩ := h
    refine ⟨'\\' :: a :: cs, left, _, ?_, .escaped hderives, ?_⟩
    · rw [hc, hsplit]
      rfl
    · rw [← completed_literal]
      exact hcloses
  · cases hfeed
  · rw [hc]
    rcases feed_cases hfeed with ⟨a, hl | hl, -⟩ | ⟨key, hl, -⟩ | ⟨hl, hdepth, rfl⟩ |
      ⟨before, outer, hl, houter, rfl⟩ | ⟨hl, -, -⟩ <;> cases hl
    · exact h.opened hdepth
    · exact h.closed houter
  · rw [feed_capture] at hfeed
    cases hfeed
    obtain ⟨cs, left, template, hsplit, hderives, hcloses⟩ := h
    rw [hsplit] at hc hspells
    refine ⟨kind.sigil :: spelling ++ cs, left, _, ?_, .capture hspells.of_append hderives, ?_⟩
    · rw [hc, List.append_assoc]
    · rw [← completed_snoc d d.outer template rfl]
      exact hcloses

theorem finishes_of_readFrom {d d' : Draft} {c : Cursor} (h : d.readFrom id c = .ok d') :
    d.Finishes c.rest d'.tokens := by
  apply readFrom_induction (motive := fun d c => d.Finishes c.rest d'.tokens) ?_ ?_ h
  · intro d c hrest houter hd'
    refine ⟨[], [], [], hrest, .nil, ?_⟩
    rw [houter, hd']
    exact ⟨rfl, d.settled_id⟩
  · intro d c l next hrest hnext hfeed hfinishes
    exact hfinishes.of_feed hrest hnext hfeed

end Draft

/-- Reading accepts just the patterns that the grammar derives with groups at most 64 deep, and
gives the template that each of them stands for. -/
theorem parse_eq_ok_iff_derives (pattern : String) (template : Template) :
    ({} : Options).parse pattern = .ok template ↔
      Grammar.Derives 64 pattern.toList template := by
  constructor
  · intro h
    obtain ⟨d, hread, rfl⟩ := Template.parse_eq_ok.mp (Options.parse_eq_ok h)
    obtain ⟨cs, left, tokens, hcs, hderives, rfl, hresult⟩ := Draft.finishes_of_readFrom hread
    rw [List.append_nil] at hcs
    change d.tokens = tokens at hresult
    rw [hresult, show pattern.toList = cs from hcs]
    exact hderives
  · intro h
    change (Template.parse id pattern).mapError Error.malformed = _
    rw [Template.parse_of_derives h]
    rfl

end PathPattern
