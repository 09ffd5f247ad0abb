import Mathlib.Data.List.Basic
import PathPattern.Proofs.Grammar

/-!
Where reading a pattern goes wrong. Up to the place that an error points at, every lexeme has been
taken, and only a lexeme that begins there is refused. So what stands before that place becomes a
pattern once the open groups are closed, and where the lexeme itself is to blame no way of going on
after it can make up for it.
-/
namespace PathPattern

open Grammar (special Spells)

/-- The characters are a pattern under the default options. -/
def Accepted (cs : List Char) : Prop :=
  ∃ template, ({} : Options).parse (String.ofList cs) = .ok template

/-- The place where the refused lexeme begins. A name that is missing or not closed is due right
after its sigil, and a missing name may have been read as two quotes already. -/
def SyntaxError.start (chars : List Char) : SyntaxError → Nat
  | .unexpected _ index _ => index
  | .tooDeep index => index
  | .unterminatedQuote index => index - 1
  | .missingName index =>
    if ['"', '"'].isSuffixOf (chars.take index) then index - 3 else index - 1

namespace Cursor

def count (m : Mark) (c : Cursor) : Nat :=
  c.lexemes.countP fun
    | .ok l => l.lexeme == .mark m
    | .error _ => false

end Cursor

/-- How many groups are open after the characters: the braces that open one, less those that close
one, as far as they are lexemes. -/
def openGroups (cs : List Char) : Nat :=
  Cursor.count .openBrace ⟨0, cs⟩ - Cursor.count .closeBrace ⟨0, cs⟩

/-- An error points at the first lexeme of the text that cannot be taken. -/
structure SyntaxError.Leftmost (chars : List Char) (e : SyntaxError) : Prop where
  le_length : e.start chars ≤ chars.length
  /-- What stands before the lexeme is a pattern once every group still open there is closed. -/
  closable : Accepted (chars.take (e.start chars) ++
    List.replicate (openGroups (chars.take (e.start chars))) '\x7d')
  /-- The brace is expected just where a group is open, and the end elsewhere. -/
  expected_eq : ∀ found index expected, e = .unexpected found index expected →
    expected = if 0 < openGroups (chars.take (e.start chars)) then .mark .closeBrace else .finish
  /-- A malformed name has its sigil there. -/
  sigil : ∀ index, e = .missingName index ∨ e = .unterminatedQuote index →
    e.start chars < index ∧ ∃ kind : Key.Kind, chars[e.start chars]? = some kind.sigil
  /-- A group that is too deep, or a mark that cannot stand there, spoils every text that begins
  in the same way. -/
  spoils : ∀ index, (e = .tooDeep index ∨ ∃ found expected, e = .unexpected found index expected ∧
      found ≠ .finish ∧ found ≠ .escaped) →
    ∀ more, ¬ Accepted (chars.take (index + 1) ++ more)

/-- The characters of a lexeme in front of others. -/
inductive Lexeme.Spelled (following : List Char) : List Char → Lexeme → Prop
  | char {c} : c ∉ special → Spelled following [c] (.char c)
  | escaped {c} : Spelled following ['\\', c] (.escaped (some c))
  | mark {m : Mark} : Spelled following [m.toChar] (.mark m)
  | capture {kind spelling name} : Spells following spelling name →
      Spelled following (Key.Kind.sigil kind :: spelling) (.capture ⟨kind, String.ofList name⟩)

namespace Cursor

theorem next_mark (m : Mark) (pos : Nat) (rest : List Char) :
    next ⟨pos, m.toChar :: rest⟩ = (.ok ⟨pos, .mark m⟩, ⟨pos + 1, rest⟩) := by
  cases m <;> rfl

theorem index_of_next {c after : Cursor} {l : Lexeme.Located} (h : c.next = (.ok l, after)) :
    l.index = c.pos := by
  have hcapture : ∀ {c after : Cursor} {index : Nat} {kind : Key.Kind},
      c.capture index kind = (.ok l, after) → l.index = index := by
    intro c after index kind h
    unfold capture at h
    split at h <;> cases h
    rfl
  unfold next at h
  split at h
  · cases h
    rfl
  · exact hcapture h
  · exact hcapture h
  · cases h
    rfl
  · cases h
    rfl
  · split at h <;> cases h <;> rfl

theorem name_error {c after : Cursor} {e : SyntaxError} (h : c.name = (.error e, after)) :
    e = .missingName c.pos ∨
      (∃ rest, c.rest = '"' :: '"' :: rest ∧ e = .missingName (c.pos + 2)) ∨
      ∃ rest, c.rest = '"' :: rest ∧ e = .unterminatedQuote c.pos := by
  obtain ⟨pos, cs⟩ := c
  cases cs with
  | nil =>
      cases h
      exact .inl rfl
  | cons first more =>
      simp only [name] at h
      split at h
      · rename_i hfirst
        subst hfirst
        split at h
        · cases h
          exact .inr (.inr ⟨more, rfl, rfl⟩)
        · rename_i left hread
          cases h
          obtain ⟨quoted, rfl, hquoted⟩ := Grammar.quotes_of_read hread
          cases hquoted
          refine .inr (.inl ⟨left, rfl, ?_⟩)
          rw [show '"' :: ([] ++ '"' :: left) = ['"', '"'] ++ left from rfl, moveTo_append]
          rfl
        · cases h
      · split at h
        · cases h
        · cases h
          exact .inl rfl

theorem next_error {c : Cursor} {e : SyntaxError} (h : c.next.1 = .error e) :
    ∃ (kind : Key.Kind) (rest : List Char), c.rest = kind.sigil :: rest ∧
      (e = .missingName (c.pos + 1) ∨
        (∃ more, rest = '"' :: '"' :: more ∧ e = .missingName (c.pos + 3)) ∨
        ∃ more, rest = '"' :: more ∧ e = .unterminatedQuote (c.pos + 1)) := by
  have hcapture : ∀ {rest : List Char} {kind : Key.Kind},
      (capture ⟨c.pos + 1, rest⟩ c.pos kind).1 = .error e →
        ∃ after, name ⟨c.pos + 1, rest⟩ = (.error e, after) := by
    intro rest kind h
    unfold capture at h
    split at h <;> cases h
    exact ⟨_, by assumption⟩
  unfold next at h
  split at h
  · cases h
  · rename_i rest hc
    obtain ⟨after, hname⟩ := hcapture h
    exact ⟨.param, rest, hc, name_error hname⟩
  · rename_i rest hc
    obtain ⟨after, hname⟩ := hcapture h
    exact ⟨.wildcard, rest, hc, name_error hname⟩
  · cases h
  · cases h
  · split at h <;> cases h

end Cursor

namespace Lexeme.Spelled

variable {following spelling : List Char} {lexeme : Lexeme}

theorem append {tail : List Char} (h : Spelled following spelling lexeme)
    (htail : prolongs tail = false) : Spelled (following ++ tail) spelling lexeme := by
  cases h with
  | char hc => exact .char hc
  | escaped => exact .escaped
  | mark => exact .mark
  | capture hspells => exact .capture (hspells.append htail)

theorem of_append {tail : List Char} (h : Spelled (following ++ tail) spelling lexeme) :
    Spelled following spelling lexeme := by
  cases h with
  | char hc => exact .char hc
  | escaped => exact .escaped
  | mark => exact .mark
  | capture hspells => exact .capture hspells.of_append

theorem ne_nil (h : Spelled following spelling lexeme) : spelling ≠ [] := by
  cases h <;> exact List.cons_ne_nil _ _

theorem next_eq (h : Spelled following spelling lexeme) (pos : Nat) :
    Cursor.next ⟨pos, spelling ++ following⟩ =
      (.ok ⟨pos, lexeme⟩, ⟨pos + spelling.length, following⟩) := by
  cases h with
  | char hc => exact Grammar.next_literal hc pos following
  | escaped => rfl
  | mark => exact Cursor.next_mark _ pos following
  | @capture kind spelling name hspells =>
      exact Cursor.next_sigil kind (hspells.name_eq (pos + 1))

end Lexeme.Spelled

/-- Every lexeme before the end but a backslash that protects nothing is one of those spellings. -/
theorem Lexeme.spelled_of_next {c after : Cursor} {l : Lexeme.Located} (hrest : c.rest ≠ [])
    (h : c.next = (.ok l, after)) (hl : l.lexeme ≠ .escaped none) :
    ∃ spelling, c.rest = spelling ++ after.rest ∧ after.pos = c.pos + spelling.length ∧
      Spelled after.rest spelling l.lexeme := by
  have hspelled : ∃ spelling, c.rest = spelling ++ after.rest ∧
      Spelled after.rest spelling l.lexeme := by
    rcases Grammar.next_cases hrest h with ⟨a, hlexeme, hc, ha⟩ | ⟨a, hlexeme, hc⟩ |
      ⟨hlexeme, -⟩ | ⟨m, hlexeme, hc⟩ | ⟨kind, spelling, name, hlexeme, hc, hspells⟩
    · exact ⟨[a], hc, hlexeme ▸ .char ha⟩
    · exact ⟨['\\', a], hc, hlexeme ▸ .escaped⟩
    · exact absurd hlexeme hl
    · exact ⟨[m.toChar], hc, hlexeme ▸ .mark⟩
    · exact ⟨kind.sigil :: spelling, hc, hlexeme ▸ .capture hspells⟩
  obtain ⟨spelling, hc, hspelling⟩ := hspelled
  refine ⟨spelling, hc, ?_, hspelling⟩
  obtain ⟨pos, cs⟩ := c
  dsimp only at hc
  rw [hc, hspelling.next_eq pos] at h
  exact (congrArg (fun result => result.2.pos) h).symm

namespace Draft

/-- Reading the characters takes one draft to another. -/
inductive Passes : Draft → List Char → Draft → Prop
  | nil {d} : Passes d [] d
  | cons {d next after spelling lexeme index cs} : Lexeme.Spelled cs spelling lexeme →
      d.feed id ⟨index, lexeme⟩ = .ok next → Passes next cs after → Passes d (spelling ++ cs) after

/-- How reading can stop with an error at a place: the pattern ends in an open group or with a
backslash, a mark cannot stand there, a group would be too deep, or a name is malformed. -/
inductive Halts (d : Draft) (pos : Nat) : List Char → SyntaxError → Prop
  | finish : Halts d pos [] (.unexpected .finish pos d.expected)
  | escaped {rest} : Halts d pos rest (.unexpected .escaped pos d.expected)
  | mark {m : Mark} {rest} :
      d.feed id ⟨pos, .mark m⟩ = .error (.unexpected (.mark m) pos d.expected) →
      Halts d pos (m.toChar :: rest) (.unexpected (.mark m) pos d.expected)
  | tooDeep {rest} : d.feed id ⟨pos, .mark .openBrace⟩ = .error (.tooDeep pos) →
      Halts d pos (Mark.openBrace.toChar :: rest) (.tooDeep pos)
  | noName {kind : Key.Kind} {rest} : Halts d pos (kind.sigil :: rest) (.missingName (pos + 1))
  | emptyName {kind : Key.Kind} {rest} :
      Halts d pos (kind.sigil :: '"' :: '"' :: rest) (.missingName (pos + 3))
  | openName {kind : Key.Kind} {rest} :
      Halts d pos (kind.sigil :: '"' :: rest) (.unterminatedQuote (pos + 1))

theorem feed_index {d next : Draft} {lexeme : Lexeme} {i : Nat}
    (h : d.feed id ⟨i, lexeme⟩ = .ok next) (j : Nat) : d.feed id ⟨j, lexeme⟩ = .ok next := by
  rcases feed_cases h with ⟨c, rfl | rfl, rfl⟩ | ⟨key, rfl, rfl⟩ | ⟨rfl, hdepth, rfl⟩ |
    ⟨before, outer, rfl, houter, rfl⟩ | ⟨rfl, houter, rfl⟩
  · rfl
  · rfl
  · exact feed_capture id d key j
  · exact feed_open id d j hdepth
  · exact feed_close id d j houter
  · exact feed_finish id d j houter

theorem feed_error {d : Draft} {l : Lexeme.Located} {e : SyntaxError}
    (h : d.feed id l = .error e) :
    (l.lexeme = .mark .openBrace ∧ e = .tooDeep l.index) ∨
      (l.lexeme = .finish ∨ l.lexeme = .escaped none ∨ ∃ m, l.lexeme = .mark m) ∧
        e = .unexpected l.lexeme.kind l.index d.expected := by
  have hexpected : (d.flush id).expected = d.expected := by
    rw [flush_eq]
    rfl
  unfold feed at h
  split at h
  · cases h
  · cases h
  · cases h
  · rename_i hl
    dsimp only at h
    split at h <;> cases h
    exact .inl ⟨hl, rfl⟩
  · rename_i hl
    dsimp only at h
    split at h <;> cases h
    refine .inr ⟨.inr (.inr ⟨_, hl⟩), ?_⟩
    rw [refuse, hexpected]
  · rename_i hl
    split at h <;> cases h
    exact .inr ⟨.inl hl, rfl⟩
  · rename_i hl
    cases h
    exact .inr ⟨.inr (.inl hl), rfl⟩
  · rename_i m _ _ hl
    cases h
    exact .inr ⟨.inr (.inr ⟨m, hl⟩), rfl⟩

/-- A lexeme that is refused stops reading right where it begins. -/
theorem halts_of_feed {d : Draft} {c : Cursor} {l : Lexeme.Located} {e : SyntaxError}
    (hrest : c.rest ≠ []) (hnext : c.next = (.ok l, c.next.2)) (hfeed : d.feed id l = .error e) :
    d.Halts c.pos c.rest e := by
  have hindex := Cursor.index_of_next hnext
  obtain ⟨index, lexeme⟩ := l
  dsimp only at hindex
  subst hindex
  rcases Grammar.next_cases hrest hnext with ⟨a, rfl, -⟩ | ⟨a, rfl, -⟩ | ⟨rfl, -⟩ | ⟨m, rfl, hc⟩ |
    ⟨kind, spelling, name, rfl, -⟩
  · cases hfeed
  · cases hfeed
  · cases hfeed
    exact .escaped
  · rw [hc]
    rcases feed_error hfeed with ⟨hm, rfl⟩ | ⟨-, rfl⟩
    · cases hm
      exact .tooDeep hfeed
    · exact .mark hfeed
  · rw [feed_capture] at hfeed
    cases hfeed

theorem halts_of_next {d : Draft} {c : Cursor} {e : SyntaxError} (h : c.next.1 = .error e) :
    d.Halts c.pos c.rest e := by
  obtain ⟨kind, rest, hc, he⟩ := Cursor.next_error h
  rw [hc]
  rcases he with rfl | ⟨more, rfl, rfl⟩ | ⟨more, rfl, rfl⟩
  · exact .noName
  · exact .emptyName
  · exact .openName

/-- Reading that fails has taken all lexemes up to some place, and stops there. -/
theorem passes_of_error {d : Draft} {c : Cursor} {e : SyntaxError}
    (h : d.readFrom id c = .error e) :
    ∃ cs rest after, c.rest = cs ++ rest ∧ d.Passes cs after ∧
      after.Halts (c.pos + cs.length) rest e := by
  induction c using Cursor.lexemes.induct generalizing d with
  | case1 c hrest =>
      rw [readFrom_nil id d hrest] at h
      refine ⟨[], [], d, hrest, .nil, ?_⟩
      rcases feed_error h with ⟨hl, -⟩ | ⟨-, rfl⟩
      · cases hl
      · exact .finish
  | case2 c hrest e' hnext =>
      rw [readFrom_error hrest hnext] at h
      cases h
      exact ⟨[], c.rest, d, rfl, .nil, halts_of_next hnext⟩
  | case3 c hrest l hnext ih =>
      have hnext' : c.next = (.ok l, c.next.2) := Prod.ext hnext rfl
      rw [readFrom_next hrest hnext'] at h
      cases hfeed : d.feed id l with
      | error e' =>
          rw [hfeed] at h
          cases h
          exact ⟨[], c.rest, d, rfl, .nil, halts_of_feed hrest hnext' hfeed⟩
      | ok next =>
          rw [hfeed] at h
          obtain ⟨cs, rest, after, hsplit, hpasses, hhalts⟩ := ih h
          have hl : l.lexeme ≠ .escaped none := by
            intro hl
            obtain ⟨index, lexeme⟩ := l
            cases hl
            cases hfeed
          obtain ⟨spelling, hc, hpos, hspelled⟩ := Lexeme.spelled_of_next hrest hnext' hl
          -- a name that ends before the rest also ends where the characters taken do
          rw [hsplit] at hc hspelled
          refine ⟨spelling ++ cs, rest, after, ?_, .cons hspelled.of_append hfeed hpasses, ?_⟩
          · rw [hc, List.append_assoc]
          · rw [List.length_append, ← Nat.add_assoc, ← hpos]
            exact hhalts

namespace Passes

variable {d after : Draft} {cs : List Char}

theorem readFrom (h : d.Passes cs after) {tail : List Char} (htail : prolongs tail = false)
    (pos : Nat) :
    d.readFrom id ⟨pos, cs ++ tail⟩ = after.readFrom id ⟨pos + cs.length, tail⟩ := by
  induction h generalizing pos with
  | nil => rfl
  | @cons d next after spelling lexeme index cs hspelled hfeed _ ih =>
      have hnext := (hspelled.append htail).next_eq pos
      rw [List.append_assoc, readFrom_next (List.append_ne_nil_of_left_ne_nil hspelled.ne_nil _)
        hnext, feed_index hfeed pos, List.length_append, ← Nat.add_assoc]
      exact ih (pos + spelling.length)

end Passes

/-- Every open group can be closed, and then the pattern can end. -/
theorem readFrom_closing (d : Draft) (pos : Nat) :
    ∃ after, d.readFrom id ⟨pos, List.replicate d.outer.length '\x7d'⟩ = .ok after := by
  obtain ⟨run, tokens, outer⟩ := d
  induction outer generalizing run tokens pos with
  | nil => exact ⟨_, (readFrom_nil id _ rfl).trans (feed_finish id _ _ rfl)⟩
  | cons before outer ih =>
      obtain ⟨after, hafter⟩ := ih (pos + 1) ""
        (before ++ [.group (settled id ⟨run, tokens, before :: outer⟩)])
      refine ⟨after, ?_⟩
      rw [List.length_cons, List.replicate_succ, readFrom_next (List.cons_ne_nil _ _) rfl,
        feed_close id _ _ rfl]
      exact hafter

theorem length_outer_feed {d next : Draft} {lexeme : Lexeme} {index : Nat}
    (h : d.feed id ⟨index, lexeme⟩ = .ok next) :
    (if lexeme = .mark .openBrace then 1 else 0) + d.outer.length =
      (if lexeme = .mark .closeBrace then 1 else 0) + next.outer.length := by
  rcases feed_cases h with ⟨c, rfl | rfl, rfl⟩ | ⟨key, rfl, rfl⟩ | ⟨rfl, -, rfl⟩ |
    ⟨before, outer, rfl, houter, rfl⟩ | ⟨rfl, houter, rfl⟩
  · rfl
  · rfl
  · rfl
  · simp [Nat.add_comm]
  · simp [houter, Nat.add_comm]
  · simp [houter]

end Draft

theorem Cursor.count_nil (m : Mark) (pos : Nat) : count m ⟨pos, []⟩ = 0 := by
  rw [count, lexemes, dif_pos rfl]
  rfl

theorem Lexeme.Spelled.count_eq {following spelling : List Char} {lexeme : Lexeme}
    (h : Spelled following spelling lexeme) (m : Mark) (pos : Nat) :
    Cursor.count m ⟨pos, spelling ++ following⟩ =
      Cursor.count m ⟨pos + spelling.length, following⟩ + if lexeme = .mark m then 1 else 0 := by
  unfold Cursor.count
  rw [Cursor.lexemes, dif_neg (List.append_ne_nil_of_left_ne_nil h.ne_nil _), h.next_eq pos]
  simp only [List.countP_cons, beq_iff_eq]

namespace Draft.Passes

variable {d after : Draft} {cs : List Char}

theorem count_add (h : d.Passes cs after) (pos : Nat) :
    Cursor.count .openBrace ⟨pos, cs⟩ + d.outer.length =
      Cursor.count .closeBrace ⟨pos, cs⟩ + after.outer.length := by
  induction h generalizing pos with
  | nil => rw [Cursor.count_nil, Cursor.count_nil]
  | @cons d next after spelling lexeme index cs hspelled hfeed _ ih =>
      have hstep := length_outer_feed hfeed
      have hrun := ih (pos + spelling.length)
      rw [hspelled.count_eq, hspelled.count_eq]
      omega

theorem openGroups_eq (h : Draft.empty.Passes cs after) : openGroups cs = after.outer.length := by
  have hcount := h.count_add 0
  change _ + 0 = _ at hcount
  unfold openGroups
  omega

end Draft.Passes

theorem prolongs_mark (m : Mark) (rest : List Char) : prolongs (m.toChar :: rest) = false := by
  change Text.Identifier.isContinue m.toChar = false
  cases m <;> decide

theorem prolongs_closing (count : Nat) : prolongs (List.replicate count '\x7d') = false := by
  cases count with
  | zero => rfl
  | succ count => exact prolongs_mark .closeBrace _

theorem accepted_iff {cs : List Char} :
    Accepted cs ↔ ∃ d, Draft.empty.readFrom id ⟨0, cs⟩ = .ok d := by
  unfold Accepted
  rw [Options.parse_eq_readFrom, String.toList_ofList]
  change (∃ template, ((Draft.empty.readFrom id ⟨0, cs⟩).map Draft.tokens).mapError _ = _) ↔ _
  cases Draft.empty.readFrom id ⟨0, cs⟩ with
  | error e => simp [Except.map, Except.mapError]
  | ok d => simp [Except.map, Except.mapError]

namespace Draft.Halts

variable {d : Draft} {pos : Nat} {rest : List Char} {e : SyntaxError}

theorem start_eq {cs : List Char} (h : d.Halts cs.length rest e) :
    e.start (cs ++ rest) = cs.length := by
  cases h with
  | finish => rfl
  | escaped => rfl
  | mark _ => rfl
  | tooDeep _ => rfl
  | @noName kind rest =>
      have htake : (cs ++ kind.sigil :: rest).take (cs.length + 1) = cs ++ [kind.sigil] :=
        List.take_length_add_append 1
      have hsuffix : ¬ ['"', '"'] <:+ cs ++ [kind.sigil] := by
        rintro ⟨before, hbefore⟩
        have hlast := congrArg List.getLast? hbefore
        cases kind <;> simp [Key.Kind.sigil] at hlast
      rw [SyntaxError.start, htake, if_neg (fun h => hsuffix (List.isSuffixOf_iff_suffix.mp h))]
      rfl
  | @emptyName kind rest =>
      have htake : (cs ++ kind.sigil :: '"' :: '"' :: rest).take (cs.length + 3) =
          cs ++ [kind.sigil, '"', '"'] := List.take_length_add_append 3
      have hsuffix : ['"', '"'] <:+ cs ++ [kind.sigil, '"', '"'] := ⟨cs ++ [kind.sigil], by simp⟩
      rw [SyntaxError.start, htake, if_pos (List.isSuffixOf_iff_suffix.mpr hsuffix)]
      rfl
  | openName => rfl

theorem unexpected_eq {found expected : Lexeme.Kind} {index : Nat}
    (h : d.Halts pos rest (.unexpected found index expected)) : expected = d.expected := by
  cases h <;> rfl

theorem exists_sigil {index : Nat} (h : d.Halts pos rest e)
    (he : e = .missingName index ∨ e = .unterminatedQuote index) :
    pos < index ∧ ∃ (kind : Key.Kind) (more : List Char), rest = kind.sigil :: more := by
  rcases he with rfl | rfl
  · cases h with
    | @noName kind more => exact ⟨by omega, kind, more, rfl⟩
    | @emptyName kind more => exact ⟨by omega, kind, _, rfl⟩
  · cases h with
    | @openName kind more => exact ⟨by omega, kind, _, rfl⟩

theorem exists_mark {index : Nat} (h : d.Halts pos rest e)
    (he : e = .tooDeep index ∨ ∃ found expected, e = .unexpected found index expected ∧
      found ≠ .finish ∧ found ≠ .escaped) :
    index = pos ∧ ∃ (m : Mark) (more : List Char), rest = m.toChar :: more ∧
      d.feed id ⟨pos, .mark m⟩ = .error e := by
  rcases he with rfl | ⟨found, expected, rfl, hfinish, hescaped⟩
  · cases h with
    | @tooDeep more hfeed => exact ⟨rfl, .openBrace, more, rfl, hfeed⟩
  · cases h with
    | finish => exact absurd rfl hfinish
    | escaped => exact absurd rfl hescaped
    | @mark m more hfeed => exact ⟨rfl, m, more, rfl, hfeed⟩

end Draft.Halts

namespace Draft.Passes

variable {after : Draft} {cs : List Char}

theorem accepted (h : Draft.empty.Passes cs after) :
    Accepted (cs ++ List.replicate after.outer.length '\x7d') := by
  rw [accepted_iff, h.readFrom (prolongs_closing _) 0]
  exact after.readFrom_closing _

theorem not_accepted (h : Draft.empty.Passes cs after) {m : Mark} {e : SyntaxError}
    (hfeed : after.feed id ⟨cs.length, .mark m⟩ = .error e) (more : List Char) :
    ¬ Accepted (cs ++ m.toChar :: more) := by
  rw [accepted_iff, h.readFrom (prolongs_mark m more) 0, Nat.zero_add,
    readFrom_next (List.cons_ne_nil _ _) (Cursor.next_mark m _ _), hfeed]
  rintro ⟨d, hd⟩
  cases hd

theorem leftmost (h : Draft.empty.Passes cs after) {rest : List Char} {e : SyntaxError}
    (hhalts : after.Halts cs.length rest e) : e.Leftmost (cs ++ rest) := by
  have hstart := hhalts.start_eq
  have htake : (cs ++ rest).take (e.start (cs ++ rest)) = cs := by
    rw [hstart, List.take_left]
  refine ⟨?_, ?_, ?_, ?_, ?_⟩
  · rw [hstart, List.length_append]
    exact Nat.le_add_right _ _
  · rw [htake, h.openGroups_eq]
    exact h.accepted
  · rintro found index expected rfl
    rw [htake, h.openGroups_eq, hhalts.unexpected_eq, Draft.expected]
    cases after.outer with
    | nil => rfl
    | cons before outer => rfl
  · intro index he
    obtain ⟨hlt, kind, more, rfl⟩ := hhalts.exists_sigil he
    rw [hstart]
    exact ⟨hlt, kind, by simp⟩
  · intro index he more
    obtain ⟨rfl, m, following, rfl, hfeed⟩ := hhalts.exists_mark he
    rw [List.take_length_add_append, List.append_assoc]
    exact h.not_accepted hfeed more

end Draft.Passes

/-- Every text that is no pattern is refused at its first lexeme that cannot be taken. -/
theorem parse_error_leftmost (pattern : String) {error : Error}
    (h : ({} : Options).parse pattern = .error error) :
    ∃ e : SyntaxError, error = .malformed e ∧ e.Leftmost pattern.toList := by
  rw [Options.parse_eq_readFrom] at h
  change ((Draft.empty.readFrom id ⟨0, pattern.toList⟩).map _).mapError _ = _ at h
  cases hread : Draft.empty.readFrom id ⟨0, pattern.toList⟩ with
  | ok d =>
      rw [hread] at h
      cases h
  | error e =>
      rw [hread] at h
      cases h
      obtain ⟨cs, rest, after, hsplit, hpasses, hhalts⟩ := Draft.passes_of_error hread
      dsimp only at hsplit hhalts
      rw [Nat.zero_add] at hhalts
      rw [hsplit]
      exact ⟨e, rfl, hpasses.leftmost hhalts⟩

/-- One group is open at the parenthesis, another one is closed before it. -/
theorem parse_error_leftmost_paren :
    let e : SyntaxError := .unexpected (.mark .openParen) 8 (.mark .closeBrace)
    let chars := "x\x7b:a\x7b:b\x7d(c".toList
    ({} : Options).parse "x\x7b:a\x7b:b\x7d(c" = .error (.malformed e) ∧
      Accepted (chars.take 8 ++ ['\x7d']) ∧ ∀ more, ¬ Accepted (chars.take 9 ++ more) := by
  intro e chars
  have h : ({} : Options).parse "x\x7b:a\x7b:b\x7d(c" = .error (.malformed e) := by
    decide +kernel
  obtain ⟨e', he, hleftmost⟩ := parse_error_leftmost _ h
  cases he
  have hopen : openGroups (chars.take 8) = 1 := by
    decide +kernel
  have hclosable := hleftmost.closable
  change Accepted (chars.take 8 ++ List.replicate (openGroups (chars.take 8)) '\x7d') at hclosable
  rw [hopen] at hclosable
  exact ⟨h, hclosable, hleftmost.spoils 8 (.inr ⟨_, _, rfl, by decide, by decide⟩)⟩

end PathPattern
