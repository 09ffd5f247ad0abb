import Mathlib.Logic.Function.Iterate
import PathPattern.Proofs.SyntaxErrors
import PathPattern.Regex.Attempt

/-!
Calls for lexemes, one after another on the same cursor. Whatever a call gives, a lexeme or an
error, the next one goes on further right in the same text, so that the end is reached after as many
calls as there are characters at the latest. Without an error nothing is skipped either: each lexeme
was read from all that stands before the next one.
-/
namespace PathPattern

namespace Cursor

theorem ReadsTo.rest_eq {chars : List Char} {c : Cursor} (h : ReadsTo ⟨0, chars⟩ c) :
    c.rest = chars.drop c.pos := by
  obtain ⟨taken, hrest, hpos⟩ := h
  dsimp only at hrest hpos
  rw [hrest, hpos, Nat.zero_add, List.drop_left]

theorem pos_lt_next {c : Cursor} (h : c.rest ≠ []) : c.pos < c.next.2.pos := by
  obtain ⟨first, rest, hc⟩ := List.exists_cons_of_ne_nil h
  exact (readsTo_next hc).pos_le

theorem next_finished {c : Cursor} (h : c.rest = []) : c.next = (.ok ⟨c.pos, .finish⟩, c) := by
  unfold next
  rw [h]

theorem readsTo_call (c : Cursor) : c.ReadsTo c.next.2 := by
  by_cases hrest : c.rest = []
  · rw [next_finished hrest]
    exact .refl c
  · obtain ⟨first, rest, hc⟩ := List.exists_cons_of_ne_nil hrest
    have hfirst : c.ReadsTo ⟨c.pos + 1, rest⟩ := ⟨[first], hc, rfl⟩
    exact hfirst.trans (readsTo_next hc)

theorem readsTo_iterate (n : Nat) (c : Cursor) : c.ReadsTo ((fun c => c.next.2)^[n] c) := by
  induction n with
  | zero => exact .refl c
  | succ n ih =>
      rw [Function.iterate_succ_apply']
      exact ih.trans (readsTo_call _)

theorem length_rest_iterate (n : Nat) (c : Cursor) :
    ((fun c => c.next.2)^[n] c).rest.length ≤ c.rest.length - n := by
  induction n with
  | zero => exact Nat.le_refl _
  | succ n ih =>
      rw [Function.iterate_succ_apply']
      by_cases hrest : ((fun c => c.next.2)^[n] c).rest = []
      · rw [next_finished hrest, hrest]
        exact Nat.zero_le _
      · have hless := length_rest_next _ hrest
        omega

theorem iterate_length (chars : List Char) :
    (fun c => c.next.2)^[chars.length] (⟨0, chars⟩ : Cursor) = ⟨chars.length, []⟩ := by
  have hlength := (readsTo_iterate chars.length ⟨0, chars⟩).length_eq
  have hle := length_rest_iterate chars.length ⟨0, chars⟩
  generalize (fun c => c.next.2)^[chars.length] (⟨0, chars⟩ : Cursor) = c at hlength hle
  obtain ⟨pos, rest⟩ := c
  dsimp only at hlength hle
  have hrest : rest = [] := List.eq_nil_of_length_eq_zero (by omega)
  have hpos : pos = chars.length := by omega
  rw [hrest, hpos]

theorem calls_add (m n : Nat) (c : Cursor) :
    calls (m + n) c = calls m c ++ calls n ((fun c => c.next.2)^[m] c) := by
  induction m generalizing c with
  | zero =>
      rw [Nat.zero_add]
      rfl
  | succ m ih =>
      rw [Nat.succ_add]
      exact congrArg (c.next.1 :: ·) (ih c.next.2)

theorem calls_finished (n : Nat) {c : Cursor} (h : c.rest = []) :
    calls n c = List.replicate n (.ok ⟨c.pos, .finish⟩) := by
  induction n with
  | zero => rfl
  | succ n ih =>
      rw [calls, next_finished h, ih]
      rfl

end Cursor

namespace Lexeme

/-- The characters that a lexeme was read from, in front of others: one of its spellings, or a
backslash that the text ends with. -/
def ReadFrom (following span : List Char) (lexeme : Lexeme) : Prop :=
  Spelled following span lexeme ∨ lexeme = .escaped none ∧ span = ['\\'] ∧ following = []

theorem readFrom_of_next {c after : Cursor} {l : Located} (hrest : c.rest ≠ [])
    (h : c.next = (.ok l, after)) :
    ∃ span, c.rest = span ++ after.rest ∧ after.pos = c.pos + span.length ∧
      ReadFrom after.rest span l.lexeme := by
  by_cases hl : l.lexeme = .escaped none
  · rcases Grammar.next_cases hrest h with ⟨a, hc, -⟩ | ⟨a, hc, -⟩ | ⟨-, hc, hafter⟩ | ⟨m, hc, -⟩ |
      ⟨kind, spelling, name, hc, -⟩
    · cases hl.symm.trans hc
    · cases hl.symm.trans hc
    · have hreads := c.readsTo_call.length_eq
      rw [h, hc, hafter] at hreads
      rw [hc, hafter]
      exact ⟨['\\'], rfl, hreads, .inr ⟨hl, rfl, rfl⟩⟩
    · cases hl.symm.trans hc
    · cases hl.symm.trans hc
  · obtain ⟨span, hc, hpos, hspelled⟩ := spelled_of_next hrest h hl
    exact ⟨span, hc, hpos, .inl hspelled⟩

/-- The characters from each lexeme up to the next one. -/
def spans (chars : List Char) (ls : List Located) : List (List Char) :=
  ls.zipWith (fun a b => Regex.Span.slice ⟨a.index, b.index⟩ chars) ls.tail

/-- The lexemes cover the text from `start` on, as far as they go. -/
structure Tiles (chars : List Char) (start : Nat) (ls : List Located) : Prop where
  starts : ∀ l, ls.head? = some l → l.index = start
  /-- Before the end, each lexeme was read from what stands up to the next one. -/
  readFrom : ∀ k a b, ls[k]? = some a → ls[k + 1]? = some b → a.lexeme ≠ .finish →
    a.index < b.index ∧
      ReadFrom (chars.drop b.index) (Regex.Span.slice ⟨a.index, b.index⟩ chars) a.lexeme
  ends : ∀ l ∈ ls, l.lexeme = .finish → l.index = chars.length
  /-- Put together, this is the text up to the last lexeme. -/
  covers : ∀ last, ls.getLast? = some last →
    (spans chars ls).flatten ++ chars.drop last.index = chars.drop start

theorem slice_append_drop {start stop : Nat} (chars : List Char) (h : start ≤ stop) :
    Regex.Span.slice ⟨start, stop⟩ chars ++ chars.drop stop = chars.drop start := by
  have hdrop : chars.drop stop = (chars.drop start).drop (stop - start) := by
    rw [List.drop_drop, Nat.add_sub_cancel' h]
  rw [hdrop]
  exact List.take_append_drop (stop - start) (chars.drop start)

namespace Tiles

variable {chars : List Char}

theorem nil (start : Nat) : Tiles chars start [] := by
  refine ⟨?_, ?_, ?_, ?_⟩
  · intro l hl
    cases hl
  · intro k a b ha
    cases ha
  · intro l hl
    cases hl
  · intro last hlast
    cases hlast

theorem cons {l : Located} {next : Nat} {rest : List Located} (hle : l.index ≤ next)
    (hends : l.lexeme = .finish → l.index = chars.length)
    (hread : l.lexeme ≠ .finish → l.index < next ∧
      ReadFrom (chars.drop next) (Regex.Span.slice ⟨l.index, next⟩ chars) l.lexeme)
    (h : Tiles chars next rest) : Tiles chars l.index (l :: rest) := by
  refine ⟨?_, ?_, ?_, ?_⟩
  · intro first hfirst
    cases hfirst
    rfl
  · intro k a b ha hb hne
    cases k with
    | zero =>
        cases ha
        rw [h.starts b (List.head?_eq_getElem?.trans hb)]
        exact hread hne
    | succ k => exact h.readFrom k a b ha hb hne
  · intro other hother hfinish
    rcases List.mem_cons.mp hother with rfl | hother
    · exact hends hfinish
    · exact h.ends other hother hfinish
  · intro last hlast
    cases rest with
    | nil =>
        cases hlast
        rfl
    | cons second more =>
        have hsecond := h.starts second rfl
        have hcovers := h.covers last hlast
        change (Regex.Span.slice ⟨l.index, second.index⟩ chars ++
          (spans chars (second :: more)).flatten) ++ _ = _
        rw [List.append_assoc, hcovers, hsecond, slice_append_drop chars hle]

theorem whole {ls : List Located} {last : Located} (h : Tiles chars 0 ls)
    (hlast : ls.getLast? = some last) (hfinish : last.lexeme = .finish) :
    (spans chars ls).flatten = chars := by
  have hcovers := h.covers last hlast
  have hend := h.ends last (List.mem_of_getLast? hlast) hfinish
  rw [hend, List.drop_length, List.append_nil] at hcovers
  exact hcovers

end Tiles

/-- The lexemes of calls that all succeed tile the text, one call after another. -/
theorem tiles_of_calls {chars : List Char} {c : Cursor} {ls : List Located} (n : Nat)
    (hc : Cursor.ReadsTo ⟨0, chars⟩ c) (h : Cursor.calls n c = ls.map .ok) :
    Tiles chars c.pos ls := by
  -- on the calls: what is still to come tiles the text from the place that the first call leads to
  induction n generalizing c ls with
  | zero =>
      cases ls with
      | nil => exact .nil c.pos
      | cons l rest => cases h
  | succ n ih =>
      cases ls with
      | nil => cases h
      | cons l rest =>
          obtain ⟨hl, hcalls⟩ := List.cons.inj h
          have hnext : c.next = (.ok l, c.next.2) := Prod.ext hl rfl
          have hindex := Cursor.index_of_next hnext
          have hafter := hc.trans c.readsTo_call
          have htiles := ih hafter hcalls
          rw [← hindex]
          by_cases hrest : c.rest = []
          · have hlength := hc.length_eq
            rw [hrest] at hlength
            rw [Cursor.next_finished hrest] at hnext htiles
            cases hnext
            refine .cons (Nat.le_refl _) (fun _ => ?_) (fun hne => absurd rfl hne) htiles
            simpa using hlength
          · obtain ⟨span, hspan, hpos, hread⟩ := readFrom_of_next hrest hnext
            have hlt : c.pos < c.next.2.pos := Cursor.pos_lt_next hrest
            have hslice : Regex.Span.slice ⟨c.pos, c.next.2.pos⟩ chars = span := by
              unfold Regex.Span.slice
              rw [← hc.rest_eq, hspan, hpos, Nat.add_sub_cancel_left, List.take_left]
            have hne := Cursor.next_ne_finish hrest hnext
            refine .cons (by omega) (fun hfinish => absurd hfinish hne) ?_ htiles
            intro _
            rw [hindex, hslice, ← hafter.rest_eq]
            exact ⟨hlt, hread⟩

end Lexeme

/-- Calls go on in the pattern, past errors too, until only its end is left to report. As long as
they succeed, the lexemes tile the pattern. -/
theorem lexer_loses_nothing (pattern : String) :
    let chars := pattern.toList
    let c := Cursor.ofPattern pattern
    (∀ k, let here := (fun c => c.next.2)^[k] c
      here.pos ≤ chars.length ∧ here.rest = chars.drop here.pos ∧
        (here.pos < chars.length → here.pos < here.next.2.pos)) ∧
    (∀ m, Cursor.calls (chars.length + m) c =
      Cursor.calls chars.length c ++ List.replicate m (.ok ⟨chars.length, .finish⟩)) ∧
    ∀ m ls, Cursor.calls m c = ls.map .ok → Lexeme.Tiles chars 0 ls ∧
      ∀ last, ls.getLast? = some last → last.lexeme = .finish →
        (Lexeme.spans chars ls).flatten = chars := by
  intro chars c
  refine ⟨?_, ?_, ?_⟩
  · intro k here
    have hreads : c.ReadsTo here := Cursor.readsTo_iterate k c
    have hlength : here.pos + here.rest.length = 0 + chars.length := hreads.length_eq
    refine ⟨by omega, hreads.rest_eq, ?_⟩
    intro hlt
    apply Cursor.pos_lt_next
    intro hnil
    rw [hnil, List.length_nil] at hlength
    omega
  · intro m
    have hfinished : (fun c => c.next.2)^[chars.length] c = ⟨chars.length, []⟩ :=
      Cursor.iterate_length chars
    rw [Cursor.calls_add, hfinished, Cursor.calls_finished m rfl]
  · intro m ls hcalls
    have htiles : Lexeme.Tiles chars 0 ls := Lexeme.tiles_of_calls m (.refl c) hcalls
    exact ⟨htiles, fun last => htiles.whole⟩

/-- A mark, an escape and both spellings of names, with a backslash at the very end. -/
theorem lexer_loses_nothing_dangling :
    let pattern := "\\:\x7b:a1-*\"b \\\"c\"\x7d\\"
    ∃ ls, Cursor.calls 8 (.ofPattern pattern) = ls.map .ok ∧
      Lexeme.Tiles pattern.toList 0 ls ∧ (Lexeme.spans pattern.toList ls).flatten = pattern.toList ∧
      Lexeme.spans pattern.toList ls =
        ["\\:", "\x7b", ":a1", "-", "*\"b \\\"c\"", "\x7d", "\\"].map String.toList := by
  intro pattern
  let ls : List Lexeme.Located :=
    [⟨0, .escaped (some ':')⟩, ⟨2, .mark .openBrace⟩, ⟨3, .capture ⟨.param, "a1"⟩⟩, ⟨6, .char '-'⟩,
      ⟨7, .capture ⟨.wildcard, "b \"c"⟩⟩, ⟨15, .mark .closeBrace⟩, ⟨16, .escaped none⟩,
      ⟨17, .finish⟩]
  have hcalls : Cursor.calls 8 (.ofPattern pattern) = ls.map .ok := by
    decide +kernel
  obtain ⟨htiles, hwhole⟩ := (lexer_loses_nothing pattern).2.2 8 ls hcalls
  exact ⟨ls, hcalls, htiles, hwhole ⟨17, .finish⟩ rfl rfl, by decide +kernel⟩

-- after a quote that is never closed, calls go on at the last backslash
example : Cursor.calls 4 (.ofPattern ":\"a\\") =
    [.error (.unterminatedQuote 1), .ok ⟨3, .escaped none⟩, .ok ⟨4, .finish⟩, .ok ⟨4, .finish⟩] := by
  decide

end PathPattern
