import PathPattern.Pattern
import PathPattern.Proofs.NormalForm

/-!
Reading a pattern from any place on, lexeme by lexeme, and what each of them does to the draft.
-/
namespace PathPattern

namespace Draft

/-- Reads a pattern from a place on. -/
def readFrom (encode : String → String) (d : Draft) (c : Cursor) : Except SyntaxError Draft :=
  d.feedAll encode c.lexemes

theorem readFrom_next {encode : String → String} {d : Draft} {c after : Cursor}
    {l : Lexeme.Located} (hrest : c.rest ≠ []) (hnext : c.next = (.ok l, after)) :
    d.readFrom encode c = (d.feed encode l).bind fun next => next.readFrom encode after := by
  unfold readFrom
  rw [Cursor.lexemes, dif_neg hrest, hnext]
  rfl

theorem readFrom_error {encode : String → String} {d : Draft} {c : Cursor} {e : SyntaxError}
    (hrest : c.rest ≠ []) (hnext : c.next.1 = .error e) : d.readFrom encode c = .error e := by
  unfold readFrom
  rw [Cursor.lexemes, dif_neg hrest, hnext]
  rfl

theorem readFrom_nil (encode : String → String) (d : Draft) {c : Cursor} (hrest : c.rest = []) :
    d.readFrom encode c = d.feed encode ⟨c.pos, .finish⟩ := by
  have hnext : c.next.1 = .ok ⟨c.pos, .finish⟩ := by
    unfold Cursor.next
    rw [hrest]
  unfold readFrom
  rw [Cursor.lexemes, dif_pos hrest, hnext]
  change (d.feed encode ⟨c.pos, .finish⟩).bind .ok = _
  cases d.feed encode ⟨c.pos, .finish⟩ with
  | error e => rfl
  | ok d' => rfl

/-- The tokens once the literal characters after them have become a text. -/
def settled (encode : String → String) (d : Draft) : List Token :=
  d.tokens ++ if d.run.isEmpty then [] else [.text (encode d.run)]

theorem flush_eq (encode : String → String) (d : Draft) :
    d.flush encode = ⟨"", d.settled encode, d.outer⟩ := by
  obtain ⟨run, tokens, outer⟩ := d
  unfold flush settled
  by_cases h : run = ""
  · simp [h]
  · simp [h]

theorem settled_id (d : Draft) : d.settled id = d.tokens ++ Template.prependText d.run [] := rfl

theorem feed_capture (encode : String → String) (d : Draft) (key : Key) (index : Nat) :
    d.feed encode ⟨index, .capture key⟩ =
      .ok ⟨"", d.settled encode ++ [.capture key], d.outer⟩ := by
  simp only [feed, flush_eq]

theorem feed_open (encode : String → String) (d : Draft) (index : Nat)
    (h : d.outer.length < maxDepth) :
    d.feed encode ⟨index, .mark .openBrace⟩ = .ok ⟨"", [], d.settled encode :: d.outer⟩ := by
  simp only [feed, flush_eq, Nat.not_le.mpr h, if_false]

theorem feed_close (encode : String → String) (d : Draft) (index : Nat) {before : List Token}
    {outer : List (List Token)} (h : d.outer = before :: outer) :
    d.feed encode ⟨index, .mark .closeBrace⟩ =
      .ok ⟨"", before ++ [.group (d.settled encode)], outer⟩ := by
  simp only [feed, flush_eq, h]

theorem feed_finish (encode : String → String) (d : Draft) (index : Nat) (h : d.outer = []) :
    d.feed encode ⟨index, .finish⟩ = .ok ⟨"", d.settled encode, []⟩ := by
  simp only [feed, flush_eq, h, List.isEmpty_nil, if_true]

theorem feed_cases {encode : String → String} {d d' : Draft} {l : Lexeme.Located}
    (h : d.feed encode l = .ok d') :
    (∃ c, (l.lexeme = .char c ∨ l.lexeme = .escaped (some c)) ∧ d' = d.literal c) ∨
    (∃ key, l.lexeme = .capture key ∧
      d' = ⟨"", d.settled encode ++ [.capture key], d.outer⟩) ∨
    (l.lexeme = .mark .openBrace ∧ d.outer.length < maxDepth ∧
      d' = ⟨"", [], d.settled encode :: d.outer⟩) ∨
    (∃ before outer, l.lexeme = .mark .closeBrace ∧ d.outer = before :: outer ∧
      d' = ⟨"", before ++ [.group (d.settled encode)], outer⟩) ∨
    (l.lexeme = .finish ∧ d.outer = [] ∧ d' = ⟨"", d.settled encode, []⟩) := by
  obtain ⟨index, lexeme⟩ := l
  unfold feed at h
  split at h
  · rename_i c hl
    cases h
    exact .inl ⟨c, .inl hl, rfl⟩
  · rename_i c hl
    cases h
    exact .inl ⟨c, .inr hl, rfl⟩
  · rename_i key hl
    rw [flush_eq] at h
    cases h
    exact .inr (.inl ⟨key, hl, rfl⟩)
  · rename_i hl
    simp only [flush_eq] at h
    split at h
    · cases h
    · rename_i hdepth
      cases h
      exact .inr (.inr (.inl ⟨hl, Nat.not_le.mp hdepth, rfl⟩))
  · rename_i hl
    simp only [flush_eq] at h
    split at h
    · cases h
    · rename_i before outer houter
      cases h
      exact .inr (.inr (.inr (.inl ⟨before, outer, hl, houter, rfl⟩)))
  · rename_i hl
    split at h
    · rename_i houter
      have houter := List.isEmpty_iff.mp houter
      rw [flush_eq, houter] at h
      cases h
      exact .inr (.inr (.inr (.inr ⟨hl, houter, rfl⟩)))
    · cases h
  · cases h
  · cases h

/-- Induction on a reading that succeeds, from the end of the pattern back. -/
theorem readFrom_induction {encode : String → String} {result : Draft}
    {motive : Draft → Cursor → Prop}
    (finish : ∀ d c, c.rest = [] → d.outer = [] → result = ⟨"", d.settled encode, []⟩ →
      motive d c)
    (step : ∀ d c l next, c.rest ≠ [] → c.next = (.ok l, c.next.2) → d.feed encode l = .ok next →
      motive next c.next.2 → motive d c)
    {d : Draft} {c : Cursor} (h : d.readFrom encode c = .ok result) : motive d c := by
  induction c using Cursor.lexemes.induct generalizing d with
  | case1 c hrest =>
      rw [readFrom_nil encode d hrest] at h
      rcases feed_cases h with ⟨a, hl | hl, -⟩ | ⟨key, hl, -⟩ | ⟨hl, -, -⟩ |
        ⟨before, outer, hl, -, -⟩ | ⟨-, houter, hresult⟩
      · cases hl
      · cases hl
      · cases hl
      · cases hl
      · cases hl
      · exact finish d c hrest houter hresult
  | case2 c hrest e hnext =>
      rw [readFrom_error hrest hnext] at h
      cases h
  | case3 c hrest l hnext ih =>
      have hnext' : c.next = (.ok l, c.next.2) := Prod.ext hnext rfl
      rw [readFrom_next hrest hnext'] at h
      cases hfeed : d.feed encode l with
      | error e =>
          rw [hfeed] at h
          cases h
      | ok next =>
          rw [hfeed] at h
          exact step d c l next hrest hnext' hfeed (ih h)

end Draft

theorem Template.parse_eq_ok {encode : String → String} {pattern : String} {template : Template} :
    Template.parse encode pattern = .ok template ↔
      ∃ d, Draft.empty.readFrom encode ⟨0, pattern.toList⟩ = .ok d ∧ d.tokens = template := by
  change (Draft.empty.readFrom encode ⟨0, pattern.toList⟩ >>= fun d => pure d.tokens) = _ ↔ _
  cases Draft.empty.readFrom encode ⟨0, pattern.toList⟩ with
  | error e =>
      constructor
      · intro h
        cases h
      · rintro ⟨d, hread, -⟩
        cases hread
  | ok d =>
      constructor
      · intro h
        cases h
        exact ⟨d, rfl, rfl⟩
      · rintro ⟨d, hread, rfl⟩
        cases hread
        rfl

theorem Options.parse_eq_readFrom (o : Options) (pattern : String) :
    o.parse pattern =
      ((Draft.empty.readFrom (o.encodePath.getD id) ⟨0, pattern.toList⟩).map
        Draft.tokens).mapError .malformed := by
  change (Draft.empty.readFrom (o.encodePath.getD id) ⟨0, pattern.toList⟩ >>= fun d =>
    pure d.tokens).mapError Error.malformed = _
  cases Draft.empty.readFrom (o.encodePath.getD id) ⟨0, pattern.toList⟩ with
  | error e => rfl
  | ok d => rfl

theorem Options.parse_eq_ok {o : Options} {pattern : String} {template : Template}
    (h : o.parse pattern = .ok template) :
    Template.parse (o.encodePath.getD id) pattern = .ok template := by
  unfold Options.parse at h
  cases hparse : Template.parse (o.encodePath.getD id) pattern with
  | error e =>
      rw [hparse] at h
      cases h
  | ok t =>
      rw [hparse] at h
      cases h
      rfl

end PathPattern
