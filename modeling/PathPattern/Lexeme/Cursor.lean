import PathPattern.Error
import PathPattern.Text.Identifier

/-!
Reading lexemes one by one from a place in a pattern. Every call makes progress until the pattern is
used up, and from then on reports its end.
-/
namespace PathPattern

open Text (Identifier.isStart Identifier.isContinue)

/-- A quoted name after its opening quote. -/
inductive QuotedName where
  /-- The name is complete and `rest` follows the closing quote. -/
  | closed (name rest : List Char)
  /-- The pattern ends first; `rest` is a last backslash that protects nothing, if there is one. -/
  | unclosed (rest : List Char)
  deriving DecidableEq, Repr

namespace QuotedName

/-- Puts a character in front of the name. -/
def push (c : Char) : QuotedName → QuotedName
  | .closed name rest => .closed (c :: name) rest
  | .unclosed rest => .unclosed rest

/-- Reads up to the closing quote. A backslash takes the next character as it is. -/
def read : List Char → QuotedName
  | [] => .unclosed []
  | '"' :: rest => .closed [] rest
  | ['\\'] => .unclosed ['\\']
  | '\\' :: c :: rest => (read rest).push c
  | c :: rest => (read rest).push c

/-- What is left when reading stops. -/
def rest : QuotedName → List Char
  | .closed _ rest => rest
  | .unclosed rest => rest

@[simp] theorem rest_push (c : Char) (q : QuotedName) : (q.push c).rest = q.rest := by
  cases q <;> rfl

theorem rest_read_suffix (cs : List Char) : (read cs).rest <:+ cs := by
  fun_induction read cs with
  | case1 => exact List.suffix_rfl
  | case2 rest => exact List.suffix_cons _ _
  | case3 => exact List.suffix_rfl
  | case4 c rest ih =>
      rw [rest_push]
      exact (ih.trans (List.suffix_cons c rest)).trans (List.suffix_cons _ _)
  | case5 c rest _ _ _ ih =>
      rw [rest_push]
      exact ih.trans (List.suffix_cons c rest)

end QuotedName

/-- A place in a pattern: how many characters lie before it, and which ones after it. -/
structure Cursor where
  pos : Nat
  rest : List Char
  deriving DecidableEq, Repr

namespace Cursor

def ofPattern (pattern : String) : Cursor := ⟨0, pattern.toList⟩

/-- The place where only `rest` is left. -/
def moveTo (c : Cursor) (rest : List Char) : Cursor :=
  ⟨c.pos + (c.rest.length - rest.length), rest⟩

/-- Reads a name, bare or quoted, and the place after it. -/
def name (c : Cursor) : Except SyntaxError String × Cursor :=
  match c.rest with
  | [] => (.error (.missingName c.pos), c)
  | first :: more =>
    if first = '"' then
      match QuotedName.read more with
      | .unclosed left => (.error (.unterminatedQuote c.pos), c.moveTo left)
      | .closed [] left => (.error (.missingName (c.moveTo left).pos), c.moveTo left)
      | .closed (d :: ds) left => (.ok (String.ofList (d :: ds)), c.moveTo left)
    else if Identifier.isStart first then
      (.ok (String.ofList (first :: more.takeWhile Identifier.isContinue)),
        c.moveTo (more.dropWhile Identifier.isContinue))
    else (.error (.missingName c.pos), c)

/-- Reads the name of a capture whose sigil stands at `index`. -/
def capture (c : Cursor) (index : Nat) (kind : Key.Kind) :
    Except SyntaxError Lexeme.Located × Cursor :=
  match c.name with
  | (.ok name, after) => (.ok ⟨index, .capture ⟨kind, name⟩⟩, after)
  | (.error e, after) => (.error e, after)

/-- Reads one lexeme, and the place after it or after what was read in vain. -/
def next (c : Cursor) : Except SyntaxError Lexeme.Located × Cursor :=
  match c.rest with
  | [] => (.ok ⟨c.pos, .finish⟩, c)
  | ':' :: rest => capture ⟨c.pos + 1, rest⟩ c.pos .param
  | '*' :: rest => capture ⟨c.pos + 1, rest⟩ c.pos .wildcard
  | ['\\'] => (.ok ⟨c.pos, .escaped none⟩, ⟨c.pos + 1, []⟩)
  | '\\' :: d :: rest => (.ok ⟨c.pos, .escaped (some d)⟩, ⟨c.pos + 2, rest⟩)
  | d :: rest =>
    match Mark.ofChar? d with
    | some m => (.ok ⟨c.pos, .mark m⟩, ⟨c.pos + 1, rest⟩)
    | none => (.ok ⟨c.pos, .char d⟩, ⟨c.pos + 1, rest⟩)

/-- Reading some characters leads from one place to another. -/
def ReadsTo (c after : Cursor) : Prop :=
  ∃ taken, c.rest = taken ++ after.rest ∧ after.pos = c.pos + taken.length

theorem ReadsTo.refl (c : Cursor) : c.ReadsTo c := ⟨[], rfl, rfl⟩

theorem ReadsTo.trans {a b c : Cursor} (hab : a.ReadsTo b) (hbc : b.ReadsTo c) : a.ReadsTo c := by
  obtain ⟨first, hfirst, hpos⟩ := hab
  obtain ⟨second, hsecond, hpos'⟩ := hbc
  refine ⟨first ++ second, ?_, ?_⟩
  · rw [hfirst, hsecond, List.append_assoc]
  · rw [hpos', hpos, List.length_append, Nat.add_assoc]

theorem ReadsTo.length_eq {c after : Cursor} (h : c.ReadsTo after) :
    after.pos + after.rest.length = c.pos + c.rest.length := by
  obtain ⟨taken, hrest, hpos⟩ := h
  rw [hrest, hpos, List.length_append, Nat.add_assoc]

theorem ReadsTo.pos_le {c after : Cursor} (h : c.ReadsTo after) : c.pos ≤ after.pos := by
  obtain ⟨taken, -, hpos⟩ := h
  rw [hpos]
  exact Nat.le_add_right _ _

theorem readsTo_moveTo {c : Cursor} {rest : List Char} (h : rest <:+ c.rest) :
    c.ReadsTo (c.moveTo rest) := by
  obtain ⟨taken, htaken⟩ := h
  refine ⟨taken, htaken.symm, ?_⟩
  simp only [moveTo, ← htaken, List.length_append, Nat.add_sub_cancel]

theorem readsTo_name (c : Cursor) : c.ReadsTo c.name.2 := by
  unfold name
  cases hc : c.rest with
  | nil => exact .refl c
  | cons first more =>
      have hskip : ∀ {rest : List Char}, rest <:+ more → c.ReadsTo (c.moveTo rest) := by
        intro rest hrest
        apply readsTo_moveTo
        rw [hc]
        exact hrest.trans (List.suffix_cons first more)
      have hquoted := QuotedName.rest_read_suffix more
      dsimp only
      split
      · split <;> rename_i hread <;> rw [hread] at hquoted <;> exact hskip hquoted
      · split
        · exact hskip (List.dropWhile_suffix _)
        · exact .refl c

theorem snd_capture (c : Cursor) (index : Nat) (kind : Key.Kind) :
    (c.capture index kind).2 = c.name.2 := by
  unfold capture
  split <;> rename_i h <;> rw [h]

/-- A call that has something to read takes its first character at least, also where it reads in
vain. -/
theorem readsTo_next {c : Cursor} {first : Char} {rest : List Char} (hc : c.rest = first :: rest) :
    ReadsTo ⟨c.pos + 1, rest⟩ c.next.2 := by
  obtain ⟨pos, chars⟩ := c
  cases hc
  unfold next
  split <;> rename_i hchars <;> cases hchars
  · rw [snd_capture]
    exact readsTo_name _
  · rw [snd_capture]
    exact readsTo_name _
  · exact .refl _
  · exact ⟨[_], rfl, rfl⟩
  · split <;> exact .refl _

/-- A call that has something to read uses some of it. -/
theorem length_rest_next (c : Cursor) (h : c.rest ≠ []) :
    c.next.2.rest.length < c.rest.length := by
  obtain ⟨first, rest, hc⟩ := List.exists_cons_of_ne_nil h
  have hreads := readsTo_next hc
  have hlength : _ = c.pos + 1 + rest.length := hreads.length_eq
  have hpos : c.pos + 1 ≤ _ := hreads.pos_le
  rw [hc, List.length_cons]
  omega

/-- The results of the given number of calls, each going on where the one before left off. -/
def calls : Nat → Cursor → List (Except SyntaxError Lexeme.Located)
  | 0, _ => []
  | n + 1, c => c.next.1 :: calls n c.next.2

/-- The results of calls up to the first error or the end of the pattern, which is included. -/
def lexemes (c : Cursor) : List (Except SyntaxError Lexeme.Located) :=
  if _h : c.rest = [] then [c.next.1]
  else
    match c.next.1 with
    | .error e => [.error e]
    | .ok l => .ok l :: c.next.2.lexemes
termination_by c.rest.length
decreasing_by exact c.length_rest_next _h

end Cursor

end PathPattern
