import PathPattern.Regex.Printer

/-!
A reader of expression sources, character by character and by the grammar alone: it does not know
how a source was written. Capture groups are numbered in the order of their parentheses.

Where two alternatives or two expressions stand side by side, it keeps them in lists, so that what
it reads has one form: an alternative is a sequence, and parentheses hold a choice of sequences.
-/
namespace PathPattern.Regex

/-- What a pair of parentheses means. -/
inductive Opening where
  | group
  | capture (index : Nat)
  | ahead
  | notAhead
  deriving DecidableEq, Repr

def Opening.around (opening : Opening) (e : Regex) : Regex :=
  match opening with
  | .group => .group e
  | .capture index => .capture index e
  | .ahead => .ahead e
  | .notAhead => .notAhead e

/-- Alternatives: the finished ones, and the expressions of the last one so far. -/
structure Choice where
  before : List Regex
  last : List Regex
  deriving DecidableEq, Repr

namespace Choice

def fresh : Choice := ⟨[], []⟩

def push (choice : Choice) (e : Regex) : Choice := ⟨choice.before, choice.last ++ [e]⟩

def next (choice : Choice) : Choice := ⟨choice.before ++ [cat choice.last], []⟩

def whole (choice : Choice) : Regex := oneOf (choice.before ++ [cat choice.last])

end Choice

/-- Where the reader stands in a construct of several characters. -/
inductive Phase where
  | plain
  /-- After a backslash. -/
  | escape
  /-- After `(`. -/
  | paren
  /-- After `(?`. -/
  | mark
  /-- After `[`. -/
  | bracket
  /-- Inside `[\s\S]`, of which these characters are due. -/
  | anyOf (due : List Char)
  /-- Inside `[^...]`, after these characters. -/
  | noneOf (cs : List Char)
  | noneOfEscape (cs : List Char)
  deriving DecidableEq, Repr

structure Reader where
  phase : Phase
  choice : Choice
  /-- The open parentheses, the innermost first, and what stands before each of them. -/
  outer : List (Opening × Choice)
  /-- The number of the next capture group. -/
  index : Nat
  deriving DecidableEq, Repr

/-- Whether a further repetition would mean something else. -/
def isRepetition : Regex → Bool
  | .plus _ | .opt _ => true
  | _ => false

namespace Reader

def push (r : Reader) (e : Regex) : Reader := ⟨.plain, r.choice.push e, r.outer, r.index⟩

def enter (r : Reader) (opening : Opening) : Reader :=
  ⟨.plain, .fresh, (opening, r.choice) :: r.outer, r.index⟩

def enterCapture (r : Reader) : Reader :=
  ⟨.plain, .fresh, (.capture r.index, r.choice) :: r.outer, r.index + 1⟩

def leave? (r : Reader) : Option Reader :=
  match r.outer with
  | [] => none
  | (opening, choice) :: outer =>
    some ⟨.plain, choice.push (opening.around r.choice.whole), outer, r.index⟩

def repeated? (r : Reader) (times : Regex → Regex) : Option Reader :=
  match r.choice.last.getLast? with
  | none => none
  | some e =>
    if e.isRepetition then none
    else some ⟨.plain, ⟨r.choice.before, r.choice.last.dropLast ++ [times e]⟩, r.outer, r.index⟩

/-- One character outside of longer constructs. -/
def plain (r : Reader) (c : Char) : Option Reader :=
  match c with
  | '\\' => some { r with phase := .escape }
  | '(' => some { r with phase := .paren }
  | ')' => r.leave?
  | '[' => some { r with phase := .bracket }
  | '|' => some { r with choice := r.choice.next }
  | '+' => r.repeated? .plus
  | '?' => r.repeated? .opt
  | '^' => some (r.push .start)
  | '$' => some (r.push .finish)
  | '.' | '*' | ']' | '\x7b' | '\x7d' => none
  | c => some (r.push (.char c))

def step (r : Reader) (c : Char) : Option Reader :=
  match r.phase with
  | .plain => r.plain c
  -- a letter or a digit after a backslash is no literal
  | .escape => if c.isAlphanum then none else some (r.push (.char c))
  | .paren => if c = '?' then some { r with phase := .mark } else r.enterCapture.plain c
  | .mark =>
    match c with
    | ':' => some (r.enter .group)
    | '=' => some (r.enter .ahead)
    | '!' => some (r.enter .notAhead)
    | _ => none
  | .bracket =>
    match c with
    | '^' => some { r with phase := .noneOf [] }
    | '\\' => some { r with phase := .anyOf ['s', '\\', 'S', ']'] }
    | _ => none
  | .anyOf [] => none
  | .anyOf (d :: due) =>
    if c = d then some (if due.isEmpty then r.push .any else { r with phase := .anyOf due })
    else none
  | .noneOf cs =>
    match c with
    | ']' => if cs.isEmpty then none else some (r.push (.noneOf cs))
    | '\\' => some { r with phase := .noneOfEscape cs }
    | '[' | '^' | '-' | '&' | '~' => none
    | c => some { r with phase := .noneOf (cs ++ [c]) }
  | .noneOfEscape cs =>
    if c.isAlphanum then none else some { r with phase := .noneOf (cs ++ [c]) }

def run (r : Reader) : List Char → Option Reader
  | [] => some r
  | c :: cs => (r.step c).bind fun r => r.run cs

theorem run_append (r : Reader) (cs ds : List Char) :
    r.run (cs ++ ds) = (r.run cs).bind fun r => r.run ds := by
  induction cs generalizing r with
  | nil => rfl
  | cons c cs ih =>
      cases hstep : r.step c with
      | none => simp [run, hstep]
      | some next => simpa [run, hstep] using ih next

end Reader

/-- The expression that a source stands for. -/
def read (source : List Char) : Option Regex :=
  match Reader.run ⟨.plain, .fresh, [], 1⟩ source with
  | some ⟨.plain, choice, [], _⟩ => some choice.whole
  | _ => none

/-- The source of the expression is read as one more expression, and its capture groups have the
numbers from `n` up to `m`. -/
def Reads (n : Nat) (e : Regex) (m : Nat) : Prop :=
  ∀ choice outer,
    Reader.run ⟨.plain, choice, outer, n⟩ e.source = some ⟨.plain, choice.push e, outer, m⟩

/-- The same for expressions one after another. -/
def ReadsAll (n : Nat) (es : List Regex) (m : Nat) : Prop :=
  ∀ choice outer,
    Reader.run ⟨.plain, choice, outer, n⟩ (cat es).source =
      some ⟨.plain, ⟨choice.before, choice.last ++ es⟩, outer, m⟩

/-- The same for the content of parentheses. -/
def ReadsInside (n : Nat) (e : Regex) (m : Nat) : Prop :=
  ∀ outer, ∃ choice,
    Reader.run ⟨.plain, .fresh, outer, n⟩ e.source = some ⟨.plain, choice, outer, m⟩ ∧
      choice.whole = e

theorem isAlphanum_of_mem_metaChars {c : Char} (h : c ∈ metaChars) : c.isAlphanum = false := by
  have hall : metaChars.all (fun c => !c.isAlphanum) = true := by decide
  simpa using List.all_eq_true.mp hall c h

namespace Reader

theorem plain_literal (r : Reader) {c : Char} (h : c ∉ metaChars) :
    r.plain c = some (r.push (.char c)) := by
  unfold plain
  split
  all_goals first | rfl | exact absurd (by decide) h

/-- In a class too, a character is read as it is written. -/
theorem run_noneOf_escapeChar (choice : Choice) (outer : List (Opening × Choice)) (n : Nat)
    (cs : List Char) (c : Char) :
    run ⟨.noneOf cs, choice, outer, n⟩ (escapeChar c) =
      some ⟨.noneOf (cs ++ [c]), choice, outer, n⟩ := by
  unfold escapeChar
  split
  · rename_i hmeta
    have halnum := isAlphanum_of_mem_metaChars (List.contains_iff_mem.mp hmeta)
    simp [run, step, halnum]
  · rename_i hmeta
    have hmem : c ∉ metaChars := fun h => hmeta (List.contains_iff_mem.mpr h)
    have hstep : step ⟨.noneOf cs, choice, outer, n⟩ c =
        some ⟨.noneOf (cs ++ [c]), choice, outer, n⟩ := by
      simp only [step]
      split
      all_goals first | rfl | exact absurd (by decide) hmem
    rw [run, hstep]
    rfl

theorem run_noneOf (choice : Choice) (outer : List (Opening × Choice)) (n : Nat)
    (cs ds : List Char) :
    run ⟨.noneOf cs, choice, outer, n⟩ (ds.flatMap escapeChar) =
      some ⟨.noneOf (cs ++ ds), choice, outer, n⟩ := by
  induction ds generalizing cs with
  | nil => simp [run]
  | cons d ds ih =>
      rw [List.flatMap_cons, run_append, run_noneOf_escapeChar, Option.bind_some, ih,
        List.append_assoc]
      rfl

end Reader

theorem reads_char (n : Nat) (c : Char) : Reads n (.char c) n := by
  intro choice outer
  rw [source, escapeChar]
  split
  · rename_i hmeta
    have halnum := isAlphanum_of_mem_metaChars (List.contains_iff_mem.mp hmeta)
    simp [Reader.run, Reader.step, Reader.plain, halnum, Reader.push]
  · rename_i hmeta
    have hmem : c ∉ metaChars := fun h => hmeta (List.contains_iff_mem.mpr h)
    simp [Reader.run, Reader.step, Reader.plain_literal _ hmem, Reader.push]

theorem reads_any (n : Nat) : Reads n .any n := fun _ _ => rfl

theorem reads_start (n : Nat) : Reads n .start n := fun _ _ => rfl

theorem reads_finish (n : Nat) : Reads n .finish n := fun _ _ => rfl

theorem reads_noneOf (n : Nat) {cs : List Char} (h : cs ≠ []) : Reads n (.noneOf cs) n := by
  intro choice outer
  rw [source, Reader.run_append, Reader.run_append]
  change (Option.bind (Reader.run ⟨.noneOf [], choice, outer, n⟩ (cs.flatMap escapeChar)) _) = _
  rw [Reader.run_noneOf, List.nil_append]
  simp [Reader.run, Reader.step, Reader.push, h]

theorem Reads.repeated {n m : Nat} {e : Regex} {sign : Char} {times : Regex → Regex}
    (h : Reads n e m) (hrepetition : e.isRepetition = false)
    (hsource : (times e).source = e.source ++ [sign])
    (hsign : ∀ r : Reader, r.plain sign = r.repeated? times) : Reads n (times e) m := by
  intro choice outer
  rw [hsource, Reader.run_append, h, Option.bind_some]
  simp [Reader.run, Reader.step, hsign, Reader.repeated?, Choice.push, hrepetition]

theorem Reads.plus {n m : Nat} {e : Regex} (h : Reads n e m)
    (hrepetition : e.isRepetition = false) : Reads n (.plus e) m :=
  h.repeated hrepetition rfl fun _ => rfl

theorem Reads.opt {n m : Nat} {e : Regex} (h : Reads n e m)
    (hrepetition : e.isRepetition = false) : Reads n (.opt e) m :=
  h.repeated hrepetition rfl fun _ => rfl

theorem Reader.run_close {choice inner : Choice} {outer : List (Opening × Choice)} {n : Nat}
    {opening : Opening} :
    run ⟨.plain, inner, (opening, choice) :: outer, n⟩ [')'] =
      some ⟨.plain, choice.push (opening.around inner.whole), outer, n⟩ := rfl

theorem ReadsInside.enclosed {n m : Nat} {e : Regex} (h : ReadsInside n e m) (opening : Opening)
    (sign : Char)
    (hsource : (opening.around e).source = ['(', '?', sign] ++ e.source ++ [')'])
    (hsign : ∀ choice outer, Reader.step ⟨.mark, choice, outer, n⟩ sign =
      some (Reader.enter ⟨.mark, choice, outer, n⟩ opening)) :
    Reads n (opening.around e) m := by
  intro choice outer
  obtain ⟨inner, hinner, rfl⟩ := h ((opening, choice) :: outer)
  have hopen : Reader.run ⟨.plain, choice, outer, n⟩ ['(', '?', sign] =
      some ⟨.plain, .fresh, (opening, choice) :: outer, n⟩ := by
    change (Reader.step ⟨.mark, choice, outer, n⟩ sign).bind _ = _
    rw [hsign]
    rfl
  rw [hsource, Reader.run_append, Reader.run_append, hopen, Option.bind_some, hinner,
    Option.bind_some, Reader.run_close]

theorem ReadsInside.group {n m : Nat} {e : Regex} (h : ReadsInside n e m) :
    Reads n (.group e) m :=
  h.enclosed .group ':' rfl fun _ _ => rfl

theorem ReadsInside.ahead {n m : Nat} {e : Regex} (h : ReadsInside n e m) :
    Reads n (.ahead e) m :=
  h.enclosed .ahead '=' rfl fun _ _ => rfl

theorem ReadsInside.notAhead {n m : Nat} {e : Regex} (h : ReadsInside n e m) :
    Reads n (.notAhead e) m :=
  h.enclosed .notAhead '!' rfl fun _ _ => rfl

/-- A capture group takes the next number, if its content cannot be taken for a mark. -/
theorem ReadsInside.capture {n m : Nat} {e : Regex} (h : ReadsInside (n + 1) e m)
    (hmark : e.source.head? ≠ some '?') : Reads n (.capture n e) m := by
  intro choice outer
  obtain ⟨inner, hinner, hwhole⟩ := h ((.capture n, choice) :: outer)
  -- only the character after the parenthesis tells that it opens a capture group
  have hopen : ∀ cs : List Char, cs.head? ≠ some '?' →
      Reader.run ⟨.plain, choice, outer, n⟩ ('(' :: cs ++ [')']) =
        Reader.run ⟨.plain, .fresh, (.capture n, choice) :: outer, n + 1⟩ (cs ++ [')']) := by
    intro cs hcs
    cases cs with
    | nil => rfl
    | cons c cs =>
        have hc : c ≠ '?' := fun hc => hcs (congrArg some hc)
        change (Reader.step ⟨.paren, choice, outer, n⟩ c).bind _ = _
        simp only [Reader.step, if_neg hc]
        rfl
  rw [source, hopen _ hmark, Reader.run_append, hinner, Option.bind_some, Reader.run_close, hwhole]
  rfl

theorem ReadsAll.nil (n : Nat) : ReadsAll n [] n := by
  intro choice outer
  rw [List.append_nil]
  rfl

theorem ReadsAll.cons {n m k : Nat} {e : Regex} {es : List Regex} (h : Reads n e m)
    (hs : ReadsAll m es k) : ReadsAll n (e :: es) k := by
  intro choice outer
  rw [cat, source, Reader.run_append, h, Option.bind_some, hs]
  simp only [Choice.push, List.append_assoc, List.singleton_append]

theorem ReadsAll.chars {n m : Nat} (cs : List Char) {es : List Regex} (h : ReadsAll n es m) :
    ReadsAll n (cs.map .char ++ es) m := by
  induction cs with
  | nil => exact h
  | cons c cs ih => exact .cons (reads_char n c) ih

theorem ReadsAll.inside {n m : Nat} {es : List Regex} (h : ReadsAll n es m) :
    ReadsInside n (cat es) m := by
  intro outer
  exact ⟨_, h .fresh outer, rfl⟩

theorem readsAll_literal (n : Nat) (cs : List Char) : ReadsAll n (cs.map .char) n := by
  have h := ReadsAll.chars cs (ReadsAll.nil n)
  rwa [List.append_nil] at h

/-- Alternatives, each of which goes on numbering where the one before it stopped. -/
inductive ReadsEach : Nat → List (List Regex) → Nat → Prop
  | nil {n} : ReadsEach n [] n
  | cons {n m k es ess} : ReadsAll n es m → ReadsEach m ess k → ReadsEach n (es :: ess) k

theorem ReadsEach.run {n m : Nat} {es : List Regex} {ess : List (List Regex)}
    (h : ReadsEach n (es :: ess) m) (before : List Regex) (outer : List (Opening × Choice)) :
    ∃ choice,
      Reader.run ⟨.plain, ⟨before, []⟩, outer, n⟩ (oneOf ((es :: ess).map cat)).source =
          some ⟨.plain, choice, outer, m⟩ ∧
        choice.before ++ [cat choice.last] = before ++ (es :: ess).map cat := by
  induction ess generalizing n es before with
  | nil =>
      cases h with
      | cons hes hnil =>
          cases hnil
          exact ⟨_, hes ⟨before, []⟩ outer, rfl⟩
  | cons next ess ih =>
      cases h with
      | @cons _ k _ _ _ hes hess =>
          obtain ⟨choice, hrun, hchoice⟩ := ih hess (before ++ [cat es])
          refine ⟨choice, ?_, ?_⟩
          · have hsource : (oneOf ((es :: next :: ess).map cat)).source =
                (cat es).source ++ '|' :: (oneOf ((next :: ess).map cat)).source := by
              simp only [List.map_cons, oneOf_cons_cons, source]
            rw [hsource, Reader.run_append, hes, Option.bind_some]
            exact hrun
          · rw [hchoice, List.append_assoc]
            rfl

theorem ReadsEach.inside {n m : Nat} {ess : List (List Regex)} (h : ReadsEach n ess m) :
    ReadsInside n (oneOf (ess.map cat)) m := by
  intro outer
  cases ess with
  | nil =>
      cases h
      exact ⟨.fresh, rfl, rfl⟩
  | cons es ess =>
      obtain ⟨choice, hrun, hchoice⟩ := h.run [] outer
      refine ⟨choice, hrun, ?_⟩
      rw [Choice.whole, hchoice]
      rfl

theorem read_of_readsAll {es : List Regex} {m : Nat} (h : ReadsAll 1 es m) :
    read (cat es).source = some (cat es) := by
  unfold read
  rw [h .fresh []]
  rfl

end PathPattern.Regex
