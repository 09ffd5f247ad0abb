import PathPattern.Regex.Attempt
import PathPattern.Regex.Basic

/-!
Matching by preference: choices are tried in order, and the first way that carries the whole
expression through is the match. What happens from a place on depends on the place alone, so a
repetition works it out once for every place, from the end of the input to its start. The time to
match is then linear in the input, while `Attempt.retries` still counts what taking back choice
after choice would have cost.
-/
namespace PathPattern.Regex

/-- What comes of going on from each place of the input. -/
structure Course where
  attempt : Nat → Attempt

namespace Course

/-- Nothing more is wanted: the match ends where it has come to. -/
def done : Course := ⟨.found⟩

/-- Takes one character that passes the test. -/
def take (input : Array Char) (test : Char → Bool) (next : Course) : Course where
  attempt p :=
    match input[p]? with
    | some c => if test c then next.attempt (p + 1) else .failed
    | none => .failed

/-- Goes on only from places that pass the test. -/
def only (test : Nat → Bool) (next : Course) : Course where
  attempt p := if test p then next.attempt p else .failed

/-- The first course is preferred. -/
def orElse (a b : Course) : Course where
  attempt p := (a.attempt p).orRetry fun _ => b.attempt p

/-- Passes an edge and goes on. -/
def passing (edge : Nat → Edge) (next : Course) : Course where
  attempt p := (next.attempt p).after 0 [edge p]

/-- Goes on from places where `guard` finds something, with the edges that it passed. -/
def onlyIf (guard next : Course) : Course where
  attempt p :=
    let g := guard.attempt p
    match g.hit with
    | some h => (next.attempt p).after g.retries h.edges
    | none => g

/-- Goes on from places where `guard` finds nothing. -/
def onlyIfNot (guard next : Course) : Course where
  attempt p :=
    let g := guard.attempt p
    match g.hit with
    | some _ => ⟨g.retries, none⟩
    | none => (next.attempt p).after g.retries []

/-- After a round of a repetition, given the attempts at the last places of an input of `size`
characters, the very last first: another round is preferred, and there is one only at those
places. -/
def again (size : Nat) (later : Array Attempt) (next : Course) : Course where
  attempt q :=
    match later[size - q]? with
    | some a => a.orRetry fun _ => next.attempt q
    | none => next.attempt q

/-- The attempts to go through `body` once or more and then on, at the last `count` places of an
input of `size` characters, the very last first. A further round is tried only after one that took
something. -/
def rounds (size : Nat) (body : Course → Course) (next : Course) (count : Nat) : Array Attempt :=
  count.fold (fun k _ later => later.push ((body (again size later next)).attempt (size - k))) #[]

theorem rounds_succ (size : Nat) (body : Course → Course) (next : Course) (k : Nat) :
    rounds size body next (k + 1) = (rounds size body next k).push
      ((body (again size (rounds size body next k) next)).attempt (size - k)) := by
  simp only [rounds, Nat.fold_succ]

@[simp] theorem size_rounds (size : Nat) (body : Course → Course) (next : Course) (k : Nat) :
    (rounds size body next k).size = k := by
  induction k with
  | zero => rfl
  | succ k ih => rw [rounds_succ, Array.size_push, ih]

/-- An attempt rests on the attempts at later places only. -/
theorem getElem?_rounds (size : Nat) (body : Course → Course) (next : Course) {j k : Nat}
    (h : j < k) :
    (rounds size body next k)[j]? =
      some ((body (again size (rounds size body next j) next)).attempt (size - j)) := by
  induction k with
  | zero => exact absurd h (Nat.not_lt_zero j)
  | succ k ih =>
      rw [rounds_succ, Array.getElem?_push, size_rounds]
      by_cases hj : j = k
      · rw [if_pos hj, hj]
      · rw [if_neg hj]
        exact ih (by omega)

/-- Goes through `body` once or more, preferring more. -/
def plus (size : Nat) (body : Course → Course) (next : Course) : Course :=
  let table := Thunk.mk fun _ => rounds size body next (size + 1)
  ⟨fun p => (table.get[size - p]?).getD .failed⟩

theorem attempt_plus (size : Nat) (body : Course → Course) (next : Course) {p : Nat}
    (h : p ≤ size) :
    (plus size body next).attempt p =
      (body (again size (rounds size body next (size - p)) next)).attempt p := by
  change ((rounds size body next (size + 1))[size - p]?).getD .failed = _
  rw [getElem?_rounds size body next (by omega), Option.getD_some, Nat.sub_sub_self h]

end Course

/-- Matches the expression and goes on with `next`. -/
def followedBy (input : Array Char) : Regex → Course → Course
  | .empty, next => next
  | .char c, next => .take input (· == c) next
  | .any, next => .take input (fun _ => true) next
  | .noneOf cs, next => .take input (fun d => !cs.contains d) next
  | .start, next => .only (· == 0) next
  | .finish, next => .only (· == input.size) next
  | .seq a b, next => a.followedBy input (b.followedBy input next)
  | .alt a b, next => .orElse (a.followedBy input next) (b.followedBy input next)
  | .group e, next => e.followedBy input next
  | .capture i e, next =>
    .passing (.opened i) (e.followedBy input (.passing (.closed i) next))
  | .plus e, next => .plus input.size (e.followedBy input) next
  | .opt e, next => .orElse (e.followedBy input next) next
  | .ahead e, next => .onlyIf (e.followedBy input .done) next
  | .notAhead e, next => .onlyIfNot (e.followedBy input .done) next

/-- The match at the start of the input. -/
def search (e : Regex) (input : List Char) : Attempt :=
  (e.followedBy input.toArray .done).attempt 0

end PathPattern.Regex
