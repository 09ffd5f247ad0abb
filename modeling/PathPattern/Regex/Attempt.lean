/-!
What comes of trying to match from some place on: perhaps a match, and always a number of retries.
-/
namespace PathPattern.Regex

/-- A part of the input, from one place to another, in characters. -/
structure Span where
  start : Nat
  stop : Nat
  deriving DecidableEq, Repr

/-- The characters of the part. -/
def Span.slice (s : Span) (input : List Char) : List Char :=
  (input.drop s.start).take (s.stop - s.start)

/-- A place where a capture group begins or ends. -/
inductive Edge where
  | opened (index place : Nat)
  | closed (index place : Nat)
  deriving DecidableEq, Repr

namespace Edge

/-- Where group `index` begins, if the edge says so. -/
def opened? (index : Nat) : Edge → Option Nat
  | .opened i place => if i = index then some place else none
  | .closed _ _ => none

/-- Where group `index` ends, if the edge says so. -/
def closed? (index : Nat) : Edge → Option Nat
  | .opened _ _ => none
  | .closed i place => if i = index then some place else none

end Edge

/-- A match from some place on. -/
structure Hit where
  /-- The place after the match. -/
  stop : Nat
  /-- The edges that were passed, in this order. -/
  edges : List Edge
  deriving DecidableEq, Repr

/-- What a group captured. If it took part more than once, the last time counts. -/
def Hit.group? (h : Hit) (index : Nat) : Option Span := do
  let start ← (h.edges.filterMap (Edge.opened? index)).getLast?
  let stop ← (h.edges.filterMap (Edge.closed? index)).getLast?
  return ⟨start, stop⟩

structure Attempt where
  /-- How often a choice had to be taken back to get here. -/
  retries : Nat
  hit : Option Hit
  deriving DecidableEq, Repr

namespace Attempt

/-- The match ends here. -/
def found (place : Nat) : Attempt := ⟨0, some ⟨place, []⟩⟩

/-- There is no match, and nothing was tried again. -/
def failed : Attempt := ⟨0, none⟩

/-- The attempt after some retries and edges that went before it. -/
def after (a : Attempt) (retries : Nat) (edges : List Edge) : Attempt :=
  ⟨retries + a.retries, a.hit.map fun h => { h with edges := edges ++ h.edges }⟩

/-- After a failure, one retry is spent on something else. -/
def orRetry (a : Attempt) (other : Unit → Attempt) : Attempt :=
  if a.hit.isSome then a else (other ()).after (a.retries + 1) []

end Attempt

end PathPattern.Regex
