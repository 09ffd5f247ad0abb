import PathPattern.Proofs.NormalForm
import PathPattern.Sequence

/-!
The alternatives of a template level by level, and the keys that they take from it. A group that is
kept puts each of its own alternatives in front of each alternative of what follows it.
-/
namespace PathPattern

mutual

def Token.keys : Token → List Key
  | .text _ => []
  | .capture key => [key]
  | .group tokens => Template.keys tokens

/-- The keys of a template in order, those inside groups included. -/
def Template.keys : List Token → List Key
  | [] => []
  | token :: rest => token.keys ++ Template.keys rest

end

def Token.content? : Token → Option (List Token)
  | .group tokens => some tokens
  | .text _ | .capture _ => none

mutual

/-- The expansions of a token in front of others, given those of the others. -/
def Token.expansions (following : List (List Piece)) : Token → List (List Piece)
  | .text value => following.map (.text value :: ·)
  | .capture key => following.map (.capture key :: ·)
  | .group tokens =>
    (Template.expansions tokens).flatMap (fun kept => following.map (kept ++ ·)) ++ following

/-- The sequences that a template stands for, from its end back: with a group, each expansion of
its content goes before each expansion of what follows; without it, those stand alone. -/
def Template.expansions : List Token → List (List Piece)
  | [] => [[]]
  | token :: rest => token.expansions (Template.expansions rest)

end

theorem Sequence.keys_append (a b : List Piece) : keys (a ++ b) = keys a ++ keys b :=
  List.filterMap_append

namespace Template

@[simp] theorem keys_text (value : String) (rest : List Token) :
    keys (.text value :: rest) = keys rest := by
  rw [keys, Token.keys, List.nil_append]

@[simp] theorem keys_capture (key : Key) (rest : List Token) :
    keys (.capture key :: rest) = key :: keys rest := by
  rw [keys, Token.keys, List.singleton_append]

@[simp] theorem keys_group (tokens rest : List Token) :
    keys (.group tokens :: rest) = keys tokens ++ keys rest := by
  rw [keys, Token.keys]

theorem extend_eq_map (template : Template) (before : List Piece) :
    extend before template = (alternatives template).map (before ++ ·) := by
  unfold alternatives
  induction template using Template.induction generalizing before with
  | nil => simp [extend]
  | text value rest ih =>
      rw [extend, Token.extend, List.flatMap_singleton, ih, extend, Token.extend,
        List.flatMap_singleton, ih ([] ++ [Piece.text value]), List.map_map]
      simp
  | capture key rest ih =>
      rw [extend, Token.extend, List.flatMap_singleton, ih, extend, Token.extend,
        List.flatMap_singleton, ih ([] ++ [Piece.capture key]), List.map_map]
      simp
  | group tokens rest ihTokens ih =>
      -- the content is lengthened first, and what follows the group then lengthens each result
      rw [extend, Token.extend, List.flatMap_append, List.flatMap_singleton, ihTokens, ih before,
        extend, Token.extend, List.flatMap_append, List.flatMap_singleton, List.map_append,
        List.flatMap_map, List.map_flatMap]
      congr 2
      funext inner
      rw [ih, ih inner, List.map_map]
      simp

theorem extend_append (before : List Piece) (a b : List Token) :
    extend before (a ++ b) = (extend before a).flatMap fun longer => extend longer b := by
  induction a generalizing before with
  | nil => rw [List.nil_append, extend, List.flatMap_singleton]
  | cons token a ih =>
      rw [List.cons_append, extend, extend, List.flatMap_assoc]
      simp only [ih]

theorem alternatives_nil : alternatives [] = [[]] := by
  rw [alternatives, extend]

theorem alternatives_text (value : String) (rest : List Token) :
    alternatives (.text value :: rest) = (alternatives rest).map (.text value :: ·) := by
  rw [alternatives, extend, Token.extend, List.flatMap_singleton, extend_eq_map]
  rfl

theorem alternatives_capture (key : Key) (rest : List Token) :
    alternatives (.capture key :: rest) = (alternatives rest).map (.capture key :: ·) := by
  rw [alternatives, extend, Token.extend, List.flatMap_singleton, extend_eq_map]
  rfl

theorem alternatives_group (tokens rest : List Token) :
    alternatives (.group tokens :: rest) =
      (alternatives tokens).flatMap (fun inner => (alternatives rest).map (inner ++ ·)) ++
        alternatives rest := by
  rw [alternatives, extend, Token.extend, List.flatMap_append, List.flatMap_singleton]
  congr 2
  funext inner
  exact extend_eq_map rest inner

theorem mem_alternatives_group {tokens rest : List Token} {pieces : List Piece} :
    pieces ∈ alternatives (.group tokens :: rest) ↔
      (∃ inner ∈ alternatives tokens, ∃ more ∈ alternatives rest, inner ++ more = pieces) ∨
        pieces ∈ alternatives rest := by
  simp only [alternatives_group, List.mem_append, List.mem_flatMap, List.mem_map]

theorem mem_alternatives_append {a b : List Token} {pieces : List Piece} :
    pieces ∈ alternatives (a ++ b) ↔
      ∃ first ∈ alternatives a, ∃ more ∈ alternatives b, first ++ more = pieces := by
  rw [alternatives, extend_append, List.mem_flatMap]
  refine exists_congr fun first => and_congr_right fun _ => ?_
  rw [extend_eq_map, List.mem_map]

theorem keys_sublist {template : Template} {pieces : List Piece}
    (h : pieces ∈ alternatives template) : (Sequence.keys pieces).Sublist (keys template) := by
  induction template using Template.induction generalizing pieces with
  | nil =>
      rw [alternatives_nil, List.mem_singleton] at h
      subst h
      exact .slnil
  | text value rest ih =>
      rw [alternatives_text] at h
      obtain ⟨more, hmore, rfl⟩ := List.mem_map.mp h
      rw [keys_text]
      change (Sequence.keys more).Sublist (keys rest)
      exact ih hmore
  | capture key rest ih =>
      rw [alternatives_capture] at h
      obtain ⟨more, hmore, rfl⟩ := List.mem_map.mp h
      rw [keys_capture]
      exact (ih hmore).cons_cons key
  | group tokens rest ihTokens ih =>
      rw [keys_group]
      rcases mem_alternatives_group.mp h with ⟨inner, hinner, more, hmore, rfl⟩ | h
      · rw [Sequence.keys_append]
        exact (ihTokens hinner).append (ih hmore)
      · exact (ih h).trans (List.sublist_append_right _ _)

theorem alternatives_eq_expansions (template : Template) :
    alternatives template = expansions template := by
  induction template using Template.induction with
  | nil => rw [alternatives_nil, expansions]
  | text value rest ih => rw [alternatives_text, expansions, Token.expansions, ih]
  | capture key rest ih => rw [alternatives_capture, expansions, Token.expansions, ih]
  | group tokens rest ihTokens ih =>
      rw [alternatives_group, expansions, Token.expansions, ihTokens, ih]

/-- Every group multiplies the number of alternatives: it is left out in one way, and kept in as
many as its content has. -/
theorem length_alternatives (template : Template) :
    (alternatives template).length =
      (template.filterMap Token.content?).foldr
        (fun tokens count => (1 + (alternatives tokens).length) * count) 1 := by
  induction template using Template.induction with
  | nil => rfl
  | text value rest ih =>
      rw [alternatives_text, List.length_map]
      exact ih
  | capture key rest ih =>
      rw [alternatives_capture, List.length_map]
      exact ih
  | group tokens rest _ ih =>
      rw [alternatives_group, List.length_append, List.length_flatMap]
      simp only [List.length_map, List.map_const', List.sum_replicate_nat]
      rw [List.filterMap_cons, Token.content?, List.foldr_cons, ← ih, Nat.add_mul, Nat.one_mul,
        Nat.add_comm]

end Template

/-- What stands before a template is lengthened by each of its expansions, in order and with their
repetitions. So the alternatives are the expansions, and the groups of a template multiply their
number. -/
theorem extend_eq_expansions (template : Template) (before : List Piece) :
    Template.extend before template = (Template.expansions template).map (before ++ ·) ∧
      Template.alternatives template = Template.expansions template ∧
      (Template.alternatives template).length =
        (template.filterMap Token.content?).foldr
          (fun tokens count => (1 + (Template.alternatives tokens).length) * count) 1 := by
  refine ⟨?_, Template.alternatives_eq_expansions template, Template.length_alternatives template⟩
  rw [Template.extend_eq_map, Template.alternatives_eq_expansions]

/-- Equal sequences are listed as often as they arise: a group inside another one, and an empty
group. -/
example :
    Template.alternatives [.group [.text "a", .group [.text "b"]], .group []] =
      [[.text "a", .text "b"], [.text "a", .text "b"], [.text "a"], [.text "a"], [], []] := by
  decide

end PathPattern
