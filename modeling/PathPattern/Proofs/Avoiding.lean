import PathPattern.Proofs.Ways
import PathPattern.Sequence

/-!
The ways of the parts that a route is made of: literal texts, single characters that keep clear of
a delimiter and a text, and runs of those.
-/
namespace PathPattern

/-- The text stands in the input at this place. -/
def OccursAt (needle input : List Char) (p : Nat) : Prop := needle <+: input.drop p

instance (needle input : List Char) (p : Nat) : Decidable (OccursAt needle input p) :=
  inferInstanceAs (Decidable (needle <+: input.drop p))

@[simp] theorem occursAt_nil (input : List Char) (p : Nat) : OccursAt [] input p :=
  List.nil_prefix

theorem occursAt_cons {c : Char} {needle input : List Char} {p : Nat} :
    OccursAt (c :: needle) input p ↔ input[p]? = some c ∧ OccursAt needle input (p + 1) := by
  unfold OccursAt
  by_cases hp : p < input.length
  · rw [List.drop_eq_getElem_cons hp, List.cons_prefix_cons, List.getElem?_eq_getElem hp,
      Option.some.injEq]
    exact and_congr_left' eq_comm
  · rw [List.drop_eq_nil_of_le (Nat.not_lt.mp hp), List.getElem?_eq_none (Nat.not_lt.mp hp)]
    simp

theorem OccursAt.length_le {needle input : List Char} {p : Nat} (h : OccursAt needle input p)
    (hp : p ≤ input.length) : p + needle.length ≤ input.length := by
  have hlength := List.IsPrefix.length_le h
  rw [List.length_drop] at hlength
  omega

/-- The input goes on here, and with neither the delimiter nor the text; an empty one stands
nowhere. -/
def Clear (delimiter text input : List Char) (p : Nat) : Prop :=
  p < input.length ∧ ¬ (delimiter ≠ [] ∧ OccursAt delimiter input p) ∧
    ¬ (text ≠ [] ∧ OccursAt text input p)

instance (delimiter text input : List Char) (p : Nat) : Decidable (Clear delimiter text input p) :=
  inferInstanceAs (Decidable (_ ∧ _))

namespace Regex

theorem ways_cat_cons (input : Array Char) (e : Regex) (es : List Regex) (p : Nat) :
    (cat (e :: es)).ways input p =
      (e.ways input p).flatMap fun h => ((cat es).ways input h.stop).map h.andThen := by
  rw [cat, ways]

theorem map_here_andThen (p : Nat) (hits : List Hit) :
    hits.map (Hit.andThen ⟨p, []⟩) = hits := by
  exact List.map_id' hits

theorem takeWays_toArray (input : List Char) (test : Char → Bool) (p : Nat) :
    takeWays input.toArray test p =
      if input[p]?.any test then [⟨p + 1, []⟩] else [] := by
  unfold takeWays
  rw [List.getElem?_toArray]
  cases input[p]? with
  | none => rfl
  | some c => rfl

/-- Literal characters in front of other expressions are taken in one way or in none. -/
theorem ways_chars (input cs : List Char) (es : List Regex) (p : Nat) :
    (cat (cs.map .char ++ es)).ways input.toArray p =
      if OccursAt cs input p then (cat es).ways input.toArray (p + cs.length) else [] := by
  induction cs generalizing p with
  | nil => simp
  | cons c cs ih =>
      rw [List.map_cons, List.cons_append, ways_cat_cons, ways, takeWays_toArray]
      by_cases hc : input[p]? = some c
      · have hstep : OccursAt (c :: cs) input p ↔ OccursAt cs input (p + 1) := by
          rw [occursAt_cons, hc]
          simp
        simp only [hc, Option.any_some, beq_self_eq_true, if_true, List.flatMap_cons,
          List.flatMap_nil, List.append_nil, map_here_andThen, ih, hstep, List.length_cons]
        rw [Nat.add_assoc, Nat.add_comm 1]
      · have hno : ¬ OccursAt (c :: cs) input p := fun h => hc (occursAt_cons.mp h).1
        have hany : input[p]?.any (· == c) = false := by
          cases h : input[p]? with
          | none => rfl
          | some d =>
              rw [h, Option.some.injEq] at hc
              simpa using hc
        simp [hany, hno]

theorem ways_literal (input cs : List Char) (p : Nat) :
    (literal cs).ways input.toArray p =
      if OccursAt cs input p then [⟨p + cs.length, []⟩] else [] := by
  have h := ways_chars input cs [] p
  rw [List.append_nil] at h
  exact h

theorem ways_notAhead_literal (input cs : List Char) (p : Nat) :
    (notAhead (literal cs)).ways input.toArray p =
      if OccursAt cs input p then [] else [⟨p, []⟩] := by
  rw [ways, ways_literal]
  split <;> rfl

theorem ways_notAhead_literals (input cs ds : List Char) (p : Nat) :
    (notAhead (oneOf [literal cs, literal ds])).ways input.toArray p =
      if OccursAt cs input p ∨ OccursAt ds input p then [] else [⟨p, []⟩] := by
  rw [ways, oneOf_cons_cons, oneOf, ways, ways_literal, ways_literal]
  by_cases hc : OccursAt cs input p
  · simp [hc]
  · by_cases hd : OccursAt ds input p
    · simp [hd]
    · simp [hc, hd]

end Regex

namespace Sequence

open Regex

theorem ways_oneBut (input cs : List Char) (p : Nat) [Decidable (∃ c ∈ cs, input[p]? = some c)] :
    (oneBut cs).ways input.toArray p =
      if p < input.length ∧ ¬ ∃ c ∈ cs, input[p]? = some c then [⟨p + 1, []⟩] else [] := by
  have htake : (oneBut cs).ways input.toArray p =
      takeWays input.toArray (fun d => !cs.contains d) p := by
    unfold oneBut
    cases cs with
    | nil => simp [ways]
    | cons c cs => simp [ways]
  rw [htake, takeWays_toArray]
  congr 1
  by_cases hp : p < input.length
  · simp [hp]
  · simp [hp]

theorem short_occursAt {text input : List Char} {p : Nat} (h : text.length < 2) :
    (text ≠ [] ∧ OccursAt text input p) ↔ ∃ c ∈ text, input[p]? = some c := by
  match text, h with
  | [], _ => simp
  | [c], _ => simp [occursAt_cons]

theorem ways_guarded {input : Array Char} {p : Nat} {guard e : Regex} {a b : Prop} [Decidable a]
    [Decidable b] (hguard : guard.ways input p = if a then [] else [⟨p, []⟩])
    (he : e.ways input p = if b then [⟨p + 1, []⟩] else []) :
    (group (cat [guard, e])).ways input p = if b ∧ ¬ a then [⟨p + 1, []⟩] else [] := by
  rw [ways, ways_cat_cons, hguard]
  by_cases ha : a
  · simp [ha]
  · by_cases hb : b
    · simp [ha, hb, he, cat, ways]
    · simp [ha, hb, ways_cat_cons, he]

/-- All four shapes of the expression take one character from a clear place. -/
theorem ways_avoiding (delimiter text input : List Char) (p : Nat) :
    (avoiding delimiter text).ways input.toArray p =
      if Clear delimiter text input p then [⟨p + 1, []⟩] else [] := by
  have hnonempty : ∀ cs : List Char, ¬ cs.length < 2 → cs ≠ [] := by
    rintro _ hlong rfl
    exact hlong (by decide)
  unfold avoiding
  by_cases htext : text.length < 2
  · by_cases hdelimiter : delimiter.length < 2
    · rw [if_pos htext, if_pos hdelimiter, ways_oneBut]
      congr 1
      simp only [Clear, short_occursAt htext, short_occursAt hdelimiter, List.mem_append,
        or_and_right, exists_or, not_or]
    · rw [if_pos htext, if_neg hdelimiter,
        ways_guarded (ways_notAhead_literal _ _ _) (ways_oneBut _ _ _)]
      congr 1
      simp only [Clear, short_occursAt htext, hnonempty delimiter hdelimiter, ne_eq,
        not_false_eq_true, true_and]
      rw [and_right_comm, and_assoc]
  · rw [if_neg htext]
    by_cases hdelimiter : delimiter.length < 2
    · rw [if_pos hdelimiter, ways_guarded (ways_notAhead_literal _ _ _) (ways_oneBut _ _ _)]
      congr 1
      simp only [Clear, short_occursAt hdelimiter, hnonempty text htext, ne_eq, not_false_eq_true,
        true_and, and_assoc]
    · have hany : any.ways input.toArray p = if p < input.length then [⟨p + 1, []⟩] else [] := by
        rw [ways, takeWays_toArray]
        by_cases hp : p < input.length <;> simp [hp]
      rw [if_neg hdelimiter, ways_guarded (ways_notAhead_literals _ _ _ _) hany]
      congr 1
      simp only [Clear, hnonempty text htext, hnonempty delimiter hdelimiter, ne_eq,
        not_false_eq_true, true_and, not_or]
      rw [and_comm (a := ¬ OccursAt text input p)]

/-- The places where a run of clear characters from here can stop, the farthest first. -/
def stopsFrom (size : Nat) (clear : Nat → Bool) (p : Nat) : List Nat :=
  if p < size ∧ clear p then stopsFrom size clear (p + 1) ++ [p + 1] else []
termination_by size - p

theorem mem_stopsFrom {size : Nat} {clear : Nat → Bool} {p q : Nat} :
    q ∈ stopsFrom size clear p ↔
      p < q ∧ q ≤ size ∧ ∀ i, p ≤ i → i < q → clear i := by
  fun_induction stopsFrom size clear p with
  | case1 p h ih =>
      rw [List.mem_append, ih, List.mem_singleton]
      constructor
      · rintro (⟨hlt, hle, hclear⟩ | rfl)
        · refine ⟨by omega, hle, ?_⟩
          intro i hi hq
          by_cases hip : i = p
          · rw [hip]
            exact h.2
          · exact hclear i (by omega) hq
        · refine ⟨by omega, by omega, ?_⟩
          intro i hi hq
          have hip : i = p := by omega
          rw [hip]
          exact h.2
      · rintro ⟨hlt, hle, hclear⟩
        by_cases hq : q = p + 1
        · exact .inr hq
        · exact .inl ⟨by omega, hle, fun i hi => hclear i (by omega)⟩
  | case2 p h =>
      simp only [List.not_mem_nil, false_iff]
      rintro ⟨hlt, hle, hclear⟩
      exact h ⟨by omega, hclear p (Nat.le_refl p) hlt⟩

theorem pairwise_stopsFrom (size : Nat) (clear : Nat → Bool) (p : Nat) :
    (stopsFrom size clear p).Pairwise (· > ·) := by
  fun_induction stopsFrom size clear p with
  | case1 p h ih =>
      refine List.pairwise_append.mpr ⟨ih, List.pairwise_singleton _ _, ?_⟩
      intro a ha b hb
      rw [List.mem_singleton.mp hb]
      exact (mem_stopsFrom.mp ha).1
  | case2 p h => exact .nil

theorem roundWays_stopsFrom {size : Nat} {clear : Nat → Bool} {body : Nat → List Hit}
    (hbody : ∀ p, body p = if p < size ∧ clear p then [⟨p + 1, []⟩] else []) (p : Nat) :
    roundWays size body p = (stopsFrom size clear p).map fun q => ⟨q, []⟩ := by
  fun_induction stopsFrom size clear p with
  | case1 p h ih =>
      rw [roundWays, hbody p, if_pos h]
      have hnext : p < p + 1 ∧ p + 1 ≤ size := by omega
      simp only [List.flatMap_cons, List.flatMap_nil, List.append_nil, hnext, and_self, dite_true,
        map_here_andThen, ih, List.map_append, List.map_cons, List.map_nil, Hit.here_andThen]
  | case2 p h =>
      rw [roundWays, hbody p, if_neg h]
      rfl

/-- Repeated, the expression goes from a place to every end of a clear run. -/
theorem ways_plus_avoiding (delimiter text input : List Char) (p : Nat) :
    (plus (avoiding delimiter text)).ways input.toArray p =
      (stopsFrom input.length (fun i => decide (Clear delimiter text input i)) p).map
        fun q => ⟨q, []⟩ := by
  rw [ways, List.size_toArray]
  apply roundWays_stopsFrom
  intro q
  rw [ways_avoiding]
  congr 1
  rw [decide_eq_true_eq, eq_iff_iff]
  exact ⟨fun hclear => ⟨hclear.1, hclear⟩, And.right⟩

end Sequence

end PathPattern
