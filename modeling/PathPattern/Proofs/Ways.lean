import PathPattern.Regex.Search

/-!
All ways to match an expression from a place on, in order of preference. The search finds the first
of them from which the rest of the expression can be matched too.
-/
namespace PathPattern.Regex

/-- A match and, from where it ends, another one. -/
def Hit.andThen (h more : Hit) : Hit := ⟨more.stop, h.edges ++ more.edges⟩

@[simp] theorem Hit.stop_andThen (h more : Hit) : (h.andThen more).stop = more.stop := rfl

theorem Hit.andThen_assoc (a b c : Hit) : (a.andThen b).andThen c = a.andThen (b.andThen c) := by
  simp only [andThen, List.append_assoc]

@[simp] theorem Hit.andThen_here (h : Hit) : h.andThen ⟨h.stop, []⟩ = h := by
  simp only [andThen, List.append_nil]

@[simp] theorem Hit.here_andThen (p : Nat) (h : Hit) : Hit.andThen ⟨p, []⟩ h = h := rfl

def takeWays (input : Array Char) (test : Char → Bool) (p : Nat) : List Hit :=
  match input[p]? with
  | some c => if test c then [⟨p + 1, []⟩] else []
  | none => []

/-- The ways through one round or more. A further round is tried first, after a round that took
something. -/
def roundWays (size : Nat) (body : Nat → List Hit) (p : Nat) : List Hit :=
  (body p).flatMap fun h =>
    ((if _h : p < h.stop ∧ h.stop ≤ size then roundWays size body h.stop else []) ++
      [(⟨h.stop, []⟩ : Hit)]).map h.andThen
termination_by size - p
decreasing_by omega

def ways (input : Array Char) : Regex → Nat → List Hit
  | .empty, p => [⟨p, []⟩]
  | .char c, p => takeWays input (· == c) p
  | .any, p => takeWays input (fun _ => true) p
  | .noneOf cs, p => takeWays input (fun d => !cs.contains d) p
  | .start, p => if p = 0 then [⟨p, []⟩] else []
  | .finish, p => if p = input.size then [⟨p, []⟩] else []
  | .seq a b, p => (a.ways input p).flatMap fun h => (b.ways input h.stop).map h.andThen
  | .alt a b, p => a.ways input p ++ b.ways input p
  | .group e, p => e.ways input p
  | .capture i e, p =>
    (e.ways input p).map fun h => ⟨h.stop, .opened i p :: h.edges ++ [.closed i h.stop]⟩
  | .plus e, p => roundWays input.size (e.ways input) p
  | .opt e, p => e.ways input p ++ [⟨p, []⟩]
  | .ahead e, p => ((e.ways input p).head?.map fun h => (⟨p, h.edges⟩ : Hit)).toList
  | .notAhead e, p => if (e.ways input p).isEmpty then [⟨p, []⟩] else []

/-- The first way from which `next` succeeds, and how it does. -/
def firstWay (next : Nat → Option Hit) (hits : List Hit) : Option Hit :=
  hits.findSome? fun h => (next h.stop).map h.andThen

theorem firstWay_append (next : Nat → Option Hit) (a b : List Hit) :
    firstWay next (a ++ b) = (firstWay next a).or (firstWay next b) := by
  simp only [firstWay, List.findSome?_append]

theorem firstWay_singleton (next : Nat → Option Hit) (h : Hit) :
    firstWay next [h] = (next h.stop).map h.andThen := by
  simp only [firstWay, List.findSome?_cons, List.findSome?_nil]
  cases (next h.stop).map h.andThen <;> rfl

theorem firstWay_congr {next next' : Nat → Option Hit} {hits : List Hit}
    (h : ∀ hit ∈ hits, next hit.stop = next' hit.stop) :
    firstWay next hits = firstWay next' hits := by
  induction hits with
  | nil => rfl
  | cons first rest ih =>
      change firstWay next ([first] ++ rest) = firstWay next' ([first] ++ rest)
      rw [firstWay_append, firstWay_append, firstWay_singleton, firstWay_singleton,
        h first List.mem_cons_self, ih fun hit hmem => h hit (List.mem_cons_of_mem _ hmem)]

theorem firstWay_map (next : Nat → Option Hit) (h : Hit) (hits : List Hit) :
    firstWay next (hits.map h.andThen) = (firstWay next hits).map h.andThen := by
  unfold firstWay
  rw [List.findSome?_map, List.map_findSome?]
  congr 1
  funext hit
  simp only [Function.comp_apply, Hit.stop_andThen, Option.map_map]
  congr 1
  funext more
  exact Hit.andThen_assoc h hit more

/-- Going on from each way is going on from the first that allows it. -/
theorem firstWay_flatMap (next : Nat → Option Hit) (hits : List Hit) (f : Nat → List Hit) :
    firstWay next (hits.flatMap fun h => (f h.stop).map h.andThen) =
      firstWay (fun q => firstWay next (f q)) hits := by
  induction hits with
  | nil => rfl
  | cons first rest ih =>
      rw [List.flatMap_cons, firstWay_append, ih, firstWay_map]
      change _ = firstWay _ ([first] ++ rest)
      rw [firstWay_append, firstWay_singleton]

theorem takeWays_bounds {input : Array Char} {test : Char → Bool} {p : Nat} {h : Hit}
    (hh : h ∈ takeWays input test p) : h.stop = p + 1 ∧ p < input.size := by
  unfold takeWays at hh
  split at hh
  · rename_i c hc
    split at hh
    · rw [List.mem_singleton] at hh
      rw [hh]
      exact ⟨rfl, (Array.getElem?_eq_some_iff.mp hc).1⟩
    · cases hh
  · cases hh

theorem roundWays_bounds {size : Nat} {body : Nat → List Hit}
    (hbody : ∀ p ≤ size, ∀ h ∈ body p, p ≤ h.stop ∧ h.stop ≤ size) (p : Nat) (hp : p ≤ size)
    (h : Hit) (hh : h ∈ roundWays size body p) : p ≤ h.stop ∧ h.stop ≤ size := by
  induction hn : size - p using Nat.strongRecOn generalizing p h with
  | ind n ih =>
      rw [roundWays] at hh
      obtain ⟨first, hfirst, hthen⟩ := List.mem_flatMap.mp hh
      obtain ⟨more, hmore, rfl⟩ := List.mem_map.mp hthen
      have hbounds := hbody p hp first hfirst
      rcases List.mem_append.mp hmore with hmore | hmore
      · split at hmore
        · rename_i hlater
          have hrest := ih (size - first.stop) (by omega) first.stop hbounds.2 more hmore rfl
          exact ⟨Nat.le_trans hbounds.1 hrest.1, hrest.2⟩
        · cases hmore
      · rw [List.mem_singleton.mp hmore]
        exact hbounds

theorem ways_bounds {input : Array Char} (e : Regex) (p : Nat) (hp : p ≤ input.size) (h : Hit)
    (hh : h ∈ e.ways input p) : p ≤ h.stop ∧ h.stop ≤ input.size := by
  induction e generalizing p h with
  | empty =>
      rw [List.mem_singleton.mp hh]
      exact ⟨Nat.le_refl p, hp⟩
  | char c =>
      have htake := takeWays_bounds hh
      omega
  | any =>
      have htake := takeWays_bounds hh
      omega
  | noneOf cs =>
      have htake := takeWays_bounds hh
      omega
  | start =>
      unfold ways at hh
      split at hh
      · rw [List.mem_singleton.mp hh]
        exact ⟨Nat.le_refl p, hp⟩
      · cases hh
  | finish =>
      unfold ways at hh
      split at hh
      · rw [List.mem_singleton.mp hh]
        exact ⟨Nat.le_refl p, hp⟩
      · cases hh
  | seq a b iha ihb =>
      obtain ⟨first, hfirst, hthen⟩ := List.mem_flatMap.mp hh
      obtain ⟨more, hmore, rfl⟩ := List.mem_map.mp hthen
      have ha := iha p hp first hfirst
      have hb := ihb first.stop ha.2 more hmore
      exact ⟨Nat.le_trans ha.1 hb.1, hb.2⟩
  | alt a b iha ihb =>
      rcases List.mem_append.mp hh with hh | hh
      · exact iha p hp h hh
      · exact ihb p hp h hh
  | group e ih => exact ih p hp h hh
  | capture i e ih =>
      obtain ⟨inner, hinner, rfl⟩ := List.mem_map.mp hh
      exact ih p hp inner hinner
  | plus e ih => exact roundWays_bounds ih p hp h hh
  | opt e ih =>
      rcases List.mem_append.mp hh with hh | hh
      · exact ih p hp h hh
      · rw [List.mem_singleton.mp hh]
        exact ⟨Nat.le_refl p, hp⟩
  | ahead e ih =>
      obtain ⟨inner, -, rfl⟩ := Option.map_eq_some_iff.mp (Option.mem_toList.mp hh)
      exact ⟨Nat.le_refl p, hp⟩
  | notAhead e ih =>
      unfold ways at hh
      split at hh
      · rw [List.mem_singleton.mp hh]
        exact ⟨Nat.le_refl p, hp⟩
      · cases hh

theorem Attempt.hit_after (a : Attempt) (retries : Nat) (edges : List Edge) (p : Nat) :
    (a.after retries edges).hit = a.hit.map (Hit.andThen ⟨p, edges⟩) := rfl

theorem Attempt.hit_orRetry (a : Attempt) (other : Unit → Attempt) :
    (a.orRetry other).hit = a.hit.or (other ()).hit := by
  unfold Attempt.orRetry
  cases h : a.hit with
  | some hit => simp [h]
  | none => simp [Attempt.after]

theorem Course.hit_take (input : Array Char) (test : Char → Bool) (next : Course) (p : Nat) :
    ((Course.take input test next).attempt p).hit =
      firstWay (fun q => (next.attempt q).hit) (takeWays input test p) := by
  unfold Course.take takeWays
  dsimp only
  cases input[p]? with
  | none => rfl
  | some c =>
      by_cases htest : test c
      · simp only [htest, if_true, firstWay_singleton]
        exact Option.map_id'.symm
      · simp only [htest]
        rfl

theorem firstWay_done (hits : List Hit) :
    firstWay (fun q => (Course.done.attempt q).hit) hits = hits.head? := by
  cases hits with
  | nil => rfl
  | cons first rest =>
      change ((some (first.andThen ⟨first.stop, []⟩)) : Option Hit) = _
      rw [Hit.andThen_here]
      rfl

theorem Course.hit_again {size p q : Nat} (body : Course → Course) (next : Course) (hpq : p ≤ q)
    (hq : q ≤ size) :
    ((again size (rounds size body next (size - p)) next).attempt q).hit =
      (if p < q then ((plus size body next).attempt q).hit else none).or (next.attempt q).hit := by
  unfold again
  dsimp only
  by_cases hlt : p < q
  · rw [getElem?_rounds size body next (by omega : size - q < size - p), if_pos hlt,
      attempt_plus size body next hq, Nat.sub_sub_self hq]
    exact Attempt.hit_orRetry _ _
  · have hsize : (rounds size body next (size - p))[size - q]? = none := by
      rw [Array.getElem?_eq_none_iff, size_rounds]
      omega
    rw [hsize, if_neg hlt, Option.none_or]

theorem firstWay_here (next : Nat → Option Hit) (p : Nat) : firstWay next [⟨p, []⟩] = next p := by
  rw [firstWay_singleton]
  exact Option.map_id'

theorem firstWay_roundWays (next : Nat → Option Hit) (size : Nat) (body : Nat → List Hit)
    (p : Nat) :
    firstWay next (roundWays size body p) =
      firstWay (fun q => (if p < q ∧ q ≤ size then firstWay next (roundWays size body q)
        else none).or (next q)) (body p) := by
  rw [roundWays]
  simp only [dite_eq_ite]
  rw [firstWay_flatMap next (body p) fun q =>
    (if p < q ∧ q ≤ size then roundWays size body q else []) ++ [(⟨q, []⟩ : Hit)]]
  congr 1
  funext q
  rw [firstWay_append, firstWay_here]
  split
  · rfl
  · rfl

/-- Rounds that succeed by the first way of each succeed together by the first way of all. -/
theorem Course.hit_plus {input : Array Char} {body : Course → Course} {bodyWays : Nat → List Hit}
    (hbounds : ∀ p ≤ input.size, ∀ h ∈ bodyWays p, p ≤ h.stop ∧ h.stop ≤ input.size)
    (hbody : ∀ (next : Course) (p : Nat), p ≤ input.size →
      ((body next).attempt p).hit = firstWay (fun q => (next.attempt q).hit) (bodyWays p))
    (next : Course) (p : Nat) (hp : p ≤ input.size) :
    ((plus input.size body next).attempt p).hit =
      firstWay (fun q => (next.attempt q).hit) (roundWays input.size bodyWays p) := by
  -- on the characters that are left: only a round that took some is followed by another
  induction hn : input.size - p using Nat.strongRecOn generalizing p with
  | ind n ih =>
      rw [attempt_plus input.size body next hp, hbody _ p hp, firstWay_roundWays]
      apply firstWay_congr
      intro h hh
      have hstop := hbounds p hp h hh
      rw [hit_again body next hstop.1 hstop.2]
      by_cases hlt : p < h.stop
      · rw [if_pos hlt, if_pos ⟨hlt, hstop.2⟩,
          ih (input.size - h.stop) (by omega) h.stop hstop.2 rfl]
      · rw [if_neg hlt, if_neg fun hboth => hlt hboth.1]

/-- The search succeeds by the first way that can be carried on. -/
theorem hit_followedBy (input : Array Char) (e : Regex) (next : Course) (p : Nat)
    (hp : p ≤ input.size) :
    ((e.followedBy input next).attempt p).hit =
      firstWay (fun q => (next.attempt q).hit) (e.ways input p) := by
  induction e generalizing next p with
  | empty => rw [followedBy, ways, firstWay_here]
  | char c => exact Course.hit_take input _ next p
  | any => exact Course.hit_take input _ next p
  | noneOf cs => exact Course.hit_take input _ next p
  | start =>
      unfold followedBy ways Course.only
      by_cases h : p = 0
      · simp [h, firstWay_here]
      · simp [h, Attempt.failed, firstWay]
  | finish =>
      unfold followedBy ways Course.only
      by_cases h : p = input.size
      · simp [h, firstWay_here]
      · simp [h, Attempt.failed, firstWay]
  | seq a b iha ihb =>
      rw [followedBy, iha _ p hp, ways, firstWay_flatMap]
      apply firstWay_congr
      intro h hh
      exact ihb next h.stop (ways_bounds a p hp h hh).2
  | alt a b iha ihb =>
      rw [ways, firstWay_append, ← iha next p hp, ← ihb next p hp]
      exact Attempt.hit_orRetry _ _
  | group e ih => exact ih next p hp
  | capture i e ih =>
      change Option.map (Hit.andThen ⟨p, [.opened i p]⟩)
        ((e.followedBy input (.passing (.closed i) next)).attempt p).hit = _
      rw [ih _ p hp, ways]
      unfold firstWay
      rw [List.findSome?_map, List.map_findSome?]
      congr 1
      funext h
      change Option.map _ (Option.map h.andThen (Option.map (Hit.andThen ⟨p, [.closed i h.stop]⟩)
        (next.attempt h.stop).hit)) = Option.map _ (next.attempt h.stop).hit
      rw [Option.map_map, Option.map_map]
      congr 1
      funext more
      simp [Hit.andThen]
  | plus e ih => exact Course.hit_plus (ways_bounds e) ih next p hp
  | opt e ih =>
      rw [ways, firstWay_append, ← ih next p hp, firstWay_here]
      exact Attempt.hit_orRetry _ _
  | ahead e ih =>
      have hguard := ih .done p hp
      rw [firstWay_done] at hguard
      unfold followedBy Course.onlyIf ways
      dsimp only
      rw [hguard]
      cases hhead : (e.ways input p).head? with
      | none =>
          rw [hhead] at hguard
          exact hguard
      | some h =>
          simp only [Option.map_some, Option.toList_some, firstWay_singleton]
          exact Attempt.hit_after _ _ _ p
  | notAhead e ih =>
      have hguard := ih .done p hp
      rw [firstWay_done] at hguard
      unfold followedBy Course.onlyIfNot ways
      dsimp only
      rw [hguard]
      cases hits : e.ways input p with
      | nil =>
          simp only [List.head?_nil, List.isEmpty_nil, if_true, firstWay_here]
          exact Option.map_id'
      | cons h rest => rfl

/-- A search finds the most preferred way. -/
theorem hit_search (e : Regex) (input : List Char) :
    (e.search input).hit = (e.ways input.toArray 0).head? := by
  unfold search
  rw [hit_followedBy _ _ _ _ (Nat.zero_le _), firstWay_done]

end PathPattern.Regex
