import PathPattern.Proofs.SuppliedAlternative

/-!
What composing reports when it fails. A value of the wrong shape is reported wherever its capture
stands, even in a group that would vanish and even if a parameter before it is missing; only then do
missing parameters count, and those of groups never do.
-/
namespace PathPattern

/-- What a capture asks for, as errors word it. -/
def Key.Kind.wanted : Key.Kind → String
  | .param => "a string"
  | .wildcard => "a non-empty array"

namespace Params

/-- The key is given a value of the wrong shape: a param several segments, or a wildcard one text or
no segment. -/
def misfits (params : Params) (key : Key) : Bool :=
  match key.kind, params[key.name]? with
  | .param, some (.many _) => true
  | .wildcard, some (.single _) => true
  | .wildcard, some (.many []) => true
  | _, _ => false

theorem misfits_eq_false {params : Params} {key : Key} :
    params.misfits key = false ↔
      ∀ value, params[key.name]? = some value → value.Fills key.kind := by
  obtain ⟨kind, name⟩ := key
  unfold misfits
  dsimp only
  cases params[name]? with
  | none => cases kind <;> simp
  | some value =>
      cases kind with
      | param => cases value <;> simp [Value.Fills]
      | wildcard =>
          cases value with
          | single text => simp [Value.Fills]
          | many values => cases values <;> simp [Value.Fills]

theorem admits_of_find? {params : Params} {keys : List Key}
    (h : keys.find? params.misfits = none) : params.Admits keys := by
  intro key hkey value hvalue
  have hfits : params.misfits key = false :=
    Bool.eq_false_iff.mpr (List.find?_eq_none.mp h key hkey)
  exact misfits_eq_false.mp hfits value hvalue

end Params

namespace Composer

variable {c : Composer} {params : Params}

theorem capture_misfit {key : Key} (h : params.misfits key) :
    c.capture params key = .error (.invalidType key.name key.kind.wanted) := by
  obtain ⟨kind, name⟩ := key
  unfold Params.misfits at h
  unfold capture
  dsimp only at h ⊢
  split at h <;> simp_all [Key.Kind.wanted]

/-- The first capture of the tokens with a value of the wrong shape ends composing, whatever is
missing before it and whichever groups it stands in. -/
theorem tokens_misfit {template : Template} {key : Key}
    (h : (Template.keys template).find? params.misfits = some key) :
    c.tokens params template = .error (.invalidType key.name key.kind.wanted) := by
  induction template using Template.induction with
  | nil => cases h
  | text value rest ih =>
      rw [Template.keys_text] at h
      rw [tokens, token, ih h]
      rfl
  | capture first rest ih =>
      rw [Template.keys_capture, List.find?_cons] at h
      rw [tokens, token]
      cases hfirst : params.misfits first with
      | true =>
          rw [hfirst] at h
          cases h
          rw [capture_misfit hfirst]
          rfl
      | false =>
          rw [hfirst] at h
          rw [capture_eq (Params.misfits_eq_false.mp hfirst), ih h]
          rfl
  | group tokens rest ihTokens ih =>
      rw [Template.keys_group, List.find?_append] at h
      rw [Composer.tokens, token]
      cases hinside : (Template.keys tokens).find? params.misfits with
      | some found =>
          rw [hinside] at h
          cases h
          rw [ihTokens hinside]
          rfl
      | none =>
          -- the group itself gives something, so the tokens after it are reached
          rw [hinside] at h
          rw [tokens_eq (Params.admits_of_find? hinside), ih h]
          rfl

end Composer

/-- Composing reports the first capture in reading order, groups included, whose value has the wrong
shape. If there is none, it reports the names outside groups for which there is no parameter, in
order and as often as they stand there. If there is no such name either, it gives a path. -/
theorem compose_reports (c : Composer) (params : Params) :
    match (Template.keys c.template).find? params.misfits with
    | some key => c.compose params = .error (.invalidType key.name key.kind.wanted)
    | none =>
      if Template.lacking params c.template = [] then ∃ path, c.compose params = .ok path
      else c.compose params = .error (.missingParameters (Template.lacking params c.template)) := by
  cases h : (Template.keys c.template).find? params.misfits with
  | some key =>
      change c.compose params = _
      rw [Composer.compose, Composer.tokens_misfit h]
      rfl
  | none =>
      have hcompose := Composer.compose_eq (c := c) (Params.admits_of_find? h)
      change if Template.lacking params c.template = [] then _ else _
      by_cases hlacking : Template.lacking params c.template = []
      · rw [if_pos hlacking]
        rw [hlacking] at hcompose
        exact ⟨_, hcompose⟩
      · rw [if_neg hlacking, hcompose, if_neg (fun hempty => hlacking (List.isEmpty_iff.mp hempty))]

/-- The wildcard is reported although its group would vanish and parameters before it are
missing. -/
example :
    let c : Composer := ⟨[.text "/", .capture ⟨.param, "a"⟩, .group [.capture ⟨.param, "b"⟩,
      .capture ⟨.wildcard, "rest"⟩]], "/", none⟩
    c.compose (Params.empty.insert "rest" (.many [])) =
      .error (.invalidType "rest" "a non-empty array") := by
  decide +kernel

end PathPattern
