import Mathlib.Data.List.Basic
import PathPattern.Proofs.Synthesis

/-!
Which templates are refused. The guard against two captures with no text between them keeps one
piece of state, the text that the next param has to keep clear of; it fires at the second capture of
the leftmost such pair, in the first alternative that has one, of the first template that has such
an alternative. Where no pair is found there is a route, unless a trailing delimiter would be empty.
-/
namespace PathPattern

def FirstWith {α : Type} (P : α → Prop) (xs : List α) (x : α) : Prop :=
  ∃ before after, xs = before ++ x :: after ∧ P x ∧ ∀ y ∈ before, ¬ P y

namespace FirstWith

variable {α : Type} {P : α → Prop} {x y : α} {xs ys : List α}

theorem mem (h : FirstWith P xs x) : x ∈ xs := by
  obtain ⟨before, after, rfl, -, -⟩ := h
  exact List.mem_append_right before List.mem_cons_self

theorem holds (h : FirstWith P xs x) : P x := by
  obtain ⟨before, after, -, hx, -⟩ := h
  exact hx

theorem head (h : P x) (xs : List α) : FirstWith P (x :: xs) x :=
  ⟨[], xs, rfl, h, fun _ hy => nomatch hy⟩

theorem cons (hy : ¬ P y) (h : FirstWith P xs x) : FirstWith P (y :: xs) x := by
  obtain ⟨before, after, rfl, hx, hbefore⟩ := h
  refine ⟨y :: before, after, rfl, hx, ?_⟩
  intro z hz
  rcases List.mem_cons.mp hz with rfl | hz
  · exact hy
  · exact hbefore z hz

theorem of_append (h : FirstWith P (xs ++ ys) x) :
    FirstWith P xs x ∨ (∀ y ∈ xs, ¬ P y) ∧ FirstWith P ys x := by
  obtain ⟨before, after, hsplit, hx, hbefore⟩ := h
  rcases List.append_eq_append_iff.mp hsplit with ⟨more, rfl, rfl⟩ | ⟨more, rfl, hmore⟩
  · refine .inr ⟨fun y hy => hbefore y (List.mem_append_left more hy), more, after, rfl, hx, ?_⟩
    intro y hy
    exact hbefore y (List.mem_append_right xs hy)
  · cases more with
    | nil =>
        refine .inr ⟨by simpa using hbefore, [], after, hmore.symm, hx, fun _ hy => nomatch hy⟩
    | cons first more =>
        cases hmore
        exact .inl ⟨before, more, rfl, hx, hbefore⟩

end FirstWith

namespace Sequence

/-- The sequence begins with the capture, but for empty texts before it. -/
inductive LedBy (key : Key) : List Piece → Prop
  | here {rest} : LedBy key (.capture key :: rest)
  | later {rest} : LedBy key rest → LedBy key (.text "" :: rest)

/-- Behind `before` there are two captures, the second under `key`, with nothing but empty texts
between them. -/
def Adjoins (pieces before : List Piece) (key : Key) : Prop :=
  ∃ first rest, pieces = before ++ .capture first :: rest ∧ LedBy key rest

/-- Somewhere two captures have nothing but empty texts between them. -/
def Crowded (pieces : List Piece) : Prop := ∃ before key, Adjoins pieces before key

/-- Of the leftmost two captures with nothing but empty texts between them, the second is under
`key`. -/
def FirstAdjoined (pieces : List Piece) (key : Key) : Prop :=
  ∃ before, Adjoins pieces before key ∧
    ∀ other otherKey, Adjoins pieces other otherKey → before.length ≤ other.length

/-- The first capture that follows another one with nothing but empty texts between them. At the
start, `pending` says whether a capture stands right before the pieces. -/
def adjoined? (pending : Bool) : List Piece → Option Key
  | [] => none
  | .text value :: rest => adjoined? (pending && value.isEmpty) rest
  | .capture key :: rest => if pending then some key else adjoined? true rest

section

variable {key : Key} {rest : List Piece}

theorem not_ledBy_nil : ¬ LedBy key [] := by
  intro h
  cases h

theorem ledBy_text {value : String} :
    LedBy key (.text value :: rest) ↔ value = "" ∧ LedBy key rest := by
  constructor
  · intro h
    cases h with
    | later h => exact ⟨rfl, h⟩
  · rintro ⟨rfl, h⟩
    exact .later h

theorem ledBy_capture {first : Key} : LedBy key (.capture first :: rest) ↔ key = first := by
  constructor
  · intro h
    cases h
    rfl
  · rintro rfl
    exact .here

theorem adjoins_nil {before : List Piece} : ¬ Adjoins [] before key := by
  rintro ⟨first, rest, h, -⟩
  exact List.append_ne_nil_of_right_ne_nil before (List.cons_ne_nil _ _) h.symm

theorem adjoins_cons {piece : Piece} {before : List Piece} :
    Adjoins (piece :: rest) before key ↔
      (before = [] ∧ (∃ first, piece = .capture first) ∧ LedBy key rest) ∨
        ∃ more, before = piece :: more ∧ Adjoins rest more key := by
  constructor
  · rintro ⟨first, following, h, hled⟩
    cases before with
    | nil =>
        cases h
        exact .inl ⟨rfl, ⟨first, rfl⟩, hled⟩
    | cons head more =>
        cases h
        exact .inr ⟨more, rfl, first, following, rfl, hled⟩
  · rintro (⟨rfl, ⟨first, rfl⟩, hled⟩ | ⟨more, rfl, first, following, rfl, hled⟩)
    · exact ⟨first, rest, rfl, hled⟩
    · exact ⟨first, following, rfl, hled⟩

theorem firstAdjoined_skip {piece : Piece}
    (h : ∀ first other, piece = .capture first → ¬ LedBy other rest) :
    FirstAdjoined (piece :: rest) key ↔ FirstAdjoined rest key := by
  have hcons : ∀ before other, Adjoins (piece :: rest) before other ↔
      ∃ more, before = piece :: more ∧ Adjoins rest more other := by
    intro before other
    rw [adjoins_cons, or_iff_right]
    rintro ⟨-, ⟨first, hfirst⟩, hled⟩
    exact h first other hfirst hled
  constructor
  · rintro ⟨before, hadjoins, hleast⟩
    obtain ⟨more, rfl, hmore⟩ := (hcons _ _).mp hadjoins
    refine ⟨more, hmore, ?_⟩
    intro other otherKey hother
    exact Nat.le_of_succ_le_succ (hleast _ otherKey ((hcons _ _).mpr ⟨other, rfl, hother⟩))
  · rintro ⟨more, hmore, hleast⟩
    refine ⟨piece :: more, (hcons _ _).mpr ⟨more, rfl, hmore⟩, ?_⟩
    intro before otherKey hbefore
    obtain ⟨other, rfl, hother⟩ := (hcons _ _).mp hbefore
    exact Nat.succ_le_succ (hleast other otherKey hother)

theorem firstAdjoined_text {value : String} :
    FirstAdjoined (.text value :: rest) key ↔ FirstAdjoined rest key :=
  firstAdjoined_skip fun _ _ h => nomatch h

theorem firstAdjoined_capture {first : Key} :
    FirstAdjoined (.capture first :: rest) key ↔
      LedBy key rest ∨ (∀ other, ¬ LedBy other rest) ∧ FirstAdjoined rest key := by
  by_cases hled : ∃ other, LedBy other rest
  · obtain ⟨other, hother⟩ := hled
    have hhead : ∀ {second}, LedBy second rest → Adjoins (.capture first :: rest) [] second :=
      fun hsecond => adjoins_cons.mpr (.inl ⟨rfl, ⟨first, rfl⟩, hsecond⟩)
    constructor
    · rintro ⟨before, hadjoins, hleast⟩
      -- the pair at the very start is further left than any other
      have hnil : before = [] := List.eq_nil_of_length_eq_zero
        (Nat.le_zero.mp (hleast [] other (hhead hother)))
      rcases adjoins_cons.mp hadjoins with ⟨-, -, hkey⟩ | ⟨more, hmore, -⟩
      · exact .inl hkey
      · rw [hnil] at hmore
        cases hmore
    · rintro (hkey | ⟨hnone, -⟩)
      · exact ⟨[], hhead hkey, fun _ _ _ => Nat.zero_le _⟩
      · exact absurd hother (hnone other)
  · have hnone : ∀ other, ¬ LedBy other rest := not_exists.mp hled
    rw [firstAdjoined_skip fun _ other _ => hnone other]
    constructor
    · intro h
      exact .inr ⟨hnone, h⟩
    · rintro (hkey | ⟨-, h⟩)
      · exact absurd hkey (hnone key)
      · exact h

end

/-- A capture before the pieces counts only as long as empty texts follow it; otherwise the leftmost
pair among the pieces is found. -/
theorem adjoined?_eq_some {pieces : List Piece} {pending : Bool} {key : Key} :
    adjoined? pending pieces = some key ↔
      (pending ∧ LedBy key pieces) ∨
        ¬ (pending ∧ ∃ other, LedBy other pieces) ∧ FirstAdjoined pieces key := by
  induction pieces generalizing pending with
  | nil =>
      have hnone : ¬ FirstAdjoined [] key := fun ⟨_, h, _⟩ => adjoins_nil h
      simp [adjoined?, not_ledBy_nil, hnone]
  | cons piece rest ih =>
      cases piece with
      | text value =>
          rw [adjoined?, ih, firstAdjoined_text]
          simp only [ledBy_text, Bool.and_eq_true, String.isEmpty_iff, exists_and_left, and_assoc]
      | capture first =>
          rw [adjoined?]
          cases pending with
          | true => simp [ledBy_capture, eq_comm]
          | false => simp [ih, firstAdjoined_capture]

theorem adjoined?_false {pieces : List Piece} {key : Key} :
    adjoined? false pieces = some key ↔ FirstAdjoined pieces key := by
  simp [adjoined?_eq_some]

theorem crowded_iff {pieces : List Piece} : Crowded pieces ↔ ∃ key, FirstAdjoined pieces key := by
  constructor
  · rintro ⟨before, key, hadjoins⟩
    induction pieces generalizing before with
    | nil => exact absurd hadjoins adjoins_nil
    | cons piece rest ih =>
        cases piece with
        | text value =>
            rcases adjoins_cons.mp hadjoins with ⟨-, ⟨first, hfirst⟩, -⟩ | ⟨more, -, hmore⟩
            · cases hfirst
            · obtain ⟨key, hkey⟩ := ih more hmore
              exact ⟨key, firstAdjoined_text.mpr hkey⟩
        | capture first =>
            by_cases hled : ∃ other, LedBy other rest
            · obtain ⟨other, hother⟩ := hled
              exact ⟨other, firstAdjoined_capture.mpr (.inl hother)⟩
            · rcases adjoins_cons.mp hadjoins with ⟨-, -, hkey⟩ | ⟨more, -, hmore⟩
              · exact absurd ⟨key, hkey⟩ hled
              · obtain ⟨key, hkey⟩ := ih more hmore
                exact ⟨key, firstAdjoined_capture.mpr (.inr ⟨not_exists.mp hled, hkey⟩)⟩
  · rintro ⟨key, before, hadjoins, -⟩
    exact ⟨before, key, hadjoins⟩

theorem avoidNext_eq_some_nil {delimiter : List Char} {avoid : Option (List Char)}
    {text : List Char} :
    avoidNext delimiter avoid text = some [] ↔ avoid = some [] ∧ text = [] := by
  cases avoid with
  | none => simp [avoidNext]
  | some before =>
      simp only [avoidNext, Option.bind_some, Option.some.injEq]
      cases text with
      | nil =>
          have hcrosses : crosses delimiter [] = false := by
            cases delimiter <;> rfl
          simp [hcrosses]
      | cons c cs => split <;> simp

/-- The text to keep clear of is empty, rather than absent, as long as nothing but empty texts came
since the last capture: a text that reaches past a delimiter is not empty. -/
theorem adjoined?_text (delimiter : List Char) (avoid : Option (List Char)) (value : String)
    (rest : List Piece) :
    adjoined? (avoid = some []) (.text value :: rest) =
      adjoined? (avoidNext delimiter avoid value.toList = some []) rest := by
  have hpending : (decide (avoid = some []) && value.isEmpty) =
      decide (avoidNext delimiter avoid value.toList = some []) := by
    rw [Bool.eq_iff_iff]
    simp [avoidNext_eq_some_nil]
  rw [adjoined?, hpending]

section

variable {delimiter : List Char} {avoid : Option (List Char)} {pieces : List Piece}

theorem items_of_adjoined {key : Key} (h : adjoined? (avoid = some []) pieces = some key)
    (index : Nat) : items delimiter index avoid pieces = .error (.missingText key.name) := by
  induction pieces generalizing index avoid with
  | nil => cases h
  | cons piece rest ih =>
      cases piece with
      | text value =>
          rw [adjoined?_text delimiter] at h
          rw [items, ih h]
          rfl
      | capture first =>
          by_cases havoid : avoid = some []
          · have hfirst : first = key := by simpa [adjoined?, havoid] using h
            rw [items, if_pos havoid, hfirst]
          · have hrest : adjoined? (some ([] : List Char) = some []) rest = some key := by
              simpa [adjoined?, havoid] using h
            rw [items, if_neg havoid, ih hrest]
            rfl

theorem items_of_not_adjoined (h : adjoined? (avoid = some []) pieces = none) (index : Nat) :
    ∃ es, items delimiter index avoid pieces = .ok es := by
  induction pieces generalizing index avoid with
  | nil => exact ⟨[], rfl⟩
  | cons piece rest ih =>
      cases piece with
      | text value =>
          rw [adjoined?_text delimiter] at h
          obtain ⟨more, hmore⟩ := ih h index
          exact ⟨_, items_text_eq_ok.mpr ⟨more, hmore, rfl⟩⟩
      | capture first =>
          have havoid : avoid ≠ some [] := by
            intro havoid
            simp [adjoined?, havoid] at h
          have hrest : adjoined? (some ([] : List Char) = some []) rest = none := by
            simpa [adjoined?, havoid] using h
          obtain ⟨more, hmore⟩ := ih hrest (index + 1)
          exact ⟨_, items_capture_eq_ok.mpr ⟨havoid, more, hmore, rfl⟩⟩

theorem items_of_crowded (h : Crowded pieces) (index : Nat) :
    ∃ key, FirstAdjoined pieces key ∧
      items delimiter index none pieces = .error (.missingText key.name) := by
  obtain ⟨key, hkey⟩ := crowded_iff.mp h
  have hfound : adjoined? ((none : Option (List Char)) = some []) pieces = some key :=
    adjoined?_false.mpr hkey
  exact ⟨key, hkey, items_of_adjoined hfound index⟩

theorem items_of_not_crowded (h : ¬ Crowded pieces) (index : Nat) :
    ∃ es, items delimiter index none pieces = .ok es := by
  apply items_of_not_adjoined
  apply Option.eq_none_iff_forall_ne_some.mpr
  intro key hkey
  exact h (crowded_iff.mpr ⟨key, adjoined?_false.mp hkey⟩)

end

/-- Either no sequence is crowded and all have expressions, or the first crowded one is reported. -/
theorem branches_cases (delimiter : List Char) (index : Nat) (sequences : List (List Piece)) :
    ((∀ pieces ∈ sequences, ¬ Crowded pieces) ∧ ∃ bs, branches delimiter index sequences = .ok bs) ∨
      ∃ pieces key, FirstWith Crowded sequences pieces ∧ FirstAdjoined pieces key ∧
        branches delimiter index sequences = .error (.missingText key.name) := by
  induction sequences generalizing index with
  | nil => exact .inl ⟨fun _ h => absurd h List.not_mem_nil, [], rfl⟩
  | cons first rest ih =>
      by_cases hfirst : Crowded first
      · obtain ⟨key, hkey, hitems⟩ := @items_of_crowded delimiter first hfirst index
        refine .inr ⟨first, key, .head hfirst rest, hkey, ?_⟩
        rw [branches, hitems]
        rfl
      · obtain ⟨es, hes⟩ := @items_of_not_crowded delimiter first hfirst index
        rcases ih (index + (keys first).length) with ⟨hrest, more, hmore⟩ |
          ⟨pieces, key, hpieces, hkey, herror⟩
        · refine .inl ⟨?_, ⟨_, branches_cons_eq_ok.mpr ⟨es, more, hes, hmore, rfl⟩⟩⟩
          intro pieces hpieces
          rcases List.mem_cons.mp hpieces with rfl | hpieces
          · exact hfirst
          · exact hrest pieces hpieces
        · refine .inr ⟨pieces, key, hpieces.cons hfirst, hkey, ?_⟩
          rw [branches, hes]
          change (branches delimiter _ rest >>= _) = _
          rw [herror]
          rfl

end Sequence

def Template.Crowded (template : Template) : Prop :=
  ∃ pieces ∈ template.alternatives, Sequence.Crowded pieces

theorem Template.firstWith_alternatives {templates : List Template} {pieces : List Piece}
    (h : FirstWith Sequence.Crowded (templates.flatMap alternatives) pieces) :
    ∃ template, FirstWith Crowded templates template ∧
      FirstWith Sequence.Crowded (alternatives template) pieces := by
  induction templates with
  | nil => exact absurd h.mem List.not_mem_nil
  | cons first rest ih =>
      rw [List.flatMap_cons] at h
      rcases h.of_append with hfirst | ⟨hnone, hrest⟩
      · exact ⟨first, .head ⟨pieces, hfirst.mem, hfirst.holds⟩ rest, hfirst⟩
      · obtain ⟨template, htemplate, hpieces⟩ := ih hrest
        refine ⟨template, htemplate.cons ?_, hpieces⟩
        rintro ⟨other, hother, hcrowded⟩
        exact hnone other hother hcrowded

namespace Route

variable {o : Options} {templates : List Template}

theorem synthesize_of_branches {bs : List Regex}
    (h : Sequence.branches o.delimiter.toList 1 (templates.flatMap Template.alternatives) =
      .ok bs) :
    if o.delimiter = "" ∧ o.trailing = true then
      ∃ position, synthesize o templates = .error (.regex (.badRepeat position))
    else ∃ route, synthesize o templates = .ok route := by
  split
  · rename_i hempty
    obtain ⟨position, hposition⟩ := Option.ne_none_iff_exists'.mp
      (badRepeat?_frame_ne_none hempty.2 (String.toList_eq_nil_iff.mpr hempty.1) bs (flagSize o))
    refine ⟨position, ?_⟩
    rw [synthesize, h]
    simp only [bind, Except.bind, hposition]
    rfl
  · rename_i hnonempty
    have hdelimiter : o.trailing = true → o.delimiter.toList ≠ [] := by
      intro htrailing hnil
      exact hnonempty ⟨String.toList_eq_nil_iff.mp hnil, htrailing⟩
    exact ⟨_, synthesize_eq_ok.mpr ⟨bs, h, badRepeat?_frame h hdelimiter _, rfl⟩⟩

/-- Either no template is crowded, or the leftmost pair of the first one is reported. -/
theorem synthesize_cases (o : Options) (templates : List Template) :
    ((∀ template ∈ templates, ¬ template.Crowded) ∧
      if o.delimiter = "" ∧ o.trailing = true then
        ∃ position, synthesize o templates = .error (.regex (.badRepeat position))
      else ∃ route, synthesize o templates = .ok route) ∨
    ∃ template pieces key, FirstWith Template.Crowded templates template ∧
      FirstWith Sequence.Crowded template.alternatives pieces ∧
      Sequence.FirstAdjoined pieces key ∧ synthesize o templates = .error (.missingText key.name) := by
  rcases Sequence.branches_cases o.delimiter.toList 1 (templates.flatMap Template.alternatives) with
    ⟨hnone, bs, hbs⟩ | ⟨pieces, key, hpieces, hkey, herror⟩
  · refine .inl ⟨?_, synthesize_of_branches hbs⟩
    rintro template htemplate ⟨pieces, hpieces, hcrowded⟩
    exact hnone pieces (List.mem_flatMap.mpr ⟨template, htemplate, hpieces⟩) hcrowded
  · obtain ⟨template, htemplate, hfirst⟩ := Template.firstWith_alternatives hpieces
    refine .inr ⟨template, pieces, key, htemplate, hfirst, hkey, ?_⟩
    rw [synthesize, herror]
    rfl

end Route

/-- Templates are refused for a missing text just when some alternative of one of them has two
captures with nothing but empty texts between them. The error names the second capture of the
leftmost such pair, in the first such alternative of the first such template. Without such a pair
there is a route, unless the delimiter is empty and may be trailing: then the expression is
refused. -/
theorem ofPatterns_missingText (o : Options) (templates : List Template) :
    ((∃ name, Route.ofPatterns o (templates.map .template) = .error (.missingText name)) ↔
        ∃ template ∈ templates, template.Crowded) ∧
      (∀ name, Route.ofPatterns o (templates.map .template) = .error (.missingText name) →
        ∃ template pieces key, FirstWith Template.Crowded templates template ∧
          FirstWith Sequence.Crowded template.alternatives pieces ∧
          Sequence.FirstAdjoined pieces key ∧ name = key.name) ∧
      ((∀ template ∈ templates, ¬ template.Crowded) →
        if o.delimiter = "" ∧ o.trailing = true then
          ∃ position, Route.ofPatterns o (templates.map .template) =
            .error (.regex (.badRepeat position))
        else ∃ route, Route.ofPatterns o (templates.map .template) = .ok route) := by
  rw [Route.ofPatterns_templates]
  rcases Route.synthesize_cases o templates with ⟨hnone, hresult⟩ |
    ⟨template, pieces, key, htemplate, hpieces, hkey, herror⟩
  · have hother : ∀ name, Route.synthesize o templates ≠ .error (.missingText name) := by
      intro name hname
      rw [hname] at hresult
      split at hresult
      · obtain ⟨position, hposition⟩ := hresult
        cases hposition
      · obtain ⟨route, hroute⟩ := hresult
        cases hroute
    refine ⟨⟨?_, ?_⟩, fun name hname => absurd hname (hother name), fun _ => hresult⟩
    · rintro ⟨name, hname⟩
      exact absurd hname (hother name)
    · rintro ⟨template, htemplate, hcrowded⟩
      exact absurd hcrowded (hnone template htemplate)
  · refine ⟨⟨fun _ => ⟨template, htemplate.mem, htemplate.holds⟩, fun _ => ⟨key.name, herror⟩⟩,
      ?_, fun hnone => absurd htemplate.holds (hnone template htemplate.mem)⟩
    intro name hname
    rw [herror] at hname
    cases hname
    exact ⟨template, pieces, key, htemplate, hpieces, hkey, rfl⟩

/-- Only without the group do the first two captures adjoin. The last two always do, and that
alternative comes first. -/
example :
    Route.ofPatterns {} [.template [.capture ⟨.param, "a"⟩, .group [.text "-"],
      .capture ⟨.wildcard, "b"⟩, .text "", .capture ⟨.param, "c"⟩]] =
      .error (.missingText "c") := by
  decide +kernel

end PathPattern
