import PathPattern.Options

/-!
Reading back what was encoded: bytes give the text that they came from, and escapes the bytes. What
is encoded has a form of its own, in which no delimiter is left and which no two texts share.
-/
namespace PathPattern.Text

namespace Utf8

theorem toNat_ofNat {n : Nat} (h : n < 256) : (UInt8.ofNat n).toNat = n := by
  simpa using Nat.mod_eq_of_lt h

/-- A byte that begins a character of several bytes. -/
theorem decodeFrom_lead {index : Nat} {b : UInt8} {rest : List UInt8} {p : Unfinished}
    (h : lead? b = some p) (hmore : p.more ≠ 0) :
    decodeFrom index none (b :: rest) = decodeFrom (index + 1) (some (index, p)) rest := by
  rw [decodeFrom]
  simp [h, hmore]

theorem next?_eq {value more low high k : Nat} (hk : k < 0x40) (hlow : low ≤ 0x80 + k)
    (hhigh : 0x80 + k ≤ high) :
    Unfinished.next? ⟨value, more, low, high⟩ (UInt8.ofNat (0x80 + k)) =
      some ⟨value * 0x40 + k, more - 1, 0x80, 0xBF⟩ := by
  simp only [Unfinished.next?, toNat_ofNat (show 0x80 + k < 256 by omega), hlow, hhigh, and_self,
    if_true, Nat.add_sub_cancel_left]

theorem decodeFrom_more {index start value m low high k : Nat} {rest : List UInt8}
    (hk : k < 0x40) (hlow : low ≤ 0x80 + k) (hhigh : 0x80 + k ≤ high) :
    decodeFrom index (some (start, ⟨value, m + 2, low, high⟩))
        (UInt8.ofNat (0x80 + k) :: rest) =
      decodeFrom (index + 1) (some (start, ⟨value * 0x40 + k, m + 1, 0x80, 0xBF⟩)) rest := by
  rw [decodeFrom]
  simp only [Option.elim_some, next?_eq hk hlow hhigh]
  rfl

theorem decodeFrom_last {index start value low high k : Nat} {rest : List UInt8}
    (hk : k < 0x40) (hlow : low ≤ 0x80 + k) (hhigh : 0x80 + k ≤ high) :
    decodeFrom index (some (start, ⟨value, 1, low, high⟩)) (UInt8.ofNat (0x80 + k) :: rest) =
      (decodeFrom (index + 1) none rest).map (Char.ofNat (value * 0x40 + k) :: ·) := by
  rw [decodeFrom]
  simp only [Option.elim_some, next?_eq hk hlow hhigh]
  cases decodeFrom (index + 1) none rest <;> rfl

theorem decodeFrom_ascii {index n : Nat} {rest : List UInt8} (h : n < 0x80) :
    decodeFrom index none (UInt8.ofNat n :: rest) =
      (decodeFrom (index + 1) none rest).map (Char.ofNat n :: ·) := by
  have hlead : lead? (UInt8.ofNat n) = some ⟨n, 0, 0x80, 0xBF⟩ := by
    simp only [lead?, toNat_ofNat (show n < 256 by omega), if_pos h]
  rw [decodeFrom]
  simp only [Option.elim_none, hlead, if_true]
  cases decodeFrom (index + 1) none rest <;> rfl

theorem decodeFrom_two {index n : Nat} {rest : List UInt8} (hlow : 0x80 ≤ n) (hhigh : n < 0x800) :
    decodeFrom index none
        (UInt8.ofNat (0xC0 + n / 0x40) :: UInt8.ofNat (0x80 + n % 0x40) :: rest) =
      (decodeFrom (index + 2) none rest).map (Char.ofNat n :: ·) := by
  have hlead : lead? (UInt8.ofNat (0xC0 + n / 0x40)) = some ⟨n / 0x40, 1, 0x80, 0xBF⟩ := by
    simp only [lead?, toNat_ofNat (show 0xC0 + n / 0x40 < 256 by omega)]
    rw [if_neg (by omega), if_neg (by omega), if_pos (by omega), Nat.add_sub_cancel_left]
  have hvalue : n / 0x40 * 0x40 + n % 0x40 = n := by omega
  rw [decodeFrom_lead hlead Nat.one_ne_zero, decodeFrom_last (by omega) (by omega) (by omega),
    hvalue]

/-- The second byte tells overlong forms and surrogates apart. -/
theorem decodeFrom_three {index n : Nat} {rest : List UInt8} (hlow : 0x800 ≤ n)
    (hhigh : n < 0x10000) (hsurrogate : n < 0xD800 ∨ 0xDFFF < n) :
    decodeFrom index none
        (UInt8.ofNat (0xE0 + n / 0x1000) :: UInt8.ofNat (0x80 + n / 0x40 % 0x40) ::
          UInt8.ofNat (0x80 + n % 0x40) :: rest) =
      (decodeFrom (index + 3) none rest).map (Char.ofNat n :: ·) := by
  have hfirst : 0xE0 + n / 0x1000 = 0xE0 ↔ n / 0x1000 = 0 := by omega
  have hlast : 0xE0 + n / 0x1000 = 0xED ↔ n / 0x1000 = 0xD := by omega
  have hlead : lead? (UInt8.ofNat (0xE0 + n / 0x1000)) =
      some ⟨n / 0x1000, 0 + 2, if n / 0x1000 = 0 then 0xA0 else 0x80,
        if n / 0x1000 = 0xD then 0x9F else 0xBF⟩ := by
    simp only [lead?, toNat_ofNat (show 0xE0 + n / 0x1000 < 256 by omega), hfirst, hlast]
    rw [if_neg (by omega), if_neg (by omega), if_neg (by omega), if_pos (by omega),
      Nat.add_sub_cancel_left]
  have hvalue : (n / 0x1000 * 0x40 + n / 0x40 % 0x40) * 0x40 + n % 0x40 = n := by omega
  rw [decodeFrom_lead hlead (Nat.succ_ne_zero _),
    decodeFrom_more (by omega) (by split <;> omega) (by split <;> omega),
    decodeFrom_last (by omega) (by omega) (by omega), hvalue]

theorem decodeFrom_four {index n : Nat} {rest : List UInt8} (hlow : 0x10000 ≤ n)
    (hhigh : n < 0x110000) :
    decodeFrom index none
        (UInt8.ofNat (0xF0 + n / 0x40000) :: UInt8.ofNat (0x80 + n / 0x1000 % 0x40) ::
          UInt8.ofNat (0x80 + n / 0x40 % 0x40) :: UInt8.ofNat (0x80 + n % 0x40) :: rest) =
      (decodeFrom (index + 4) none rest).map (Char.ofNat n :: ·) := by
  have hfirst : 0xF0 + n / 0x40000 = 0xF0 ↔ n / 0x40000 = 0 := by omega
  have hlast : 0xF0 + n / 0x40000 = 0xF4 ↔ n / 0x40000 = 4 := by omega
  have hlead : lead? (UInt8.ofNat (0xF0 + n / 0x40000)) =
      some ⟨n / 0x40000, 1 + 2, if n / 0x40000 = 0 then 0x90 else 0x80,
        if n / 0x40000 = 4 then 0x8F else 0xBF⟩ := by
    simp only [lead?, toNat_ofNat (show 0xF0 + n / 0x40000 < 256 by omega), hfirst, hlast]
    rw [if_neg (by omega), if_neg (by omega), if_neg (by omega), if_neg (by omega),
      if_pos (by omega), Nat.add_sub_cancel_left]
  have hvalue : ((n / 0x40000 * 0x40 + n / 0x1000 % 0x40) * 0x40 + n / 0x40 % 0x40) * 0x40 +
      n % 0x40 = n := by omega
  rw [decodeFrom_lead hlead (Nat.succ_ne_zero _),
    decodeFrom_more (by omega) (by split <;> omega) (by split <;> omega),
    decodeFrom_more (m := 0) (by omega) (by omega) (by omega),
    decodeFrom_last (by omega) (by omega) (by omega), hvalue]

/-- The bytes of a character are read as this character. -/
theorem decodeFrom_encodeChar (index : Nat) (c : Char) (rest : List UInt8) :
    decodeFrom index none (encodeChar c ++ rest) =
      (decodeFrom (index + (encodeChar c).length) none rest).map (c :: ·) := by
  have hvalid : c.toNat < 0xD800 ∨ 0xDFFF < c.toNat ∧ c.toNat < 0x110000 := c.valid
  have hchar : Char.ofNat c.toNat = c := Char.ofNat_toNat c
  unfold encodeChar
  dsimp only
  generalize c.toNat = n at hvalid hchar
  rw [← hchar]
  split
  · rename_i hascii
    exact decodeFrom_ascii hascii
  · rename_i hascii
    split
    · rename_i htwo
      exact decodeFrom_two (by omega) htwo
    · rename_i htwo
      split
      · rename_i hthree
        exact decodeFrom_three (by omega) hthree (by omega)
      · rename_i hthree
        exact decodeFrom_four (by omega) (by omega)

theorem encode_append (cs ds : List Char) : encode (cs ++ ds) = encode cs ++ encode ds :=
  List.flatMap_append

theorem decode_encode (cs : List Char) : decode (encode cs) = .ok cs := by
  have hfrom : ∀ index, decodeFrom index none (encode cs) = .ok cs := by
    induction cs with
    | nil =>
        intro index
        rfl
    | cons c cs ih =>
        intro index
        change decodeFrom index none (encodeChar c ++ encode cs) = _
        rw [decodeFrom_encodeChar, ih]
        rfl
  exact hfrom 0

end Utf8

namespace Percent

theorem isUnreserved_hexDigit : ∀ n < 16, isUnreserved (hexDigit n) = true := by
  decide

theorem toNat_lt_of_isUnreserved {c : Char} (h : isUnreserved c = true) : c.toNat < 0x80 := by
  rcases Bool.or_eq_true_iff.mp h with halnum | hmark
  · have hlast : c.val ≤ 'z'.val := by
      rcases Bool.or_eq_true_iff.mp halnum with hletter | hdigit
      · rcases Bool.or_eq_true_iff.mp hletter with hupper | hlower
        · exact UInt32.le_trans (of_decide_eq_true hupper).2 (by decide)
        · exact of_decide_eq_true (Bool.and_eq_true_iff.mp hlower).2
      · exact UInt32.le_trans (of_decide_eq_true (Bool.and_eq_true_iff.mp hdigit).2) (by decide)
    exact Nat.lt_of_le_of_lt (UInt32.le_iff_toNat_le.mp hlast) (by decide)
  · have hmarks : "-_.!~*'()".toList.all (fun d => decide (d.toNat < 0x80)) = true := by decide
    have hc := List.all_eq_true.mp hmarks c (List.contains_iff_mem.mp hmark)
    exact of_decide_eq_true hc

theorem encode_unreserved {c : Char} (h : isUnreserved c = true) :
    Utf8.encodeChar c = [UInt8.ofNat c.toNat] := by
  rw [Utf8.encodeChar]
  exact if_pos (toNat_lt_of_isUnreserved h)

theorem unescape_cons {b : UInt8} (h : b ≠ 0x25) (rest : List UInt8) :
    unescape (b :: rest) = b :: unescape rest := by
  match rest with
  | [] => rfl
  | [_] => rfl
  | high :: low :: rest =>
      have hescaped : escaped? b high low = none := if_neg h
      rw [unescape, hescaped]

/-- A percent sign and two digits give back the byte. -/
theorem unescape_encodeByte (b : UInt8) (rest : List UInt8) :
    unescape (Utf8.encode (encodeByte b) ++ rest) = b :: unescape rest := by
  have hbyte : ∀ n < 256, escaped? 0x25 (UInt8.ofNat (hexDigit (n / 16)).toNat)
      (UInt8.ofNat (hexDigit (n % 16)).toNat) = some (UInt8.ofNat n) := by
    decide +kernel
  have hlt : b.toNat < 256 := b.toNat_lt
  have hhigh := encode_unreserved (isUnreserved_hexDigit (b.toNat / 16) (by omega))
  have hlow := encode_unreserved (isUnreserved_hexDigit (b.toNat % 16) (by omega))
  have hsign : Utf8.encodeChar '%' = [0x25] := by decide
  simp only [encodeByte, Utf8.encode, List.flatMap_cons, List.flatMap_nil, hsign, hhigh, hlow,
    List.append_nil, List.nil_append, List.cons_append]
  rw [unescape, hbyte b.toNat hlt, UInt8.ofNat_toNat]

theorem unescape_encodeBytes (bytes rest : List UInt8) :
    unescape (Utf8.encode (bytes.flatMap encodeByte) ++ rest) = bytes ++ unescape rest := by
  induction bytes with
  | nil => rfl
  | cons b bytes ih =>
      rw [List.flatMap_cons, Utf8.encode_append, List.append_assoc, unescape_encodeByte, ih,
        List.cons_append]

theorem unescape_encodeChar (c : Char) (rest : List UInt8) :
    unescape (Utf8.encode (encodeChar c) ++ rest) = Utf8.encodeChar c ++ unescape rest := by
  unfold encodeChar
  split
  · rename_i hunreserved
    have hsingle : Utf8.encode [c] = [UInt8.ofNat c.toNat] := by
      change Utf8.encodeChar c ++ [] = _
      rw [List.append_nil, encode_unreserved hunreserved]
    have hne : UInt8.ofNat c.toNat ≠ 0x25 := by
      intro heq
      have hnat := congrArg UInt8.toNat heq
      have hlt := toNat_lt_of_isUnreserved hunreserved
      rw [Utf8.toNat_ofNat (by omega)] at hnat
      have hc : c = '%' := Char.toNat_inj.mp hnat
      rw [hc] at hunreserved
      exact absurd hunreserved (by decide)
    rw [hsingle, List.singleton_append, unescape_cons hne, encode_unreserved hunreserved]
    rfl
  · exact unescape_encodeBytes (Utf8.encodeChar c) rest

theorem decode_encode (s : String) : decode (encode s) = .ok s := by
  have hbytes : ∀ cs : List Char,
      unescape (Utf8.encode (cs.flatMap encodeChar)) = Utf8.encode cs := by
    intro cs
    induction cs with
    | nil => rfl
    | cons c cs ih =>
        rw [List.flatMap_cons, Utf8.encode_append, unescape_encodeChar, ih]
        rfl
  unfold decode encode
  rw [String.toList_ofList, hbytes, Utf8.decode_encode]
  exact congrArg Except.ok String.ofList_toList

/-- The characters that an encoded component takes over. -/
def plainChars : List Char :=
  "ABCDEFGHIJKLMNOPQRSTUVWXYZabcdefghijklmnopqrstuvwxyz0123456789-_.!~*'()".toList

def upperHexDigits : List Char := "0123456789ABCDEF".toList

/-- The form of an encoded component: plain characters, and percent signs with two upper-case digits
each. -/
inductive Component : List Char → Prop
  | nil : Component []
  | plain {c cs} : c ∈ plainChars → Component cs → Component (c :: cs)
  | escape {high low cs} : high ∈ upperHexDigits → low ∈ upperHexDigits → Component cs →
      Component ('%' :: high :: low :: cs)

theorem Component.append {cs ds : List Char} (hcs : Component cs) (hds : Component ds) :
    Component (cs ++ ds) := by
  induction hcs with
  | nil => exact hds
  | plain hc _ ih => exact .plain hc ih
  | escape hhigh hlow _ ih => exact .escape hhigh hlow ih

theorem Component.flatMap {α : Type} {f : α → List Char} (hf : ∀ a, Component (f a))
    (as : List α) : Component (as.flatMap f) := by
  induction as with
  | nil => exact .nil
  | cons a as ih =>
      rw [List.flatMap_cons]
      exact (hf a).append ih

theorem isUnreserved_iff {c : Char} : isUnreserved c = true ↔ c ∈ plainChars := by
  constructor
  · intro h
    have hascii : ∀ n < 0x80, isUnreserved (Char.ofNat n) = true → Char.ofNat n ∈ plainChars := by
      decide +kernel
    have hc := hascii c.toNat (toNat_lt_of_isUnreserved h)
    rw [Char.ofNat_toNat] at hc
    exact hc h
  · intro h
    have hall : plainChars.all isUnreserved = true := by decide
    exact List.all_eq_true.mp hall c h

theorem Component.mem {cs : List Char} (h : Component cs) {c : Char} (hc : c ∈ cs) :
    isUnreserved c = true ∨ c = '%' := by
  have hdigits : upperHexDigits.all isUnreserved = true := by decide
  induction h with
  | nil => cases hc
  | plain hplain _ ih =>
      rcases List.mem_cons.mp hc with rfl | hc
      · exact .inl (isUnreserved_iff.mpr hplain)
      · exact ih hc
  | escape hhigh hlow _ ih =>
      simp only [List.mem_cons] at hc
      rcases hc with rfl | rfl | rfl | hc
      · exact .inr rfl
      · exact .inl (List.all_eq_true.mp hdigits _ hhigh)
      · exact .inl (List.all_eq_true.mp hdigits _ hlow)
      · exact ih hc

theorem hexDigit_mem : ∀ n < 16, hexDigit n ∈ upperHexDigits := by
  decide

theorem component_encodeByte (b : UInt8) : Component (encodeByte b) := by
  have hlt : b.toNat < 256 := b.toNat_lt
  exact .escape (hexDigit_mem _ (by omega)) (hexDigit_mem _ (by omega)) .nil

theorem component_encodeChar (c : Char) : Component (encodeChar c) := by
  unfold encodeChar
  split
  · rename_i hunreserved
    exact .plain (isUnreserved_iff.mp hunreserved) .nil
  · exact .flatMap component_encodeByte _

theorem component_encode (s : String) : Component (encode s).toList := by
  rw [encode, String.toList_ofList]
  exact .flatMap component_encodeChar _

/-- What may stand in an encoded component. -/
theorem mem_encode {s : String} {c : Char} (h : c ∈ (encode s).toList) :
    isUnreserved c = true ∨ c = '%' :=
  (component_encode s).mem h

theorem slash_not_mem_encode (s : String) : '/' ∉ (encode s).toList := by
  intro h
  exact absurd (mem_encode h) (by decide)

theorem encode_ne_empty {s : String} (h : s ≠ "") : (encode s).toList ≠ [] := by
  intro hnil
  have hdecode := decode_encode s
  have hencode : encode s = "" := String.toList_eq_nil_iff.mp hnil
  rw [hencode] at hdecode
  exact h (Except.ok.inj hdecode).symm

theorem encode_inj {s t : String} : encode s = encode t ↔ s = t := by
  constructor
  · intro h
    have hdecode := decode_encode s
    rw [h, decode_encode] at hdecode
    exact (Except.ok.inj hdecode).symm
  · exact congrArg encode

end Percent

end PathPattern.Text

namespace PathPattern

open Text

theorem decodeComponent_encode (value : String) :
    decodeComponent (Percent.encode value) = .ok value := by
  rw [decodeComponent, Percent.decode_encode]
  rfl

/-- The codecs that options come with undo each other. What they write has no slash in it and tells
any two values apart. -/
theorem default_codecs_inverse :
    ({} : Options).encode = some Percent.encode ∧ ({} : Options).decode = some decodeComponent ∧
      ∀ value : String, decodeComponent (Percent.encode value) = .ok value ∧
        Percent.Component (Percent.encode value).toList ∧ '/' ∉ (Percent.encode value).toList ∧
        ∀ other, Percent.encode other = Percent.encode value ↔ other = value := by
  refine ⟨rfl, rfl, ?_⟩
  intro value
  refine ⟨decodeComponent_encode value, Percent.component_encode value,
    Percent.slash_not_mem_encode value, ?_⟩
  intro other
  exact Percent.encode_inj

end PathPattern
