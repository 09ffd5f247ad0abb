/-!
UTF-8: the bytes of a text, and the text of bytes. A reader that meets bytes of no text says where
the first bad sequence starts and how long it is.
-/
namespace PathPattern.Text.Utf8

/-- Why bytes are no text. -/
inductive Fault where
  /-- The bytes end inside a sequence that starts at `index` and is valid so far. -/
  | incomplete (index : Nat)
  /-- The first `length` bytes from `index` on could begin a character, and the next byte cannot
  follow them; a byte that begins no character counts as one. -/
  | invalid (length index : Nat)
  deriving DecidableEq, Repr

def Fault.message : Fault → String
  | .incomplete index => s!"incomplete utf-8 byte sequence from index {index}"
  | .invalid length index => s!"invalid utf-8 sequence of {length} bytes from index {index}"

/-- The one to four bytes of a character. -/
def encodeChar (c : Char) : List UInt8 :=
  let n := c.toNat
  if n < 0x80 then [UInt8.ofNat n]
  else if n < 0x800 then [UInt8.ofNat (0xC0 + n / 0x40), UInt8.ofNat (0x80 + n % 0x40)]
  else if n < 0x10000 then
    [UInt8.ofNat (0xE0 + n / 0x1000), UInt8.ofNat (0x80 + n / 0x40 % 0x40),
      UInt8.ofNat (0x80 + n % 0x40)]
  else
    [UInt8.ofNat (0xF0 + n / 0x40000), UInt8.ofNat (0x80 + n / 0x1000 % 0x40),
      UInt8.ofNat (0x80 + n / 0x40 % 0x40), UInt8.ofNat (0x80 + n % 0x40)]

def encode (cs : List Char) : List UInt8 := cs.flatMap encodeChar

/-- The number of bytes of a text. -/
def size (cs : List Char) : Nat := (encode cs).length

/-- A character of which `more` bytes are still to come. The next one lies from `low` to `high`. -/
structure Unfinished where
  value : Nat
  more : Nat
  low : Nat
  high : Nat

/-- What a first byte begins, if anything. The bounds on the second byte exclude overlong forms,
surrogates and numbers above the last code point. -/
def lead? (b : UInt8) : Option Unfinished :=
  let n := b.toNat
  if n < 0x80 then some ⟨n, 0, 0x80, 0xBF⟩
  else if n < 0xC2 then none
  else if n < 0xE0 then some ⟨n - 0xC0, 1, 0x80, 0xBF⟩
  else if n < 0xF0 then
    some ⟨n - 0xE0, 2, if n = 0xE0 then 0xA0 else 0x80, if n = 0xED then 0x9F else 0xBF⟩
  else if n < 0xF5 then
    some ⟨n - 0xF0, 3, if n = 0xF0 then 0x90 else 0x80, if n = 0xF4 then 0x8F else 0xBF⟩
  else none

/-- The character with one more byte, if that byte can follow. -/
def Unfinished.next? (p : Unfinished) (b : UInt8) : Option Unfinished :=
  let n := b.toNat
  if p.low ≤ n ∧ n ≤ p.high then some ⟨p.value * 0x40 + (n - 0x80), p.more - 1, 0x80, 0xBF⟩
  else none

/-- Reads bytes from the middle of a text: `index` is the place of the next byte, and `pending` is
the place where an unfinished character began together with that character. -/
def decodeFrom (index : Nat) (pending : Option (Nat × Unfinished)) :
    List UInt8 → Except Fault (List Char)
  | [] =>
    match pending with
    | none => .ok []
    | some (start, _) => .error (.incomplete start)
  | b :: rest =>
    let start := (pending.map Prod.fst).getD index
    match pending.elim (lead? b) fun p => p.2.next? b with
    | none => .error (.invalid (max 1 (index - start)) start)
    | some p =>
      if p.more = 0 then do
        let cs ← decodeFrom (index + 1) none rest
        return Char.ofNat p.value :: cs
      else decodeFrom (index + 1) (some (start, p)) rest

/-- The text of the bytes. -/
def decode (bytes : List UInt8) : Except Fault (List Char) := decodeFrom 0 none bytes

end PathPattern.Text.Utf8
