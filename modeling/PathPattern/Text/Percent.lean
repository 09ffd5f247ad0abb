import PathPattern.Text.Utf8

/-!
Percent encoding of a path component: every byte outside a small set of ASCII characters is written
as a percent sign and two hexadecimal digits.
-/
namespace PathPattern.Text.Percent

/-- The characters that stand for themselves. -/
def isUnreserved (c : Char) : Bool := c.isAlphanum || "-_.!~*'()".toList.contains c

/-- An upper-case hexadecimal digit. -/
def hexDigit (n : Nat) : Char := Char.ofNat (if n < 10 then 0x30 + n else 0x41 + (n - 10))

def encodeByte (b : UInt8) : List Char := ['%', hexDigit (b.toNat / 16), hexDigit (b.toNat % 16)]

def encodeChar (c : Char) : List Char :=
  if isUnreserved c then [c] else (Utf8.encodeChar c).flatMap encodeByte

/-- The component with every other byte percent-encoded. -/
def encode (s : String) : String := String.ofList (s.toList.flatMap encodeChar)

/-- The value of a hexadecimal digit of either case. -/
def hexValue? (b : UInt8) : Option Nat :=
  let n := b.toNat
  if 0x30 ≤ n ∧ n ≤ 0x39 then some (n - 0x30)
  else if 0x41 ≤ n ∧ n ≤ 0x46 then some (n - 0x37)
  else if 0x61 ≤ n ∧ n ≤ 0x66 then some (n - 0x57)
  else none

/-- The byte that a percent sign and two digits stand for. -/
def escaped? (sign high low : UInt8) : Option UInt8 :=
  if sign = 0x25 then do
    let h ← hexValue? high
    let l ← hexValue? low
    return UInt8.ofNat (16 * h + l)
  else none

/-- Replaces every escape by its byte. A percent sign without two digits stays. -/
def unescape : List UInt8 → List UInt8
  | sign :: high :: low :: rest =>
    match escaped? sign high low with
    | some b => b :: unescape rest
    | none => sign :: unescape (high :: low :: rest)
  | bytes => bytes

/-- The component with its escapes undone, which must be a text again. -/
def decode (s : String) : Except Utf8.Fault String := do
  let cs ← Utf8.decode (unescape (Utf8.encode s.toList))
  return String.ofList cs

end PathPattern.Text.Percent
