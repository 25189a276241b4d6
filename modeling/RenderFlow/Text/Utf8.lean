/-!
Text as code points and as UTF-8 bytes. A surrogate is a code point but no character: cleaning and
encoding write a question mark for it, and decoding takes each character in its shortest form only.
-/
namespace RenderFlow

/-- A number below the end of Unicode; unlike a `Char` it may be a surrogate. -/
abbrev CodePoint := Fin 0x110000

abbrev RawText := List CodePoint

def CodePoint.ofChar (c : Char) : CodePoint :=
  ⟨c.toNat, by
    rcases c.valid with h | h
    · exact Nat.lt_trans h (by decide)
    · exact h.2⟩

def CodePoint.toChar (p : CodePoint) : Char :=
  if p.val.isValidChar then Char.ofNat p.val else '?'

def RawText.ofString (s : String) : RawText :=
  s.toList.map CodePoint.ofChar

def RawText.clean (t : RawText) : String :=
  String.ofList (t.map CodePoint.toChar)

namespace Utf8

def encodeScalar (n : Nat) : List UInt8 :=
  if n < 0x80 then
    [.ofNat n]
  else if n < 0x800 then
    [.ofNat (0xC0 + n / 0x40), .ofNat (0x80 + n % 0x40)]
  else if n < 0x10000 then
    [.ofNat (0xE0 + n / 0x1000), .ofNat (0x80 + n / 0x40 % 0x40), .ofNat (0x80 + n % 0x40)]
  else
    [.ofNat (0xF0 + n / 0x40000), .ofNat (0x80 + n / 0x1000 % 0x40),
      .ofNat (0x80 + n / 0x40 % 0x40), .ofNat (0x80 + n % 0x40)]

def lead? (b : UInt8) : Option (Nat × Nat) :=
  let n := b.toNat
  if n < 0x80 then some (n, 0)
  else if n < 0xC0 then none
  else if n < 0xE0 then some (n - 0xC0, 1)
  else if n < 0xF0 then some (n - 0xE0, 2)
  else if n < 0xF8 then some (n - 0xF0, 3)
  else none

def gather? (high : Nat) : List UInt8 → Option Nat
  | [] => some high
  | b :: rest =>
    if 0x80 ≤ b.toNat ∧ b.toNat < 0xC0 then gather? (high * 0x40 + (b.toNat - 0x80)) rest else none

/-- The scalar at the front of the bytes, with the number of bytes that continue it. Writing it
again has to take as many bytes, which rules out the longer spellings. -/
def scalar? (first : UInt8) (rest : List UInt8) : Option (Nat × Nat) := do
  let (high, more) ← lead? first
  let n ← gather? high (rest.take more)
  if n.isValidChar ∧ more ≤ rest.length ∧ (encodeScalar n).length = more + 1 then
    some (n, more)
  else
    none

def decode? (bytes : List UInt8) : Option (List Char) :=
  match bytes with
  | [] => some []
  | first :: rest =>
    match scalar? first rest with
    | none => none
    | some (n, more) => (decode? (rest.drop more)).map (Char.ofNat n :: ·)
termination_by bytes.length
decreasing_by
  simp only [List.length_drop, List.length_cons]
  omega

/-- The text between two byte offsets; offsets that cut a character give no text. -/
def textBetween? (bytes : List UInt8) (start stop : Nat) : Option String :=
  (decode? ((bytes.drop start).take (stop - start))).map String.ofList

end Utf8

def RawText.encode (t : RawText) : List UInt8 :=
  t.flatMap fun p => Utf8.encodeScalar p.toChar.toNat

end RenderFlow
