import RenderFlow.Text.Utf8

/-!
White space. A text is blank when it holds nothing but Unicode's white space and the control
characters that separate units of data.
-/
namespace RenderFlow

def inRanges (ranges : List (Nat × Nat)) (n : Nat) : Bool :=
  ranges.any fun r => r.1 ≤ n && n ≤ r.2

def whiteSpaceRanges : List (Nat × Nat) := [
  (0x09, 0x0D), (0x20, 0x20), (0x85, 0x85), (0xA0, 0xA0), (0x1680, 0x1680), (0x2000, 0x200A),
  (0x2028, 0x2029), (0x202F, 0x202F), (0x205F, 0x205F), (0x3000, 0x3000)]

def separatorRange : Nat × Nat := (0x1C, 0x1F)

def blankRanges : List (Nat × Nat) :=
  separatorRange :: whiteSpaceRanges

def isWhiteSpace (c : Char) : Bool :=
  inRanges whiteSpaceRanges c.toNat

def CodePoint.isBlank (p : CodePoint) : Bool :=
  inRanges blankRanges p.val

def RawText.isBlank (t : RawText) : Bool :=
  t.all CodePoint.isBlank

end RenderFlow
