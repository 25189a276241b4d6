import RenderFlow.Json.Number
import RenderFlow.Text.DecimalDigit

/-!
Whole numbers as typed on a command line: digits of any script, with a sign, single underscores
between the digits and blanks around them.
-/
namespace RenderFlow.CommandLine

def plainChar (c : Char) : Char :=
  if c.toNat < 127 then c
  else if inRanges blankRanges c.toNat then ' '
  else
    match Text.digitValue? c with
    | some d => Char.ofNat ('0'.toNat + d)
    | none => c

def isPlainBlank (c : Char) : Bool :=
  c == ' ' || ('\t' ≤ c && c ≤ '\r')

/-- The digits of a run, with single underscores between them. -/
def digits? : List Char → Option (List Char)
  | [] => none
  | [c] => if c.isDigit then some [c] else none
  | c :: '_' :: rest => if c.isDigit then (digits? rest).map (c :: ·) else none
  | c :: rest => if c.isDigit then (digits? rest).map (c :: ·) else none

def integer? (s : String) : Option Int := do
  let plain := NumberText.trim isPlainBlank (s.toList.map plainChar)
  let (negative, cs) := NumberText.sign plain
  let digits ← digits? cs
  guard (digits.length ≤ NumberText.maxDigits)
  return NumberText.signed negative (NumberText.value digits)

end RenderFlow.CommandLine
