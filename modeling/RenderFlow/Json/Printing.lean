import RenderFlow.Decimal
import RenderFlow.Json.Value

/-!
JSON as indented text in ASCII alone: one item a line, two blanks a level, and an escape for every
character outside the printable ones.
-/
namespace RenderFlow.Json

def padLeft (width : Nat) (cs : List Char) : List Char :=
  List.replicate (width - cs.length) '0' ++ cs

def printPoint (digits : List Char) (place : Int) : List Char :=
  if place < 0 then '0' :: '.' :: List.replicate (-place - 1).toNat '0' ++ digits
  else
    let whole := place.toNat + 1
    let fraction := digits.drop whole
    digits.take whole ++ List.replicate (whole - digits.length) '0' ++
      '.' :: (if fraction.isEmpty then ['0'] else fraction)

def printExponent (digits : List Char) (place : Int) : List Char :=
  let fraction := digits.drop 1
  digits.take 1 ++ (if fraction.isEmpty then [] else '.' :: fraction) ++
    'e' :: (if place < 0 then '-' else '+') :: padLeft 2 (toString place.natAbs).toList

/-- Without an exponent there are at most sixteen digits in front of the point, or at most four zeros
in front of the digits. -/
def printSize (size : Rat) : List Char :=
  if size == 0 then ['0', '.', '0']
  else
    let (digits, place) := (Decimal.shortest size).scientific
    if place < -4 || 16 ≤ place then printExponent digits place else printPoint digits place

def printReal (infinity nan : String) : Binary64 → String
  | .finite q =>
    (if q.num < 0 then "-" else "") ++ String.ofList (printSize (if q.num < 0 then -q else q))
  | .infinite negative => (if negative then "-" else "") ++ infinity
  | .nan => nan

def hexDigits (n : Nat) : List Char :=
  padLeft 4 (Nat.toDigits 16 n)

def escapeUnit (n : Nat) : List Char :=
  '\\' :: 'u' :: hexDigits n

/-- A character beyond the first 65536 is written as two units. -/
def escapeChar (c : Char) : List Char :=
  match c with
  | '\x22' => ['\\', '\x22']
  | '\\' => ['\\', '\\']
  | '\n' => ['\\', 'n']
  | '\r' => ['\\', 'r']
  | '\t' => ['\\', 't']
  | '\x08' => ['\\', 'b']
  | '\x0c' => ['\\', 'f']
  | c =>
    if ' ' ≤ c ∧ c ≤ '~' then [c]
    else if c.toNat < 0x10000 then escapeUnit c.toNat
    else
      let offset := c.toNat - 0x10000
      escapeUnit (0xD800 + offset / 0x400) ++ escapeUnit (0xDC00 + offset % 0x400)

def printText (s : String) : String :=
  "\x22" ++ String.ofList (s.toList.flatMap escapeChar) ++ "\x22"

def newline (depth : Nat) : String :=
  String.ofList ('\n' :: List.replicate (2 * depth) ' ')

mutual

def printAt (depth : Nat) : Json → String
  | .null => "null"
  | .bool b => if b then "true" else "false"
  | .int n => toString n
  | .real a => printReal "Infinity" "NaN" a
  | .minusZero => "-0.0"
  | .text s => printText s
  | .list [] => "[]"
  | .list (item :: rest) =>
    "[" ++ newline (depth + 1) ++ printAt (depth + 1) item ++ printItems (depth + 1) rest
      ++ newline depth ++ "]"
  | .object [] => "\x7b\x7d"
  | .object ((key, value) :: rest) =>
    "\x7b" ++ newline (depth + 1) ++ printText key ++ ": " ++ printAt (depth + 1) value
      ++ printFields (depth + 1) rest ++ newline depth ++ "\x7d"

def printItems (depth : Nat) : List Json → String
  | [] => ""
  | item :: rest => "," ++ newline depth ++ printAt depth item ++ printItems depth rest

def printFields (depth : Nat) : List (String × Json) → String
  | [] => ""
  | (key, value) :: rest =>
    "," ++ newline depth ++ printText key ++ ": " ++ printAt depth value ++ printFields depth rest

end

def print (j : Json) : String :=
  printAt 0 j

end RenderFlow.Json
