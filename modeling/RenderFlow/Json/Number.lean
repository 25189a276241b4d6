import RenderFlow.Decimal
import RenderFlow.Text.Blank

/-!
Numbers as text. A field that asks for a number also takes a text that spells one: with white space
around it, with single underscores between the digits and, for a whole number, with zeros in front
and a fraction of zeros behind.
-/
namespace RenderFlow.NumberText

/-- The most digits that a whole number may be spelled with; a sign does not count. -/
def maxDigits : Nat := 4300

def trim (isBlank : Char → Bool) (cs : List Char) : List Char :=
  ((cs.dropWhile isBlank).reverse.dropWhile isBlank).reverse

def sign : List Char → Bool × List Char
  | '-' :: rest => (true, rest)
  | '+' :: rest => (false, rest)
  | cs => (false, cs)

def value (digits : List Char) : Nat :=
  digits.foldl (fun n c => 10 * n + (c.toNat - '0'.toNat)) 0

def signed (negative : Bool) (n : Nat) : Int :=
  if negative then -n else n

def withoutUnderscores? (cs : List Char) : Option (List Char) :=
  if cs.head? == some '_' || cs.getLast? == some '_' || hasTwo cs then none
  else some (cs.filter (· != '_'))
where
  hasTwo : List Char → Bool
    | '_' :: '_' :: _ => true
    | _ :: rest => hasTwo rest
    | [] => false

/-- Looks for the end of the zeros after one of them. The zeros may be mixed with underscores, a
number of its own may follow, and in front of a point the last of them stays. -/
def afterZero (last : Char) : List Char → Option (List Char)
  | [] => some [last]
  | '.' :: rest => some (last :: '.' :: rest)
  | c :: rest =>
    if c == '0' || c == '_' then afterZero c rest
    else if c.isDigit || c == '-' then some (c :: rest)
    else none

def withoutLeadingZeros? : List Char → Option (List Char)
  | [] => none
  | c :: rest => if c == '0' then afterZero c rest else if c.isDigit then some (c :: rest) else none

def withoutZeroFraction (cs : List Char) : List Char :=
  match cs.dropWhile (· != '.') with
  | _ :: c :: fraction =>
    if (c :: fraction).all (· == '0') then cs.takeWhile (· != '.') else cs
  | _ => cs

def isCanonical (digits : List Char) : Bool :=
  !digits.isEmpty && digits.all Char.isDigit && (digits.head? != some '0' || digits.length == 1)

def canonical? (cs : List Char) : Option Int :=
  let (negative, digits) :=
    match cs with
    | '-' :: rest => (true, rest)
    | cs => (false, cs)
  if isCanonical digits && digits.length ≤ maxDigits then some (signed negative (value digits))
  else none

def whole? (s : String) : Option Int := do
  let (negative, cs) := sign (trim isWhiteSpace s.toList)
  let cs ← withoutLeadingZeros? cs
  let cs := (if negative then ['-'] else []) ++ withoutZeroFraction cs
  canonical? (← withoutUnderscores? cs)

def isExponentMark (c : Char) : Bool :=
  c == 'e' || c == 'E'

def allDigits? (cs : List Char) : Option (List Char) :=
  if cs.all Char.isDigit then some cs else none

def exponent? : List Char → Option Int
  | [] => some 0
  | _ :: rest => do
    let (negative, cs) := sign rest
    guard !cs.isEmpty
    return signed negative (value (← allDigits? cs))

/-- Digits with a point among them or at one of their ends, and an exponent. -/
def size? (cs : List Char) : Option Decimal := do
  let mantissa := cs.takeWhile (!isExponentMark ·)
  let left ← allDigits? (mantissa.takeWhile (· != '.'))
  let right ← allDigits? ((mantissa.dropWhile (· != '.')).drop 1)
  guard !(left.isEmpty && right.isEmpty)
  let power ← exponent? (cs.dropWhile (!isExponentMark ·))
  return ⟨value (left ++ right), power - right.length⟩

def withSign? (read : List Char → Option Binary64) (cs : List Char) : Option Binary64 :=
  let (negative, cs) := sign cs
  (read cs).map fun size => if negative then size.neg else size

def decimal? : List Char → Option Binary64 :=
  withSign? fun cs => (size? cs).map Decimal.nearest

def sizeOfName? (name : String) : Option Binary64 :=
  if name == "inf" || name == "infinity" then some (.infinite false)
  else if name == "nan" then some .nan
  else none

def named? : List Char → Option Binary64 :=
  withSign? fun cs => sizeOfName? (String.ofList (cs.map Char.toLower))

/-- White space and underscores do not go together. -/
def real? (s : String) : Option Binary64 :=
  let read (cs : List Char) := (decimal? cs).or (named? cs)
  (read (trim isWhiteSpace s.toList)).or ((withoutUnderscores? s.toList).bind read)

end RenderFlow.NumberText
