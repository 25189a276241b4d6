import RenderFlow.Binary64

/-!
Decimals, which are whole numbers times powers of ten. A floating-point number is written as the
shortest decimal that reads back as it: no decimal with fewer digits is tried after one that does, and
what is found reads back, which `readsBack_of_withDigits?` says.
-/
namespace RenderFlow

structure Decimal where
  digits : Nat
  power : Int
deriving DecidableEq, Repr

namespace Decimal

def rat (d : Decimal) : Rat :=
  let unit := Nat.pow 10 d.power.natAbs
  if d.power < 0 then mkRat d.digits unit else mkRat (d.digits * unit) 1

def length (n : Nat) : Nat :=
  (Nat.toDigits 10 n).length

/-- The nearest floating-point number. What has more than 400 places in front of the point is too
large for a finite one, and what starts more than 400 places behind it counts as zero. -/
def nearest (d : Decimal) : Binary64 :=
  let places := length d.digits + d.power
  if d.digits == 0 then 0
  else if places > 400 then .infinite false
  else if places < -400 then 0
  else .ofRat d.rat

def shifted (n : Nat) (power : Int) : Nat :=
  n * Nat.pow 10 power.toNat

def firstPlace (q : Rat) : Int :=
  let place : Int := length q.num.natAbs - length q.den
  if shifted q.num.natAbs (-place) < shifted q.den place then place - 1 else place

def readsBack (q : Rat) (d : Decimal) : Bool :=
  d.nearest == .finite q

def nearer (low high : Decimal) (rest den : Nat) : Decimal :=
  if 2 * rest < den then low
  else if den < 2 * rest then high
  else if low.digits % 2 = 0 then low
  else high

/-- The decimal with so many digits that reads back as a positive number, if there is one. -/
def withDigits? (q : Rat) (count : Nat) : Option Decimal :=
  let power := firstPlace q + 1 - count
  let num := shifted q.num.natAbs (-power)
  let den := shifted q.den power
  let low : Decimal := ⟨num / den, power⟩
  let high : Decimal := ⟨num / den + 1, power⟩
  let near := nearer low high (num % den) den
  [near, low, high].find? (readsBack q)

/-- Seventeen digits are enough for every floating-point number. -/
def shortest (q : Rat) : Decimal :=
  ((List.range 17).findSome? fun n => withDigits? q (n + 1)).getD ⟨0, 0⟩

theorem readsBack_of_withDigits? {q : Rat} {count : Nat} {d : Decimal}
    (found : withDigits? q count = some d) : d.nearest = .finite q :=
  eq_of_beq (show readsBack q d = true from List.find?_some found)

def scientific (d : Decimal) : List Char × Int :=
  let digits := Nat.toDigits 10 d.digits
  ((digits.reverse.dropWhile (· == '0')).reverse, d.power + digits.length - 1)

end Decimal

end RenderFlow
