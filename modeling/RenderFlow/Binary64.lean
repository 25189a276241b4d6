/-!
Floating-point numbers of 64 bits, as the exact values that they stand for. A result is the
representable number nearest to the exact one, and of two that are equally near the one whose last
bit is zero; what is larger than every finite number is infinite. Whole numbers of up to 53 bits are
exact, which `ofRat_intCast` and `add_intCast` say.
-/
namespace RenderFlow

/-- The two zeros are one number. -/
inductive Binary64 where
  | finite (value : Rat)
  | infinite (negative : Bool)
  | nan
deriving DecidableEq, Repr

namespace Binary64

instance (n : Nat) : OfNat Binary64 n := ⟨.finite n⟩

instance : NatCast Binary64 := ⟨fun n => .finite n⟩

/-- The quotient as the nearest whole number, a half as the even one. -/
def nearest (num den : Nat) : Nat :=
  let quotient := num / den
  let twice := 2 * (num % den)
  if twice < den then quotient
  else if den < twice then quotient + 1
  else quotient + quotient % 2

def shifted (n : Nat) (exponent : Int) : Nat :=
  n * Nat.pow 2 exponent.toNat

def highestBit (num den : Nat) : Int :=
  let exponent : Int := num.log2 - den.log2
  if shifted num (-exponent) < shifted den exponent then exponent - 1 else exponent

/-- The exponent of the last bit that a positive quotient keeps: it keeps 53 bits, and none below
the smallest number. -/
def lastBit (num den : Nat) : Int :=
  let exponent := highestBit num den - 52
  if exponent < -1074 then -1074 else exponent

def roundQuotient (num den : Nat) : Rat :=
  let exponent := lastBit num den
  let significand := nearest (shifted num (-exponent)) (shifted den exponent)
  mkRat (shifted significand exponent) (shifted 1 (-exponent))

def isShortWhole (q : Rat) : Bool :=
  q.den == 1 && q.num.natAbs ≤ Nat.pow 2 53

def nearestRat (q : Rat) : Rat :=
  if isShortWhole q then q
  else
    let size := roundQuotient q.num.natAbs q.den
    if q.num < 0 then -size else size

def bound : Nat := Nat.pow 2 1024

def isInRange (q : Rat) : Bool :=
  q.num.natAbs < bound * q.den

def ofRat (q : Rat) : Binary64 :=
  let r := nearestRat q
  if isInRange r then .finite r else .infinite (q.num < 0)

def isFinite : Binary64 → Bool
  | .finite _ => true
  | _ => false

def finite? (a : Binary64) : Option Binary64 :=
  if a.isFinite then some a else none

def map (f : Rat → Rat) : Binary64 → Binary64
  | .finite a => ofRat (f a)
  | a => a

def half (a : Binary64) : Binary64 :=
  a.map (· / 2)

def neg : Binary64 → Binary64
  | .finite a => .finite (-a)
  | .infinite negative => .infinite (!negative)
  | .nan => .nan

/-- Infinities of different signs have no sum. -/
def add : Binary64 → Binary64 → Binary64
  | .finite a, .finite b => ofRat (a + b)
  | .finite _, b => b
  | a, .finite _ => a
  | .infinite a, .infinite b => if a == b then .infinite a else .nan
  | _, _ => .nan

def sub (a b : Binary64) : Binary64 :=
  add a b.neg

/-- What is no number is neither smaller nor larger than anything. -/
def isLess : Binary64 → Binary64 → Bool
  | .finite a, .finite b => a < b
  | .finite _, .infinite negative => !negative
  | .infinite negative, .finite _ => negative
  | .infinite a, .infinite b => a && !b
  | _, _ => false

theorem short_lt_bound : Nat.pow 2 53 < bound := by
  unfold bound
  -- The power itself is never worked out.
  generalize largest : 1024 = exponent
  exact Nat.pow_lt_pow_right (Nat.lt_succ_self 1) (by omega)

theorem ofRat_intCast {n : Int} (short : n.natAbs ≤ Nat.pow 2 53) :
    ofRat (n : Rat) = .finite n := by
  have whole : isShortWhole (n : Rat) = true := by
    simp only [isShortWhole, Rat.den_intCast, Rat.num_intCast, beq_self_eq_true, Bool.true_and]
    exact decide_eq_true short
  have within : isInRange (n : Rat) = true := by
    simp only [isInRange, Rat.den_intCast, Rat.num_intCast, Nat.mul_one]
    exact decide_eq_true (Nat.lt_of_le_of_lt short short_lt_bound)
  rw [ofRat, nearestRat, if_pos whole]
  exact if_pos within

theorem add_intCast {m n : Int} (sum : (m + n).natAbs ≤ Nat.pow 2 53) :
    add (.finite m) (.finite n) = .finite ((m + n : Int) : Rat) := by
  rw [add, ← Rat.intCast_add, ofRat_intCast sum]

end Binary64

end RenderFlow
