/-!
# Decimals and doubles

The double nearest to a decimal, by exact arithmetic: the value is a fraction of natural numbers,
scaled to a whole number of the last place and rounded, a tie going to the even neighbour.
-/

namespace Vernacular

/-- The number `digits * 10 ^ exponent`. -/
structure Decimal where
  digits : Nat
  exponent : Int
deriving DecidableEq, Repr

namespace Decimal

/-- The nearest whole number to `num / den`, a tie going to the even one. -/
def roundDiv (num den : Nat) : Nat :=
  let whole := num / den
  let twice := 2 * (num % den)
  if den < twice ∨ (twice = den ∧ whole % 2 = 1) then whole + 1 else whole

/-- `num / den / 2 ^ scale` as a fraction of natural numbers. -/
def scaled (num den : Nat) (scale : Int) : Nat × Nat :=
  if scale < 0 then (num <<< (-scale).toNat, den) else (num, den <<< scale.toNat)

/-- The power of two of the last place of a double near `num / den`: the quotient then has 53 bits,
or fewer when the last place is the smallest there is. -/
def lastPlace (num den : Nat) : Int :=
  let guess := (num.log2 : Int) - den.log2 - 53
  let (n, d) := scaled num den guess
  max (-1074) (if n / d < 1 <<< 53 then guess else guess + 1)

def infinityBits : Nat := 0x7FF0000000000000

/-- The bits of the double nearest to `num / den`, for positive `num` and `den`.  Adding the places
to the exponent makes a carry out of the fraction come out right. -/
def fractionBits (num den : Nat) : Nat :=
  let place := lastPlace num den
  let (n, d) := scaled num den place
  min infinityBits ((place + 1074).toNat <<< 52 + roundDiv n d)

def digitCount (n : Nat) : Nat := (Nat.toDigits 10 n).length

/-- The bits of the nearest double.  Numbers beyond 10 ^ 310 are infinite and those below
10 ^ -330 are zero, whatever their digits. -/
def nearestBits (d : Decimal) : Nat :=
  let magnitude := (digitCount d.digits : Int) + d.exponent
  if d.digits = 0 ∨ magnitude < -330 then 0
  else if 310 < magnitude then infinityBits
  else if d.exponent < 0 then fractionBits d.digits (Nat.pow 10 (-d.exponent).toNat)
  else fractionBits (d.digits * Nat.pow 10 d.exponent.toNat) 1

/-- The double nearest to a decimal with a sign, as its 64 bits. -/
def toDouble (negative : Bool) (d : Decimal) : UInt64 :=
  UInt64.ofNat (d.nearestBits + if negative then 0x8000000000000000 else 0)

end Decimal

end Vernacular
