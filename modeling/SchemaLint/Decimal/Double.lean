/-!
# Doubles

A double is a sign with a mantissa times a power of two, an infinity, or not a
number. The mantissa has at most 53 bits and the exponent is at least -1074;
`Double.round` brings a ratio of naturals into this form, to the nearest double
and to the even mantissa when two are equally near.
-/

namespace SchemaLint.Decimal

inductive Double
  | finite (negative : Bool) (mantissa : Nat) (exponent : Int)
  | infinite (negative : Bool)
  | notANumber
deriving DecidableEq, Repr

namespace Double

def leastExponent : Int := -1074
def greatestExponent : Int := 971

def zero (negative : Bool) : Double := .finite negative 0 leastExponent

def isZero : Double → Bool
  | .finite _ mantissa _ => mantissa == 0
  | _ => false

def isFinite : Double → Bool
  | .finite .. => true
  | _ => false

/-- The quotient to the nearest natural, an exact half to the even one. -/
def divideToEven (numerator denominator : Nat) : Nat :=
  let quotient := numerator / denominator
  let twice := 2 * (numerator % denominator)
  if twice < denominator then quotient
  else if denominator < twice then quotient + 1
  else quotient + quotient % 2

def scaleDown (numerator denominator : Nat) (exponent : Int) : Nat × Nat :=
  (numerator * Nat.pow 2 (-exponent).toNat,
    denominator * Nat.pow 2 exponent.toNat)

/-- The exponent at which the ratio has a mantissa of 53 bits, unless it is too
small for that. -/
def fittingExponent (numerator denominator : Nat) : Int :=
  let estimate : Int := (numerator.log2 : Int) - (denominator.log2 : Int) - 53
  let (n, d) := scaleDown numerator denominator estimate
  max (if n / d < Nat.pow 2 53 then estimate else estimate + 1) leastExponent

def round (negative : Bool) (numerator denominator : Nat) : Double :=
  if numerator = 0 then zero negative
  else
    let exponent := fittingExponent numerator denominator
    let (n, d) := scaleDown numerator denominator exponent
    let mantissa := divideToEven n d
    let (mantissa, exponent) :=
      if mantissa = Nat.pow 2 53 then (Nat.pow 2 52, exponent + 1)
      else (mantissa, exponent)
    if greatestExponent < exponent then .infinite negative
    else .finite negative mantissa exponent

def ratio : Double → Nat × Nat
  | .finite _ mantissa exponent =>
    (mantissa * Nat.pow 2 exponent.toNat, Nat.pow 2 (-exponent).toNat)
  | _ => (0, 1)

def ofNat (n : Nat) : Double := round false n 1

def ofInt (n : Int) : Double := round (n < 0) n.natAbs 1

def scaleUpBy (x y : Double) : Double :=
  let (a, b) := x.ratio
  let (c, d) := y.ratio
  round false (a * c) (b * d)

def scaleDownBy (x y : Double) : Double :=
  let (a, b) := x.ratio
  let (c, d) := y.ratio
  round false (a * d) (b * c)

def withSign (negative : Bool) : Double → Double
  | .finite _ mantissa exponent => .finite negative mantissa exponent
  | .infinite _ => .infinite negative
  | .notANumber => .notANumber

def greatestPowerOfTen : Nat := 308

/-- Divides by ten `count` times in as few rounded steps as the powers of ten
allow. -/
def divideByTens (x : Double) (count : Nat) : Double :=
  if x.isZero then x
  else if greatestPowerOfTen < count then
    divideByTens (x.scaleDownBy (ofNat (Nat.pow 10 greatestPowerOfTen)))
      (count - greatestPowerOfTen)
  else x.scaleDownBy (ofNat (Nat.pow 10 count))
termination_by count
decreasing_by simp only [greatestPowerOfTen] at *; omega

/-- Reads `significand * 10 ^ exponent` by scaling the rounded significand with
a rounded power of ten. There is no result when the magnitude is beyond the
greatest double. -/
def ofScaled (negative : Bool) (significand : Nat) (exponent : Int) :
    Option Double :=
  let start := ofNat significand
  match exponent with
  | .ofNat count =>
    if start.isZero then some (zero negative)
    else if greatestPowerOfTen < count then none
    else
      let result := start.scaleUpBy (ofNat (Nat.pow 10 count))
      if result.isFinite then some (result.withSign negative) else none
  | .negSucc count => some ((divideByTens start (count + 1)).withSign negative)

/-- Reads `significand * 10 ^ exponent` to the nearest double. Exponents that
leave no doubt about zero or infinity are not computed. -/
def ofDecimal (negative : Bool) (significand : Nat) (exponent : Int) : Double :=
  let magnitude : Int := exponent + (Nat.toDigits 10 significand).length
  if significand = 0 then zero negative
  else if 400 < magnitude then .infinite negative
  else if magnitude < -400 then zero negative
  else
    round negative (significand * Nat.pow 10 exponent.toNat)
      (Nat.pow 10 (-exponent).toNat)

end Double

end SchemaLint.Decimal
