import SchemaLint.Decimal.Double

/-!
# Shortest decimals

The decimal of fewest digits that reads back as a given double, and of those the
nearest. A double stands for the reals that round to it: the interval that ends
halfway to its neighbours, ends included when the mantissa is even. Below a
power of two the neighbour is half as far away. All comparisons are exact.
-/

namespace SchemaLint.Decimal

structure Scaled where
  digits : Nat
  exponent : Int
deriving DecidableEq, Repr

inductive Tie
  | up
  | toEven
deriving DecidableEq, Repr

def compareScaled (a : Nat) (i : Int) (b : Nat) (j : Int) : Ordering :=
  compare (a * Nat.pow 10 i.toNat * Nat.pow 2 (-j).toNat)
    (b * Nat.pow 2 j.toNat * Nat.pow 10 (-i).toNat)

/-- Whether the decimal lies among the reals that round to
`mantissa * 2 ^ exponent`. -/
def readsBack (mantissa : Nat) (exponent : Int) (decimal : Scaled) : Bool :=
  let narrow := mantissa == Nat.pow 2 52 && Double.leastExponent < exponent
  let low := if narrow then 4 * mantissa - 1 else 4 * mantissa - 2
  let high := 4 * mantissa + 2
  let inclusive := mantissa % 2 == 0
  let fromLow :=
    compareScaled decimal.digits decimal.exponent low (exponent - 2)
  let fromHigh :=
    compareScaled decimal.digits decimal.exponent high (exponent - 2)
  (fromLow == .gt || (inclusive && fromLow == .eq)) &&
    (fromHigh == .lt || (inclusive && fromHigh == .eq))

/-- The greatest `k` with `10 ^ k` at most `mantissa * 2 ^ exponent`, estimated
from the binary logarithm and corrected by comparison. -/
def decimalExponent (mantissa : Nat) (exponent : Int) : Int :=
  let estimate := ((mantissa.log2 : Int) + exponent) * 30103 / 100000
  if compareScaled 1 (estimate + 1) mantissa exponent != .gt then estimate + 1
  else if compareScaled 1 estimate mantissa exponent == .gt then estimate - 1
  else estimate

/-- The nearest decimal on the grid `10 ^ grid` that reads back, if one of the
two neighbours does. -/
def onGrid? (tie : Tie) (mantissa : Nat) (exponent grid : Int) :
    Option Scaled :=
  let numerator :=
    mantissa * Nat.pow 2 exponent.toNat * Nat.pow 10 (-grid).toNat
  let denominator := Nat.pow 2 (-exponent).toNat * Nat.pow 10 grid.toNat
  let below := numerator / denominator
  let down : Scaled := ⟨below, grid⟩
  let up : Scaled := ⟨below + 1, grid⟩
  match readsBack mantissa exponent down, readsBack mantissa exponent up with
  | true, false => some down
  | false, true => some up
  | false, false => none
  | true, true =>
    match compare (2 * (numerator % denominator)) denominator, tie with
    | .lt, _ => some down
    | .gt, _ => some up
    | .eq, .up => some up
    | .eq, .toEven => if below % 2 == 0 then some down else some up

def Scaled.stripZeros (decimal : Scaled) : Scaled :=
  if h : decimal.digits ≠ 0 ∧ decimal.digits % 10 = 0 then
    Scaled.stripZeros ⟨decimal.digits / 10, decimal.exponent + 1⟩
  else decimal
termination_by decimal.digits
decreasing_by exact Nat.div_lt_self (Nat.pos_of_ne_zero h.1) (by decide)

/-- The shortest decimal of `mantissa * 2 ^ exponent`, for a positive mantissa.
Should no grid of seventeen digits hold one, the exact decimal is taken. -/
def shortest (tie : Tie) (mantissa : Nat) (exponent : Int) : Scaled :=
  let leading := decimalExponent mantissa exponent
  let found :=
    (List.range 17).findSome? fun (count : Nat) =>
      onGrid? tie mantissa exponent (leading - count)
  (found.getD ⟨mantissa * Nat.pow 2 exponent.toNat *
      Nat.pow 5 (-exponent).toNat, min exponent 0⟩).stripZeros

private def zeros (count : Nat) : List Char := List.replicate count '0'

/-- Digits with a point, or with zeros for the places that no digit covers. -/
def positional (decimal : Scaled) : List Char :=
  let digits := Nat.toDigits 10 decimal.digits
  match decimal.exponent with
  | .ofNat count => digits ++ zeros count
  | .negSucc count =>
    let places := count + 1
    if places < digits.length then
      digits.take (digits.length - places) ++ '.' ::
        digits.drop (digits.length - places)
    else '0' :: '.' :: zeros (places - digits.length) ++ digits

def exponentText (exponent : Int) : List Char :=
  if exponent < 0 then (toString exponent).toList
  else '+' :: (toString exponent).toList

def scientific (decimal : Scaled) : List Char :=
  let digits := Nat.toDigits 10 decimal.digits
  let exponent := decimal.exponent + (digits.length : Int) - 1
  let fraction := if digits.length = 1 then [] else '.' :: digits.drop 1
  digits.take 1 ++ fraction ++ 'e' :: exponentText exponent

private def signed (negative : Bool) (digits : List Char) : String :=
  String.ofList (if negative then '-' :: digits else digits)

/-- The text of a double with no exponent and no fraction that is zero. -/
def plainText : Double → String
  | .notANumber => "NaN"
  | .infinite negative => if negative then "-inf" else "inf"
  | .finite negative mantissa exponent =>
    signed negative (if mantissa = 0 then ['0']
      else positional (shortest .up mantissa exponent))

def positionalPlaces : Int × Int := (-4, 16)

/-- The text of a finite double that always shows it is no whole number: by a
fraction, or by an exponent outside `positionalPlaces`. -/
def markedText (negative : Bool) (mantissa : Nat) (exponent : Int) : String :=
  if mantissa = 0 then signed negative ['0', '.', '0']
  else
    let decimal := shortest .toEven mantissa exponent
    let point :=
      decimal.exponent + ((Nat.toDigits 10 decimal.digits).length : Int)
    signed negative <|
      if point < positionalPlaces.1 || positionalPlaces.2 < point then
        scientific decimal
      else if 0 ≤ decimal.exponent then positional decimal ++ ['.', '0']
      else positional decimal

end SchemaLint.Decimal
