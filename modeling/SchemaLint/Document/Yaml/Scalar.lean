import SchemaLint.Document.Json

/-!
# Plain YAML scalars

What a scalar without quotes stands for: nothing, a truth value, a number or its
own text. Digits with a zero in front of them are text.
-/

namespace SchemaLint.Yaml

def isNull (text : String) : Bool :=
  ["", "null", "Null", "NULL", "~"].contains text

def bool? (text : String) : Option Bool :=
  if ["true", "True", "TRUE"].contains text then some true
  else if ["false", "False", "FALSE"].contains text then some false
  else none

/-! ## Whole numbers -/

def natIn? (base : Nat) (digits : List Char) : Option Nat :=
  if digits.isEmpty then none
  else
    digits.foldlM (fun n c => (Json.hexDigit? c).bind fun d =>
      if d < base then some (n * base + d) else none) 0

def splitSign : List Char → Option Char × List Char
  | '+' :: rest => (some '+', rest)
  | '-' :: rest => (some '-', rest)
  | chars => (none, chars)

def hasSpareZero : List Char → Bool
  | '0' :: c :: rest => (c :: rest).all Char.isDigit
  | _ => false

/-- A number without its sign, in the base that its first characters name. -/
def magnitude? : List Char → Option Nat
  | '0' :: 'x' :: digits => natIn? 16 digits
  | '0' :: 'o' :: digits => natIn? 8 digits
  | '0' :: 'b' :: digits => natIn? 2 digits
  | digits => if hasSpareZero digits then none else natIn? 10 digits

/-- A whole number. Those that fit 64 bits have a value, those that only fit 128
bits are unreadable, and others are no whole numbers. -/
def whole? (text : String) : Option Scalar := do
  let (sign, chars) := splitSign text.toList
  let n ← magnitude? chars
  if sign = some '-' then
    if n = 0 then some (.number .minusZero)
    else if n ≤ Nat.pow 2 63 then some (.number (.whole (-(n : Int))))
    else if n ≤ Nat.pow 2 127 then some .unreadable
    else none
  else if n < Nat.pow 2 64 then some (.number (.whole n))
  else if n < Nat.pow 2 128 then some .unreadable
  else none

/-! ## Other numbers -/

def infinityTexts : List String := [".inf", ".Inf", ".INF"]

/-- A decimal number without its sign: digits with a point somewhere, then an
exponent. -/
def decimal? (negative : Bool) (chars : List Char) : Option Decimal.Double := do
  let (whole, rest) := Json.digitsOf chars
  let (fraction, rest) :=
    match rest with
    | '.' :: rest => Json.digitsOf rest
    | rest => ([], rest)
  let (exponent, rest) ← Json.readScale rest
  guard (!(whole ++ fraction).isEmpty && rest.isEmpty)
  let value :=
    Decimal.Double.ofDecimal negative (Json.natOfDigits (whole ++ fraction))
      (exponent.getD 0 - fraction.length)
  guard value.isFinite
  return value

def double? (text : String) : Option Decimal.Double :=
  let (sign, chars) := splitSign text.toList
  if infinityTexts.contains (String.ofList chars) then
    some (.infinite (sign == some '-'))
  else if [".nan", ".NaN", ".NAN"].contains text then some .notANumber
  else if hasSpareZero chars then none
  else decimal? (sign == some '-') chars

def resolve (text : String) : Scalar :=
  if isNull text then .null
  else
    match bool? text, whole? text, double? text with
    | some b, _, _ => .bool b
    | _, some value, _ => value
    | _, _, some x => .number (.real x)
    | _, _, _ => .text text

end SchemaLint.Yaml
