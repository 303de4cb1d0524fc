import ScriptLowering.Json.Double

/-!
# Decimals

A double is written with the fewest digits that are read as the same double, and of two
numbers with that many digits the nearer one is taken. The point stands among the digits
for numbers of middling size; very large and very small ones carry an exponent.
-/

namespace ScriptLowering.Json

/-- The number `digits * 10 ^ exponent`. -/
structure Decimal where
  digits : Nat
  exponent : Int
  deriving DecidableEq, Repr

namespace Double

/-- Whether a double is the nearest one to a ratio. The numbers for which it is reach half
way to both neighbours, of which the lower is nearer at a power of two; the ends belong to
a double with an even significand. -/
def isNearestTo (double : Double) (ratio : Ratio) : Bool :=
  let quarters := ratio.scale 2 (2 - double.exponent)
  let below :=
    if double.significand = significandBound / 2 ∧ lowestExponent < double.exponent then 1
    else 2
  let low := Ratio.ofNat (4 * double.significand - below)
  let high := Ratio.ofNat (4 * double.significand + 2)
  if double.significand % 2 = 0 then low.atMost quarters && quarters.atMost high
  else !quarters.atMost low && !high.atMost quarters

end Double

namespace Ratio

/-- The exponent of the greatest power of ten that is not above a positive ratio. -/
def leadingDigit (ratio : Ratio) : Int :=
  let estimate := ratio.leadingBit * 30103 / 100000
  if (power 10 (estimate + 1)).atMost ratio then estimate + 1
  else if (power 10 estimate).atMost ratio then estimate
  else estimate - 1

end Ratio

namespace Decimal

def toRatio (decimal : Decimal) : Ratio :=
  (Ratio.ofNat decimal.digits).scale 10 decimal.exponent

/-- A decimal with `count` digits that is read as the double, if there is one. -/
def ofDouble? (double : Double) (count : Nat) : Option Decimal :=
  let exponent := double.toRatio.leadingDigit + 1 - count
  let scaled := double.toRatio.scale 10 (-exponent)
  let nearer := scaled.round
  let other := if nearer = scaled.floor then nearer + 1 else scaled.floor
  [nearer, other].map (Decimal.mk · exponent) |>.find? fun decimal =>
    double.isNearestTo decimal.toRatio

/-- Seventeen digits tell all doubles apart. -/
def sufficientDigits : Nat := 17

/-- The shortest decimal that is read as a positive double. -/
def shortest (double : Double) : Decimal :=
  ((List.range sufficientDigits).findSome? fun count => ofDouble? double (count + 1)).getD
    ⟨0, 0⟩

/-! ## Text -/

/-- The digits without trailing zeros, and how many stand before the point. -/
def layout (decimal : Decimal) : List Char × Int :=
  let written := Nat.toDigits 10 decimal.digits
  ((written.reverse.dropWhile (· = '0')).reverse, written.length + decimal.exponent)

def wholeLimit : Int := 16

/-- Fewer zeros than this stand between the point and the first digit. -/
def leadingZeroLimit : Int := 5

/-- An exponent always shows its sign. -/
def writtenExponent (exponent : Int) : List Char :=
  match exponent with
  | .ofNat magnitude => 'e' :: '+' :: Nat.toDigits 10 magnitude
  | .negSucc magnitude => 'e' :: '-' :: Nat.toDigits 10 (magnitude + 1)

/-- A positive decimal; one of middling size always shows a point. -/
def written (decimal : Decimal) : List Char :=
  let (digits, point) := decimal.layout
  if 0 < point ∧ point ≤ wholeLimit then
    let place := point.toNat
    if digits.length ≤ place then
      digits ++ List.replicate (place - digits.length) '0' ++ ['.', '0']
    else digits.take place ++ '.' :: digits.drop place
  else if -leadingZeroLimit < point ∧ point ≤ 0 then
    '0' :: '.' :: List.replicate (-point).toNat '0' ++ digits
  else
    match digits with
    | [first] => first :: writtenExponent (point - 1)
    | first :: rest => first :: '.' :: rest ++ writtenExponent (point - 1)
    | [] => ['0']

end Decimal

/-- The text of a double. -/
def Double.written (double : Double) : List Char :=
  if double.isZero then ['0', '.', '0'] else (Decimal.shortest double).written

example : (Double.ofScientific? 150 (-2)).map Double.written = some ['1', '.', '5'] := by
  decide +kernel

example : (Double.ofScientific? 1 23).map Double.written = some ['1', 'e', '+', '2', '3'] := by
  decide +kernel

end ScriptLowering.Json
