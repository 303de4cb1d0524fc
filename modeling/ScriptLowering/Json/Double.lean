/-!
# Doubles

A number that is no integer is held as a double: a significand of at most 53 bits and a
binary exponent. The arithmetic is exact, on ratios of natural numbers, and `nearest` alone
rounds: to the nearest double, and to the even one of two that are equally near.

Only magnitudes occur here. A sign never changes how a number is rounded.
-/

namespace ScriptLowering.Json

/-! ## Ratios -/

/-- The quotient of two natural numbers, the second of which is positive. -/
structure Ratio where
  numerator : Nat
  denominator : Nat
  deriving DecidableEq, Repr

namespace Ratio

def ofNat (value : Nat) : Ratio := ⟨value, 1⟩

def mul (left right : Ratio) : Ratio :=
  ⟨left.numerator * right.numerator, left.denominator * right.denominator⟩

def div (left right : Ratio) : Ratio :=
  ⟨left.numerator * right.denominator, left.denominator * right.numerator⟩

/-- The ratio times a power of `base`. -/
def scale (ratio : Ratio) (base : Nat) : (exponent : Int) → Ratio
  | .ofNat exponent => ⟨ratio.numerator * Nat.pow base exponent, ratio.denominator⟩
  | .negSucc exponent => ⟨ratio.numerator, ratio.denominator * Nat.pow base (exponent + 1)⟩

def power (base : Nat) (exponent : Int) : Ratio := (ofNat 1).scale base exponent

def atMost (left right : Ratio) : Bool :=
  left.numerator * right.denominator ≤ right.numerator * left.denominator

def floor (ratio : Ratio) : Nat := ratio.numerator / ratio.denominator

/-- The nearest natural number, and the even one of two that are equally near. -/
def round (ratio : Ratio) : Nat :=
  let twice := 2 * (ratio.numerator % ratio.denominator)
  if twice < ratio.denominator || (twice = ratio.denominator && ratio.floor % 2 = 0) then
    ratio.floor
  else ratio.floor + 1

/-- The exponent of the greatest power of two that is not above a positive ratio. The
difference of the bit counts is that exponent or one more. -/
def leadingBit (ratio : Ratio) : Int :=
  let estimate : Int := ratio.numerator.log2 - ratio.denominator.log2
  if (power 2 estimate).atMost ratio then estimate else estimate - 1

example : (Ratio.mk 5 2).round = 2 ∧ (Ratio.mk 7 2).round = 4 := by decide

example : (Ratio.mk 1 3).leadingBit = -2 := by decide

end Ratio

/-! ## Rounding to doubles -/

/-- The number `significand * 2 ^ exponent`. -/
structure Double where
  significand : Nat
  exponent : Int
  deriving DecidableEq, Repr

namespace Double

/-- Significands are below this. -/
def significandBound : Nat := Nat.pow 2 53

/-- Doubles are multiples of `2 ^ lowestExponent`. -/
def lowestExponent : Int := -1074

def highestExponent : Int := 971

def toRatio (double : Double) : Ratio := (Ratio.ofNat double.significand).scale 2 double.exponent

def isZero (double : Double) : Bool := double.significand = 0

/-- Whether the number is in the range of doubles. -/
def isFinite (double : Double) : Bool := double.exponent ≤ highestExponent

/-- The double nearest to a ratio, as if there were no largest one. -/
def nearest (ratio : Ratio) : Double :=
  let exponent := max (ratio.leadingBit - 52) lowestExponent
  let significand := (ratio.scale 2 (-exponent)).round
  if significand < significandBound then ⟨significand, exponent⟩
  else ⟨significand / 2, exponent + 1⟩

def ofNat (value : Nat) : Double := nearest (.ofNat value)

def mul (left right : Double) : Double := nearest (left.toRatio.mul right.toRatio)

def div (left right : Double) : Double := nearest (left.toRatio.div right.toRatio)

/-- The greatest power of ten among the doubles, as an exponent of ten. -/
def tenLimit : Nat := 308

def powerOfTen (exponent : Nat) : Double := ofNat (Nat.pow 10 exponent)

/-- Divide by a power of ten, in several steps where the power is no double itself. -/
def divByTens (double : Double) (exponent : Nat) : Double :=
  if exponent ≤ tenLimit then double.div (powerOfTen exponent)
  else if double.isZero then double
  else (double.div (powerOfTen tenLimit)).divByTens (exponent - tenLimit)
termination_by exponent
decreasing_by simp [tenLimit] at *; omega

/-- `significand * 10 ^ exponent`: the significand and the power of ten are rounded first,
and then their product or quotient. `none` is above the range of doubles. -/
def ofScientific? (significand : Nat) : (exponent : Int) → Option Double
  | .ofNat exponent =>
      let double := ofNat significand
      if double.isZero then some double
      else if exponent ≤ tenLimit then
        let product := double.mul (powerOfTen exponent)
        if product.isFinite then some product else none
      else none
  | .negSucc exponent => some ((ofNat significand).divByTens (exponent + 1))

example : ofScientific? 25 (-1) = some ⟨5 * Nat.pow 2 50, -51⟩ := by decide +kernel

example : ofScientific? 17976931348623158 292 = none := by decide +kernel

end Double

end ScriptLowering.Json
