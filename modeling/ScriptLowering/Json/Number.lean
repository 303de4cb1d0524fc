import ScriptLowering.Json.Basic
import ScriptLowering.Json.Decimal

/-!
# Number literals

The grammar of number literals, and which kind of document part a literal denotes. A
literal with neither a fraction nor an exponent is an integer as long as it fits into 64
bits; all others are doubles. `written` gives the decimal form of an integer.
-/

namespace ScriptLowering.Json.Number

/-- The parts of a literal. A sign of the exponent is kept apart from its digits. -/
structure Literal where
  negative : Bool
  whole : List Char
  decimals : Option (List Char)
  exponent : Option (Bool × List Char)

/-- At least one digit, and the characters after the last. -/
def digits? (characters : List Char) : Option (List Char × List Char) :=
  match characters.takeWhile Char.isDigit with
  | [] => none
  | taken => some (taken, characters.dropWhile Char.isDigit)

/-- Digits without a superfluous zero in front. -/
def whole? (characters : List Char) : Option (List Char × List Char) := do
  let (taken, rest) ← digits? characters
  match taken with
  | '0' :: _ :: _ => none
  | _ => some (taken, rest)

def decimals? (characters : List Char) : Option (Option (List Char) × List Char) :=
  match characters with
  | '.' :: rest => (digits? rest).map fun (taken, others) => (some taken, others)
  | _ => some (none, characters)

def exponentDigits? (negative : Bool) (characters : List Char) :
    Option (Option (Bool × List Char)) :=
  match digits? characters with
  | some (taken, []) => some (some (negative, taken))
  | _ => none

/-- An exponent reaches to the end of the literal. -/
def exponent? (characters : List Char) : Option (Option (Bool × List Char)) :=
  match characters with
  | [] => some none
  | mark :: rest =>
      if mark = 'e' ∨ mark = 'E' then
        match rest with
        | '+' :: others => exponentDigits? false others
        | '-' :: others => exponentDigits? true others
        | _ => exponentDigits? false rest
      else none

def parse? (characters : List Char) : Option Literal := do
  let (negative, rest) :=
    match characters with
    | '-' :: rest => (true, rest)
    | _ => (false, characters)
  let (whole, rest) ← whole? rest
  let (decimals, rest) ← decimals? rest
  let exponent ← exponent? rest
  return { negative, whole, decimals, exponent }

def natural (digits : List Char) : Nat := Nat.ofDigitChars 10 digits 0

namespace Literal

/-- A number under way: what its digits are read as, and the power of ten that scales it. -/
structure Scaled where
  significand : Nat
  exponent : Int

/-- Significands have room for 64 bits. -/
def significandBound : Nat := UInt64.size

/-- The significand with one more digit, if there is room for it. -/
def extend? (significand : Nat) (digit : Char) : Option Nat :=
  let next := significand * 10 + (digit.toNat - '0'.toNat)
  if next < significandBound then some next else none

/-- Digits before the point. From the first one for which there is no room, they only count. -/
def addWhole : List Char → Scaled → Scaled
  | [], number => number
  | digit :: rest, number =>
      match extend? number.significand digit with
      | some significand => addWhole rest { number with significand }
      | none => { number with exponent := number.exponent + (rest.length + 1) }

/-- Digits after the point. From the first one for which there is no room, they are dropped. -/
def addDecimals : List Char → Scaled → Scaled
  | [], number => number
  | digit :: rest, number =>
      match extend? number.significand digit with
      | some significand => addDecimals rest ⟨significand, number.exponent - 1⟩
      | none => number

def writtenExponent (literal : Literal) : Int :=
  match literal.exponent with
  | none => 0
  | some (negative, digits) => if negative then -natural digits else natural digits

/-- The magnitude, with the precision of doubles. `none` is out of their range. -/
def double? (literal : Literal) : Option Double :=
  let number := addDecimals (literal.decimals.getD []) (addWhole literal.whole ⟨0, 0⟩)
  Double.ofScientific? number.significand (number.exponent + literal.writtenExponent)

/-- The integer that a literal denotes. It has neither a fraction nor an exponent, it is no
negative zero, and it is a signed or an unsigned integer of 64 bits. -/
def integer? (literal : Literal) : Option Int :=
  match literal.decimals, literal.exponent with
  | none, none =>
      let magnitude := natural literal.whole
      if literal.negative then
        if 0 < magnitude ∧ magnitude ≤ Int64.minValue.toInt.natAbs then some (-magnitude)
        else none
      else if magnitude < UInt64.size then some magnitude
      else none
  | _, _ => none

def value (literal : Literal) : Json :=
  match literal.integer? with
  | some value => .integer value
  | none =>
      match literal.double? with
      | some double =>
          let sign := if literal.negative then ['-'] else []
          .fraction (String.ofList (sign ++ double.written))
      | none => .unreadable

end Literal

/-- The document part that the text of a literal denotes; `none` if it is no literal. -/
def read? (characters : List Char) : Option Json := (parse? characters).map Literal.value

def written (value : Int) : List Char :=
  match value with
  | .ofNat magnitude => Nat.toDigits 10 magnitude
  | .negSucc magnitude => '-' :: Nat.toDigits 10 (magnitude + 1)

end ScriptLowering.Json.Number
