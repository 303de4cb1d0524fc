/-!
# String literals

A string literal is a sequence of code units: a character that is written as itself, or a
`\u` escape, which names a single UTF-16 unit. Two escapes that form a surrogate pair
denote one character; a surrogate without its partner denotes none.

`escape` is the one form in which strings are written, and `ofUnits?` gives the meaning of
what was read.
-/

namespace ScriptLowering.Json.Text

/-! ## Writing -/

def hexDigits : List Char :=
  ['0', '1', '2', '3', '4', '5', '6', '7', '8', '9', 'a', 'b', 'c', 'd', 'e', 'f']

def hexDigit (value : Nat) : Char := hexDigits.getD (value % 16) '0'

/-- Quotes, backslashes and control characters are escaped; all else stands for itself. -/
def escape (character : Char) : List Char :=
  if character = '"' then ['\\', '"']
  else if character = '\\' then ['\\', '\\']
  else if character = '\x08' then ['\\', 'b']
  else if character = '\x0c' then ['\\', 'f']
  else if character = '\n' then ['\\', 'n']
  else if character = '\r' then ['\\', 'r']
  else if character = '\t' then ['\\', 't']
  else if character.toNat < 0x20 then
    ['\\', 'u', '0', '0', hexDigit (character.toNat / 16), hexDigit character.toNat]
  else [character]

/-- The character does not stand for itself. -/
def needsEscape (character : Char) : Bool := escape character ≠ [character]

/-- The literal that denotes `text`, quotes included. -/
def quote (text : String) : List Char :=
  '"' :: text.toList.flatMap escape ++ ['"']

example : quote "a\n\x1f" = ['"', 'a', '\\', 'n', '\\', 'u', '0', '0', '1', 'f', '"'] := by
  decide +kernel

/-! ## Reading -/

def hexValue? (character : Char) : Option Nat :=
  if '0' ≤ character ∧ character ≤ '9' then some (character.toNat - '0'.toNat)
  else if 'a' ≤ character ∧ character ≤ 'f' then some (character.toNat - 'a'.toNat + 10)
  else if 'A' ≤ character ∧ character ≤ 'F' then some (character.toNat - 'A'.toNat + 10)
  else none

/-- The unit that a one-letter escape stands for. -/
def shortEscape? (character : Char) : Option Nat :=
  if character = '"' ∨ character = '\\' ∨ character = '/' then some character.toNat
  else if character = 'b' then some 0x08
  else if character = 'f' then some 0x0c
  else if character = 'n' then some 0x0a
  else if character = 'r' then some 0x0d
  else if character = 't' then some 0x09
  else none

def isHighSurrogate (unit : Nat) : Bool := 0xd800 ≤ unit && unit < 0xdc00

def isLowSurrogate (unit : Nat) : Bool := 0xdc00 ≤ unit && unit < 0xe000

/-- The characters that a sequence of units denotes. -/
def ofUnits? : List Nat → Option (List Char)
  | [] => some []
  | unit :: rest =>
      if isHighSurrogate unit then
        match rest with
        | low :: others =>
            if isLowSurrogate low then
              (ofUnits? others).map
                (Char.ofNat (0x10000 + (unit - 0xd800) * 0x400 + (low - 0xdc00)) :: ·)
            else none
        | [] => none
      else if isLowSurrogate unit then none
      else (ofUnits? rest).map (Char.ofNat unit :: ·)

example : ofUnits? [0x61, 0xd83d, 0xde00] = some ['a', '😀'] := by decide +kernel

example : ofUnits? [0xd83d, 0x61] = none := by decide +kernel

end ScriptLowering.Json.Text
