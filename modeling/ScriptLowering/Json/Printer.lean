import ScriptLowering.Json.Number
import ScriptLowering.Json.Text

/-!
# Printing documents

A document is printed either compactly, without any blank, or over several lines with two
spaces for each level of nesting. Empty containers stay on one line. Both forms write every
string in the one form of `Text.quote` and every integer without a superfluous digit.
-/

namespace ScriptLowering.Json

def printScalar : Json → List Char
  | .bool true => ['t', 'r', 'u', 'e']
  | .bool false => ['f', 'a', 'l', 's', 'e']
  | .integer value => Number.written value
  | .fraction text => text.toList
  | .string text => Text.quote text
  | _ => ['n', 'u', 'l', 'l']

/-! ## One line -/

mutual
def printCompact : Json → List Char
  | .array [] => ['[', ']']
  | .array (item :: rest) => '[' :: printCompact item ++ printCompactItems rest ++ [']']
  | .object [] => ['\x7b', '\x7d']
  | .object ((name, value) :: rest) =>
      '\x7b' :: Text.quote name.text ++ ':' :: printCompact value ++
        printCompactMembers rest ++ ['\x7d']
  | scalar => printScalar scalar

def printCompactItems : List Json → List Char
  | [] => []
  | item :: rest => ',' :: printCompact item ++ printCompactItems rest

def printCompactMembers : List (Name × Json) → List Char
  | [] => []
  | (name, value) :: rest =>
      ',' :: Text.quote name.text ++ ':' :: printCompact value ++ printCompactMembers rest
end

def compact (document : Json) : String := String.ofList document.printCompact

/-! ## Several lines -/

def newLine (level : Nat) : List Char := '\n' :: List.replicate (2 * level) ' '

mutual
def printPretty : Json → (level : Nat) → List Char
  | .array [], _ => ['[', ']']
  | .array (item :: rest), level =>
      '[' :: newLine (level + 1) ++ printPretty item (level + 1) ++
        printPrettyItems rest (level + 1) ++ newLine level ++ [']']
  | .object [], _ => ['\x7b', '\x7d']
  | .object ((name, value) :: rest), level =>
      '\x7b' :: newLine (level + 1) ++ Text.quote name.text ++ ':' :: ' ' ::
        printPretty value (level + 1) ++ printPrettyMembers rest (level + 1) ++
        newLine level ++ ['\x7d']
  | scalar, _ => printScalar scalar

def printPrettyItems : List Json → (level : Nat) → List Char
  | [], _ => []
  | item :: rest, level =>
      ',' :: newLine level ++ printPretty item level ++ printPrettyItems rest level

def printPrettyMembers : List (Name × Json) → (level : Nat) → List Char
  | [], _ => []
  | (name, value) :: rest, level =>
      ',' :: newLine level ++ Text.quote name.text ++ ':' :: ' ' :: printPretty value level ++
        printPrettyMembers rest level
end

def pretty (document : Json) : String := String.ofList (document.printPretty 0)

example : (Json.array [.integer 7, .object []]).compact = "[7,\x7b\x7d]" := by
  decide +kernel

example : (Json.array [.integer (-7)]).pretty = "[\n  -7\n]" := by
  decide +kernel

end ScriptLowering.Json
