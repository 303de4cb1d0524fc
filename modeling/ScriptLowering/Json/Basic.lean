import ScriptLowering.Json.Text

/-!
# Documents

Programs and modules are exchanged as JSON documents. Object members keep the order in
which they were written, and repeated names are kept as well: whether a repetition is an
error is for the reader of a record to decide.

Numbers are split by what a document may use them for. An integer has an exact value.
Every other number is kept only as its shortest text, since no field of a program or a
module holds a fraction; `-0` is one of these, because it denotes a fraction's zero.
-/

namespace ScriptLowering

/-- The name of a member. A table with numbers for names is sensitive to their spelling, so
it is kept whether the literal of the name has an escape in it. -/
structure Json.Name where
  text : String
  escaped : Bool
  deriving DecidableEq

/-- A name in the one form in which names are printed. -/
def Json.Name.ofText (text : String) : Json.Name :=
  ⟨text, text.toList.any Json.Text.needsEscape⟩

instance : Coe String Json.Name := ⟨Json.Name.ofText⟩

inductive Json where
  | null
  | bool (value : Bool)
  | integer (value : Int)
  | fraction (text : String)
  | string (text : String)
  | array (items : List Json)
  | object (members : List (Json.Name × Json))
  /-- A part that is written correctly but denotes nothing: a string with an unpaired
  surrogate, an object with such a name, or a number beyond the range of doubles. It can be
  skipped and never read. -/
  | unreadable

namespace Json

instance : Inhabited Json := ⟨null⟩

/-! ## Nesting -/

mutual
/-- How many arrays and objects stand around the innermost part. -/
def depth : Json → Nat
  | .array items => depthOfItems items + 1
  | .object members => depthOfMembers members + 1
  | _ => 0

def depthOfItems : List Json → Nat
  | [] => 0
  | item :: rest => max item.depth (depthOfItems rest)

def depthOfMembers : List (Name × Json) → Nat
  | [] => 0
  | (_, value) :: rest => max value.depth (depthOfMembers rest)
end

/-- The deepest nesting that is read into memory. -/
def nestingLimit : Nat := 127

/-! ## Readability -/

mutual
/-- No part of the document is unreadable. -/
def readable : Json → Bool
  | .unreadable => false
  | .array items => readableItems items
  | .object members => readableMembers members
  | _ => true

def readableItems : List Json → Bool
  | [] => true
  | item :: rest => item.readable && readableItems rest

def readableMembers : List (Name × Json) → Bool
  | [] => true
  | (_, value) :: rest => value.readable && readableMembers rest
end

end Json

end ScriptLowering
