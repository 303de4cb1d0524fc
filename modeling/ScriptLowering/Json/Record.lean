import ScriptLowering.Json.Basic
import ScriptLowering.Table

/-!
# Records and choices in documents

A record is written as an object, whose members may come in any order and may be joined by
members that no one asks for, or as an array of its fields in their declared order. A field
that is named twice makes the record invalid.

A choice between alternatives is written in one of two ways. A labelled choice is the bare
name of an alternative or an object with that name as its only member. A tagged choice is
an object whose member `kind` names the alternative and whose other members are its fields.

Every reader below answers `none` for what it does not accept.
-/

namespace ScriptLowering.Json

/-! ## Plain values -/

def asBool? : Json → Option Bool
  | .bool value => some value
  | _ => none

def asString? : Json → Option String
  | .string text => some text
  | _ => none

/-- An integer below `bound`. -/
def asNatural? (bound : Nat) : Json → Option Nat
  | .integer (.ofNat value) => if value < bound then some value else none
  | _ => none

def asUInt8? (document : Json) : Option UInt8 :=
  (document.asNatural? UInt8.size).map Nat.toUInt8

def asUInt16? (document : Json) : Option UInt16 :=
  (document.asNatural? UInt16.size).map Nat.toUInt16

def asUInt32? (document : Json) : Option UInt32 :=
  (document.asNatural? UInt32.size).map Nat.toUInt32

def asInt64? : Json → Option Int64
  | .integer value =>
      if Int64.minValue.toInt ≤ value ∧ value ≤ Int64.maxValue.toInt then
        some (Int64.ofInt value)
      else none
  | _ => none

/-- A part that may be `null`. -/
def asOption? {α : Type} (read? : Json → Option α) : Json → Option (Option α)
  | .null => some none
  | document => (read? document).map some

def asList? {α : Type} (read? : Json → Option α) : Json → Option (List α)
  | .array items => items.mapM read?
  | _ => none

/-! ## Records -/

/-- The fields of a record, by name. -/
structure Record where
  members : List (Name × Json)

/-- How the fields of a record may be written. -/
inductive RecordForm where
  | named
  | namedOrListed
  deriving DecidableEq

def lookupMember (name : String) : List (Name × Json) → Option Json
  | [] => none
  | (other, value) :: rest => if other.text = name then some value else lookupMember name rest

def countMember (name : String) : List (Name × Json) → Nat
  | [] => 0
  | (other, _) :: rest => (if other.text = name then 1 else 0) + countMember name rest

/-- The record with the fields `names`, in their declared order. -/
def recordIn? (form : RecordForm) (document : Json) (names : List String) : Option Record :=
  match document with
  | .object members =>
      if names.all fun name => countMember name members ≤ 1 then some ⟨members⟩ else none
  | .array items =>
      if form = .namedOrListed ∧ items.length ≤ names.length then
        some ⟨(names.map Name.ofText).zip items⟩
      else none
  | _ => none

def record? (document : Json) (names : List String) : Option Record :=
  document.recordIn? .namedOrListed names

namespace Record

def get? (record : Record) (name : String) : Option Json := lookupMember name record.members

def required? {α : Type} (record : Record) (name : String) (read? : Json → Option α) :
    Option α :=
  (record.get? name).bind read?

/-- A field that takes `default` where it is left out. -/
def defaulted? {α : Type} (record : Record) (name : String) (default : α)
    (read? : Json → Option α) : Option α :=
  match record.get? name with
  | none => some default
  | some document => read? document

end Record

/-! ## Choices -/

/-- The alternative that a labelled choice names, and what is written beside it. -/
def choice? : Json → Option (String × Option Json)
  | .string name => some (name, none)
  | .object [(name, content)] => some (name.text, some content)
  | _ => none

def bareChoice? (document : Json) : Option String :=
  match document.choice? with
  | some (name, none) => some name
  | some (name, some .null) => some name
  | _ => none

/-- Inside a tagged choice an empty object also counts as no content. -/
def looseBareChoice? (document : Json) : Option String :=
  match document.choice? with
  | some (name, some (.object [])) => some name
  | _ => document.bareChoice?

def tagName : String := "kind"

/-- The alternative of a tagged choice and the record of its fields. A tagged choice is
kept in memory before its alternative is known, so all of it has to be readable, and
`around` containers that already stand around it count towards the nesting limit. -/
def tagged? (document : Json) (around : Nat) : Option (String × Json) :=
  if document.readable && around + document.depth ≤ nestingLimit then
    match document with
    | .object members =>
        if countMember tagName members = 1 then
          match lookupMember tagName members with
          | some (.string tag) =>
              some (tag, .object (members.filter fun member => member.1.text ≠ tagName))
          | _ => none
        else none
    | .array (.string tag :: items) => some (tag, .array items)
    | _ => none
  else none

/-! ## Documents of composite values -/

def ofOption {α : Type} (toJson : α → Json) : Option α → Json
  | none => .null
  | some value => toJson value

def ofList {α : Type} (toJson : α → Json) (values : List α) : Json :=
  .array (values.map toJson)

def ofTagged (tag : String) (members : List (Name × Json)) : Json :=
  .object ((tagName, .string tag) :: members)

def ofLabelled (name : String) (content : Json) : Json := .object [(name, content)]

/-! ## Tables -/

/-- The natural number that digits denote, if they are the form in which it is printed and
it is below `bound`. -/
def canonicalNatural? (bound : Nat) (digits : List Char) : Option Nat :=
  match digits with
  | [] => none
  | ['0'] => if 0 < bound then some 0 else none
  | '0' :: _ => none
  | digits =>
      if digits.all Char.isDigit then
        let value := Nat.ofDigitChars 10 digits 0
        if value < bound then some value else none
      else none

/-- A name that is a natural number below `bound`. Its digits stand for themselves. -/
def numericName? (bound : Nat) (name : Name) : Option Nat :=
  if name.escaped then none else canonicalNatural? bound name.text.toList

def ofTable {κ α : Type} (nameOf : κ → String) (toJson : α → Json) (table : Table κ α) :
    Json :=
  .object (table.entries.map fun entry => (nameOf entry.1, toJson entry.2))

def asTable? {κ α : Type} [DecidableEq κ] (readName? : Name → Option κ)
    (read? : Json → Option α) : Json → Option (Table κ α)
  | .object members => do
      let pairs ← members.mapM fun (name, content) => do
        return (← readName? name, ← read? content)
      return Table.ofList pairs
  | _ => none

end ScriptLowering.Json
