import ScriptLowering.Json.Number
import ScriptLowering.Json.Text

/-!
# Reading documents

A reader consumes a text one character after the other. Its state is the literal being
read, if any, the containers that are still open, and what may come next. Reading a text
is the fold of `step` over its characters, so it ends for every text, and reading two
pieces one after the other is reading their concatenation.
-/

namespace ScriptLowering.Json

namespace Reader

/-- An open container with what it holds so far, in reverse. `entry` is an object whose
last name still waits for its value. -/
inductive Frame where
  | array (items : List Json)
  | object (members : List (Option Name × Json))
  | entry (members : List (Option Name × Json)) (name : Option Name)

/-- What may come next. -/
inductive Expectation where
  | value
  | itemOrEnd
  | nameOrEnd
  | name
  | colon
  | separator
  | finished (document : Json)

/-- The literal that is being read, its parts so far in reverse. A string is `escaped` once
it has an escape in it. -/
inductive Lexeme where
  | none
  | word (letters : List Char)
  | number (characters : List Char)
  | string (units : List Nat) (escaped : Bool)
  | escape (units : List Nat)
  | hex (units : List Nat) (missing : Nat) (value : Nat)

end Reader

open Reader in
structure Reader where
  frames : List Frame
  expectation : Expectation
  lexeme : Lexeme

namespace Reader

def start : Reader where
  frames := []
  expectation := .value
  lexeme := .none

/-! ## Values -/

/-- Hand a complete value to the innermost open container. -/
def deliver (reader : Reader) (value : Json) : Option Reader :=
  match reader.expectation with
  | .value | .itemOrEnd =>
      match reader.frames with
      | [] => some ⟨[], .finished value, .none⟩
      | .array items :: rest => some ⟨.array (value :: items) :: rest, .separator, .none⟩
      | .entry members name :: rest =>
          some ⟨.object ((name, value) :: members) :: rest, .separator, .none⟩
      | .object _ :: _ => none
  | _ => none

/-- An object, unless one of its names is unreadable. -/
def closeObject (members : List (Option Name × Json)) : Json :=
  match members.reverse.mapM fun (name, value) => name.map fun name => (name, value) with
  | some members => .object members
  | none => .unreadable

def readString (units : List Nat) : Option String :=
  (Text.ofUnits? units.reverse).map String.ofList

def readName (units : List Nat) (escaped : Bool) : Option Name :=
  (readString units).map fun text => ⟨text, escaped⟩

/-- A complete string is a name where one is expected, and a value otherwise. -/
def deliverString (reader : Reader) (units : List Nat) (escaped : Bool) : Option Reader :=
  match reader.expectation, reader.frames with
  | .name, .object members :: rest | .nameOrEnd, .object members :: rest =>
      some ⟨.entry members (readName units escaped) :: rest, .colon, .none⟩
  | _, _ =>
      match readString units with
      | some text => reader.deliver (.string text)
      | none => reader.deliver .unreadable

def deliverWord (reader : Reader) (letters : List Char) : Option Reader :=
  match letters.reverse with
  | ['n', 'u', 'l', 'l'] => reader.deliver .null
  | ['t', 'r', 'u', 'e'] => reader.deliver (.bool true)
  | ['f', 'a', 'l', 's', 'e'] => reader.deliver (.bool false)
  | _ => none

def deliverNumber (reader : Reader) (characters : List Char) : Option Reader := do
  reader.deliver (← Number.read? characters.reverse)

/-! ## Punctuation -/

def openContainer (reader : Reader) (frame : Frame) (next : Expectation) : Option Reader :=
  match reader.expectation with
  | .value | .itemOrEnd => some ⟨frame :: reader.frames, next, .none⟩
  | _ => none

def closeContainer (reader : Reader) (isArray : Bool) : Option Reader :=
  match isArray, reader.expectation, reader.frames with
  | true, .itemOrEnd, .array items :: rest | true, .separator, .array items :: rest =>
      deliver ⟨rest, .value, .none⟩ (.array items.reverse)
  | false, .nameOrEnd, .object members :: rest | false, .separator, .object members :: rest =>
      deliver ⟨rest, .value, .none⟩ (closeObject members)
  | _, _, _ => none

def comma (reader : Reader) : Option Reader :=
  match reader.expectation, reader.frames with
  | .separator, .array _ :: _ => some { reader with expectation := .value }
  | .separator, .object _ :: _ => some { reader with expectation := .name }
  | _, _ => none

def colon (reader : Reader) : Option Reader :=
  match reader.expectation with
  | .colon => some { reader with expectation := .value }
  | _ => none

/-! ## Characters -/

def isBlank (character : Char) : Bool :=
  character = ' ' || character = '\t' || character = '\n' || character = '\r'

def isNumberCharacter (character : Char) : Bool :=
  character.isDigit || character = '-' || character = '+' || character = '.' ||
    character = 'e' || character = 'E'

/-- A character outside every literal. -/
def begin (reader : Reader) (character : Char) : Option Reader :=
  if isBlank character then some reader
  else if character = '"' then some { reader with lexeme := .string [] false }
  else if character.isDigit || character = '-' then
    some { reader with lexeme := .number [character] }
  else if character.isLower then some { reader with lexeme := .word [character] }
  else if character = '[' then reader.openContainer (.array []) .itemOrEnd
  else if character = ']' then reader.closeContainer true
  else if character = '\x7b' then reader.openContainer (.object []) .nameOrEnd
  else if character = '\x7d' then reader.closeContainer false
  else if character = ',' then reader.comma
  else if character = ':' then reader.colon
  else none

def step (reader : Reader) (character : Char) : Option Reader :=
  match reader.lexeme with
  | .none => reader.begin character
  | .word letters =>
      if character.isLower then some { reader with lexeme := .word (character :: letters) }
      else do (← reader.deliverWord letters).begin character
  | .number characters =>
      if isNumberCharacter character then
        some { reader with lexeme := .number (character :: characters) }
      else do (← reader.deliverNumber characters).begin character
  | .string units escaped =>
      if character = '"' then reader.deliverString units escaped
      else if character = '\\' then some { reader with lexeme := .escape units }
      else if character.toNat < 0x20 then none
      else some { reader with lexeme := .string (character.toNat :: units) escaped }
  | .escape units =>
      if character = 'u' then some { reader with lexeme := .hex units 3 0 }
      else do
        let unit ← Text.shortEscape? character
        return { reader with lexeme := .string (unit :: units) true }
  | .hex units missing value => do
      let value := value * 16 + (← Text.hexValue? character)
      match missing with
      | 0 => return { reader with lexeme := .string (value :: units) true }
      | missing + 1 => return { reader with lexeme := .hex units missing value }

/-- The document, once the text is at its end. -/
def finish (reader : Reader) : Option Json := do
  let reader ←
    match reader.lexeme with
    | .none => some reader
    | .word letters => reader.deliverWord letters
    | .number characters => reader.deliverNumber characters
    | _ => none
  match reader.expectation with
  | .finished document => some document
  | _ => none

def run (reader : Reader) (characters : List Char) : Option Reader :=
  characters.foldlM step reader

theorem run_append (reader : Reader) (left right : List Char) :
    reader.run (left ++ right) = (reader.run left).bind fun next => next.run right :=
  List.foldlM_append

end Reader

def read? (text : String) : Option Json := do
  (← Reader.start.run text.toList).finish

end ScriptLowering.Json
