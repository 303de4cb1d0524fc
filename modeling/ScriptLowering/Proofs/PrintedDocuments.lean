import ScriptLowering.Json.Printer
import ScriptLowering.Json.Reader
import Mathlib.Data.List.TakeWhile

/-! # Printed documents are read back

A document is plain if it is made of what programs and modules are made of: no fractions, and
integers of at most 64 bits. The reader takes the printed form of a plain document apart into
that same document, whatever containers are open around it and whatever follows.
-/

namespace ScriptLowering.Json

/-! ## Integers -/

namespace Number

theorem toDigits_ne_zero_cons {value : Nat} (positive : 0 < value) (rest : List Char) :
    Nat.toDigits 10 value ≠ '0' :: rest := by
  induction value using Nat.strongRecOn generalizing rest with
  | ind value induction =>
      by_cases small : value < 10
      · rw [Nat.toDigits_of_lt_base small]
        have digit : ∀ number < 10, 0 < number → number.digitChar ≠ '0' := by decide
        intro same
        exact digit value small positive (List.cons.inj same).1
      · rw [Nat.toDigits_of_base_le (by decide) (by omega)]
        intro same
        rcases List.append_eq_cons_iff.mp same with ⟨none, -⟩ | ⟨tail, some, -⟩
        · exact Nat.toDigits_ne_nil none
        · exact induction (value / 10) (by omega) (by omega) tail some

theorem all_isDigit_toDigits (value : Nat) : ∀ digit ∈ Nat.toDigits 10 value, digit.isDigit = true :=
  fun _ member => Nat.isDigit_of_mem_toDigits (by decide) (by decide) member

theorem digits?_of_all {digits : List Char} (some : digits ≠ [])
    (all : ∀ digit ∈ digits, digit.isDigit = true) : digits? digits = .some (digits, []) := by
  have taken : digits.takeWhile Char.isDigit = digits := List.takeWhile_eq_self_iff.mpr all
  have dropped : digits.dropWhile Char.isDigit = [] := List.dropWhile_eq_nil_iff.mpr all
  unfold digits?
  rw [taken, dropped]
  cases digits with
  | nil => exact absurd rfl some
  | cons _ _ => rfl

theorem whole?_toDigits (value : Nat) :
    whole? (Nat.toDigits 10 value) = some (Nat.toDigits 10 value, []) := by
  have found := digits?_of_all Nat.toDigits_ne_nil (all_isDigit_toDigits value)
  simp only [whole?, found, Option.bind_eq_bind, Option.bind_some]
  split
  · rename_i first second same
    rcases Nat.eq_zero_or_pos value with rfl | positive
    · simp at same
    · exact absurd same (toDigits_ne_zero_cons positive _)
  · rfl

theorem parse?_signed (negative : Bool) (magnitude : Nat) :
    parse? ((if negative then ['-'] else []) ++ Nat.toDigits 10 magnitude) =
      some ⟨negative, Nat.toDigits 10 magnitude, none, none⟩ := by
  have whole := whole?_toDigits magnitude
  cases negative with
  | true => simp [parse?, whole, decimals?, exponent?]
  | false =>
      -- The first character is a digit, so the literal has no sign.
      have unsigned : ∀ rest, Nat.toDigits 10 magnitude ≠ '-' :: rest := by
        intro rest same
        have digit := all_isDigit_toDigits magnitude '-' (by rw [same]; exact List.mem_cons_self)
        exact absurd digit (by decide)
      simp [parse?, whole, decimals?, exponent?]

/-- The integers that are read as integers: signed or unsigned ones of 64 bits. -/
def inRange (value : Int) : Bool := Int64.minValue.toInt ≤ value && value < UInt64.size

theorem read?_written {value : Int} (fits : inRange value = true) :
    read? (written value) = some (.integer value) := by
  simp only [inRange, Bool.and_eq_true, decide_eq_true_eq] at fits
  have lowest : Int64.minValue.toInt = -2 ^ 63 := rfl
  have digits : ∀ magnitude, natural (Nat.toDigits 10 magnitude) = magnitude :=
    fun magnitude => Nat.ofDigitChars_toDigits (by decide) (by decide)
  cases value with
  | ofNat magnitude =>
      have parsed := parse?_signed false magnitude
      simp only [Bool.false_eq_true, if_false, List.nil_append] at parsed
      have small : magnitude < UInt64.size := Int.ofNat_lt.mp fits.2
      simp only [read?, written, parsed, Option.map_some, Literal.value, Literal.integer?, digits,
        Bool.false_eq_true, if_false, small, if_true]
      rfl
  | negSucc magnitude =>
      have parsed := parse?_signed true (magnitude + 1)
      simp only [if_true, List.singleton_append] at parsed
      have small : 0 < magnitude + 1 ∧ magnitude + 1 ≤ Int64.minValue.toInt.natAbs := by
        rw [lowest] at fits ⊢
        omega
      simp only [read?, written, parsed, Option.map_some, Literal.value, Literal.integer?, digits,
        if_true, if_pos small]
      rfl

end Number

/-! ## Strings -/

namespace Text

theorem ofUnits?_map_toNat (characters : List Char) :
    ofUnits? (characters.map Char.toNat) = some characters := by
  induction characters with
  | nil => rfl
  | cons character rest induction =>
      -- No character is a surrogate.
      have scalar : character.toNat < 0xd800 ∨
          0xdfff < character.toNat ∧ character.toNat < 0x110000 := character.valid
      have high : isHighSurrogate character.toNat = false := by
        simp only [isHighSurrogate, Bool.and_eq_false_iff, decide_eq_false_iff_not]
        omega
      have low : isLowSurrogate character.toNat = false := by
        simp only [isLowSurrogate, Bool.and_eq_false_iff, decide_eq_false_iff_not]
        omega
      rw [List.map_cons]
      unfold ofUnits?
      simp [high, low, induction, Char.ofNat_toNat]

theorem hexValue?_hexDigit (value : Nat) : hexValue? (hexDigit value) = some (value % 16) := by
  have each : ∀ digit < 16, hexValue? (hexDigits.getD digit '0') = some digit := by decide
  exact each (value % 16) (Nat.mod_lt _ (by decide))

end Text

namespace Reader

theorem run_cons (reader : Reader) (character : Char) (rest : List Char) :
    reader.run (character :: rest) = (reader.step character).bind fun next => next.run rest :=
  rfl

def inString (reader : Reader) (units : List Nat) (escaped : Bool) : Reader :=
  { reader with lexeme := .string units escaped }

theorem run_shortEscape (reader : Reader) (units : List Nat) (escaped : Bool) {letter : Char}
    {unit : Nat} (short : Text.shortEscape? letter = some unit) (notLong : letter ≠ 'u') :
    (reader.inString units escaped).run ['\\', letter] =
      some (reader.inString (unit :: units) true) := by
  simp [run, inString, step, short, notLong]

theorem run_longEscape (reader : Reader) (units : List Nat) (escaped : Bool) {unit : Nat}
    (small : unit < 0x20) :
    (reader.inString units escaped).run
        ['\\', 'u', '0', '0', Text.hexDigit (unit / 16), Text.hexDigit unit] =
      some (reader.inString (unit :: units) true) := by
  have zero : Text.hexValue? '0' = some 0 := rfl
  have first : unit / 16 % 16 = unit / 16 := by omega
  have value : unit / 16 * 16 + unit % 16 = unit := by omega
  simp [run, inString, step, Text.hexValue?_hexDigit, zero, first, value]

theorem run_unescaped (reader : Reader) (units : List Nat) (escaped : Bool) {character : Char}
    (notQuote : character ≠ '"') (notBackslash : character ≠ '\\')
    (notControl : ¬ character.toNat < 0x20) :
    (reader.inString units escaped).run [character] =
      some (reader.inString (character.toNat :: units) escaped) := by
  simp [run, inString, step, notQuote, notBackslash, notControl]

theorem run_escape (reader : Reader) (units : List Nat) (escaped : Bool) (character : Char) :
    (reader.inString units escaped).run (Text.escape character) =
      some (reader.inString (character.toNat :: units)
        (escaped || Text.needsEscape character)) := by
  have short : ∀ letter special, Text.escape special = ['\\', letter] →
      Text.shortEscape? letter = some special.toNat → letter ≠ 'u' →
      (reader.inString units escaped).run (Text.escape special) =
        some (reader.inString (special.toNat :: units) (escaped || Text.needsEscape special)) := by
    intro letter special writes reads notLong
    have needs : Text.needsEscape special = true := by simp [Text.needsEscape, writes]
    rw [writes, needs, Bool.or_true]
    exact run_shortEscape reader units escaped reads notLong
  by_cases quote : character = '"'
  · exact quote ▸ short '"' '"' rfl rfl (by decide)
  by_cases backslash : character = '\\'
  · exact backslash ▸ short '\\' '\\' rfl rfl (by decide)
  by_cases backspace : character = '\x08'
  · exact backspace ▸ short 'b' '\x08' rfl rfl (by decide)
  by_cases formFeed : character = '\x0c'
  · exact formFeed ▸ short 'f' '\x0c' rfl rfl (by decide)
  by_cases lineFeed : character = '\n'
  · exact lineFeed ▸ short 'n' '\n' rfl rfl (by decide)
  by_cases carriage : character = '\r'
  · exact carriage ▸ short 'r' '\r' rfl rfl (by decide)
  by_cases tabulator : character = '\t'
  · exact tabulator ▸ short 't' '\t' rfl rfl (by decide)
  by_cases control : character.toNat < 0x20
  · have writes : Text.escape character = ['\\', 'u', '0', '0',
        Text.hexDigit (character.toNat / 16), Text.hexDigit character.toNat] := by
      simp only [Text.escape, quote, backslash, backspace, formFeed, lineFeed, carriage,
        tabulator, control, if_true, if_false]
    have needs : Text.needsEscape character = true := by simp [Text.needsEscape, writes]
    rw [writes, needs, Bool.or_true]
    exact run_longEscape reader units escaped control
  · have writes : Text.escape character = [character] := by
      simp only [Text.escape, quote, backslash, backspace, formFeed, lineFeed, carriage,
        tabulator, control, if_false]
    have needs : Text.needsEscape character = false := by simp [Text.needsEscape, writes]
    rw [writes, needs, Bool.or_false]
    exact run_unescaped reader units escaped quote backslash control

theorem run_escapes (reader : Reader) (characters : List Char) (units : List Nat)
    (escaped : Bool) :
    (reader.inString units escaped).run (characters.flatMap Text.escape) =
      some (reader.inString ((characters.map Char.toNat).reverse ++ units)
        (escaped || characters.any Text.needsEscape)) := by
  induction characters generalizing units escaped with
  | nil => simp [run]
  | cons character rest induction =>
      rw [List.flatMap_cons, run_append, run_escape, Option.bind_some, induction]
      simp [Bool.or_assoc]

theorem run_quote {reader : Reader} (outside : reader.lexeme = .none) (text : String) :
    reader.run (Text.quote text) =
      reader.deliverString (text.toList.map Char.toNat).reverse
        (text.toList.any Text.needsEscape) := by
  have opens : reader.step '"' = some (reader.inString [] false) := by
    simp only [step, outside]
    rfl
  have closes : ∀ units escaped, (reader.inString units escaped).run ['"'] =
      reader.deliverString units escaped := by
    intro units escaped
    have delivers : (reader.inString units escaped).step '"' =
        reader.deliverString units escaped := rfl
    rw [run_cons, delivers]
    exact Option.bind_fun_some _
  rw [Text.quote, List.cons_append, run_cons, opens, Option.bind_some, run_append, run_escapes,
    Option.bind_some, closes]
  simp

theorem readString_units (text : String) :
    readString (text.toList.map Char.toNat).reverse = some text := by
  simp [readString, Text.ofUnits?_map_toNat]

theorem readName_units (text : String) :
    readName (text.toList.map Char.toNat).reverse (text.toList.any Text.needsEscape) =
      some (.ofText text) := by
  simp [readName, readString_units, Name.ofText]

/-! ## Reading on

A number or a word is complete only when something else follows or the text ends. So reading a
piece of text is described by what becomes of the rest, whatever it is. -/

/-- The document once the rest of the text is read. -/
def outcome (reader : Reader) (rest : List Char) : Option Json := (reader.run rest).bind finish

def isBoundary (character : Char) : Bool := !character.isLower && !isNumberCharacter character

def Bounded (rest : List Char) : Prop := ∀ character ∈ rest.head?, isBoundary character = true

theorem Bounded.append {first rest : List Char} (bounded : Bounded first)
    (follows : Bounded rest) : Bounded (first ++ rest) := by
  cases first with
  | nil => exact follows
  | cons _ _ => exact bounded

/-- Reading `characters` leads from one reader to the other, as far as the rest can tell. -/
def Reads (reader : Reader) (characters : List Char) (next : Reader) : Prop :=
  ∀ rest, Bounded rest → reader.outcome (characters ++ rest) = next.outcome rest

theorem outcome_append {reader next : Reader} {characters : List Char}
    (runs : reader.run characters = some next) (rest : List Char) :
    reader.outcome (characters ++ rest) = next.outcome rest := by
  rw [outcome, run_append, runs, Option.bind_some, outcome]

namespace Reads

variable {reader between next : Reader} {first second : List Char}

theorem of_run (runs : reader.run first = some next) : Reads reader first next :=
  fun rest _ => outcome_append runs rest

theorem after (runs : reader.run first = some between) (reads : Reads between second next) :
    Reads reader (first ++ second) next := by
  intro rest bounded
  rw [List.append_assoc, outcome_append runs]
  exact reads rest bounded

theorem trans (reads : Reads reader first between) (bounded : Bounded second)
    (continues : Reads between second next) : Reads reader (first ++ second) next := by
  intro rest follows
  rw [List.append_assoc, reads _ (bounded.append follows)]
  exact continues rest follows

end Reads

/-- The reader stands where a value may come. -/
structure Awaits (reader : Reader) : Prop where
  outside : reader.lexeme = .none
  expects : reader.expectation = .value ∨ reader.expectation = .itemOrEnd

/-- What becomes of a reader whose last literal is complete. -/
def settle (reader : Reader) : Option Reader :=
  match reader.lexeme with
  | .none => some reader
  | .word letters => reader.deliverWord letters
  | .number characters => reader.deliverNumber characters
  | _ => none

theorem lexeme_of_deliver {reader next : Reader} {value : Json}
    (delivers : reader.deliver value = some next) : next.lexeme = .none := by
  unfold deliver at delivers
  split at delivers
  · split at delivers <;> cases delivers <;> rfl
  · split at delivers <;> cases delivers <;> rfl
  · cases delivers

def Expectation.document? : Expectation → Option Json
  | .finished document => some document
  | _ => none

theorem finish_of_settle {pending next : Reader} (settles : pending.settle = some next)
    (outside : next.lexeme = .none) : pending.finish = next.finish := by
  have same : ∀ reader : Reader, reader.finish =
      reader.settle.bind fun settled => settled.expectation.document? := by
    intro reader
    cases pending : reader.lexeme <;> simp only [finish, settle, pending] <;> rfl
  have settled : next.settle = some next := by simp only [settle, outside]
  rw [same, same, settles, settled]

theorem step_of_settle {pending next : Reader} (settles : pending.settle = some next)
    (outside : next.lexeme = .none) {character : Char} (boundary : isBoundary character = true) :
    pending.step character = next.step character := by
  simp only [isBoundary, Bool.and_eq_true, Bool.not_eq_true'] at boundary
  have begins : next.step character = next.begin character := by simp only [step, outside]
  rw [begins]
  unfold settle at settles
  split at settles
  · cases settles
    exact begins
  · rename_i letters pendingWord
    simp [step, pendingWord, boundary.1, settles]
  · rename_i characters pendingNumber
    simp [step, pendingNumber, boundary.2, settles]
  · cases settles

theorem reads_of_settle {reader pending next : Reader} {characters : List Char}
    (runs : reader.run characters = some pending) (settles : pending.settle = some next)
    (outside : next.lexeme = .none) : Reads reader characters next := by
  intro rest bounded
  rw [outcome_append runs]
  cases rest with
  | nil => exact finish_of_settle settles outside
  | cons character rest =>
      rw [outcome, outcome, run_cons, run_cons,
        step_of_settle settles outside (bounded character rfl)]

/-! ## Literals -/

section Literals

variable {reader next : Reader}

theorem run_collects (collected : List Char → Reader) (goesOn : Char → Bool)
    (steps : ∀ before character, goesOn character = true →
      (collected before).step character = some (collected (character :: before)))
    {characters : List Char} (before : List Char)
    (all : ∀ character ∈ characters, goesOn character = true) :
    (collected before).run characters = some (collected (characters.reverse ++ before)) := by
  induction characters generalizing before with
  | nil => rfl
  | cons character rest induction =>
      rw [run_cons, steps before character (all character List.mem_cons_self), Option.bind_some,
        induction (character :: before) fun other member => all other (List.mem_cons_of_mem _ member)]
      simp

def inNumber (reader : Reader) (characters : List Char) : Reader :=
  { reader with lexeme := .number characters }

def inWord (reader : Reader) (letters : List Char) : Reader :=
  { reader with lexeme := .word letters }

theorem step_number (outside : reader.lexeme = .none) {first : Char}
    (starts : first.isDigit = true ∨ first = '-') :
    reader.step first = some (reader.inNumber [first]) := by
  have notBlank : isBlank first = false := by
    simp only [isBlank, Bool.or_eq_false_iff, decide_eq_false_iff_not]
    refine ⟨⟨⟨?_, ?_⟩, ?_⟩, ?_⟩ <;> rintro rfl <;> revert starts <;> decide
  have notQuote : first ≠ '"' := by rintro rfl; revert starts; decide
  have number : (first.isDigit || decide (first = '-')) = true := by simpa using starts
  simp only [step, outside, begin, notBlank, notQuote, number, if_true, if_false,
    Bool.false_eq_true]
  rfl

theorem step_word (outside : reader.lexeme = .none) {first : Char}
    (lower : first.isLower = true) : reader.step first = some (reader.inWord [first]) := by
  have notBlank : isBlank first = false := by
    simp only [isBlank, Bool.or_eq_false_iff, decide_eq_false_iff_not]
    refine ⟨⟨⟨?_, ?_⟩, ?_⟩, ?_⟩ <;> rintro rfl <;> revert lower <;> decide
  have notQuote : first ≠ '"' := by rintro rfl; revert lower; decide
  have notDigit : first.isDigit = false := by
    have above : 'a'.val ≤ first.val := of_decide_eq_true (Bool.and_eq_true_iff.mp lower).1
    simp only [Char.isDigit, Bool.and_eq_false_iff, decide_eq_false_iff_not]
    exact .inr fun small => absurd (UInt32.le_trans above small) (by decide)
  have notSign : first ≠ '-' := by rintro rfl; revert lower; decide
  have notNumber : (first.isDigit || decide (first = '-')) = false := by simp [notDigit, notSign]
  simp only [step, outside, begin, notBlank, notQuote, notNumber, lower, if_true, if_false,
    Bool.false_eq_true]
  rfl

theorem exists_written (value : Int) : ∃ first rest,
    Number.written value = first :: rest ∧ (first.isDigit = true ∨ first = '-') ∧
      ∀ character ∈ rest, isNumberCharacter character = true := by
  have digit : ∀ magnitude, ∀ character ∈ Nat.toDigits 10 magnitude,
      isNumberCharacter character = true := by
    intro magnitude character member
    simp [isNumberCharacter, Number.all_isDigit_toDigits magnitude character member]
  cases value with
  | ofNat magnitude =>
      rcases List.exists_cons_of_ne_nil (Nat.toDigits_ne_nil (b := 10) (n := magnitude)) with
        ⟨first, rest, same⟩
      have digits := digit magnitude
      have first_digit := Number.all_isDigit_toDigits magnitude first
      rw [same] at digits first_digit
      exact ⟨first, rest, same, .inl (first_digit List.mem_cons_self),
        fun character member => digits character (List.mem_cons_of_mem _ member)⟩
  | negSucc magnitude => exact ⟨'-', _, rfl, .inr rfl, digit (magnitude + 1)⟩

theorem reads_number (outside : reader.lexeme = .none) {value : Int}
    (fits : Number.inRange value = true)
    (delivers : reader.deliver (.integer value) = some next) :
    Reads reader (Number.written value) next := by
  rcases exists_written value with ⟨first, rest, same, starts, others⟩
  have runs : reader.run (Number.written value) =
      some (reader.inNumber (Number.written value).reverse) := by
    rw [same, run_cons, step_number outside starts, Option.bind_some,
      run_collects reader.inNumber isNumberCharacter ?_ [first] others]
    · simp
    · intro before character goesOn
      simp [step, inNumber, goesOn]
  refine reads_of_settle runs ?_ (lexeme_of_deliver delivers)
  simp only [settle, inNumber, deliverNumber, List.reverse_reverse, Number.read?_written fits]
  exact delivers

theorem reads_word (outside : reader.lexeme = .none) {first : Char} {rest : List Char}
    {value : Json} (lower : ∀ letter ∈ first :: rest, letter.isLower = true)
    (spells : reader.deliverWord (first :: rest).reverse = reader.deliver value)
    (delivers : reader.deliver value = some next) : Reads reader (first :: rest) next := by
  have runs : reader.run (first :: rest) = some (reader.inWord (first :: rest).reverse) := by
    rw [run_cons, step_word outside (lower first List.mem_cons_self), Option.bind_some,
      run_collects reader.inWord Char.isLower ?_ [first]
        fun letter member => lower letter (List.mem_cons_of_mem _ member)]
    · simp
    · intro before letter goesOn
      simp [step, inWord, goesOn]
  refine reads_of_settle runs ?_ (lexeme_of_deliver delivers)
  exact spells.trans delivers

theorem reads_string (awaits : reader.Awaits) {text : String}
    (delivers : reader.deliver (.string text) = some next) :
    Reads reader (Text.quote text) next := by
  refine .of_run ?_
  rw [run_quote awaits.outside]
  have value : reader.deliverString (text.toList.map Char.toNat).reverse
      (text.toList.any Text.needsEscape) = reader.deliver (.string text) := by
    rcases awaits.expects with expects | expects <;>
      simp only [deliverString, expects, readString_units]
  rw [value, delivers]

end Literals

/-! ## Blanks and containers -/

theorem run_newLine {reader : Reader} (outside : reader.lexeme = .none) (level : Nat) :
    reader.run (newLine level) = some reader := by
  have steps : ∀ character, isBlank character = true → reader.step character = some reader := by
    intro character blank
    simp only [step, outside, begin, blank, if_true]
  have spaces : ∀ count, reader.run (List.replicate count ' ') = some reader := by
    intro count
    induction count with
    | zero => rfl
    | succ count induction =>
        rw [List.replicate_succ, run_cons, steps ' ' rfl, Option.bind_some, induction]
  rw [newLine, run_cons, steps '\n' rfl, Option.bind_some, spaces]

theorem run_mark {reader next : Reader} {mark : Char} (steps : reader.step mark = some next)
    (outside : next.lexeme = .none) (level : Nat) :
    reader.run (mark :: newLine level) = some next := by
  rw [run_cons, steps, Option.bind_some, run_newLine outside]

theorem run_newLine_mark {reader : Reader} (outside : reader.lexeme = .none) (level : Nat)
    (mark : Char) : reader.run (newLine level ++ [mark]) = reader.step mark := by
  rw [run_append, run_newLine outside, Option.bind_some]
  exact Option.bind_fun_some _

namespace Awaits

variable {reader : Reader}

theorem openArray (awaits : reader.Awaits) :
    reader.step '[' = some ⟨.array [] :: reader.frames, .itemOrEnd, .none⟩ := by
  rcases awaits with ⟨outside, expects | expects⟩ <;>
    simp [step, outside, begin, isBlank, openContainer, expects]

theorem openObject (awaits : reader.Awaits) :
    reader.step '\x7b' = some ⟨.object [] :: reader.frames, .nameOrEnd, .none⟩ := by
  rcases awaits with ⟨outside, expects | expects⟩ <;>
    simp [step, outside, begin, isBlank, openContainer, expects]

theorem deliver_eq (awaits : reader.Awaits) (value : Json) :
    deliver ⟨reader.frames, .value, .none⟩ value = reader.deliver value := by
  rcases awaits with ⟨_, expects | expects⟩ <;> simp only [deliver, expects]

end Awaits

end Reader

mutual
/-- Only what programs and modules are made of, with each name as it is printed. -/
def plain : Json → Bool
  | .null | .bool _ | .string _ => true
  | .integer value => Number.inRange value
  | .fraction _ | .unreadable => false
  | .array items => plainItems items
  | .object members => plainMembers members

def plainItems : List Json → Bool
  | [] => true
  | item :: rest => item.plain && plainItems rest

def plainMembers : List (Name × Json) → Bool
  | [] => true
  | (name, value) :: rest => name = .ofText name.text && value.plain && plainMembers rest
end

namespace Reader

/-- However deep the document stands and whatever awaits it, its printed form delivers it. -/
def ReadsBack (document : Json) : Prop :=
  ∀ (level : Nat) (reader next : Reader), reader.Awaits → reader.deliver document = some next →
    Reads reader (document.printPretty level) next

/-! ### Arrays -/

theorem bounded_newLine (level : Nat) : Bounded (newLine level) := by
  rintro character ⟨⟩
  decide

theorem bounded_items (items : List Json) (level : Nat) : Bounded (printPrettyItems items level) := by
  cases items with
  | nil => rintro character ⟨⟩
  | cons item rest =>
      rintro character ⟨⟩
      decide

theorem reads_items {items : List Json} (all : ∀ item ∈ items, ReadsBack item) (level : Nat)
    (before : List Json) (frames : List Frame) :
    Reads ⟨.array before :: frames, .separator, .none⟩ (printPrettyItems items level)
      ⟨.array (items.reverse ++ before) :: frames, .separator, .none⟩ := by
  induction items generalizing before with
  | nil => exact .of_run rfl
  | cons item rest induction =>
      have opens : Reader.run ⟨.array before :: frames, .separator, .none⟩ (',' :: newLine level) =
          some ⟨.array before :: frames, .value, .none⟩ := run_mark rfl rfl level
      have first := all item List.mem_cons_self level ⟨.array before :: frames, .value, .none⟩ _
        ⟨rfl, .inl rfl⟩ rfl
      have others := induction (fun other member => all other (List.mem_cons_of_mem _ member))
        (item :: before)
      rw [printPrettyItems, List.append_assoc, List.reverse_cons, List.append_assoc]
      exact .after opens (first.trans (bounded_items rest level) others)

theorem readsBack_array {items : List Json} (all : ∀ item ∈ items, ReadsBack item) :
    ReadsBack (.array items) := by
  intro level reader next awaits delivers
  have closes : ∀ expectation inside, expectation = .itemOrEnd ∨ expectation = .separator →
      inside.reverse = items →
      step ⟨.array inside :: reader.frames, expectation, .none⟩ ']' = some next := by
    rintro expectation inside expects rfl
    rw [← delivers, ← awaits.deliver_eq]
    rcases expects with rfl | rfl <;> rfl
  cases items with
  | nil =>
      refine .of_run ?_
      rw [printPretty, run_cons, awaits.openArray, Option.bind_some, run_cons,
        closes .itemOrEnd [] (.inl rfl) rfl]
      rfl
  | cons item rest =>
      let opened : Reader := ⟨.array [] :: reader.frames, .itemOrEnd, .none⟩
      have opens : reader.run ('[' :: newLine (level + 1)) = some opened :=
        run_mark awaits.openArray rfl _
      have first := all item List.mem_cons_self (level + 1) opened _ ⟨rfl, .inr rfl⟩ rfl
      have others := reads_items (fun other member => all other (List.mem_cons_of_mem _ member))
        (level + 1) [item] reader.frames
      have last : Reader.run ⟨.array (rest.reverse ++ [item]) :: reader.frames, .separator, .none⟩
          (newLine level ++ [']']) = some next := by
        rw [run_newLine_mark rfl]
        exact closes .separator _ (.inr rfl) (by simp)
      rw [printPretty, List.append_assoc _ (newLine level), List.append_assoc, List.append_assoc]
      refine .after opens (first.trans ?_ (others.trans ?_ (.of_run last)))
      · exact (bounded_items rest _).append ((bounded_newLine level).append (by rintro _ ⟨⟩; decide))
      · exact (bounded_newLine level).append (by rintro _ ⟨⟩; decide)

/-! ### Objects -/

theorem reads_member {name : Name} {value : Json} (named : name = .ofText name.text)
    (back : ReadsBack value) (level : Nat) (before : List (Option Name × Json))
    (frames : List Frame) {expectation : Expectation}
    (expects : expectation = .name ∨ expectation = .nameOrEnd) :
    Reads ⟨.object before :: frames, expectation, .none⟩
      (Text.quote name.text ++ ':' :: ' ' :: value.printPretty level)
      ⟨.object ((some name, value) :: before) :: frames, .separator, .none⟩ := by
  have reads : Reader.run ⟨.object before :: frames, expectation, .none⟩ (Text.quote name.text) =
      some ⟨.entry before (some name) :: frames, .colon, .none⟩ := by
    rw [run_quote rfl]
    rcases expects with rfl | rfl <;> rw [deliverString, readName_units, ← named]
  have colon : Reader.run ⟨.entry before (some name) :: frames, .colon, .none⟩ [':', ' '] =
      some ⟨.entry before (some name) :: frames, .value, .none⟩ := rfl
  have inside := back level ⟨.entry before (some name) :: frames, .value, .none⟩ _
    ⟨rfl, .inl rfl⟩ rfl
  exact .after reads (.after colon inside)

theorem bounded_members (members : List (Name × Json)) (level : Nat) :
    Bounded (printPrettyMembers members level) := by
  cases members with
  | nil => rintro character ⟨⟩
  | cons member rest =>
      rintro character ⟨⟩
      decide

/-- The members of an open object, as the reader holds them. -/
def inverted (members : List (Name × Json)) : List (Option Name × Json) :=
  (members.map fun member => (some member.1, member.2)).reverse

theorem reads_members {members : List (Name × Json)}
    (all : ∀ member ∈ members, member.1 = .ofText member.1.text ∧ ReadsBack member.2)
    (level : Nat) (before : List (Option Name × Json)) (frames : List Frame) :
    Reads ⟨.object before :: frames, .separator, .none⟩ (printPrettyMembers members level)
      ⟨.object (inverted members ++ before) :: frames, .separator, .none⟩ := by
  induction members generalizing before with
  | nil => exact .of_run rfl
  | cons member rest induction =>
      rcases member with ⟨name, value⟩
      have opens : Reader.run ⟨.object before :: frames, .separator, .none⟩
          (',' :: newLine level) = some ⟨.object before :: frames, .name, .none⟩ :=
        run_mark rfl rfl level
      have here := all (name, value) List.mem_cons_self
      have first := reads_member here.1 here.2 level before frames (.inl rfl)
      have others := induction (fun other member => all other (List.mem_cons_of_mem _ member))
        ((some name, value) :: before)
      have same : inverted ((name, value) :: rest) ++ before =
          inverted rest ++ (some name, value) :: before := by simp [inverted]
      rw [printPrettyMembers, List.append_assoc, List.append_assoc, ← List.append_assoc
        (Text.quote name.text), same]
      exact .after opens (first.trans (bounded_members rest level) others)

theorem closeObject_inverted (members : List (Name × Json)) :
    closeObject (inverted members) = .object members := by
  have all : ∀ read : Option Name × Json → Option (Name × Json),
      (∀ name value, read (some name, value) = some (name, value)) →
      (members.map fun member => (some member.1, member.2)).mapM read = some members := by
    intro read reads
    induction members with
    | nil => rfl
    | cons member rest induction => simp [reads, induction]
  unfold closeObject inverted
  rw [List.reverse_reverse, all _ fun _ _ => rfl]

theorem readsBack_object {members : List (Name × Json)}
    (all : ∀ member ∈ members, member.1 = .ofText member.1.text ∧ ReadsBack member.2) :
    ReadsBack (.object members) := by
  intro level reader next awaits delivers
  have closes : ∀ expectation, expectation = .nameOrEnd ∨ expectation = .separator →
      step ⟨.object (inverted members) :: reader.frames, expectation, .none⟩ '\x7d' =
        some next := by
    intro expectation expects
    rw [← delivers, ← awaits.deliver_eq, ← closeObject_inverted]
    rcases expects with rfl | rfl <;> rfl
  cases members with
  | nil =>
      have closing : step ⟨.object [] :: reader.frames, .nameOrEnd, .none⟩ '\x7d' = some next :=
        closes .nameOrEnd (.inl rfl)
      refine .of_run ?_
      rw [printPretty, run_cons, awaits.openObject, Option.bind_some, run_cons, closing]
      rfl
  | cons member rest =>
      rcases member with ⟨name, value⟩
      let opened : Reader := ⟨.object [] :: reader.frames, .nameOrEnd, .none⟩
      have opens : reader.run ('\x7b' :: newLine (level + 1)) = some opened :=
        run_mark awaits.openObject rfl _
      have here := all (name, value) List.mem_cons_self
      have first := reads_member here.1 here.2 (level + 1) [] reader.frames (.inr rfl)
      have others := reads_members (fun other member => all other (List.mem_cons_of_mem _ member))
        (level + 1) [(some name, value)] reader.frames
      have last : Reader.run
          ⟨.object (inverted rest ++ [(some name, value)]) :: reader.frames, .separator, .none⟩
          (newLine level ++ ['\x7d']) = some next := by
        have same : inverted rest ++ [(some name, value)] = inverted ((name, value) :: rest) := by
          simp [inverted]
        rw [run_newLine_mark rfl, same]
        exact closes .separator (.inr rfl)
      have ending : Bounded (newLine level ++ ['\x7d']) :=
        (bounded_newLine level).append (by rintro _ ⟨⟩; decide)
      rw [printPretty, List.append_assoc _ (newLine level), List.append_assoc, List.append_assoc,
        List.append_assoc, ← List.append_assoc (Text.quote name.text)]
      exact .after opens
        (first.trans ((bounded_members rest _).append ending) (others.trans ending (.of_run last)))

/-! ### All plain documents -/

mutual
theorem readsBack : (document : Json) → document.plain = true → ReadsBack document
  | .null, _ => fun _ _ _ awaits => reads_word awaits.outside (List.all_eq_true.mp rfl) rfl
  | .bool true, _ => fun _ _ _ awaits => reads_word awaits.outside (List.all_eq_true.mp rfl) rfl
  | .bool false, _ => fun _ _ _ awaits => reads_word awaits.outside (List.all_eq_true.mp rfl) rfl
  | .integer _, fits => fun _ _ _ awaits => reads_number awaits.outside fits
  | .string _, _ => fun _ _ _ awaits => reads_string awaits
  | .fraction _, isPlain => by cases isPlain
  | .unreadable, isPlain => by cases isPlain
  | .array items, isPlain => readsBack_array (readsBack_items items isPlain)
  | .object members, isPlain => readsBack_object (readsBack_members members isPlain)

theorem readsBack_items : (items : List Json) → plainItems items = true →
    ∀ item ∈ items, ReadsBack item
  | [], _, _, member => by cases member
  | first :: rest, isPlain, item, member => by
      simp only [plainItems, Bool.and_eq_true] at isPlain
      rcases List.mem_cons.mp member with same | later
      · exact same ▸ readsBack first isPlain.1
      · exact readsBack_items rest isPlain.2 item later

theorem readsBack_members : (members : List (Name × Json)) → plainMembers members = true →
    ∀ member ∈ members, member.1 = .ofText member.1.text ∧ ReadsBack member.2
  | [], _, _, member => by cases member
  | (name, value) :: rest, isPlain, other, member => by
      simp only [plainMembers, Bool.and_eq_true, decide_eq_true_eq] at isPlain
      rcases List.mem_cons.mp member with same | later
      · exact same ▸ ⟨isPlain.1.1, readsBack value isPlain.1.2⟩
      · exact readsBack_members rest isPlain.2 other later
end

end Reader

/-- A plain document is read from its printed form. -/
theorem read?_pretty {document : Json} (isPlain : document.plain = true) :
    read? document.pretty = some document := by
  have reads := Reader.readsBack document isPlain 0 Reader.start ⟨[], .finished document, .none⟩
    ⟨rfl, .inl rfl⟩ rfl [] (by rintro _ ⟨⟩)
  rw [List.append_nil] at reads
  rw [read?, pretty, String.toList_ofList]
  exact reads

end ScriptLowering.Json
