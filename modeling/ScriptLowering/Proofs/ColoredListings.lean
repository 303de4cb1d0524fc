import Mathlib.Data.List.Basic
import ScriptLowering.Proofs.VerifierChecks
import ScriptLowering.Proofs.QuotedBytes

/-! # Colours and plain text

A listing is made of rows. A row has its indentation, a part that may be shown in a style, and what
follows behind that part. Without colours the same rows are shown, so a listing loses nothing but its
colours when the sequences that switch them are taken out of it.
-/

namespace ScriptLowering.Code

/-! ## Names -/

def Ty.names : Ty → List String
  | .handle name => [name]
  | .void | .bool | .int _ | .ptr => []

def Instruction.names : Instruction → List String
  | .alloca _ ty _ | .load _ ty _ | .arith _ _ _ _ ty | .negate _ _ ty => ty.names
  | .call _ callee _ => [callee]
  | .store _ _ | .compare _ _ _ _ => []

/-- The label of a block and all names in it. -/
def Block.names (block : Block) : List String :=
  block.label :: block.instructions.flatMap Instruction.names

def Signature.names (signature : Signature) : List String :=
  signature.name :: (signature.params.flatMap fun parameter => parameter.name :: parameter.ty.names) ++
    signature.returns.names

def Function.names (function : Function) : List String :=
  function.signature.names ++ function.body.temps.toList.flatMap Ty.names ++
    function.body.blocks.values.flatMap Block.names

def Global.names (global : Global) : List String := global.name :: global.ty.names

/-- All names, labels and names of handles in a module. -/
def Module.names (module : Module) : List String :=
  module.name :: module.globals.values.flatMap Global.names ++
    module.functions.values.flatMap Function.names

end ScriptLowering.Code

namespace ScriptLowering.Listing

open Code (Block Constant DataObject Function Global Instruction Linkage Operand Signature Terminator Ty)

/-! ## Taking colours out -/

/-- The characters between the bracket and the letter of a sequence that switches colours. -/
def isParameter (character : Char) : Bool := character.isDigit || character = ';'

/-- What stands behind a sequence that switches colours, if the text goes on with the rest of one. -/
def behindSequence? (text : List Char) : Option (List Char) :=
  match text.dropWhile isParameter with
  | 'm' :: behind => some behind
  | _ => none

theorem length_lt_of_behindSequence? {text behind : List Char}
    (found : behindSequence? text = some behind) : behind.length < text.length := by
  have bound : (text.dropWhile isParameter).length ≤ text.length :=
    (List.dropWhile_sublist isParameter).length_le
  unfold behindSequence? at found
  split at found
  · rename_i same
    cases found
    rw [same, List.length_cons] at bound
    omega
  · cases found

/-- The text without the sequences that switch colours. -/
def uncolored : List Char → List Char
  | '\x1b' :: '[' :: rest =>
      match found : behindSequence? rest with
      | some behind =>
          have := length_lt_of_behindSequence? found
          uncolored behind
      | none => '\x1b' :: '[' :: uncolored rest
  | character :: rest => character :: uncolored rest
  | [] => []
termination_by text => text.length

theorem uncolored_sequence {rest behind : List Char} (found : behindSequence? rest = some behind) :
    uncolored ('\x1b' :: '[' :: rest) = uncolored behind := by
  rw [uncolored]
  split <;> simp_all

theorem uncolored_cons {character : Char} (plain : character ≠ '\x1b') (rest : List Char) :
    uncolored (character :: rest) = character :: uncolored rest := by
  rw [uncolored]
  exact fun _ same _ => plain same

/-- What is left of a text when its colours are taken out, whatever stands behind it. -/
def Leaves (text plain : List Char) : Prop :=
  ∀ rest, uncolored (text ++ rest) = plain ++ uncolored rest

namespace Leaves

theorem nil : Leaves [] [] := fun _ => rfl

theorem append {text plain more morePlain : List Char} (first : Leaves text plain)
    (second : Leaves more morePlain) : Leaves (text ++ more) (plain ++ morePlain) := by
  intro rest
  rw [List.append_assoc, first, second, List.append_assoc]

theorem of_plain {text : List Char} (plain : '\x1b' ∉ text) : Leaves text text := by
  intro rest
  induction text with
  | nil => rfl
  | cons character text induction =>
      rw [List.mem_cons, not_or] at plain
      rw [List.cons_append, uncolored_cons (Ne.symm plain.1), induction plain.2, List.cons_append]

theorem flatMap {α : Type} {items : List α} {text plain : α → List Char}
    (each : ∀ item ∈ items, Leaves (text item) (plain item)) :
    Leaves (items.flatMap text) (items.flatMap plain) := by
  induction items with
  | nil => exact nil
  | cons item rest induction =>
      rw [List.flatMap_cons, List.flatMap_cons]
      exact (each item List.mem_cons_self).append
        (induction fun other later => each other (List.mem_cons_of_mem _ later))

theorem uncolored_eq {text plain : List Char} (leaves : Leaves text plain) :
    uncolored text = plain := by
  have whole := leaves []
  rwa [List.append_nil, show uncolored [] = [] by rw [uncolored], List.append_nil] at whole

theorem code (style : Style) : Leaves style.code [] := by
  intro rest
  cases style <;> exact uncolored_sequence (by simp [behindSequence?, isParameter])

theorem reset : Leaves Style.reset [] := by
  intro rest
  exact uncolored_sequence (by simp [behindSequence?, isParameter])

end Leaves

theorem Style.reopen_of_plain (code : List Char) {text : List Char} (plain : '\x1b' ∉ text) :
    Style.reopen code text = text := by
  induction text with
  | nil => rfl
  | cons character text induction =>
      rw [List.mem_cons, not_or] at plain
      rw [Style.reopen, induction plain.2]
      exact fun _ same _ => plain.1 same.symm

theorem Style.toList_paint (style : Style) {text : String} (plain : '\x1b' ∉ text.toList) :
    (style.paint text).toList = style.code ++ text.toList ++ Style.reset := by
  rw [Style.paint, String.toList_ofList, Style.reopen_of_plain _ plain]

/-! ## Rows -/

structure Row where
  level : Nat
  /-- The style of `text`, if it has one. -/
  style : Option Style
  text : String
  /-- What stands behind `text`, in no style. -/
  tail : String

namespace Row

def indentation (unit : String) (row : Row) : String := String.join (List.replicate row.level unit)

/-- The text as it is shown in its style. -/
def painted (row : Row) : String :=
  match row.style with
  | some style => style.paint row.text
  | none => row.text

/-- The line with and without colours. -/
def shown (unit : String) (useColors : Bool) (row : Row) : String :=
  row.indentation unit ++ (if useColors then row.painted else row.text) ++ row.tail ++ "\n"

def blank : Row := ⟨0, none, "", ""⟩

def plain (level : Nat) (text : String) : Row := ⟨level, none, text, ""⟩

end Row

def blockRows (module : Code.Module) (function : Function) (includeTypes : Bool) (block : Block) :
    List Row :=
  ⟨1, some .cyan, block.id.text ++ ": ; " ++ block.label, ""⟩ ::
    block.instructions.map (fun instruction =>
      .plain 2 (instructionText module function includeTypes instruction)) ++
    [.plain 2 (terminatorText module block.terminator)]

def headerText (function : Function) : String :=
  "function " ++ linkageText function.linkage ++ signatureText function.signature true

/-- The rows between the header of a function and its closing brace. -/
def bodyRows (module : Code.Module) (includeTypes : Bool) (function : Function) : List Row :=
  function.body.laidOut.flatMap (blockRows module function includeTypes)

def functionRows (module : Code.Module) (includeTypes : Bool) (function : Function) : List Row :=
  ⟨0, some .bold, headerText function, " \x7b"⟩ ::
    bodyRows module includeTypes function ++ [.plain 0 "\x7d"]

def groupRows (texts : List String) : List Row :=
  if texts.isEmpty then [] else .blank :: texts.map (.plain 0)

def moduleRows (module : Code.Module) (includeTypes : Bool) : List Row :=
  ⟨0, some .green, "; " ++ ("module " ++ module.name), ""⟩ ::
    groupRows (module.globals.values.map globalText) ++
    groupRows (module.data.values.map dataText) ++
    groupRows (module.declarations.map declarationText) ++
    module.definitions.flatMap fun function => .blank :: functionRows module includeTypes function

/-! ### What the rows show -/

def showRows (unit : String) (useColors : Bool) (rows : List Row) : String :=
  String.join (rows.map (Row.shown unit useColors))

section Showing

variable (unit : String) (useColors : Bool)

theorem showRows_cons (row : Row) (rows : List Row) :
    showRows unit useColors (row :: rows) = row.shown unit useColors ++ showRows unit useColors rows := by
  rw [showRows, List.map_cons, String.join_cons, showRows]

theorem showRows_append (rows more : List Row) :
    showRows unit useColors (rows ++ more) =
      showRows unit useColors rows ++ showRows unit useColors more := by
  rw [showRows, List.map_append, String.join_append, showRows, showRows]

theorem showRows_flatMap {α : Type} (items : List α) (rows : α → List Row) :
    showRows unit useColors (items.flatMap rows) =
      String.join (items.map fun item => showRows unit useColors (rows item)) := by
  induction items with
  | nil => rfl
  | cons item rest induction =>
      rw [List.flatMap_cons, showRows_append, induction, List.map_cons, String.join_cons]

def layoutAt (level : Nat) : Layout := ⟨level, unit, useColors⟩

theorem shown_plain (level : Nat) (text : String) :
    (Row.plain level text).shown unit useColors = (layoutAt unit useColors level).line text := by
  cases useColors <;>
    simp [Row.plain, Row.shown, Row.painted, Row.indentation, layoutAt, Layout.line, Layout.indentation]

theorem shown_styled (level : Nat) (style : Style) (text tail : String) :
    Row.shown unit useColors ⟨level, some style, text, tail⟩ =
      (layoutAt unit useColors level).line ((layoutAt unit useColors level).styled style text ++ tail) := by
  cases useColors <;>
    simp [Row.shown, Row.painted, Row.indentation, layoutAt, Layout.line, Layout.indentation,
      Layout.styled, String.append_assoc]

theorem shown_blank : Row.blank.shown unit useColors = Layout.blank := by
  cases useColors <;> simp [Row.blank, Row.shown, Row.painted, Row.indentation, Layout.blank]

theorem showRows_plain {α : Type} (level : Nat) (items : List α) (text : α → String) :
    showRows unit useColors (items.map fun item => .plain level (text item)) =
      String.join (items.map fun item => (layoutAt unit useColors level).line (text item)) := by
  rw [showRows, List.map_map]
  exact congrArg String.join (List.map_congr_left fun item _ => shown_plain unit useColors level _)

theorem showRows_groupRows (texts : List String) :
    showRows unit useColors (groupRows texts) = group (layoutAt unit useColors 0) texts := by
  unfold groupRows group
  split
  · rfl
  · rw [showRows_cons, shown_blank, showRows_plain]

variable (module : Code.Module) (includeTypes : Bool)

theorem showRows_blockRows (function : Function) (block : Block) :
    showRows unit useColors (blockRows module function includeTypes block) =
      blockLines module function includeTypes (layoutAt unit useColors 1) block := by
  rw [blockRows, showRows_append, showRows_cons, showRows_cons, shown_styled, shown_plain, showRows_plain,
    String.append_empty, blockLines, Layout.styledLine]
  simp [showRows, layoutAt, Layout.indent]

theorem showRows_functionRows (function : Function) :
    showRows unit useColors (functionRows module includeTypes function) =
      functionLines module includeTypes (layoutAt unit useColors 0) function := by
  rw [functionRows, showRows_append, showRows_cons, showRows_cons, shown_styled, shown_plain, bodyRows,
    showRows_flatMap]
  simp only [showRows_blockRows, functionLines, Layout.block, Layout.openBlock, Layout.closeBlock,
    headerText]
  simp [showRows, layoutAt, Layout.indent]

/-- A listing shows its rows. -/
theorem moduleLines_eq_showRows (settings : Settings) :
    moduleLines module settings =
      showRows settings.indentStyle.unit settings.useColors (moduleRows module settings.includeTypes) := by
  simp only [moduleRows, showRows_append, showRows_cons, showRows_groupRows, showRows_flatMap, shown_blank,
    showRows_functionRows, shown_styled, String.append_empty]
  simp [moduleLines, Layout.ofSettings, layoutAt, Layout.comment, Layout.styledLine, String.append_assoc]

end Showing

/-! ## Texts without colours -/

def Clean (text : String) : Prop := '\x1b' ∉ text.toList

instance (text : String) : Decidable (Clean text) := inferInstanceAs (Decidable (_ ∉ _))

theorem clean_empty : Clean "" := by decide

@[simp] theorem clean_append {first second : String} :
    Clean (first ++ second) ↔ Clean first ∧ Clean second := by
  simp [Clean, not_or]

@[simp] theorem clean_repr (number : Nat) : Clean number.repr := by
  rw [Clean, Nat.repr_eq_ofList_toDigits, String.toList_ofList]
  intro member
  have digit := Nat.isDigit_of_mem_toDigits (by decide) (by decide) member
  revert digit
  decide

@[simp] theorem clean_intRepr (number : Int) : Clean number.repr := by
  cases number with
  | ofNat value => exact clean_repr value
  | negSucc value => exact clean_append.mpr ⟨by decide, clean_repr _⟩

theorem clean_intercalate {separator : String} {texts : List String} (clean : Clean separator)
    (each : ∀ text ∈ texts, Clean text) : Clean (separator.intercalate texts) := by
  induction texts with
  | nil => exact clean_empty
  | cons text rest induction =>
      cases rest with
      | nil => simpa using each text List.mem_cons_self
      | cons next rest =>
          rw [String.intercalate_cons_cons, clean_append, clean_append]
          exact ⟨⟨each text List.mem_cons_self, clean⟩,
            induction fun other later => each other (List.mem_cons_of_mem _ later)⟩

@[simp] theorem clean_quoteBytes (bytes : List UInt8) : Clean (quoteBytes bytes) := by
  intro member
  rw [quoteBytes, String.toList_ofList] at member
  rcases List.mem_append.mp member with inside | closing
  · rcases List.mem_cons.mp inside with opening | inner
    · cases opening
    · exact absurd (isInner_of_mem_flatMap inner) (by decide)
  · simp at closing

def AllClean (names : List String) : Prop := ∀ name ∈ names, Clean name

@[simp] theorem allClean_nil : AllClean [] := fun _ member => absurd member List.not_mem_nil

@[simp] theorem allClean_cons {name : String} {names : List String} :
    AllClean (name :: names) ↔ Clean name ∧ AllClean names := List.forall_mem_cons

@[simp] theorem allClean_append {names more : List String} :
    AllClean (names ++ more) ↔ AllClean names ∧ AllClean more := List.forall_mem_append

@[simp] theorem allClean_flatMap {α : Type} {items : List α} {names : α → List String} :
    AllClean (items.flatMap names) ↔ ∀ item ∈ items, AllClean (names item) := by
  simp only [AllClean, List.mem_flatMap]
  exact ⟨fun clean item member name inside => clean name ⟨item, member, inside⟩,
    fun clean name ⟨item, member, inside⟩ => clean item member name inside⟩

theorem allClean_module {module : Code.Module} : AllClean module.names ↔ Clean module.name ∧
    (∀ global ∈ module.globals.values, Clean global.name ∧ AllClean global.ty.names) ∧
      ∀ function ∈ module.functions.values, AllClean function.names := by
  simp [Code.Module.names, Global.names]

theorem allClean_signature {signature : Signature} : AllClean signature.names ↔
    Clean signature.name ∧
      (∀ parameter ∈ signature.params, Clean parameter.name ∧ AllClean parameter.ty.names) ∧
        AllClean signature.returns.names := by
  simp [Signature.names]

theorem allClean_function {function : Function} : AllClean function.names ↔
    AllClean function.signature.names ∧ (∀ ty ∈ function.body.temps.toList, AllClean ty.names) ∧
      ∀ block ∈ function.body.blocks.values, AllClean block.names := by
  simp [Function.names]

theorem allClean_block {block : Block} : AllClean block.names ↔
    Clean block.label ∧ ∀ instruction ∈ block.instructions, AllClean instruction.names := by
  simp [Block.names]

theorem clean_tyText {ty : Ty} (clean : AllClean ty.names) : Clean ty.text := by
  cases ty with
  | handle name =>
      rw [Ty.names, allClean_cons] at clean
      simp +decide [Ty.text, clean.1]
  | void | bool | ptr => decide
  | int bits => simp +decide [Ty.text]

@[simp] theorem clean_constantText (value : Constant) : Clean value.text := by
  cases value with
  | bool value => cases value <;> decide
  | int value bits => exact clean_intRepr _
  | null => decide

@[simp] theorem clean_blockIdText (id : Code.BlockId) : Clean id.text :=
  clean_append.mpr ⟨by decide, clean_repr _⟩

@[simp] theorem clean_numberText (operand : Operand) : Clean operand.text := by
  cases operand with
  | constant value => exact clean_constantText value
  | temp | param | global | data => exact clean_append.mpr ⟨by decide, clean_repr _⟩

@[simp] theorem clean_linkageText (linkage : Linkage) : Clean (linkageText linkage) := by
  cases linkage <;> decide

/-! ### Texts of a module -/

section Texts

variable {module : Code.Module} (clean : AllClean module.names)

include clean

theorem clean_globalText {global : Global} (member : global ∈ module.globals.values) :
    Clean (globalText global) := by
  have names := (allClean_module.mp clean).2.1 global member
  simp +decide [globalText, names.1, clean_tyText names.2]

@[simp] theorem clean_operandText (operand : Operand) : Clean (operandText module operand) := by
  cases operand with
  | global id =>
      cases found : module.global? id with
      | none => simp +decide [operandText, found, Code.GlobalId.text]
      | some global =>
          have names := (allClean_module.mp clean).2.1 global (Table.mem_values_iff.mpr ⟨id, found⟩)
          simp +decide [operandText, found, names.1]
  | temp | param | data | constant => exact clean_numberText _

theorem clean_terminatorText (terminator : Terminator) : Clean (terminatorText module terminator) := by
  cases terminator with
  | ret value => cases value <;> simp +decide [terminatorText, clean_operandText clean]
  | jump | branch | unfinished => simp +decide [terminatorText, clean_operandText clean]

omit clean in
theorem clean_signatureText {signature : Signature} (names : AllClean signature.names)
    (numbered : Bool) : Clean (signatureText signature numbered) := by
  rw [allClean_signature] at names
  have others (params : String) : Clean ("@" ++ signature.name ++ "(" ++ params ++ ") -> " ++
      signature.returns.text) ↔ Clean params := by
    simp +decide [names.1, clean_tyText names.2.2]
  refine (others _).mpr (clean_intercalate (by decide) fun text member => ?_)
  rcases List.mem_map.mp member with ⟨⟨parameter, index⟩, isParameter, rfl⟩
  have ty := clean_tyText (names.2.1 parameter (List.fst_mem_of_mem_zipIdx isParameter)).2
  cases numbered <;> simp +decide [ty]

variable {function : Function} (names : AllClean function.names)

include names

omit clean in
theorem clean_typeOf? {operand : Operand} {ty : Ty} (typed : function.typeOf? operand = some ty) :
    AllClean ty.names := by
  rw [allClean_function, allClean_signature] at names
  cases operand with
  | temp id => exact names.2.1 ty (Array.mem_toList_iff.mpr (Array.mem_of_getElem? typed))
  | param id =>
      rcases Option.map_eq_some_iff.mp typed with ⟨parameter, found, rfl⟩
      exact (names.1.2.1 parameter (List.mem_of_getElem? found)).2
  | global | data =>
      cases typed
      exact allClean_nil
  | constant value =>
      cases value with
      | null => cases typed
      | bool | int =>
          cases typed
          exact allClean_nil

omit clean in
theorem clean_resultText (includeTypes : Bool) (result : Operand) :
    Clean (resultText function includeTypes result) := by
  unfold resultText
  split
  · rename_i ty typed
    have ty := clean_tyText (clean_typeOf? names typed)
    cases includeTypes <;> simp +decide [ty]
  · simp +decide

theorem clean_instructionText (includeTypes : Bool) {instruction : Instruction}
    (inner : AllClean instruction.names) :
    Clean (instructionText module function includeTypes instruction) := by
  have result := clean_resultText names includeTypes
  have operand := clean_operandText clean
  cases instruction with
  | alloca | load => simp +decide [instructionText, result, operand, clean_tyText inner]
  | store => simp +decide [instructionText, operand]
  | arith op =>
      have mnemonic : Clean op.mnemonic := by cases op <;> decide
      simp +decide [instructionText, result, operand, mnemonic, clean_tyText inner]
  | negate => simp +decide [instructionText, result, operand, clean_tyText inner]
  | compare value condition =>
      have mnemonic : Clean condition.mnemonic := by cases condition <;> decide
      simp +decide [instructionText, result, operand, mnemonic]
  | call value callee args =>
      have texts : Clean (", ".intercalate (args.map (operandText module))) :=
        clean_intercalate (by decide) fun text member => by
          rcases List.mem_map.mp member with ⟨argument, _, rfl⟩
          exact operand argument
      rw [Instruction.names, allClean_cons] at inner
      cases value <;> simp +decide [instructionText, result, texts, inner.1]

/-! ### Rows of a module -/

/-- There are no colours in the texts of the row. -/
structure Row.Uncolored (row : Row) : Prop where
  text : Clean row.text
  tail : Clean row.tail

theorem uncolored_blockRows (includeTypes : Bool) {block : Block}
    (laidOut : block ∈ function.body.laidOut) :
    ∀ row ∈ blockRows module function includeTypes block, row.Uncolored := by
  rcases Code.Body.mem_laidOut.mp laidOut with ⟨id, _, found⟩
  have inner := allClean_block.mp
    ((allClean_function.mp names).2.2 block (Table.mem_values_iff.mpr ⟨id, found⟩))
  intro row member
  simp only [blockRows, List.cons_append, List.mem_cons, List.mem_append, List.mem_map,
    List.not_mem_nil, or_false] at member
  rcases member with rfl | ⟨instruction, inside, rfl⟩ | rfl
  · have header : Clean (block.id.text ++ ": ; " ++ block.label) := by simp +decide [inner.1]
    exact ⟨header, clean_empty⟩
  · exact ⟨clean_instructionText clean names includeTypes (inner.2 instruction inside), clean_empty⟩
  · exact ⟨clean_terminatorText clean _, clean_empty⟩

theorem uncolored_functionRows (includeTypes : Bool) :
    ∀ row ∈ functionRows module includeTypes function, row.Uncolored := by
  intro row member
  simp only [functionRows, bodyRows, List.cons_append, List.mem_cons, List.mem_append,
    List.mem_flatMap, List.not_mem_nil, or_false] at member
  rcases member with rfl | ⟨block, laidOut, inside⟩ | rfl
  · have signature := clean_signatureText (allClean_function.mp names).1 true
    have header : Clean (headerText function) := by simp +decide [headerText, signature]
    exact ⟨header, (by decide : Clean " \x7b")⟩
  · exact uncolored_blockRows clean names includeTypes laidOut row inside
  · exact ⟨by decide, by decide⟩

omit clean names in
theorem uncolored_groupRows {texts : List String} (each : ∀ text ∈ texts, Clean text) :
    ∀ row ∈ groupRows texts, row.Uncolored := by
  intro row member
  unfold groupRows at member
  split at member
  · cases member
  · rcases List.mem_cons.mp member with rfl | inside
    · exact ⟨by decide, by decide⟩
    · rcases List.mem_map.mp inside with ⟨text, isText, rfl⟩
      exact ⟨each text isText, clean_empty⟩

omit names in
theorem uncolored_moduleRows (includeTypes : Bool) :
    ∀ row ∈ moduleRows module includeTypes, row.Uncolored := by
  have parts := allClean_module.mp clean
  intro row member
  simp only [moduleRows, List.cons_append, List.mem_cons, List.mem_append, List.mem_flatMap,
    or_assoc] at member
  rcases member with rfl | isGlobal | isData | isDeclaration | ⟨function, defined, inside⟩
  · have header : Clean ("; " ++ ("module " ++ module.name)) := by simp +decide [parts.1]
    exact ⟨header, clean_empty⟩
  · refine uncolored_groupRows (fun text isText => ?_) row isGlobal
    rcases List.mem_map.mp isText with ⟨global, inside, rfl⟩
    exact clean_globalText clean inside
  · refine uncolored_groupRows (fun text isText => ?_) row isData
    rcases List.mem_map.mp isText with ⟨object, _, rfl⟩
    simp +decide [dataText, Code.DataId.text]
  · refine uncolored_groupRows (fun text isText => ?_) row isDeclaration
    rcases List.mem_map.mp isText with ⟨function, declared, rfl⟩
    have names := parts.2.2 function (List.mem_filter.mp declared).1
    have signature := clean_signatureText (allClean_function.mp names).1 false
    simp +decide [declarationText, signature]
  · have names := parts.2.2 function (List.mem_filter.mp defined).1
    rcases inside with rfl | inside
    · exact ⟨by decide, by decide⟩
    · exact uncolored_functionRows clean names includeTypes row inside

end Texts

/-! ## Both listings -/

theorem Row.toList_shown (unit : String) (useColors : Bool) (row : Row) :
    (row.shown unit useColors).toList = (row.indentation unit).toList ++
      (if useColors then row.painted else row.text).toList ++ row.tail.toList ++ ['\n'] := by
  simp [Row.shown]

theorem IndentStyle.clean_unit (style : IndentStyle) : Clean style.unit := by
  cases style with
  | tabs => decide
  | spaces width =>
      intro member
      rw [IndentStyle.unit, String.toList_ofList] at member
      cases List.eq_of_mem_replicate member

theorem Row.clean_indentation {unit : String} (clean : Clean unit) (row : Row) :
    Clean (row.indentation unit) := by
  intro member
  rw [Row.indentation, String.toList_join] at member
  rcases List.mem_flatMap.mp member with ⟨text, inside, hit⟩
  cases List.eq_of_mem_replicate inside
  exact clean hit

/-- The colours of a row can be taken out of it. -/
theorem Row.leaves_shown {unit : String} (clean : Clean unit) {row : Row} (plain : row.Uncolored) :
    Leaves (row.shown unit true).toList (row.shown unit false).toList := by
  have painted : Leaves row.painted.toList row.text.toList := by
    unfold Row.painted
    cases row.style with
    | none => exact .of_plain plain.text
    | some style =>
        have wrapped := ((Leaves.code style).append (.of_plain plain.text)).append .reset
        simpa [style.toList_paint plain.text] using wrapped
  rw [Row.toList_shown, Row.toList_shown]
  exact (((Leaves.of_plain (row.clean_indentation clean)).append painted).append
    (.of_plain plain.tail)).append (.of_plain (by decide))

/-- A coloured listing has the same rows as a plain one. In each of them the colours go around the text and
not around its indentation, and taking them out leaves the plain row; so taking them out of the listing
leaves the plain listing. Every function begins and ends at the margin. -/
theorem colors_can_be_taken_out {module : Code.Module}
    (clean : ∀ name ∈ module.names, '\x1b' ∉ name.toList) (settings : Settings) :
    uncolored (moduleLines module (settings.withColors true)).toList =
      (moduleLines module (settings.withColors false)).toList ∧
    (∀ useColors, moduleLines module (settings.withColors useColors) =
      String.join ((moduleRows module settings.includeTypes).map
        (Row.shown settings.indentStyle.unit useColors))) ∧
    (∀ row ∈ moduleRows module settings.includeTypes,
      uncolored (row.shown settings.indentStyle.unit true).toList =
        (row.shown settings.indentStyle.unit false).toList ∧
      ∀ style, row.style = some style → (row.shown settings.indentStyle.unit true).toList =
        (row.indentation settings.indentStyle.unit).toList ++
          (style.code ++ row.text.toList ++ Style.reset) ++ row.tail.toList ++ ['\n']) ∧
    ∀ function ∈ module.definitions, ∃ header inner,
      functionRows module settings.includeTypes function = header :: inner ++ [.plain 0 "\x7d"] ∧
        header.level = 0 ∧ ∀ row ∈ inner, 0 < row.level := by
  have unit := settings.indentStyle.clean_unit
  have rows := uncolored_moduleRows clean settings.includeTypes
  have shows (useColors : Bool) : moduleLines module (settings.withColors useColors) =
      String.join ((moduleRows module settings.includeTypes).map
        (Row.shown settings.indentStyle.unit useColors)) := moduleLines_eq_showRows module _
  refine ⟨?_, shows, fun row member => ⟨(Row.leaves_shown unit (rows row member)).uncolored_eq, ?_⟩, ?_⟩
  · rw [shows, shows, String.toList_join, String.toList_join, List.flatMap_map, List.flatMap_map]
    exact (Leaves.flatMap fun row member => Row.leaves_shown unit (rows row member)).uncolored_eq
  · intro style isStyle
    have painted : row.painted = style.paint row.text := by rw [Row.painted, isStyle]
    rw [Row.toList_shown, if_pos rfl, painted, style.toList_paint (rows row member).text]
  · intro function _
    refine ⟨_, bodyRows module settings.includeTypes function, rfl, rfl, fun row inside => ?_⟩
    rcases List.mem_flatMap.mp inside with ⟨block, _, isRow⟩
    simp only [blockRows, List.cons_append, List.mem_cons, List.mem_append, List.mem_map,
      List.not_mem_nil, or_false] at isRow
    rcases isRow with rfl | ⟨_, _, rfl⟩ | rfl <;> exact Nat.succ_pos _

/-- A global, bytes with an escape character among them, a declared function and a defined one. -/
def paintedModule : Code.Module where
  name := "painted"
  functions := .ofList [
    ("other", .declared ⟨"other", [⟨"flag", .bool⟩], .handle "box"⟩ .exported),
    ("main", {
      signature := ⟨"main", [], .void⟩
      linkage := .internal
      body := {
        blocks := .ofList [(⟨0⟩, ⟨⟨0⟩, "entry",
          [.call (some (.temp ⟨0⟩)) "other" [.constant (.bool true)],
            .store (.global ⟨0⟩) (.temp ⟨0⟩)], .ret none⟩)]
        layout := [⟨0⟩]
        temps := #[.handle "box"]
        nextBlock := 1 } })]
  globals := .ofList [(⟨0⟩, ⟨⟨0⟩, "kept", .handle "box", .null, 8, .exported⟩)]
  data := .ofList [(⟨0⟩, ⟨⟨0⟩, [0x1b, 0x5b, 0x30, 0x6d]⟩)]
  nextGlobal := 1
  nextData := 1

theorem paintedModule_colors_can_be_taken_out :
    (∀ name ∈ paintedModule.names, '\x1b' ∉ name.toList) ∧
      uncolored (moduleLines paintedModule ⟨true, .tabs, true⟩).toList =
        (moduleLines paintedModule ⟨false, .tabs, true⟩).toList ∧
      '\x1b' ∈ (moduleLines paintedModule ⟨true, .tabs, true⟩).toList := by
  have clean : ∀ name ∈ paintedModule.names, '\x1b' ∉ name.toList := by decide
  refine ⟨clean, (colors_can_be_taken_out clean ⟨true, .tabs, true⟩).1, ?_⟩
  rw [moduleLines_eq_showRows, showRows, String.toList_join, List.mem_flatMap]
  exact ⟨_, List.mem_map_of_mem List.mem_cons_self, by decide⟩

end ScriptLowering.Listing
