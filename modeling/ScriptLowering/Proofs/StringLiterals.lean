import Mathlib.Data.List.TakeWhile
import ScriptLowering.Proofs.ProgramHistory
import ScriptLowering.Proofs.VariableNames

/-! # The text of string literals

A string is created from the bytes of its literal, which end with a zero byte. What is read of them
ends at the first zero byte, and this need not be the last one: a text goes on behind a NUL
character, and what is read does not.
-/

namespace ScriptLowering.Code

/-! ## Texts as bytes -/

/-- What is read of bytes that end with a zero byte. -/
def readText (bytes : List UInt8) : List UInt8 := bytes.takeWhile (· ≠ 0)

def utf8 (text : String) : List UInt8 := text.toUTF8.toList

/-- A text up to its first NUL character. -/
def beforeNul (text : String) : String := .ofList (text.toList.takeWhile (· ≠ '\x00'))

theorem toList_loop (bytes : ByteArray) (index : Nat) (done : List UInt8) :
    ByteArray.toList.loop bytes index done = done.reverse ++ bytes.data.toList.drop index := by
  fun_induction ByteArray.toList.loop bytes index done with
  | case1 index done bound induction =>
      have inside : index < bytes.data.toList.length := bound
      have head : bytes.get! index = bytes.data.toList[index] := getElem!_pos bytes.data index bound
      rw [induction, List.drop_eq_getElem_cons inside, List.reverse_cons, List.append_assoc, head]
      rfl
  | case2 index done bound =>
      rw [List.drop_eq_nil_of_le (Nat.le_of_not_lt bound), List.append_nil]

theorem utf8_ofList (chars : List Char) :
    utf8 (.ofList chars) = chars.flatMap String.utf8EncodeChar := by
  have bytes : (String.ofList chars).toUTF8 = chars.utf8Encode := String.toByteArray_ofList
  rw [utf8, bytes, ByteArray.toList, toList_loop, List.utf8Encode, List.data_toByteArray]
  rfl

theorem utf8_eq (text : String) : utf8 text = text.toList.flatMap String.utf8EncodeChar := by
  rw [← utf8_ofList, String.ofList_toList]

theorem utf8_inj {first second : String} : utf8 first = utf8 second ↔ first = second := by
  refine ⟨fun same => String.toByteArray_inj.mp ?_, fun same => congrArg utf8 same⟩
  rw [utf8, utf8, ByteArray.toList, ByteArray.toList, toList_loop, toList_loop] at same
  exact ByteArray.ext (Array.toList_inj.mp same)

theorem ofNat_ne_zero {number : Nat} (positive : 0 < number) (small : number < 256) :
    UInt8.ofNat number ≠ 0 := by
  intro zero
  have same := congrArg UInt8.toNat zero
  rw [UInt8.toNat_ofNat', Nat.mod_eq_of_lt small] at same
  exact Nat.ne_of_gt positive same

theorem ne_zero_of_mem_encodeChar {char : Char} (notNul : char ≠ '\x00') {byte : UInt8}
    (member : byte ∈ String.utf8EncodeChar char) : byte ≠ 0 := by
  have positive : 0 < char.val.toNat := by
    refine Nat.pos_of_ne_zero fun zero => notNul (Char.ext ?_)
    exact UInt32.toNat_inj.mp zero
  unfold String.utf8EncodeChar at member
  dsimp only at member
  split at member
  · cases List.mem_singleton.mp member
    exact ofNat_ne_zero positive (by omega)
  -- Behind the ASCII characters, every byte has its highest bit set.
  · have bytes : ∃ low high, 0 < high ∧ low + high < 256 ∧ byte = UInt8.ofNat (low + high) := by
      split at member
      · rcases List.mem_pair.mp member with rfl | rfl <;> exact ⟨_, _, by decide, by omega, rfl⟩
      · split at member <;> simp only [List.mem_cons, List.not_mem_nil, or_false] at member
        · rcases member with rfl | rfl | rfl <;> exact ⟨_, _, by decide, by omega, rfl⟩
        · rcases member with rfl | rfl | rfl | rfl <;> exact ⟨_, _, by decide, by omega, rfl⟩
    rcases bytes with ⟨low, high, set, small, rfl⟩
    exact ofNat_ne_zero (Nat.add_pos_right low set) small

theorem readText_flatMap (chars : List Char) :
    readText (chars.flatMap String.utf8EncodeChar ++ [0]) =
      (chars.takeWhile (· ≠ '\x00')).flatMap String.utf8EncodeChar := by
  induction chars with
  | nil => rfl
  | cons char chars induction =>
      rw [List.flatMap_cons, List.append_assoc]
      by_cases isNul : char = '\x00'
      · subst isNul
        rfl
      · have nonzero (byte : UInt8) (member : byte ∈ String.utf8EncodeChar char) :
            decide (byte ≠ 0) = true :=
          decide_eq_true (ne_zero_of_mem_encodeChar isNul member)
        rw [List.takeWhile_cons, if_pos (decide_eq_true isNul), List.flatMap_cons, ← induction]
        exact List.takeWhile_append_of_pos nonzero

/-- The bytes of a text are read up to its first NUL character. -/
theorem readText_textBytes (text : String) :
    readText (Module.textBytes text) = utf8 (beforeNul text) := by
  rw [beforeNul, utf8_ofList, ← readText_flatMap, ← utf8_eq]
  rfl

theorem beforeNul_eq_self_iff {text : String} : beforeNul text = text ↔ '\x00' ∉ text.toList := by
  rw [← String.toList_inj, beforeNul, String.toList_ofList, List.takeWhile_eq_self_iff]
  simp only [decide_eq_true_eq]
  exact ⟨fun all member => all _ member rfl, fun missing char member same => missing (same ▸ member)⟩

end ScriptLowering.Code

namespace ScriptLowering.Lowering

open Source (Program ExprId)
open Code (DataId Operand Place beforeNul readText utf8)

/-! ## Data stays -/

def Session.KeepsData (session next : Session) : Prop :=
  ∀ id object, session.cursor.module.data.get? id = some object →
    next.cursor.module.data.get? id = some object

/-- The next session counts its data as well, and has the data of the session. -/
structure Session.KeepsCount (session next : Session) : Prop where
  counts : next.Counts
  keeps : session.KeepsData next

variable {program : Program} {name : String} {first last session mid next : Session}
  {events : List Event}

theorem Session.Counts.stay (counts : session.Counts)
    (data : next.cursor.module.data = session.cursor.module.data)
    (number : next.cursor.module.nextData = session.cursor.module.nextData)
    (values : session.annotations.values.size ≤ next.annotations.values.size) :
    session.KeepsCount next where
  counts := by
    refine ⟨?_, ?_, ?_⟩
    · rw [number, data]
      exact counts.next
    · rw [data]
      exact counts.below
    · rw [data]
      exact Nat.le_trans counts.few values
  keeps id object found := by
    rw [data]
    exact found

theorem size_le_of_recordValue {id : ExprId} {value : Option Operand}
    (records : recordValue id value session = .ok ((), next)) :
    session.annotations.values.size ≤ next.annotations.values.size := by
  cases value with
  | none =>
      cases records
      exact Nat.le_refl _
  | some value =>
      simp only [recordValue, Lower.annotate, Annotations.setValue] at records
      split at records
      · rename_i annotations sets
        cases records
        split at sets
        · cases sets
        · cases sets
          exact Table.size_le_insert _ _ _
      · cases records

theorem Session.Counts.recordText (counts : session.Counts) {id : ExprId} {value : Operand}
    {text : String} (same : mid.cursor.module.data = (session.addText text).cursor.module.data)
    (number : mid.cursor.module.nextData = (session.addText text).cursor.module.nextData)
    (annotations : mid.annotations = session.annotations)
    (records : recordValue id (some value) mid = .ok ((), next)) : session.KeepsCount next := by
  simp only [recordValue, Lower.annotate, Annotations.setValue, annotations] at records
  split at records
  · rename_i changed sets
    cases records
    split at sets
    · cases sets
    · rename_i unknown
      cases sets
      have room := Link.room_of_unrecorded counts (by simpa using unknown) value
      let ready : Session := { session with
        annotations := { session.annotations with
          values := session.annotations.values.insert id value } }
      have counted : ready.Counts :=
        ⟨counts.next, counts.below, Nat.le_trans counts.few (Table.size_le_insert _ _ _)⟩
      have added := counted.addText room text
      refine ⟨⟨?_, ?_, ?_⟩, fun other object found => ?_⟩
      · change mid.cursor.module.nextData = mid.cursor.module.data.size.toUInt32
        rw [same, number]
        exact added.next
      · change ∀ id ∈ mid.cursor.module.data.keys, _ < mid.cursor.module.data.size
        rw [same]
        exact added.below
      · change mid.cursor.module.data.size ≤ _
        rw [same]
        exact added.few
      · change mid.cursor.module.data.get? other = _
        have fresh := counted.fresh room
        rw [same]
        refine (Table.get?_insert_other _ _ ?_).trans found
        rintro rfl
        exact fresh (Table.mem_keys_iff.mpr ⟨object, found⟩)
  · cases records

theorem Session.Emits.keepsCount {id : ExprId} {node : Source.ExprNode} {value : Option Operand}
    (emits : session.Emits program node name value mid) (counts : session.Counts)
    (records : recordValue id value mid = .ok ((), next)) : session.KeepsCount next := by
  have same := (recordValue_eq_ok records).1
  cases emits with
  | @intro place after values builds operands emits puts =>
      have annotations : mid.annotations = session.annotations := by
        rw [puts]
        cases node <;> rfl
      cases emits with
      | @stringLiteral text =>
          exact counts.recordText (by rw [puts]; rfl) (by rw [puts]; rfl) annotations records
      | _ =>
          refine counts.stay (by rw [same, puts]; rfl) (by rw [same, puts]; rfl) ?_
          rw [← annotations]
          exact size_le_of_recordValue records

theorem Task.Performs.keepsCount {task : Task} (performs : task.Performs program name session next)
    (counts : session.Counts) : session.KeepsCount next := by
  cases performs with
  | expr _ emits records => exact emits.keepsCount counts records
  | start | create | test | enter | leave | jump | returnIfLive | finish | resume | come =>
      exact counts.stay rfl rfl (Nat.le_refl _)
  | param _ _ sets | global _ _ _ _ _ _ sets | slot _ _ _ _ _ sets =>
      rcases Annotations.setStorage_eq_ok.mp sets with ⟨_, rfl⟩
      exact counts.stay rfl rfl (Nat.le_refl _)
  | loop _ sets =>
      rcases Annotations.setLoop_eq_ok.mp sets with ⟨_, rfl⟩
      exact counts.stay rfl rfl (Nat.le_refl _)

theorem Path.keepsCount (path : Path program first events last) (counts : first.Counts) :
    first.KeepsCount last := by
  induction path with
  | nil => exact ⟨counts, fun _ _ found => found⟩
  | cons performs _ induction =>
      have step := performs.keepsCount counts
      have rest := induction step.counts
      exact ⟨rest.counts, fun id object found => rest.keeps id object (step.keeps id object found)⟩

/-! ## Strings are created from their bytes -/

/-- The step creates a string from the data, as the value of the expression. -/
def Event.CreatesString (event : Event) (id : ExprId) (data : DataId) : Prop :=
  ∃ name place block earlier result, event.after.Builds name place ∧
    place.current? = some block ∧
    block.instructions = earlier ++ [.call (some result) StringLibrary.create [.data data]] ∧
    event.after.annotations.value? id = some result

/-- The step creates a string from the bytes, which are data of the module. -/
def Event.CreatesFrom (event : Event) (module : Code.Module) (id : ExprId) (bytes : List UInt8) :
    Prop :=
  ∃ data, event.CreatesString id data ∧ module.data.get? data = some ⟨data, bytes⟩

theorem exists_current_define {place : Place} (isOpen : place.isOpen = true) (ty : Code.Ty)
    (make : Operand → Code.Instruction) : ∃ block earlier,
      (place.define ty make).current? = some block ∧
        block.instructions = earlier ++ [make (.temp place.freshTemp)] := by
  rcases Code.Place.exists_of_isOpen ((Code.Cursor.isOpen_takeTemp place ty).trans isOpen) with
    ⟨id, block, stands, found, _⟩
  refine ⟨block.addInstruction (make (.temp place.freshTemp)), block.instructions, ?_, rfl⟩
  rw [Place.current?, Place.define, Place.add, Place.block_change, stands]
  rw [Option.bind_some, Place.block?_change stands, if_pos rfl, found]
  rfl

theorem Session.Emits.createsString {id : ExprId} {text : String} {value : Option Operand}
    (emits : session.Emits program (.stringLiteral text) name value mid)
    (records : recordValue id value mid = .ok ((), next)) :
    ∃ data, Event.CreatesString ⟨.expr id, session, next⟩ id data ∧
      next.cursor.module.data.get? data = some ⟨data, Code.Module.textBytes text⟩ := by
  have learnt := recordValue_eq_ok records
  cases emits with
  | @intro place after values builds operands emits puts =>
      cases emits with
      | @stringLiteral _ data _ found =>
          refine ⟨data, ?_, by rw [learnt.1]; exact found⟩
          rcases exists_current_define (isOpen_ready place) StringLibrary.stringType
            (fun result => .call (some result) StringLibrary.create [.data data]) with
            ⟨block, earlier, current, ends⟩
          refine ⟨name, _, block, earlier, _, ?_, current, ends, learnt.2.2 _ rfl⟩
          rw [Session.Builds, learnt.1, puts]
          exact (builds.prepare _).put _

/-- The step is for a string literal. -/
def Event.LowersLiteral (event : Event) (program : Program) (id : ExprId) (text : String) : Prop :=
  event.task = .expr id ∧ ∃ ty, program.expr? id = some ⟨.stringLiteral text, ty⟩

theorem Event.CreatesFrom.unique {event : Event} {module : Code.Module} {id : ExprId}
    {bytes others : List UInt8} (first : event.CreatesFrom module id bytes)
    (second : event.CreatesFrom module id others) : bytes = others := by
  rcases first with ⟨data, ⟨name, place, block, earlier, result, builds, current, ends, _⟩, found⟩
  rcases second with ⟨_, ⟨_, _, _, _, _, buildsToo, currentToo, endsToo, _⟩, foundToo⟩
  cases builds.name_unique buildsToo
  cases builds.unique buildsToo
  rw [current] at currentToo
  cases currentToo
  rw [ends] at endsToo
  cases List.append_inj_right' endsToo rfl
  rw [found] at foundToo
  cases foundToo
  rfl

/-- In a run that comes to its end, a literal that is lowered is created from its bytes. -/
theorem literal_createsFrom {options : Options} {module : Code.Module}
    (lowers : lowerProgram program options = .ok module) {event : Event}
    (member : event ∈ history program options) {id : ExprId} {text : String}
    (literal : event.LowersLiteral program id text) :
    event.CreatesFrom module id (Code.Module.textBytes text) := by
  rcases literal with ⟨isExpr, ty, known⟩
  rcases @history_stretch program False _ _ lowers nofun with ⟨declared, last, declares, stretch, same, _⟩
  have begins := counts_entrySession (declared_of_declareAll declares)
  have counts : (Session.start (.ofModule declared)).Counts := ⟨begins.next, begins.below, begins.few⟩
  rcases stretch.path.exists_of_mem member with ⟨name, early, late, _, leads, performs, goesOn⟩
  have countsBefore := (leads.keepsCount counts).counts
  have countsAfter := (performs.keepsCount countsBefore).counts
  rcases event with ⟨task, before, after⟩
  cases isExpr
  cases performs with
  | expr found emits records =>
      rw [known] at found
      cases found
      rcases emits.createsString records with ⟨data, creates, holds⟩
      refine ⟨data, creates, ?_⟩
      rw [← same]
      exact (goesOn.keepsCount countsAfter).keeps data _ holds

/-- A literal is read up to its first NUL character. It is read as it is written exactly if it has
none, and two literals are read as the same text exactly if they agree up to there. -/
theorem literals_read_up_to_nul {options : Options} {module : Code.Module}
    (lowers : lowerProgram program options = .ok module) {event : Event}
    (member : event ∈ history program options) {id : ExprId} {text : String}
    (literal : event.LowersLiteral program id text) :
    (∃ bytes, event.CreatesFrom module id bytes) ∧
      ∀ bytes, event.CreatesFrom module id bytes →
        readText bytes = utf8 (beforeNul text) ∧
        (readText bytes = utf8 text ↔ '\x00' ∉ text.toList) ∧
        ∀ other ∈ history program options, ∀ otherId otherText otherBytes,
          other.LowersLiteral program otherId otherText →
          other.CreatesFrom module otherId otherBytes →
            (readText bytes = readText otherBytes ↔ beforeNul text = beforeNul otherText) := by
  have creates := literal_createsFrom lowers member literal
  refine ⟨⟨_, creates⟩, fun bytes createsBytes => ?_⟩
  have reads : readText bytes = utf8 (beforeNul text) := by
    rw [createsBytes.unique creates, Code.readText_textBytes]
  refine ⟨reads, ?_, fun other memberToo otherId otherText otherBytes literalToo createsToo => ?_⟩
  · rw [reads, Code.utf8_inj, Code.beforeNul_eq_self_iff]
  · rw [reads, createsToo.unique (literal_createsFrom lowers memberToo literalToo),
      Code.readText_textBytes, Code.utf8_inj]

/-- Two literals that agree up to a NUL character are compared. -/
def nulProgram : Program where
  filename := "nul"
  items := [⟨0⟩]
  stmts := #[.expr ⟨0⟩]
  exprs := #[⟨.binary .equals ⟨1⟩ ⟨2⟩, .boolean⟩, ⟨.stringLiteral "a\x00b", .string⟩,
    ⟨.stringLiteral "a\x00c", .string⟩]
  vars := #[]
  functions := #[]

theorem nulProgram_tasks : (history nulProgram .default).map Event.task =
    [.start "main", .come (stmtDepth nulProgram) ⟨0⟩, .expr ⟨1⟩, .expr ⟨2⟩, .expr ⟨0⟩,
      .returnIfLive (some (.ofInt64 0)), .finish "main"] := by decide +kernel

theorem nulProgram_accepted : ∃ module, lowerProgram nulProgram .default = .ok module := by
  have accepted : (lowerProgram nulProgram .default).toBool = true := by decide +kernel
  cases result : lowerProgram nulProgram .default with
  | ok module => exact ⟨module, rfl⟩
  | error error =>
      rw [result] at accepted
      cases accepted

theorem nulProgram_literals :
    (∃ event ∈ history nulProgram .default, event.LowersLiteral nulProgram ⟨1⟩ "a\x00b") ∧
      ∃ event ∈ history nulProgram .default, event.LowersLiteral nulProgram ⟨2⟩ "a\x00c" := by
  have lowered (id : ExprId) (isTold : Task.expr id ∈ (history nulProgram .default).map Event.task) :
      ∃ event ∈ history nulProgram .default, event.task = .expr id := List.mem_map.mp isTold
  rw [nulProgram_tasks] at lowered
  rcases lowered ⟨1⟩ (by decide) with ⟨first, isFirst, same⟩
  rcases lowered ⟨2⟩ (by decide) with ⟨second, isSecond, sameToo⟩
  exact ⟨⟨first, isFirst, same, .string, rfl⟩, second, isSecond, sameToo, .string, rfl⟩

theorem nulProgram_reads_up_to_nul : ∃ module, lowerProgram nulProgram .default = .ok module ∧
    ∃ event ∈ history nulProgram .default, event.LowersLiteral nulProgram ⟨1⟩ "a\x00b" ∧
      ∃ bytes, event.CreatesFrom module ⟨1⟩ bytes ∧ readText bytes = utf8 (beforeNul "a\x00b") := by
  rcases nulProgram_accepted with ⟨module, lowers⟩
  rcases nulProgram_literals.1 with ⟨event, member, literal⟩
  rcases literals_read_up_to_nul lowers member literal with ⟨⟨bytes, creates⟩, reads⟩
  exact ⟨module, lowers, event, member, literal, bytes, creates, (reads bytes creates).1⟩

/-- Two different literals are read as the same text, and neither of them as it is written. -/
theorem text_behind_nul_is_lost : ∃ module, lowerProgram nulProgram .default = .ok module ∧
    ∃ first ∈ history nulProgram .default, ∃ second ∈ history nulProgram .default,
      first.LowersLiteral nulProgram ⟨1⟩ "a\x00b" ∧ second.LowersLiteral nulProgram ⟨2⟩ "a\x00c" ∧
      ∃ bytes otherBytes, first.CreatesFrom module ⟨1⟩ bytes ∧
        second.CreatesFrom module ⟨2⟩ otherBytes ∧ readText bytes ≠ utf8 "a\x00b" ∧
        readText otherBytes ≠ utf8 "a\x00c" ∧ readText bytes = readText otherBytes := by
  rcases nulProgram_accepted with ⟨module, lowers⟩
  rcases nulProgram_literals with ⟨⟨first, isFirst, literal⟩, second, isSecond, literalToo⟩
  refine ⟨module, lowers, first, isFirst, second, isSecond, literal, literalToo, _, _,
    literal_createsFrom lowers isFirst literal, literal_createsFrom lowers isSecond literalToo, ?_⟩
  decide +kernel

end ScriptLowering.Lowering
