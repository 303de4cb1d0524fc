import ScriptLowering.Proofs.StringLiterals

/-! # The literals behind the data

String literals get their values in the order in which their texts become data. So the number of a
data object tells which literal it is for, and this stays so up to the end of the run.
-/

namespace ScriptLowering.Lowering

open Source (Program ExprId)
open Code (DataId Operand)

variable {program : Program} {name : String} {session mid next first last : Session}
  {events : List Event}

/-! ## Literals in order -/

/-- The text of an expression that is a string literal. -/
def textOf? (program : Program) (id : ExprId) : Option String :=
  (program.expr? id).bind fun expr =>
    match expr.node with
    | .stringLiteral text => some text
    | _ => none

theorem textOf?_eq_some {id : ExprId} {text : String} : textOf? program id = some text ↔
    ∃ ty, program.expr? id = some ⟨.stringLiteral text, ty⟩ := by
  constructor
  · intro isText
    rcases Option.bind_eq_some_iff.mp isText with ⟨⟨node, ty⟩, found, same⟩
    cases node with
    | stringLiteral other =>
        cases same
        exact ⟨ty, found⟩
    | _ => cases same
  · rintro ⟨ty, found⟩
    rw [textOf?, found]
    rfl

/-- The string literals that have values, in the order in which they got them. -/
def Annotations.literals (program : Program) (annotations : Annotations) : List ExprId :=
  annotations.values.keys.filter fun id => (textOf? program id).isSome

theorem Annotations.literals_of_setValue (program : Program) {annotations changed : Annotations} {id : ExprId}
    {value : Operand} (sets : annotations.setValue id value = .ok changed) :
    changed.literals program = annotations.literals program ++
      [id].filter fun id => (textOf? program id).isSome := by
  rcases Annotations.setValue_eq_ok.mp sets with ⟨unknown, rfl⟩
  have fresh : id ∉ annotations.values.keys := by
    rw [← Table.contains_iff, unknown]
    exact Bool.false_ne_true
  rw [Annotations.literals, Table.keys_insert_of_not_mem fresh, List.filter_append]
  rfl

/-- The literal that the data is for. -/
def Session.literal? (program : Program) (session : Session) (data : DataId) : Option ExprId :=
  (session.annotations.literals program)[data.number.toNat]?

/-- There are as many data objects as literals with values. -/
structure Session.Spells (program : Program) (session : Session) : Prop extends session.Counts where
  literals : (session.annotations.literals program).length = session.cursor.module.data.size

/-- The next session spells out its literals as well, and has those of the session in front. -/
structure Session.SpellsOn (program : Program) (session next : Session) : Prop where
  spells : next.Spells program
  kept : session.annotations.literals program <+: next.annotations.literals program

namespace Session

theorem SpellsOn.literal? (goes : session.SpellsOn program next) {data : DataId} {id : ExprId}
    (known : session.literal? program data = some id) : next.literal? program data = some id := by
  rcases goes.kept with ⟨more, same⟩
  rw [Session.literal?, ← same]
  rw [Session.literal?] at known
  rw [List.getElem?_append_left (List.getElem?_eq_some_iff.mp known).1]
  exact known

theorem SpellsOn.trans (first : session.SpellsOn program mid) (second : mid.SpellsOn program next) :
    session.SpellsOn program next :=
  ⟨second.spells, first.kept.trans second.kept⟩

/-- Neither data nor literals come in. -/
theorem Spells.stay (spells : session.Spells program)
    (data : next.cursor.module.data = session.cursor.module.data)
    (number : next.cursor.module.nextData = session.cursor.module.nextData)
    (values : session.annotations.values.size ≤ next.annotations.values.size)
    (literals : next.annotations.literals program = session.annotations.literals program) :
    session.SpellsOn program next where
  spells := {
    toCounts := (spells.toCounts.stay data number values).counts
    literals := by rw [literals, data, spells.literals] }
  kept := by rw [literals]

theorem Spells.same (spells : session.Spells program)
    (data : next.cursor.module.data = session.cursor.module.data)
    (number : next.cursor.module.nextData = session.cursor.module.nextData)
    (annotations : next.annotations = session.annotations) : next.Spells program :=
  (spells.stay data number (by rw [annotations]) (by rw [annotations])).spells

theorem Spells.setValue (spells : session.Spells program) {id : ExprId} {value : Operand}
    {annotations : Annotations} (noText : textOf? program id = none)
    (sets : session.annotations.setValue id value = .ok annotations) :
    session.SpellsOn program { session with annotations := annotations } := by
  have literals := Annotations.literals_of_setValue program sets
  rw [List.filter_singleton, noText] at literals
  refine spells.stay rfl rfl ?_ (literals.trans (List.append_nil _))
  rcases Annotations.setValue_eq_ok.mp sets with ⟨_, rfl⟩
  exact Table.size_le_insert _ _ _

/-- The next data object has a greater number than those that there are. -/
theorem Spells.below_next (spells : session.Spells program) {id : ExprId}
    (unknown : session.annotations.values.contains id = false) (value : Operand) (data : DataId)
    (member : data ∈ session.cursor.module.data.keys) :
    data.number.toNat < session.cursor.module.nextData.toNat := by
  have room := Link.room_of_unrecorded spells.toCounts unknown value
  let ready : Session := { session with annotations := { session.annotations with
    values := session.annotations.values.insert id value } }
  have counted : ready.Counts := ⟨spells.next, spells.below, Nat.le_of_lt room⟩
  exact Nat.lt_of_lt_of_eq (spells.below data member) (counted.next_lt room).symm

/-- The text of a literal becomes data when the literal gets its value. -/
theorem Spells.recordText (spells : session.Spells program) {id : ExprId} {text : String}
    (isText : textOf? program id = some text)
    (unknown : session.annotations.values.contains id = false) (value : Operand) :
    session.SpellsOn program (Link.recordText session id value text) ∧
      (Link.recordText session id value text).literal? program
        ⟨session.cursor.module.nextData⟩ = some id := by
  have room := Link.room_of_unrecorded spells.toCounts unknown value
  have sets : session.annotations.setValue id value = .ok { session.annotations with
      values := session.annotations.values.insert id value } :=
    Annotations.setValue_eq_ok.mpr ⟨unknown, rfl⟩
  have literals : (Link.recordText session id value text).annotations.literals program =
      session.annotations.literals program ++ [id] := by
    have added := Annotations.literals_of_setValue program sets
    rw [List.filter_singleton, isText] at added
    exact added
  let ready : Session := { session with annotations := { session.annotations with
    values := session.annotations.values.insert id value } }
  have counted : ready.Counts := ⟨spells.next, spells.below, Nat.le_of_lt room⟩
  have size : (Link.recordText session id value text).cursor.module.data.size =
      session.cursor.module.data.size + 1 := Session.size_addText counted room text
  refine ⟨⟨⟨counted.addText room text, ?_⟩, ?_⟩, ?_⟩
  · rw [literals, size, List.length_append, spells.literals]
    rfl
  · rw [literals]
    exact List.prefix_append _ _
  · have number : session.cursor.module.nextData.toNat =
        (session.annotations.literals program).length := by
      rw [spells.literals]
      exact counted.next_lt room
    rw [Session.literal?, literals, number, List.getElem?_concat_length]

end Session

/-! ## Steps -/

theorem Session.Emits.mid_eq {node : Source.ExprNode} {value : Option Operand}
    (emits : session.Emits program node name value mid) :
    mid.annotations = session.annotations ∧
      mid.cursor.module.data = (session.prepare node).cursor.module.data ∧
      mid.cursor.module.nextData = (session.prepare node).cursor.module.nextData := by
  cases emits with
  | intro builds operands emits puts =>
      rw [puts]
      exact ⟨by cases node <;> rfl, rfl, rfl⟩

theorem recordValue_some {id : ExprId} {value : Operand}
    (records : recordValue id (some value) mid = .ok ((), next)) : ∃ annotations,
      mid.annotations.setValue id value = .ok annotations ∧
        next = { mid with annotations := annotations } := by
  simp only [recordValue, Lower.annotate] at records
  split at records
  · rename_i annotations sets
    cases records
    exact ⟨annotations, sets, rfl⟩
  · cases records

/-- The step is for a string literal, whose text becomes the data. -/
def Event.MakesText (event : Event) (program : Program) (id : ExprId) (data : DataId)
    (bytes : List UInt8) : Prop :=
  ∃ text, event.LowersLiteral program id text ∧ bytes = Code.Module.textBytes text ∧
    event.before.cursor.module.data.get? data = none ∧
      event.after.cursor.module.data.get? data = some ⟨data, bytes⟩

/-- Data that is new behind the steps has been made for a literal by one of them. -/
def Session.Tells (program : Program) (session : Session) (events : List Event)
    (next : Session) : Prop :=
  ∀ data object, next.cursor.module.data.get? data = some object →
    session.cursor.module.data.get? data = some object ∨ ∃ id,
      next.literal? program data = some id ∧
        ∃ event ∈ events, event.MakesText program id data object.bytes

theorem Session.Emits.tellsText {id : ExprId} {ty : Source.Ty} {text : String}
    {value : Option Operand} (found : program.expr? id = some ⟨.stringLiteral text, ty⟩)
    (emits : session.Emits program (.stringLiteral text) name value mid)
    (records : recordValue id value mid = .ok ((), next)) (spells : session.Spells program) :
    session.SpellsOn program next ∧ session.Tells program [⟨.expr id, session, next⟩] next := by
  rcases emits.mid_eq with ⟨annotations, data, number⟩
  cases emits with
  | @intro place after values builds operands emits puts =>
      cases emits with
      | @stringLiteral _ _ _ _ =>
          rcases recordValue_some records with ⟨changed, sets, rfl⟩
          rw [annotations] at sets
          rcases Annotations.setValue_eq_ok.mp sets with ⟨unknown, rfl⟩
          have recorded := spells.recordText (textOf?_eq_some.mpr ⟨ty, found⟩) unknown
            (.temp place.ready.freshTemp)
          let recordedText := Link.recordText session id (.temp place.ready.freshTemp) text
          have same : recordedText.SpellsOn program { mid with annotations := { session.annotations with
              values := session.annotations.values.insert id (.temp place.ready.freshTemp) } } :=
            recorded.1.spells.stay data number (Nat.le_refl _) rfl
          refine ⟨recorded.1.trans same, fun other object holds => ?_⟩
          have fresh : ⟨session.cursor.module.nextData⟩ ∉ session.cursor.module.data.keys :=
            fun member => Nat.lt_irrefl _
              (spells.below_next unknown (.temp place.ready.freshTemp) _ member)
          change mid.cursor.module.data.get? other = some object at holds
          rw [data] at holds
          change Table.get? (Table.insert _ _ _) other = some object at holds
          rw [Table.get?_insert] at holds
          split at holds
          · rename_i isNew
            subst isNew
            cases holds
            refine .inr ⟨id, same.literal? recorded.2, _, List.mem_singleton_self _, text,
              ⟨rfl, ty, found⟩, rfl, ?_, ?_⟩
            · exact Option.eq_none_iff_forall_ne_some.mpr fun old isOld =>
                fresh (Table.mem_keys_iff.mpr ⟨old, isOld⟩)
            · exact (congrArg (Table.get? · _) data).trans (Table.get?_insert_same _ _ _)
          · exact .inl holds

theorem Task.Performs.tellsText {task : Task} (performs : task.Performs program name session next)
    (spells : session.Spells program) :
    session.SpellsOn program next ∧ session.Tells program [⟨task, session, next⟩] next := by
  -- Where the data stays as it is, all of it is old.
  have stays (goes : session.SpellsOn program next)
      (data : next.cursor.module.data = session.cursor.module.data) :
      session.SpellsOn program next ∧ session.Tells program [⟨task, session, next⟩] next :=
    ⟨goes, fun _ _ holds => .inl (data ▸ holds)⟩
  cases performs with
  | @expr id expr value _ mid _ found emits records =>
      rcases expr with ⟨node, ty⟩
      cases node with
      | stringLiteral text => exact emits.tellsText found records spells
      | _ =>
          rcases emits.mid_eq with ⟨annotations, data, number⟩
          cases value with
          | none =>
              cases records
              exact stays ⟨spells.same data number annotations, by rw [annotations]⟩ data
          | some value =>
              rcases recordValue_some records with ⟨changed, sets, rfl⟩
              rw [annotations] at sets
              have recorded := spells.setValue (by rw [textOf?, found]; rfl) sets
              exact stays (recorded.trans (recorded.spells.stay data number (Nat.le_refl _) rfl)) data
  | start | create | test | enter | leave | jump | returnIfLive | finish | resume | come =>
      exact stays (spells.stay rfl rfl (Nat.le_refl _) rfl) rfl
  | param _ _ sets | global _ _ _ _ _ _ sets | slot _ _ _ _ _ sets =>
      rcases Annotations.setStorage_eq_ok.mp sets with ⟨_, rfl⟩
      exact stays (spells.stay rfl rfl (Nat.le_refl _) rfl) rfl
  | loop _ sets =>
      rcases Annotations.setLoop_eq_ok.mp sets with ⟨_, rfl⟩
      exact stays (spells.stay rfl rfl (Nat.le_refl _) rfl) rfl

theorem Path.tellsText (path : Path program first events last) (spells : first.Spells program) :
    first.SpellsOn program last ∧ first.Tells program events last := by
  induction path with
  | nil => exact ⟨⟨spells, List.prefix_refl _⟩, fun _ _ => .inl⟩
  | @cons name event events last performs rest induction =>
      rcases performs.tellsText spells with ⟨goes, tells⟩
      rcases induction goes.spells with ⟨goesOn, tellsOn⟩
      refine ⟨goes.trans goesOn, fun data object holds => ?_⟩
      rcases tellsOn data object holds with old | ⟨id, known, later, member, makes⟩
      · refine (tells data object old).imp_right ?_
        rintro ⟨id, known, _, isEvent, makes⟩
        cases List.mem_singleton.mp isEvent
        exact ⟨id, goesOn.literal? known, _, List.mem_cons_self, makes⟩
      · exact .inr ⟨id, known, later, List.mem_cons_of_mem _ member, makes⟩

theorem Path.literal?_of_makesText (path : Path program first events last)
    (spells : first.Spells program) {event : Event} (member : event ∈ events) {id : ExprId}
    {data : DataId} {bytes : List UInt8} (makes : event.MakesText program id data bytes) :
    last.literal? program data = some id ∧
      last.cursor.module.data.get? data = some ⟨data, bytes⟩ := by
  rcases makes with ⟨text, literal, _, missing, holds⟩
  rcases path.exists_of_mem member with ⟨name, early, late, _, leads, performs, goesOn⟩
  have before := (leads.tellsText spells).1.spells
  rcases performs.tellsText before with ⟨goes, tells⟩
  have after := (goesOn.tellsText goes.spells).1
  have kept := (goesOn.keepsCount goes.spells.toCounts).keeps data _ holds
  rcases tells data _ holds with old | ⟨other, known, event, isEvent, _, otherLiteral, _⟩
  · rw [missing] at old
    cases old
  · cases List.mem_singleton.mp isEvent
    cases literal.1.symm.trans otherLiteral.1
    exact ⟨after.literal? known, kept⟩

/-! ## Whole runs -/

/-- In the history of the program the data is made from the text of the literal. -/
def MakesText (program : Program) (options : Options) (id : ExprId) (data : DataId)
    (bytes : List UInt8) : Prop :=
  ∃ event ∈ history program options, event.MakesText program id data bytes

theorem spells_start (program : Program) {options : Options} {declared : Code.Module}
    (declares : declareAll program options = .ok declared) :
    (Session.start (.ofModule declared)).Spells program := by
  have isDeclared := declared_of_declareAll declares
  have begins := counts_entrySession isDeclared
  refine ⟨⟨begins.next, begins.below, begins.few⟩, ?_⟩
  change 0 = declared.data.size
  rw [isDeclared.tables.data]
  rfl

theorem path_of_lowerItems {options : Options} {declared : Code.Module}
    (declares : declareAll program options = .ok declared)
    (lowers : lowerItems program (finishFunction options) options.entryFunction
      (.start (.ofModule declared)) = .ok ((), last)) :
    Path program (.start (.ofModule declared)) (history program options) last := by
  have stretch := @tellItems_stretch program False _ (finishes_finishFunction options)
    options.entryFunction nofun _ _ _ _ (told_of_lowerItems declares lowers)
  exact stretch.path

/-- All data of a run is made from literals. -/
theorem makesText_of_lowerItems {options : Options} {declared : Code.Module}
    (declares : declareAll program options = .ok declared)
    (lowers : lowerItems program (finishFunction options) options.entryFunction
      (.start (.ofModule declared)) = .ok ((), last)) {data : DataId} {object : Code.DataObject}
    (found : last.cursor.module.data.get? data = some object) :
    ∃ id, last.literal? program data = some id ∧ MakesText program options id data object.bytes := by
  have path := path_of_lowerItems declares lowers
  rcases (path.tellsText (spells_start program declares)).2 data object found with old | made
  · change declared.data.get? data = some object at old
    rw [(declared_of_declareAll declares).tables.data] at old
    cases old
  · exact made

/-- Data that is made from a literal is data of the module, and it is made from no other literal. -/
theorem MakesText.unique {options : Options} {module : Code.Module}
    (lowers : lowerProgram program options = .ok module) {id : ExprId} {data : DataId}
    {bytes : List UInt8} (makes : MakesText program options id data bytes) :
    module.data.get? data = some ⟨data, bytes⟩ ∧ ∀ other others,
      MakesText program options other data others → other = id ∧ others = bytes := by
  rcases lowerProgram_eq_ok.mp lowers with ⟨declared, last, declares, runs, rfl, _⟩
  have path := path_of_lowerItems declares runs
  have made {id : ExprId} {bytes : List UInt8} (makes : MakesText program options id data bytes) :
      last.literal? program data = some id ∧
        last.cursor.module.data.get? data = some ⟨data, bytes⟩ := by
    rcases makes with ⟨event, member, makes⟩
    exact path.literal?_of_makesText (spells_start program declares) member makes
  refine ⟨(made makes).2, fun other others makesToo => ?_⟩
  cases (made makes).1.symm.trans (made makesToo).1
  cases (made makes).2.symm.trans (made makesToo).2
  exact ⟨rfl, rfl⟩

end ScriptLowering.Lowering
