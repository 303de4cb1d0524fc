import ScriptLowering.Proofs.IndependentLowering

/-! # Items that change places

A function declaration and another item of a program stand one behind the other. They may change places
if neither refers to what the other declares. The sessions behind both are then the same, but for the
numbers of the data that the two of them have added.
-/

namespace ScriptLowering.Lowering

open Source (Program ExprId FuncId FunctionDecl Stmt StmtId VarDecl VarId)
open Code (DataId Operand Place)

variable {program : Program} {entry : String} {options : Options}

/-! ## Sessions between items -/

def lowerFirst (program : Program) (options : Options) (ids : List StmtId) : Lower Unit := do
  openFunction options.entryFunction
  ids.forM (lowerStmt program (finishFunction options))

theorem steady_of_items {declared : Code.Module} (plain : options.verifyFunctions = false)
    (declares : declareAll program options = .ok declared) {ids : List StmtId} {next : Session}
    (distinct : (options.entryFunction :: namesOf program (ids.flatMap (walkStmt program))).Nodup)
    (runs : lowerFirst program options ids (.start (.ofModule declared)) = .ok ((), next)) :
    next.Steady ∧ ∃ place, next.Builds options.entryFunction place := by
  let start : Session := .start (.ofModule declared)
  let anywhere (_ : String) : Prop := True
  have isInside : anywhere options.entryFunction := trivial
  have items : (ids.forM (tellStmtWithin program (finishFunction options) (stmtDepth program))).Travels
      program anywhere :=
    .forM fun item _ => .tellStmtWithin (finishes_finishFunction options) _ fun _ _ => trivial
  let told : Told Unit := do
    Told.telling (fun _ => .start options.entryFunction) (openFunction options.entryFunction)
    ids.forM (tellStmtWithin program (finishFunction options) (stmtDepth program))
  have leads : told.Leads program anywhere start fun _ next =>
      ∃ place, next.Builds options.entryFunction place := by
    refine (Told.Travels.leads_start isInside start).bind fun _ opened stands => ?_
    rcases stands with ⟨place, builds⟩
    exact items _ _ _ isInside builds
  have tells : told.step start = .ok ((), next) := by
    simp only [told, Told.step_bind, Told.step_telling, Told.step_forM, step_tellStmtWithin]
    exact runs
  rcases leads with ⟨last, journey, ends⟩
  rcases ends () next tells with ⟨rfl, stands⟩
  have declaredAll := declared_of_declareAll declares
  have counts : start.Counts := by
    have counts := counts_entrySession declaredAll
    exact ⟨counts.next, counts.below, counts.few⟩
  have noValues : start.Plain := by
    intro id value known
    cases known
  have noData : start.Labelled := by
    intro id object found
    change declared.data.get? id = some object at found
    rw [declaredAll.tables.data] at found
    cases found
  rcases journey.path.keepsData noValues noData with ⟨plainValues, labelled⟩
  refine ⟨⟨?_, (journey.path.keepsCount counts).counts, plainValues, labelled⟩, stands⟩
  rcases options with ⟨entry, verify⟩
  cases plain
  rcases closed_start declares with ⟨closed, numbers⟩
  rcases Lower.bind_eq_ok.mp runs with ⟨_, opened, opens, lowers⟩
  have works := ((works_openFunction closed numbers entry).post_of_ok opens).1
  rw [namesOf_flatMap] at distinct
  have foretells : Foretells entry [] (ids.flatMap fun id => namesOf program (walkStmt program id))
      (ids.forM (lowerStmt program (finishFunction ⟨entry, true⟩)))
      (ids.forM (lowerStmt program (finishFunction ⟨entry, false⟩))) :=
    .forM fun id => foretells_lowerStmtWithin entry _ entry id
  exact (((foretells.foretold distinct opened works (Code.Module.knowsAll_nil _)).post_of_ok
    lowers).1.1).inside.closed

/-! ## Both orders -/

theorem Session.Frames.refl (touched : Domain) {session : Session} (counts : session.Counts) :
    session.Frames touched session where
  headings := .refl _
  functions _ _ := rfl
  storage _ _ := rfl
  loops _ _ := rfl
  values _ _ := rfl
  grown := Nat.le_refl _
  counts := counts

/-- The declaration of a function and an item have nothing to do with each other. -/
structure Independent (program : Program) (start : Session) (entry : String) (decl : FunctionDecl)
    (declaring item : StmtId) : Prop where
  apart : (touches program start decl.name (walkStmt program declaring)).Apart
    (touches program start entry (walkStmt program item))
  avoids : Avoids program (walkStmt program declaring)
    (touches program start entry (walkStmt program item))
  itemAvoids : Avoids program (walkStmt program item)
    (touches program start decl.name (walkStmt program declaring))
  noGlobal : DeclaresNoGlobal program (walkStmt program declaring)

/-- The function has been lowered on the way from `before` to `built`, and the item behind it. The item
has been lowered on the way from `before` to `other`, and the function behind it. -/
structure Exchanged (mine theirs : Domain) (before built last other otherLast : Session) :
    Prop where
  function : Session.Parallel mine theirs before other built otherLast
  item : Session.Parallel theirs mine before built other last
  tables : last.SameTables otherLast
  position : otherLast.cursor.position = last.cursor.position

theorem Exchanged.of_beside {mine theirs : Domain} {before built last other otherLast : Session}
    (function : FunctionBeside mine theirs before other built otherLast)
    (item : StatementBeside entry theirs mine before built other last) :
    Exchanged mine theirs before built last other otherLast where
  function := function.toParallel
  item := item.toParallel
  tables := ⟨item.tables.1.trans function.otherTables.1.symm, item.tables.2.trans function.otherTables.2.symm⟩
  position := function.otherPosition.trans item.position.symm

section Orders

variable {start before : Session} {declaring item : StmtId} {func : FuncId} {decl : FunctionDecl}
  {place : Place} (plain : options.verifyFunctions = false)
  (isDecl : program.stmt? declaring = some (.functionDecl func))
  (found : program.function? func = some decl)
  (independent : Independent program start entry decl declaring item)
  (steady : before.Steady) (signed : start.Signed before) (builds : before.Builds entry place)
  (known : ∀ func decl, program.function? func = some decl →
    ∃ function, before.cursor.module.function? decl.name = some function)

include known in
theorem exists_touched {current : String}
    (here : ∃ function, before.cursor.module.function? current = some function) (nodes : List Node)
    (name : String) (touched : (touches program start current nodes).functions name) :
    ∃ function, before.cursor.module.function? name = some function := by
  rcases touched with rfl | inside
  · exact here
  · rcases exists_of_mem_namesOf inside with ⟨func, decl, isDeclared, rfl⟩
    exact known func decl isDeclared

include plain isDecl found independent steady signed known in
theorem declaring_beside {right : Session}
    (frames : before.Frames (touches program start entry (walkStmt program item)) right) :
    Together (FunctionBeside (touches program start decl.name (walkStmt program declaring))
        (touches program start entry (walkStmt program item)) before right)
      (lowerStmt program (finishFunction options) declaring before)
      (lowerStmt program (finishFunction options) declaring right) :=
  lowerFunction_beside plain frames steady signed isDecl found independent.apart
    (exists_touched known (known func decl found) _) independent.avoids independent.noGlobal

include plain independent steady signed builds known in
theorem item_beside {right : Session}
    (frames : before.Frames (touches program start decl.name (walkStmt program declaring)) right)
    (position : right.cursor.position = before.cursor.position) (tables : right.SameTables before) :
    Together (StatementBeside entry (touches program start entry (walkStmt program item))
        (touches program start decl.name (walkStmt program declaring)) before right)
      (lowerStmt program (finishFunction options) item before)
      (lowerStmt program (finishFunction options) item right) :=
  lowerStmt_beside plain frames steady signed builds position independent.apart.symm
    (exists_touched known (builds.body.imp fun _ => And.left) _) independent.itemAvoids tables

include plain isDecl found independent steady signed builds known

theorem exchanged_of_declaring_first {built last : Session}
    (lowers : lowerStmt program (finishFunction options) declaring before = .ok ((), built))
    (lowersItem : lowerStmt program (finishFunction options) item built = .ok ((), last)) :
    ∃ other otherLast, lowerStmt program (finishFunction options) item before = .ok ((), other) ∧
      lowerStmt program (finishFunction options) declaring other = .ok ((), otherLast) ∧
      Exchanged (touches program start decl.name (walkStmt program declaring))
        (touches program start entry (walkStmt program item)) before built last other otherLast := by
  have alone := declaring_beside plain isDecl found independent steady signed known
    (.refl _ steady.counts)
  rw [lowers] at alone
  rcases alone.of_first with ⟨_, _, lowered⟩
  have items := item_beside plain independent steady signed builds known lowered.firstFrames
    lowered.position lowered.tables
  rw [lowersItem] at items
  rcases items.of_second with ⟨other, lowersOther, itemBeside⟩
  have functions := declaring_beside plain isDecl found independent steady signed known
    itemBeside.firstFrames
  rw [lowers] at functions
  rcases functions.of_first with ⟨otherLast, lowersLast, functionBeside⟩
  exact ⟨other, otherLast, lowersOther, lowersLast, .of_beside functionBeside itemBeside⟩

theorem exchanged_of_item_first {other otherLast : Session}
    (lowersItem : lowerStmt program (finishFunction options) item before = .ok ((), other))
    (lowers : lowerStmt program (finishFunction options) declaring other = .ok ((), otherLast)) :
    ∃ built last, lowerStmt program (finishFunction options) declaring before = .ok ((), built) ∧
      lowerStmt program (finishFunction options) item built = .ok ((), last) ∧
      Exchanged (touches program start decl.name (walkStmt program declaring))
        (touches program start entry (walkStmt program item)) before built last other otherLast := by
  have alone := item_beside plain independent steady signed builds known (.refl _ steady.counts) rfl
    ⟨rfl, rfl⟩
  rw [lowersItem] at alone
  rcases alone.of_first with ⟨_, _, lowered⟩
  have functions := declaring_beside plain isDecl found independent steady signed known
    lowered.firstFrames
  rw [lowers] at functions
  rcases functions.of_second with ⟨built, lowersBuilt, functionBeside⟩
  have items := item_beside plain independent steady signed builds known functionBeside.firstFrames
    functionBeside.position functionBeside.tables
  rw [lowersItem] at items
  rcases items.of_first with ⟨last, lowersLast, itemBeside⟩
  exact ⟨built, last, lowersBuilt, lowersLast, .of_beside functionBeside itemBeside⟩

end Orders

/-! ## The link between both orders -/

def Domain.all : Domain := ⟨fun _ => True, fun _ => True, fun _ => True, fun _ => True⟩

def Session.HasData (session : Session) (operand : Operand) : Prop :=
  ∀ id, operand = .data id → id ∈ session.cursor.module.data.keys

namespace Session.Steady

variable {session : Session} (steady : session.Steady)

include steady

theorem hasData_of_mentions {name : String} {function : Code.Function} {operand : Operand}
    (found : session.cursor.module.function? name = some function)
    (mentioned : function.body.Mentions operand) : session.HasData operand := by
  rintro id rfl
  exact (Table.contains_iff _ _).mp (steady.closed.code name function (.data id) found mentioned)

theorem hasData_of_storage {id : VarId} {address : Operand}
    (found : session.annotations.storage.get? id = some address) : session.HasData address := by
  have stored : session.annotations.storageOf id = .ok address := by
    simp only [Annotations.storageOf, found]
  rintro id rfl
  exact (Table.contains_iff _ _).mp (steady.closed.storage _ _ stored)

theorem hasData_of_value {id : ExprId} {value : Operand}
    (found : session.annotations.values.get? id = some value) : session.HasData value :=
  fun data isData => absurd isData (steady.plain id value found data)

end Session.Steady

section Looking

variable {α : Type} {convert : (DataId → DataId) → α → α} {change early late : DataId → DataId}
  {last otherLast found : Option α}

theorem exchanged_early (other : otherLast = found.map (convert early)) (same : last = found)
    (agree : ∀ value, found = some value → convert early value = convert change value) :
    otherLast = last.map (convert change) := by
  rw [other, same]
  cases found with
  | none => rfl
  | some value => exact congrArg some (agree value rfl)

theorem exchanged_late (same : otherLast = found) (other : last = found.map (convert late))
    (back : ∀ value, found = some value → convert change (convert late value) = value) :
    otherLast = last.map (convert change) := by
  rw [other, same]
  cases found with
  | none => rfl
  | some value => exact congrArg some (back value rfl).symm

end Looking

namespace Exchanged

variable {mine theirs : Domain} {before built last other otherLast : Session}
  (exchanged : Exchanged mine theirs before built last other otherLast)

/-- How much data each of them adds. -/
structure Sizes (before built last other otherLast : Session) (added otherAdded : Nat) : Prop where
  built : built.cursor.module.data.size = before.cursor.module.data.size + added
  other : other.cursor.module.data.size = before.cursor.module.data.size + otherAdded
  last : last.cursor.module.data.size = before.cursor.module.data.size + added + otherAdded
  otherLast : otherLast.cursor.module.data.size = before.cursor.module.data.size + added + otherAdded
  room : before.cursor.module.data.size + added + otherAdded ≤ 2 ^ 32

include exchanged

theorem exists_texts : ∃ texts otherTexts, before.Adds texts built ∧ before.Adds otherTexts other ∧
    built.Adds otherTexts last ∧ other.Adds texts otherLast ∧
    Sizes before built last other otherLast texts.length otherTexts.length := by
  rcases exchanged.function.adds with ⟨texts, builtAdds, otherLastAdds⟩
  rcases exchanged.item.adds with ⟨otherTexts, otherAdds, lastAdds⟩
  refine ⟨texts, otherTexts, builtAdds, otherAdds, lastAdds, otherLastAdds, builtAdds.size,
    otherAdds.size, ?_, ?_, ?_⟩
  · rw [lastAdds.size, builtAdds.size]
  · rw [otherLastAdds.size, otherAdds.size]
    omega
  · have few := exchanged.item.secondFrames.counts.few
    rw [lastAdds.size, builtAdds.size] at few
    exact Nat.le_trans few (values_size_le _)

variable {added otherAdded : Nat} (sizes : Sizes before built last other otherLast added otherAdded)
  (steadyBuilt : built.Steady) (steadyOther : other.Steady)

include sizes

omit exchanged in
include steadyBuilt in
theorem relabel_early {operand : Operand} (known : built.HasData operand) :
    operand.relabel (Code.shiftData before.cursor.module.data.size
      (other.cursor.module.data.size - before.cursor.module.data.size)) =
    operand.relabel (Code.exchangeData before.cursor.module.data.size added otherAdded) := by
  have gap : other.cursor.module.data.size - before.cursor.module.data.size = otherAdded := by
    rw [sizes.other]
    omega
  rw [gap]
  cases operand with
  | data id =>
      have below := steadyBuilt.counts.below id (known id rfl)
      rw [sizes.built] at below
      exact congrArg Operand.data (Code.exchangeData_of_lt sizes.room below).symm
  | temp | param | global | constant => rfl

omit exchanged in
include steadyOther in
theorem relabel_late {operand : Operand} (known : other.HasData operand) :
    operand.relabel (Code.exchangeData before.cursor.module.data.size added otherAdded ∘
      Code.shiftData before.cursor.module.data.size
        (built.cursor.module.data.size - before.cursor.module.data.size)) = operand := by
  have gap : built.cursor.module.data.size - before.cursor.module.data.size = added := by
    rw [sizes.built]
    omega
  rw [gap]
  refine Code.Operand.relabel_eq_self fun id isData => ?_
  have below := steadyOther.counts.below id (known id isData)
  rw [sizes.other] at below
  exact Code.exchangeData_shiftData sizes.room below

include steadyBuilt steadyOther

theorem alongside (apart : mine.Apart theirs) : last.Alongside
    (Code.exchangeData before.cursor.module.data.size added otherAdded) .all otherLast where
  functions := by
    intro name _
    by_cases isMine : mine.functions name
    · have foreign := apart.functions name isMine
      refine exchanged_early (exchanged.function.alongside.functions name foreign)
        (exchanged.item.secondFrames.functions name foreign) fun function found => ?_
      have bodies := Code.Body.relabel_congr fun operand mentioned => relabel_early sizes steadyBuilt
        (steadyBuilt.hasData_of_mentions found mentioned)
      rw [Code.Function.relabel, bodies, Code.Function.relabel]
    · refine exchanged_late (exchanged.function.secondFrames.functions name isMine)
        (exchanged.item.alongside.functions name isMine) fun function found => ?_
      have bodies := Code.Body.relabel_eq_self _ fun operand mentioned => relabel_late sizes steadyOther
        (steadyOther.hasData_of_mentions found mentioned)
      rw [Code.Function.relabel, Code.Function.relabel, Code.Body.relabel_relabel, bodies]
  storage := by
    intro id _
    by_cases isMine : mine.vars id
    · have foreign := apart.vars id isMine
      exact exchanged_early (exchanged.function.alongside.storage id foreign)
        (exchanged.item.secondFrames.storage id foreign) fun address found =>
          relabel_early sizes steadyBuilt (steadyBuilt.hasData_of_storage found)
    · refine exchanged_late (exchanged.function.secondFrames.storage id isMine)
        (exchanged.item.alongside.storage id isMine) fun address found => ?_
      rw [Operand.relabel_relabel]
      exact relabel_late sizes steadyOther (steadyOther.hasData_of_storage found)
  loops := by
    intro id _
    by_cases isMine : mine.loops id
    · have foreign := apart.loops id isMine
      exact (exchanged.function.alongside.loops id foreign).trans
        (exchanged.item.secondFrames.loops id foreign).symm
    · exact (exchanged.function.secondFrames.loops id isMine).trans
        (exchanged.item.alongside.loops id isMine).symm
  values := by
    intro id _
    by_cases isMine : mine.values id
    · have foreign := apart.values id isMine
      exact exchanged_early (exchanged.function.alongside.values id foreign)
        (exchanged.item.secondFrames.values id foreign) fun value found =>
          relabel_early sizes steadyBuilt (steadyBuilt.hasData_of_value found)
    · refine exchanged_late (exchanged.function.secondFrames.values id isMine)
        (exchanged.item.alongside.values id isMine) fun value found => ?_
      rw [Operand.relabel_relabel]
      exact relabel_late sizes steadyOther (steadyOther.hasData_of_value found)

omit sizes steadyBuilt steadyOther in
theorem sameHeadings : last.cursor.module.SameHeadings otherLast.cursor.module :=
  (exchanged.function.firstFrames.headings.trans exchanged.item.secondFrames.headings).symm.trans
    (exchanged.item.firstFrames.headings.trans exchanged.function.secondFrames.headings)

end Exchanged

/-- What comes behind both may look at everything and write everything. -/
def exchangeLink {mine theirs : Domain} {before built last other otherLast : Session}
    {added otherAdded : Nat} (exchanged : Exchanged mine theirs before built last other otherLast)
    (sizes : Exchanged.Sizes before built last other otherLast added otherAdded) : Link where
  left := last
  right := otherLast
  change := Code.exchangeData before.cursor.module.data.size added otherAdded
  view := id
  common := .all
  own := { Domain.all with functions := fun name => (last.cursor.module.function? name).isSome }
  grows := True
  within := ⟨fun _ _ => trivial, fun _ _ => trivial, fun _ _ => trivial, fun _ _ => trivial⟩
  headings := exchanged.sameHeadings.renamed id
  known := fun _ isOwn => Option.isSome_iff_exists.mp isOwn
  shifts := by
    intro count small _
    apply Code.DataId.eq_of_toNat
    rw [Code.toNat_exchangeData sizes.room, Code.toNat_toUInt32 small, sizes.otherLast, ← sizes.last,
      Code.toNat_toUInt32 small]
    exact Code.exchangeNumber_of_le (by rw [sizes.last]; omega)

section Resuming

variable {mine theirs : Domain} {before built last other otherLast : Session} {added otherAdded : Nat}
  (exchanged : Exchanged mine theirs before built last other otherLast)
  (sizes : Exchanged.Sizes before built last other otherLast added otherAdded)

theorem exchangeLink_starts (steadyBuilt : built.Steady) (steadyOther : other.Steady)
    (apart : mine.Apart theirs) {place : Place} (builds : last.Builds entry place) :
    (exchangeLink exchanged sizes).Matches entry last otherLast := by
  have alongside := exchanged.alongside sizes steadyBuilt steadyOther apart
  rcases builds.body with ⟨function, isThere, body⟩
  have otherFunction := alongside.functions entry trivial
  rw [isThere] at otherFunction
  refine Link.matches_start ⟨place, builds, ?_⟩ ?_ (fun name _ => ?_) alongside.storage alongside.loops
    alongside.values (fun _ => ?_) exchanged.item.secondFrames.counts
    exchanged.function.secondFrames.counts
  · exact ⟨exchanged.position.trans builds.position, _, otherFunction,
      congrArg (Code.Body.relabel _) body⟩
  · exact Option.isSome_iff_exists.mpr ⟨function, isThere⟩
  · rw [show (exchangeLink exchanged sizes).right = otherLast from rfl, alongside.functions name trivial,
      Option.map_map]
    rfl
  · exact ⟨congrArg (fun globals => globals.mapValues (Code.Global.rename id)) exchanged.tables.1.symm,
      exchanged.tables.2.symm⟩

theorem exchangeLink_knows (texts : List String) (id : DataId) :
    ((exchangeLink exchanged sizes).right.cursor.module.addTexts texts).data.contains
        ((exchangeLink exchanged sizes).change id) =
      ((exchangeLink exchanged sizes).left.cursor.module.addTexts texts).data.contains id := by
  change (otherLast.cursor.module.addTexts texts).data.contains
      (Code.exchangeData before.cursor.module.data.size added otherAdded id) =
    (last.cursor.module.addTexts texts).data.contains id
  have counts := exchanged.item.secondFrames.counts
  have otherCounts := exchanged.function.secondFrames.counts
  rw [Bool.eq_iff_iff, Table.contains_iff, Table.contains_iff, Code.Module.mem_keys_addTexts,
    Code.Module.mem_keys_addTexts, counts.mem_keys_iff, otherCounts.mem_keys_iff, counts.next,
    otherCounts.next, sizes.last, sizes.otherLast, Code.toNat_exchangeData sizes.room]
  by_cases old : id.number.toNat < before.cursor.module.data.size + added + otherAdded
  · simp only [old, Code.exchangeNumber_lt (Nat.le_refl _) old, true_or]
  · have same : Code.exchangeData before.cursor.module.data.size added otherAdded id = id := by
      apply Code.DataId.eq_of_toNat
      rw [Code.toNat_exchangeData sizes.room, Code.exchangeNumber_of_le (Nat.le_of_not_lt old)]
    rw [same, Code.exchangeNumber_of_le (Nat.le_of_not_lt old)]

/-- Lower the items that are left, and finish the entry function. -/
def lowerLast (program : Program) (options : Options) (ids : List StmtId) : Lower Unit := do
  ids.forM (lowerStmt program (finishFunction options))
  returnIfLive (some (.ofInt64 0))
  finishFunction options options.entryFunction

theorem lowerLast_exchanged (plain : options.verifyFunctions = false)
    (known : ∀ func decl, program.function? func = some decl →
      ∃ function, last.cursor.module.function? decl.name = some function)
    (starts : (exchangeLink exchanged sizes).Matches options.entryFunction last otherLast)
    (ids : List StmtId) :
    Together ((exchangeLink exchanged sizes).Matches options.entryFunction)
      (lowerLast program options ids last) (lowerLast program options ids otherLast) := by
  have allowed (node : Node) : (exchangeLink exchanged sizes).Allows program node := by
    cases node with
    | stmt id => exact ⟨fun _ _ _ => trivial, fun _ _ => trivial⟩
    | expr id => exact ⟨fun _ => trivial, fun _ _ => trivial⟩
    | var id => exact ⟨trivial, fun _ _ _ => trivial⟩
    | param id => exact trivial
    | function id =>
        intro decl found
        exact Option.isSome_iff_exists.mpr (known id decl found)
  have finishes (name : String) : (exchangeLink exchanged sizes).Alike name Link.Anyhow
      (finishFunction options name) (finishFunction options name) :=
    Link.alike_finishFunction_plain plain
  have runs : (exchangeLink exchanged sizes).Alike options.entryFunction Link.Anyhow
      (lowerLast program options ids) (lowerLast program options ids) :=
    (Link.alike_lowerStmts (.refl _ program) (fun name _ => finishes name) fun node _ => allowed node).bind
      fun _ _ _ => (Link.Leads.returnIfLive _).bind fun _ _ _ => finishes _
  exact (runs last otherLast starts).together

end Resuming

/-! ## The data of both orders -/

theorem Session.Adds.get? {session next : Session} {texts : List String}
    (adds : session.Adds texts next) (counts : session.Counts) (nextCounts : next.Counts) (id : DataId) :
    next.cursor.module.data.get? id =
      if id.number.toNat < session.cursor.module.data.size then session.cursor.module.data.get? id
      else texts[id.number.toNat - session.cursor.module.data.size]?.map fun text =>
        ⟨id, Code.Module.textBytes text⟩ := by
  have room := Nat.le_trans nextCounts.few (values_size_le _)
  rw [adds.size] at room
  rw [adds.data]
  exact Code.Module.get?_addTexts counts.next counts.below room id

/-- An object of data under its other number. -/
def renumberObject (change : DataId → DataId) (object : Code.DataObject) : Code.DataObject :=
  { object with id := change object.id }

theorem Session.Adds.trans {session middle next : Session} {texts more : List String}
    (adds : session.Adds texts middle) (later : middle.Adds more next) :
    session.Adds (texts ++ more) next := by
  have both := Code.Module.data_addTexts adds.data adds.nextData more
  rw [← Code.Module.addTexts_append] at both
  refine ⟨later.data.trans both.1, later.nextData.trans both.2, ?_⟩
  rw [later.size, adds.size, List.length_append, Nat.add_assoc]

/-- If two parts of the data have been added in the other order, each object of data is found under its
other number. -/
theorem exchanged_data {before finished otherFinished : Session} {texts otherTexts more : List String}
    (steady : before.Steady) (adds : before.Adds (texts ++ otherTexts ++ more) finished)
    (otherAdds : before.Adds (otherTexts ++ texts ++ more) otherFinished) (counts : finished.Counts)
    (otherCounts : otherFinished.Counts) (id : DataId) :
    otherFinished.cursor.module.data.get?
        (Code.exchangeData before.cursor.module.data.size texts.length otherTexts.length id) =
      (finished.cursor.module.data.get? id).map (renumberObject
        (Code.exchangeData before.cursor.module.data.size texts.length otherTexts.length)) := by
  have room := Nat.le_trans counts.few (values_size_le _)
  rw [adds.size, List.length_append, List.length_append] at room
  rw [otherAdds.get? steady.counts otherCounts, adds.get? steady.counts counts,
    Code.toNat_exchangeData (by omega)]
  by_cases old : id.number.toNat < before.cursor.module.data.size
  · have number := Code.exchangeNumber_of_lt texts.length otherTexts.length old
    have same : Code.exchangeData before.cursor.module.data.size texts.length otherTexts.length id = id :=
      Code.DataId.eq_of_toNat ((Code.toNat_exchangeData (by omega) id).trans number)
    rw [number, same, if_pos old, if_pos old]
    cases found : before.cursor.module.data.get? id with
    | none => rfl
    | some object =>
        rw [Option.map_some, renumberObject, steady.labelled id object found, same,
          ← steady.labelled id object found]
  · have late := Code.le_exchangeNumber texts.length otherTexts.length (Nat.le_of_not_lt old)
    rw [if_neg old, if_neg (Nat.not_lt.mpr late), Code.exchangeNumber_sub (Nat.le_of_not_lt old),
      Code.getElem?_exchangeNumber, Option.map_map]
    rfl

end ScriptLowering.Lowering
