import ScriptLowering.Proofs.DataNumbers
import ScriptLowering.Proofs.LoweredOnce

/-! # Work that is done beside other work

A part of a program is lowered in two sessions: in one where other work has been done before, and in
one where it has not. If the part has nothing to do with the other work, it makes no difference but to
the numbers of data, which are all the higher the more data the other work has added.
-/

namespace ScriptLowering.Code

theorem Module.SameHeadings.symm {module next : Module} (same : module.SameHeadings next) :
    next.SameHeadings module :=
  ⟨same.name.symm, same.names.symm, fun name => (same.headings name).symm⟩

theorem Module.SameHeadings.renamed {module next : Module} (same : module.SameHeadings next)
    (view : String → String) (name : String) : (next.function? name).map
      (fun function => (function.signature.rename view, function.linkage)) =
    (module.function? name).map
      fun function => (function.signature.rename view, function.linkage) := by
  have outline (found : Option Function) : found.map
      (fun function => (function.signature.rename view, function.linkage)) =
        (found.map Function.heading).map fun heading => (heading.1.rename view, heading.2) := by
    cases found <;> rfl
  rw [outline, outline, same.headings name]

theorem Module.SameHeadings.function?_eq {module next : Module} {name : String}
    (same : module.SameHeadings next)
    (bodies : (next.functions.mapValues Function.body).get? name =
      (module.functions.mapValues Function.body).get? name) :
    next.function? name = module.function? name := by
  have headings := same.headings name
  rw [Table.get?_mapValues, Table.get?_mapValues] at bodies
  change (next.function? name).map _ = (module.function? name).map _ at bodies
  revert headings bodies
  generalize next.function? name = found
  generalize module.function? name = before
  intro headings bodies
  cases before with
  | none => simpa using headings
  | some before =>
      rcases Option.map_eq_some_iff.mp headings with ⟨found, rfl, heading⟩
      have body : found.body = before.body := by simpa using bodies
      rcases found with ⟨signature, linkage, foundBody⟩
      rcases before with ⟨otherSignature, otherLinkage, beforeBody⟩
      simp_all [Function.heading]

@[simp] theorem Parameter.rename_id (parameter : Parameter) : parameter.rename id = parameter := rfl

@[simp] theorem Signature.rename_id (signature : Signature) : signature.rename id = signature := by
  have params : signature.params.map (Parameter.rename id) = signature.params :=
    (List.map_congr_left fun parameter _ => parameter.rename_id).trans (List.map_id _)
  rw [Signature.rename, params]

theorem Operand.relabel_eq_self {change : DataId → DataId} {operand : Operand}
    (fixed : ∀ id, operand = .data id → change id = id) : operand.relabel change = operand := by
  cases operand with
  | data id => exact congrArg Operand.data (fixed id rfl)
  | temp | param | global | constant => rfl

end ScriptLowering.Code

namespace ScriptLowering.Lowering

open Source (Program ExprId ExprNode FuncId FunctionDecl Stmt StmtId VarDecl VarId)
open Code (DataId Operand Place)

variable {program : Program} {name current : String} {session middle next : Session}

/-! ## Sessions on the way -/

def Session.Plain (session : Session) : Prop :=
  ∀ id value, session.annotations.value? id = some value → ∀ data, value ≠ .data data

/-- Each object of data has the number that it is found under. -/
def Session.Labelled (session : Session) : Prop :=
  ∀ id object, session.cursor.module.data.get? id = some object → object.id = id

/-- What the session refers to is there, data is numbered one after the other, and values are
plain. -/
structure Session.Steady (session : Session) : Prop where
  closed : session.Closed
  counts : session.Counts
  plain : session.Plain
  labelled : session.Labelled

theorem Emits.plain {final : Session} {node : ExprNode} {values : List Operand} {value : Operand}
    {place after : Place} (emits : Emits program final node values place (some value) after)
    (plain : ∀ operand ∈ values, ∀ data, operand ≠ .data data) (data : DataId) :
    value ≠ .data data := by
  cases emits with
  | assign => exact plain value List.mem_cons_self data
  | booleanLiteral | integerLiteral => rintro ⟨⟩
  | stringLiteral | identifier | callValue | negate | arith | compare | concat | compareStrings =>
      rintro ⟨⟩

theorem Task.Performs.keepsPlain {task : Task} (performs : task.Performs program name session next)
    (plain : session.Plain) : next.Plain := by
  intro id value known
  rcases performs.value_cases known with old | ⟨expr, _, _, _, emits⟩
  · exact plain id value old
  · rcases emits with ⟨_, operands, emits, _⟩
    refine emits.plain fun operand member => ?_
    have recorded : some operand ∈ (operandsOf expr.node).map session.annotations.value? := by
      rw [operands]
      exact List.mem_map_of_mem member
    rcases List.mem_map.mp recorded with ⟨other, _, same⟩
    exact plain other operand same

theorem Session.Labelled.addText (labelled : session.Labelled) (text : String) :
    (session.addText text).Labelled := by
  intro id object found
  change Table.get? (Table.insert _ _ _) id = some object at found
  rw [Table.get?_insert] at found
  split at found
  · rename_i same
    cases found
    exact same
  · exact labelled id object found

theorem Session.Labelled.stay (labelled : session.Labelled)
    (data : next.cursor.module.data = session.cursor.module.data) : next.Labelled := by
  intro id object found
  rw [data] at found
  exact labelled id object found

theorem Task.Performs.keepsLabels {task : Task} (performs : task.Performs program name session next)
    (labelled : session.Labelled) : next.Labelled := by
  cases performs with
  | @expr id expr value _ mid _ found emits records =>
      have same := (recordValue_eq_ok records).1
      have labelledMid : mid.Labelled := by
        rcases emits with ⟨_, _, _, puts⟩
        rw [puts]
        cases expr.node with
        | stringLiteral text => exact (labelled.addText text).stay rfl
        | booleanLiteral | integerLiteral | identifier | call | unary | binary =>
            exact labelled.stay rfl
      exact labelledMid.stay (by rw [same])
  | start | param | global | slot | create | loop | test | enter | leave | jump | returnIfLive
  | finish | resume | come => exact labelled.stay rfl

theorem Path.keepsData {events : List Event} (path : Path program session events next)
    (plain : session.Plain) (labelled : session.Labelled) : next.Plain ∧ next.Labelled := by
  induction path with
  | nil => exact ⟨plain, labelled⟩
  | cons performs _ induction =>
      exact induction (performs.keepsPlain plain) (performs.keepsLabels labelled)

theorem Session.Steady.inFunction (steady : session.Steady) (name : String) :
    (session.inFunction name).Steady :=
  ⟨steady.closed.extend (.refl _) fun _ => rfl, ⟨steady.counts.next, steady.counts.below,
    steady.counts.few⟩, steady.plain, steady.labelled.stay rfl⟩

/-! ## What has been left alone -/

def Domain.rest (domain : Domain) : Domain where
  functions name := ¬ domain.functions name
  vars id := ¬ domain.vars id
  loops id := ¬ domain.loops id
  values id := ¬ domain.values id

def Domain.Apart (domain other : Domain) : Prop := domain.Within other.rest

theorem Domain.Apart.symm {domain other : Domain} (apart : domain.Apart other) : other.Apart domain where
  functions name isOther mine := apart.functions name mine isOther
  vars id isOther mine := apart.vars id mine isOther
  loops id isOther mine := apart.loops id mine isOther
  values id isOther mine := apart.values id mine isOther

/-- Only what is in the domain has been worked on, and data has been added. -/
structure Session.Frames (touched : Domain) (session next : Session) : Prop where
  headings : session.cursor.module.SameHeadings next.cursor.module
  functions : ∀ name, ¬ touched.functions name →
    next.cursor.module.function? name = session.cursor.module.function? name
  storage : ∀ id, ¬ touched.vars id →
    next.annotations.storage.get? id = session.annotations.storage.get? id
  loops : ∀ id, ¬ touched.loops id →
    next.annotations.loops.get? id = session.annotations.loops.get? id
  values : ∀ id, ¬ touched.values id →
    next.annotations.values.get? id = session.annotations.values.get? id
  grown : session.cursor.module.data.size ≤ next.cursor.module.data.size
  counts : next.Counts

def Session.SameTables (session next : Session) : Prop :=
  session.cursor.module.globals = next.cursor.module.globals ∧
    session.cursor.module.nextGlobal = next.cursor.module.nextGlobal

structure Session.Adds (texts : List String) (session next : Session) : Prop where
  data : next.cursor.module.data = (session.cursor.module.addTexts texts).data
  nextData : next.cursor.module.nextData = (session.cursor.module.addTexts texts).nextData
  size : next.cursor.module.data.size = session.cursor.module.data.size + texts.length

/-- What both sessions have outside of the domain is the same, but for the numbers of data. -/
structure Session.Alongside (change : DataId → DataId) (domain : Domain) (session next : Session) :
    Prop where
  functions : ∀ name, domain.functions name → next.cursor.module.function? name =
    (session.cursor.module.function? name).map (Code.Function.relabel change)
  storage : ∀ id, domain.vars id → next.annotations.storage.get? id =
    (session.annotations.storage.get? id).map (Operand.relabel change)
  loops : ∀ id, domain.loops id →
    next.annotations.loops.get? id = session.annotations.loops.get? id
  values : ∀ id, domain.values id → next.annotations.values.get? id =
    (session.annotations.values.get? id).map (Operand.relabel change)

/-! Where the cursor stands does not matter for any of this. -/

section Moving

variable {touched : Domain} (position other : Code.Position)

def Session.movedTo (session : Session) (position : Code.Position) : Session :=
  { session with cursor := session.cursor.setPosition position }

theorem Session.Frames.move (frames : session.Frames touched next) :
    (session.movedTo position).Frames touched (next.movedTo other) :=
  { frames with counts := ⟨frames.counts.next, frames.counts.below, frames.counts.few⟩ }

theorem Session.Adds.move {texts : List String} (adds : session.Adds texts next) :
    (session.movedTo position).Adds texts (next.movedTo other) := ⟨adds.data, adds.nextData, adds.size⟩

theorem Session.Alongside.move {change : DataId → DataId} {domain : Domain}
    (alongside : session.Alongside change domain next) :
    (session.movedTo position).Alongside change domain (next.movedTo other) :=
  ⟨alongside.functions, alongside.storage, alongside.loops, alongside.values⟩

end Moving

namespace Link.Matches

variable {link : Link} {first second : Session} (agree : link.Matches current first second)

include agree

theorem firstFrames : link.left.Frames link.own first where
  headings := agree.firstHeadings
  functions name outside := agree.firstHeadings.function?_eq (agree.bodies.firstKept name outside)
  storage := agree.storage.firstKept
  loops := agree.loops.firstKept
  values := agree.values.firstKept
  grown := by
    rcases agree.texts with ⟨_, ⟨_, _, size⟩, _⟩
    exact size ▸ Nat.le_add_right _ _
  counts := agree.firstCounts

theorem secondFrames : link.right.Frames link.own second where
  headings := agree.secondHeadings
  functions name outside := agree.secondHeadings.function?_eq (agree.bodies.secondKept name outside)
  storage := agree.storage.secondKept
  loops := agree.loops.secondKept
  values := agree.values.secondKept
  grown := by
    rcases agree.texts with ⟨_, _, _, _, size⟩
    exact size ▸ Nat.le_add_right _ _
  counts := agree.secondCounts

theorem adds : ∃ texts, link.left.Adds texts first ∧ link.right.Adds texts second := by
  rcases agree.texts with ⟨texts, ⟨data, nextData, size⟩, otherData, otherNextData, otherSize⟩
  exact ⟨texts, ⟨data, nextData, size⟩, otherData, otherNextData, otherSize⟩

/-- Where names are looked at, common functions are the same but for the numbers of data. -/
theorem alongside (names : link.view = id) : first.Alongside link.change link.common second where
  functions := by
    intro name isCommon
    have functions := agree.function_counterpart name isCommon
    revert functions
    generalize first.cursor.module.function? name = function
    generalize second.cursor.module.function? name = mirrored
    rintro (⟨signature, linkage, body⟩ | _)
    · rw [names] at signature
      exact congrArg some (Code.Function.mk.injEq .. |>.mpr
        ⟨by simpa using signature, linkage, body⟩)
    · rfl
  storage := agree.storage.agree
  loops := by simpa using agree.loops.agree
  values := agree.values.agree

theorem sameTables (names : link.view = id) (grows : link.grows) : second.SameTables first := by
  rcases agree.globals grows with ⟨same, next⟩
  have renames : Code.Global.rename id = fun global => global := rfl
  rw [names, renames, Table.mapValues_id, Table.mapValues_id] at same
  exact ⟨same, next⟩

end Link.Matches

/-! ## The link between both runs -/

section Link

variable {left right : Session} {mine theirs : Domain}

/-- From `right` on, what is `mine` is worked on beside what is `theirs`, and from `left` on
without it. -/
def besideLink (left right : Session) (mine theirs : Domain) (grows : Prop)
    (frames : left.Frames theirs right) (apart : mine.Apart theirs)
    (known : ∀ name, mine.functions name →
      ∃ function, left.cursor.module.function? name = some function) : Link where
  left := left
  right := right
  change := Code.shiftData left.cursor.module.data.size
    (right.cursor.module.data.size - left.cursor.module.data.size)
  view := id
  common := theirs.rest
  own := mine
  grows := grows
  within := apart
  headings := frames.headings.renamed id
  known := known
  shifts := by
    intro count leftSmall _
    rw [Code.shiftData_of_le (Nat.le_add_right _ _) leftSmall]
    have grown := frames.grown
    exact congrArg (fun number : Nat => (⟨number.toUInt32⟩ : DataId)) (by omega)

theorem relabel_of_known {gap : Nat} (counts : session.Counts) {operand : Operand}
    (known : session.cursor.module.Knows operand) :
    operand.relabel (Code.shiftData session.cursor.module.data.size gap) = operand := by
  refine Code.Operand.relabel_eq_self fun id isData => ?_
  subst isData
  exact Code.shiftData_of_lt gap (counts.below id ((Table.contains_iff _ _).mp known))

variable {grows : Prop} {frames : left.Frames theirs right} {apart : mine.Apart theirs}
  {known : ∀ name, mine.functions name →
    ∃ function, left.cursor.module.function? name = some function}

theorem besideLink_starts (steady : left.Steady) {place : Place} (builds : left.Builds current place)
    (position : right.cursor.position = left.cursor.position) (inside : mine.functions current)
    (globals : grows → right.SameTables left) :
    (besideLink left right mine theirs grows frames apart known).Matches current left right := by
  let change := Code.shiftData left.cursor.module.data.size
    (right.cursor.module.data.size - left.cursor.module.data.size)
  have bodies (name : String) (function : Code.Function)
      (found : left.cursor.module.function? name = some function) :
      function.body.relabel change = function.body :=
    Code.Body.relabel_eq_self change fun operand mentioned =>
      relabel_of_known steady.counts (steady.closed.code name function operand found mentioned)
  have stands : right.Builds current (place.relabel change) := by
    rcases builds.body with ⟨function, found, body⟩
    have same := frames.functions current (apart.functions current inside)
    refine ⟨position.trans builds.position, function, same.trans found, ?_⟩
    rw [Place.relabel, ← body, bodies current function found]
  have functions (name : String) (outside : ¬ theirs.functions name) :
      (right.cursor.module.function? name).map Code.Function.body =
        (left.cursor.module.function? name).map fun function => function.body.relabel change := by
    rw [frames.functions name outside]
    cases found : left.cursor.module.function? name with
    | none => rfl
    | some function => exact congrArg some (bodies name function found).symm
  have storage (id : VarId) (outside : ¬ theirs.vars id) : right.annotations.storage.get? id =
      (left.annotations.storage.get? id).map (Operand.relabel change) := by
    rw [frames.storage id outside]
    cases found : left.annotations.storage.get? id with
    | none => rfl
    | some address =>
        have stored : left.annotations.storageOf id = .ok address := by
          simp only [Annotations.storageOf, found]
        exact congrArg some (relabel_of_known steady.counts (steady.closed.storage id address stored)).symm
  have values (id : ExprId) (outside : ¬ theirs.values id) : right.annotations.values.get? id =
      (left.annotations.values.get? id).map (Operand.relabel change) := by
    rw [frames.values id outside]
    cases found : left.annotations.values.get? id with
    | none => rfl
    | some value =>
        refine congrArg some (Code.Operand.relabel_eq_self fun data isData => ?_).symm
        exact absurd isData (steady.plain id value found data)
  refine Link.matches_start ⟨place, builds, stands⟩ inside functions storage frames.loops values
    (fun isGrowing => ?_) steady.counts frames.counts
  rcases globals isGrowing with ⟨same, next⟩
  exact ⟨congrArg (fun globals => globals.mapValues (Code.Global.rename id)) same, next⟩

end Link

/-! ## What nodes touch -/

/-- What lowering the nodes works on, when the cursor stands in the function `current`. -/
def touches (program : Program) (start : Session) (current : String) (nodes : List Node) : Domain where
  functions name := name = current ∨ name ∈ namesOf program nodes
  vars id := .var id ∈ nodes ∨ .param id ∈ nodes
  loops id := .stmt id ∈ nodes ∧ (Node.stmt id).Marked program start
  values id := .expr id ∈ nodes ∧ (Node.expr id).Marked program start

/-- The nodes refer to no loop and no variable of the domain. -/
structure Avoids (program : Program) (nodes : List Node) (domain : Domain) : Prop where
  jumps : ∀ node ∈ nodes, ∀ target, node.jumpsTo? program = some target → ¬ domain.loops target
  uses : ∀ node ∈ nodes, ∀ var, node.uses? program = some var → ¬ domain.vars var

/-- The nodes declare no variable of the top level. -/
def DeclaresNoGlobal (program : Program) (nodes : List Node) : Prop :=
  ∀ id decl, .var id ∈ nodes → program.var? id = some decl → decl.scope = .local

theorem mem_namesOf {nodes : List Node} {id : FuncId} {decl : FunctionDecl}
    (member : .function id ∈ nodes) (found : program.function? id = some decl) :
    decl.name ∈ namesOf program nodes :=
  List.mem_filterMap.mpr ⟨id, mem_functionsOf.mpr member, by rw [found]; rfl⟩

theorem besideLink_allows {start left right : Session} {theirs : Domain} {grows : Prop}
    {nodes : List Node} {frames : left.Frames theirs right}
    {apart : (touches program start current nodes).Apart theirs}
    {known : ∀ name, (touches program start current nodes).functions name →
      ∃ function, left.cursor.module.function? name = some function}
    (signed : start.Signed left) (avoids : Avoids program nodes theirs)
    (mayGrow : grows ∨ DeclaresNoGlobal program nodes) {node : Node} (member : node ∈ nodes) :
    (besideLink left right (touches program start current nodes) theirs grows frames apart
      known).Allows program node := by
  cases node with
  | stmt id =>
      exact ⟨fun stmt found loops => ⟨member, stmt, found, loops⟩,
        fun target jumps => avoids.jumps _ member target jumps⟩
  | expr id =>
      refine ⟨fun valued => ⟨member, fun valueless => valued ?_⟩,
        fun var uses => avoids.uses _ member var uses⟩
      rcases valueless with ⟨callee, args, ty, isCall, nothing⟩
      exact ⟨callee, args, ty, isCall, signed.returnsNothing_iff.mpr nothing⟩
  | var id =>
      refine ⟨.inl member, fun decl found isTopLevel => ?_⟩
      rcases mayGrow with isGrowing | noGlobal
      · exact isGrowing
      · rw [noGlobal id decl member found] at isTopLevel
        cases isTopLevel
  | param id => exact .inr member
  | function id => exact fun decl found => .inr (mem_namesOf member found)

theorem touches_apart {start : Session} {first second : List Node} {other : String}
    (once : (first ++ second).Pairwise fun node other =>
      node.Marked program start → node.plain ≠ other.plain)
    (names : (namesOf program first).Disjoint (namesOf program second)) (different : current ≠ other)
    (foreign : current ∉ namesOf program second) (otherForeign : other ∉ namesOf program first) :
    (touches program start current first).Apart (touches program start other second) := by
  have distinct := (List.pairwise_append.mp once).2.2
  refine ⟨?_, ?_, ?_, ?_⟩
  · rintro name (rfl | mine) (rfl | theirs)
    · exact different rfl
    · exact foreign theirs
    · exact otherForeign mine
    · exact names mine theirs
  · rintro id (mine | mine) (theirs | theirs) <;> exact distinct _ mine _ theirs trivial rfl
  · rintro id ⟨mine, marked⟩ ⟨theirs, _⟩
    exact distinct _ mine _ theirs marked rfl
  · rintro id ⟨mine, marked⟩ ⟨theirs, _⟩
    exact distinct _ mine _ theirs marked rfl

/-! ## Lowering beside other work -/

/-- Both runs come to their end, and then it holds, or neither does. -/
inductive Together (holds : Session → Session → Prop) :
    Except Error (Unit × Session) → Except Error (Unit × Session) → Prop
  | done {first second : Session} (ends : holds first second) :
      Together holds (.ok ((), first)) (.ok ((), second))
  | failed {error other : Error} : Together holds (.error error) (.error other)

theorem Together.mono {holds weaker : Session → Session → Prop}
    {first second : Except Error (Unit × Session)} (together : Together holds first second)
    (weakens : ∀ first second, holds first second → weaker first second) :
    Together weaker first second := by
  cases together with
  | done ends => exact .done (weakens _ _ ends)
  | failed => exact .failed

theorem Together.of_first {holds : Session → Session → Prop} {first : Session}
    {second : Except Error (Unit × Session)} (together : Together holds (.ok ((), first)) second) :
    ∃ next, second = .ok ((), next) ∧ holds first next := by
  cases together with
  | done ends => exact ⟨_, rfl, ends⟩

theorem Together.of_second {holds : Session → Session → Prop} {second : Session}
    {first : Except Error (Unit × Session)} (together : Together holds first (.ok ((), second))) :
    ∃ next, first = .ok ((), next) ∧ holds next second := by
  cases together with
  | done ends => exact ⟨_, rfl, ends⟩

theorem Link.Outcome.together {link : Link} {first second : Except Error (Unit × Session)}
    (outcome : link.Outcome current Link.Anyhow first second) :
    Together (link.Matches current) first second := by
  cases outcome with
  | done _ agree => exact .done agree
  | failed => exact .failed

/-- The same work has been done from both sessions, and it is `mine`. The session on the right has
what is `theirs` already. -/
structure Session.Parallel (mine theirs : Domain) (left right first second : Session) : Prop where
  firstFrames : left.Frames mine first
  secondFrames : right.Frames mine second
  alongside : first.Alongside (Code.shiftData left.cursor.module.data.size
    (right.cursor.module.data.size - left.cursor.module.data.size)) theirs.rest second
  adds : ∃ texts, left.Adds texts first ∧ right.Adds texts second

def lowerParts (program : Program) (finish : String → Lower Unit) : StmtId → Lower Unit :=
  lowerStmtWithin program finish (2 * program.nodeCount + 1)

def walkParts (program : Program) : StmtId → List Node :=
  walkStmtWithin program (2 * program.nodeCount + 1)

theorem lowerStmt_functionDecl {options : Options} {id : StmtId} {func : FuncId} {decl : FunctionDecl}
    (isDecl : program.stmt? id = some (.functionDecl func)) (found : program.function? func = some decl)
    (session : Session) : lowerStmt program (finishFunction options) id session =
      match buildFunction options decl.name
        (fillFunction program (lowerParts program (finishFunction options)) decl) session with
      | .ok (_, built) =>
          .ok ((), built.movedTo session.cursor.position)
      | .error error => .error error := by
  rw [lowerStmt, stmtDepth, lowerStmtWithin, isDecl, Lower.orFault_some_bind, lowerNodeOf,
    lowerFunctionDecl_eq_build found]
  have looks : Lower.cursor session = .ok (session.cursor, session) := rfl
  rw [Lower.bind_eq looks, lowerParts]
  generalize outcome : buildFunction options decl.name (fillFunction program _ decl) session = result
  cases result with
  | error error => exact Lower.bind_eq_error outcome
  | ok pair => exact Lower.bind_eq outcome

theorem walkStmt_functionDecl {id : StmtId} {func : FuncId} {decl : FunctionDecl}
    (isDecl : program.stmt? id = some (.functionDecl func))
    (found : program.function? func = some decl) : walkStmt program id =
      .stmt id :: .function func :: (decl.params.map .param ++ walkParts program decl.body) := by
  rw [walkStmt, stmtDepth, walkStmtWithin, isDecl]
  simp only [walkNodeOf, walkFunction, found, walkParts]

/-- A statement of the function `current` has been lowered in both sessions. -/
structure StatementBeside (current : String) (mine theirs : Domain)
    (left right first second : Session) : Prop
    extends Session.Parallel mine theirs left right first second where
  tables : second.SameTables first
  position : second.cursor.position = first.cursor.position
  stands : ∃ place, first.Builds current place

/-- A function has been lowered in both sessions, and the cursor has come back. -/
structure FunctionBeside (mine theirs : Domain) (left right first second : Session) : Prop
    extends Session.Parallel mine theirs left right first second where
  tables : first.SameTables left
  otherTables : second.SameTables right
  position : first.cursor.position = left.cursor.position
  otherPosition : second.cursor.position = right.cursor.position

theorem Session.Parallel.move {mine theirs : Domain} {left right first second : Session}
    (parallel : Session.Parallel mine theirs left right first second)
    (here there firstHere secondHere : Code.Position) :
    Session.Parallel mine theirs (left.movedTo here) (right.movedTo there) (first.movedTo firstHere)
      (second.movedTo secondHere) where
  firstFrames := parallel.firstFrames.move _ _
  secondFrames := parallel.secondFrames.move _ _
  alongside := parallel.alongside.move _ _
  adds := by
    rcases parallel.adds with ⟨texts, adds, otherAdds⟩
    exact ⟨texts, adds.move _ _, otherAdds.move _ _⟩

section Running

variable {left right : Session} {theirs : Domain} {place : Place}

theorem parallel_of_matches {mine : Domain} {grows : Prop} {frames : left.Frames theirs right}
    {apart : mine.Apart theirs} {known : ∀ name, mine.functions name →
      ∃ function, left.cursor.module.function? name = some function} {first second : Session}
    (agree : (besideLink left right mine theirs grows frames apart known).Matches current first
      second) : Session.Parallel mine theirs left right first second :=
  ⟨agree.firstFrames, agree.secondFrames, agree.alongside rfl, agree.adds⟩

variable {start : Session} {options : Options} (plain : options.verifyFunctions = false)
  (frames : left.Frames theirs right) (steady : left.Steady) (signed : start.Signed left)

include plain frames steady signed

/-- A statement of the function `current` is lowered beside other work. -/
theorem lowerStmt_beside {id : StmtId} (builds : left.Builds current place)
    (position : right.cursor.position = left.cursor.position)
    (apart : (touches program start current (walkStmt program id)).Apart theirs)
    (known : ∀ name, (touches program start current (walkStmt program id)).functions name →
      ∃ function, left.cursor.module.function? name = some function)
    (avoids : Avoids program (walkStmt program id) theirs)
    (globals : right.SameTables left) :
    Together (StatementBeside current (touches program start current (walkStmt program id)) theirs left
        right)
      (lowerStmt program (finishFunction options) id left)
      (lowerStmt program (finishFunction options) id right) := by
  let link := besideLink left right (touches program start current (walkStmt program id)) theirs True
    frames apart known
  have starts : link.Matches current left right :=
    besideLink_starts steady builds position (.inl rfl) fun _ => globals
  have runs : link.Alike current Link.Anyhow (lowerStmt program (finishFunction options) id)
      (lowerStmt program (finishFunction options) id) :=
    Link.alike_lowerStmt (.refl _ program) (fun _ _ => Link.alike_finishFunction_plain plain)
      fun node member => besideLink_allows signed avoids (.inl trivial) member
  refine (runs left right starts).together.mono fun first second agree => ?_
  rcases agree.stands with ⟨place, firstBuilds, _⟩
  exact ⟨parallel_of_matches agree, agree.sameTables rfl trivial, agree.position, place, firstBuilds⟩

/-- A function is lowered beside other work, wherever the cursor stands. -/
theorem lowerFunction_beside {id : StmtId} {func : FuncId} {decl : FunctionDecl}
    (isDecl : program.stmt? id = some (.functionDecl func)) (found : program.function? func = some decl)
    (apart : (touches program start decl.name (walkStmt program id)).Apart theirs)
    (known : ∀ name, (touches program start decl.name (walkStmt program id)).functions name →
      ∃ function, left.cursor.module.function? name = some function)
    (avoids : Avoids program (walkStmt program id) theirs)
    (noGlobal : DeclaresNoGlobal program (walkStmt program id)) :
    Together (FunctionBeside (touches program start decl.name (walkStmt program id)) theirs left right)
      (lowerStmt program (finishFunction options) id left)
      (lowerStmt program (finishFunction options) id right) := by
  let mine := touches program start decl.name (walkStmt program id)
  have moved : (left.inFunction decl.name).Frames theirs (right.inFunction decl.name) :=
    frames.move _ _
  let link := besideLink (left.inFunction decl.name) (right.inFunction decl.name) mine theirs False
    moved apart known
  rcases known decl.name (.inl rfl) with ⟨function, isThere⟩
  have stands : (left.inFunction decl.name).Builds decl.name ⟨function.body, none⟩ :=
    ⟨rfl, function, isThere, rfl⟩
  have starts : link.Matches decl.name (left.inFunction decl.name) (right.inFunction decl.name) :=
    besideLink_starts (steady.inFunction decl.name) stands rfl (.inl rfl) fun grows => grows.elim
  have finishes (name : String) (_ : link.own.functions name) :
      link.Alike name Link.Anyhow (finishFunction options name) (finishFunction options name) :=
    Link.alike_finishFunction_plain plain
  have movedSigned : start.Signed (left.inFunction decl.name) := signed
  have allowed (node : Node) (member : node ∈ walkStmt program id) : link.Allows program node :=
    besideLink_allows movedSigned avoids (.inr noGlobal) member
  have fills : link.Alike decl.name Link.Anyhow
      (fillFunction program (lowerParts program (finishFunction options)) decl)
      (fillFunction program (lowerParts program (finishFunction options)) decl) := by
    refine Link.alike_fillFunction (.refl _ program) (fun name child inside =>
      Link.alike_lowerStmtWithin (.refl _ program) finishes _ name child inside) fun node member => ?_
    rw [walkStmt_functionDecl isDecl found] at allowed
    exact allowed node (List.mem_cons_of_mem _ (List.mem_cons_of_mem _ member))
  have outcome := (Link.leads_buildFunction finishes (.inl rfl) fills _ _ starts).together
  rw [buildFunction_inFunction, buildFunction_inFunction] at outcome
  rw [lowerStmt_functionDecl isDecl found, lowerStmt_functionDecl isDecl found]
  revert outcome
  generalize buildFunction options decl.name (fillFunction program _ decl) left = built
  generalize buildFunction options decl.name (fillFunction program _ decl) right = otherBuilt
  intro outcome
  cases outcome with
  | failed => exact .failed
  | done agree =>
      exact .done ⟨(parallel_of_matches agree).move _ _ _ _, agree.firstGlobals not_false,
        agree.secondGlobals not_false, rfl, rfl⟩

end Running

end ScriptLowering.Lowering
