import ScriptLowering.Proofs.Declarations
import ScriptLowering.Proofs.FinishedFunctions
import ScriptLowering.Proofs.StraightLineCode
import ScriptLowering.Proofs.WatchedRuns

/-! # Lowering is never refused

Whatever the program is, lowering asks for no building step that is refused: it lays out and
drops only detached blocks of the function at hand, and adds code only to blocks that are not
terminated. The only thing that can go wrong is that a function gets more blocks than there are
numbers for them.
-/

namespace ScriptLowering.Lowering

open Source (Program ExprId ExprNode ForInit FuncId FunctionDecl Stmt StmtId VarDecl VarId)
open Code (BlockId Instruction Operand Place Terminator Ty)

/-! ## Adding code

Code that is added to the open block keeps all that a working session has. -/

def GoesOn (program : Program) {α : Type} (step : Lower α) : Prop :=
  ∀ (first session : Session) (touched : String → Prop) (name : String) (waits : List BlockId)
    (count : Nat), Session.Working program first touched name waits count session →
    step.Ensures session (fun _ => Session.Working program first touched name waits count)
      Error.IsUnrefused

theorem Session.Working.stable (program : Program) (first : Session) (touched : String → Prop)
    (name : String) (waits : List BlockId) (count : Nat) :
    Session.Stable (Session.Working program first touched name waits count) where
  stands := by
    intro session working
    rcases working.place with ⟨place, builds, _⟩
    exact ⟨name, place, builds⟩
  learn := fun _ _ working position functions _ => working.learn position functions
  add := by
    intro session other place working builds instruction
    rcases working.place with ⟨here, stands, holds⟩
    cases stands.name_unique builds
    cases stands.unique builds
    exact working.adds holds instruction
  define := by
    intro session other place working builds ty make
    rcases working.place with ⟨here, stands, holds⟩
    cases stands.name_unique builds
    cases stands.unique builds
    exact working.defines holds ty make

theorem Straight.goesOn {α : Type} {step : Lower α} (straight : Straight step)
    (program : Program) : GoesOn program step :=
  fun first session touched name waits count working =>
    straight _ (Session.Working.stable program first touched name waits count) session working

namespace GoesOn

variable {program : Program} {α β : Type}

theorem ensures {step : Lower α} (goesOn : GoesOn program step) {first session : Session}
    {touched : String → Prop} {name : String} {waits : List BlockId} {count : Nat}
    (working : Session.Working program first touched name waits count session) :
    step.Ensures session (fun _ => Session.Working program first touched name waits count)
      Error.IsUnrefused :=
  goesOn first session touched name waits count working

theorem annotate (change : Annotations → Except ProgramFault Annotations) :
    GoesOn program (Lower.annotate change) :=
  fun _ _ _ _ _ _ working => .of_bind_pure <|
    .annotate_bind (fun fault _ => Error.isUnrefused_program fault) fun _ _ =>
      .pure (working.learn rfl rfl)

end GoesOn

/-! ## Room for a statement -/

theorem Session.Working.refill {program : Program} {first session : Session}
    {touched : String → Prop} {name : String} {waits : List BlockId}
    (working : Working program first touched name waits 0 session)
    (numbers : session.hasNumbers = true) :
    Working program first touched name waits 16 session := by
  have below : ∀ other function, session.cursor.module.function? other = some function →
      function.body.nextBlock.toNat < 2 ^ 31 := by
    intro other function found
    have member := Table.mem_values_iff.mpr ⟨other, found⟩
    have small := List.all_eq_true.mp numbers function member
    exact UInt32.lt_iff_toNat_lt.mp (of_decide_eq_true small)
  refine { working with place := ?_, bodies := ?_ }
  · rcases working.place with ⟨place, builds, holds⟩
    rcases builds.body with ⟨function, found, same⟩
    have owes := place.owed_le_one
    have small := below name function found
    rw [same] at small
    exact ⟨place, builds, { holds with room := by omega }⟩
  · intro other function found
    have small := below other function found
    exact { working.bodies other function found with room := by omega }

theorem ensures_watch {program : Program} {first session : Session} {touched : String → Prop}
    {name : String} {waits : List BlockId}
    (working : Session.Working program first touched name waits 0 session) :
    watch.Ensures session (fun _ => Session.Working program first touched name waits 16)
      Error.IsUnrefused := by
  cases numbers : session.hasNumbers with
  | true => exact .of_ok (if_pos numbers) (working.refill numbers)
  | false =>
      have stops : watch session = .error (.program .endless) := by
        simp [watch, numbers]
      exact .of_error stops (Error.isUnrefused_program _)

/-! ## Statements

`lower` lowers the statements inside the one at hand. Each of them begins and ends with plenty
of numbers, so that only the blocks of the statement itself have to be counted. -/

/-- The statement `id` is lowered by `step`: if the step comes to its end, so does the statement,
and lowering can go on. -/
def Proceeds (program : Program) (depth : Nat) (id : StmtId) (step : Lower Unit) : Prop :=
  ∀ (session : Session) (name : String) (waits : List BlockId),
    (Contains program name id → Endless program name) →
    Session.Working program session (Contains program · id) name waits 0 session →
    step.Ensures session (fun _ next => EndsWithin program depth id ∧
      Session.Working program session (Contains program · id) name waits 16 next)
      Error.IsUnrefused

/-- The statement `id`, which is `stmt`, is lowered by `step` between two looks at the numbers. -/
def Passes (program : Program) (depth : Nat) (id : StmtId) (stmt : Stmt) (step : Lower Unit) :
    Prop :=
  ∀ (first session : Session) (name : String) (waits : List BlockId),
    (Contains program name id → Endless program name) →
    Session.Working program first (Contains program · id) name waits 16 session →
    step.Ensures session
      (fun _ next => (∀ child ∈ children program stmt, EndsWithin program depth child) ∧
        Session.Working program first (Contains program · id) name waits 0 next)
      Error.IsUnrefused

theorem GoesOn.passes {program : Program} {depth : Nat} {id : StmtId} {stmt : Stmt}
    {step : Lower Unit} (goesOn : GoesOn program step) (leaf : children program stmt = []) :
    Passes program depth id stmt step := by
  intro first session name waits _ working
  refine (goesOn.ensures working).mono fun _ next after => ⟨?_, after.mono (Nat.zero_le _)⟩
  simp [leaf]

section Statements

variable {program : Program} {depth : Nat} {id : StmtId} {lower : StmtId → Lower Unit}

theorem Session.Working.thenLower {child : StmtId} {first session : Session}
    {touched : String → Prop} {name : String} {waits : List BlockId} {count : Nat}
    {step : Lower Unit} {β : Type} {rest : Unit → Lower β} {post : β → Session → Prop}
    (working : Working program first touched name waits count session)
    (proceeds : Proceeds program depth child step)
    (own : touched name → Endless program name)
    (covers : ∀ other, Contains program other child → touched other)
    (continues : ∀ next, EndsWithin program depth child →
      Working program first touched name waits 16 next →
      (rest ()).Ensures next post Error.IsUnrefused) :
    (step >>= rest).Ensures session post Error.IsUnrefused := by
  have starts := (working.mono (Nat.zero_le _)).restart (Contains program · child)
  refine (proceeds session name waits (fun inner => own (covers name inner)) starts).bind ?_
  rintro _ next ⟨ends, after⟩
  exact continues next ends (working.trans after covers)

theorem Session.Working.lowerAll (proceeds : ∀ child, Proceeds program depth child (lower child))
    {first session : Session} {touched : String → Prop} {name : String} {waits : List BlockId}
    {stmts : List StmtId} (working : Working program first touched name waits 0 session)
    (own : touched name → Endless program name)
    (covers : ∀ child ∈ stmts, ∀ other, Contains program other child → touched other) :
    (stmts.forM lower).Ensures session
      (fun _ next => (∀ child ∈ stmts, EndsWithin program depth child) ∧
        Working program first touched name waits 0 next) Error.IsUnrefused := by
  let keeps (rest : List StmtId) (next : Session) : Prop :=
    (∃ done, stmts = done ++ rest ∧ ∀ child ∈ done, EndsWithin program depth child) ∧
      Working program first touched name waits 0 next
  have start : keeps stmts session := ⟨⟨[], rfl, by simp⟩, working⟩
  have pass : ∀ child rest next, keeps (child :: rest) next →
      (lower child).Ensures next (fun _ => keeps rest) Error.IsUnrefused := by
    rintro child rest next ⟨⟨done, splits, ends⟩, here⟩
    have member : child ∈ stmts := by simp [splits]
    refine .of_bind_pure (here.thenLower (proceeds child) own (covers child member) ?_)
    intro after childEnds working
    refine .pure ⟨⟨done ++ [child], by simp [splits], ?_⟩, working.mono (Nat.zero_le _)⟩
    intro other isDone
    rcases List.mem_append.mp isDone with old | new
    · exact ends other old
    · rw [List.mem_singleton.mp new]
      exact childEnds
  refine (Lower.Ensures.forM start pass).mono ?_
  rintro _ next ⟨⟨done, splits, ends⟩, after⟩
  rw [List.append_nil] at splits
  subst splits
  exact ⟨ends, after⟩

theorem passes_compound (proceeds : ∀ child, Proceeds program depth child (lower child))
    {stmts : List StmtId} (known : program.stmt? id = some (.compound stmts)) :
    Passes program depth id (.compound stmts) (stmts.forM lower) := by
  intro first session name waits own working
  exact (working.mono (Nat.zero_le _)).lowerAll proceeds own
    fun _ member _ => .inside known member

theorem passes_lowerIf (proceeds : ∀ child, Proceeds program depth child (lower child))
    {condition : ExprId} {thenBody : StmtId} {elseBody : Option StmtId}
    (known : program.stmt? id = some (.ifThenElse condition thenBody elseBody)) :
    Passes program depth id (.ifThenElse condition thenBody elseBody)
      (lowerIf program lower condition thenBody elseBody) := by
  intro first session name waits own working
  refine (((straight_lowerValue condition).goesOn program).ensures working).bind fun value next working => ?_
  refine working.thenCreate (by decide) fun thenBlock next working => ?_
  refine working.thenCreate (by decide) fun endBlock next working => ?_
  cases elseBody with
  | none =>
      refine working.thenTerminate (by decide) fun next working => ?_
      refine working.swap.thenEnter (by decide) fun next working => ?_
      refine working.thenLower (proceeds thenBody) own (fun _ => .inside known (by simp [children])) ?_
      intro next ends working
      refine working.thenLeaveTo (by decide) fun next working => ?_
      refine .of_bind_pure (working.thenEnter (by decide) fun next working => .pure ⟨?_, ?_⟩)
      · simpa [children] using ends
      · exact working.mono (Nat.zero_le _)
  | some elseBody =>
      refine working.thenCreate (by decide) fun elseBlock next working => ?_
      refine working.thenTerminate (by decide) fun next working => ?_
      refine working.third.thenEnter (by decide) fun next working => ?_
      refine working.thenLower (proceeds thenBody) own (fun _ => .inside known (by simp [children])) ?_
      intro next thenEnds working
      refine working.thenLeaveTo (by decide) fun next working => ?_
      refine working.thenEnter (by decide) fun next working => ?_
      refine working.thenLower (proceeds elseBody) own (fun _ => .inside known (by simp [children])) ?_
      intro next elseEnds working
      refine working.thenLeaveTo (by decide) fun next working => ?_
      refine .of_bind_pure (working.thenEnter (by decide) fun next working => .pure ⟨?_, ?_⟩)
      · simpa [children] using ⟨thenEnds, elseEnds⟩
      · exact working.mono (Nat.zero_le _)

theorem passes_lowerWhile (proceeds : ∀ child, Proceeds program depth child (lower child))
    {condition : ExprId} {body : StmtId}
    (known : program.stmt? id = some (.whileLoop condition body)) :
    Passes program depth id (.whileLoop condition body)
      (lowerWhile program lower id condition body) := by
  intro first session name waits own working
  refine working.thenCreate (by decide) fun condBlock next working => ?_
  refine working.thenCreate (by decide) fun bodyBlock next working => ?_
  refine working.thenCreate (by decide) fun endBlock next working => ?_
  refine ((GoesOn.annotate _).ensures working).bind fun _ next working => ?_
  refine working.third.thenEnter (by decide) fun next working => ?_
  refine (((straight_lowerValue condition).goesOn program).ensures working).bind fun value next working => ?_
  refine working.thenTerminate (by decide) fun next working => ?_
  refine working.swap.thenEnter (by decide) fun next working => ?_
  refine working.thenLower (proceeds body) own (fun _ => .inside known (by simp [children])) ?_
  intro next ends working
  refine working.thenLeaveTo (by decide) fun next working => ?_
  refine .of_bind_pure (working.thenEnter (by decide) fun next working => .pure ⟨?_, ?_⟩)
  · simpa [children] using ends
  · exact working.mono (Nat.zero_le _)

theorem Session.Working.createUpdateBlock {first session : Session} {touched : String → Prop}
    {name : String} {waits : List BlockId} {count : Nat} {errors : Error → Prop}
    (working : Session.Working program first touched name waits count session)
    (enough : 1 ≤ count) (updates : List ExprId) :
    (Lowering.createUpdateBlock updates).Ensures session (fun block =>
      Session.Working program first touched name (block.toList ++ waits) (count - 1)) errors := by
  unfold Lowering.createUpdateBlock
  split
  · exact .pure (working.mono (Nat.sub_le _ _))
  · exact .map (.of_bind_pure (working.thenCreate enough fun _ _ created => .pure created))

theorem Session.Working.lowerForCondition {first session : Session} {touched : String → Prop}
    {name : String} {waits : List BlockId} {count : Nat}
    (working : Session.Working program first touched name waits count session)
    (enough : 3 ≤ count) (endBlock : BlockId) (condition : Option ExprId) :
    (Lowering.lowerForCondition program endBlock condition).Ensures session (fun _ =>
      Session.Working program first touched name waits (count - 3)) Error.IsUnrefused := by
  cases condition with
  | none => exact .pure (working.mono (Nat.sub_le _ _))
  | some condition =>
      refine working.thenCreate (by omega) fun bodyBlock next working => ?_
      refine (((straight_lowerValue condition).goesOn program).ensures working).bind fun value next working => ?_
      refine working.thenTerminate (by omega) fun next working => ?_
      exact .of_bind_pure (working.thenEnter (by omega) fun next working => .pure working)

theorem Session.Working.lowerForUpdates {first session : Session} {touched : String → Prop}
    {name : String} {waits : List BlockId} {count : Nat} {updateBlock : Option BlockId}
    (working : Session.Working program first touched name (updateBlock.toList ++ waits) count
      session) (enough : 1 ≤ count) (updates : List ExprId) :
    (Lowering.lowerForUpdates program updates updateBlock).Ensures session (fun _ =>
      Session.Working program first touched name waits (count - 1)) Error.IsUnrefused := by
  cases updateBlock with
  | none => exact .pure (working.mono (Nat.sub_le _ _))
  | some updateBlock =>
      exact working.thenEnter enough fun next working => ((straight_lowerExprs updates).goesOn program).ensures working

theorem passes_lowerFor (proceeds : ∀ child, Proceeds program depth child (lower child))
    {initial : ForInit} {condition : Option ExprId} {updates : List ExprId} {body : StmtId}
    (known : program.stmt? id = some (.forLoop initial condition updates body)) :
    Passes program depth id (.forLoop initial condition updates body)
      (lowerFor program lower id initial condition updates body) := by
  intro first session name waits own working
  let begun (next : Session) : Prop := (∀ stmt, initial = .decl stmt →
      EndsWithin program depth stmt) ∧
    Session.Working program first (Contains program · id) name waits 16 next
  have begins : (lowerForInit program lower initial).Ensures session (fun _ => begun)
      Error.IsUnrefused := by
    cases initial with
    | decl stmt =>
        refine .of_bind_pure (working.thenLower (proceeds stmt) own (fun _ => .inside known (by simp [children])) ?_)
        exact fun next ends working => .pure ⟨by rintro _ ⟨⟩; exact ends, working⟩
    | exprs exprs =>
        exact (((straight_lowerExprs exprs).goesOn program).ensures working).mono
          fun _ _ working => ⟨by rintro _ ⟨⟩, working⟩
  refine begins.bind ?_
  rintro _ next ⟨initialEnds, working⟩
  refine working.thenCreate (by decide) fun condBlock next working => ?_
  refine working.thenCreate (by decide) fun endBlock next working => ?_
  refine working.swap.thenEnter (by decide) fun next working => ?_
  refine (working.createUpdateBlock (by decide) updates).bind fun updateBlock next working => ?_
  refine ((GoesOn.annotate _).ensures working).bind fun _ next working => ?_
  refine (working.lowerForCondition (by decide) endBlock condition).bind
    fun _ next working => ?_
  have member : body ∈ children program (.forLoop initial condition updates body) := by
    cases initial <;> simp [children]
  refine working.thenLower (proceeds body) own (fun _ => .inside known member)
    fun next bodyEnds working => ?_
  refine (working.lowerForUpdates (by decide) updates).bind fun _ next working => ?_
  refine working.thenLeaveTo (by decide) fun next working => ?_
  refine .of_bind_pure (working.thenEnter (by decide) fun next working => .pure ⟨?_, ?_⟩)
  · cases initial with
    | decl stmt => simpa [children] using ⟨initialEnds stmt rfl, bodyEnds⟩
    | exprs exprs => simpa [children] using bodyEnds
  · exact working.mono (Nat.zero_le _)

theorem passes_jump {target : StmtId} {stmt : Stmt} (leaf : children program stmt = [])
    (choose : LoopBlocks → BlockId) :
    Passes program depth id stmt (do
      let blocks ← Lower.consult fun annotations => annotations.loopOf target
      Lower.append fun cursor => cursor.jump (choose blocks)) := by
  intro first session name waits _ working
  refine (((Straight.consult _).goesOn program).ensures working).bind fun blocks next working => ?_
  refine .of_bind_pure (working.thenTerminate (by decide) fun next working => .pure ⟨?_, ?_⟩)
  · simp [leaf]
  · exact working.mono (Nat.zero_le _)

theorem passes_lowerReturn (value : Option ExprId) :
    Passes program depth id (.returnValue value) (lowerReturn program value) := by
  intro first session name waits _ working
  have returns : ∀ (result : Option Operand) (here : Session),
      Session.Working program first (Contains program · id) name waits 16 here →
      (Lower.append fun cursor => cursor.ret result).Ensures here
        (fun _ next => (∀ child ∈ children program (.returnValue value),
            EndsWithin program depth child) ∧
          Session.Working program first (Contains program · id) name waits 0 next)
        Error.IsUnrefused := by
    intro result here working
    refine .of_bind_pure (working.thenTerminate (by decide) fun next working => .pure ⟨?_, ?_⟩)
    · simp [children]
    · exact working.mono (Nat.zero_le _)
  cases value with
  | none => exact returns none session working
  | some expr =>
      exact (((straight_lowerValue expr).goesOn program).ensures working).bind
        fun value next working => returns (some value) next working

/-! ## Functions

A function that is lowered in the midst of another one leaves that one alone: if the two were
the same, lowering would not come to the end of the inner one. -/

/-- Finishing a function drops its detached blocks, and is not refused. -/
def FinishesUnrefused (finish : String → Lower Unit) : Prop :=
  ∀ (session : Session) (name : String) (place : Place), session.Builds name place →
    (finish name).Ensures session (fun _ next => next = session.put name place.pruned)
      Error.IsUnrefused

theorem finishesUnrefused_finishFunction (options : Options) :
    FinishesUnrefused (finishFunction options) := by
  intro session name place builds
  have ensures := ensures_finishFunction options builds
  unfold Lower.Ensures at ensures ⊢
  split at ensures
  · exact ensures
  · rcases ensures with ⟨rejection, rfl⟩
    exact fun _ same => by cases same

theorem working_opened {session : Session} {name : String} {function : Code.Function}
    (found : session.cursor.module.function? name = some function)
    (bodies : ∀ other function, session.cursor.module.function? other = some function →
      function.body.Holds [] 16)
    (declared : ∀ id decl, program.function? id = some decl →
      ∃ function, session.cursor.module.function? decl.name = some function)
    (touched : String → Prop) :
    Session.Working program session touched name [] 14
      (session.put name (Place.mk function.body none).opened) := by
  let entered := session.put name ⟨function.body, none⟩
  have looks : ∀ other, entered.cursor.module.function? other =
      session.cursor.module.function? other := by
    intro other
    rw [Session.function?_put]
    split
    · rename_i same
      rw [← same, found]
      rfl
    · rfl
  have standing : Session.Working program session touched name [] 15 entered := by
    refine ⟨⟨⟨function.body, none⟩, ⟨rfl, function, (looks name).trans found, rfl⟩, ?_⟩, ?_, ?_, ?_⟩
    · exact bodies name function found
    · intro other function isOther
      exact (bodies other function ((looks other).symm.trans isOther)).mono (by decide)
    · intro id decl known
      rcases declared id decl known with ⟨function, isDeclared⟩
      exact ⟨function, (looks decl.name).trans isDeclared⟩
    · exact fun other _ _ => looks other
  have unopened : (Place.mk function.body none).body.Holds [] 16 := bodies name function found
  have holds := Place.holds_opened unopened (by decide)
  have opened := standing.spend holds (by decide)
  rw [Session.put_put] at opened
  exact opened

theorem Session.Working.thenReturnIfLive {first session : Session} {touched : String → Prop}
    {name : String} {waits : List BlockId} {count : Nat} {β : Type} {rest : Unit → Lower β}
    {post : β → Session → Prop} {errors : Error → Prop} {value : Option Operand}
    (working : Working program first touched name waits count session) (enough : 1 ≤ count)
    (continues : ∀ next, Working program first touched name waits (count - 1) next →
      (rest ()).Ensures next post errors) :
    (returnIfLive value >>= rest).Ensures session post errors := by
  rcases working.place with ⟨place, builds, holds⟩
  exact .bind_ok (returnIfLive_eq builds value) (continues _ (working.spend
    (Place.holds_returnIfLive (holds.mono (Nat.le_add_left _ _)) value) enough))

theorem Session.Working.thenFinish {finish : String → Lower Unit}
    (finishes : FinishesUnrefused finish) {first session : Session} {touched : String → Prop}
    {name : String} {waits : List BlockId} {count : Nat} {β : Type} {rest : Unit → Lower β}
    {post : β → Session → Prop}
    (working : Working program first touched name waits count session) (enough : 1 ≤ count)
    (continues : ∀ next, Working program first touched name [] (count - 1) next →
      (rest ()).Ensures next post Error.IsUnrefused) :
    (finish name >>= rest).Ensures session post Error.IsUnrefused := by
  rcases working.place with ⟨place, builds, holds⟩
  refine (finishes session name place builds).bind ?_
  rintro _ next rfl
  exact continues _ (working.spend (holds.mono (Nat.le_add_left _ _)).prune enough)

/-- Going back to the function from which another one was opened, which has been left alone. -/
theorem Session.Working.resume {first session next : Session}
    {touched within : String → Prop} {name inner : String} {waits : List BlockId}
    (outer : Working program first touched name waits 16 session)
    (opened : Working program session within inner [] 0 next)
    (innerTouched : touched inner) (covers : ∀ other, within other → touched other)
    (different : name ≠ inner) (spared : ¬ within name) :
    Working program first touched name waits 0
      { next with cursor := next.cursor.setPosition session.cursor.position } := by
  have same := opened.others name different spared
  rcases outer.place with ⟨place, ⟨stands, function, found, body⟩, holds⟩
  refine ⟨⟨place, ⟨stands, function, same.trans found, body⟩, holds.mono (by omega)⟩, ?_, ?_, ?_⟩
  · exact opened.bodies
  · exact opened.declared
  · intro other otherwise untouched
    have notInner : other ≠ inner := fun same => untouched (same ▸ innerTouched)
    have notWithin : ¬ within other := fun inside => untouched (covers other inside)
    exact (opened.others other notInner notWithin).trans (outer.others other otherwise untouched)

theorem passes_lowerFunctionDecl {finish : String → Lower Unit}
    (finishes : FinishesUnrefused finish) (apart : NamesApart program)
    (proceeds : ∀ child, Proceeds program depth child (lower child)) {func : FuncId}
    (known : program.stmt? id = some (.functionDecl func)) :
    Passes program depth id (.functionDecl func)
      (lowerFunctionDecl program finish lower func) := by
  intro first session name waits own working
  refine .orFault_bind (fun _ => Error.isUnrefused_program _) fun decl isDecl => ?_
  have looks : Lower.cursor session = .ok (session.cursor, session) := rfl
  refine .bind_ok looks ?_
  rcases working.declared func decl isDecl with ⟨function, found⟩
  refine (ensures_openFunction found (working.bodies _ _ found) (by decide)).bind ?_
  rintro _ next rfl
  have inside := working_opened found working.bodies working.declared
    (Contains program · decl.body)
  refine (((Straight.forM _ fun pair : VarId × Nat =>
    straight_lowerParam pair.1 pair.2).goesOn program).ensures inside).bind fun _ next inside => ?_
  have starts := (inside.mono (Nat.zero_le _)).restart (Contains program · decl.body)
  refine (proceeds decl.body next decl.name [] (endless_of_contains apart isDecl) starts).bind ?_
  rintro _ ended ⟨ends, after⟩
  have inside := inside.trans after fun _ contains => contains
  have isChild : decl.body ∈ children program (.functionDecl func) := by
    simp [children, isDecl]
  have covers : ∀ other, Contains program other decl.body → Contains program other id :=
    fun other contains => .inside known isChild contains
  have touches : Contains program decl.name id := .declares known isDecl rfl
  -- The function at hand is neither the one that has been lowered nor declared inside it.
  have different : name ≠ decl.name := by
    rintro rfl
    exact own touches func decl depth isDecl rfl ends
  have spared : ¬ Contains program name decl.body := by
    intro contains
    rcases contains.endsWithin ends with ⟨other, otherDecl, less, _, otherKnown, named, otherEnds⟩
    exact own (covers name contains) other otherDecl less otherKnown named otherEnds
  have goesBack : ∀ here : Session,
      Session.Working program session (Contains program · decl.body) decl.name [] 15 here →
      (do finish decl.name
          Lower.moveCursor fun cursor =>
            cursor.setPosition session.cursor.position : Lower Unit).Ensures here
        (fun _ next => (∀ child ∈ children program (.functionDecl func),
            EndsWithin program depth child) ∧
          Session.Working program first (Contains program · id) name waits 0 next)
        Error.IsUnrefused := by
    intro here inside
    refine inside.thenFinish finishes (by decide) fun next inside => .of_ok rfl ⟨?_, ?_⟩
    · simpa [children, isDecl] using ends
    · exact working.resume (inside.mono (Nat.zero_le _)) touches covers different spared
  dsimp only
  split
  · exact inside.thenReturnIfLive (by decide) goesBack
  · exact goesBack ended (inside.mono (by decide))

theorem passes_lowerNodeOf {finish : String → Lower Unit} (finishes : FinishesUnrefused finish)
    (apart : NamesApart program)
    (proceeds : ∀ child, Proceeds program depth child (lower child)) {stmt : Stmt}
    (known : program.stmt? id = some stmt) :
    Passes program depth id stmt (lowerNodeOf program finish lower id stmt) := by
  cases stmt with
  | expr expr =>
      exact (Straight.goesOn (.bind (straight_lowerExpr expr) fun _ => .pure _) program).passes rfl
  | compound stmts => exact passes_compound proceeds known
  | varDecl vars => exact ((Straight.forM vars straight_lowerVarDecl).goesOn program).passes rfl
  | functionDecl func => exact passes_lowerFunctionDecl finishes apart proceeds known
  | ifThenElse condition thenBody elseBody => exact passes_lowerIf proceeds known
  | whileLoop condition body => exact passes_lowerWhile proceeds known
  | forLoop initial condition updates body => exact passes_lowerFor proceeds known
  | continueLoop target => exact passes_jump rfl LoopBlocks.continueTarget
  | breakLoop target => exact passes_jump rfl LoopBlocks.exit
  | returnValue value => exact passes_lowerReturn value

theorem proceeds_lowerStmtWatched {finish : String → Lower Unit}
    (finishes : FinishesUnrefused finish) (apart : NamesApart program) (depth : Nat)
    (id : StmtId) :
    Proceeds program depth id (lowerStmtWatched program finish depth id) := by
  induction depth generalizing id with
  | zero => exact fun _ _ _ _ _ => .of_error rfl (Error.isUnrefused_program _)
  | succ depth induction =>
      intro session name waits own working
      refine (ensures_watch working).bind fun _ next working => ?_
      refine .orFault_bind (fun _ => Error.isUnrefused_program _) fun stmt known => ?_
      have passes := passes_lowerNodeOf finishes apart induction known
      refine (passes session next name waits own working).bind ?_
      rintro _ after ⟨ends, working⟩
      exact (ensures_watch working).mono fun _ _ working => ⟨⟨stmt, known, ends⟩, working⟩

end Statements

/-! ## Programs -/

section Starting

variable {program : Program} {options : Options} {module : Code.Module}

/-- Functions are empty when lowering begins. -/
theorem body_of_declareAll (declares : declareAll program options = .ok module) {name : String}
    {function : Code.Function} (found : module.function? name = some function) :
    function.body = .empty := by
  obtain ⟨signatures, _, ⟨_, holds⟩, _⟩ := holds_declareAll declares
  obtain ⟨signature, _, _, rfl⟩ := (holds name function).mp found
  rfl

theorem holds_of_declareAll (declares : declareAll program options = .ok module) {name : String}
    {function : Code.Function} (found : module.function? name = some function) :
    function.body.Holds [] 16 := by
  rw [body_of_declareAll declares found]
  exact .empty (by decide)

/-- No statement contains the entry function. -/
theorem Declared.not_contains {entry : String} (declared : Declared program entry module)
    {id : StmtId} : ¬ Contains program entry id := by
  intro contains
  obtain ⟨func, decl, known, named⟩ := contains.declared
  exact declared.apart func decl known named

theorem ensures_lowerItemsWatched (declares : declareAll program options = .ok module) :
    (lowerItemsWatched program (finishFunction options) options.entryFunction).Ensures
      (.start (.ofModule module)) (fun _ _ => True) Error.IsUnrefused := by
  have declared := declared_of_declareAll declares
  have finishes := finishesUnrefused_finishFunction options
  have proceeds := proceeds_lowerStmtWatched finishes declared.distinct (stmtDepth program)
  let touched (other : String) : Prop := ∃ item ∈ program.items, Contains program other item
  have own : touched options.entryFunction → Endless program options.entryFunction :=
    fun touches => touches.elim fun _ facts => absurd facts.2 declared.not_contains
  refine (ensures_openFunction declared.start (holds_of_declareAll declares declared.start)
    (by decide)).bind ?_
  rintro _ next rfl
  have working : Session.Working program (.start (.ofModule module)) touched
      options.entryFunction [] 14 _ :=
    working_opened declared.start (fun _ _ => holds_of_declareAll declares)
      declared.exists_function touched
  refine ((working.mono (Nat.zero_le _)).lowerAll proceeds own
    fun item member _ contains => ⟨item, member, contains⟩).bind ?_
  rintro _ next ⟨_, working⟩
  rcases working.place with ⟨place, builds, _⟩
  refine .bind_ok (returnIfLive_eq builds _) ?_
  exact (finishes _ _ _ (builds.put _)).mono fun _ _ _ => trivial

end Starting

/-! ## Declaring everything -/

def Unrefused {α : Type} (result : Except Error α) : Prop :=
  ∀ error, result = .error error → error.IsUnrefused

theorem Unrefused.bind {α β : Type} {result : Except Error α} {rest : α → Except Error β}
    (unrefused : Unrefused result)
    (rests : ∀ value, result = .ok value → Unrefused (rest value)) :
    Unrefused (result >>= rest) := by
  intro error fails
  cases result with
  | ok value => exact rests value rfl error fails
  | error early =>
      cases fails
      exact unrefused error rfl

theorem unrefused_declaredParams (program : Program) (params : List VarId) :
    Unrefused (params.mapM (declaredParam program)) := by
  induction params with
  | nil => exact fun _ fails => by cases fails
  | cons param rest induction =>
      rw [List.mapM_cons]
      refine .bind ?_ fun _ _ => .bind induction fun _ _ _ fails => by cases fails
      intro error fails
      unfold declaredParam at fails
      split at fails
      · cases fails
      · cases fails
        exact Error.isUnrefused_program _

theorem unrefused_declare {module : Code.Module} {signature : Code.Signature}
    (absent : module.function? signature.name = none) :
    Unrefused (liftBuild (module.declare signature .exported)) := by
  intro error fails
  have unknown : module.functions.contains signature.name = false := by
    rw [Table.contains]
    exact congrArg Option.isSome absent
  simp [Code.Module.declare, unknown, liftBuild, Except.mapError] at fails

theorem unrefused_declareFunctions (program : Program) (decls : List FunctionDecl)
    (module : Code.Module) : Unrefused (decls.foldlM (declareFunction program) module) := by
  induction decls generalizing module with
  | nil => exact fun _ fails => by cases fails
  | cons decl rest induction =>
      rw [List.foldlM_cons]
      refine .bind ?_ fun next _ => induction next
      unfold declareFunction
      split
      · rintro error ⟨⟩
        exact Error.isUnrefused_program _
      · rename_i absent
        exact (unrefused_declaredParams program decl.params).bind fun params _ =>
          unrefused_declare (by simpa using absent)

theorem unrefused_declareAll {program : Program} {options : Options}
    (entry : options.entryFunction ∉ StringLibrary.signatures.map Code.Signature.name) :
    Unrefused (declareAll program options) := by
  have library : (StringLibrary.declare (.empty program.filename)).1 = .ok () := rfl
  have holds := (holds_declareEach (holds_empty program.filename) library).1
  have absent : (StringLibrary.declare (.empty program.filename)).2.function?
      options.entryFunction = none := by
    rw [Option.eq_none_iff_forall_ne_some]
    intro function found
    rcases (holds.2 _ _).mp found with ⟨signature, member, named, _⟩
    exact entry (List.mem_map.mpr ⟨signature, member, named⟩)
  refine .bind (fun _ fails => by cases fails) fun _ _ => ?_
  exact (unrefused_declare absent).bind fun module _ => unrefused_declareFunctions _ _ module

theorem unrefused_lowerProgram {program : Program} {options : Options}
    (entry : options.entryFunction ∉ StringLibrary.signatures.map Code.Signature.name)
    (ends : LoweringEnds program options) : Unrefused (lowerProgram program options) := by
  refine (unrefused_declareAll entry).bind fun module declares => .bind ?_ fun pair _ => .bind ?_ ?_
  · have goesOn : lowerItemsWatched program (finishFunction options) options.entryFunction
        (.start (.ofModule module)) ≠ .error (.program .endless) := by
      rw [LoweringEnds, runWatched, declares] at ends
      exact ends
    have same := watches_lowerItemsWatched options.entryFunction _ goesOn
    intro error fails
    exact (ensures_lowerItemsWatched declares).of_error_eq (same.trans fails)
  · intro error fails
    cases verified : pair.2.cursor.module.verify with
    | ok _ => simp [verified, Except.mapError] at fails
    | error rejection =>
        simp only [verified, Except.mapError, Except.error.injEq] at fails
        subst fails
        exact fun _ same => by cases same
  · exact fun _ _ _ fails => by cases fails

/-- No program makes lowering ask for a building step that is refused, whatever its references,
types and names are. -/
theorem compile_never_refused {program : Program} {options : Options}
    (pipeline : Code.Pipeline)
    (entry : options.entryFunction ∉ StringLibrary.signatures.map Code.Signature.name)
    (ends : LoweringEnds program options) (refusal : Code.BuildError) :
    (compile program options pipeline).1 ≠ .error (.build refusal) := by
  intro refused
  have unrefused := unrefused_lowerProgram entry ends
  unfold compile at refused
  cases lowers : lowerProgram program options with
  | error error =>
      rw [lowers] at refused
      cases refused
      exact unrefused _ lowers refusal rfl
  | ok module =>
      rw [lowers] at refused
      dsimp only at refused
      split at refused <;> cases refused

/-- A function that is lowered twice, and a `break` behind the loop that it leaves. -/
def straysProgram : Program where
  filename := "strays"
  items := [⟨0⟩, ⟨0⟩, ⟨1⟩, ⟨3⟩]
  stmts := #[.functionDecl ⟨0⟩, .whileLoop ⟨0⟩ ⟨2⟩, .compound [], .breakLoop ⟨1⟩]
  exprs := #[⟨.booleanLiteral true, .boolean⟩]
  vars := #[]
  functions := #[⟨"twice", [], none, ⟨2⟩⟩]

theorem straysProgram_never_refused :
    LoweringEnds straysProgram (Options.default.withFunctionVerification false) ∧
      ∀ refusal, (compile straysProgram (Options.default.withFunctionVerification false)
        .empty).1 ≠ .error (.build refusal) := by
  have ends : LoweringEnds straysProgram (Options.default.withFunctionVerification false) := by
    have finished : (runWatched straysProgram
        (Options.default.withFunctionVerification false)).toBool = true := by decide +kernel
    intro stops
    rw [stops] at finished
    cases finished
  exact ⟨ends, compile_never_refused .empty (by decide) ends⟩

end ScriptLowering.Lowering
