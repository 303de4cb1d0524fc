import ScriptLowering.Proofs.GuardedRuns
import ScriptLowering.Proofs.LooseEnds
import ScriptLowering.Proofs.StatementAccounts

/-! # Where control can get

The cursor is live behind a statement just if control gets to the end of the statement, as far as
can be told without looking at conditions. So a function that has to return a value is rejected
for want of a terminator just if control gets to its end.
-/

namespace ScriptLowering.Lowering

open Source (Program FuncId FunctionDecl Stmt StmtId)
open Code (Body Cursor Ledger Place)

/-! ## Accounts of a run -/

section Runs

variable {program : Program} {errors : Error → Prop} {finish : String → Lower Unit}
  {meet : Nat → StmtId → Lower Unit}

theorem accounts_watch (ordinary : ∀ error : Error, error.IsUnrefused → errors error)
    (touches : String → Prop) (targets : List StmtId) :
    Accounts program errors touches targets (· = .normal) True 0 16 watch := by
  intro busy name session base ledger loops _ reckons _ _
  cases numbers : session.hasNumbers with
  | true =>
      refine .of_ok (if_pos numbers) ⟨trivial, ?_⟩
      rw [Ledger.after_normal]
      exact { reckons with working := reckons.working.refill numbers }
  | false =>
      have stops : watch session = .error (.program .endless) := by
        simp [watch, numbers]
      exact .of_error stops (ordinary _ (Error.isUnrefused_program _))

def Meets (program : Program) (errors : Error → Prop) (meet : Nat → StmtId → Lower Unit) : Prop :=
  ∀ depth setting id, Enclosed program (occurrencesWithin program depth setting id) →
    Accounts program errors (Contains program · id) setting.loops (· = .normal) True 0 0
      (meet depth id)

theorem meets_nothing (ordinary : ∀ error : Error, error.IsUnrefused → errors error) :
    Meets program errors fun _ _ => pure () :=
  fun _ _ _ _ => (Straight.pure ()).accounts ordinary _ 0

theorem accounts_lowerStmtMeeting (ordinary : ∀ error : Error, error.IsUnrefused → errors error)
    (finishes : FinishesConcluded program errors finish) (apart : NamesApart program)
    (meets : Meets program errors meet) (depth : Nat) :
    AccountsWithin program errors depth (lowerStmtMeeting program finish meet depth) := by
  induction depth with
  | zero =>
      exact fun _ _ _ _ _ _ _ _ _ _ _ _ _ =>
        .of_error rfl (ordinary _ (Error.isUnrefused_program _))
  | succ depth induction =>
      intro setting id enclosed
      have watches : Accounts program errors (Contains program · id) setting.loops (· = .normal)
          True 0 16 watch := accounts_watch ordinary _ _
      have node : Accounts program errors (Contains program · id) setting.loops (EndsAs program id)
          (EndsWithin program (depth + 1) id) 16 16 (do
            let stmt ← Lower.orFault (program.stmt? id) (.missingStmt id)
            lowerNodeOf program finish (lowerStmtMeeting program finish meet depth) id stmt
            watch) := by
        refine .orFault (ordinary _ (Error.isUnrefused_program _)) fun stmt known => ?_
        refine (((accounts_lowerNodeOf ordinary finishes apart induction known enclosed).andThen
          watches).congr fun exit => ?_).done fun ends => ⟨stmt, known, ends.1⟩
        rw [Exit.either_normal, endsAs_iff known]
      refine (((meets _ setting id enclosed).andThen (watches.andThen node)).congr
        fun exit => ?_).done fun ends => ends.2.2
      rw [Exit.normal_either, Exit.normal_either]

/-- The entry function is opened in a session where nothing is owed yet. -/
theorem reckons_entry {options : Options} {module : Code.Module}
    (declares : declareAll program options = .ok module) (touched : String → Prop)
    {function : Code.Function} (found : module.function? options.entryFunction = some function) :
    Session.Reckons program (fun other => False ∨ other = options.entryFunction) touched
      options.entryFunction (.start (.ofModule module)) (Place.mk function.body none).opened
      (.opening (¬ False) (¬ False ∧ ¬ OwesEnd program options.entryFunction)) 14
      ((Session.start (.ofModule module)).put options.entryFunction
        (Place.mk function.body none).opened) := by
  have declared := declared_of_declareAll declares
  apply reckons_opened found (fun _ _ => holds_of_declareAll declares) declared.exists_function
  · intro other function found
    rw [body_of_declareAll declares found]
    exact Body.accountable_empty
  · intro other function _ found
    rw [body_of_declareAll declares found]
    exact ⟨Body.isClosed_empty, fun _ => Body.isTight_empty⟩

theorem ensures_lowerItemsMeeting {options : Options} {module : Code.Module}
    (declares : declareAll program options = .ok module)
    (enclosed : Enclosed program (occurrencesIn program))
    (ordinary : ∀ error : Error, error.IsUnrefused → errors error)
    (finishes : FinishesConcluded program errors finish)
    (finishesEntry : ∀ (session : Session) (place : Place),
      session.Builds options.entryFunction place →
      (finish options.entryFunction).Ensures session (fun _ _ => True) errors)
    (meets : Meets program errors meet) :
    (lowerItemsMeeting program finish meet options.entryFunction).Ensures
      (.start (.ofModule module)) (fun _ _ => True) errors := by
  have declared := declared_of_declareAll declares
  let touched (other : String) : Prop := ∃ item ∈ program.items, Contains program other item
  have own : ∀ other, False ∨ other = options.entryFunction → touched other →
      Endless program other := by
    rintro other (⟨⟨⟩⟩ | rfl) ⟨item, _, contains⟩
    exact absurd contains declared.not_contains
  refine (ensures_openFunction declared.start (holds_of_declareAll declares declared.start)
    (by decide)).bind ?_
  rintro _ next rfl
  have reckons := reckons_entry declares touched declared.start
  have items : Accounts program errors touched []
      (Ends program (.stmt ⟨0⟩ (.compound program.items)))
      (∀ child ∈ program.items, EndsWithin program (stmtDepth program) child) 0 0
      (program.items.forM (lowerStmtMeeting program finish meet (stmtDepth program))) := by
    refine accounts_sequence ordinary fun item member => ?_
    have within : Enclosed program (occurrencesWithin program (stmtDepth program) .top item) :=
      enclosed.mono fun pair occurs => List.mem_flatMap.mpr ⟨item, member, occurs⟩
    exact (accounts_lowerStmtMeeting ordinary finishes declared.distinct meets _ _ _ within).widen
      fun _ contains => ⟨item, member, contains⟩
  refine reckons.thenPart items (Nat.zero_le _) own (fun _ contains => contains)
    (.nil fun _ => ⟨⟨0⟩, none, ⟨0⟩⟩) fun next _ reckons => ?_
  rcases reckons.place with ⟨place, builds, _⟩
  exact .bind_ok (returnIfLive_eq builds _) (finishesEntry _ _ (builds.put _))

end Runs

/-! ## Statements -/

/-- Lowering is at work on the statement `id`, with the loops around it in place. -/
inductive AtWork (program : Program) (depth : Nat) (id : StmtId) (session : Session) : Prop where
  | intro {setting : Setting} {busy : String → Prop} {name : String} {place : Place}
      {ledger : Ledger} {loops : StmtId → LoopBlocks}
      (enclosed : Enclosed program (occurrencesWithin program depth setting id))
      (own : ∀ other, busy other → Contains program other id → Endless program other)
      (reckons : Session.Reckons program busy (Contains program · id) name session place ledger 0
        session)
      (builds : session.Builds name place) (finds : session.HasLoops ledger setting.loops loops)

theorem finishesConcluded_finishFunction (program : Program) (options : Options) :
    FinishesConcluded program Error.IsUnrefused (finishFunction options) :=
  fun _ decl session place _ builds _ =>
    finishesUnrefused_finishFunction options session decl.name place builds

/-- The code of the function at hand stays as it is, but for blocks that are not laid out. -/
def Session.KeepsCode (before after : Session) : Prop :=
  ∃ name function later, before.cursor.position.function = some name ∧
    after.cursor.position.function = some name ∧
    before.cursor.module.function? name = some function ∧
    after.cursor.module.function? name = some later ∧
    later.body.layout = function.body.layout ∧
    ∀ id ∈ function.body.layout, later.body.block? id = function.body.block? id

theorem lowerStmtMeeting_nothing (program : Program) (finish : String → Lower Unit) (depth : Nat) :
    lowerStmtMeeting program finish (fun _ _ => pure ()) depth =
      lowerStmtWatched program finish depth := by
  induction depth with
  | zero => rfl
  | succ depth induction =>
      funext id
      simp only [lowerStmtMeeting, lowerStmtWatched, induction]
      rfl

theorem AtWork.lowers {program : Program} {options : Options} {depth : Nat} {id : StmtId}
    {before after : Session} (apart : NamesApart program)
    (atWork : AtWork program depth id before)
    (lowers : lowerStmtWatched program (finishFunction options) depth id before =
      .ok ((), after)) :
    (before.cursor.isLive = true → (after.cursor.isLive = true ↔ EndsAs program id .normal)) ∧
      (before.cursor.isLive = false → after.cursor.isLive = false ∧ before.KeepsCode after) := by
  rcases atWork with @⟨setting, busy, name, place, ledger, loops, enclosed, own, reckons, builds,
    finds⟩
  have accounts := accounts_lowerStmtMeeting (fun _ isUnrefused => isUnrefused)
    (finishesConcluded_finishFunction program options) apart
    (meets_nothing fun _ isUnrefused => isUnrefused) depth setting id enclosed
  rw [lowerStmtMeeting_nothing] at accounts
  have ensures := accounts busy name before place ledger loops own reckons builds finds
  rcases ensures.post_of_ok lowers with ⟨_, late⟩
  rcases late.place with ⟨last, stands, describes⟩
  have early := reckons.describes builds
  have liveBefore : before.cursor.isLive = true ↔ ledger.alive :=
    (builds.isLive ▸ early.live :)
  have liveAfter : after.cursor.isLive = true ↔ ledger.alive ∧ EndsAs program id .normal :=
    (stands.isLive ▸ describes.live :)
  constructor
  · intro live
    rw [liveAfter, and_iff_right (liveBefore.mp live)]
  · intro dead
    rw [builds.isLive] at dead
    rcases describes.frozen dead with ⟨stays, same⟩
    refine ⟨stands.isLive.trans stays, ?_⟩
    rcases builds with ⟨position, function, found, body⟩
    rcases stands with ⟨positionAfter, later, foundAfter, bodyAfter⟩
    refine ⟨name, function, later, congrArg _ position, congrArg _ positionAfter, found,
      foundAfter, ?_, ?_⟩
    · rw [body, bodyAfter]
      exact same.layout
    · rw [body, bodyAfter]
      exact same.blocks

/-! ## Functions -/

/-- A function that owes a value lacks a terminator just if control gets to its end. -/
theorem Concluded.unterminated_iff {program : Program} {decl : FunctionDecl} {place : Place}
    (concluded : Concluded program decl place) (owes : decl.returnsNothing = false)
    {function : Code.Function} (same : function.body = place.pruned.body) (module : Code.Module) :
    (∃ block label, module.verifyFunction function =
      .error ⟨function.name, .unterminated block label⟩) ↔ EndsAs program decl.body .normal := by
  have indexed : function.body.Indexed := by
    rw [same]
    exact Body.Indexed.prune
      ⟨concluded.keyed.distinct, concluded.holds.known, concluded.keyed.named⟩
  have attached : ∀ id block, function.body.block? id = some block →
      id ∈ function.body.layout := by
    rw [same]
    exact fun id block found => (Place.block?_of_prune found).1
  have closed : function.body.IsClosed := by
    rw [same]
    exact concluded.closed.prune
  rw [Code.unterminated_iff module indexed attached closed, same]
  constructor
  · intro loose
    by_contra endsNot
    exact loose (concluded.tight fun owing => endsNot owing.2).prune
  · intro ends tight
    rcases Place.isLive_iff.mp (concluded.loose owes ends) with
      ⟨id, block, _, member, found, unfinished⟩
    have kept := Place.block?_prune_of_mem member
    have terminated := tight id member block (kept.trans found)
    rw [unfinished] at terminated
    cases terminated

/-! ## The ends of statements and functions -/

/-- Lowering is at work on the statements that it comes to, and a function is concluded where it is
finished. -/
def workGuard (program : Program) : Guard where
  meets := AtWork program
  finishes name session := ∀ func decl, program.function? func = some decl → decl.name = name →
    ∃ place, session.Builds name place ∧ Concluded program decl place
  -- No building step is refused, so that a refusal comes from the guard.
  failure := .build .notPositioned

theorem guarded_ne_failure {program : Program} {options : Options} {declared : Code.Module}
    (enclosed : Enclosed program (occurrencesIn program))
    (declares : declareAll program options = .ok declared) :
    lowerItemsGuarded (workGuard program) program options (.start (.ofModule declared)) ≠
      .error (workGuard program).failure := by
  intro fails
  have names := declared_of_declareAll declares
  have ordinary : ∀ error : Error, error.IsUnrefused → error ≠ (workGuard program).failure := by
    rintro error isUnrefused rfl
    exact absurd rfl (isUnrefused _)
  have meets : Meets program (· ≠ (workGuard program).failure)
      fun depth id => (workGuard program).check (.come depth id) := by
    intro depth setting id enclosed busy name session base ledger loops own reckons builds finds
    have passes : (workGuard program).Passes session (.come depth id) :=
      ⟨enclosed, own, reckons, builds, finds⟩
    refine .of_ok (Guard.check_of_passes passes) ⟨trivial, ?_⟩
    rwa [Ledger.after_normal]
  have finishes : FinishesConcluded program (· ≠ (workGuard program).failure)
      ((workGuard program).finishing (finishFunction options)) := by
    intro func decl session place known builds concluded
    have passes : (workGuard program).Passes session (.finish decl.name) := by
      intro other otherDecl otherKnown named
      cases names.distinct other func otherDecl decl otherKnown known named
      cases otherKnown.symm.trans known
      exact ⟨place, builds, concluded⟩
    exact .bind_ok (Guard.check_of_passes passes)
      ((finishesUnrefused_finishFunction options session _ place builds).mono_errors ordinary)
  have finishesEntry (session : Session) (place : Place)
      (builds : session.Builds options.entryFunction place) :
      ((workGuard program).finishing (finishFunction options) options.entryFunction).Ensures session
        (fun _ _ => True) (· ≠ (workGuard program).failure) := by
    have passes : (workGuard program).Passes session (.finish options.entryFunction) :=
      fun func decl known named => absurd named (names.apart func decl known)
    refine .bind_ok (Guard.check_of_passes passes) ?_
    exact ((finishesUnrefused_finishFunction options session _ place builds).mono
      fun _ _ _ => trivial).mono_errors ordinary
  exact (ensures_lowerItemsMeeting declares enclosed ordinary finishes finishesEntry
    meets).of_error_eq fails rfl

/-- Behind a statement that lowering comes to, the cursor is live just if the statement can end
normally, and where it is not live nothing is added to the function. A finished function that owes a
value lacks a terminator just if its body can end normally. -/
theorem live_where_control_gets {program : Program} (options : Options)
    (enclosed : Enclosed program (occurrencesIn program)) {earlier later : List Event}
    {event : Event} (tells : history program options = earlier ++ event :: later)
    (numbered : Numbered (earlier ++ [event])) :
    (∀ depth id after, event.task = .come depth id →
      lowerStmtWatched program (finishFunction options) depth id event.before = .ok ((), after) →
      (event.before.cursor.isLive = true →
        (after.cursor.isLive = true ↔ EndsAs program id .normal)) ∧
      (event.before.cursor.isLive = false →
        after.cursor.isLive = false ∧ event.before.KeepsCode after)) ∧
    ∀ func decl, program.function? func = some decl → decl.returnsNothing = false →
      event.task = .finish decl.name →
      ∃ pruned cursor function, event.before.cursor.finalize decl.name = .ok (pruned, cursor) ∧
        cursor.module.function? decl.name = some function ∧
        ∀ module : Code.Module, (∃ block label, module.verifyFunction function =
          .error ⟨function.name, .unterminated block label⟩) ↔
            EndsAs program decl.body .normal := by
  have splits : history program options = (earlier ++ [event]) ++ later := by
    rw [tells, List.append_assoc, List.singleton_append]
  have passes := passes_of_history (fun _ declares => guarded_ne_failure enclosed declares) splits
    numbered event (List.mem_append_right _ List.mem_cons_self)
  constructor
  · intro depth id after isCome lowers
    rw [isCome] at passes
    have member : event ∈ history program options := by simp [tells]
    rcases exists_declared_of_mem_history member with ⟨declared, declares, _⟩
    have atWork : AtWork program depth id event.before := passes
    exact atWork.lowers (declared_of_declareAll declares).distinct lowers
  · intro func decl known owes isFinish
    rw [isFinish] at passes
    rcases passes func decl known rfl with ⟨place, builds, concluded⟩
    rcases finalize_eq builds with ⟨pruned, finalizes⟩
    have after : (event.before.cursor.put decl.name place.pruned).Builds decl.name place.pruned :=
      Cursor.Builds.put builds place.pruned
    rcases after.body with ⟨function, found, same⟩
    exact ⟨pruned, _, function, finalizes, found, concluded.unterminated_iff owes same⟩

/-! ## Functions that return in the midst -/

theorem Numbered.upTo {events : List Event} {event : Event} (numbered : Numbered events)
    (member : event ∈ events) : ∃ earlier later, events = earlier ++ event :: later ∧
      Numbered (earlier ++ [event]) := by
  rcases List.append_of_mem member with ⟨earlier, later, rfl⟩
  rw [List.append_cons] at numbered
  exact ⟨earlier, later, rfl, (numbered_append.mp numbered).1⟩

def Lower.last (step : Lower Unit) (session : Session) : Session :=
  (step session).toOption.elim session Prod.snd

theorem Lower.last_eq {step : Lower Unit} {session : Session}
    (succeeds : (step session).toBool = true) : step session = .ok ((), step.last session) := by
  unfold Lower.last
  cases result : step session with
  | ok pair => rfl
  | error error =>
      rw [result] at succeeds
      cases succeeds

/-- A function that returns before the last statement of its body. -/
def strandedProgram : Program where
  filename := "stranded"
  items := [⟨0⟩]
  stmts := #[.functionDecl ⟨0⟩, .compound [⟨2⟩, ⟨3⟩], .returnValue (some ⟨0⟩), .expr ⟨1⟩]
  exprs := #[⟨.integerLiteral 1, .integer⟩, ⟨.unary .minus ⟨2⟩, .integer⟩,
    ⟨.integerLiteral 1, .integer⟩]
  vars := #[]
  functions := #[⟨"stranded", [], some .integer, ⟨1⟩⟩]

/-- Control does not get behind the `return`, so that the function is complete. -/
theorem stranded_live_where_control_gets :
    ∃ inside ∈ history strandedProgram .default, ∃ behind ∈ history strandedProgram .default,
    ∃ finished ∈ history strandedProgram .default, ∃ after afterLast,
      inside.task = .come 17 ⟨1⟩ ∧ inside.before.cursor.isLive = true ∧
      lowerStmtWatched strandedProgram (finishFunction .default) 17 ⟨1⟩ inside.before =
        .ok ((), after) ∧ ¬ after.cursor.isLive = true ∧
      behind.task = .come 16 ⟨3⟩ ∧ behind.before.cursor.isLive = false ∧
      lowerStmtWatched strandedProgram (finishFunction .default) 16 ⟨3⟩ behind.before =
        .ok ((), afterLast) ∧ behind.before.KeepsCode afterLast ∧
      finished.task = .finish "stranded" ∧
      ∃ pruned cursor function,
        finished.before.cursor.finalize "stranded" = .ok (pruned, cursor) ∧
        cursor.module.function? "stranded" = some function ∧
        ∀ (module : Code.Module) block label, module.verifyFunction function ≠
          .error ⟨function.name, .unterminated block label⟩ := by
  have noEnd : ¬ EndsAs strandedProgram ⟨1⟩ .normal := by
    rintro ⟨_, ⟨⟩, ends⟩
    cases ends with
    | first _ _ early => exact early rfl
    | rest found leaves =>
        cases found
        cases leaves
  have enclosed : Enclosed strandedProgram (occurrencesIn strandedProgram) := by decide +kernel
  have length : 10 < (history strandedProgram .default).length := by decide +kernel
  have numbered : Numbered (history strandedProgram .default) := by
    unfold Numbered
    decide +kernel
  have facts : (history strandedProgram .default)[3].task = .come 17 ⟨1⟩ ∧
      (history strandedProgram .default)[3].before.cursor.isLive = true ∧
      (lowerStmtWatched strandedProgram (finishFunction .default) 17 ⟨1⟩
        (history strandedProgram .default)[3].before).toBool = true ∧
      (history strandedProgram .default)[7].task = .come 16 ⟨3⟩ ∧
      (history strandedProgram .default)[7].before.cursor.isLive = false ∧
      (lowerStmtWatched strandedProgram (finishFunction .default) 16 ⟨3⟩
        (history strandedProgram .default)[7].before).toBool = true ∧
      (history strandedProgram .default)[10].task = .finish "stranded" := by
    decide +kernel +revert
  rcases facts with ⟨inside, live, succeeds, behind, dead, succeedsLast, finished⟩
  rcases numbered.upTo (List.getElem_mem (n := 3) (by omega)) with ⟨_, _, tells, soFar⟩
  have body := (live_where_control_gets .default enclosed tells soFar).1 17 ⟨1⟩ _ inside
    (Lower.last_eq succeeds)
  rcases numbered.upTo (List.getElem_mem (n := 7) (by omega)) with ⟨_, _, tells, soFar⟩
  have last := (live_where_control_gets .default enclosed tells soFar).1 16 ⟨3⟩ _ behind
    (Lower.last_eq succeedsLast)
  rcases numbered.upTo (List.getElem_mem (n := 10) (by omega)) with ⟨_, _, tells, soFar⟩
  rcases (live_where_control_gets .default enclosed tells soFar).2 ⟨0⟩ _ rfl rfl finished with
    ⟨pruned, cursor, function, finalizes, found, lacks⟩
  exact ⟨_, List.getElem_mem _, _, List.getElem_mem _, _, List.getElem_mem _, _, _, inside, live,
    Lower.last_eq succeeds, mt (body.1 live).mp noEnd, behind, dead, Lower.last_eq succeedsLast,
    (last.2 dead).2, finished, pruned, cursor, function, finalizes, found,
    fun module block label rejected => noEnd ((lacks module).mp ⟨block, label, rejected⟩)⟩

/-- A function that owes a value and consists of a loop with a condition. -/
def restlessProgram : Program where
  filename := "restless"
  items := [⟨0⟩]
  stmts := #[.functionDecl ⟨0⟩, .forLoop (.decl ⟨2⟩) (some ⟨1⟩) [] ⟨3⟩, .returnValue (some ⟨0⟩),
    .compound []]
  exprs := #[⟨.integerLiteral 1, .integer⟩, ⟨.booleanLiteral true, .boolean⟩]
  vars := #[]
  functions := #[⟨"restless", [], some .integer, ⟨1⟩⟩]

/-- The condition could fail, but control does not get to it: the loop begins with a `return`. -/
theorem restless_accepted : Enclosed restlessProgram (occurrencesIn restlessProgram) ∧
    restlessProgram.function? ⟨0⟩ = some ⟨"restless", [], some .integer, ⟨1⟩⟩ ∧
    restlessProgram.stmt? ⟨1⟩ = some (.forLoop (.decl ⟨2⟩) (some ⟨1⟩) [] ⟨3⟩) ∧
    (compile restlessProgram .default .empty).1.toBool = true := by
  decide +kernel

end ScriptLowering.Lowering
