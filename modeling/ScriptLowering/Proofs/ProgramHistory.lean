import ScriptLowering.Proofs.FinishedFunctions
import ScriptLowering.Proofs.StatementHistories
import ScriptLowering.Proofs.UnrefusedBuilding

/-! # The history of a whole program

What is told of a program is one stretch of history. A function is told in the middle of another
one: the cursor goes away, and comes back to where it has been.
-/

namespace ScriptLowering.Lowering

open Source (Program ExprId ForInit FuncId FunctionDecl Stmt StmtId VarId)
open Code (BlockId Body Operand Place)

/-! ## Functions -/

section Functions

variable {program : Program} {enclosed : Prop} {name inner : String} {past : Task → Prop}
  {first opened closed session : Session} {place : Place} {events : List Event}

/-- The cursor goes back to where it has been before. -/
def Session.resume (session : Session) (position : Code.Position) : Session :=
  { session with cursor := session.cursor.setPosition position }

theorem Tidily.resume (builds : first.Builds name place) (sound : first.Sound 0)
    (numbers : closed.hasNumbers = true) (early : Tidily program first events closed) :
    Tidily program first
      (events ++ [⟨.resume first.cursor.position, closed, closed.resume first.cursor.position⟩])
      (closed.resume first.cursor.position) := by
  have moves := closed.becomes_resume first.cursor.position
  refine ⟨fun other after found => ?_, fun event member => ?_, fun other block used spares => ?_, ?_⟩
  · rcases Option.map_eq_some_iff.mp found with ⟨function, known, rfl⟩
    have known : closed.cursor.module.function? other = some function := known
    have room : (Place.mk function.body (closed.blockIn other)).Sound 16 :=
      early.sound.refill numbers other _ (Option.map_eq_some_iff.mpr ⟨function, known, rfl⟩)
    have holds : function.body.Holds [] (0 + (0 + 1)) := room.holds.mono (by omega)
    refine .of_holds holds fun id stands => ?_
    have returns : (if first.cursor.position.function = some other then
      first.cursor.position.block else none) = some id := stands
    rw [builds.position] at returns
    split at returns
    · rename_i here
      cases here
      rcases early.becomes name place builds.placeIn? with ⟨later, foundLater, becomes⟩
      rw [Session.placeIn?, known] at foundLater
      cases foundLater
      exact Nat.lt_of_lt_of_le ((builds.sound sound).standing id returns) becomes.counter
    · cases returns
  · rcases List.mem_append.mp member with isEarly | isLast
    · exact early.orderly event isEarly
    · cases List.mem_singleton.mp isLast
      refine ⟨early.sound, fun _ _ _ same => ?_, fun _ _ _ same => ?_⟩ <;> cases same
  · rcases usedIn_append.mp used with usedEarly | ⟨event, member, uses⟩
    · exact early.apart other block usedEarly spares
    · cases List.mem_singleton.mp member
      have uses : first.cursor.position = ⟨some other, some block⟩ := uses
      rw [builds.position] at uses
      cases place with
      | mk body current =>
          cases uses
          rcases spares with ⟨here, found, spares⟩
          rw [builds.placeIn?] at found
          cases found
          exact spares.away rfl
  · refine (early.becomes.mono fun _ _ used => usedIn_append.mpr (.inl used)).trans
      (moves.mono fun _ _ uses => usedIn_append.mpr (.inr ?_))
    exact ⟨_, List.mem_singleton_self _, uses⟩

theorem Stretch.start (starts : (Task.start name).Performs program name first opened) :
    Stretch program enclosed [] name past first [⟨.start name, first, opened⟩] opened where
  path := .single starts
  stands := starts.stands fun _ => Task.ne_of_isPlain rfl rfl
  backed event member := by
    cases List.mem_singleton.mp member
    exact .of_isPlain rfl
  closes event member _ isDue := by
    cases List.mem_singleton.mp member
    cases isDue
  tidily numbered sound := .plain rfl starts sound (numbered _ (List.mem_singleton_self _))

theorem Stretch.function (builds : first.Builds name place)
    (body : Stretch program enclosed [] inner (fun _ => False) first events closed) :
    Stretch program enclosed [] name past first
      (events ++ [⟨.resume first.cursor.position, closed, closed.resume first.cursor.position⟩])
      (closed.resume first.cursor.position) := by
  rcases body.stands with ⟨left, stands⟩
  refine ⟨?_, ?_, fun event member => ?_, fun event member due isDue => .inl ?_,
    fun numbered sound => ?_⟩
  · exact body.path.append (.single (.resume stands))
  · rcases builds.body with ⟨function, found, _⟩
    have known := body.retains.signatures name
    rw [found] at known
    cases later : closed.cursor.module.function? name with
    | none =>
        rw [later] at known
        cases known
    | some after => exact ⟨⟨after.body, place.block⟩, builds.position, after, later, rfl⟩
  · rcases List.mem_append.mp member with isInner | isLast
    · refine (body.backed event isInner).mono fun task done => .inl ?_
      rcases done with performed | ⟨_, nothing⟩
      · exact performed.append_left
      · exact nothing.elim
    · cases List.mem_singleton.mp isLast
      exact .of_blocks_eq_nil rfl nofun
  · rcases List.mem_append.mp member with isInner | isLast
    · rcases body.closes event isInner due isDue with settled | ⟨_, nothing⟩
      · exact settled.append_left
      · cases nothing
    · cases List.mem_singleton.mp isLast
      cases isDue
  · have numbers := numbered_append.mp numbered
    exact (body.tidily numbers.1 sound).resume builds sound (numbers.2 _ (List.mem_singleton_self _))

/-! ## Statements at any depth -/

variable {finish : String → Lower Unit} {tell : StmtId → Told Unit} {setting : Setting}

/-- Finishing a function drops the blocks that are not laid out. -/
def Finishes (finish : String → Lower Unit) : Prop :=
  ∀ (name : String) (session : Session) (place : Place), session.Builds name place →
    (finish name).Ensures session (fun _ next => next = session.put name place.pruned) fun _ => True

theorem finishes_finishFunction (options : Options) : Finishes (finishFunction options) :=
  fun _ _ _ builds => (ensures_finishFunction options builds).mono_errors fun _ _ => trivial

theorem tellFunctionBody_stretch (finishes : Finishes finish) {decl : FunctionDecl}
    (tells : ∀ session place, session.Builds decl.name place →
      (tell decl.body).Ensures session fun events _ next =>
        Stretch program enclosed [] decl.name past session events next)
    (builds : session.Builds decl.name place) :
    (tellFunctionBody program finish tell decl).Ensures session fun events _ next =>
      Stretch program enclosed [] decl.name past session events next := by
  have begins : Progress program enclosed [] decl.name past session past [] [] session := .start builds
  have params (session : Session) (place : Place) (builds : session.Builds decl.name place) :
      (decl.params.zipIdx.forM fun pair => Told.telling (fun _ => .param pair.1 pair.2)
        (lowerParam program pair.1 pair.2)).Ensures session fun events _ next =>
          Stretch program enclosed [] decl.name past session events next := by
    refine stretch_forM (fun pair _ session place builds => ?_) builds
    have begins : Progress program enclosed [] decl.name past session past [] [] session := .start builds
    exact Told.From.start (.of_bind_pure (begins.thenPlain rfl (fun _ builds =>
      performs_lowerParam builds pair.1 pair.2) fun events next _ progress =>
        .pure progress.stretch))
  refine Told.From.start (begins.thenPart (params session) fun events session _ progress => ?_)
  refine progress.thenPart (tells session) fun events session _ progress => ?_
  have closes {made : Task → Prop} {events : List Event} {session next : Session}
      (progress : Progress program enclosed [] decl.name past next made [] events session) :
      (Told.telling (fun _ => Task.finish decl.name) (finish decl.name)).From events session
        fun events _ last => Stretch program enclosed [] decl.name past next events last := by
    refine .of_bind_pure (progress.thenPlain rfl (fun place builds => ?_)
      fun events next _ progress => .pure progress.stretch)
    refine (finishes decl.name session place builds).mono fun _ _ same => ?_
    rw [same]
    exact .finish builds
  split
  · refine progress.thenPlain rfl (fun place builds => .of_ok (returnIfLive_eq builds none)
      (.returnIfLive builds)) fun events session _ progress => ?_
    exact closes progress
  · exact closes progress

theorem tellFunctionDecl_stretch (finishes : Finishes finish) {id : FuncId}
    (tells : ∀ decl, program.function? id = some decl →
      Tells program enclosed tell (.inFunction id) decl.body)
    (builds : session.Builds name place) :
    (tellFunctionDecl program finish tell id).Ensures session fun events _ next =>
      Stretch program enclosed [] name past session events next := by
  refine Told.From.start (.orFault fun decl found => ?_)
  refine .cursor ?_
  have starts : (Told.telling (fun _ => Task.start decl.name) (openFunction decl.name)).Ensures
      session fun events _ opened => events = [⟨.start decl.name, session, opened⟩] ∧
        (Task.start decl.name).Performs program decl.name session opened :=
    .telling ((performs_openFunction session decl.name).mono fun _ opened starts => ⟨rfl, starts⟩)
  refine .bind starts fun events _ opened facts => ?_
  rcases facts with ⟨rfl, starts⟩
  rcases starts.stands (fun _ => Task.ne_of_isPlain rfl rfl) with ⟨entry, stands⟩
  have body := tellFunctionBody_stretch finishes (fun session place builds =>
    tells decl found decl.name (fun _ => False) session place (fun _ => nofun) builds) stands
  refine .bind body fun events _ closed body => ?_
  have resumes : (Told.telling (fun _ => Task.resume session.cursor.position)
      (Lower.moveCursor fun cursor => cursor.setPosition session.cursor.position)).Ensures closed
        fun events _ next => next = closed.resume session.cursor.position ∧
          events = [⟨.resume session.cursor.position, closed, next⟩] :=
    .telling (.of_ok rfl ⟨rfl, rfl⟩)
  refine resumes.mono fun last _ next facts => ?_
  rcases facts with ⟨rfl, rfl⟩
  exact .function builds ((Stretch.start starts).append body fun _ => .inl)

theorem tellNodeOf_stretch (finishes : Finishes finish) {id : StmtId} {stmt : Stmt}
    (known : program.stmt? id = some stmt)
    (tells : ∀ inner child, (inner, child) ∈ parts program setting id stmt →
      Tells program enclosed tell inner child)
    (jumps : enclosed → ∀ target, jumpTarget? stmt = some target → target ∈ setting.loops)
    (begun : enclosed → setting.Begun past) (builds : session.Builds name place) :
    (tellNodeOf program finish tell id stmt).Ensures session fun events _ next =>
      Stretch program enclosed [] name past session events next := by
  have target {target : StmtId} (isTarget : jumpTarget? stmt = some target) (isEnclosed : enclosed) :
      ∃ blocks, past (.loop target blocks) :=
    begun isEnclosed target (jumps isEnclosed target isTarget)
  cases stmt with
  | expr expr => exact (tellEffect_codes expr builds).mono fun _ _ _ codes => codes.stretch
  | compound stmts =>
      refine stretch_forM (fun child member session place builds => ?_) builds
      exact tells setting child (List.mem_map_of_mem member) name past session place begun builds
  | varDecl vars =>
      exact stretch_forM (fun var _ _ _ builds => tellVarDecl_stretch var builds) builds
  | functionDecl func =>
      refine tellFunctionDecl_stretch finishes (fun decl found => ?_) builds
      exact tells (.inFunction func) decl.body (by simp [parts, found])
  | ifThenElse condition thenBody elseBody =>
      refine tellIf_stretch known (fun child member => ?_) begun builds
      refine tells setting child ?_
      rw [parts]
      exact (List.mem_map_of_mem member : (setting, child) ∈
        (thenBody :: elseBody.toList).map fun child => (setting, child))
  | whileLoop condition body =>
      exact tellWhile_stretch known (tells _ body List.mem_cons_self) begun builds
  | forLoop initial condition updates body =>
      refine tellFor_stretch known (fun stmt isDecl => ?_) (tells _ body ?_) begun builds
      · subst isDecl
        exact tells setting stmt List.mem_cons_self
      · cases initial with
        | decl stmt => exact List.mem_cons_of_mem _ List.mem_cons_self
        | exprs exprs => exact List.mem_cons_self
  | continueLoop loop =>
      exact tellJump_stretch known rfl (fun session blocks found => by
        rw [Session.JumpsBy, known]
        exact ⟨blocks, found, rfl⟩) (target rfl) builds
  | breakLoop loop =>
      exact tellJump_stretch known rfl (fun session blocks found => by
        rw [Session.JumpsBy, known]
        exact ⟨blocks, found, rfl⟩) (target rfl) builds
  | returnValue result => exact tellReturn_stretch known builds

theorem tells_within (finishes : Finishes finish) (depth : Nat) (setting : Setting) (id : StmtId)
    (isEnclosed : enclosed → Enclosed program (occurrencesWithin program depth setting id)) :
    Tells program enclosed (tellStmtWithin program finish depth) setting id := by
  induction depth generalizing setting id with
  | zero =>
      intro name past session place _ _ events value next runs
      cases congrArg Prod.snd runs
  | succ depth induction =>
      intro name past session place begun builds
      have begins : Progress program enclosed [] name past session past [] [] session := .start builds
      refine Told.From.start (begins.thenPlain rfl (fun _ builds => .pure (.come builds))
        fun events session _ progress => .orFault fun stmt known => ?_)
      refine .of_bind_pure (progress.thenPart (fun place builds => ?_) fun _ _ _ progress =>
        .pure progress.stretch)
      refine tellNodeOf_stretch finishes known (fun inner child member => ?_) (fun holds target isTarget => ?_)
        (fun holds => (begun holds).mono fun _ => .inl) builds
      · exact induction inner child fun holds => (isEnclosed holds).part known member
      · exact (isEnclosed holds).target_mem known isTarget

/-! ## Programs -/

theorem tellItems_stretch (finishes : Finishes finish) (entry : String)
    (isEnclosed : enclosed → Enclosed program (occurrencesIn program)) (session : Session) :
    (tellItems program finish entry).Ensures session fun events _ next =>
      Stretch program enclosed [] entry (fun _ => False) session events next := by
  have starts : (Told.telling (fun _ => Task.start entry) (openFunction entry)).Ensures session
      fun events _ opened => Stretch program enclosed [] entry (fun _ => False) session events opened :=
    .telling ((performs_openFunction session entry).mono fun _ _ starts => .start starts)
  refine Told.From.start (.bind starts fun events _ opened stretch => ?_)
  have begins := Progress.of_stretch stretch
  refine begins.thenPart (fun place builds => ?_) fun events session _ progress => ?_
  · refine stretch_forM (fun item member session place builds => ?_) builds
    refine tells_within finishes (stmtDepth program) .top item (fun holds => ?_) entry _ session place
      (fun _ => nofun) builds
    exact (isEnclosed holds).mono fun pair occurs => List.mem_flatMap.mpr ⟨item, member, occurs⟩
  · refine progress.thenPlain rfl (fun place builds => .of_ok (returnIfLive_eq builds _)
      (.returnIfLive builds)) fun events session _ progress => ?_
    refine .of_bind_pure (progress.thenPlain rfl (fun place builds => ?_)
      fun events next _ progress => .pure progress.stretch)
    refine (finishes entry session place builds).mono fun _ _ same => ?_
    rw [same]
    exact .finish builds

theorem sound_start {options : Options} {declared : Code.Module}
    (declares : declareAll program options = .ok declared) :
    (Session.start (.ofModule declared)).Sound 0 := by
  intro name place found
  rcases Option.map_eq_some_iff.mp found with ⟨function, known, rfl⟩
  have holds : function.body.Holds [] (15 + (0 + 1)) := holds_of_declareAll declares known
  refine .of_holds holds fun id stands => ?_
  cases stands

/-- The history of a run that comes to its end is one stretch. -/
theorem history_stretch {options : Options} {module : Code.Module}
    (lowers : lowerProgram program options = .ok module)
    (isEnclosed : enclosed → Enclosed program (occurrencesIn program)) :
    ∃ declared last, declareAll program options = .ok declared ∧
      Stretch program enclosed [] options.entryFunction (fun _ => False)
        (.start (.ofModule declared)) (history program options) last ∧
      last.cursor.module = module ∧ module.verify = .ok () := by
  rcases exists_told lowers with ⟨declared, last, declares, tells, same, verified⟩
  refine ⟨declared, last, declares, ?_, same, verified⟩
  exact tellItems_stretch (finishes_finishFunction options) options.entryFunction isEnclosed _ _ _ _
    tells

end Functions

end ScriptLowering.Lowering
