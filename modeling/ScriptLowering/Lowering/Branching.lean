import ScriptLowering.Lowering.Expression

/-!
# Lowering control flow

Structured statements become blocks. A block is created when its statement is met, and laid
out when control can reach it. A block that no edge leads to stays detached: code lowered
into it is dropped together with it when the function is complete.
-/

namespace ScriptLowering.Lowering

open Source (Program ExprId StmtId ForInit)
open Code (BlockId Cursor Operand)

variable (program : Program)

/-! ## Entering and leaving blocks -/

/-- Leave the open block with a jump to `target`. If no block is open, control does not get
here and there is nothing to leave. -/
def leaveTo (target : BlockId) : Lower Unit := do
  if (← Lower.cursor).hasOpenBlock then
    Lower.append fun cursor => cursor.jump target
  Lower.moveCursor Cursor.clearBlock

/-- Lay out `block` behind `previous` if that is laid out itself, and at the end otherwise. -/
def layOut (block : BlockId) (previous : Option BlockId) : Lower Unit := do
  let cursor ← Lower.cursor
  match previous with
  | some after =>
      if cursor.isLaidOut after then
        Lower.build fun cursor => cursor.insertBlockAfter block after
      else Lower.build fun cursor => cursor.appendBlock block
  | none => Lower.build fun cursor => cursor.appendBlock block

/-- Fall through into `block` and make it the open block. If no edge leads to it, it is not
laid out: a block that would only close the statement is discarded at once, and any other is
filled detached. -/
def enter (block : BlockId) (closing : Bool) : Lower Unit := do
  let previous := (← Lower.cursor).position.block
  leaveTo block
  let function ← Lower.ask Cursor.currentName
  if (← Lower.ask fun cursor => cursor.predecessorCount block) = 0 then
    if closing then Lower.build fun cursor => cursor.discardBlock block
    else Lower.moveCursor fun cursor => cursor.positionAtEnd function block
  else
    layOut block previous
    Lower.moveCursor fun cursor => cursor.positionAtEnd function block

def createBlock (label : String) : Lower BlockId :=
  Lower.buildWith fun cursor => cursor.createBlock label

/-! ## Statements

`lower` lowers a statement inside the one at hand. -/

/-- Without an alternative, the condition leads past the statement when it fails. -/
def lowerIf (lower : StmtId → Lower Unit) (condition : ExprId) (thenBody : StmtId)
    (elseBody : Option StmtId) : Lower Unit := do
  let value ← lowerValue program condition
  let thenBlock ← createBlock "if.then"
  let endBlock ← createBlock "if.end"
  match elseBody with
  | none =>
      Lower.append fun cursor => cursor.branch value thenBlock endBlock
      enter thenBlock false
      lower thenBody
      leaveTo endBlock
  | some elseBody =>
      let elseBlock ← createBlock "if.else"
      Lower.append fun cursor => cursor.branch value thenBlock elseBlock
      enter thenBlock false
      lower thenBody
      leaveTo endBlock
      enter elseBlock false
      lower elseBody
      leaveTo endBlock
  enter endBlock true

def lowerWhile (lower : StmtId → Lower Unit) (id : StmtId) (condition : ExprId)
    (body : StmtId) : Lower Unit := do
  let condBlock ← createBlock "while.cond"
  let bodyBlock ← createBlock "while.body"
  let endBlock ← createBlock "while.end"
  Lower.annotate fun annotations => annotations.setLoop id ⟨condBlock, none, endBlock⟩
  enter condBlock false
  let value ← lowerValue program condition
  Lower.append fun cursor => cursor.branch value bodyBlock endBlock
  enter bodyBlock false
  lower body
  leaveTo condBlock
  enter endBlock true

def lowerForInit (lower : StmtId → Lower Unit) : ForInit → Lower Unit
  | .decl stmt => lower stmt
  | .exprs exprs => exprs.forM fun expr => do let _ ← lowerExpr program expr

/-- A loop without updates has no block for them. -/
def createUpdateBlock (updates : List ExprId) : Lower (Option BlockId) :=
  if updates.isEmpty then return none else some <$> createBlock "for.update"

/-- Without a condition the block of the condition is the beginning of the body. -/
def lowerForCondition (endBlock : BlockId) : Option ExprId → Lower Unit
  | none => return ()
  | some condition => do
      let bodyBlock ← createBlock "for.body"
      let value ← lowerValue program condition
      Lower.append fun cursor => cursor.branch value bodyBlock endBlock
      enter bodyBlock false

def lowerForUpdates (updates : List ExprId) : Option BlockId → Lower Unit
  | none => return ()
  | some updateBlock => do
      enter updateBlock false
      updates.forM fun update => do let _ ← lowerExpr program update

def lowerFor (lower : StmtId → Lower Unit) (id : StmtId) (initial : ForInit)
    (condition : Option ExprId) (updates : List ExprId) (body : StmtId) : Lower Unit := do
  lowerForInit program lower initial
  let condBlock ← createBlock "for.cond"
  let endBlock ← createBlock "for.end"
  enter condBlock false
  let updateBlock ← createUpdateBlock updates
  Lower.annotate fun annotations => annotations.setLoop id ⟨condBlock, updateBlock, endBlock⟩
  lowerForCondition program endBlock condition
  lower body
  lowerForUpdates program updates updateBlock
  leaveTo condBlock
  enter endBlock true

def lowerBreak (target : StmtId) : Lower Unit := do
  let blocks ← Lower.consult fun annotations => annotations.loopOf target
  Lower.append fun cursor => cursor.jump blocks.exit

def lowerContinue (target : StmtId) : Lower Unit := do
  let blocks ← Lower.consult fun annotations => annotations.loopOf target
  Lower.append fun cursor => cursor.jump blocks.continueTarget

def lowerReturn : Option ExprId → Lower Unit
  | some expr => do
      let value ← lowerValue program expr
      Lower.append fun cursor => cursor.ret (some value)
  | none => Lower.append fun cursor => cursor.ret none

end ScriptLowering.Lowering
