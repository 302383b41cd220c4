import Gradual.Syntax.Nesting

/-!
Outlines: what is left of a tree without the ids of its expressions, the variables that its names
stand for and the types that are written in it. Trees with one outline differ in nothing else.
-/

namespace Gradual

/-- A name without the variable that it stands for. -/
def NameRef.outline (ref : NameRef) : NameRef :=
  match ref.symbol with
  | .var _ => { ref with symbol := .var default }
  | _ => ref

/-- A signature without types. -/
def Signature.outline (s : Signature) : Signature :=
  { s with argTypes := s.argTypes.map fun _ => .any, ret := .any, quantified := [] }

mutual

def Expr.outline : Expr → Expr
  | ⟨_, span, kind⟩ => ⟨0, span, kind.outline⟩

def ExprKind.outline : ExprKind → ExprKind
  | .name ref => .name ref.outline
  | .member base name defined isDef => .member base.outline name defined isDef
  | .call callee args => .call callee.outline (outlineActuals args)
  | .paren inner => .paren inner.outline
  | .int n => .int n
  | .str s => .str s
  | .bytes s => .bytes s
  | .unicode s => .unicode s
  | .float => .float
  | .binary op left right => .binary op left.outline right.outline
  | .unary op operand => .unary op operand.outline
  | .index base index => .index base.outline index.outline
  | .cast inner _ => .cast inner.outline .any
  | .super name => .super name
  | .typeApplication inner types => .typeApplication inner.outline (types.map fun _ => .any)
  | .typeVar name => .typeVar name
  | .list items => .list (outlineExprs items)
  | .set items => .set (outlineExprs items)
  | .tuple items => .tuple (outlineExprs items)
  | .dict items => .dict (outlinePairs items)
  | .slice first last stride =>
    .slice (outlineOption first) (outlineOption last) (outlineOption stride)
  | .lambda params body => .lambda (params.map fun (_, kind) => (default, kind)) body.outline
  | .listComprehension left clauses => .listComprehension left.outline (outlineClauses clauses)
  | .generator left clauses => .generator left.outline (outlineClauses clauses)
  | .placeholder type => .placeholder (type.map fun _ => .any)
  | .conditional cond ifTrue ifFalse => .conditional cond.outline ifTrue.outline ifFalse.outline

def outlineExprs : List Expr → List Expr
  | [] => []
  | e :: rest => e.outline :: outlineExprs rest

def outlineActuals : List Actual → List Actual
  | [] => []
  | ⟨kind, name, value⟩ :: rest => ⟨kind, name, value.outline⟩ :: outlineActuals rest

def outlinePairs : List (Expr × Expr) → List (Expr × Expr)
  | [] => []
  | (key, value) :: rest => (key.outline, value.outline) :: outlinePairs rest

def outlineOption : Option Expr → Option Expr
  | none => none
  | some e => some e.outline

def outlineClauses : List Clause → List Clause
  | [] => []
  | ⟨targets, sequence, conditions⟩ :: rest =>
    ⟨outlineExprs targets, sequence.outline, outlineExprs conditions⟩ :: outlineClauses rest

end

def Param.outline (p : Param) : Param := ⟨Inhabited.default, p.kind, outlineOption p.default⟩

mutual

def Stmt.outline : Stmt → Stmt
  | ⟨span, kind⟩ => ⟨span, kind.outline⟩

def StmtKind.outline : StmtKind → StmtKind
  | .varDef vars binding isTopLevel init =>
    .varDef (vars.map fun _ => default) binding isTopLevel (outlineOption init)
  | .func d => .func d.outline
  | .overloaded items owner symbol => .overloaded (outlineFuncDefs items) owner symbol
  | .cls name c body => .cls name c (outlineBlock body)
  | .decorated func decorators v => .decorated func.outline (outlineExprs decorators) v
  | .assign targets value => .assign (outlineExprs targets) value.outline
  | .opAssign op target value => .opAssign op target.outline value.outline
  | .expr e => .expr e.outline
  | .ret value => .ret (outlineOption value)
  | .yield value => .yield value.outline
  | .ifElse arms orElse => .ifElse (outlineArms arms) (outlineOptionBlock orElse)
  | .whileLoop test body orElse =>
    .whileLoop test.outline (outlineBlock body) (outlineOptionBlock orElse)
  | .forLoop targets isAnnotated sequence body orElse =>
    .forLoop (outlineExprs targets) isAnnotated sequence.outline (outlineBlock body)
      (outlineOptionBlock orElse)
  | .withBlock items body =>
    .withBlock (items.map fun (manager, target) => (manager.outline, outlineOption target))
      (outlineBlock body)
  | .assert test => .assert test.outline
  | .raise value cause => .raise (outlineOption value) (outlineOption cause)
  | .tryBlock body handlers orElse atEnd =>
    .tryBlock (outlineBlock body) (outlineHandlers handlers) (outlineOptionBlock orElse)
      (outlineOptionBlock atEnd)
  | .del target => .del target.outline
  | .print args => .print (outlineExprs args)
  | .pass => .pass
  | .breakLoop => .breakLoop
  | .continueLoop => .continueLoop
  | .globals names => .globals names
  | .imports names => .imports names

def FuncDef.outline : FuncDef → FuncDef
  | ⟨name, fullName, owner, params, body, signature, isGenerator, span, isAbstract, earlier,
      symbol⟩ =>
    ⟨name, fullName, owner, params.map Param.outline, outlineBlock body,
      signature.map Signature.outline, isGenerator, span, isAbstract, earlier, symbol⟩

def outlineFuncDefs : List FuncDef → List FuncDef
  | [] => []
  | d :: rest => d.outline :: outlineFuncDefs rest

def outlineBlock : List Stmt → List Stmt
  | [] => []
  | s :: rest => s.outline :: outlineBlock rest

def outlineOptionBlock : Option (List Stmt) → Option (List Stmt)
  | none => none
  | some body => some (outlineBlock body)

def outlineArms : List Arm → List Arm
  | [] => []
  | ⟨test, body⟩ :: rest => ⟨test.outline, outlineBlock body⟩ :: outlineArms rest

def outlineHandlers : List Handler → List Handler
  | [] => []
  | ⟨type, v, body⟩ :: rest =>
    ⟨outlineOption type, outlineOption v, outlineBlock body⟩ :: outlineHandlers rest

end

theorem outlineClauses_eq (clauses : List Clause) :
    outlineClauses clauses = clauses.map fun c =>
      ⟨outlineExprs c.targets, c.sequence.outline, outlineExprs c.conditions⟩ := by
  induction clauses with
  | nil => rfl
  | cons c rest ih =>
    obtain ⟨targets, sequence, conditions⟩ := c
    rw [outlineClauses, ih, List.map_cons]

theorem outlineArms_eq (arms : List Arm) :
    outlineArms arms = arms.map fun arm => ⟨arm.test.outline, outlineBlock arm.body⟩ := by
  induction arms with
  | nil => rfl
  | cons arm rest ih =>
    obtain ⟨test, body⟩ := arm
    rw [outlineArms, ih, List.map_cons]

theorem outlineHandlers_eq (handlers : List Handler) :
    outlineHandlers handlers = handlers.map fun h =>
      ⟨outlineOption h.type, outlineOption h.var, outlineBlock h.body⟩ := by
  induction handlers with
  | nil => rfl
  | cons h rest ih =>
    obtain ⟨type, v, body⟩ := h
    rw [outlineHandlers, ih, List.map_cons]

/-! ### Nesting -/

mutual

/-- Definitions are nested in a tree as its outline says. -/
theorem Stmt.nesting_outline : (s : Stmt) → s.outline.nesting = s.nesting
  | ⟨_, kind⟩ => by rw [Stmt.outline, Stmt.nesting, Stmt.nesting, kind.nesting_outline]

theorem StmtKind.nesting_outline : (kind : StmtKind) → kind.outline.nesting = kind.nesting
  | .func d => by rw [StmtKind.outline, StmtKind.nesting, StmtKind.nesting, d.nesting_outline]
  | .overloaded items _ _ => by
    rw [StmtKind.outline, StmtKind.nesting, StmtKind.nesting, nestingOfEach_outline items]
  | .cls _ _ body => by
    rw [StmtKind.outline, StmtKind.nesting, StmtKind.nesting, blockNesting_outline body]
  | .decorated d _ _ => by
    rw [StmtKind.outline, StmtKind.nesting, StmtKind.nesting, d.nesting_outline]
  | .ifElse arms orElse => by
    rw [StmtKind.outline, StmtKind.nesting, StmtKind.nesting, armsNesting_outline arms,
      optBlockNesting_outline orElse]
  | .whileLoop _ body orElse => by
    rw [StmtKind.outline, StmtKind.nesting, StmtKind.nesting, blockNesting_outline body,
      optBlockNesting_outline orElse]
  | .forLoop _ _ _ body orElse => by
    rw [StmtKind.outline, StmtKind.nesting, StmtKind.nesting, blockNesting_outline body,
      optBlockNesting_outline orElse]
  | .withBlock _ body => by
    rw [StmtKind.outline, StmtKind.nesting, StmtKind.nesting, blockNesting_outline body]
  | .tryBlock body handlers orElse atEnd => by
    rw [StmtKind.outline, StmtKind.nesting, StmtKind.nesting, blockNesting_outline body,
      handlersNesting_outline handlers, optBlockNesting_outline orElse,
      optBlockNesting_outline atEnd]
  | .varDef _ _ _ _ | .assign _ _ | .opAssign _ _ _ | .expr _ | .ret _ | .yield _ | .assert _
  | .raise _ _ | .del _ | .print _ | .pass | .breakLoop | .continueLoop | .globals _
  | .imports _ => rfl

theorem FuncDef.nesting_outline : (d : FuncDef) → d.outline.nesting = d.nesting
  | ⟨_, _, _, _, body, _, _, _, _, _, _⟩ => by
    rw [FuncDef.outline, FuncDef.nesting, FuncDef.nesting, blockNesting_outline body]

theorem nestingOfEach_outline :
    (items : List FuncDef) → nestingOfEach (outlineFuncDefs items) = nestingOfEach items
  | [] => rfl
  | d :: rest => by
    rw [outlineFuncDefs, nestingOfEach, nestingOfEach, d.nesting_outline,
      nestingOfEach_outline rest]

theorem blockNesting_outline :
    (b : List Stmt) → blockNesting (outlineBlock b) = blockNesting b
  | [] => rfl
  | s :: rest => by
    rw [outlineBlock, blockNesting, blockNesting, s.nesting_outline, blockNesting_outline rest]

theorem optBlockNesting_outline :
    (b : Option (List Stmt)) → optBlockNesting (outlineOptionBlock b) = optBlockNesting b
  | none => rfl
  | some b => by
    rw [outlineOptionBlock, optBlockNesting, optBlockNesting, blockNesting_outline b]

theorem armsNesting_outline : (arms : List Arm) → armsNesting (outlineArms arms) = armsNesting arms
  | [] => rfl
  | ⟨_, body⟩ :: rest => by
    rw [outlineArms, armsNesting, armsNesting, blockNesting_outline body,
      armsNesting_outline rest]

theorem handlersNesting_outline :
    (handlers : List Handler) → handlersNesting (outlineHandlers handlers) = handlersNesting handlers
  | [] => rfl
  | ⟨_, _, body⟩ :: rest => by
    rw [outlineHandlers, handlersNesting, handlersNesting, blockNesting_outline body,
      handlersNesting_outline rest]

end

/-- Trees of one outline are nested alike. -/
theorem FuncDef.nesting_eq_of_outline {d d' : FuncDef} (h : d.outline = d'.outline) :
    d.nesting = d'.nesting := by
  rw [← d.nesting_outline, h, d'.nesting_outline]

end Gradual
