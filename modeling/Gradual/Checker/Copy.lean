import Gradual.Syntax.Stmt
import Gradual.Ty.Subst

/-!
Copies of functions in which a type variable stands for one type. A copy has ids of its own, so that
the types of its expressions do not mix with those of other copies, and variables of its own for
everything that is local to the function.
-/

namespace Gradual

/-- What a copy is made with. -/
structure CopyState where
  /-- The variables of the copy, by those that they stand for. -/
  renamed : Std.TreeMap VarId Var
  nextNode : NodeId
  vars : VarTypes

/-- Copying, with the types that type variables stand for. -/
abbrev Copy := ReaderT TypeArgs (StateM CopyState)

namespace Copy

/-- An id that no other expression has. -/
def freshNode : Copy NodeId :=
  modifyGet fun s => (s.nextNode, { s with nextNode := s.nextNode + 1 })

def type (t : Ty) : Copy Ty := return t.expand (← read)

/-- A variable that stands for the given one from now on. -/
def freshVar (v : Var) : Copy Var := do
  let args ← read
  modifyGet fun s =>
    let (copy, vars) := s.vars.fresh v.name v.fullName v.owner ((s.vars.get? v).map (·.expand args))
    (copy, { s with renamed := s.renamed.insert v.id copy, vars })

/-- The variable that stands for the given one, if one does. -/
def renamed (v : Var) : Copy Var := return ((← get).renamed[v.id]?).getD v

/-- An occurrence that introduces a local variable makes a variable for the copy. -/
def name (ref : NameRef) : Copy NameRef := do
  match ref.symbol with
  | .var v =>
    let isNew := ref.isDef && ref.binding == .inFunction && !(← get).renamed.contains v.id
    let v ← if isNew then freshVar v else renamed v
    return { ref with symbol := .var v }
  | _ => return ref

/-- The formal arguments of a function without a name. -/
def lambdaParams (params : List (Var × ArgKind)) : Copy (List (Var × ArgKind)) :=
  params.mapM fun (v, kind) => return (← freshVar v, kind)

end Copy

open Copy

mutual

/-- The parts of an expression are copied before the expression gets its id. -/
def Expr.copy : Expr → Copy Expr
  | ⟨_, span, kind⟩ => do
    let kind ← kind.copy
    return ⟨← freshNode, span, kind⟩

def ExprKind.copy : ExprKind → Copy ExprKind
  | .name ref => return .name (← Copy.name ref)
  | .member base name defined isDef => return .member (← base.copy) name defined isDef
  | .call callee args => return .call (← callee.copy) (← copyActuals args)
  | .paren inner => return .paren (← inner.copy)
  | .int n => return .int n
  | .str s => return .str s
  | .bytes s => return .bytes s
  | .unicode s => return .unicode s
  | .float => return .float
  | .binary op left right => return .binary op (← left.copy) (← right.copy)
  | .unary op operand => return .unary op (← operand.copy)
  | .index base index => return .index (← base.copy) (← index.copy)
  | .cast inner t => return .cast (← inner.copy) (← type t)
  | .super name => return .super name
  | .typeApplication inner types => return .typeApplication (← inner.copy) (← types.mapM type)
  | .typeVar name => return .typeVar name
  | .list items => return .list (← copyExprs items)
  | .set items => return .set (← copyExprs items)
  | .tuple items => return .tuple (← copyExprs items)
  | .dict items => return .dict (← copyPairs items)
  | .slice first last stride =>
    return .slice (← copyOption first) (← copyOption last) (← copyOption stride)
  | .lambda params body => do
    let params ← lambdaParams params
    return .lambda params (← body.copy)
  | .listComprehension left clauses => do
    let clauses ← copyClauses clauses
    return .listComprehension (← left.copy) clauses
  | .generator left clauses => do
    let clauses ← copyClauses clauses
    return .generator (← left.copy) clauses
  | .placeholder none => return .placeholder none
  | .placeholder (some t) => return .placeholder (some (← type t))
  | .conditional cond ifTrue ifFalse =>
    return .conditional (← cond.copy) (← ifTrue.copy) (← ifFalse.copy)

def copyExprs : List Expr → Copy (List Expr)
  | [] => return []
  | e :: rest => return (← e.copy) :: (← copyExprs rest)

def copyActuals : List Actual → Copy (List Actual)
  | [] => return []
  | ⟨kind, name, value⟩ :: rest => return ⟨kind, name, ← value.copy⟩ :: (← copyActuals rest)

def copyPairs : List (Expr × Expr) → Copy (List (Expr × Expr))
  | [] => return []
  | (key, value) :: rest => return (← key.copy, ← value.copy) :: (← copyPairs rest)

def copyOption : Option Expr → Copy (Option Expr)
  | none => return none
  | some e => return some (← e.copy)

/-- Of all clauses the sequences are copied first, then the targets, then the conditions. -/
def copyClauses (clauses : List Clause) : Copy (List Clause) := do
  let sequences ← copySequences clauses
  let targets ← copyTargets clauses
  let conditions ← copyConditions clauses
  return (targets.zip (sequences.zip conditions)).map fun (t, s, c) => ⟨t, s, c⟩

def copySequences : List Clause → Copy (List Expr)
  | [] => return []
  | ⟨_, sequence, _⟩ :: rest => return (← sequence.copy) :: (← copySequences rest)

def copyTargets : List Clause → Copy (List (List Expr))
  | [] => return []
  | ⟨targets, _, _⟩ :: rest => return (← copyExprs targets) :: (← copyTargets rest)

def copyConditions : List Clause → Copy (List (List Expr))
  | [] => return []
  | ⟨_, _, conditions⟩ :: rest => return (← copyExprs conditions) :: (← copyConditions rest)

end

namespace Copy

/-- The formal arguments of a function: first the variables, then the defaults. -/
def params (ps : List Param) : Copy (List Param) := do
  let vars ← ps.mapM fun p => freshVar p.var
  let defaults ← ps.mapM fun p => copyOption p.default
  return (ps.zip (vars.zip defaults)).map fun (p, v, d) => ⟨v, p.kind, d⟩

def signature (s : Signature) : Copy Signature := return s.expand (← read)

/-- The variables that a definition declares are local to the function if it says so. -/
def definedVars (vars : List Var) (binding : Binding) : Copy (List Var) :=
  if binding = .inFunction then vars.mapM freshVar else return vars

/-- Of all items the managers are copied first, then the targets. -/
def withItems (items : List (Expr × Option Expr)) : Copy (List (Expr × Option Expr)) := do
  let managers ← items.mapM fun (e, _) => e.copy
  let targets ← items.mapM fun (_, t) => copyOption t
  return managers.zip targets

end Copy

mutual

def Stmt.copy : Stmt → Copy Stmt
  | ⟨span, kind⟩ => return ⟨span, ← kind.copy⟩

def StmtKind.copy : StmtKind → Copy StmtKind
  | .varDef vars binding isTopLevel init => do
    let init ← copyOption init
    return .varDef (← definedVars vars binding) binding isTopLevel init
  | .func d => return .func (← d.copy)
  | .overloaded items owner symbol => return .overloaded (← copyFuncDefs items) owner symbol
  | .cls name c body => return .cls name c (← copyBlock body)
  | .decorated func decorators var =>
    return .decorated (← func.copy) (← copyExprs decorators) var
  | .assign targets value => do
    let value ← value.copy
    return .assign (← copyExprs targets) value
  | .opAssign op target value => return .opAssign op (← target.copy) (← value.copy)
  | .expr e => return .expr (← e.copy)
  | .ret value => return .ret (← copyOption value)
  | .yield value => return .yield (← value.copy)
  | .ifElse arms orElse => do
    let tests ← copyTests arms
    let bodies ← copyBodies arms
    return .ifElse ((tests.zip bodies).map fun (t, b) => ⟨t, b⟩) (← copyOptionBlock orElse)
  | .whileLoop test body orElse =>
    return .whileLoop (← test.copy) (← copyBlock body) (← copyOptionBlock orElse)
  | .forLoop targets isAnnotated sequence body orElse => do
    let sequence ← sequence.copy
    return .forLoop (← copyExprs targets) isAnnotated sequence (← copyBlock body)
      (← copyOptionBlock orElse)
  | .withBlock items body => return .withBlock (← withItems items) (← copyBlock body)
  | .assert test => return .assert (← test.copy)
  | .raise value cause => return .raise (← copyOption value) (← copyOption cause)
  | .tryBlock body handlers orElse atEnd => do
    let body ← copyBlock body
    let types ← handlers.mapM fun h => copyOption h.type
    let vars ← handlers.mapM fun h => copyOption h.var
    let bodies ← copyHandlerBodies handlers
    let handlers := (types.zip (vars.zip bodies)).map fun (t, v, b) => ⟨t, v, b⟩
    return .tryBlock body handlers (← copyOptionBlock orElse) (← copyOptionBlock atEnd)
  | .del target => return .del (← target.copy)
  | .print args => return .print (← copyExprs args)
  | .pass => return .pass
  | .breakLoop => return .breakLoop
  | .continueLoop => return .continueLoop
  | .globals names => return .globals names
  | .imports names => return .imports names

/-- The definition of a function; the symbol by which others refer to it stays. -/
def FuncDef.copy : FuncDef → Copy FuncDef
  | ⟨name, fullName, owner, params, body, signature, isGenerator, span, isAbstract, earlier,
      symbol⟩ => do
    let params ← Copy.params params
    let body ← copyBlock body
    let signature ← signature.mapM Copy.signature
    return ⟨name, fullName, owner, params, body, signature, isGenerator, span, isAbstract, earlier,
      symbol⟩

def copyFuncDefs : List FuncDef → Copy (List FuncDef)
  | [] => return []
  | d :: rest => return (← d.copy) :: (← copyFuncDefs rest)

def copyBlock : List Stmt → Copy (List Stmt)
  | [] => return []
  | s :: rest => return (← s.copy) :: (← copyBlock rest)

def copyOptionBlock : Option (List Stmt) → Copy (Option (List Stmt))
  | none => return none
  | some body => return some (← copyBlock body)

def copyTests : List Arm → Copy (List Expr)
  | [] => return []
  | ⟨test, _⟩ :: rest => return (← test.copy) :: (← copyTests rest)

def copyBodies : List Arm → Copy (List (List Stmt))
  | [] => return []
  | ⟨_, body⟩ :: rest => return (← copyBlock body) :: (← copyBodies rest)

def copyHandlerBodies : List Handler → Copy (List (List Stmt))
  | [] => return []
  | ⟨_, _, body⟩ :: rest => return (← copyBlock body) :: (← copyHandlerBodies rest)

end

/-- A copy of a function in which type variables stand for types; `nextNode` is the first id that
the copy may use. Answers the copy, the next id and the types of variables with those of the
copy. -/
def FuncDef.instantiate (d : FuncDef) (args : TypeArgs) (nextNode : NodeId) (vars : VarTypes) :
    FuncDef × NodeId × VarTypes :=
  let (copy, s) := (d.copy.run args).run ⟨∅, nextNode, vars⟩
  (copy, s.nextNode, s.vars)

end Gradual
