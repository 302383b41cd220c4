import Gradual.Syntax.Expr

/-!
Resolved statements and definitions.
-/

namespace Gradual

/-- A formal argument of a definition. -/
structure Param where
  var : Var
  kind : ArgKind
  default : Option Expr

mutual

structure Stmt where
  span : Span
  kind : StmtKind

inductive StmtKind where
  /-- Variables with or without declared types, and a value for them. -/
  | varDef (vars : List Var) (binding : Binding) (isTopLevel : Bool) (init : Option Expr)
  | func (d : FuncDef)
  | overloaded (items : List FuncDef) (owner : Option ClassId) (symbol : FunctionSymbol)
  | cls (name : String) (c : ClassId) (body : List Stmt)
  /-- A function and the functions that wrap it, the innermost last; `var` names the outcome. -/
  | decorated (func : FuncDef) (decorators : List Expr) (var : Var)
  /-- One value for several targets. -/
  | assign (targets : List Expr) (value : Expr)
  | opAssign (op : BinaryOp) (target value : Expr)
  | expr (e : Expr)
  | ret (value : Option Expr)
  | yield (value : Expr)
  | ifElse (arms : List Arm) (orElse : Option (List Stmt))
  | whileLoop (test : Expr) (body : List Stmt) (orElse : Option (List Stmt))
  | forLoop (targets : List Expr) (isAnnotated : Bool) (sequence : Expr) (body : List Stmt)
      (orElse : Option (List Stmt))
  | withBlock (items : List (Expr × Option Expr)) (body : List Stmt)
  | assert (test : Expr)
  | raise (value cause : Option Expr)
  | tryBlock (body : List Stmt) (handlers : List Handler) (orElse atEnd : Option (List Stmt))
  | del (target : Expr)
  | print (args : List Expr)
  | pass
  | breakLoop
  | continueLoop
  | globals (names : List String)
  | imports (names : List String)

/-- A condition and what is done if it holds. -/
structure Arm where
  test : Expr
  body : List Stmt

/-- What is done about an exception: its class or classes, and a name for it. -/
structure Handler where
  type : Option Expr
  var : Option Expr
  body : List Stmt

/-- The definition of a function or method. -/
structure FuncDef where
  name : String
  fullName : String
  owner : Option ClassId
  params : List Param
  body : List Stmt
  /-- The declared types; a definition without them is not checked. -/
  signature : Option Signature
  isGenerator : Bool
  span : Span
  isAbstract : Bool
  /-- The earlier definition that this one may stand in for. -/
  earlier : Option FunctionSymbol
  symbol : FunctionSymbol

end

abbrev Block := List Stmt

/-- The declared signature, or the dynamic one. -/
def FuncDef.type (d : FuncDef) : Signature :=
  d.signature.getD (.dynamic (d.params.map (·.kind)) (d.params.map fun p => some p.var.name))

mutual

/-- Does a statement yield a value, outside the functions and classes that it defines? -/
def Stmt.yields : Stmt → Bool
  | ⟨_, kind⟩ => kind.yields

def StmtKind.yields : StmtKind → Bool
  | .yield _ => true
  | .ifElse arms orElse => armsYield arms || optBlockYields orElse
  | .whileLoop _ body orElse => blockYields body || optBlockYields orElse
  | .forLoop _ _ _ body orElse => blockYields body || optBlockYields orElse
  | .withBlock _ body => blockYields body
  | .tryBlock body handlers orElse atEnd =>
    blockYields body || handlersYield handlers || optBlockYields orElse || optBlockYields atEnd
  | _ => false

def blockYields : List Stmt → Bool
  | [] => false
  | s :: rest => s.yields || blockYields rest

def armsYield : List Arm → Bool
  | [] => false
  | ⟨_, body⟩ :: rest => blockYields body || armsYield rest

def handlersYield : List Handler → Bool
  | [] => false
  | ⟨_, _, body⟩ :: rest => blockYields body || handlersYield rest

def optBlockYields : Option (List Stmt) → Bool
  | none => false
  | some body => blockYields body

end

end Gradual
