import Gradual.Checker.Copy

/-!
The leaves of a tree: the names, the variables, the types and the functions that are mentioned in it,
one after the other. A tree is walked through in two ways, as it is copied and as it is checked. Where
a construct has several rows of parts, a copy is made of all first parts, then of all second ones and
so on, whereas the check takes the rows one by one.
-/

namespace Gradual

/-- What a tree mentions at one place. -/
inductive Leaf where
  /-- An argument or a definition has the variable as its own. -/
  | binds (v : Var)
  | name (ref : NameRef)
  /-- A variable that belongs to all copies of the tree. -/
  | shares (v : Var)
  | type (t : Ty)
  | signature (s : Signature)
  /-- A function under whose name a definition stands. -/
  | declares (f : FunctionSymbol)

/-- A way to walk through a tree. -/
inductive Walk where
  | copying
  | checking

namespace Walk

/-- The leaves of rows of three parts each: column by column in a copy, row by row in a check. -/
def arrange (w : Walk) (rows : List (List Leaf × List Leaf × List Leaf)) : List Leaf :=
  match w with
  | copying => rows.flatMap (·.1) ++ (rows.flatMap (·.2.1) ++ rows.flatMap (·.2.2))
  | checking => rows.flatMap fun row => row.1 ++ (row.2.1 ++ row.2.2)

/-- The leaves of the operands of an operator. A test for membership infers the container first. -/
def operands (w : Walk) (op : BinaryOp) (left right : List Leaf) : List Leaf :=
  match w, op with
  | checking, .isIn | checking, .isNotIn => right ++ left
  | _, _ => left ++ right

end Walk

section

variable (w : Walk)

mutual

def Expr.leaves : Expr → List Leaf
  | ⟨_, _, kind⟩ => kind.leaves

def ExprKind.leaves : ExprKind → List Leaf
  | .name ref => [.name ref]
  | .member base _ defined _ => base.leaves ++ defined.toList.map .shares
  | .call callee args => callee.leaves ++ leavesOfActuals args
  | .paren inner => inner.leaves
  | .int _ | .str _ | .bytes _ | .unicode _ | .float | .super _ | .typeVar _ => []
  | .binary op left right => w.operands op left.leaves right.leaves
  | .unary _ operand => operand.leaves
  | .index base index => base.leaves ++ index.leaves
  | .cast inner t => inner.leaves ++ [.type t]
  | .typeApplication inner types => inner.leaves ++ types.map .type
  | .list items | .set items | .tuple items => leavesOfExprs items
  | .dict items => leavesOfPairs items
  | .slice first last stride =>
    leavesOfOption first ++ (leavesOfOption last ++ leavesOfOption stride)
  | .lambda params body => params.map (.binds ·.1) ++ body.leaves
  | .listComprehension left clauses | .generator left clauses =>
    w.arrange (clauseRows clauses) ++ left.leaves
  | .placeholder t => t.toList.map .type
  | .conditional cond ifTrue ifFalse => cond.leaves ++ (ifTrue.leaves ++ ifFalse.leaves)

def leavesOfExprs : List Expr → List Leaf
  | [] => []
  | e :: rest => e.leaves ++ leavesOfExprs rest

def leavesOfActuals : List Actual → List Leaf
  | [] => []
  | ⟨_, _, value⟩ :: rest => value.leaves ++ leavesOfActuals rest

def leavesOfPairs : List (Expr × Expr) → List Leaf
  | [] => []
  | (key, value) :: rest => key.leaves ++ (value.leaves ++ leavesOfPairs rest)

def leavesOfOption : Option Expr → List Leaf
  | none => []
  | some e => e.leaves

/-- The sequence, the targets and the conditions of each clause. -/
def clauseRows : List Clause → List (List Leaf × List Leaf × List Leaf)
  | [] => []
  | ⟨targets, sequence, conditions⟩ :: rest =>
    (sequence.leaves, leavesOfExprs targets, leavesOfExprs conditions) :: clauseRows rest

end

/-- The arguments of a function: first the variables, then the defaults. -/
def leavesOfParams (params : List Param) : List Leaf :=
  params.map (.binds ·.var) ++ params.flatMap (leavesOfOption w ·.default)

/-- The manager and the target of each item of a `with`. -/
def itemRows (items : List (Expr × Option Expr)) : List (List Leaf × List Leaf × List Leaf) :=
  items.map fun (manager, target) => (manager.leaves w, leavesOfOption w target, [])

/-- A variable of a definition, which is local to the function if the definition says so. -/
def Leaf.defined (binding : Binding) (v : Var) : Leaf :=
  if binding = .inFunction then .binds v else .shares v

mutual

def Stmt.leaves : Stmt → List Leaf
  | ⟨_, kind⟩ => kind.leaves

def StmtKind.leaves : StmtKind → List Leaf
  | .varDef vars binding _ init => leavesOfOption w init ++ vars.map (Leaf.defined binding)
  | .func d => d.leaves
  | .overloaded items _ symbol => leavesOfFuncDefs items ++ [.declares symbol]
  | .cls _ _ body => leavesOfBlock body
  | .decorated func decorators v => func.leaves ++ (leavesOfExprs w decorators ++ [.shares v])
  | .assign targets value => value.leaves w ++ leavesOfExprs w targets
  | .opAssign _ target value => target.leaves w ++ value.leaves w
  | .expr e | .yield e | .assert e | .del e => e.leaves w
  | .ret value => leavesOfOption w value
  | .ifElse arms orElse => w.arrange (armRows arms) ++ leavesOfOptionBlock orElse
  | .whileLoop test body orElse =>
    test.leaves w ++ (leavesOfBlock body ++ leavesOfOptionBlock orElse)
  | .forLoop targets _ sequence body orElse =>
    sequence.leaves w ++
      (leavesOfExprs w targets ++ (leavesOfBlock body ++ leavesOfOptionBlock orElse))
  | .withBlock items body => w.arrange (itemRows w items) ++ leavesOfBlock body
  | .raise value cause => leavesOfOption w value ++ leavesOfOption w cause
  | .tryBlock body handlers orElse atEnd =>
    leavesOfBlock body ++
      (w.arrange (handlerRows handlers) ++ (leavesOfOptionBlock orElse ++ leavesOfOptionBlock atEnd))
  | .print args => leavesOfExprs w args
  | .pass | .breakLoop | .continueLoop | .globals _ | .imports _ => []

def FuncDef.leaves : FuncDef → List Leaf
  | ⟨_, _, _, params, body, signature, _, _, _, earlier, symbol⟩ =>
    leavesOfParams w params ++ (leavesOfBlock body ++
      (signature.toList.map .signature ++ (earlier.toList.map .declares ++ [.declares symbol])))

def leavesOfFuncDefs : List FuncDef → List Leaf
  | [] => []
  | d :: rest => d.leaves ++ leavesOfFuncDefs rest

def leavesOfBlock : List Stmt → List Leaf
  | [] => []
  | s :: rest => s.leaves ++ leavesOfBlock rest

def leavesOfOptionBlock : Option (List Stmt) → List Leaf
  | none => []
  | some body => leavesOfBlock body

/-- The condition and the body of each branch. -/
def armRows : List Arm → List (List Leaf × List Leaf × List Leaf)
  | [] => []
  | ⟨test, body⟩ :: rest => (test.leaves w, leavesOfBlock body, []) :: armRows rest

/-- The classes, the variable and the body of each handler. -/
def handlerRows : List Handler → List (List Leaf × List Leaf × List Leaf)
  | [] => []
  | ⟨type, v, body⟩ :: rest =>
    (leavesOfOption w type, leavesOfOption w v, leavesOfBlock body) :: handlerRows rest

end

/-! ### Lists -/

theorem leavesOfExprs_eq (items : List Expr) :
    leavesOfExprs w items = items.flatMap (·.leaves w) := by
  induction items with
  | nil => rfl
  | cons e rest ih => rw [leavesOfExprs, ih, List.flatMap_cons]

theorem clauseRows_eq (clauses : List Clause) :
    clauseRows w clauses = clauses.map fun c =>
      (c.sequence.leaves w, leavesOfExprs w c.targets, leavesOfExprs w c.conditions) := by
  induction clauses with
  | nil => rfl
  | cons c rest ih =>
    obtain ⟨targets, sequence, conditions⟩ := c
    rw [clauseRows, ih, List.map_cons]

theorem armRows_eq (arms : List Arm) :
    armRows w arms = arms.map fun a => (a.test.leaves w, leavesOfBlock w a.body, []) := by
  induction arms with
  | nil => rfl
  | cons a rest ih =>
    obtain ⟨test, body⟩ := a
    rw [armRows, ih, List.map_cons]

theorem handlerRows_eq (handlers : List Handler) :
    handlerRows w handlers = handlers.map fun h =>
      (leavesOfOption w h.type, leavesOfOption w h.var, leavesOfBlock w h.body) := by
  induction handlers with
  | nil => rfl
  | cons h rest ih =>
    obtain ⟨type, v, body⟩ := h
    rw [handlerRows, ih, List.map_cons]

end

end Gradual
