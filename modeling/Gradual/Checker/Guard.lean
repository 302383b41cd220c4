import Gradual.Checker.State

/-!
Guards: a condition that tests whether a variable is an instance of a class narrows the variable to
that class where the condition holds. Some guards are decided by the type of the variable alone.
-/

namespace Gradual

/-- The name of a called function or method, if the expression is a call of one by name. -/
def Expr.calledName? (e : Expr) : Option String :=
  match e.unwrapped.kind with
  | .call callee _ =>
    match callee.unwrapped.kind with
    | .name ref => some ref.name
    | .member _ name _ _ => some name
    | _ => none
  | _ => none

/-- The value of an integer that is written out, perhaps with a sign. -/
def Expr.intLiteral? (e : Expr) : Option Int :=
  match e.unwrapped.kind with
  | .int n => some n
  | .unary .neg operand =>
    match operand.unwrapped.kind with
    | .int n => some (-n)
    | _ => none
  | _ => none

/-- What an instance test is about: the variable and the expression that names the class. -/
structure InstanceTest where
  var : Var
  cls : NodeId

/-- Recognises a test of a plain variable against a class. -/
def Expr.instanceTest? (e : Expr) : Option InstanceTest :=
  match e.unwrapped.kind with
  | .call callee [subject, cls] =>
    match callee.unwrapped.kind, subject.value.unwrapped.kind with
    | .name f, .name ref =>
      match ref.symbol with
      | .var v => if f.fullName = "builtins.isinstance" then some ⟨v, cls.value.id⟩ else none
      | _ => none
    | _, _ => none
  | _ => none

/-- What is known about the outcome of a guard. -/
inductive GuardKind where
  | overlapping
  | alwaysTrue
  | alwaysFalse
  deriving DecidableEq, Repr

/-- A guard: the type that the variable has where the guard holds, and its outcome. -/
structure Guard where
  var : Var
  target : Ty
  kind : GuardKind

/-- The classes of which no two have an instance in common. -/
def primitiveClasses : List String :=
  ["builtins.int", "builtins.float", "builtins.str", "builtins.bytes"]

/-- May a value have both types? Only instances of different primitive classes are told apart. -/
def Ty.overlaps : Ty → Ty → Bool
  | .inst c m _, .inst d n _ =>
    c == d || !(primitiveClasses.contains m && primitiveClasses.contains n)
  | _, _ => true

/-- The instances of the class that a type object stands for. -/
def Ty.constructed? (t : Ty) : Option Ty :=
  match t.signatures.head? with
  | some s => if s.isTypeObject then some s.ret.erase else none
  | none => none

namespace Guard

/-- What the type of a variable, if it has one, says about a test against another type. -/
def kindOf (o : TypeOrder) (current : Option Ty) (target : Ty) : GuardKind :=
  match current with
  | some type =>
    if o.isProperSubtype type target then .alwaysTrue
    else if !type.overlaps target then .alwaysFalse
    else .overlapping
  | none => .overlapping

/-- Recognises a guard in a condition whose parts have been inferred. -/
def ofExpr? (o : TypeOrder) (types : TypeMap) (binder : Binder) (vars : VarTypes) (e : Expr) :
    Option Guard := do
  let test ← e.instanceTest?
  let target ← (← types[test.cls]?).constructed?
  return ⟨test.var, target, kindOf o (binder.get? vars test.var) target⟩

/-- The narrowing of the variable where the guard holds. -/
def narrowing (g : Guard) : Var × Ty := (g.var, g.target)

end Guard

/-- The guard that a condition is. -/
def Check.guard? (e : Expr) : Check (Option Guard) := do
  let s ← get
  return Guard.ofExpr? (← read).order s.types s.scope.binder s.vars e

end Gradual
