import Gradual.Checker.Copy
import Gradual.Checker.Expr
import Gradual.Checker.Override
import Gradual.Syntax.Nesting

/-!
Checking of statements. The rule for a statement takes the checks of the blocks in it as actions, so
that only the recursion at the end of the module looks at the tree. A function whose type variable
is restricted to some types is checked once for each of them, in a copy of its own.
-/

namespace Gradual

/-- The type of the values that a function yields, told from the type of its result. -/
def yieldedType? : Option Ty → Option Ty
  | some (.inst _ name args) => if name = "builtins.Iterator" then some (args.headD .any) else none
  | some type => if type.isDynamic then some .any else none
  | none => none

/-- The type variable for each of whose values a function is checked. -/
def FuncDef.restricted? (d : FuncDef) : Option TypeVar :=
  d.type.quantified.head?.filter (!·.values.isEmpty)

/-- A function as it is checked where its type variable stands for one type. -/
structure Instantiation where
  func : FuncDef
  signature : Signature
  note : String

namespace Check

/-! ### Results -/

def checkReturn (value : Option Expr) (span : Span) : Check Unit := do
  match (← scope).returnTypes.head?, value with
  | none, _ => return ()
  | some expected, some e =>
    let actual ← e.accept (some expected)
    if !actual.isAny then
      if expected.isVoid then report .noReturnValueExpected span
      else checkSubtype actual expected span .incompatibleReturn e.calledName?
  | some expected, none =>
    let isGenerator := (← scope).functions.head?.any (·.isGenerator)
    if !isGenerator && !expected.isVoid && !(← isDynamic) then report .returnValueExpected span

def checkYield (value : Expr) (span : Span) : Check Unit := do
  match yieldedType? (← scope).returnTypes.head? with
  | some expected =>
    let actual ← value.accept (some expected)
    checkSubtype actual expected span .incompatibleYield value.calledName?
  | none =>
    report .yieldOutsideIterator span
    discard <| value.accept none

/-! ### Assignments -/

/-- Assigns a value to the last target and then its type to the others. -/
def checkAssign (targets : List Expr) (value : Expr) : Check Unit := do
  match targets.getLast? with
  | none => discard <| value.accept none
  | some last =>
    assign (last.targets.map Expr.placedTarget) value.toValue value.span
    let type ← if ← isDynamic then pure .any else recorded value.id
    for target in targets.dropLast do
      assign (target.targets.map Expr.placedTarget) (.known type) value.span

/-- Checks the introduction of variables. The first of them decides whether the types are declared;
otherwise those of local variables are inferred. -/
def checkVarDef (vars : List Var) (isLocal : Bool) (init : Option Expr) (span : Span) :
    Check Unit := do
  match vars with
  | [] => return ()
  | first :: others =>
    match init, ← typeOfVar first with
    | none, none => if isLocal && !(← isDynamic) then report .needsType span
    | none, some _ => return ()
    | some init, some type =>
      if others.isEmpty then
        discard <| assignOne (.typed type) init.toValue span (.incompatibleAssignment .toVariable)
      else
        let targets ← vars.mapM fun v => return .typed ((← typeOfVar v).getD .any)
        discard <| assignMany targets init.toValue span (.incompatibleAssignment .toVariable)
    | some init, none =>
      let type ← init.accept none
      if isLocal then inferTypes (vars.map fun v => some ⟨v, none⟩) type init.calledName? span

/-- Checks an assignment by an operator, whose result is stored in place of the left operand. -/
def checkOpAssign (op : BinaryOp) (target value : Expr) (span : Span) : Check Unit := do
  let type ← target.accept none
  match op.method? (← read).options.version with
  | none => discard <| value.accept none
  | some method =>
    let result := (← checkOperator method type value.operand op.symbol span).type
    match target.unwrapped.kind with
    | .index base index =>
      discard <| assignOne (.indexed (base.accept none) index.operand) (.known result) span
        (.incompatibleAssignment .toVariable)
    | _ => if !(← isSubtype result type) then report (.operatorResult op.symbol) span

def checkDel (target : Expr) : Check Unit := do
  match target.unwrapped.kind with
  | .index base index =>
    let type ← base.accept none
    discard <| checkMethodCall "__delitem__" type [index.operand] target.span
  | _ => return ()

/-! ### Branches and loops -/

/-- Infers a condition. -/
def checkCondition (test : Expr) : Check Unit := do
  checkHasValue (← test.accept none) test.calledName? test.span

/-- Checks a condition with what is done if it holds. A guard that never holds prunes that, and one
that always holds prunes the rest. -/
def checkArm (test : Expr) (body rest : Check Unit) : Check Unit := do
  checkCondition test
  match ← guard? test with
  | none =>
    body
    rest
  | some g =>
    match g.kind with
    | .alwaysFalse => rest
    | .alwaysTrue => narrowing (some g.narrowing) body
    | .overlapping =>
      narrowing (some g.narrowing) body
      rest

/-- The declared type of a variable that an expression refers to. -/
def declaredType (e : Expr) : Check Ty := do
  match e.unwrapped.kind with
  | .name ref =>
    match ref.symbol with
    | .var v => return (← typeOfVar v).getD .any
    | _ => return .any
  | _ => return .any

/-- Assigns the items of a loop to its variables, whose types may be declared. -/
def checkLoopTargets (targets : List Expr) (isAnnotated : Bool) (item : Ty) (span : Span) :
    Check Unit := do
  if isAnnotated then
    match ← targets.mapM fun e => return .typed (← declaredType e) with
    | [target] => discard <| assignOne target (.known item) span (.incompatibleAssignment .inFor)
    | targets => discard <| assignMany targets (.known item) span (.incompatibleAssignment .inFor)
  else assign (targets.map Expr.placedTarget) (.known item) span

def checkForTargets (targets : List Expr) (isAnnotated : Bool) (sequence : Expr) (span : Span) :
    Check Unit := do
  let item ← itemType sequence.operand sequence.span
  checkLoopTargets targets isAnnotated item span

/-- Enters a context, and calls what leaves it with the three arguments that describe an error. -/
def checkContext (manager : Expr) (target : Option Expr) : Check Unit := do
  let type ← manager.accept none
  let entered ← checkMethodCall "__enter__" type [] manager.span
  if let some target := target then
    assign (target.targets.map Expr.placedTarget) (.known entered) target.span
  discard <| checkMethodCall "__exit__" type (List.replicate 3 (.known .any)) manager.span

/-! ### Exceptions -/

/-- A raised value is an exception or the class of one. -/
def checkException (type : Ty) (span : Span) : Check Unit := do
  let base ← named "builtins.BaseException" []
  if type.isTypeObject then
    let constructed := (type.signatures.head?.map (·.ret)).getD .any
    if !(← isSubtype constructed base) then report .invalidException span
  else checkSubtype type base span .invalidException none

def checkRaised (e : Expr) : Check Unit := do checkException (← e.accept none) e.span

/-- The exceptions that a class stands for in a handler. -/
def caughtByClass (e : Expr) : Check Ty := do
  let type ← e.accept none
  if type.isDynamic then return .any
  let base ← named "builtins.BaseException" []
  if let some s := type.signatures.head? then
    if s.isTypeObject && (← isSubtype s.ret base) then return s.ret
  report .invalidException e.span
  return .any

/-- The exceptions that a tuple of classes stands for, given those of its items. -/
def caughtByTuple (e : Expr) (items : List Expr) (caught : Check (List Ty)) : Check Ty := do
  if items.isEmpty then
    report .unsupportedException e.span
    return .any
  let types ← caught
  store e.id (.tuple (← items.mapM fun item => recorded item.id))
  match types with
  | [] => return .any
  | first :: rest => rest.foldlM join first

end Check

open Check

mutual

/-- The exceptions that a handler catches: those of a class or of a tuple of classes. -/
def Expr.caught : Expr → Check Ty
  | ⟨id, span, kind⟩ => kind.caught ⟨id, span, kind⟩

/-- The same of what is inside the parentheses of an expression. -/
def ExprKind.caught (e : Expr) : ExprKind → Check Ty
  | .paren ⟨_, _, kind⟩ => kind.caught e
  | .tuple items => caughtByTuple e items (caughtByEach items)
  | _ => caughtByClass e

def caughtByEach : List Expr → Check (List Ty)
  | [] => return []
  | e :: rest => return (← e.caught) :: (← caughtByEach rest)

end

namespace Check

/-- Assigns the exception that a handler catches to its variable. -/
def checkCaught (type : Option Expr) (v : Option Expr) : Check Unit := do
  if let some type := type then
    let caught ← type.caught
    if let some v := v then assign [v.placedTarget] (.known caught) v.span

/-! ### Definitions -/

/-- The type of an argument in the body of its function. -/
def paramType (kind : ArgKind) (type : Ty) : Check Ty := do
  match kind with
  | .star => named "builtins.list" [type]
  | .star2 =>
    let key ← strType
    named "builtins.dict" [key, type]
  | .pos | .opt | .named => return type

def declareParam (v : Var) (kind : ArgKind) (type : Ty) : Check Unit := do
  setVar v (← paramType kind type)
  declareLocal v

/-- Checks the arguments, the defaults and the body of a function as its signature says. -/
def checkFuncBody (d : FuncDef) (s : Signature) (body : Check Unit) : Check Unit := do
  if d.owner.isSome && d.name == "__init__" && !s.ret.isVoid && !(← isDynamic) then
    report .initReturnType d.span
  for (p, type, kind) in d.params.zip (s.argTypes.zip s.argKinds) do
    declareParam p.var kind type
  for default in d.params.filterMap (·.default) do
    discard <| default.accept none
  returning s.ret body

/-- Makes a copy of a function in which a type variable stands for a type. -/
def instantiate (d : FuncDef) (v : TypeVar) (value : Ty) : Check Instantiation := do
  let s ← get
  let args : TypeArgs := [(v.id, value)]
  let (func, nextNode, vars) := d.instantiate args s.nextNode s.vars
  set { s with nextNode, vars }
  return ⟨func, d.type.expand args, "In instantiation with " ++ v.name ++ " = " ++ value.display⟩

/-- Checks a function, or each of its copies; `checkCopy` checks the body of one. -/
def checkFunc (d : FuncDef) (body : Check Unit) (checkCopy : Block → Check Unit) : Check Unit :=
  inFunction ⟨some d.name, d.signature.isNone, d.isGenerator⟩ do
    match d.restricted? with
    | none => inLocalScope (checkFuncBody d d.type body)
    | some v =>
      for i in ← v.values.mapM (instantiate d v) do
        inInstantiation i.note <| inLocalScope <|
          checkFuncBody i.func i.signature (checkCopy i.func.body)

/-- Compares a checked function with what it overrides and with what it stands in for. -/
def checkPlace (d : FuncDef) : Check Unit := do
  if let some c := d.owner then checkOverrides d.name c d.symbol.type d.span
  if let some earlier := d.earlier then
    if !(Ty.callable d.type).isSame earlier.type then report .conditionalRedefinition d.span

/-- Compares the checked definitions of a function of several signatures. -/
def checkOverloads (items : List FuncDef) (owner : Option ClassId) (symbol : FunctionSymbol)
    (span : Span) : Check Unit := do
  if items.any (·.isAbstract) && !items.all (·.isAbstract) then report .inconsistentAbstract span
  if let some c := owner then checkOverrides symbol.name c symbol.type span

/-- The type of a function that other functions wrap, the last one first. -/
def decoratedType (type : Ty) (decorators : List Expr) (span : Span) : Check Ty :=
  decorators.reverse.foldlM (fun type decorator => do
    let callee ← decorator.accept none
    return (← checkCall callee [.positional (.known type)] span).type) type

/-- Gives the variable of a wrapped function its type, under the name of the function. -/
def checkDecorators (d : FuncDef) (decorators : List Expr) (v : Var) (span : Span) :
    Check Unit := do
  let type ← decoratedType (.callable d.type) decorators span
  setVar v (type.mapSignatures (·.withName d.name))

end Check

mutual

/-- Checks a statement; `checkCopy` checks the bodies of copies of functions. -/
def Stmt.check (checkCopy : Block → Check Unit) : Stmt → Check Unit
  | ⟨span, kind⟩ => kind.check checkCopy span

def StmtKind.check (checkCopy : Block → Check Unit) (span : Span) : StmtKind → Check Unit
  | .varDef vars binding isTopLevel init =>
    checkVarDef vars (binding == .inFunction && !isTopLevel) init span
  | .func d => do
    d.check checkCopy
    checkPlace d
  | .overloaded items owner symbol => do
    checkEach checkCopy items
    checkOverloads items owner symbol span
  | .cls _ c body =>
    inClass c do
      checkBlock checkCopy body
      checkInherited c span
  | .decorated func decorators v => do
    func.check checkCopy
    checkPlace func
    checkDecorators func decorators v span
  | .assign targets value => checkAssign targets value
  | .opAssign op target value => checkOpAssign op target value span
  | .expr e => discard <| e.accept none
  | .ret value => checkReturn value span
  | .yield value => checkYield value span
  | .ifElse arms orElse => checkArms checkCopy (checkOption checkCopy orElse) arms
  | .whileLoop test body orElse => do
    checkCondition test
    checkBlock checkCopy body
    checkOption checkCopy orElse
  | .forLoop targets isAnnotated sequence body orElse => do
    checkForTargets targets isAnnotated sequence span
    checkBlock checkCopy body
    checkOption checkCopy orElse
  | .withBlock items body => do
    for (manager, target) in items do
      checkContext manager target
    checkBlock checkCopy body
  | .assert test => discard <| test.accept none
  | .raise value cause => do
    for e in value.toList ++ cause.toList do
      checkRaised e
  | .tryBlock body handlers orElse atEnd => do
    checkBlock checkCopy body
    checkHandlers checkCopy handlers
    checkOption checkCopy orElse
    checkOption checkCopy atEnd
  | .del target => checkDel target
  | .print args => do
    for e in args do
      discard <| e.accept none
  | .pass | .breakLoop | .continueLoop | .globals _ | .imports _ => return ()

def FuncDef.check (checkCopy : Block → Check Unit) : FuncDef → Check Unit
  | ⟨name, fullName, owner, params, body, signature, isGenerator, span, isAbstract, earlier,
      symbol⟩ =>
    checkFunc
      ⟨name, fullName, owner, params, body, signature, isGenerator, span, isAbstract, earlier,
        symbol⟩
      (checkBlock checkCopy body) checkCopy

def checkEach (checkCopy : Block → Check Unit) : List FuncDef → Check Unit
  | [] => return ()
  | d :: rest => do
    d.check checkCopy
    checkEach checkCopy rest

def checkBlock (checkCopy : Block → Check Unit) : List Stmt → Check Unit
  | [] => return ()
  | s :: rest => do
    s.check checkCopy
    checkBlock checkCopy rest

def checkOption (checkCopy : Block → Check Unit) : Option (List Stmt) → Check Unit
  | none => return ()
  | some body => checkBlock checkCopy body

def checkArms (checkCopy : Block → Check Unit) (orElse : Check Unit) : List Arm → Check Unit
  | [] => orElse
  | ⟨test, body⟩ :: rest =>
    checkArm test (checkBlock checkCopy body) (checkArms checkCopy orElse rest)

def checkHandlers (checkCopy : Block → Check Unit) : List Handler → Check Unit
  | [] => return ()
  | ⟨type, v, body⟩ :: rest => do
    checkCaught type v
    checkBlock checkCopy body
    checkHandlers checkCopy rest

end

/-- Checks a block in which function definitions are nested at most so deeply. The definitions in a
copy of a body are nested less deeply than the function. -/
def checkNested : (depth : Nat) → Block → Check Unit
  | 0 => checkBlock fun _ => return ()
  | depth + 1 => checkBlock (checkNested depth)

/-- Checks a block. -/
def Block.check (b : Block) : Check Unit := checkNested (blockNesting b) b

end Gradual
