import Gradual.Checker.ArgBinding
import Gradual.Checker.ClassTypes
import Gradual.Checker.Inference

/-!
Calls: the arguments are inferred, with the types of their formals in view, then counted and
compared with the formals; a function of several signatures is called by the first that accepts the
arguments.
-/

namespace Gradual

/-- A value that goes into a call or an assignment: an action that infers its type, given the type
that is expected, and the name of the function if the value is what a call returns. -/
structure Operand where
  accept : Option Ty → Check Ty
  call : Option String

/-- A value whose type is known already. -/
def Operand.known (type : Ty) : Operand := ⟨fun _ => return type, none⟩

/-- An actual argument of a call. -/
structure Arg where
  shape : ArgShape
  operand : Operand

def Arg.positional (operand : Operand) : Arg := ⟨⟨.pos, none⟩, operand⟩

/-- An actual argument whose type has been inferred. -/
structure Given where
  shape : ArgShape
  type : Ty
  call : Option String

namespace Given

/-- The type that a formal gets to see: of a collection of arguments, that of its items. -/
def seenType (g : Given) : Ty :=
  match g.shape.kind, g.type with
  | .star, .inst _ name args => if name = "builtins.list" then args.headD .any else .any
  | .star2, .inst _ name args =>
    if name = "builtins.dict" then args.tail.headD .any else .any
  | .star, _ | .star2, _ => .any
  | .pos, type | .opt, type | .named, type => type

end Given

/-- The formals of a signature, each paired with the positions of the arguments that it gets. -/
def Signature.withBound (s : Signature) (bound : ArgBinding.Bound) : List (Ty × Nat) :=
  (s.argTypes.zip bound).flatMap fun (formal, actuals) => actuals.map fun i => (formal, i)

/-- What a call is checked to be: the type of its result and the function, with its type arguments,
that was called. -/
structure CallResult where
  type : Ty
  callee : Ty

def CallResult.dynamic : CallResult := ⟨.any, .any⟩

namespace TypeOrder

/-- Does a signature accept arguments of these types? Its type variables accept everything. -/
def accepts (o : TypeOrder) (s : Signature) (given : List Given) : Bool :=
  let shapes := given.map (·.shape)
  let bound := ArgBinding.bind s shapes
  (List.range given.length).all (fun i => bound.any (·.contains i))
    && (!ArgBinding.lacksRequired s bound || ArgBinding.hasStar shapes)
    && (s.withBound bound).all fun (formal, i) =>
      given[i]?.all fun g => o.isSubtype g.seenType formal.erase

end TypeOrder

namespace Check

/-- The type that is expected of an argument: that of the first formal it goes to that mentions no
type variables. -/
def argContext? (s : Signature) (bound : ArgBinding.Bound) (i : Nat) (shape : ArgShape) :
    Option Ty :=
  if shape.kind.isStar then none
  else ((s.withBound bound).find? fun (formal, j) => j == i && !formal.hasTypeVars).map (·.1)

/-- Infers the types of arguments, expecting of each what `context` says about its position. -/
def giveFrom (context : Nat → ArgShape → Option Ty) : (i : Nat) → List Arg → Check (List Given)
  | _, [] => return []
  | i, arg :: rest => do
    let type ← arg.operand.accept (context i arg.shape)
    return ⟨arg.shape, type, arg.operand.call⟩ :: (← giveFrom context (i + 1) rest)

/-- Infers arguments of which nothing is expected. -/
def giveAll (args : List Arg) : Check (List Given) := giveFrom (fun _ _ => none) 0 args

/-- The value that a restricted type variable stands for: the one that is the inferred type, or else
the first that it is a subtype of. -/
def allowedValue? (o : TypeOrder) (values : List Ty) (inferred : Ty) : Option Ty :=
  (values.find? inferred.isSame).or (values.find? (o.isSubtype inferred))

/-- Infers the type argument for one type variable, at a position, of a function: the join of what
the arguments say or, where they say nothing, of what the expected result says. -/
def typeArgument (callee : Signature) (fromArgs fromContext : Constraints) (span : Span)
    (position : Nat) (v : TypeVar) : Check Ty := do
  let o := (← read).order
  let bounds := match fromArgs.of v.id with
    | [] => fromContext.of v.id
    | bounds => bounds
  let inferred := match bounds with
    | [] => .noneType
    | first :: rest => rest.foldl o.join first
  if inferred.isError then
    report (.noTypeArgument position callee) span
    return .any
  if v.values.isEmpty || inferred.isDynamic || inferred.isNoneType then return inferred
  match allowedValue? o v.values inferred with
  | some value => return value
  | none =>
    report (.typeArgumentValue position callee inferred) span
    return inferred

/-- Infers the type arguments of a function from the position `i` on. -/
def typeArguments (callee : Signature) (fromArgs fromContext : Constraints) (span : Span) :
    (i : Nat) → List TypeVar → Check TypeArgs
  | _, [] => return []
  | i, v :: rest => do
    let type ← typeArgument callee fromArgs fromContext span (i + 1) v
    return (v.id, type) :: (← typeArguments callee fromArgs fromContext span (i + 1) rest)

/-- A generic function with the type arguments that a call gives it. -/
def applied (callee : Signature) (given : List Given) (bound : ArgBinding.Bound) (span : Span) :
    Check Signature := do
  let o := (← read).order
  let fromArgs := (callee.withBound bound).flatMap fun (formal, i) =>
    (given[i]?.map fun g => o.constraints formal g.seenType).getD []
  let fromContext := match ← expectedType with
    | some type => if type.isDynamic then [] else o.constraints callee.ret type
    | none => []
  let args ← typeArguments callee fromArgs fromContext span 0 callee.quantified
  return { callee.expand args with quantified := [] }

/-- Reports the arguments from the position `i` on that no formal takes; of positional ones, only
the first. -/
def reportUnbound (callee : Signature) (bound : ArgBinding.Bound) (span : Span) :
    (i : Nat) → (tooMany : Bool) → List ArgShape → Check Bool
  | _, tooMany, [] => return tooMany
  | i, tooMany, shape :: rest => do
    if bound.any (·.contains i) then
      reportUnbound callee bound span (i + 1) tooMany rest
    else
      match shape.kind with
      | .named =>
        report (.arity (.unexpectedKeyword (shape.name.getD "")) callee.name) span
        reportUnbound callee bound span (i + 1) tooMany rest
      | .pos | .opt =>
        if !tooMany then report (.arity .tooMany callee.name) span
        reportUnbound callee bound span (i + 1) true rest
      | .star | .star2 => reportUnbound callee bound span (i + 1) tooMany rest

/-- Reports arguments that no formal takes and formals that are left without an argument. -/
def checkCount (callee : Signature) (shapes : List ArgShape) (bound : ArgBinding.Bound)
    (span : Span) : Check Unit := do
  let tooMany ← reportUnbound callee bound span 0 false shapes
  if ArgBinding.lacksRequired callee bound && !ArgBinding.hasStar shapes && !tooMany then
    report (.arity .tooFew callee.name) span

/-- Compares an argument, at a position, with the formal that it goes to. -/
def checkArgument (callee : Signature) (formal : Ty) (i : Nat) (g : Given) (span : Span) :
    Check Unit := do
  if g.seenType.isVoid then report (.noValue g.call) span
  else if !(← isSubtype g.seenType formal) then
    report (.argument (i + 1) callee.name g.seenType formal) span

/-- Compares the arguments with their formals. -/
def checkArguments (callee : Signature) (given : List Given) (bound : ArgBinding.Bound)
    (span : Span) : Check Unit :=
  (callee.withBound bound).forM fun (formal, i) =>
    match given[i]? with
    | some g => checkArgument callee formal i g span
    | none => return ()

/-- Checks a call whose arguments have been inferred. -/
def checkGiven (callee : Signature) (given : List Given) (bound : ArgBinding.Bound) (span : Span) :
    Check CallResult := do
  let callee ← if callee.quantified.isEmpty then pure callee else applied callee given bound span
  checkCount callee (given.map (·.shape)) bound span
  checkArguments callee given bound span
  return ⟨callee.ret, .callable callee⟩

/-- Reports a value that cannot be called. -/
def checkNotCallable (callee : Ty) (args : List Arg) (span : Span) : Check CallResult := do
  report (.notCallable callee) span
  discard <| giveAll args
  return .dynamic

/-- How often the instance that takes the place of a called instance may be an instance itself. -/
def maxCallSteps : Nat := 100000

/-- What is called when an instance is called: its method for that, and if that is an instance
again, the method of that one. -/
def resolveCallee (env : Env) (vars : VarTypes) : (steps : Nat) → Ty → Ty
  | steps + 1, .inst c n args =>
    match env.attributeType? vars "__call__" (.inst c n args) with
    | some callee => resolveCallee env vars steps callee
    | none => .inst c n args
  | _, callee => callee

/-- Checks a call. -/
def checkCall (callee : Ty) (args : List Arg) (span : Span) : Check CallResult := do
  let callee := resolveCallee (← read) (← get).vars maxCallSteps callee
  match callee with
  | .callable s =>
    let bound := ArgBinding.bind s (args.map (·.shape))
    let given ← giveFrom (argContext? s bound) 0 args
    checkGiven s given bound span
  | .overloaded items =>
    let given ← giveAll args
    match items.find? ((← read).order.accepts · given) with
    | some s => checkGiven s given (ArgBinding.bind s (args.map (·.shape))) span
    | none =>
      if let some first := items.head? then report (.noOverload first) span
      return .dynamic
  | .any | .error | .unbound _ =>
    discard <| giveAll args
    return .dynamic
  | callee => checkNotCallable callee args span

/-- Checks a call of a method with positional arguments. -/
def checkMethodCall (method : String) (base : Ty) (args : List Operand) (span : Span) :
    Check Ty := do
  let callee ← getAttribute method base span
  return (← checkCall callee (args.map Arg.positional) span).type

/-- Does a method accept an argument of this type as its first? -/
def acceptsFirst (o : TypeOrder) (type : Ty) (s : Signature) : Bool :=
  s.argTypes.head?.any (o.isSubtype type)

/-- The type that is expected of the argument of an operator. -/
def operatorContext? : Ty → Option Ty
  | .callable s => s.argTypes.head?.filter (!·.hasTypeVars)
  | _ => none

/-- Checks an operator by the method that implements it. -/
def checkOperator (method : String) (base : Ty) (arg : Operand) (op : String) (span : Span) :
    Check CallResult := do
  if base.isDynamic then
    discard <| arg.accept none
    return .dynamic
  match ← getAttribute? method base with
  | none =>
    report (.leftOperand op base) span
    discard <| arg.accept none
    return .dynamic
  | some type =>
    let argType ← arg.accept (operatorContext? type)
    let o := (← read).order
    match type with
    | .callable s =>
      if !acceptsFirst o argType s then report (.operands op base argType) span
      return ⟨s.ret, type⟩
    | .overloaded items =>
      match items.find? (acceptsFirst o argType) with
      | some s => return ⟨s.ret, .callable s⟩
      | none =>
        report (.operands op base argType) span
        return ⟨.any, type⟩
    | .any | .error | .unbound _ => return .dynamic
    | _ =>
      report (.leftOperand op base) span
      return .dynamic

end Check
end Gradual
