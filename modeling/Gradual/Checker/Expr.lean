import Gradual.Checker.Display
import Gradual.Checker.Guard
import Gradual.Checker.Iteration

/-!
Inference of expressions. To the rules an expression is a part of what is around it: something whose
type can be inferred and which can be the target of an assignment. The part of an expression is made
from the parts of the expressions in it, so no rule looks at the tree.
-/

namespace Gradual

/-- What can be done with an expression. -/
structure Rules where
  /-- Infers and records the type, given the type that is expected. -/
  accept : Option Ty → Check Ty
  /-- Finds out what the expression needs as the target of an assignment. -/
  target : Check Target

/-- An expression as the rules see it. -/
structure Part where
  id : NodeId
  span : Span
  operand : Operand
  target : Check Target

/-- A `for` of a comprehension as the rules see it. -/
structure ClausePart where
  targets : List Part
  sequence : Part
  conditions : List Part

namespace Check

/-- Infers the type of an expression in which a type is expected and records it. Around it, in code
that declares no types, it counts as dynamic. -/
def acceptAs (id : NodeId) (infer : Check Ty) (expected : Option Ty) : Check Ty := do
  let type ← expecting expected infer
  store id type
  return if ← isDynamic then .any else type

end Check

namespace Rules

open Check

/-- The rules of an expression that has a type of its own as a target. -/
def ofInfer (id : NodeId) (infer : Check Ty) : Rules :=
  ⟨acceptAs id infer, return .typed (← acceptAs id infer none)⟩

/-- A variable as a target: it has a type or gets one. -/
def variableTarget (id : NodeId) (v : Var) : Check Target := do
  match ← typeOfVar v with
  | some type =>
    store id type
    return .typed type
  | none => return .inferred v

/-! ### Names and attributes -/

def inferName (ref : NameRef) (span : Span) : Check Ty := do
  match ref.symbol with
  | .var v =>
    match (← scope).binder.get? (← get).vars v with
    | some type => return type
    | none =>
      if !(← isDynamic) then report (.unknownType ref.name) span
      return .any
  | .func f => return f.type
  | .cls c => return (← read).typeObject c
  | .module _ | .typeVar _ => return .any

def name (id : NodeId) (span : Span) (ref : NameRef) : Rules :=
  let plain := ofInfer id (inferName ref span)
  match ref.isDef, ref.symbol with
  | true, .var v => { plain with target := variableTarget id v }
  | _, _ => plain

def memberTarget (id : NodeId) (span : Span) (base : Part) (name : String) (defined : Option Var)
    (isDef : Bool) : Check Target := do
  let type ← base.operand.accept none
  if isDef then
    match defined with
    | some v => variableTarget id v
    | none => return .typed .any
  else
    let type ← getAttribute name type span
    store id type
    return .typed type

def member (id : NodeId) (span : Span) (base : Part) (name : String) (defined : Option Var)
    (isDef : Bool) : Rules :=
  ⟨acceptAs id do getAttribute name (← base.operand.accept none) span,
    memberTarget id span base name defined isDef⟩

/-! ### Operators -/

def inferUnary (op : UnaryOp) (operand : Part) (span : Span) : Check Ty := do
  let type ← operand.operand.accept none
  match op.method? with
  | none => boolType
  | some method =>
    if type.isDynamic then return .any
    match ← getAttribute? method type with
    | some callee => return (← checkCall callee [] span).type
    | none =>
      report (.unaryOperand op.symbol type) span
      return .any

def inferBinary (op : BinaryOp) (left right : Part) (span : Span) : Check Ty := do
  match op with
  | .and | .or =>
    let l ← left.operand.accept none
    let r ← right.operand.accept none
    join l r
  | .same | .notSame =>
    discard <| left.operand.accept none
    discard <| right.operand.accept none
    boolType
  | .isIn | .isNotIn =>
    let container ← right.operand.accept none
    discard <| checkOperator "__contains__" container left.operand op.symbol span
    boolType
  | op =>
    let l ← left.operand.accept none
    match op.method? (← read).options.version with
    | some method => return (← checkOperator method l right.operand op.symbol span).type
    | none =>
      discard <| right.operand.accept none
      return .any

/-- An item of a tuple, by a position that may count from the end. -/
def tupleItem? (items : List Ty) (position : Int) : Option Ty :=
  let position := if position < 0 then position + items.length else position
  if position < 0 then none else items[position.toNat]?

def inferIndex (base index : Part) (literal : Option Int) (span : Span) : Check Ty := do
  match ← base.operand.accept none with
  | .tuple items =>
    discard <| index.operand.accept none
    match literal with
    | none =>
      report .tupleIndexLiteral span
      return .any
    | some n =>
      match tupleItem? items n with
      | some item => return item
      | none =>
        report .tupleIndexRange span
        return .any
  | type => checkMethodCall "__getitem__" type [index.operand] span

/-! ### Generic functions -/

/-- A generic function with type arguments put in, if it takes that many. -/
def applyTypes? (types : List Ty) (s : Signature) : Option Signature :=
  if s.quantified.length = types.length then
    some { s.expand ((s.quantified.map (·.id)).zip types) with quantified := [] }
  else none

def inferTypeApplication (inner : Part) (types : List Ty) (span : Span) : Check Ty := do
  let type ← inner.operand.accept none
  let applied? : Option Ty := match type with
    | .callable s => (applyTypes? types s).map .callable
    | .overloaded items => (items.mapM (applyTypes? types)).map .overloaded
    | type => if type.isDynamic then some .any else none
  match applied? with
  | some applied => return applied
  | none =>
    let expected := (type.signatures.head?.map (·.quantified.length)).getD 0
    report (.typeApplication expected types.length) span
    return .any

/-! ### Slices, functions without a name, comprehensions -/

def inferSlice (bounds : List Part) : Check Ty := do
  let int ← named "builtins.int" []
  for bound in bounds do
    let type ← bound.operand.accept none
    if !(← isSubtype type int) then report .sliceIndex bound.span
  named "builtins.slice" []

/-- The arguments take their types from an expected function type of as many arguments. -/
def inferLambda (params : List (Var × ArgKind)) (body : Part) : Check Ty := do
  let (argTypes, result) ← match ← expectedType with
    | some (.callable s) =>
      pure (if s.argTypes.length = params.length then (s.argTypes, some s.ret)
        else (params.map fun _ => .any, none))
    | _ => pure (params.map fun _ => .any, none)
  let frame : Frame := ⟨none, ← isDynamic, false⟩
  let type ← inFunction frame <| inLocalScope do
    for ((v, _), type) in params.zip argTypes do
      setVar v type
      declareLocal v
    body.operand.accept result
  return .callable <|
    .ofFormals argTypes (params.map (·.2)) (params.map fun (v, _) => some v.name) type

/-- Binds the targets of a `for` of a comprehension and infers its conditions. -/
def checkClause (span : Span) (c : ClausePart) : Check Unit := do
  let item ← itemType c.sequence.operand c.sequence.span
  assign (c.targets.map fun t => (t.id, t.target)) (.known item) span
  for condition in c.conditions do
    discard <| condition.operand.accept none

/-- An instance of a class whose only type argument is the type of what a comprehension gives. -/
def inferComprehension (fullName : String) (left : Part) (clauses : List ClausePart)
    (span : Span) : Check Ty := do
  let expected ← expectedItem? fullName
  for c in clauses do
    checkClause span c
  let item ← left.operand.accept expected
  named fullName [item]

def inferConditional (cond : Expr) (condition ifTrue ifFalse : Part) : Check Ty := do
  let expected ← expectedType
  discard <| condition.operand.accept none
  let guard ← guard? cond
  let t ← narrowing (guard.map (·.narrowing)) (ifTrue.operand.accept expected)
  let f ← ifFalse.operand.accept expected
  join t f

/-! ### Targets with items -/

/-- The type that a target states inside a display of targets. A variable without a type becomes
dynamic. -/
def nestedTargetType : Target → Check Ty
  | .typed type => return type
  | .inferred v => do
    inferVar v .any
    return .any
  | .indexed .. => return .any

/-- A display of targets inside a target. -/
def displayTarget (items : List Part) : Check Target :=
  return .typed (.tuple (← items.mapM fun item => do nestedTargetType (← item.target)))

/-- The item operands of a display with their places. -/
def placed (items : List Part) : List (Operand × Span) := items.map fun p => (p.operand, p.span)

end Rules

open Check Rules

mutual

def Expr.part : Expr → Part
  | ⟨id, span, kind⟩ =>
    let rules := kind.rules id span
    ⟨id, span, ⟨rules.accept, Expr.calledName? ⟨id, span, kind⟩⟩, rules.target⟩

def ExprKind.rules (id : NodeId) (span : Span) : ExprKind → Rules
  | .name ref => Rules.name id span ref
  | .member base name defined isDef => Rules.member id span base.part name defined isDef
  | .call callee args =>
    ofInfer id do
      return (← checkCall (← callee.part.operand.accept none) (argParts args) span).type
  | .paren inner =>
    let part := inner.part
    ⟨acceptAs id do part.operand.accept (← expectedType), part.target⟩
  | .int _ => ofInfer id (named "builtins.int" [])
  | .float => ofInfer id (named "builtins.float" [])
  | .str _ => ofInfer id strType
  | .bytes _ =>
    ofInfer id do
      if 3 ≤ (← read).options.version then named "builtins.bytes" [] else strType
  | .unicode _ =>
    ofInfer id do
      if 3 ≤ (← read).options.version then strType else named "builtins.unicode" []
  | .binary op left right => ofInfer id (inferBinary op left.part right.part span)
  | .unary op operand => ofInfer id (inferUnary op operand.part span)
  | .index base index =>
    let (b, i) := (base.part, index.part)
    ⟨acceptAs id (inferIndex b i index.intLiteral? span),
      return .indexed (b.operand.accept none) i.operand⟩
  | .cast inner type =>
    ofInfer id do
      discard <| inner.part.operand.accept none
      return type
  | .super name => ofInfer id (superAttribute name span)
  | .typeApplication inner types => ofInfer id (inferTypeApplication inner.part types span)
  | .typeVar _ => ofInfer id (return .any)
  | .list items =>
    let parts := partsOf items
    ⟨acceptAs id (sequenceDisplay .list (placed parts)), displayTarget parts⟩
  | .set items => ofInfer id (sequenceDisplay .set (placed (partsOf items)))
  | .tuple items =>
    let parts := partsOf items
    ⟨acceptAs id (tupleDisplay (parts.map (·.operand))), displayTarget parts⟩
  | .dict items => ofInfer id (dictDisplay (entryParts items) span)
  | .slice first last stride =>
    ofInfer id (inferSlice (optionPart first ++ optionPart last ++ optionPart stride))
  | .lambda params body => ofInfer id (inferLambda params body.part)
  | .listComprehension left clauses =>
    ofInfer id (inferComprehension "builtins.list" left.part (clauseParts clauses) span)
  | .generator left clauses =>
    ofInfer id (inferComprehension "builtins.Iterator" left.part (clauseParts clauses) span)
  | .placeholder type => ofInfer id (return type.getD .any)
  | .conditional cond ifTrue ifFalse =>
    ofInfer id (inferConditional cond cond.part ifTrue.part ifFalse.part)

def partsOf : List Expr → List Part
  | [] => []
  | e :: rest => e.part :: partsOf rest

def argParts : List Actual → List Arg
  | [] => []
  | ⟨kind, name, value⟩ :: rest => ⟨⟨kind, name⟩, value.part.operand⟩ :: argParts rest

def entryParts : List (Expr × Expr) → List DictEntry
  | [] => []
  | (key, value) :: rest => ⟨key.part.operand, value.part.operand, key.span⟩ :: entryParts rest

def optionPart : Option Expr → List Part
  | none => []
  | some e => [e.part]

def clauseParts : List Clause → List ClausePart
  | [] => []
  | ⟨targets, sequence, conditions⟩ :: rest =>
    ⟨partsOf targets, sequence.part, partsOf conditions⟩ :: clauseParts rest

end

namespace Expr

/-- Infers and records the type of an expression, given the type that is expected. -/
def accept (e : Expr) (expected : Option Ty) : Check Ty := e.part.operand.accept expected

def operand (e : Expr) : Operand := e.part.operand

/-- A placeholder that is not told its type. -/
def isPlaceholder (e : Expr) : Bool :=
  match e.kind with
  | .placeholder none => true
  | _ => false

def toItem (e : Expr) : Item := ⟨e.id, e.span, e.operand, e.isPlaceholder⟩

/-- An expression as a value that is assigned. -/
def toValue (e : Expr) : Value :=
  let inner := e.unwrapped
  let form : ValueForm := match inner.kind with
    | .placeholder none => .placeholder e.id inner.id (!e.isPlaceholder)
    | .tuple items => .display e.id inner.id (items.map toItem)
    | _ => .expr
  ⟨e.operand, form⟩

/-- The targets of an assignment: a display of targets stands for its items. -/
def targets (e : Expr) : List Expr :=
  match e.unwrapped.kind with
  | .tuple items | .list items => items.map Expr.unwrapped
  | _ => [e.unwrapped]

/-- The target with its id. -/
def placedTarget (e : Expr) : NodeId × Check Target := (e.id, e.part.target)

end Expr
end Gradual
