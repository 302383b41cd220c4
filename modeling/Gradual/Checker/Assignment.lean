import Gradual.Checker.Call

/-!
Assignment: a value is compared with a target that has a type, stored through a target that is
indexed, and gives its type to a variable that has none. Several targets take the items of one
value.
-/

namespace Gradual

/-- What a target needs from the value that is assigned to it. -/
inductive Target where
  /-- A value of the type. -/
  | typed (type : Ty)
  /-- A call of the base with the index and the value. -/
  | indexed (base : Check Ty) (index : Operand)
  /-- A type for a variable. -/
  | inferred (v : Var)

namespace Target

/-- The type that a target states. -/
def type? : Target → Option Ty
  | .typed type => some type
  | .indexed .. | .inferred _ => none

/-- The variable that a target introduces. -/
def var? : Target → Option Var
  | .inferred v => some v
  | .typed _ | .indexed .. => none

end Target

/-- An item of a tuple display. -/
structure Item where
  id : NodeId
  span : Span
  operand : Operand
  isPlaceholder : Bool

/-- What the rules of assignment look at in a value. For an expression in parentheses `id` is
theirs and `inner` the id of what they hold. -/
inductive ValueForm where
  /-- A value whose type is known already. -/
  | known
  | expr
  /-- A value that is supplied later and fits everywhere. -/
  | placeholder (id inner : NodeId) (inParens : Bool)
  /-- A tuple that is written out. -/
  | display (id inner : NodeId) (items : List Item)

/-- A value that is assigned. -/
structure Value where
  operand : Operand
  form : ValueForm

def Value.known (type : Ty) : Value := ⟨.known type, .known⟩

/-- An item of a display as a value of its own. -/
def Item.toValue (item : Item) : Value :=
  ⟨item.operand, if item.isPlaceholder then .placeholder item.id item.id false else .expr⟩

/-- Is a type specific enough for a variable that has no other? -/
def Ty.isSpecific : Ty → Bool
  | .noneType | .void => false
  | .inst _ _ args => allSpecific args
  | .tuple items => allSpecific items
  | .any | .callable _ | .overloaded _ | .typeVar _ | .unbound _ | .error => true
where
  allSpecific : List Ty → Bool
    | [] => true
    | t :: ts => t.isSpecific && allSpecific ts

namespace Check

/-- Assigns a value to one target and answers its type, where it was inferred here. -/
def assignOne (target : Target) (value : Value) (span : Span) (p : Problem) :
    Check (Option Ty) := do
  match target, value.form with
  | .typed type, .placeholder id _ false =>
    store id type
    return some type
  | .typed type, _ =>
    let t ← value.operand.accept (some type)
    checkSubtype t type span p value.operand.call
    return some t
  | .indexed base index, _ =>
    let base ← base
    discard <| checkMethodCall "__setitem__" base [index, value.operand] span
    return none
  | .inferred _, _ => return some (← value.operand.accept none)

/-- Assigns one known type to each of several targets. -/
def assignKnown (targets : List Target) (types : List Ty) (span : Span) (p : Problem) :
    Check Unit :=
  (targets.zip types).forM fun (target, type) =>
    discard <| assignOne target (.known type) span p

/-- Assigns the items of a tuple display to targets, one each. -/
def assignItems (targets : List Target) (items : List Item) (p : Problem) : Check (List Ty) :=
  (targets.zip items).mapM fun (target, item) =>
    return (← assignOne target item.toValue item.span p).getD .any

/-- The tuple that targets ask for, given the types of the items that are there. -/
def wantedTuple (targets : List Target) (items : List Ty) : Ty :=
  .tuple ((targets.mapIdx fun i target => target.type?.or items[i]?).filterMap id)

/-- Assigns the items of a value of a known type to targets. -/
def unpack (targets : List Target) (type : Ty) (span : Span) (p : Problem) : Check Unit :=
  match type with
  | .tuple items =>
    if items.length = targets.length then assignKnown targets items span p
    else report (.valueCount targets.length items.length) span
  | .inst _ name args =>
    if name = "builtins.list" then
      assignKnown targets (targets.map fun _ => args.headD .any) span p
    else report p span
  | .any | .error | .unbound _ => assignKnown targets (targets.map fun _ => .any) span p
  | _ => report p span

/-- Assigns the items of a value to several targets and answers the type of the value. -/
def assignMany (targets : List Target) (value : Value) (span : Span) (p : Problem) :
    Check Ty := do
  match value.form with
  | .placeholder _ inner _ =>
    let type := .tuple (targets.map fun target => target.type?.getD .any)
    store inner type
    return type
  | .display id inner items =>
    if items.length = targets.length then
      let type := .tuple (← assignItems targets items p)
      store inner type
      store id type
      return type
    else
      report (.valueCount targets.length items.length) span
      discard <| value.operand.accept none
      return .any
  | .known =>
    let type ← value.operand.accept none
    unpack targets type span p
    return type
  | .expr =>
    -- A tuple is inferred again with the declared types of its targets in view.
    let type ← match ← value.operand.accept none with
      | .tuple items => value.operand.accept (some (wantedTuple targets items))
      | type => pure type
    unpack targets type span p
    return type

/-- A variable that gets its type from a value, and the occurrence that introduces it. -/
structure Introduced where
  var : Var
  node : Option NodeId

/-- Gives a variable a type, if it still has none, and records what it has then. -/
def introduce (i : Introduced) (type : Ty) : Check Unit := do
  inferVar i.var type.stripped
  if let some node := i.node then store node ((← typeOfVar i.var).getD .any)

/-- Gives each variable the type at its place. -/
def introduceEach (names : List (Option Introduced)) (types : List Ty) : Check Unit :=
  (names.zip types).forM fun (name, type) =>
    match name with
    | some i => introduce i type
    | none => return ()

/-- The types of so many items of a value. -/
def itemTypes (count : Nat) : Ty → List Ty
  | .tuple items => if items.length = count then items else List.replicate count .any
  | .inst _ name args =>
    List.replicate count (if name = "builtins.list" then args.headD .any else .any)
  | _ => List.replicate count .any

/-- Gives variables without types those of a value or of its items. -/
def inferTypes (names : List (Option Introduced)) (type : Ty) (call : Option String)
    (span : Span) : Check Unit := do
  if type.isVoid then
    report (.noValue call) span
    introduceEach names (names.map fun _ => .any)
  else if !type.isSpecific then
    report .needsType span
    introduceEach names (names.map fun _ => .any)
  else
    match names with
    | [name] => introduceEach [name] [type]
    | names => introduceEach names (itemTypes names.length type)

/-- Assigns a value to the targets of an assignment, each given with its id. -/
def assign (targets : List (NodeId × Check Target)) (value : Value) (span : Span) :
    Check Unit := do
  match targets with
  | [(node, target)] =>
    match ← target with
    | .inferred v =>
      let type ← value.operand.accept none
      inferTypes [some ⟨v, some node⟩] type value.operand.call span
    | target => discard <| assignOne target value span (.incompatibleAssignment .toVariable)
  | targets =>
    let kinds ← targets.mapM fun (_, target) => target
    let type ← assignMany kinds value span (.incompatibleAssignment .toVariable)
    if kinds.any (·.var?.isSome) then
      let names := (targets.zip kinds).map fun ((node, _), kind) =>
        kind.var?.map fun v => ⟨v, some node⟩
      inferTypes names type value.operand.call span

end Check
end Gradual
