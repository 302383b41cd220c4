import Gradual.Checker.State

/-!
The types of classes and of their attributes: a class as a value is its constructor, and an
attribute is found along the lookup order and seen through the type arguments of the instance.
-/

namespace Gradual.Env

/-- An instance of a named class, whether it is there or not. -/
def typeOfName (env : Env) (fullName : String) : Ty :=
  match env.program.lookupClass fullName with
  | .ok c => .inst c fullName []
  | .error _ => .unbound fullName

/-- The type variables of a class. -/
def classVariables (env : Env) (c : ClassId) : List TypeVar :=
  let bound := env.typeOfName "builtins.object"
  (env.classes.info c).typeVars.mapIdx fun i name => .plain name (i + 1) bound

/-- The class as its own body sees it, with its type variables as type arguments. -/
def selfInstance (env : Env) (c : ClassId) : Instance :=
  env.classes.instanceOf c ((env.classVariables c).map .typeVar)

/-- A type from the body of the class `sup` in terms of the type variables of a class that derives
from it. -/
def fromSupertype (env : Env) (type : Ty) (sub sup : ClassId) : Ty :=
  match env.classes.view? (env.selfInstance sub) sup with
  | some view => type.expandBy view.args
  | none => type

/-- The signatures of the constructor of a class, without the receiver. -/
def initSignatures (env : Env) (c : ClassId) : List Signature :=
  let init? := (env.classes.mro c).findSome? fun owner =>
    match env.classes.own? owner "__init__" with
    | some (.func f) => some (owner, f.type)
    | _ => none
  match init? with
  | some (owner, type) => (env.fromSupertype type c owner).signatures.map (·.bound)
  | none => [.positional [] .void]

/-- A class used as a value: calling it creates an instance. -/
def typeObject (env : Env) (c : ClassId) : Ty :=
  let constructor (s : Signature) : Signature :=
    { s with
      ret := (env.selfInstance c).toTy
      quantified := env.classVariables c ++ s.quantified
      isTypeObject := true
      name := some (env.classes.info c).name }
  match (env.initSignatures c).map constructor with
  | [s] => .callable s
  | items => .overloaded items

/-- The first of some classes that declares a name, and what it declares. -/
def firstDeclaring (env : Env) (owners : List ClassId) (name : String) :
    Option (ClassId × Symbol) :=
  owners.findSome? fun owner => (env.classes.own? owner name).map fun symbol => (owner, symbol)

/-- An attribute along the lookup order of a class. -/
def attribute? (env : Env) (c : ClassId) (name : String) : Option (ClassId × Symbol) :=
  env.firstDeclaring (env.classes.mro c) name

/-- The type of an attribute of an instance. A method has lost its receiver. -/
def instanceAttribute? (env : Env) (vars : VarTypes) (name : String) (i : Instance) :
    Option Ty := do
  let (owner, symbol) ← env.attribute? i.cls name
  let seen (type : Ty) : Ty :=
    match env.classes.view? i owner with
    | some view => type.expandBy view.args
    | none => type
  return match symbol with
    | .func f => seen f.type.boundMethod
    | .var v => ((vars.get? v).map seen).getD .any
    | .cls c => env.typeObject c
    | .module _ | .typeVar _ => .any

/-- The type of an attribute of the class itself. A method keeps its receiver. -/
def classAttribute? (env : Env) (vars : VarTypes) (name : String) (c : ClassId) : Option Ty := do
  let (_, symbol) ← env.attribute? c name
  return match symbol with
    | .func f => f.type
    | .var v => (vars.get? v).getD .any
    | .cls c => env.typeObject c
    | .module _ | .typeVar _ => .any

/-- The type of an attribute of an instance of a named class. -/
def namedAttribute? (env : Env) (vars : VarTypes) (name fullName : String) : Option Ty :=
  (env.typeOfName fullName).toInstance?.bind (env.instanceAttribute? vars name)

/-- The type of an attribute of a function or of a class used as a value. -/
def functionAttribute? (env : Env) (vars : VarTypes) (name : String) (items : List Signature) :
    Option Ty :=
  match items.head? with
  | some s =>
    if s.isTypeObject then
      (s.typeObjectClass?.bind (env.classAttribute? vars name)).or
        (env.namedAttribute? vars name "builtins.type")
    else env.namedAttribute? vars name "builtins.function"
  | none => env.namedAttribute? vars name "builtins.function"

/-- The type of an attribute of a value. A dynamic value has every attribute. -/
def attributeType? (env : Env) (vars : VarTypes) (name : String) : Ty → Option Ty
  | .any | .error | .unbound _ => some .any
  | .inst c n args => env.instanceAttribute? vars name ⟨c, n, args⟩
  | .tuple _ => env.namedAttribute? vars name "builtins.tuple"
  | .typeVar ⟨_, _, _, upperBound⟩ => env.attributeType? vars name upperBound
  | .callable s => env.functionAttribute? vars name [s]
  | .overloaded items => env.functionAttribute? vars name items
  | .void | .noneType => none

end Gradual.Env

namespace Gradual.Check

/-- The type of an attribute of a value, if it has the attribute. -/
def getAttribute? (name : String) (base : Ty) : Check (Option Ty) :=
  return (← read).attributeType? (← get).vars name base

/-- The type of an attribute of a value, which should have the attribute. -/
def getAttribute (name : String) (base : Ty) (span : Span) : Check Ty := do
  match ← getAttribute? name base with
  | some type => return type
  | none =>
    report (.noAttribute base name) span
    return .any

/-- The type of an attribute looked up behind the innermost class. -/
def superAttribute (name : String) (span : Span) : Check Ty := do
  let env ← read
  match (← scope).classes.head? with
  | none =>
    report .superOutsideClass span
    return .any
  | some c =>
    match env.firstDeclaring (env.classes.mro c).tail name with
    | some (base, .func f) => return env.fromSupertype f.type.boundMethod c base
    | some (base, .var v) =>
      return ((← typeOfVar v).map fun type => env.fromSupertype type c base).getD .any
    | some _ => return .any
    | none =>
      report (.superNoAttribute name) span
      return .any

end Gradual.Check
