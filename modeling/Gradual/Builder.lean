import Gradual.ClassTable.Linearize
import Gradual.Syntax.Program

/-!
Programs under construction. A builder hands out the ids of expressions and variables, keeps the
class table with its lookup orders, and binds names in the module that is being filled.
-/

namespace Gradual

/-- The module in which every name is looked up last. -/
def builtinsName : String := "builtins"

/-- The classes that the language provides. -/
structure Builtins where
  object : ClassId
  type : ClassId
  function : ClassId
  int : ClassId
  float : ClassId
  str : ClassId
  bytes : ClassId
  unicode : ClassId
  bool : ClassId
  list : ClassId
  dict : ClassId
  set : ClassId
  tuple : ClassId
  slice : ClassId
  iterable : ClassId
  iterator : ClassId
  baseException : ClassId
  exception : ClassId

/-- A program under construction. -/
structure Builder where
  modules : Std.TreeMap String Module
  classes : ClassTable
  vars : VarTypes
  nextNode : NodeId
  /-- The module that names and statements are added to. -/
  current : String
  /-- The line of the nodes made from now on. -/
  line : Nat
  /-- The class that classes without a base derive from. -/
  object : Option ClassId
  builtins : Option Builtins

/-- A formal argument of a function that is yet to be defined. -/
structure ParamSpec where
  var : Var
  kind : ArgKind
  type : Option Ty
  default : Option Expr

namespace ParamSpec

/-- An argument with a default may be left out. -/
def withDefault (p : ParamSpec) (default : Expr) : ParamSpec :=
  { p with kind := .opt, default := some default }

def toParam (p : ParamSpec) : Param := ⟨p.var, p.kind, p.default⟩

end ParamSpec

/-- A function that is yet to be defined. -/
structure FuncSpec where
  name : String
  params : List ParamSpec
  ret : Option Ty
  quantified : List TypeVar
  body : Block
  isAbstract : Bool
  earlier : Option FunctionSymbol

/-- The declared signature: there is none if neither the result nor an argument behind the first
`skip` has a type. -/
def FuncSpec.signature? (f : FuncSpec) (skip : Nat) : Option Signature :=
  if f.ret.isSome || (f.params.drop skip).any (·.type.isSome) then
    some
      { Signature.ofFormals (f.params.map fun p => p.type.getD .any) (f.params.map (·.kind))
          (f.params.map fun p => some p.var.name) (f.ret.getD .any) with
        quantified := f.quantified }
  else none

abbrev Build := StateM Builder

namespace Builder

/-- Switches to a module, which is created if it is new. -/
def enterModule (name : String) : Build Unit :=
  modify fun b =>
    let modules :=
      if b.modules.contains name then b.modules
      else b.modules.insert name ⟨name, "/".intercalate (name.splitOn ".") ++ ".py", [], ∅⟩
    { b with modules, current := name }

/-- A builder that has only an empty module for what the language provides. -/
def bare : Builder :=
  let nothing : Builder :=
    { modules := ∅, classes := .empty, vars := .empty, nextNode := 0, current := "", line := 1
      object := none, builtins := none }
  ((enterModule builtinsName).run nothing).2

def toProgram (b : Builder) : Program := ⟨b.modules, b.classes, b.nextNode, b.vars⟩

def setLine (line : Nat) : Build Unit := modify fun b => { b with line }

/-- The span of the nodes made now. -/
def span (b : Builder) : Span := .atLine b.line

def modifyModule (f : Module → Module) : Build Unit :=
  modify fun b => { b with modules := b.modules.modify b.current f }

/-- Adds a statement to the current module. -/
def push (s : Stmt) : Build Unit := modifyModule fun m => { m with body := m.body ++ [s] }

/-- Binds a name in the current module. -/
def define (name : String) (symbol : Symbol) : Build Unit :=
  modifyModule fun m => { m with names := m.names.insert name ⟨.inModule, symbol⟩ }

/-- A name of the current module with the name of the module in front. -/
def qualify (b : Builder) (name : String) : String := b.current ++ "." ++ name

/-! ### Types -/

def instanceType (b : Builder) (c : ClassId) (args : List Ty) : Ty :=
  (b.classes.instanceOf c args).toTy

/-- The type of every value, or the dynamic type before there is a class for it. -/
def objectType (b : Builder) : Ty :=
  match b.object with
  | some c => b.instanceType c []
  | none => .any

/-- A type variable of a function; its id is made negative. -/
def functionTypeVar (b : Builder) (name : String) (id : Int) : TypeVar :=
  .plain name (-(id.natAbs : Int)) b.objectType

/-- The class as its own body sees it, with its type variables as type arguments. -/
def selfType (b : Builder) (c : ClassId) : Ty :=
  b.instanceType c <|
    (b.classes.info c).typeVars.mapIdx fun i name => .typeVar (.plain name (i + 1) b.objectType)

/-- An instance of a class that the language provides, if it provides it. -/
def builtinType (b : Builder) (name : String) : Ty :=
  match b.classes.find? (builtinsName ++ "." ++ name) with
  | some c => b.instanceType c []
  | none => .unbound name

/-! ### Variables -/

def newVar (name fullName : String) (owner : Option ClassId) (type : Option Ty) : Build Var :=
  modifyGet fun b =>
    let (v, vars) := b.vars.fresh name fullName owner type
    (v, { b with vars })

/-- A variable of a function. -/
def localVar (name : String) (type : Option Ty) : Build Var := newVar name name none type

/-- A variable of the current module. -/
def globalVar (name : String) (type : Option Ty) : Build Var := do
  let v ← newVar name ((← get).qualify name) none type
  define name (.var v)
  return v

/-! ### Classes -/

/-- Declares a class; without bases it derives from the class of all values. -/
def newClass (name : String) (typeVars : List String) (bases : List Instance) : Build ClassId := do
  let b ← get
  let fullName := b.qualify name
  let bases :=
    if bases.isEmpty && fullName != "builtins.object" then
      (b.object.map fun c => b.classes.instanceOf c []).toList
    else bases
  let c := b.classes.size
  let ids := bases.map (·.cls)
  let info : ClassInfo :=
    { name, fullName, bases, mro := c :: Linearize.ancestors (ids.map b.classes.mro) ids
      names := ∅, typeVars, isAbstract := false }
  set { b with classes := b.classes.push info }
  define name (.cls c)
  return c

/-- Declares a class whose bases have no type arguments. -/
def newPlainClass (name : String) (bases : List ClassId) : Build ClassId := do
  let b ← get
  newClass name [] (bases.map fun c => b.classes.instanceOf c [])

def setAbstract (c : ClassId) : Build Unit :=
  modify fun b => { b with classes := b.classes.modify c fun i => { i with isAbstract := true } }

/-- Binds a name in the body of a class. -/
def declare (c : ClassId) (name : String) (symbol : Symbol) : Build Unit :=
  modify fun b => { b with classes := b.classes.declare c name symbol }

/-- Binds a name in the body of a class, if one is given, and else in the current module. -/
def bind (owner : Option ClassId) (name : String) (symbol : Symbol) : Build Unit :=
  match owner with
  | some c => declare c name symbol
  | none => define name symbol

/-- The name of a member of a class, or of the current module. -/
def fullNameIn (b : Builder) (owner : Option ClassId) (name : String) : String :=
  match owner with
  | some c => (b.classes.info c).fullName ++ "." ++ name
  | none => b.qualify name

/-- A variable declared in the body of a class. -/
def classVar (c : ClassId) (name : String) (type : Option Ty) : Build Var := do
  let v ← newVar name ((← get).fullNameIn (some c) name) (some c) type
  declare c name (.var v)
  return v

/-! ### Functions -/

def functionSymbol (b : Builder) (name : String) (owner : Option ClassId) (type : Ty)
    (isAbstract : Bool) : FunctionSymbol :=
  ⟨name, b.fullNameIn owner name, owner, type, isAbstract⟩

/-- A signature with the receiver in front. -/
def withReceiver (b : Builder) (c : ClassId) (s : Signature) : Signature :=
  s.cons (b.selfType c) .pos (some "self")

/-- Declares a method without a body. -/
def declareMethod (c : ClassId) (name : String) (s : Signature) : Build FunctionSymbol := do
  let b ← get
  let f := b.functionSymbol name (some c) (.callable ((b.withReceiver c s).withName name)) false
  declare c name (.func f)
  return f

/-- Declares a method of several signatures without bodies. -/
def declareOverloadedMethod (c : ClassId) (name : String) (items : List Signature) :
    Build FunctionSymbol := do
  let b ← get
  let items := items.map fun s => (b.withReceiver c s).withName name
  let f := b.functionSymbol name (some c) (.overloaded items) false
  declare c name (.func f)
  return f

/-- Declares a function of the current module without a body. -/
def declareFunction (name : String) (s : Signature) : Build FunctionSymbol := do
  let f := (← get).functionSymbol name none (.callable (s.withName name)) false
  define name (.func f)
  return f

/-- Defines a function or, for an owner, a method, whose receiver is its first argument. -/
def newFunction (owner : Option ClassId) (f : FuncSpec) : Build FuncDef := do
  let b ← get
  let signature := (f.signature? (if owner.isSome then 1 else 0)).map (·.withName f.name)
  let params := f.params.map ParamSpec.toParam
  let type := signature.getD <|
    .dynamic (params.map (·.kind)) (params.map fun p => some p.var.name)
  let symbol := b.functionSymbol f.name owner (.callable (type.withName f.name)) f.isAbstract
  bind owner f.name (.func symbol)
  return {
    name := f.name, fullName := symbol.fullName, owner, params, body := f.body, signature
    isGenerator := blockYields f.body, span := b.span, isAbstract := f.isAbstract
    earlier := f.earlier, symbol }

/-! ### Expressions -/

def expr (kind : ExprKind) : Build Expr :=
  modifyGet fun b => (⟨b.nextNode, b.span, kind⟩, { b with nextNode := b.nextNode + 1 })

/-- Looks a name up in the current module and then in what the language provides. -/
def resolve (b : Builder) (name : String) : Except LookupError NameRef :=
  let inModule? (module : String) : Option NameRef := do
    let entry ← (← b.modules[module]?).names[name]?
    return ⟨name, module ++ "." ++ name, entry.binding, entry.symbol, false⟩
  match (inModule? b.current).or (inModule? builtinsName) with
  | some ref => .ok ref
  | none => .error (.unknownName b.current name)

/-- A reference to a variable, or its introduction. -/
def varRef (v : Var) (isDef : Bool) : NameRef :=
  let binding : Binding :=
    if v.owner.isSome then .inClass
    else if v.fullName.contains '.' then .inModule
    else .inFunction
  ⟨v.name, v.fullName, binding, .var v, isDef⟩

def classRef (b : Builder) (c : ClassId) : NameRef :=
  let info := b.classes.info c
  ⟨info.name, info.fullName, .inModule, .cls c, false⟩

def functionRef (f : FunctionSymbol) : NameRef := ⟨f.name, f.fullName, .inModule, .func f, false⟩

/-! ### Statements -/

def stmt (kind : StmtKind) : Build Stmt := return ⟨(← get).span, kind⟩

/-- Groups definitions into one function of several signatures, which takes over their name. -/
def overloaded (items : List FuncDef) : Build Stmt := do
  let owner := items.head?.bind (·.owner)
  let name := (items.head?.map (·.name)).getD ""
  let type : Ty := .overloaded (items.map fun d => d.type.withName name)
  let symbol := (← get).functionSymbol name owner type (items.all (·.isAbstract))
  bind owner name (.func symbol)
  stmt (.overloaded items owner symbol)

/-- Wraps a function; its name becomes that of a variable. -/
def decorated (func : FuncDef) (decorators : List Expr) : Build (Var × Stmt) := do
  let v ← newVar func.name func.fullName func.owner none
  bind func.owner func.name (.var v)
  return (v, ← stmt (.decorated func decorators v))

end Builder
end Gradual
