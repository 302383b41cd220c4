import Gradual.Binder
import Gradual.Diagnostic.Basic
import Gradual.Diagnostic.Problem
import Gradual.Settings.Options
import Gradual.Syntax.Program
import Gradual.TypeMap
import Gradual.TypeOrder.Join
import Gradual.TypeOrder.Proper

/-!
What the checker knows while it walks a module: what follows the nesting of the program is its
scope, which is changed only for the extent of an action; the rest grows as the walk goes on.
-/

namespace Gradual

/-- A function around the code that is checked. -/
structure Frame where
  /-- A lambda has no name. -/
  name : Option String
  /-- It declares no types, so everything in it is dynamic. -/
  isDynamic : Bool
  isGenerator : Bool
  deriving DecidableEq, Repr

/-- What follows the nesting of the program. In each stack the innermost comes first. -/
structure Scope where
  /-- The names of the function, if there is one. -/
  locals : Option SymbolTable
  binder : Binder
  /-- The types that are expected of the expressions around. -/
  expected : List (Option Ty)
  returnTypes : List Ty
  functions : List Frame
  classes : List ClassId
  /-- Which values restricted type variables stand for. -/
  instantiations : List String

def Scope.outermost : Scope := ⟨none, .empty, [], [], [], [], []⟩

structure State where
  file : String
  globals : SymbolTable
  scope : Scope
  types : TypeMap
  diagnostics : List Diagnostic
  /-- The classes that the language should provide but does not. -/
  missing : Std.TreeSet String
  nextNode : NodeId
  vars : VarTypes

/-- What does not change during a run. -/
structure Env where
  program : Program
  options : Options
  order : TypeOrder

def Env.ofProgram (program : Program) (options : Options) : Env :=
  ⟨program, options, .ofClasses program.classes⟩

def Env.classes (env : Env) : ClassTable := env.program.classes

/-- An action of the checker. -/
abbrev Check := ReaderT Env (StateM State)

namespace Check

/-! ### Scopes -/

def scope : Check Scope := return (← get).scope

def modifyScope (f : Scope → Scope) : Check Unit := modify fun s => { s with scope := f s.scope }

/-- Runs an action between two changes of the scope. -/
def between {α : Type} (enter leave : Scope → Scope) (x : Check α) : Check α := do
  modifyScope enter
  let a ← x
  modifyScope leave
  return a

/-- Runs an action in which a type, or none, is expected. -/
def expecting {α : Type} (type : Option Ty) : Check α → Check α :=
  between (fun s => { s with expected := type :: s.expected })
    (fun s => { s with expected := s.expected.tail })

def inFunction {α : Type} (frame : Frame) : Check α → Check α :=
  between (fun s => { s with functions := frame :: s.functions })
    (fun s => { s with functions := s.functions.tail })

def returning {α : Type} (type : Ty) : Check α → Check α :=
  between (fun s => { s with returnTypes := type :: s.returnTypes })
    (fun s => { s with returnTypes := s.returnTypes.tail })

def inClass {α : Type} (c : ClassId) : Check α → Check α :=
  between (fun s => { s with classes := c :: s.classes })
    (fun s => { s with classes := s.classes.tail })

/-- Runs an action with empty names of a function of its own. -/
def inLocalScope {α : Type} (x : Check α) : Check α := do
  let outer := (← scope).locals
  between (fun s => { s with locals := some ∅ }) (fun s => { s with locals := outer }) x

/-- Runs an action in which a variable may be narrowed. -/
def narrowing {α : Type} : Option (Var × Ty) → Check α → Check α
  | some (v, type), x =>
    between (fun s => { s with binder := s.binder.push v type })
      (fun s => { s with binder := s.binder.pop v }) x
  | none, x => x

/-- Runs an action that reports, in addition, what a type variable stands for. -/
def inInstantiation {α : Type} (note : String) : Check α → Check α :=
  between (fun s => { s with instantiations := note :: s.instantiations })
    (fun s => { s with instantiations := s.instantiations.tail })

/-- Binds a variable among the names of the function. -/
def declareLocal (v : Var) : Check Unit :=
  modifyScope fun s =>
    { s with locals := s.locals.map (·.insert v.name ⟨.inFunction, .var v⟩) }

/-- The type that is expected of the expression. -/
def expectedType : Check (Option Ty) := return (← scope).expected.head?.join

/-- Is the code in a function that declares no types? -/
def isDynamic : Check Bool := return (← scope).functions.head?.any (·.isDynamic)

/-! ### What is recorded -/

/-- Records the type of an expression. -/
def store (node : NodeId) (type : Ty) : Check Unit :=
  modify fun s => { s with types := s.types.insert node type }

/-- The type that is recorded for an expression, or else the dynamic one. -/
def recorded (node : NodeId) : Check Ty := return ((← get).types[node]?).getD .any

def typeOfVar (v : Var) : Check (Option Ty) := return (← get).vars.get? v

/-- Gives a variable a type in place of the one it may have. -/
def setVar (v : Var) (type : Ty) : Check Unit :=
  modify fun s => { s with vars := s.vars.set v type }

/-- Gives a variable a type if it has none. -/
def inferVar (v : Var) (type : Ty) : Check Unit :=
  modify fun s => { s with vars := s.vars.infer v type }

/-! ### Reports -/

/-- The report of a problem, with the function, the class and the instantiations around it. -/
def diagnostic (env : Env) (file : String) (scope : Scope) (p : Problem) (span : Span) :
    Diagnostic :=
  { Diagnostic.error p.code.text p.text span with
    file
    notes := scope.instantiations.reverse
    help := p.code.help?
    function := scope.functions.findSome? (·.name)
    cls := scope.classes.head?.map fun c => (env.classes.info c).name }

/-- Reports a problem, unless the same report was made before: an expression may be inferred more
than once. -/
def report (p : Problem) (span : Span) : Check Unit := do
  let env ← read
  modify fun s =>
    let d := diagnostic env s.file s.scope p span
    if d ∈ s.diagnostics then s else { s with diagnostics := s.diagnostics ++ [d] }

/-! ### Relations -/

def isSubtype (l r : Ty) : Check Bool := return (← read).order.isSubtype l r

def join (s t : Ty) : Check Ty := return (← read).order.join s t

/-- Joins types from left to right, from the type that adds nothing. -/
def joinAll (ts : List Ty) : Check Ty := do
  let env ← read
  return ts.foldl env.order.join .noneType

/-- Reports a value that cannot be used where its type is expected. A call without a result is a
problem of its own, whatever is expected. -/
def checkSubtype (l r : Ty) (span : Span) (p : Problem) (call : Option String) : Check Unit := do
  if !(← isSubtype l r) then
    report (if l.isVoid then .noValue call else p) span

/-- Reports a call without a result that is used as a value. -/
def checkHasValue (t : Ty) (call : Option String) (span : Span) : Check Unit := do
  if t.isVoid then report (.noValue call) span

/-! ### Names -/

/-- What a name stands for: a dotted one in the program, any other one in the function, in the
module or in what the language provides. -/
def resolve? (env : Env) (s : State) (name : String) : Option Symbol :=
  if name.contains '.' then (env.program.lookup name).toOption
  else
    let entry? := (s.scope.locals.bind (·[name]?)).or <| (s.globals[name]?).or <|
      env.program.modules["builtins"]?.bind (·.names[name]?)
    entry?.map (·.symbol)

/-- An instance of a named class. A class that should be there and is not is noted. -/
def named (fullName : String) (args : List Ty) : Check Ty := do
  match resolve? (← read) (← get) fullName with
  | some (.cls c) => return .inst c fullName args
  | _ =>
    modify fun s => { s with missing := s.missing.insert fullName }
    return .unbound fullName

def boolType : Check Ty := named "builtins.bool" []

def strType : Check Ty := named "builtins.str" []

end Check
end Gradual
