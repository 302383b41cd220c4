/-!
The types that the checker computes with: nominal instances, signatures, overloads, tuples,
type variables and the markers for what is dynamic, absent or failed.
-/

namespace Gradual

/-- The position of a class in the class table. -/
abbrev ClassId := Nat

/-- How a formal argument takes actual arguments, and how an actual argument is written. -/
inductive ArgKind where
  /-- A positional argument that must be given. -/
  | pos
  /-- A positional argument that has a default. -/
  | opt
  /-- The formal that takes the remaining positional arguments. -/
  | star
  /-- An argument given by keyword only. -/
  | named
  /-- The formal that takes the remaining keyword arguments. -/
  | star2
  deriving DecidableEq, Repr, Inhabited

/-- Formals of these kinds take one positional argument each. -/
def ArgKind.isFixed : ArgKind → Bool
  | .pos | .opt => true
  | .star | .named | .star2 => false

mutual

/-- The type of a value, or a marker that stands where one is missing. -/
inductive Ty where
  /-- The type of a dynamically typed value. -/
  | any
  /-- The result of a call that returns no value. -/
  | void
  /-- The type of the value `None`. -/
  | noneType
  /-- An instance of a class, with its full name and its type arguments. -/
  | inst (cls : ClassId) (name : String) (args : List Ty)
  | callable (sig : Signature)
  /-- Alternatives in order of preference. -/
  | overloaded (items : List Signature)
  | tuple (items : List Ty)
  | typeVar (v : TypeVar)
  /-- A name that could not be resolved. -/
  | unbound (name : String)
  /-- The result of an operation that failed. -/
  | error

/-- A type variable. Those of a class count its positions from one, those of a function have
negative ids; `values` lists the types it is restricted to and is empty without a restriction. -/
structure TypeVar where
  name : String
  id : Int
  values : List Ty
  upperBound : Ty

/-- The type of a function: for each formal argument a type, a kind and perhaps a name, then the
result and the type variables it quantifies. -/
structure Signature where
  argTypes : List Ty
  argKinds : List ArgKind
  argNames : List (Option String)
  ret : Ty
  quantified : List TypeVar
  /-- Calling it creates an instance of the class in `ret`. -/
  isTypeObject : Bool
  /-- The name shown in messages. -/
  name : Option String
  /-- Made up for a function that declares no types. -/
  isImplicit : Bool

end

instance : Inhabited Ty := ⟨.any⟩

/-- An instance of a class on its own, as it appears among the bases of a class. -/
structure Instance where
  cls : ClassId
  name : String
  args : List Ty

/-- An instance as a type. -/
def Instance.toTy (i : Instance) : Ty := .inst i.cls i.name i.args

/-- What follows the last dot of a dotted name. -/
def lastPart (name : String) : String :=
  String.ofList (name.toList.reverse.takeWhile (· ≠ '.')).reverse

namespace TypeVar

/-- An unrestricted type variable. -/
def plain (name : String) (id : Int) (upperBound : Ty) : TypeVar := ⟨name, id, [], upperBound⟩

end TypeVar

namespace Signature

/-- A signature that quantifies nothing and has no name. -/
def ofFormals (types : List Ty) (kinds : List ArgKind) (names : List (Option String)) (ret : Ty) :
    Signature :=
  ⟨types, kinds, names, ret, [], false, none, false⟩

/-- A signature whose arguments are all positional and have no names. -/
def positional (types : List Ty) (ret : Ty) : Signature :=
  ofFormals types (types.map fun _ => .pos) (types.map fun _ => none) ret

/-- The signature of a function that declares no types: everything is dynamic. -/
def dynamic (kinds : List ArgKind) (names : List (Option String)) : Signature :=
  { ofFormals (kinds.map fun _ => .any) kinds names .any with isImplicit := true }

def withName (s : Signature) (name : String) : Signature := { s with name := some name }

/-- Adds a formal in front of the others. -/
def cons (type : Ty) (kind : ArgKind) (name : Option String) (s : Signature) : Signature :=
  { s with
    argTypes := type :: s.argTypes, argKinds := kind :: s.argKinds
    argNames := name :: s.argNames }

/-- How many arguments must be given. -/
def minArgs (s : Signature) : Nat := s.argKinds.countP (· == .pos)

/-- How many arguments can be given by position to formals of their own. -/
def maxFixedArgs (s : Signature) : Nat := s.argKinds.countP ArgKind.isFixed

def isVarArg (s : Signature) : Bool := s.argKinds.contains .star

def isKwArg (s : Signature) : Bool := s.argKinds.contains .star2

/-- The class whose instances a type object creates. -/
def typeObjectClass? (s : Signature) : Option ClassId :=
  match s.isTypeObject, s.ret with
  | true, .inst cls _ _ => some cls
  | _, _ => none

/-- The signature seen through an instance, without its receiver. -/
def bound (s : Signature) : Signature :=
  { s with
    argTypes := s.argTypes.tail, argKinds := s.argKinds.tail, argNames := s.argNames.tail }

def withoutName (s : Signature) : Signature := { s with name := none }

/-- The function as a message refers to it. -/
def displayName (s : Signature) : String :=
  match s.name with
  | some name => "\"" ++ name ++ "\""
  | none => "function"

end Signature

namespace Ty

def isAny : Ty → Bool
  | .any => true
  | _ => false

def isVoid : Ty → Bool
  | .void => true
  | _ => false

def isNoneType : Ty → Bool
  | .noneType => true
  | _ => false

def isError : Ty → Bool
  | .error => true
  | _ => false

/-- The dynamic type and the two markers that behave like it. -/
def isDynamic : Ty → Bool
  | .any | .error | .unbound _ => true
  | _ => false

def toInstance? : Ty → Option Instance
  | .inst cls name args => some ⟨cls, name, args⟩
  | _ => none

/-- An instance of the class of that full name. -/
def isInstanceOf (fullName : String) : Ty → Bool
  | .inst _ name _ => name == fullName
  | _ => false

def isFunctionLike : Ty → Bool
  | .callable _ | .overloaded _ => true
  | _ => false

/-- The signatures of a function, in order. -/
def signatures : Ty → List Signature
  | .callable s => [s]
  | .overloaded items => items
  | _ => []

def isTypeObject (t : Ty) : Bool := t.signatures.head?.any (·.isTypeObject)

/-- Applies a change to each signature of a function type. -/
def mapSignatures (f : Signature → Signature) : Ty → Ty
  | .callable s => .callable (f s)
  | .overloaded items => .overloaded (items.map f)
  | t => t

/-- A method as seen through an instance. -/
def boundMethod : Ty → Ty := mapSignatures Signature.bound

/-- The type without function names, as it is given to a variable. -/
def stripped : Ty → Ty := mapSignatures Signature.withoutName

/-- The word for the outermost form of a type. -/
def kindName : Ty → String
  | .any => "any"
  | .void => "void"
  | .noneType => "none"
  | .inst .. => "instance"
  | .callable _ => "callable"
  | .overloaded _ => "overloaded"
  | .tuple _ => "tuple"
  | .typeVar _ => "typevar"
  | .unbound _ => "unbound"
  | .error => "error"

end Ty
end Gradual
