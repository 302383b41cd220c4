import Gradual.Ty.Basic
import Std.Data.TreeMap

/-!
Declarations: what a resolved name stands for. The declarations themselves never change; the types
of variables, which inference fills in, are kept in a store beside them.
-/

namespace Gradual

/-- The identity of a variable. -/
abbrev VarId := Nat

/-- A named storage location. Two variables are the same only if their ids are. -/
structure Var where
  id : VarId
  name : String
  fullName : String
  /-- The class that a member variable belongs to. -/
  owner : Option ClassId
  deriving DecidableEq, Repr, Inhabited

/-- A declared function or method. -/
structure FunctionSymbol where
  name : String
  fullName : String
  owner : Option ClassId
  type : Ty
  isAbstract : Bool

/-- What a name refers to. -/
inductive Symbol where
  | var (v : Var)
  | func (f : FunctionSymbol)
  | cls (c : ClassId)
  | module (name : String)
  | typeVar (v : TypeVar)

/-- The kind of scope that a name is found in. -/
inductive Binding where
  | inFunction
  | inModule
  | inClass
  deriving DecidableEq, Repr

/-- An entry of a scope. -/
structure Entry where
  binding : Binding
  symbol : Symbol

/-- The names of a scope, in alphabetical order. -/
abbrev SymbolTable := Std.TreeMap String Entry

/-- The types of variables, and the id that the next variable gets. A variable without an entry has
no type yet. -/
structure VarTypes where
  next : VarId
  types : Std.TreeMap VarId Ty

namespace VarTypes

def empty : VarTypes := ⟨0, ∅⟩

instance : Inhabited VarTypes := ⟨empty⟩

def get? (s : VarTypes) (v : Var) : Option Ty := s.types[v.id]?

def hasType (s : VarTypes) (v : Var) : Bool := s.types.contains v.id

/-- Gives a variable a type, whether it had one or not. -/
def set (s : VarTypes) (v : Var) (type : Ty) : VarTypes :=
  { s with types := s.types.insert v.id type }

/-- Gives a variable an inferred type. A type that is there stays. -/
def infer (s : VarTypes) (v : Var) (type : Ty) : VarTypes :=
  if s.hasType v then s else s.set v type

/-- A variable that did not exist before. -/
def fresh (s : VarTypes) (name fullName : String) (owner : Option ClassId) (type : Option Ty) :
    Var × VarTypes :=
  let v : Var := ⟨s.next, name, fullName, owner⟩
  (v, { next := s.next + 1, types := (type.map (s.types.insert s.next)).getD s.types })

@[simp] theorem get?_set_self (s : VarTypes) (v : Var) (type : Ty) :
    (s.set v type).get? v = some type := by
  simp [get?, set]

theorem get?_set_of_ne {s : VarTypes} {v w : Var} {type : Ty} (h : v.id ≠ w.id) :
    (s.set v type).get? w = s.get? w := by
  simp [get?, set, Std.TreeMap.getElem?_insert, h]

theorem hasType_iff (s : VarTypes) (v : Var) : s.hasType v = true ↔ (s.get? v).isSome = true := by
  simp [hasType, get?]

theorem infer_of_hasType {s : VarTypes} {v : Var} {type : Ty} (h : s.hasType v = true) :
    s.infer v type = s := by
  simp [infer, h]

end VarTypes

/-- The type that a declaration states, which is not always the type of a reference to it. -/
def Symbol.declaredType? (types : VarTypes) : Symbol → Option Ty
  | .var v => types.get? v
  | .func f => some f.type
  | .cls _ | .module _ | .typeVar _ => none

end Gradual
