import Gradual.Ty.Basic

/-!
Substitution of type variables. A signature stops quantifying the variables that are replaced;
bounds and value lists of the variables that stay are left alone.
-/

namespace Gradual

/-- What each type variable is replaced by, if it is. -/
abbrev Substitution := TypeVar → Option Ty

namespace Ty

mutual

/-- Replaces every type variable for which `f` has a replacement. -/
def substitute (f : Substitution) : Ty → Ty
  | .any => .any
  | .void => .void
  | .noneType => .noneType
  | .inst cls name args => .inst cls name (substituteEach f args)
  | .callable sig => .callable (substituteSignature f sig)
  | .overloaded items => .overloaded (substituteSignatures f items)
  | .tuple items => .tuple (substituteEach f items)
  | .typeVar v => (f v).getD (.typeVar v)
  | .unbound name => .unbound name
  | .error => .error

def substituteEach (f : Substitution) : List Ty → List Ty
  | [] => []
  | t :: ts => substitute f t :: substituteEach f ts

def substituteSignature (f : Substitution) : Signature → Signature
  | { argTypes, argKinds, argNames, ret, quantified, isTypeObject, name, isImplicit } =>
    { argTypes := substituteEach f argTypes
      argKinds
      argNames
      ret := substitute f ret
      quantified := quantified.filter fun v => (f v).isNone
      isTypeObject
      name
      isImplicit }

def substituteSignatures (f : Substitution) : List Signature → List Signature
  | [] => []
  | s :: ss => substituteSignature f s :: substituteSignatures f ss

end

theorem substituteEach_eq_map (f : Substitution) (ts : List Ty) :
    substituteEach f ts = ts.map (substitute f) := by
  induction ts with
  | nil => rfl
  | cons t ts ih => simp [substituteEach, ih]

theorem substituteSignatures_eq_map (f : Substitution) (ss : List Signature) :
    substituteSignatures f ss = ss.map (substituteSignature f) := by
  induction ss with
  | nil => rfl
  | cons s ss ih => simp [substituteSignatures, ih]

/-- Replaces every type variable by the dynamic type. -/
def erase : Ty → Ty := substitute fun _ => some .any

/-- Replaces the type variables of a class by the type arguments of one of its instances; an
instance without type arguments leaves the type as it is. -/
def expandBy (t : Ty) (args : List Ty) : Ty :=
  match args with
  | [] => t
  | _ => t.substitute fun v => if 1 ≤ v.id then args[(v.id - 1).toNat]? else none

end Ty

/-- Type arguments for some type variables, by id; the last entry for an id counts. -/
abbrev TypeArgs := List (Int × Ty)

namespace TypeArgs

def lookup? (args : TypeArgs) (id : Int) : Option Ty :=
  (args.reverse.find? (·.1 == id)).map (·.2)

end TypeArgs

namespace Ty

/-- Replaces type variables by id. -/
def expand (t : Ty) (args : TypeArgs) : Ty :=
  match args with
  | [] => t
  | _ => t.substitute fun v => args.lookup? v.id

end Ty

/-- Replaces type variables by id throughout a signature. -/
def Signature.expand (s : Signature) (args : TypeArgs) : Signature :=
  match args with
  | [] => s
  | _ => Ty.substituteSignature (fun v => args.lookup? v.id) s

end Gradual
