import Gradual.Ty.Subst
import Gradual.TypeOrder.Basic

/-!
What the type of a value says about the type variables in the type that it is matched against.
-/

namespace Gradual

mutual

/-- Does a type mention a type variable? -/
def Ty.hasTypeVars : Ty → Bool
  | .typeVar _ => true
  | .inst _ _ args => anyTypeVars args
  | .tuple items => anyTypeVars items
  | .callable s => s.hasTypeVars
  | .overloaded items => anySignatureTypeVars items
  | .any | .void | .noneType | .unbound _ | .error => false

def Signature.hasTypeVars : Signature → Bool
  | ⟨argTypes, _, _, ret, _, _, _, _⟩ => anyTypeVars argTypes || ret.hasTypeVars

def anyTypeVars : List Ty → Bool
  | [] => false
  | t :: ts => t.hasTypeVars || anyTypeVars ts

def anySignatureTypeVars : List Signature → Bool
  | [] => false
  | s :: ss => s.hasTypeVars || anySignatureTypeVars ss

end

mutual

/-- The ids of the type variables that a type mentions, outside overloads, each as often as it
does. -/
def Ty.typeVarIds : Ty → List Int
  | .typeVar v => [v.id]
  | .inst _ _ args => typeVarIdsOfEach args
  | .tuple items => typeVarIdsOfEach items
  | .callable s => s.typeVarIds
  | .overloaded _ | .any | .void | .noneType | .unbound _ | .error => []

def Signature.typeVarIds : Signature → List Int
  | ⟨argTypes, _, _, ret, _, _, _, _⟩ => typeVarIdsOfEach argTypes ++ ret.typeVarIds

def typeVarIdsOfEach : List Ty → List Int
  | [] => []
  | t :: ts => t.typeVarIds ++ typeVarIdsOfEach ts

end

/-- Types that type variables have to cover, by id. -/
abbrev Constraints := List (Int × Ty)

/-- A dynamic value makes every type variable dynamic. -/
def dynamicConstraints (ids : List Int) : Constraints := ids.map fun id => (id, .any)

mutual

/-- Matches a type against the type of a value. -/
def TypeOrder.constraints (o : TypeOrder) : (template actual : Ty) → Constraints
  | .typeVar v, actual => [(v.id, actual)]
  | .inst c n args, actual =>
    if actual.isDynamic then dynamicConstraints (Ty.inst c n args).typeVarIds
    else
      match actual.toInstance?.bind (o.classes.view? · c) with
      | some view => o.constraintsOfEach args view.args
      | none => []
  | .tuple items, actual =>
    if actual.isDynamic then dynamicConstraints (Ty.tuple items).typeVarIds
    else
      match actual with
      | .tuple actuals =>
        if items.length = actuals.length then o.constraintsOfEach items actuals else []
      | _ => []
  | .callable s, actual =>
    if actual.isDynamic then dynamicConstraints s.typeVarIds
    else
      match actual.signatures.head? with
      | some t => o.signatureConstraints s t
      | none => []
  | .overloaded _, _ | .any, _ | .void, _ | .noneType, _ | .unbound _, _ | .error, _ => []

def TypeOrder.signatureConstraints (o : TypeOrder) : (template actual : Signature) → Constraints
  | ⟨argTypes, _, _, ret, _, _, _, _⟩, t =>
    o.constraintsOfEach argTypes t.argTypes ++ o.constraints ret t.ret

/-- Matches types one by one, as far as both lists go. -/
def TypeOrder.constraintsOfEach (o : TypeOrder) : (templates actuals : List Ty) → Constraints
  | t :: ts, a :: as => o.constraints t a ++ o.constraintsOfEach ts as
  | _, _ => []

end

/-- The types that the type variable of an id has to cover. -/
def Constraints.of (cs : Constraints) (id : Int) : List Ty := (cs.filter (·.1 == id)).map (·.2)

end Gradual
