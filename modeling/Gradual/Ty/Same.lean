import Gradual.Ty.Basic

/-!
Identity of types up to the names that only messages use: the names of functions and of arguments,
and the spelling of class names and type variables, which are told apart by their ids.
-/

namespace Gradual
namespace Ty

mutual

def isSame : Ty → Ty → Bool
  | .any, .any | .void, .void | .noneType, .noneType | .error, .error => true
  | .inst c _ as, .inst d _ bs => c == d && isSameEach as bs
  | .callable s, .callable t => isSameSignature s t
  | .overloaded ss, .overloaded ts => isSameSignatures ss ts
  | .tuple as, .tuple bs => isSameEach as bs
  | .typeVar v, .typeVar w => v.id == w.id
  | .unbound m, .unbound n => m == n
  | _, _ => false

def isSameEach : List Ty → List Ty → Bool
  | [], [] => true
  | a :: as, b :: bs => isSame a b && isSameEach as bs
  | _, _ => false

def isSameSignature : Signature → Signature → Bool
  | ⟨types, kinds, _, ret, quantified, typeObject, _, _⟩, t =>
    isSameEach types t.argTypes && kinds == t.argKinds && isSame ret t.ret
      && typeObject == t.isTypeObject && quantified.length == t.quantified.length

def isSameSignatures : List Signature → List Signature → Bool
  | [], [] => true
  | s :: ss, t :: ts => isSameSignature s t && isSameSignatures ss ts
  | _, _ => false

end

end Ty
end Gradual
