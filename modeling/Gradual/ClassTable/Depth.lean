import Gradual.ClassTable.Basic

/-!
How deeply types are nested. An instance counts the height of its class, which is how much deeper
the type arguments of the class and of its bases can be than those of the instance: to be seen as an
instance of a base then makes no type deeper.
-/

namespace Gradual

mutual

/-- The nesting of a type, given the heights of classes. -/
def Ty.depth (height : ClassId → Nat) : Ty → Nat
  | .any | .void | .noneType | .unbound _ | .error => 1
  | .inst c _ args => 1 + height c + depthEach height args
  | .callable sig => 1 + sig.depth height
  | .overloaded items => 2 + depthSignatures height items
  | .tuple items => 1 + depthEach height items
  | .typeVar ⟨_, _, _, upperBound⟩ => 1 + upperBound.depth height

def Signature.depth (height : ClassId → Nat) : Signature → Nat
  | ⟨argTypes, _, _, ret, _, _, _, _⟩ => max (depthEach height argTypes) (ret.depth height)

def depthEach (height : ClassId → Nat) : List Ty → Nat
  | [] => 0
  | t :: ts => max (t.depth height) (depthEach height ts)

def depthSignatures (height : ClassId → Nat) : List Signature → Nat
  | [] => 0
  | s :: ss => max (s.depth height) (depthSignatures height ss)

end

/-- The height of a class with these bases. It is nothing if no base has type arguments. -/
def heightOver (height : ClassId → Nat) (bases : List Instance) : Nat :=
  (bases.map fun base => height base.cls + depthEach height base.args).foldl max 0

/-- The heights of the classes, each by its id. The bases of a class come before it. -/
def ClassTable.heights (t : ClassTable) : Array Nat :=
  t.classes.foldl (fun heights c => heights.push (heightOver (heights.getD · 0) c.bases)) #[]

end Gradual
