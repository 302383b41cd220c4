import Gradual.ClassTable.Depth
import Gradual.ClassTable.Supertype

/-!
What the relations between types are taken over: the classes of a program and, among them, the
classes that tuples, functions and type objects fall back to where an instance is asked for.

A comparison goes down through the parts of both types, and the nesting of the two types together
bounds its steps. Only where a type falls back to a class with type arguments of its own, or of its
bases, the nesting can grow again. Such a class may lead back to a type that falls back to it.
-/

namespace Gradual

/-- The classes over which types are compared, with what is worked out once for all of them. -/
structure TypeOrder where
  classes : ClassTable
  basic : BasicClasses
  heights : Array Nat

namespace TypeOrder

def ofClasses (classes : ClassTable) : TypeOrder := ⟨classes, classes.basic, classes.heights⟩

instance : Inhabited TypeOrder := ⟨ofClasses default⟩

/-- An instance, without type arguments, of a class that may be missing. -/
def instance? (o : TypeOrder) (c : Option ClassId) : Option Instance :=
  c.map fun c => o.classes.instanceOf c []

/-- The type that every value has, if the class for it exists. -/
def objectType (o : TypeOrder) : Ty :=
  match o.instance? o.basic.object with
  | some i => i.toTy
  | none => .error

/-- The instance that a tuple, a function or a type object counts as. -/
def fallback? (o : TypeOrder) : Ty → Option Instance
  | .tuple _ => o.instance? o.basic.tuple
  | t@(.callable _) | t@(.overloaded _) =>
    if t.isTypeObject then o.instance? o.basic.type else o.instance? o.basic.function
  | _ => none

def height (o : TypeOrder) (c : ClassId) : Nat := o.heights.getD c 0

/-- How much the nesting of a type can grow when it falls back to a class. -/
def fallbackHeight (o : TypeOrder) : Nat :=
  let heightOf (c : Option ClassId) := (c.map o.height).getD 0
  max (heightOf o.basic.tuple) (max (heightOf o.basic.type) (heightOf o.basic.function))

/-- How often the nesting of a type may grow in one comparison. One that goes on for longer is taken
to go round in a circle. -/
def maxFallbacks : Nat := 1000000

/-- Steps within which a comparison of the two types comes to its end if it has one. -/
def budget (o : TypeOrder) (s t : Ty) : Nat :=
  s.depth o.height + t.depth o.height + 1 + maxFallbacks * o.fallbackHeight

end TypeOrder
end Gradual
