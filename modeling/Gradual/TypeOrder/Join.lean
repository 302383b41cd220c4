import Gradual.Ty.Same
import Gradual.TypeOrder.Subtype

/-!
The join of two types: a type that both can be used as, or the error type where there is none.
Instances meet in the first class of the lookup order of one that the other derives from too.
-/

namespace Gradual.TypeOrder

/-- Joins what the bounds and fallbacks of other types leave to be joined: two instances of one
class, by the type arguments where neither is a subtype of the other. -/
def joinSameClass (o : TypeOrder) (le : Ty → Ty → Option Bool) (join : Ty → Ty → Option Ty)
    (a b : Instance) : Option Ty := do
  if ← le a.toTy b.toTy then return b.toTy
  if ← le b.toTy a.toTy then return a.toTy
  let args ← (a.args.zip b.args).mapM fun (x, y) => join x y
  return if args.any Ty.isError then o.objectType else .inst a.cls a.name args

/-- Joins two instances in the first class that both derive from. -/
def joinInstances (o : TypeOrder) (le : Ty → Ty → Option Bool) (join : Ty → Ty → Option Ty)
    (a b : Instance) : Option Ty :=
  if a.cls = b.cls then o.joinSameClass le join a b
  else
    match (o.classes.mro a.cls).find? (o.classes.derives b.cls) with
    | none => some o.objectType
    | some c =>
      match o.classes.view? a c, o.classes.view? b c with
      | some a, some b => o.joinSameClass le join a b
      | _, _ => some o.objectType

/-- The instance that takes part in a join for a type. -/
def joinInstance? (o : TypeOrder) (t : Ty) : Option Instance := (o.fallback? t).or t.toInstance?

/-- The join, through at most a given number of steps. -/
def joinWithin (o : TypeOrder) : (steps : Nat) → Ty → Ty → Option Ty
  | 0, _, _ => none
  | steps + 1, s, t =>
    match s, t with
    | .error, _ | _, .error => some .error
    | .any, _ | .unbound _, _ | _, .any | _, .unbound _ => some .any
    | .void, .void => some .void
    | .void, _ | _, .void => some .error
    | .noneType, t => some t
    | s, .noneType => some s
    | s, t =>
      if s.isSame t then some s
      else
        match s, t with
        | .typeVar v, t => o.joinWithin steps v.upperBound t
        | s, .typeVar w => o.joinWithin steps s w.upperBound
        | .inst c n as, .inst d m bs =>
          o.joinInstances (o.subtypeWithin steps) (o.joinWithin steps) ⟨c, n, as⟩ ⟨d, m, bs⟩
        | s, t => do
          match s, t with
          | .tuple as, .tuple bs =>
            if as.length = bs.length then
              return .tuple (← (as.zip bs).mapM fun (a, b) => o.joinWithin steps a b)
          | .callable _, .callable _ =>
            if ← o.subtypeWithin steps s t then return t
            if ← o.subtypeWithin steps t s then return s
          | _, _ => pure ()
          match o.joinInstance? s, o.joinInstance? t with
          | some a, some b => o.joinInstances (o.subtypeWithin steps) (o.joinWithin steps) a b
          | _, _ => return o.objectType

/-- The steps count both the joins and the comparisons below them. -/
def join? (o : TypeOrder) (s t : Ty) : Option Ty := o.joinWithin (o.budget s t + 1) s t

/-- A type that values of both types can be used as. -/
def join (o : TypeOrder) (s t : Ty) : Ty := (o.join? s t).getD .error

end Gradual.TypeOrder
