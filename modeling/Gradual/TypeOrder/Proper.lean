import Gradual.Ty.Same
import Gradual.TypeOrder.Subtype

/-!
Proper subtyping: subtyping in which dynamic types fit nothing but themselves. Apart from
instances and tuples it is identity.
-/

namespace Gradual.TypeOrder

/-- Proper subtyping through at most a given number of steps. -/
def properWithin (o : TypeOrder) : (steps : Nat) → Ty → Ty → Option Bool
  | 0, _, _ => none
  | steps + 1, l, r =>
    match l, r with
    | .inst c n as, .inst d m bs =>
      o.instanceLe (o.properWithin steps) ⟨c, n, as⟩ ⟨d, m, bs⟩
    | .tuple as, .tuple bs =>
      if as.length = bs.length then argsLe (o.properWithin steps) as bs else some false
    | .tuple items, .inst d m bs =>
      match o.fallback? (.tuple items) with
      | some i => o.instanceLe (o.properWithin steps) i ⟨d, m, bs⟩
      | none => some false
    | l, r => some (l.isSame r)

def proper? (o : TypeOrder) (l r : Ty) : Option Bool := o.properWithin (o.budget l r) l r

/-- Is every value of type `l` known to have type `r`? -/
def isProperSubtype (o : TypeOrder) (l r : Ty) : Bool := (o.proper? l r).getD false

end Gradual.TypeOrder
