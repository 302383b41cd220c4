import Gradual.TypeOrder.Basic

/-!
Subtyping: may a value of one type stand where another is expected? Classes are compared by name
and by their type arguments, in the same direction; functions by their arguments, in the opposite
direction, and their results; dynamic types fit everywhere. A comparison goes down at most a given
number of steps and answers nothing when they do not suffice.
-/

namespace Gradual

namespace Signature

/-- The type of the first formal of a kind. -/
def typeOfKind? (s : Signature) (kind : ArgKind) : Option Ty :=
  ((s.argKinds.zip s.argTypes).find? (·.1 == kind)).map (·.2)

/-- The types of the formals that take one positional argument each. -/
def fixedTypes (s : Signature) : List Ty :=
  ((s.argKinds.zip s.argTypes).filter (·.1.isFixed)).map (·.2)

/-- The type of the first formal of a name. -/
def typeOfName? (s : Signature) (name : Option String) : Option Ty :=
  match name with
  | none => none
  | some _ => ((s.argNames.zip s.argTypes).find? (·.1 == name)).map (·.2)

/-- The signature with every type variable replaced by the dynamic type, if it quantifies any. -/
def erased (s : Signature) : Signature := Ty.substituteSignature (fun _ => some .any) s

end Signature

namespace TypeOrder

/-- Compares the formals of a signature with those of `l` that take their arguments: one at a given
position, one of the same name, or the one that collects the rest. -/
def formalsLe (le : Ty → Ty → Option Bool) (l : Signature) :
    (fixed : List Ty) → List (Ty × ArgKind × Option String) → Option Bool
  | _, [] => some true
  | fixed, (type, kind, name) :: rest => do
    let (taker, fixed) :=
      match kind with
      | .pos | .opt => (fixed.head?.or (l.typeOfKind? .star), fixed.tail)
      | .star => (l.typeOfKind? .star, fixed)
      | .named => ((l.typeOfName? name).or (l.typeOfKind? .star2), fixed)
      | .star2 => (l.typeOfKind? .star2, fixed)
    match taker with
    | none => return false
    | some taker => if ← le type taker then formalsLe le l fixed rest else return false

/-- Compares two signatures that quantify nothing. -/
def plainSignatureLe (le : Ty → Ty → Option Bool) (l r : Signature) : Option Bool := do
  if r.isTypeObject && !l.isTypeObject then return false
  if !(← le l.ret r.ret) then return false
  if l.minArgs > r.minArgs then return false
  if r.isVarArg && !l.isVarArg then return false
  if l.maxFixedArgs < r.maxFixedArgs && !l.isVarArg then return false
  formalsLe le l l.fixedTypes (r.argTypes.zip (r.argKinds.zip r.argNames))

/-- May the function `l` be used where `r` is expected? -/
def signatureLe (le : Ty → Ty → Option Bool) (l r : Signature) : Option Bool :=
  if l.quantified.isEmpty && r.quantified.isEmpty then plainSignatureLe le l r
  else plainSignatureLe le l.erased r.erased

/-- Compares two lists of type arguments, as far as both go. -/
def argsLe (le : Ty → Ty → Option Bool) (as bs : List Ty) : Option Bool :=
  (as.zip bs).allM fun (a, b) => le a b

/-- Compares an instance with an instance by its view as that class. -/
def instanceLe (o : TypeOrder) (le : Ty → Ty → Option Bool) (l r : Instance) : Option Bool :=
  match o.classes.view? l r.cls with
  | some view => argsLe le view.args r.args
  | none => some false

/-- Subtyping through at most a given number of steps. -/
def subtypeWithin (o : TypeOrder) : (steps : Nat) → Ty → Ty → Option Bool
  | 0, _, _ => none
  | steps + 1, l, r =>
    if l.isDynamic || r.isDynamic then some true
    else
      match l, r with
      | .void, r => some r.isVoid
      | _, .void => some false
      | .noneType, _ => some true
      | .typeVar v, .typeVar w =>
        if v.id = w.id then some true else o.subtypeWithin steps v.upperBound r
      | .typeVar v, r => o.subtypeWithin steps v.upperBound r
      | _, .typeVar _ => some false
      | .overloaded items, r => items.anyM fun s => o.subtypeWithin steps (.callable s) r
      | l, .overloaded items => items.allM fun s => o.subtypeWithin steps l (.callable s)
      | .callable s, .callable t => signatureLe (o.subtypeWithin steps) s t
      | .tuple as, .tuple bs =>
        if as.length = bs.length then argsLe (o.subtypeWithin steps) as bs else some false
      | .inst c n as, .inst d m bs =>
        o.instanceLe (o.subtypeWithin steps) ⟨c, n, as⟩ ⟨d, m, bs⟩
      | l, .inst d m bs =>
        match o.fallback? l with
        | some i => o.instanceLe (o.subtypeWithin steps) i ⟨d, m, bs⟩
        | none => some false
      | _, _ => some false

/-- Subtyping, where the steps suffice. -/
def subtype? (o : TypeOrder) (l r : Ty) : Option Bool := o.subtypeWithin (o.budget l r) l r

/-- May a value of type `l` be used where `r` is expected? -/
def isSubtype (o : TypeOrder) (l r : Ty) : Bool := (o.subtype? l r).getD false

/-- Each is a subtype of the other. -/
def isEquivalent (o : TypeOrder) (l r : Ty) : Bool := o.isSubtype l r && o.isSubtype r l

end TypeOrder
end Gradual
