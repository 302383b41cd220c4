import Gradual.Proofs.Steps
import Gradual.Proofs.SubstitutionLaws

/-!
Which names have a part in comparisons of types. A function that is given may be called by the names of its
arguments, so that all of them count; of a function that is expected only the names of those arguments
count that are given by keyword only. What functions are called and how classes are spelled never counts.
-/

namespace Gradual

/-- The side of a comparison on which a type stands. -/
inductive Side where
  /-- The type of a value. -/
  | given
  /-- The type that is expected of it. -/
  | expected

/-- The names of formals that count on a side. -/
def Side.names : Side → List ArgKind → List (Option String) → List (Option String)
  | .given, _, names => names
  | .expected, kinds, names => kinds.zipWith (fun kind name => if kind = .named then name else none) names

theorem Side.names_names (side : Side) (kinds : List ArgKind) (names : List (Option String)) :
    side.names kinds (side.names kinds names) = side.names kinds names := by
  cases side with
  | given => rfl
  | expected =>
    induction kinds generalizing names with
    | nil => rfl
    | cons kind kinds ih =>
      cases names with
      | nil => rfl
      | cons name names =>
        have others := ih names
        rw [Side.names, Side.names] at others ⊢
        rw [List.zipWith_cons_cons, List.zipWith_cons_cons, others]
        split <;> rfl

mutual

/-- What counts of a type on a side. The arguments of a function that is expected are given to the one that
is there. -/
def Ty.core (side : Side) : Ty → Ty
  | .any => .any
  | .void => .void
  | .noneType => .noneType
  | .inst cls _ args => .inst cls "" (coreEach side args)
  | .callable sig => .callable (sig.core side)
  | .overloaded items => .overloaded (coreSignatures side items)
  | .tuple items => .tuple (coreEach side items)
  | .typeVar v => .typeVar v
  | .unbound name => .unbound name
  | .error => .error

def Signature.core (side : Side) : Signature → Signature
  | ⟨argTypes, argKinds, argNames, ret, quantified, isTypeObject, _, _⟩ =>
    ⟨coreEach .given argTypes, argKinds, side.names argKinds argNames, ret.core side, quantified,
      isTypeObject, none, false⟩

def coreEach (side : Side) : List Ty → List Ty
  | [] => []
  | t :: ts => t.core side :: coreEach side ts

def coreSignatures (side : Side) : List Signature → List Signature
  | [] => []
  | s :: ss => s.core side :: coreSignatures side ss

end

theorem coreEach_eq_map (side : Side) (ts : List Ty) : coreEach side ts = ts.map (Ty.core side) := by
  induction ts with
  | nil => rfl
  | cons t ts ih => rw [coreEach, ih, List.map_cons]

theorem coreSignatures_eq_map (side : Side) (ss : List Signature) :
    coreSignatures side ss = ss.map (Signature.core side) := by
  induction ss with
  | nil => rfl
  | cons s ss ih => rw [coreSignatures, ih, List.map_cons]

section Laws

variable {f g : Substitution} {height : ClassId → Nat}

mutual

/-- What counts on the side of what is given includes what counts on the other. -/
theorem Ty.core_core {first side : Side} (wider : first = .given ∨ first = side) : (t : Ty) →
    (t.core first).core side = t.core side
  | .any | .void | .noneType | .typeVar _ | .unbound _ | .error => rfl
  | .inst c _ args => congrArg (Ty.inst c "") (coreEach_coreEach wider args)
  | .tuple items => congrArg Ty.tuple (coreEach_coreEach wider items)
  | .callable s => congrArg Ty.callable (Signature.core_core wider s)
  | .overloaded items => congrArg Ty.overloaded (coreSignatures_coreSignatures wider items)

theorem Signature.core_core {first side : Side} (wider : first = .given ∨ first = side) :
    (s : Signature) → (s.core first).core side = s.core side
  | ⟨argTypes, argKinds, argNames, ret, _, _, _, _⟩ => by
    have names : side.names argKinds (first.names argKinds argNames) = side.names argKinds argNames := by
      rcases wider with rfl | rfl
      · rfl
      · exact first.names_names argKinds argNames
    simp only [Signature.core]
    rw [coreEach_coreEach (.inl rfl) argTypes, Ty.core_core wider ret, names]

theorem coreEach_coreEach {first side : Side} (wider : first = .given ∨ first = side) : (ts : List Ty) →
    coreEach side (coreEach first ts) = coreEach side ts
  | [] => rfl
  | t :: ts => by rw [coreEach, coreEach, coreEach, Ty.core_core wider t, coreEach_coreEach wider ts]

theorem coreSignatures_coreSignatures {first side : Side} (wider : first = .given ∨ first = side) :
    (ss : List Signature) → coreSignatures side (coreSignatures first ss) = coreSignatures side ss
  | [] => rfl
  | s :: ss => by
    rw [coreSignatures, coreSignatures, coreSignatures, Signature.core_core wider s,
      coreSignatures_coreSignatures wider ss]

end

/-- The substitution `g` puts in what counts of what `f` puts in, whichever side it comes to stand on. -/
structure Substitution.Cored (side : Side) (f g : Substitution) : Prop where
  given : ∀ v, (f v).map (Ty.core .given) = g v
  own : ∀ v, (f v).map (Ty.core side) = g v

theorem Substitution.Cored.asGiven {side : Side} (h : f.Cored side g) : f.Cored .given g :=
  ⟨h.given, h.given⟩

mutual

/-- What counts of a type in which types are put in. -/
theorem Ty.core_substitute {side : Side} (h : f.Cored side g) : (t : Ty) →
    (t.substitute f).core side = (t.core side).substitute g
  | .any | .void | .noneType | .unbound _ | .error => rfl
  | .typeVar v => by
    rw [Ty.substitute, Ty.core, Ty.substitute, ← h.own v]
    cases f v <;> rfl
  | .inst c _ args => congrArg (Ty.inst c "") (coreEach_substituteEach h args)
  | .tuple items => congrArg Ty.tuple (coreEach_substituteEach h items)
  | .callable s => congrArg Ty.callable (Signature.core_substitute h s)
  | .overloaded items => congrArg Ty.overloaded (coreSignatures_substituteSignatures h items)

theorem Signature.core_substitute {side : Side} (h : f.Cored side g) : (s : Signature) →
    (Ty.substituteSignature f s).core side = Ty.substituteSignature g (s.core side)
  | ⟨argTypes, _, _, ret, quantified, _, _, _⟩ => by
    have kept : quantified.filter (fun v => (f v).isNone) = quantified.filter fun v => (g v).isNone := by
      refine List.filter_congr fun v _ => ?_
      rw [← h.given v, Option.isNone_map]
    simp only [Ty.substituteSignature, Signature.core]
    rw [coreEach_substituteEach h.asGiven argTypes, Ty.core_substitute h ret, kept]

theorem coreEach_substituteEach {side : Side} (h : f.Cored side g) : (ts : List Ty) →
    coreEach side (Ty.substituteEach f ts) = Ty.substituteEach g (coreEach side ts)
  | [] => rfl
  | t :: ts => by
    rw [Ty.substituteEach, coreEach, coreEach, Ty.substituteEach, Ty.core_substitute h t,
      coreEach_substituteEach h ts]

theorem coreSignatures_substituteSignatures {side : Side} (h : f.Cored side g) :
    (ss : List Signature) →
    coreSignatures side (Ty.substituteSignatures f ss) = Ty.substituteSignatures g (coreSignatures side ss)
  | [] => rfl
  | s :: ss => by
    rw [Ty.substituteSignatures, coreSignatures, coreSignatures, Ty.substituteSignatures,
      Signature.core_substitute h s, coreSignatures_substituteSignatures h ss]

end

mutual

theorem Ty.depth_core {side : Side} : (t : Ty) → (t.core side).depth height = t.depth height
  | .any | .void | .noneType | .typeVar _ | .unbound _ | .error => rfl
  | .inst c _ args => congrArg (1 + height c + ·) (depthEach_coreEach args)
  | .tuple items => congrArg (1 + ·) (depthEach_coreEach items)
  | .callable s => congrArg (1 + ·) (Signature.depth_core s)
  | .overloaded items => congrArg (2 + ·) (depthSignatures_coreSignatures items)

theorem Signature.depth_core {side : Side} : (s : Signature) → (s.core side).depth height = s.depth height
  | ⟨argTypes, _, _, ret, _, _, _, _⟩ => by
    rw [Signature.core, Signature.depth, Signature.depth, depthEach_coreEach argTypes, Ty.depth_core ret]

theorem depthEach_coreEach {side : Side} : (ts : List Ty) →
    depthEach height (coreEach side ts) = depthEach height ts
  | [] => rfl
  | t :: ts => by rw [coreEach, depthEach, depthEach, Ty.depth_core t, depthEach_coreEach ts]

theorem depthSignatures_coreSignatures {side : Side} : (ss : List Signature) →
    depthSignatures height (coreSignatures side ss) = depthSignatures height ss
  | [] => rfl
  | s :: ss => by
    rw [coreSignatures, depthSignatures, depthSignatures, Signature.depth_core s,
      depthSignatures_coreSignatures ss]

end

theorem Substitution.Cored.erasing {side : Side} :
    Substitution.Cored side (fun _ => some .any) fun _ => some .any :=
  ⟨fun _ => rfl, fun _ => rfl⟩

theorem map_core_core (ts : List Ty) :
    (ts.map (Ty.core .given)).map (Ty.core .given) = ts.map (Ty.core .given) := by
  rw [← coreEach_eq_map, ← coreEach_eq_map, coreEach_coreEach (.inl rfl)]

theorem Ty.core_erase {side : Side} (t : Ty) : t.erase.core side = (t.core side).erase :=
  Ty.core_substitute .erasing t

theorem Signature.core_erased {side : Side} (s : Signature) : s.erased.core side = (s.core side).erased :=
  Signature.core_substitute .erasing s

theorem Ty.isTypeObject_core {side : Side} (t : Ty) : (t.core side).isTypeObject = t.isTypeObject := by
  cases t with
  | callable s =>
    cases s
    rfl
  | overloaded items =>
    cases items with
    | nil => rfl
    | cons s rest =>
      cases s
      rfl
  | any | void | noneType | inst | tuple | typeVar | unbound | error => rfl

end Laws

/-! ### Formals -/

namespace Signature

variable {side : Side} {s : Signature}

theorem argTypes_core : (s.core side).argTypes = s.argTypes.map (Ty.core .given) := by
  cases s
  exact coreEach_eq_map .given _

theorem argKinds_core : (s.core side).argKinds = s.argKinds := by
  cases s
  rfl

theorem argNames_core : (s.core side).argNames = side.names s.argKinds s.argNames := by
  cases s
  rfl

theorem quantified_core : (s.core side).quantified = s.quantified := by
  cases s
  rfl

theorem typeOfKind?_core (kind : ArgKind) :
    (s.core side).typeOfKind? kind = (s.typeOfKind? kind).map (Ty.core .given) := by
  rw [typeOfKind?, typeOfKind?, argTypes_core, argKinds_core, List.zip_map_right, List.find?_map,
    Option.map_map, Option.map_map]
  rfl

theorem typeOfName?_core (name : Option String) :
    (s.core .given).typeOfName? name = (s.typeOfName? name).map (Ty.core .given) := by
  cases name with
  | none => rfl
  | some name =>
    rw [typeOfName?, typeOfName?, argTypes_core, argNames_core, Side.names, List.zip_map_right,
      List.find?_map, Option.map_map, Option.map_map]
    rfl

theorem fixedTypes_core : (s.core side).fixedTypes = s.fixedTypes.map (Ty.core .given) := by
  rw [fixedTypes, fixedTypes, argTypes_core, argKinds_core, List.zip_map_right, List.filter_map,
    List.map_map, List.map_map]
  rfl

theorem taker?_core (next : Option Ty) (kind : ArgKind) (name : Option String) :
    (s.core .given).taker? (next.map (Ty.core .given)) kind name =
      (s.taker? next kind name).map (Ty.core .given) := by
  cases kind <;> simp only [taker?, typeOfKind?_core, typeOfName?_core, Option.map_or]

theorem takersFrom_core (fixed : List Ty) (ks : List (ArgKind × Option String)) :
    (s.core .given).takersFrom (fixed.map (Ty.core .given)) ks =
      (s.takersFrom fixed ks).map (Option.map (Ty.core .given)) := by
  induction ks generalizing fixed with
  | nil => rfl
  | cons k ks ih =>
    have left : (if k.1.isFixed then (fixed.map (Ty.core .given)).tail else fixed.map (Ty.core .given)) =
        (if k.1.isFixed then fixed.tail else fixed).map (Ty.core .given) := by
      split
      · exact List.map_tail.symm
      · rfl
    rw [takersFrom, takersFrom, List.map_cons, List.head?_map, taker?_core, left, ih]

/-- Only the names of formals that are given by keyword only decide what takes their arguments. -/
theorem takersFrom_names (fixed : List Ty) (kinds : List ArgKind) (names : List (Option String)) :
    s.takersFrom fixed (kinds.zip (Side.expected.names kinds names)) =
      s.takersFrom fixed (kinds.zip names) := by
  induction kinds generalizing fixed names with
  | nil => rfl
  | cons kind kinds ih =>
    cases names with
    | nil => rfl
    | cons name names =>
      have first : s.taker? fixed.head? kind (if kind = .named then name else none) =
          s.taker? fixed.head? kind name := by
        cases kind <;> rfl
      have others := ih (if kind.isFixed then fixed.tail else fixed) names
      rw [Side.names] at others ⊢
      rw [List.zipWith_cons_cons, List.zip_cons_cons, List.zip_cons_cons, takersFrom, takersFrom, first,
        others]

theorem takers_core (l r : Signature) :
    (l.core .given).takers (r.core .expected) = (l.takers r).map (Option.map (Ty.core .given)) := by
  rw [takers, takers, argKinds_core, argNames_core, takersFrom_names, fixedTypes_core, takersFrom_core]

end Signature

/-! ### Views -/

/-- What counts of an instance. -/
def Instance.core (i : Instance) : Instance := ⟨i.cls, "", i.args.map (Ty.core .given)⟩

theorem Instance.core_inj {i j : Instance} (same : i.core = j.core) :
    i.cls = j.cls ∧ i.args.map (Ty.core .given) = j.args.map (Ty.core .given) := by
  rw [core, core, mk.injEq] at same
  exact ⟨same.1, same.2.2⟩

theorem Ty.core_expandBy (t : Ty) (args : List Ty) :
    (t.expandBy args).core .given = (t.core .given).expandBy (args.map (Ty.core .given)) := by
  have put (v : TypeVar) : (Substitution.ofIds (argument? args) v).map (Ty.core .given) =
      Substitution.ofIds (argument? (args.map (Ty.core .given))) v := by
    rw [Substitution.ofIds, Substitution.ofIds, argument?, argument?]
    split
    · rw [List.getElem?_map]
    · rfl
  rw [expandBy_eq_substitute, expandBy_eq_substitute, Ty.core_substitute ⟨put, put⟩]

theorem Instance.core_expandBy (base : Instance) (args : List Ty) :
    (base.expandBy args).core = base.core.expandBy (args.map (Ty.core .given)) := by
  have each : (base.args.map (·.expandBy args)).map (Ty.core .given) =
      (base.args.map (Ty.core .given)).map (·.expandBy (args.map (Ty.core .given))) := by
    rw [List.map_map, List.map_map]
    exact List.map_congr_left fun t _ => t.core_expandBy args
  rw [core, expandBy, each]
  rfl

namespace ClassTable

variable {t : ClassTable} {i j : Instance} {c : ClassId}

/-- What counts of a view is decided by what counts of the instance. -/
theorem viewWithin_core {depth : Nat} (same : i.core = j.core) :
    (t.viewWithin depth i c).map Instance.core = (t.viewWithin depth j c).map Instance.core := by
  induction depth generalizing i j with
  | zero =>
    obtain ⟨cls, -⟩ := Instance.core_inj same
    rw [viewWithin, viewWithin, cls]
    split
    · exact congrArg some same
    · rfl
  | succ depth ih =>
    obtain ⟨cls, args⟩ := Instance.core_inj same
    have bases (base : Instance) : (t.viewWithin depth (base.expandBy i.args) c).map Instance.core =
        (t.viewWithin depth (base.expandBy j.args) c).map Instance.core :=
      ih (by rw [Instance.core_expandBy, Instance.core_expandBy, args])
    rw [viewWithin, viewWithin, cls]
    split
    · exact congrArg some same
    · split
      · rw [List.map_findSome?, List.map_findSome?]
        exact congrArg (List.findSome? · (t.bases j.cls)) (funext bases)
      · rfl

theorem view?_core (same : i.core = j.core) :
    (t.view? i c).map Instance.core = (t.view? j c).map Instance.core := by
  obtain ⟨cls, -⟩ := Instance.core_inj same
  rw [view?, view?, cls]
  exact viewWithin_core same

end ClassTable

/-! ### Comparisons -/

theorem allM_map {α β : Type} (f : β → Option Bool) (g : α → β) (xs : List α) :
    (xs.map g).allM f = xs.allM fun x => f (g x) := by
  induction xs with
  | nil => rfl
  | cons x xs ih => rw [List.map_cons, allM_cons_eq, allM_cons_eq, ih]

theorem anyM_map {α β : Type} (f : β → Option Bool) (g : α → β) (xs : List α) :
    (xs.map g).anyM f = xs.anyM fun x => f (g x) := by
  induction xs with
  | nil => rfl
  | cons x xs ih => rw [List.map_cons, anyM_cons_eq, anyM_cons_eq, ih]

namespace TypeOrder

variable {o : TypeOrder} {le : Ty → Ty → Option Bool}

/-- What is compared is what counts of two types. -/
def SeesCores (le : Ty → Ty → Option Bool) : Prop :=
  ∀ {l l' r r' : Ty}, l.core .given = l'.core .given → r.core .expected = r'.core .expected →
    le l r = le l' r'

namespace SeesCores

variable (sees : SeesCores le)
include sees

theorem core (l r : Ty) : le (l.core .given) (r.core .expected) = le l r :=
  sees (l.core_core (.inl rfl)) (r.core_core (.inr rfl))

theorem takenLe (p : Ty × Option Ty) :
    TypeOrder.takenLe le (p.1.core .given, p.2.map (Ty.core .given)) = TypeOrder.takenLe le p := by
  obtain ⟨type, taker⟩ := p
  cases taker with
  | none => rfl
  | some taker => exact sees (type.core_core (.inl rfl)) (taker.core_core (.inl rfl))

theorem plainSignatureLe (l r : Signature) :
    TypeOrder.plainSignatureLe le (l.core .given) (r.core .expected) =
      TypeOrder.plainSignatureLe le l r := by
  have formals : ((r.core .expected).argTypes.zip ((l.core .given).takers (r.core .expected))).allM
      (TypeOrder.takenLe le) = (r.argTypes.zip (l.takers r)).allM (TypeOrder.takenLe le) := by
    rw [Signature.argTypes_core, Signature.takers_core, List.zip_map, allM_map]
    exact congrArg (List.allM · (r.argTypes.zip (l.takers r))) (funext sees.takenLe)
  rw [plainSignatureLe_eq, plainSignatureLe_eq, formals]
  cases l
  cases r
  simp only [Signature.core, sees.core]
  rfl

theorem signatureLe (l r : Signature) :
    TypeOrder.signatureLe le (l.core .given) (r.core .expected) = TypeOrder.signatureLe le l r := by
  rw [TypeOrder.signatureLe, TypeOrder.signatureLe, ← Signature.core_erased, ← Signature.core_erased,
    sees.plainSignatureLe, sees.plainSignatureLe, Signature.quantified_core, Signature.quantified_core]

theorem argsLe {as as' bs : List Ty} (same : as.map (Ty.core .given) = as'.map (Ty.core .given)) :
    TypeOrder.argsLe le as (bs.map (Ty.core .expected)) = TypeOrder.argsLe le as' bs := by
  have cores (as : List Ty) : TypeOrder.argsLe le (as.map (Ty.core .given)) (bs.map (Ty.core .expected)) =
      TypeOrder.argsLe le as bs := by
    rw [TypeOrder.argsLe, List.zip_map, allM_map]
    exact congrArg (List.allM · (as.zip bs)) (funext fun p => sees.core p.1 p.2)
  have expected (as : List Ty) : TypeOrder.argsLe le as (bs.map (Ty.core .expected)) =
      TypeOrder.argsLe le as bs := by
    have right (p : Ty × Ty) : le p.1 (p.2.core .expected) = le p.1 p.2 :=
      sees rfl (p.2.core_core (.inr rfl))
    rw [TypeOrder.argsLe, List.zip_map_right, allM_map]
    exact congrArg (List.allM · (as.zip bs)) (funext right)
  rw [expected, ← cores as, same, cores as']

theorem instanceLe {i i' : Instance} (same : i.core = i'.core) (c : ClassId) (m m' : String)
    (bs : List Ty) : o.instanceLe le i ⟨c, m, bs.map (Ty.core .expected)⟩ =
      o.instanceLe le i' ⟨c, m', bs⟩ := by
  have views := ClassTable.view?_core (t := o.classes) (c := c) same
  unfold TypeOrder.instanceLe
  dsimp only
  cases left : o.classes.view? i c with
  | none =>
    rw [left] at views
    rw [Option.map_eq_none_iff.mp views.symm]
  | some view =>
    rw [left] at views
    obtain ⟨view', right, alike⟩ := Option.map_eq_some_iff.mp views.symm
    rw [right]
    exact sees.argsLe (Instance.core_inj alike).2.symm

end SeesCores

theorem fallback?_core {side : Side} (t : Ty) : o.fallback? (t.core side) = o.fallback? t := by
  have object : (t.core side).isTypeObject = t.isTypeObject := t.isTypeObject_core
  cases t with
  | callable s =>
    rw [Ty.core] at object ⊢
    rw [fallback?, fallback?, object]
  | overloaded items =>
    rw [Ty.core] at object ⊢
    rw [fallback?, fallback?, object]
  | any | void | noneType | inst | tuple | typeVar | unbound | error => rfl

namespace SeesCores

variable (sees : SeesCores le)
include sees

theorem fallback (side : Side) (t : Ty) (c : ClassId) (m m' : String) (bs : List Ty) :
    (Question.instances (o.fallback? (t.core side)) ⟨c, m, bs.map (Ty.core .expected)⟩).answer o le =
      (Question.instances (o.fallback? t) ⟨c, m', bs⟩).answer o le := by
  rw [fallback?_core]
  cases o.fallback? t with
  | none => rfl
  | some i => exact sees.instanceLe rfl c m m' bs

theorem oneOf (items : List Signature) (r : Ty) :
    (Question.oneOf (coreSignatures .given items) (r.core .expected)).answer o le =
      (Question.oneOf items r).answer o le := by
  rw [Question.answer, coreSignatures_eq_map, anyM_map]
  exact congrArg items.anyM (funext fun s => sees.core (.callable s) r)

theorem eachOf (l : Ty) (items : List Signature) :
    (Question.eachOf (l.core .given) (coreSignatures .expected items)).answer o le =
      (Question.eachOf l items).answer o le := by
  rw [Question.answer, coreSignatures_eq_map, allM_map]
  exact congrArg items.allM (funext fun s => sees.core l (.callable s))

/-- What a comparison comes down to sees no more than what counts. -/
theorem answer (l r : Ty) :
    (o.question (l.core .given) (r.core .expected)).answer o le = (o.question l r).answer o le := by
  cases l with
  | any | void | noneType | unbound | error => cases r <;> rfl
  | typeVar v =>
    have bound (r : Ty) : le v.upperBound (r.core .expected) = le v.upperBound r :=
      sees rfl (r.core_core (.inr rfl))
    cases r with
    | any | void | noneType | typeVar | unbound | error => rfl
    | inst d m bs => exact bound (.inst d m bs)
    | callable t => exact bound (.callable t)
    | overloaded ts => exact bound (.overloaded ts)
    | tuple bs => exact bound (.tuple bs)
  | overloaded items =>
    cases r with
    | any | void | typeVar | unbound | error => rfl
    | noneType => exact sees.oneOf items .noneType
    | inst d m bs => exact sees.oneOf items (.inst d m bs)
    | callable t => exact sees.oneOf items (.callable t)
    | overloaded ts => exact sees.oneOf items (.overloaded ts)
    | tuple bs => exact sees.oneOf items (.tuple bs)
  | callable s =>
    cases r with
    | any | void | noneType | typeVar | unbound | error | tuple => rfl
    | inst d m bs =>
      have back := sees.fallback (o := o) .given (.callable s) d "" m bs
      rwa [← coreEach_eq_map] at back
    | callable t => exact sees.signatureLe s t
    | overloaded items => exact sees.eachOf (.callable s) items
  | tuple as =>
    cases r with
    | any | void | noneType | typeVar | unbound | error | callable => rfl
    | inst d m bs =>
      have back := sees.fallback (o := o) .given (.tuple as) d "" m bs
      rwa [← coreEach_eq_map] at back
    | overloaded items => exact sees.eachOf (.tuple as) items
    | tuple bs =>
      have asked (cs ds : List Ty) : o.question (.tuple cs) (.tuple ds) =
          if cs.length = ds.length then .args cs ds else .settled false := rfl
      rw [Ty.core, Ty.core, asked, asked, coreEach_eq_map, coreEach_eq_map, List.length_map,
        List.length_map]
      split
      · exact sees.argsLe (map_core_core as)
      · rfl
  | inst c n as =>
    cases r with
    | any | void | noneType | typeVar | unbound | error | callable | tuple => rfl
    | inst d m bs =>
      have args : Instance.core ⟨c, "", coreEach .given as⟩ = Instance.core ⟨c, n, as⟩ := by
        rw [Instance.core, Instance.core, coreEach_eq_map, map_core_core]
      have compared := sees.instanceLe (o := o) args d "" m bs
      rwa [← coreEach_eq_map] at compared
    | overloaded items => exact sees.eachOf (.inst c n as) items

end SeesCores

theorem seesCores_subtypeWithin (steps : Nat) : SeesCores (o.subtypeWithin steps) := by
  induction steps with
  | zero => exact fun _ _ => rfl
  | succ steps ih =>
    intro l l' r r' left right
    rw [subtypeWithin_succ, subtypeWithin_succ, ← ih.answer l r, ← ih.answer l' r', left, right]

/-- A type fits where another is expected if what counts of it fits where what counts of the other is
expected. -/
theorem isSubtype_core (l r : Ty) : o.isSubtype (l.core .given) (r.core .expected) = o.isSubtype l r := by
  have budget : o.budget (l.core .given) (r.core .expected) = o.budget l r := by
    rw [TypeOrder.budget, TypeOrder.budget, Ty.depth_core, Ty.depth_core]
  rw [isSubtype, isSubtype, subtype?, subtype?, budget, SeesCores.core (seesCores_subtypeWithin _)]

theorem isSubtype_core_right (l r : Ty) : o.isSubtype l (r.core .expected) = o.isSubtype l r := by
  rw [← isSubtype_core l r, ← isSubtype_core l (r.core .expected), r.core_core (.inr rfl)]

end TypeOrder
end Gradual
