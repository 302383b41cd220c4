import Gradual.Proofs.ClosedAttributes
import Gradual.Proofs.SubstitutionLaws

/-!
Attributes whose types quantify type variables of their own. The ids of the type variables of every
class start at one, so those that the constructor of a generic class quantifies have the ids of those of
the class whose attribute it is. Type arguments are put in by id wherever the id occurs.
-/

namespace Gradual

/-! ### Substitution that minds what signatures quantify -/

/-- Puts nothing in for the type variables that a signature quantifies. -/
def hide (quantified : List TypeVar) (g : Int → Option Ty) : Int → Option Ty := fun id =>
  if quantified.any (·.id == id) then none else g id

mutual

/-- Replaces the type variables that are free in a type; what a signature quantifies stays. -/
def Ty.substituteFree (g : Int → Option Ty) : Ty → Ty
  | .any => .any
  | .void => .void
  | .noneType => .noneType
  | .inst cls name args => .inst cls name (substituteFreeEach g args)
  | .callable s => .callable (s.substituteFree g)
  | .overloaded items => .overloaded (substituteFreeSignatures g items)
  | .tuple items => .tuple (substituteFreeEach g items)
  | .typeVar v => (g v.id).getD (.typeVar v)
  | .unbound name => .unbound name
  | .error => .error

def Signature.substituteFree (g : Int → Option Ty) : Signature → Signature
  | { argTypes, argKinds, argNames, ret, quantified, isTypeObject, name, isImplicit } =>
    { argTypes := substituteFreeEach (hide quantified g) argTypes
      argKinds
      argNames
      ret := ret.substituteFree (hide quantified g)
      quantified
      isTypeObject
      name
      isImplicit }

def substituteFreeEach (g : Int → Option Ty) : List Ty → List Ty
  | [] => []
  | t :: ts => t.substituteFree g :: substituteFreeEach g ts

def substituteFreeSignatures (g : Int → Option Ty) : List Signature → List Signature
  | [] => []
  | s :: ss => s.substituteFree g :: substituteFreeSignatures g ss

end

variable {quantified : List TypeVar} {g : Int → Option Ty}

theorem hide_eq_self (kept : ∀ v ∈ quantified, g v.id = none) : hide quantified g = g := by
  funext id
  rw [hide]
  split
  · rename_i inside
    obtain ⟨v, member, same⟩ := List.any_eq_true.mp inside
    rw [← eq_of_beq same, kept v member]
  · rfl

theorem hide_eq_none {ids : List Int} {x : Int}
    (free : x ∈ ids.filter (fun id => quantified.all (·.id != id)) → g x = none) (member : x ∈ ids) :
    hide quantified g x = none := by
  rw [hide]
  split
  · rfl
  · rename_i outside
    refine free (List.mem_filter.mpr ⟨member, ?_⟩)
    simpa using outside

mutual

/-- A type of whose free type variables none is replaced stays as it is. -/
theorem Ty.substituteFree_eq_self : (t : Ty) → {g : Int → Option Ty} →
    (∀ x ∈ t.freeVars, g x = none) → t.substituteFree g = t
  | .any, _, _ | .void, _, _ | .noneType, _, _ | .unbound _, _, _ | .error, _, _ => rfl
  | .typeVar v, _, kept => by
    rw [Ty.substituteFree, kept v.id (List.mem_singleton.mpr rfl)]
    rfl
  | .inst c n args, _, kept => congrArg (Ty.inst c n) (substituteFreeEach_eq_self args kept)
  | .tuple items, _, kept => congrArg Ty.tuple (substituteFreeEach_eq_self items kept)
  | .callable s, _, kept => congrArg Ty.callable (s.substituteFree_eq_self kept)
  | .overloaded items, _, kept => congrArg Ty.overloaded (substituteFreeSignatures_eq_self items kept)

theorem substituteFreeEach_eq_self : (ts : List Ty) → {g : Int → Option Ty} →
    (∀ x ∈ freeVarsOfEach ts, g x = none) → substituteFreeEach g ts = ts
  | [], _, _ => rfl
  | t :: ts, _, kept => by
    obtain ⟨kept, kept'⟩ := List.forall_mem_append.mp kept
    rw [substituteFreeEach, t.substituteFree_eq_self kept, substituteFreeEach_eq_self ts kept']

theorem Signature.substituteFree_eq_self : (s : Signature) → {g : Int → Option Ty} →
    (∀ x ∈ s.freeVars, g x = none) → s.substituteFree g = s
  | ⟨argTypes, _, _, ret, quantified, _, _, _⟩, _, kept => by
    have hidden {x : Int} := hide_eq_none (kept x)
    rw [Signature.substituteFree,
      substituteFreeEach_eq_self argTypes fun x free => hidden (List.mem_append_left _ free),
      ret.substituteFree_eq_self fun x free => hidden (List.mem_append_right _ free)]

theorem substituteFreeSignatures_eq_self : (ss : List Signature) → {g : Int → Option Ty} →
    (∀ x ∈ freeVarsOfSignatures ss, g x = none) → substituteFreeSignatures g ss = ss
  | [], _, _ => rfl
  | s :: ss, _, kept => by
    obtain ⟨kept, kept'⟩ := List.forall_mem_append.mp kept
    rw [substituteFreeSignatures, s.substituteFree_eq_self kept,
      substituteFreeSignatures_eq_self ss kept']

end

mutual

/-- Substitution minds what signatures quantify exactly if it replaces none of that. -/
theorem Ty.substitute_eq_substituteFree_iff : (t : Ty) →
    (t.substitute (.ofIds g) = t.substituteFree g ↔ ∀ v ∈ t.quantifiedVars, g v.id = none)
  | .any | .void | .noneType | .unbound _ | .error | .typeVar _ =>
    ⟨fun _ => List.forall_mem_nil _, fun _ => rfl⟩
  | .inst _ _ args => by
    rw [Ty.substitute, Ty.substituteFree, Ty.inst.injEq, Ty.quantifiedVars,
      ← substituteEach_eq_substituteFreeEach_iff args]
    exact ⟨fun same => same.2.2, fun same => ⟨rfl, rfl, same⟩⟩
  | .tuple items => by
    rw [Ty.substitute, Ty.substituteFree, Ty.tuple.injEq, Ty.quantifiedVars]
    exact substituteEach_eq_substituteFreeEach_iff items
  | .callable s => by
    rw [Ty.substitute, Ty.substituteFree, Ty.callable.injEq, Ty.quantifiedVars]
    exact s.substitute_eq_substituteFree_iff
  | .overloaded items => by
    rw [Ty.substitute, Ty.substituteFree, Ty.overloaded.injEq, Ty.quantifiedVars]
    exact substituteSignatures_eq_substituteFreeSignatures_iff items

theorem substituteEach_eq_substituteFreeEach_iff : (ts : List Ty) →
    (Ty.substituteEach (.ofIds g) ts = substituteFreeEach g ts ↔
      ∀ v ∈ quantifiedVarsOfEach ts, g v.id = none)
  | [] => ⟨fun _ => List.forall_mem_nil _, fun _ => rfl⟩
  | t :: ts => by
    rw [Ty.substituteEach, substituteFreeEach, List.cons.injEq, quantifiedVarsOfEach,
      List.forall_mem_append, t.substitute_eq_substituteFree_iff,
      substituteEach_eq_substituteFreeEach_iff ts]

theorem Signature.substitute_eq_substituteFree_iff : (s : Signature) →
    (Ty.substituteSignature (.ofIds g) s = s.substituteFree g ↔
      ∀ v ∈ s.quantifiedVars, g v.id = none)
  | ⟨argTypes, _, _, ret, quantified, _, _, _⟩ => by
    simp only [Ty.substituteSignature, Signature.substituteFree, Signature.mk.injEq, true_and, and_true,
      Signature.quantifiedVars, List.forall_mem_append, List.filter_eq_self, Substitution.ofIds,
      Option.isNone_iff_eq_none]
    -- Where the list of what is quantified stays, nothing is hidden from what is inside.
    constructor
    · rintro ⟨args, result, kept⟩
      rw [hide_eq_self kept] at args result
      exact ⟨kept, (substituteEach_eq_substituteFreeEach_iff argTypes).mp args,
        ret.substitute_eq_substituteFree_iff.mp result⟩
    · rintro ⟨kept, args, result⟩
      rw [hide_eq_self kept]
      exact ⟨(substituteEach_eq_substituteFreeEach_iff argTypes).mpr args,
        ret.substitute_eq_substituteFree_iff.mpr result, kept⟩

theorem substituteSignatures_eq_substituteFreeSignatures_iff : (ss : List Signature) →
    (Ty.substituteSignatures (.ofIds g) ss = substituteFreeSignatures g ss ↔
      ∀ v ∈ quantifiedVarsOfSignatures ss, g v.id = none)
  | [] => ⟨fun _ => List.forall_mem_nil _, fun _ => rfl⟩
  | s :: ss => by
    rw [Ty.substituteSignatures, substituteFreeSignatures, List.cons.injEq, quantifiedVarsOfSignatures,
      List.forall_mem_append, s.substitute_eq_substituteFree_iff,
      substituteSignatures_eq_substituteFreeSignatures_iff ss]

end

/-! ### Classes as values -/

theorem Signature.mem_quantifiedVars_of_quantified {s : Signature} {v : TypeVar}
    (member : v ∈ s.quantified) : v ∈ s.quantifiedVars := by
  cases s
  exact List.mem_append_left _ member

theorem Ty.quantifiedVars_stripped (t : Ty) : t.stripped.quantifiedVars = t.quantifiedVars := by
  have same (s : Signature) : s.withoutName.quantifiedVars = s.quantifiedVars := by
    cases s
    rfl
  cases t with
  | callable s => exact same s
  | overloaded items =>
    have each : quantifiedVarsOfSignatures (items.map Signature.withoutName) =
        quantifiedVarsOfSignatures items := by
      induction items with
      | nil => rfl
      | cons s ss ih =>
        rw [List.map_cons, quantifiedVarsOfSignatures, quantifiedVarsOfSignatures, same, ih]
    exact each
  | any | void | noneType | inst | tuple | typeVar | unbound | error => rfl

/-- The constructor of a class quantifies its type variables. -/
theorem Env.mem_quantifiedVars_typeObject {env : Env} {c : ClassId} {v : TypeVar}
    (constructs : env.initSignatures c ≠ []) (own : v ∈ env.classVariables c) :
    v ∈ (env.typeObject c).quantifiedVars := by
  obtain ⟨s, rest, signatures⟩ := List.exists_cons_of_ne_nil constructs
  unfold typeObject
  dsimp only
  rw [signatures, List.map_cons]
  split
  · rename_i single
    obtain ⟨rfl, -⟩ := List.cons.inj single
    exact Signature.mem_quantifiedVars_of_quantified (List.mem_append_left _ own)
  · refine List.mem_append_left _ ?_
    exact Signature.mem_quantifiedVars_of_quantified (List.mem_append_left _ own)

/-! ### Attributes -/

theorem argument?_eq_none_iff_imp {args : List Ty} {id : Int} :
    argument? args id = none ↔ (1 ≤ id → (args.length : Int) < id) := by
  by_cases one : 1 ≤ id
  · rw [argument?_eq_none_iff one]
    exact ⟨fun h _ => h, fun h => h one⟩
  · simp [argument?, one]

/-- An attribute of an instance has the declared type, with the type arguments put in wherever the id of
a type variable of the declaring class occurs. So exactly the type variables that are free in the
declared type are replaced if no signature in it quantifies a type variable whose id is that of one with
a type argument. Otherwise such a type variable is no longer quantified; it is so of the constructor of
each class that has type variables, if it is held by a variable of a class that has them too. -/
theorem attribute_replaces_only_free_iff {env : Env} {vars : VarTypes} {name : String} {i : Instance}
    {owner : ClassId} {symbol : Symbol} {t : Ty}
    (declared : env.attribute? i.cls name = some (owner, symbol))
    (stated : symbol.memberType? vars = some t) :
    ∃ a, env.attributeType? vars name i.toTy = some a ∧
      a = t.substitute (.ofIds (argument? (env.argsAs i owner))) ∧
      (a = t.substituteFree (argument? (env.argsAs i owner)) ↔
        ∀ v ∈ t.quantifiedVars, 1 ≤ v.id → ((env.argsAs i owner).length : Int) < v.id) ∧
      (env.argsAs i owner ≠ [] → ∀ c, t.stripped = (env.typeObject c).stripped →
        0 < env.classes.arity c → env.initSignatures c ≠ [] →
          a ≠ t.substituteFree (argument? (env.argsAs i owner))) := by
  have free_iff : t.substitute (.ofIds (argument? (env.argsAs i owner))) =
        t.substituteFree (argument? (env.argsAs i owner)) ↔
      ∀ v ∈ t.quantifiedVars, 1 ≤ v.id → ((env.argsAs i owner).length : Int) < v.id := by
    rw [t.substitute_eq_substituteFree_iff]
    exact forall₂_congr fun _ _ => argument?_eq_none_iff_imp
  refine ⟨_, (Env.instanceAttribute?_eq declared stated).trans
    (congrArg some (t.expandBy_eq_substitute _)), rfl, free_iff, ?_⟩
  intro given c holds generic constructs same
  have one : (1 : Int) ≤ env.classes.arity c := by omega
  obtain ⟨v, own, first⟩ := Env.exists_classVariable (Int.le_refl 1) one
  have quantified : v ∈ t.quantifiedVars := by
    rw [← t.quantifiedVars_stripped, holds, Ty.quantifiedVars_stripped]
    exact Env.mem_quantifiedVars_typeObject constructs own
  have beyond := free_iff.mp same v quantified (Int.le_of_eq first.symm)
  have some : 0 < (env.argsAs i owner).length := List.length_pos_iff.mpr given
  omega

/-- A generic class with a member variable, and another generic class. -/
def Builder.holders : Builder :=
  let declared : Build Unit := do
    let holder ← newClass "Holder" ["T"] []
    discard <| newClass "Box" ["T"] []
    discard <| classVar holder "make" none
  (declared.run .bare).2

/-- The constructor of the other class has no free type variable. Held by the variable and read from an
instance with a type argument, it makes boxes of that type argument only. -/
theorem holder_make_captured :
    let env := Env.ofProgram Builder.holders.toProgram default
    let constructor := (env.typeObject 1).stripped
    ∃ v a, env.attribute? 0 "make" = some (0, .var v) ∧
      env.attributeType? (VarTypes.empty.set v constructor) "make"
        (Instance.mk 0 "builtins.Holder" [.noneType]).toTy = some a ∧
      constructor.freeVars = [] ∧ a ≠ constructor := by
  intro env constructor
  obtain ⟨v, declared⟩ : ∃ v, env.attribute? 0 "make" = some (0, .var v) := ⟨_, rfl⟩
  have args : env.argsAs ⟨0, "builtins.Holder", [.noneType]⟩ 0 = [.noneType] := rfl
  have closed : constructor.freeVars = [] := by decide +kernel
  have stated : (Symbol.var v).memberType? (VarTypes.empty.set v constructor) = some constructor :=
    VarTypes.get?_set_self .empty v constructor
  obtain ⟨a, seen, -, -, captured⟩ := attribute_replaces_only_free_iff
    (i := ⟨0, "builtins.Holder", [.noneType]⟩) declared stated
  rw [args] at captured
  have stays : constructor.substituteFree (argument? [.noneType]) = constructor := by
    refine constructor.substituteFree_eq_self fun x free => ?_
    rw [closed] at free
    cases free
  have generic : 0 < env.classes.arity 1 := by decide +kernel
  have constructs : env.initSignatures 1 = [.positional [] .void] := rfl
  have other := captured (List.cons_ne_nil _ _) 1 rfl generic (constructs ▸ List.cons_ne_nil _ _)
  rw [stays] at other
  exact ⟨v, a, declared, seen, closed, other⟩

end Gradual
