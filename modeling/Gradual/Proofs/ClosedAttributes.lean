import Gradual.Checker.Override
import Gradual.Proofs.FreeVariables
import Gradual.Proofs.Supertypes

/-!
Type variables in the types of attributes. The attribute of an instance is what the class declares,
with the type arguments put in with which the instance is seen as one of that class. Where there are
fewer of them than the class has type variables, the others stay: a class that derives from a generic
class without type arguments has attributes whose types mention the type variables of that class.
-/

namespace Gradual

/-- An instance with a type argument for each type variable of its class, in which at most the first
`n` type variables of a class are free. -/
structure Instance.Applied (t : ClassTable) (n : Nat) (i : Instance) : Prop where
  length : i.args.length = t.arity i.cls
  args : ∀ a ∈ i.args, a.OnlyFirst n

/-- The bases of each class have all their type arguments and mention only its type variables. -/
def ClassTable.BasesApplied (t : ClassTable) : Prop :=
  ∀ c, ∀ base ∈ t.bases c, base.Applied t (t.arity c)

theorem Instance.Applied.view? {t : ClassTable} {i j : Instance} {c : ClassId} {n : Nat}
    (bases : t.BasesApplied) (seen : t.view? i c = some j) (start : i.Applied t n) :
    j.Applied t n := by
  refine ClassTable.viewWithin_induction (fun k => k.Applied t n) ?_ seen start
  intro k applied base member
  have own := bases k.cls base member
  constructor
  · simpa only [Instance.expandBy, List.length_map] using own.length
  · intro a listed
    obtain ⟨b, written, rfl⟩ := List.mem_map.mp listed
    have enough := own.args b written
    rw [← applied.length] at enough
    exact enough.expandBy applied.args

/-! ### Signatures -/

theorem Signature.mem_freeVars_of_bound {s : Signature} {x : Int} (h : x ∈ s.bound.freeVars) :
    x ∈ s.freeVars := by
  rw [Signature.mem_freeVars] at h ⊢
  refine ⟨h.1.imp_left ?_, h.2⟩
  rintro ⟨t, member, free⟩
  exact ⟨t, List.mem_of_mem_tail member, free⟩

theorem Ty.mem_freeVars_of_signatures {t : Ty} {s : Signature} {x : Int} (member : s ∈ t.signatures)
    (h : x ∈ s.freeVars) : x ∈ t.freeVars := by
  cases t with
  | callable u => exact List.mem_singleton.mp member ▸ h
  | overloaded items => exact mem_freeVarsOfSignatures.mpr ⟨s, member, h⟩
  | any | void | noneType | inst | tuple | typeVar | unbound | error => cases member

theorem Ty.mem_freeVars_of_boundMethod {t : Ty} {x : Int} (h : x ∈ t.boundMethod.freeVars) :
    x ∈ t.freeVars := by
  cases t with
  | callable s => exact Signature.mem_freeVars_of_bound h
  | overloaded items =>
    obtain ⟨_, made, free⟩ := mem_freeVarsOfSignatures.mp h
    obtain ⟨s, member, rfl⟩ := List.mem_map.mp made
    exact mem_freeVarsOfSignatures.mpr ⟨s, member, Signature.mem_freeVars_of_bound free⟩
  | any | void | noneType | inst | tuple | typeVar | unbound | error => exact h

/-! ### Classes as values -/

namespace Env

variable {env : Env} {c owner : ClassId}

theorem id_of_mem_classVariables {v : TypeVar} (h : v ∈ env.classVariables c) :
    1 ≤ v.id ∧ v.id ≤ env.classes.arity c := by
  obtain ⟨i, inside, rfl⟩ := List.mem_mapIdx.mp h
  simp only [TypeVar.plain, ClassTable.arity]
  omega

theorem exists_classVariable {x : Int} (one : 1 ≤ x) (low : x ≤ env.classes.arity c) :
    ∃ v ∈ env.classVariables c, v.id = x := by
  have inside : (x - 1).toNat < (env.classes.info c).typeVars.length := by
    simp only [ClassTable.arity] at low
    omega
  refine ⟨_, List.mem_mapIdx.mpr ⟨(x - 1).toNat, inside, rfl⟩, ?_⟩
  simp only [TypeVar.plain]
  omega

theorem selfInstance_applied : (env.selfInstance c).Applied env.classes (env.classes.arity c) := by
  constructor
  · simp [selfInstance, ClassTable.instanceOf, classVariables, ClassTable.arity]
  · intro a member x free one
    obtain ⟨v, listed, rfl⟩ := List.mem_map.mp member
    rw [List.mem_singleton.mp free]
    exact (id_of_mem_classVariables listed).2

variable (lin : env.classes.Linearized) (earlier : env.classes.BasesEarlier)
  (bases : env.classes.BasesApplied)
include lin earlier bases

/-- In terms of a class, a type from the body of a class behind it mentions only the type variables of
the former. -/
theorem fromSupertype_onlyFirst {t : Ty} (derived : env.classes.derives c owner = true)
    (own : t.OnlyFirst (env.classes.arity owner)) :
    (env.fromSupertype t c owner).OnlyFirst (env.classes.arity c) := by
  have known := ClassTable.lt_size_of_derives derived
  obtain ⟨view, seen⟩ := Option.isSome_iff_exists.mp
    ((ClassTable.isSome_view?_iff (i := env.selfInstance c) lin earlier known).mpr derived)
  have applied := selfInstance_applied.view? bases seen
  rw [fromSupertype, seen]
  rw [← ClassTable.view?_cls seen, ← applied.length] at own
  exact own.expandBy applied.args

variable {vars : VarTypes}
  (members : ∀ c name t, env.declaredType? vars c name = some t → t.OnlyFirst (env.classes.arity c))
include members

theorem initSignatures_onlyFirst {s : Signature} (h : s ∈ env.initSignatures c) :
    (Ty.callable s).OnlyFirst (env.classes.arity c) := by
  unfold initSignatures at h
  dsimp only at h
  split at h
  · rename_i owner type found
    obtain ⟨d, derived, declared⟩ := List.exists_of_findSome?_eq_some found
    split at declared
    · rename_i f own
      cases declared
      have stated : env.declaredType? vars owner "__init__" = some f.type := by
        rw [declaredType?, own]
        rfl
      obtain ⟨u, member, rfl⟩ := List.mem_map.mp h
      have closed := fromSupertype_onlyFirst lin earlier bases
        (ClassTable.derives_iff.mpr derived) (members owner "__init__" f.type stated)
      intro x free one
      exact closed x (Ty.mem_freeVars_of_signatures member (Signature.mem_freeVars_of_bound free)) one
    · cases declared
  · rw [List.mem_singleton.mp h]
    intro x free
    cases free

/-- A class as a value quantifies its type variables. -/
theorem typeObject_closed : (env.typeObject c).OnlyFirst 0 := by
  have constructor {s : Signature} (h : s ∈ env.initSignatures c) {x : Int} (one : 1 ≤ x)
      (free : x ∈ Signature.freeVars { s with
        ret := (env.selfInstance c).toTy
        quantified := env.classVariables c ++ s.quantified
        isTypeObject := true
        name := some (env.classes.info c).name }) : False := by
    rw [Signature.mem_freeVars] at free
    obtain ⟨inside, unbound⟩ := free
    obtain ⟨own, inner⟩ := List.forall_mem_append.mp unbound
    have low : x ≤ env.classes.arity c := by
      rcases inside with formal | result
      · have free : x ∈ (Ty.callable s).freeVars := Signature.mem_freeVars.mpr ⟨.inl formal, inner⟩
        exact initSignatures_onlyFirst lin earlier bases members h x free one
      · obtain ⟨a, listed, free⟩ := mem_freeVarsOfEach.mp result
        exact selfInstance_applied.args a listed x free one
    obtain ⟨v, listed, same⟩ := exists_classVariable one low
    exact own v listed same
  intro x free one
  refine absurd free fun free => ?_
  unfold typeObject at free
  dsimp only at free
  split at free
  · rename_i single
    obtain ⟨s, member, made⟩ := List.mem_map.mp (single ▸ List.mem_singleton.mpr rfl)
    exact constructor member one (made ▸ free)
  · obtain ⟨_, made, free⟩ := mem_freeVarsOfSignatures.mp free
    obtain ⟨s, member, rfl⟩ := List.mem_map.mp made
    exact constructor member one free

end Env

/-! ### Attributes of instances -/

/-- What a declaration says of an attribute of instances before type arguments are put in. -/
def Symbol.memberType? (vars : VarTypes) : Symbol → Option Ty
  | .func f => some f.type.boundMethod
  | .var v => vars.get? v
  | .cls _ | .module _ | .typeVar _ => none

namespace Env

variable {env : Env} {vars : VarTypes} {name : String} {i : Instance} {a : Ty}

theorem attribute?_eq_some {c owner : ClassId} {symbol : Symbol}
    (h : env.attribute? c name = some (owner, symbol)) :
    env.classes.derives c owner = true ∧ env.classes.own? owner name = some symbol := by
  obtain ⟨d, listed, found⟩ := List.exists_of_findSome?_eq_some h
  obtain ⟨_, own, same⟩ := Option.map_eq_some_iff.mp found
  cases same
  exact ⟨ClassTable.derives_iff.mpr listed, own⟩

/-- The attribute is the declared one, seen through the type arguments with which the instance is one
of the class that declares it. -/
theorem instanceAttribute?_eq_some (lin : env.classes.Linearized) (earlier : env.classes.BasesEarlier)
    (found : env.instanceAttribute? vars name i = some a) :
    ∃ owner symbol view, env.attribute? i.cls name = some (owner, symbol) ∧
      env.classes.view? i owner = some view ∧
      (∀ t, symbol.memberType? vars = some t → a = t.expandBy view.args) ∧
      (symbol.memberType? vars = none → a = .any ∨ ∃ c, symbol = .cls c ∧ a = env.typeObject c) := by
  obtain ⟨⟨owner, symbol⟩, declared, made⟩ := Option.bind_eq_some_iff.mp found
  have derived := (attribute?_eq_some declared).1
  obtain ⟨view, seen⟩ := Option.isSome_iff_exists.mp
    ((ClassTable.isSome_view?_iff lin earlier (ClassTable.lt_size_of_derives derived)).mpr derived)
  refine ⟨owner, symbol, view, declared, seen, ?_⟩
  simp only [seen] at made
  cases symbol with
  | func f =>
    cases made
    simp [Symbol.memberType?]
  | var v =>
    cases known : vars.get? v with
    | none | some =>
      simp only [known] at made
      cases made
      simp [Symbol.memberType?, known]
  | cls c =>
    cases made
    simp [Symbol.memberType?]
  | module | typeVar =>
    cases made
    simp [Symbol.memberType?]

/-- The type arguments with which an instance is seen as one of a class; none if it is not one. -/
def argsAs (env : Env) (i : Instance) (c : ClassId) : List Ty :=
  ((env.classes.view? i c).map (·.args)).getD []

theorem instanceAttribute?_eq {owner : ClassId} {symbol : Symbol} {t : Ty}
    (declared : env.attribute? i.cls name = some (owner, symbol))
    (stated : symbol.memberType? vars = some t) :
    env.instanceAttribute? vars name i = some (t.expandBy (env.argsAs i owner)) := by
  rw [instanceAttribute?, declared, argsAs]
  simp only [Option.bind_eq_bind, Option.bind_some]
  cases symbol with
  | func f =>
    cases stated
    cases env.classes.view? i owner <;> rfl
  | var v =>
    have known : vars.get? v = some t := stated
    simp only [known, Option.map_some, Option.getD_some]
    cases env.classes.view? i owner <;> rfl
  | cls | module | typeVar => cases stated

theorem memberType?_onlyFirst {c : ClassId} {symbol : Symbol} {t : Ty}
    (members : ∀ c name t, env.declaredType? vars c name = some t →
      t.OnlyFirst (env.classes.arity c))
    (own : env.classes.own? c name = some symbol) (stated : symbol.memberType? vars = some t) :
    t.OnlyFirst (env.classes.arity c) := by
  have declared {type : Ty} (same : symbol.declaredType? vars = some type) :
      type.OnlyFirst (env.classes.arity c) := by
    refine members c name type ?_
    rw [declaredType?, own]
    exact same
  cases symbol with
  | func f =>
    cases stated
    exact fun x free => declared rfl x (Ty.mem_freeVars_of_boundMethod free)
  | var v => exact declared stated
  | cls | module | typeVar => cases stated

end Env

/-- In a program whose members mention only type variables of the classes that declare them, an
attribute of an instance has the declared type, with the type arguments put in with which the instance
is seen as one of the declaring class. If these are closed, then a type variable of that class stays
free exactly where it is declared and there is no type argument for it. There is one for each where the
instance and all bases have their type arguments; then the type of the attribute is closed. -/
theorem attribute_closed_where_applied {made : List Expr} {b : Builder} (built : Builder.Built made b)
    (earlier : b.classes.BasesEarlier) (options : Options) (vars : VarTypes)
    (members : ∀ c name t, (Env.ofProgram b.toProgram options).declaredType? vars c name = some t →
      t.OnlyFirst (b.classes.arity c))
    {name : String} {i : Instance} (closed : ∀ arg ∈ i.args, arg.OnlyFirst 0) {a : Ty}
    (found : (Env.ofProgram b.toProgram options).instanceAttribute? vars name i = some a) :
    ∃ owner symbol view,
      (Env.ofProgram b.toProgram options).attribute? i.cls name = some (owner, symbol) ∧
      b.classes.view? i owner = some view ∧
      (∀ t, symbol.memberType? vars = some t →
        a = t.expandBy view.args ∧
        ((∀ arg ∈ view.args, arg.OnlyFirst 0) → ∀ x : Int, 1 ≤ x →
          (x ∈ a.freeVars ↔ x ∈ t.freeVars ∧ (view.args.length : Int) < x))) ∧
      (b.classes.BasesApplied → i.args.length = b.classes.arity i.cls →
        ∀ x ∈ a.freeVars, ¬ 1 ≤ x) := by
  have lin : (Env.ofProgram b.toProgram options).classes.Linearized := built.linearized
  obtain ⟨owner, symbol, view, declared, seen, stated, other⟩ :=
    Env.instanceAttribute?_eq_some lin earlier found
  refine ⟨owner, symbol, view, declared, seen, fun t same => ?_, fun bases length => ?_⟩
  · have seenType := stated t same
    exact ⟨seenType, fun closed x one => seenType ▸ Ty.mem_freeVars_expandBy_iff closed one⟩
  · have applied : view.Applied b.classes 0 := Instance.Applied.view? bases seen ⟨length, closed⟩
    have closed : a.OnlyFirst 0 := by
      cases same : symbol.memberType? vars with
      | some t =>
        have own := Env.memberType?_onlyFirst members (Env.attribute?_eq_some declared).2 same
        rw [← ClassTable.view?_cls seen] at own
        rw [stated t same]
        exact Ty.OnlyFirst.expandBy (applied.length ▸ own) applied.args
      | none =>
        rcases other same with rfl | ⟨c, rfl, rfl⟩
        · exact fun x free => absurd free List.not_mem_nil
        · exact Env.typeObject_closed lin earlier bases members
    intro x free one
    have low := closed x free one
    omega

/-- A generic class with a method that takes what its type variable stands for, a class that derives
from it without type arguments, and one that gives it itself a type argument. -/
def Builder.stacks : Builder :=
  let declared : Build Unit := do
    let list ← newClass "list" ["T"] []
    discard <| declareMethod list "append" (.positional [.typeVar (.plain "T" 1 .any)] .noneType)
    let stack ← newPlainClass "Stack" [list]
    discard <| newClass "Stacks" [] [⟨list, "builtins.list", [.inst stack "builtins.Stack" []]⟩]
  (declared.run .bare).2

theorem Builder.stacks_built : Built [] .stacks :=
  (Declares.newClass.bind fun _ => Declares.declareMethod.discard.bind fun _ =>
    Declares.newPlainClass.bind fun _ => Declares.newClass.discard) [] .bare .bare

/-- Its only member is the method, in whose type the type variable of its class is free. -/
theorem Builder.declaredType?_stacks {c : ClassId} {name : String} {t : Ty}
    (declared : (Env.ofProgram stacks.toProgram default).declaredType? .empty c name = some t) :
    c = 0 ∧ ∀ x ∈ t.freeVars, x = 1 := by
  have names : ∃ f : FunctionSymbol, (stacks.classes.info 0).names =
      (∅ : Std.TreeMap String Symbol).insert "append" (.func f) ∧ ∀ x ∈ f.type.freeVars, x = 1 :=
    ⟨_, rfl, by decide⟩
  obtain ⟨symbol, own, stated⟩ := Option.bind_eq_some_iff.mp declared
  have nothing {c : ClassId} (empty : (stacks.classes.info c).names = ∅)
      (own : stacks.classes.own? c name = some symbol) : False := by
    rw [ClassTable.own?, empty] at own
    simp at own
  match c with
  | 0 =>
    obtain ⟨f, inserted, free⟩ := names
    have found : ((∅ : Std.TreeMap String Symbol).insert "append" (.func f))[name]? = some symbol :=
      inserted ▸ own
    rw [Std.TreeMap.getElem?_insert] at found
    split at found
    · cases found
      cases stated
      exact ⟨rfl, free⟩
    · simp at found
  | 1 => exact (nothing rfl own).elim
  | 2 => exact (nothing rfl own).elim
  | c + 3 => exact (nothing rfl own).elim

/-- An instance of the class without type arguments takes what the type variable stands for, whatever
that is; one of the other class takes instances of the former. -/
theorem stacks_append_open :
    let env := Env.ofProgram Builder.stacks.toProgram default
    ∃ a a', env.instanceAttribute? .empty "append" ⟨1, "builtins.Stack", []⟩ = some a ∧
      1 ∈ a.freeVars ∧
      env.instanceAttribute? .empty "append" ⟨2, "builtins.Stacks", []⟩ = some a' ∧
      1 ∉ a'.freeVars := by
  intro env
  have earlier : Builder.stacks.classes.BasesEarlier := by decide +kernel
  have members : ∀ c name t, env.declaredType? .empty c name = some t →
      t.OnlyFirst (Builder.stacks.classes.arity c) := by
    intro c name t declared x free _
    obtain ⟨rfl, one⟩ := Builder.declaredType?_stacks declared
    rw [one x free]
    decide +kernel
  have closed : ∀ arg ∈ ([] : List Ty), arg.OnlyFirst 0 := List.forall_mem_nil _
  obtain ⟨a, found⟩ : ∃ a, env.instanceAttribute? .empty "append" ⟨1, "builtins.Stack", []⟩ = some a :=
    ⟨_, rfl⟩
  obtain ⟨a', found'⟩ :
      ∃ a, env.instanceAttribute? .empty "append" ⟨2, "builtins.Stacks", []⟩ = some a := ⟨_, rfl⟩
  obtain ⟨_, _, _, declared, seen, stated, -⟩ := attribute_closed_where_applied
    Builder.stacks_built earlier default .empty members closed found
  obtain ⟨_, _, _, declared', seen', stated', -⟩ := attribute_closed_where_applied
    Builder.stacks_built earlier default .empty members closed found'
  cases declared
  cases seen
  cases declared'
  cases seen'
  refine ⟨a, a', found, ?_, found', ?_⟩
  · exact ((stated _ rfl).2 closed 1 (by decide)).mpr ⟨by decide, by decide⟩
  · have given : ∀ arg ∈ [Ty.inst 1 "builtins.Stack" []], arg.OnlyFirst 0 := by
      intro arg member x free
      rw [List.mem_singleton.mp member] at free
      cases free
    exact fun free => absurd (((stated' _ rfl).2 given 1 (by decide)).mp free).2 (by decide)

end Gradual
