import Gradual.Proofs.Builders
import Gradual.Proofs.ClosedAttributes
import Gradual.Proofs.SubstitutionLaws

/-!
Instances whose type arguments mention type variables, and what they become when types are put in for
these. An instance with all its type arguments is seen as one of a class behind its own either way:
first put in and then looked up, or first looked up and then put in.
-/

namespace Gradual

/-- Of the type variables of a class, at most the first `n` occur in the type, standing in it or
quantified by a signature in it. -/
def Ty.MentionsFirst (n : Nat) (t : Ty) : Prop := ∀ v ∈ t.typeVars ++ t.quantifiedVars, v.id ≤ n

instance (n : Nat) (t : Ty) : Decidable (t.MentionsFirst n) :=
  inferInstanceAs (Decidable (∀ v ∈ t.typeVars ++ t.quantifiedVars, v.id ≤ n))

variable {s : TypeArgs}

/-- Types put in behind the type arguments of a class are put in in these. -/
theorem Ty.expand_expandBy {t : Ty} {args : List Ty} (positive : ∀ p ∈ s, 0 < p.1)
    (own : t.MentionsFirst args.length) :
    (t.expandBy args).expand s = t.expandBy (args.map (·.expand s)) := by
  have agree : ∀ v ∈ t.typeVars ++ t.quantifiedVars,
      (Substitution.ofIds (argument? args)).andThen (.ofIds s.lookup?) v =
        Substitution.ofIds (argument? (args.map (·.expand s))) v := by
    intro v member
    rw [Substitution.andThen, Substitution.ofIds, Substitution.ofIds, Substitution.ofIds]
    by_cases one : 1 ≤ v.id
    · have low := own v member
      have inside : (v.id - 1).toNat < args.length := by omega
      simp only [argument?, if_pos one, List.getElem?_map, List.getElem?_eq_getElem inside,
        Option.map_some]
      rw [Ty.expand_eq_substitute]
    · simp only [argument?, if_neg one]
      refine TypeArgs.lookup?_eq_none_iff.mpr fun p listed => ?_
      have above := positive p listed
      omega
  obtain ⟨standing, quantified⟩ := List.forall_mem_append.mp agree
  rw [Ty.expandBy_eq_substitute, Ty.expand_eq_substitute, Ty.substitute_substitute,
    Ty.expandBy_eq_substitute]
  exact t.substitute_congr standing fun v member => congrArg Option.isNone (quantified v member)

/-! ### Instances -/

/-- The instance with types put in for the type variables in its type arguments. -/
def Instance.expand (i : Instance) (s : TypeArgs) : Instance :=
  { i with args := i.args.map (·.expand s) }

@[simp] theorem Instance.cls_expand (i : Instance) : (i.expand s).cls = i.cls := rfl

theorem Instance.toTy_expand (i : Instance) : (i.expand s).toTy = i.toTy.expand s := by
  rw [Ty.expand_eq_substitute, Instance.toTy, Instance.toTy, Ty.substitute, Ty.substituteEach_eq_map]
  refine congrArg (Ty.inst i.cls i.name) (List.map_congr_left fun a _ => ?_)
  rw [Ty.expand_eq_substitute]

/-- A base of a class with a type argument for each type variable of its own class, in which only type
variables of the former occur. -/
structure Instance.IsBaseOf (t : ClassTable) (c : ClassId) (base : Instance) : Prop where
  length : base.args.length = t.arity base.cls
  args : ∀ a ∈ base.args, a.MentionsFirst (t.arity c)

namespace ClassTable

variable {t : ClassTable} {i j : Instance} {c : ClassId}

theorem length_args_of_viewWithin (bases : ∀ c, ∀ base ∈ t.bases c, base.IsBaseOf t c) {depth : Nat}
    (applied : i.args.length = t.arity i.cls) (seen : t.viewWithin depth i c = some j) :
    j.args.length = t.arity j.cls := by
  refine viewWithin_induction (fun k => k.args.length = t.arity k.cls) ?_ seen applied
  intro k _ base member
  rw [Instance.expandBy, List.length_map]
  exact (bases k.cls base member).length

/-- A base of the instance with types put in is the base with these types put in. -/
theorem expandBy_expand (positive : ∀ p ∈ s, 0 < p.1) (applied : i.args.length = t.arity i.cls)
    {base : Instance} (own : base.IsBaseOf t i.cls) :
    base.expandBy (i.expand s).args = (base.expandBy i.args).expand s := by
  rw [Instance.expandBy, Instance.expandBy, Instance.expand]
  refine congrArg (Instance.mk base.cls base.name) ?_
  rw [List.map_map]
  refine List.map_congr_left fun a member => ?_
  have mentions := own.args a member
  rw [← applied] at mentions
  exact (Ty.expand_expandBy positive mentions).symm

/-- However many steps of inheritance there are, to put types in first or last makes no difference. -/
theorem viewWithin_expand (bases : ∀ c, ∀ base ∈ t.bases c, base.IsBaseOf t c)
    (positive : ∀ p ∈ s, 0 < p.1) {depth : Nat} (applied : i.args.length = t.arity i.cls) :
    t.viewWithin depth (i.expand s) c = (t.viewWithin depth i c).map (·.expand s) := by
  induction depth generalizing i with
  | zero =>
    rw [viewWithin, viewWithin, Instance.cls_expand]
    split <;> rfl
  | succ depth ih =>
    rw [viewWithin, viewWithin, Instance.cls_expand]
    split
    · rfl
    · split
      · rw [List.map_findSome?]
        refine findSome?_congr fun base member => ?_
        have own := bases i.cls base member
        have length : (base.expandBy i.args).args.length = t.arity (base.expandBy i.args).cls := by
          rw [Instance.expandBy, List.length_map]
          exact own.length
        rw [expandBy_expand positive applied own]
        exact ih length
      · rfl

theorem view?_expand (bases : ∀ c, ∀ base ∈ t.bases c, base.IsBaseOf t c)
    (positive : ∀ p ∈ s, 0 < p.1) (applied : i.args.length = t.arity i.cls) :
    t.view? (i.expand s) c = (t.view? i c).map (·.expand s) :=
  viewWithin_expand bases positive applied

end ClassTable

/-! ### Methods -/

namespace Ty.MentionsFirst

variable {n : Nat}

theorem overloaded_iff {items : List Signature} :
    (Ty.overloaded items).MentionsFirst n ↔ ∀ s ∈ items, (Ty.callable s).MentionsFirst n := by
  simp only [MentionsFirst, List.forall_mem_append]
  induction items with
  | nil => simp [typeVars, typeVarsOfSignatures, quantifiedVars, quantifiedVarsOfSignatures]
  | cons s ss ih =>
    simp only [typeVars, typeVarsOfSignatures, quantifiedVars, quantifiedVarsOfSignatures,
      List.forall_mem_append, List.forall_mem_cons] at ih ⊢
    rw [← ih]
    tauto

theorem bound {s : Signature} (h : (Ty.callable s).MentionsFirst n) :
    (Ty.callable s.bound).MentionsFirst n := by
  obtain ⟨argTypes, _, _, ret, quantified, _, _, _⟩ := s
  intro v member
  refine h v ?_
  simp only [Signature.bound, typeVars, Signature.typeVars, quantifiedVars, Signature.quantifiedVars,
    List.mem_append, mem_typeVarsOfEach, mem_quantifiedVarsOfEach] at member ⊢
  rcases member with (⟨t, rest, inside⟩ | inside) | own | ⟨t, rest, inside⟩ | inside
  · exact .inl (.inl ⟨t, List.mem_of_mem_tail rest, inside⟩)
  · exact .inl (.inr inside)
  · exact .inr (.inl own)
  · exact .inr (.inr (.inl ⟨t, List.mem_of_mem_tail rest, inside⟩))
  · exact .inr (.inr (.inr inside))

theorem boundMethod {t : Ty} (h : t.MentionsFirst n) : t.boundMethod.MentionsFirst n := by
  cases t with
  | callable s => exact bound h
  | overloaded items =>
    refine overloaded_iff.mpr fun s made => ?_
    obtain ⟨u, member, rfl⟩ := List.mem_map.mp made
    exact bound (overloaded_iff.mp h u member)
  | any | void | noneType | inst | tuple | typeVar | unbound | error => exact h

end Ty.MentionsFirst

theorem Env.argsAs_of_view? {env : Env} {i view : Instance} {c : ClassId}
    (seen : env.classes.view? i c = some view) : env.argsAs i c = view.args := by
  rw [argsAs, seen]
  rfl

/-- In a program whose classes come after their bases, and give each of these all its type arguments over
their own type variables, to look a method up on an instance and to put types in for the type variables of
classes in the type arguments of this instance can be done in any order. -/
theorem methodType_expand {made : List Expr} {b : Builder} (built : Builder.Built made b)
    (earlier : b.classes.BasesEarlier)
    (bases : ∀ c, ∀ base ∈ b.classes.bases c, base.IsBaseOf b.classes c) (options : Options)
    (vars : VarTypes) {i : Instance} (applied : i.args.length = b.classes.arity i.cls)
    (positive : ∀ p ∈ s, 0 < p.1) {name : String} {owner : ClassId} {f : FunctionSymbol}
    (found : (Env.ofProgram b.toProgram options).attribute? i.cls name = some (owner, .func f))
    (own : f.type.MentionsFirst (b.classes.arity owner)) :
    ∃ a, (Env.ofProgram b.toProgram options).attributeType? vars name i.toTy = some a ∧
      (Env.ofProgram b.toProgram options).attributeType? vars name (i.toTy.expand s) =
        some (a.expand s) := by
  have lin : (Env.ofProgram b.toProgram options).classes.Linearized := built.linearized
  have derived := (Env.attribute?_eq_some found).1
  obtain ⟨view, seen⟩ := Option.isSome_iff_exists.mp
    ((ClassTable.isSome_view?_iff lin earlier (ClassTable.lt_size_of_derives derived)).mpr derived)
  have seen' : (Env.ofProgram b.toProgram options).classes.view? (i.expand s) owner =
      some (view.expand s) :=
    (ClassTable.view?_expand bases positive applied).trans (congrArg _ seen)
  have length : view.args.length = b.classes.arity owner := by
    rw [ClassTable.length_args_of_viewWithin bases applied seen, ClassTable.view?_cls seen]
  have mentions := own.boundMethod
  rw [← length] at mentions
  have type : (Env.ofProgram b.toProgram options).instanceAttribute? vars name i = _ :=
    Env.instanceAttribute?_eq found rfl
  have type' : (Env.ofProgram b.toProgram options).instanceAttribute? vars name (i.expand s) = _ :=
    Env.instanceAttribute?_eq found rfl
  rw [Env.argsAs_of_view? seen] at type
  rw [Env.argsAs_of_view? seen'] at type'
  refine ⟨f.type.boundMethod.expandBy view.args, type, ?_⟩
  rw [← Instance.toTy_expand, Ty.expand_expandBy positive mentions]
  exact type'

/-- A generic class with a method that has a type variable of its own, and a class of pairs that derives
from the former. -/
def Builder.tables : Builder :=
  let item : Ty := .typeVar (.plain "T" 1 .any)
  let result := TypeVar.plain "S" (-1) .any
  let row : Ty := .tuple [.typeVar (.plain "K" 1 .any), .typeVar (.plain "V" 2 .any)]
  let declared : Build Unit := do
    let list ← newClass "list" ["T"] []
    let step := Signature.positional [.typeVar result, item] (.typeVar result)
    discard <| declareMethod list "fold"
      { Signature.positional [.callable step, .typeVar result] (.typeVar result) with
        quantified := [result] }
    discard <| newClass "Table" ["K", "V"] [⟨list, "builtins.list", [row]⟩]
  (declared.run .bare).2

theorem Builder.tables_built : Built [] .tables :=
  (Declares.newClass.bind fun _ => Declares.declareMethod.discard.bind fun _ =>
    Declares.newClass.discard) [] .bare .bare

theorem Builder.tables_bases : ∀ c, ∀ base ∈ Builder.tables.classes.bases c,
    base.IsBaseOf Builder.tables.classes c
  | 0, _, member => absurd member List.not_mem_nil
  | 1, base, member => by
    have row : Builder.tables.classes.bases 1 = [⟨0, "builtins.list",
        [.tuple [.typeVar (.plain "K" 1 .any), .typeVar (.plain "V" 2 .any)]]⟩] := rfl
    rw [row] at member
    rw [List.mem_singleton.mp member]
    exact ⟨by decide +kernel, by decide +kernel⟩
  | _ + 2, _, member => absurd member List.not_mem_nil

theorem table_fold_expand :
    let env := Env.ofProgram Builder.tables.toProgram default
    let table : Instance := ⟨1, "builtins.Table", [.typeVar (.plain "A" 1 .any),
      .inst 0 "builtins.list" [.typeVar (.plain "B" 2 .any)]]⟩
    let given : TypeArgs := [(1, .noneType), (2, .tuple [])]
    ∃ a, env.attributeType? .empty "fold" table.toTy = some a ∧
      env.attributeType? .empty "fold" (table.toTy.expand given) = some (a.expand given) := by
  intro env table given
  have earlier : Builder.tables.classes.BasesEarlier := by decide +kernel
  have method : ∃ f : FunctionSymbol, env.attribute? table.cls "fold" = some (0, .func f) ∧
      f.type.MentionsFirst (Builder.tables.classes.arity 0) := ⟨_, rfl, by decide +kernel⟩
  obtain ⟨f, found, own⟩ := method
  exact methodType_expand Builder.tables_built earlier Builder.tables_bases default .empty
    (by decide +kernel) (by decide) found own

end Gradual
