import Gradual.Proofs.LookupOrder
import Gradual.Proofs.Narrowing
import Gradual.Proofs.Pruning
import Gradual.Proofs.Reflexivity

/-!
What guards that are decided by the type of their variable can be relied on for. A guard holds always only
if whatever derives from the class of the variable derives from the tested one; a variable whose type is
of no class decides nothing; and behind a guard the same test holds always.
-/

namespace Gradual

/-! ### Decisions -/

/-- The class that the values of a type are instances of: tuples are those of the class of tuples. -/
def Ty.nominalClass? (t : ClassTable) : Ty → Option ClassId
  | .inst c _ _ => some c
  | .tuple _ => t.find? "builtins.tuple"
  | _ => none

namespace TypeOrder

variable {t : ClassTable} {type : Ty} {c : ClassId} {name : String} {as : List Ty} {i : Instance}
  {le : Ty → Ty → Option Bool}

theorem derives_of_instanceLe (below : (ofClasses t).instanceLe le i ⟨c, name, as⟩ = some true) :
    i.cls = c ∨ t.derives i.cls c = true := by
  unfold instanceLe at below
  cases seen : t.view? i c with
  | none =>
    have unseen : (ofClasses t).classes.view? i c = none := seen
    simp [unseen] at below
  | some j => exact ClassTable.derives_of_view? seen

/-- Proper subtypes of an instance have a class, which derives from that of the instance. -/
theorem nominalClass_of_properSubtype
    (proper : (ofClasses t).isProperSubtype type (.inst c name as) = true) :
    ∃ d, type.nominalClass? t = some d ∧ (d = c ∨ t.derives d c = true) := by
  obtain ⟨steps, enough⟩ :=
    Nat.exists_eq_add_one.mpr (budget_pos (o := ofClasses t) type (.inst c name as))
  have answered : (ofClasses t).properWithin (steps + 1) type (.inst c name as) = some true := by
    unfold isProperSubtype proper? at proper
    rw [enough] at proper
    exact (Option.getD_eq_iff.mp proper).resolve_right (by simp)
  cases type with
  | inst d n bs => exact ⟨d, rfl, derives_of_instanceLe (i := ⟨d, n, bs⟩) answered⟩
  | tuple items =>
    cases fallen : (ofClasses t).fallback? (.tuple items) with
    | none =>
      rw [properWithin, fallen] at answered
      cases answered
    | some i =>
      rw [properWithin, fallen] at answered
      obtain ⟨d, found, rfl⟩ := Option.map_eq_some_iff.mp fallen
      exact ⟨d, found, derives_of_instanceLe answered⟩
  | any | void | noneType | callable | overloaded | typeVar | unbound | error =>
    simp [properWithin, Ty.isSame] at answered

/-- An instance with dynamic type arguments is properly what it is. -/
theorem isProperSubtype_self {o : TypeOrder} (dynamic : ∀ a ∈ as, a = .any) :
    o.isProperSubtype (.inst c name as) (.inst c name as) = true := by
  obtain ⟨steps, enough⟩ : ∃ steps, o.budget (.inst c name as) (.inst c name as) = steps + 2 := by
    have deep : 1 ≤ (Ty.inst c name as).depth o.height := one_le_depth_inst
    refine ⟨o.budget (.inst c name as) (.inst c name as) - 2, ?_⟩
    unfold budget
    omega
  have view : o.classes.view? ⟨c, name, as⟩ c = some ⟨c, name, as⟩ := ClassTable.view?_self _ ⟨c, name, as⟩
  have args : argsLe (o.properWithin (steps + 1)) as as = some true := by
    rw [argsLe_self_iff]
    intro a member
    rw [dynamic a member]
    simp [properWithin, Ty.isSame]
  unfold isProperSubtype proper?
  rw [enough, properWithin, instanceLe, view]
  exact congrArg (·.getD false) args

end TypeOrder

namespace Guard

variable {o : TypeOrder} {current : Option Ty} {target : Ty}

theorem kindOf_eq_alwaysTrue_iff : kindOf o current target = .alwaysTrue ↔
    ∃ type, current = some type ∧ o.isProperSubtype type target = true := by
  cases current with
  | none => simp [kindOf]
  | some type =>
    unfold kindOf
    by_cases proper : o.isProperSubtype type target = true
    · simp [proper]
    · cases overlapping : type.overlaps target <;> simp [proper, overlapping]

theorem derives_of_alwaysTrue {t : ClassTable} {c : ClassId} {name : String} {as : List Ty}
    (lin : t.Linearized) (earlier : t.BasesEarlier)
    (always : kindOf (.ofClasses t) current (.inst c name as) = .alwaysTrue) :
    ∃ type d, current = some type ∧ type.nominalClass? t = some d ∧ ∀ e, d ∈ t.mro e → c ∈ t.mro e := by
  obtain ⟨type, has, proper⟩ := kindOf_eq_alwaysTrue_iff.mp always
  obtain ⟨d, classOf, behind⟩ := TypeOrder.nominalClass_of_properSubtype proper
  refine ⟨type, d, has, classOf, fun e => ?_⟩
  rcases behind with rfl | derived
  · exact id
  · rw [← ClassTable.derives_iff, ← ClassTable.derives_iff]
    exact fun first => ClassTable.derives_trans lin earlier first derived

/-- What has no class is neither ruled in nor ruled out. -/
theorem kindOf_eq_overlapping {t : ClassTable} {c : ClassId} {name : String} {as : List Ty}
    (unclassed : ∀ type, current = some type → type.nominalClass? t = none) :
    kindOf (.ofClasses t) current (.inst c name as) = .overlapping := by
  cases current with
  | none => rfl
  | some type =>
    have none := unclassed type rfl
    have improper : (TypeOrder.ofClasses t).isProperSubtype type (.inst c name as) = false := by
      refine Bool.eq_false_iff.mpr fun proper => ?_
      obtain ⟨d, found, -⟩ := TypeOrder.nominalClass_of_properSubtype proper
      rw [none] at found
      cases found
    have overlaps : type.overlaps (.inst c name as) = true := by
      cases type with
      | inst => cases none
      | any | void | noneType | callable | overloaded | tuple | typeVar | unbound | error => rfl
    simp [kindOf, improper, overlaps]

end Guard

/-! ### What is recorded for the tested class -/

namespace Check

theorem checkCondition_scope (test : Expr) (env : Env) (s : State) :
    ((checkCondition test).outcome env s).2.scope = s.scope :=
  Keeps.scope_eq (checkCondition_keeps test.within_anything) env s

variable {α β : Type} {env : Env} {id : NodeId} {type : Ty} {nodes : List NodeId}

/-- Whatever the state, the action leaves this type for the expression of the id. -/
def Leaves (env : Env) (id : NodeId) (type : Ty) (x : Check α) : Prop :=
  ∀ s, (x.outcome env s).2.types[id]? = some type

namespace Leaves

variable {x : Check α} {f : α → Check β}

theorem after (h : ∀ r, Leaves env id type (f r)) : Leaves env id type (x >>= f) := fun _ => h _ _

theorem andThen (first : Leaves env id type x) (other : id ∉ nodes)
    (second : ∀ r, Keeps (Effects.recording nodes) (f r)) : Leaves env id type (x >>= f) := fun s =>
  ((second _).types_eq other env _).trans (first s)

theorem ended (first : Leaves env id type x) (second : ∀ r, Keeps (Effects.recording []) (f r)) :
    Leaves env id type (x >>= f) := first.andThen List.not_mem_nil second

theorem discard (h : Leaves env id type x) : Leaves env id type (discard x) := h

theorem acceptAs {infer : Check Ty} {expected : Option Ty} {outer : NodeId}
    (h : Leaves env id type infer) (other : id ≠ outer) :
    Leaves env id type (acceptAs outer infer expected) := by
  have inside : Leaves env id type (expecting expected infer) := fun s => h (s.expecting expected)
  have apart : id ∉ [outer] := by simpa using other
  refine inside.andThen apart fun found => ?_
  exact (store_keeps List.mem_cons_self).seq fun _ => isDynamic_keeps.seq fun _ => .done

end Leaves

theorem giveFrom_leaves {context : Nat → ArgShape → Option Ty} {i : Nat} {args : List Arg} {last : Arg}
    (h : ∀ expected, Leaves env id type (last.operand.accept expected)) :
    Leaves env id type (giveFrom context i (args ++ [last])) := by
  induction args generalizing i with
  | nil => exact (h _).ended fun _ => .done
  -- What the arguments before record does not matter, since the last one is inferred behind them.
  | cons arg rest ih => exact .after fun _ => ih.ended fun _ => .done

theorem giveAll_leaves {args : List Arg} {last : Arg}
    (h : ∀ expected, Leaves env id type (last.operand.accept expected)) :
    Leaves env id type (giveAll (args ++ [last])) := giveFrom_leaves h

theorem checkCall_leaves {callee : Ty} {args : List Arg} {last : Arg} {span : Span}
    (h : ∀ expected, Leaves env id type (last.operand.accept expected)) :
    Leaves env id type (checkCall callee (args ++ [last]) span) := by
  refine .after fun env => .after fun s => ?_
  dsimp only
  -- The arguments are given in each case, whether the callee can be called or not.
  split
  · exact (giveFrom_leaves h).ended fun _ => checkGiven_keeps
  · refine (giveAll_leaves h).ended fun given => read_keeps.seq fun env => ?_
    split
    · exact checkGiven_keeps
    · split
      · exact report_keeps.seq fun _ => .done
      · exact .done
  · exact (giveAll_leaves h).discard.ended fun _ => .done
  · exact (giveAll_leaves h).discard.ended fun _ => .done
  · exact (giveAll_leaves h).discard.ended fun _ => .done
  · exact .after fun _ => (giveAll_leaves h).discard.ended fun _ => .done

end Check

open Check

/-- A test of a plain variable against a class by its name. The test itself may be in parentheses. The name of
the class has an id of its own. -/
inductive Expr.TestsClass (x : Var) (c : ClassId) (named : NodeId) : Expr → Prop
  | call {id : NodeId} {span : Span} {callee : Expr} {subject : Actual} {kind : ArgKind}
    {keyword : Option String} {place : Span} {function mention cls : NameRef} :
    callee.unwrapped.kind = .name function → function.fullName = "builtins.isinstance" →
    subject.value.unwrapped.kind = .name mention → mention.symbol = .var x → cls.symbol = .cls c →
    named ≠ id →
      TestsClass x c named ⟨id, span, .call callee [subject, ⟨kind, keyword, ⟨named, place, .name cls⟩⟩]⟩
  | paren {id : NodeId} {span : Span} {inner : Expr} : TestsClass x c named inner → named ≠ id →
      TestsClass x c named ⟨id, span, .paren inner⟩

namespace Expr.TestsClass

variable {test : Expr} {x : Var} {c : ClassId} {named : NodeId} {env : Env} {s : State}

theorem instanceTest?_eq (tests : test.TestsClass x c named) :
    test.instanceTest? = some ⟨x, named⟩ := by
  induction tests with
  | call callee function subject mention cls =>
    simp [instanceTest?, Expr.unwrapped, ExprKind.unwrappedOr, callee, function, subject, mention]
  | paren _ _ ih => exact ih

theorem name_leaves {place : Span} {cls : NameRef} {expected : Option Ty} (symbol : cls.symbol = .cls c) :
    Leaves env named (env.typeObject c) ((Expr.mk named place (.name cls)).accept expected) := by
  have inferred : Rules.inferName cls place = do return (← read).typeObject c := by
    rw [Rules.inferName, symbol]
  have plain : (Expr.mk named place (.name cls)).accept expected =
      acceptAs named (Rules.inferName cls place) expected := by
    show (Rules.name named place cls).accept expected = _
    rw [Rules.name, symbol]
    split <;> rfl
  intro s
  rw [plain, inferred]
  exact Std.TreeMap.getElem?_insert_self

/-- When the test has been inferred, the class is known as what constructs its instances. -/
theorem accept_leaves (tests : test.TestsClass x c named) (expected : Option Ty) :
    Leaves env named (env.typeObject c) (test.accept expected) := by
  induction tests generalizing expected with
  | @call id span callee subject kind keyword place _ _ cls _ _ _ _ symbol other =>
    obtain ⟨kind', keyword', value⟩ := subject
    let first : Arg := ⟨⟨kind', keyword'⟩, value.operand⟩
    let last : Arg := ⟨⟨kind, keyword⟩, Expr.operand ⟨named, place, .name cls⟩⟩
    have given (type : Ty) : Leaves env named (env.typeObject c) (checkCall type ([first] ++ [last]) span) :=
      checkCall_leaves fun _ => name_leaves symbol
    have inferred : Leaves env named (env.typeObject c)
        (do return (← checkCall (← callee.accept none) ([first] ++ [last]) span).type) :=
      .after fun type => (given type).ended fun _ => .done
    exact inferred.acceptAs other
  | paren _ other ih => exact Leaves.acceptAs (.after fun _ => ih _) other

theorem checkCondition_leaves (tests : test.TestsClass x c named) :
    Leaves env named (env.typeObject c) (checkCondition test) :=
  (tests.accept_leaves none).ended fun _ => checkHasValue_keeps

/-- The guard narrows the variable to what the tested class constructs. -/
theorem guard_eq (tests : test.TestsClass x c named) (env : Env) (s : State) :
    ((guard? test).outcome env ((checkCondition test).outcome env s).2).1 =
      (env.typeObject c).constructed?.map fun target => ⟨x, target, Guard.kindOf env.order
        (s.scope.binder.get? ((checkCondition test).outcome env s).2.vars x) target⟩ := by
  generalize reached : ((checkCondition test).outcome env s).2 = after
  have known : after.types[named]? = some (env.typeObject c) := reached ▸ tests.checkCondition_leaves s
  have scope : after.scope = s.scope := reached ▸ checkCondition_scope test env s
  show Guard.ofExpr? env.order after.types after.scope.binder after.vars test = _
  rw [Guard.ofExpr?, tests.instanceTest?_eq, scope]
  simp only [Option.bind_eq_bind, Option.bind_some, known]
  cases (env.typeObject c).constructed? <;> rfl

theorem guard_of_narrowed {target : Ty} (tests : test.TestsClass x c named)
    (constructed : (env.typeObject c).constructed? = some target)
    (narrowed : s.scope.binder.narrowed? x = some target) :
    ((guard? test).outcome env ((checkCondition test).outcome env s).2).1 = some ⟨x, target, .alwaysTrue⟩ := by
  obtain rfl := Env.constructed?_typeObject constructed
  obtain ⟨as, instance_eq, dynamic⟩ := env.erase_selfInstance (c := c)
  have always (vars : VarTypes) : Guard.kindOf env.order (s.scope.binder.get? vars x)
      (env.selfInstance c).toTy.erase = .alwaysTrue := by
    refine Guard.kindOf_eq_alwaysTrue_iff.mpr ⟨_, by rw [Binder.get?, narrowed, Option.some_or], ?_⟩
    rw [instance_eq]
    exact TypeOrder.isProperSubtype_self dynamic
  rw [tests.guard_eq, constructed, Option.map_some, always]

end Expr.TestsClass

/-- Only a class whose constructor has no signature at all is no type object for a guard. -/
theorem Env.constructed?_typeObject_of_ne_nil {env : Env} {c : ClassId}
    (signatures : env.initSignatures c ≠ []) :
    (env.typeObject c).constructed? = some (env.selfInstance c).toTy.erase := by
  obtain ⟨first, rest, listed⟩ := List.exists_cons_of_ne_nil signatures
  unfold typeObject
  rw [listed]
  cases rest <;> rfl

namespace Check

/-- Of two branches those that are checked behind a condition which is this guard, or none. -/
def branches (guard : Option Guard) (body rest : Check Unit) : Check Unit :=
  match guard with
  | none => body >>= fun _ => rest
  | some g =>
    match g.kind with
    | .alwaysFalse => rest
    | .alwaysTrue => narrowing (some g.narrowing) body
    | .overlapping => narrowing (some g.narrowing) body >>= fun _ => rest

theorem outcome_checkArm (test : Expr) (body rest : Check Unit) (env : Env) (s : State) :
    (checkArm test body rest).outcome env s =
      (branches ((guard? test).outcome env ((checkCondition test).outcome env s).2).1 body rest).outcome env
        ((checkCondition test).outcome env s).2 := by
  rw [checkArm, outcome_bind, outcome_bind]
  rfl

theorem branches_of_overlapping {guard : Option Guard} (undecided : ∀ g, guard = some g → g.kind = .overlapping)
    (body rest : Check Unit) :
    branches guard body rest = narrowing (guard.map (·.narrowing)) body >>= fun _ => rest := by
  cases guard with
  | none => rfl
  | some g =>
    rw [branches, undecided g rfl]
    rfl

end Check

open Builder

/-- Over the classes that a builder can make, a test of a variable against a class is a guard that narrows
the variable to the class, unless the class cannot be called. If it is found to hold always, the type of
the variable has a class, and whatever derives from that one derives from the tested class. If the variable
has no type or one without a class, as are dynamic types, the type of `None` and type variables, the guard
is not decided and no branch is pruned. And where the variable is narrowed to the class, as in the branch
behind such a guard, any test of it against that class holds always. -/
theorem guards_decided_by_class {made : List Expr} {b : Builder} (built : Built made b)
    (earlier : b.classes.BasesEarlier) (options : Options) (s : State) (test : Expr) (x : Var) (c : ClassId)
    (named : NodeId) (tests : test.TestsClass x c named) :
    let t := b.classes
    let env : Env := .ofProgram b.toProgram options
    let target := (env.selfInstance c).toTy.erase
    let before := ((checkCondition test).outcome env s).2
    let current := s.scope.binder.get? before.vars x
    let guard := ((guard? test).outcome env before).1
    (env.initSignatures c ≠ [] → ∃ kind, guard = some ⟨x, target, kind⟩) ∧
    (∀ g, guard = some g → g.var = x ∧ g.target = target ∧
      (g.kind = .alwaysTrue → ∃ type d, current = some type ∧ type.nominalClass? t = some d ∧
        ∀ e, d ∈ t.mro e → c ∈ t.mro e)) ∧
    ((∀ type, current = some type → type.nominalClass? t = none) →
      (∀ g, guard = some g → g.kind = .overlapping) ∧
      ∀ body rest : Check Unit, (checkArm test body rest).outcome env s =
        (narrowing (guard.map (·.narrowing)) body >>= fun _ => rest).outcome env before) ∧
    (∀ done : Block,
      (done.check.outcome env (before.narrowed x target)).2.scope.binder.narrowed? x = some target) ∧
    ∀ g, guard = some g → ∀ inside : State, inside.scope.binder.narrowed? x = some target →
      ∀ (again : Expr) (named' : NodeId), again.TestsClass x c named' →
        let later := ((checkCondition again).outcome env inside).2
        ((guard? again).outcome env later).1 = some ⟨x, target, .alwaysTrue⟩ ∧
        ∀ body rest : Check Unit, (checkArm again body rest).outcome env inside =
          (narrowing (some (x, target)) body).outcome env later := by
  intro t env target before current guard
  -- The guard that is found, if one is, has the class with dynamic type arguments for its target.
  obtain ⟨as, instance_eq, -⟩ := env.erase_selfInstance (c := c)
  have target_eq : target = .inst c (env.classes.info c).fullName as := instance_eq
  have known {g : Guard} (found : guard = some g) : (env.typeObject c).constructed? = some target ∧
      g = ⟨x, target, Guard.kindOf env.order current target⟩ := by
    obtain ⟨made, constructed, rfl⟩ := Option.map_eq_some_iff.mp ((tests.guard_eq env s).symm.trans found)
    obtain rfl := Env.constructed?_typeObject constructed
    exact ⟨constructed, rfl⟩
  refine ⟨fun signatures => ?_, fun g found => ?_, fun unclassed => ?_, fun done => ?_,
    fun g found inside narrowed again named' tests' => ?_⟩
  · have constructed := Env.constructed?_typeObject_of_ne_nil signatures
    exact ⟨_, (tests.guard_eq env s).trans (congrArg (Option.map _) constructed)⟩
  · obtain ⟨-, rfl⟩ := known found
    refine ⟨rfl, rfl, fun always => ?_⟩
    rw [target_eq] at always
    exact Guard.derives_of_alwaysTrue built.linearized earlier always
  · have undecided : ∀ g, guard = some g → g.kind = .overlapping := by
      intro g found
      obtain ⟨-, rfl⟩ := known found
      rw [target_eq]
      exact Guard.kindOf_eq_overlapping unclassed
    refine ⟨undecided, fun body rest => ?_⟩
    rw [outcome_checkArm]
    exact congrArg (fun x : Check Unit => x.outcome env before) (branches_of_overlapping undecided body rest)
  · rw [check_scope]
    exact Binder.narrowed?_push before.scope.binder x target
  · have always := tests'.guard_of_narrowed (known found).1 narrowed
    refine ⟨always, fun body rest => ?_⟩
    rw [outcome_checkArm, always]
    rfl

/-- A builder with a generic class behind the class of tuples, a class of further tuples and a variable that
is a tuple. -/
def Builder.records : Builder :=
  let declared : Build Unit := do
    let sequence ← newClass "Sequence" ["T"] []
    let tuple ← newClass "tuple" [] [⟨sequence, "builtins.Sequence", [.any]⟩]
    discard <| newPlainClass "Record" [tuple]
    discard <| globalVar "x" (some (.tuple [.noneType]))
  (declared.run .bare).2

theorem Builder.records_built : Built [] .records :=
  (Declares.newClass.bind fun _ => Declares.newClass.bind fun _ =>
    Declares.newPlainClass.discard.bind fun _ => Declares.globalVar.discard) [] .bare .bare

theorem Expr.instanceTest_testsClass (id : NodeId) (className : String) (c : ClassId) :
    (Expr.instanceTest id className c).TestsClass ⟨0, "x", "x", none⟩ c (id + 2) :=
  .call rfl rfl rfl rfl rfl (Nat.ne_of_lt (Nat.lt_succ_self _))

/-- A tuple is always a sequence, and so is any class of tuples; and once it is known as a sequence it still
is one. -/
theorem tuple_tested_as_sequence :
    let env : Env := .ofProgram Builder.records.toProgram default
    let x : Var := ⟨0, "x", "x", none⟩
    let test : Expr := .instanceTest 0 "builtins.Sequence" 0
    let again : Expr := .instanceTest 4 "builtins.Sequence" 0
    let before := ((checkCondition test).outcome env (.initial Builder.records.toProgram)).2
    let inside := before.narrowed x (env.selfInstance 0).toTy.erase
    (∃ g, ((guard? test).outcome env before).1 = some g ∧ g.kind = .alwaysTrue) ∧
      (∀ e, 1 ∈ env.classes.mro e → 0 ∈ env.classes.mro e) ∧
      ∃ g, ((guard? again).outcome env ((checkCondition again).outcome env inside).2).1 = some g ∧
        g.kind = .alwaysTrue := by
  intro env x test again before inside
  obtain ⟨-, sound, -, within, repeats⟩ := guards_decided_by_class Builder.records_built
    (by decide +kernel) default (.initial Builder.records.toProgram) test x 0 2
    (Expr.instanceTest_testsClass 0 "builtins.Sequence" 0)
  have always : ((guard? test).outcome env before).1.map (·.kind) = some .alwaysTrue := by decide +kernel
  obtain ⟨g, found, kind⟩ := Option.map_eq_some_iff.mp always
  obtain ⟨-, -, derives⟩ := sound g found
  obtain ⟨type, d, has, classOf, derived⟩ := derives kind
  have tuple : type = .tuple [.noneType] := (Option.some.inj has).symm
  have known : Builder.records.classes.find? "builtins.tuple" = some 1 := by decide +kernel
  rw [tuple] at classOf
  obtain rfl : 1 = d := Option.some.inj (known.symm.trans classOf)
  obtain ⟨repeated, -⟩ := repeats g found inside (within []) again 6
    (Expr.instanceTest_testsClass 4 "builtins.Sequence" 0)
  exact ⟨⟨g, found, kind⟩, derived, _, repeated, rfl⟩

end Gradual
