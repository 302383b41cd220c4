import Gradual.Checker.Expr
import Gradual.Proofs.Demands

/-!
Operators as calls. An operator is checked by comparing its right operand with the first formal of the method
that implements it, a call of that method by all that is checked of a call. The two agree where the method can
be called with one argument and has no type variables of its own; where it has some, a call puts type arguments
in for them before it compares, and the operator does not.
-/

namespace Gradual

/-! ### One positional argument -/

def ArgShape.positional : ArgShape := ⟨.pos, none⟩

/-- A formal of this kind takes a positional argument. -/
def ArgKind.takesPositional (kind : ArgKind) : Bool := kind.isFixed || kind == .star

/-- The function can be called with one positional argument: its first formal takes it, and no other one
needs an argument. -/
def Signature.takesOne (s : Signature) : Bool :=
  s.argKinds.head?.any (·.takesPositional) && !s.argKinds.tail.any (· == .pos)

section

variable {s : Signature} {kind : ArgKind} {kinds : List ArgKind}

namespace ArgBinding

theorem bind_one (shape : s.argKinds = kind :: kinds) : bind s [.positional] =
    (if kind.takesPositional then [0] else []) :: kinds.map fun _ => [] := by
  have goes : bind s [.positional] = (step s 0 .positional 0 (s.argKinds.map fun _ => [])).2 := rfl
  rw [goes, step, shape]
  cases kind <;> rfl

theorem bind_one_nil (shape : s.argKinds = []) : bind s [.positional] = [] := by
  have goes : bind s [.positional] = (step s 0 .positional 0 (s.argKinds.map fun _ => [])).2 := rfl
  rw [goes, step, shape]
  rfl

/-- The argument has a formal exactly if the first one takes it. -/
theorem any_contains_bind_one :
    (bind s [.positional]).any (·.contains 0) = s.argKinds.head?.any (·.takesPositional) := by
  cases shape : s.argKinds with
  | nil =>
    rw [bind_one_nil shape]
    rfl
  | cons kind kinds =>
    have none : (kinds.map fun _ => ([] : List Nat)).any (·.contains 0) = false := by
      rw [List.any_map, List.any_eq_false]
      exact fun _ _ => Bool.false_ne_true
    rw [bind_one shape, List.any_cons, none, Bool.or_false]
    cases kind <;> rfl

theorem lacksRequired_bind_one {t : Signature} (same : t.argKinds = s.argKinds)
    (takes : s.argKinds.head?.any (·.takesPositional) = true) :
    lacksRequired t (bind s [.positional]) = s.argKinds.tail.any (· == .pos) := by
  cases shape : s.argKinds with
  | nil =>
    rw [shape] at takes
    cases takes
  | cons kind kinds =>
    rw [shape, List.head?_cons, Option.any_some] at takes
    rw [lacksRequired, bind_one shape, same, shape, if_pos takes, List.zip_cons_cons, List.any_cons,
      ← List.map_prod_left_eq_zip, List.any_map]
    simp [Function.comp_def]

end ArgBinding

/-- The argument goes to the first formal only. -/
theorem Signature.withBound_one {t : Signature} (takes : s.argKinds.head?.any (·.takesPositional) = true) :
    t.withBound (ArgBinding.bind s [.positional]) = t.argTypes.head?.toList.map fun type => (type, 0) := by
  cases shape : s.argKinds with
  | nil =>
    rw [shape] at takes
    cases takes
  | cons kind kinds =>
    rw [shape, List.head?_cons, Option.any_some] at takes
    rw [withBound, ArgBinding.bind_one shape, if_pos takes]
    cases t.argTypes with
    | nil => rfl
    | cons type types =>
      have none : (types.zip (kinds.map fun _ => ([] : List Nat))).flatMap
          (fun p => p.2.map fun i => (p.1, i)) = [] := by
        rw [List.flatMap_eq_nil_iff]
        rintro ⟨type, actuals⟩ member
        obtain ⟨kind, -, rfl⟩ := List.mem_map.mp (List.of_mem_zip member).2
        rfl
      rw [List.zip_cons_cons, List.flatMap_cons, none]
      rfl

/-- What is expected of the argument of a call is what is expected of the operand. -/
theorem Check.argContext?_one (takes : s.argKinds.head?.any (·.takesPositional) = true) :
    argContext? s (ArgBinding.bind s [.positional]) 0 .positional = operatorContext? (.callable s) := by
  rw [argContext?, Signature.withBound_one takes, operatorContext?]
  cases s.argTypes with
  | nil => rfl
  | cons type types =>
    cases mentions : type.hasTypeVars <;> simp [ArgShape.positional, ArgKind.isStar, Option.filter, mentions]

end

/-- The operand as the argument of a call. -/
def Operand.asGiven (o : Operand) (t : Ty) : Given := ⟨.positional, t, o.call⟩

namespace Check

variable {env : Env} {st st' : State} {s : Signature} {t base : Ty} {operand : Operand} {span : Span}

/-! ### Operators -/

theorem isDynamic_eq_false_of_attribute {method : String} {vars : VarTypes}
    (found : env.attributeType? vars method base = some (.callable s)) : base.isDynamic = false := by
  cases base with
  | any | error | unbound =>
    unfold Env.attributeType? at found
    cases found
  | void | noneType | inst | callable | overloaded | tuple | typeVar => rfl

/-- An operator is checked by comparing the operand with the first formal. -/
theorem outcome_checkOperator {method op : String}
    (found : env.attributeType? st.vars method base = some (.callable s))
    (infers : (operand.accept (operatorContext? (.callable s))).outcome env st = (t, st')) :
    (checkOperator method base operand op span).outcome env st =
      (⟨s.ret, .callable s⟩, ((if !acceptsFirst env.order t s then report (.operands op base t) span
        else Pure.pure () : Check Unit).outcome env st').2) := by
  have member : (getAttribute? method base).outcome env st = (some (.callable s), st) :=
    congrArg (·, st) found
  rw [checkOperator, isDynamic_eq_false_of_attribute found, if_neg Bool.false_ne_true, outcome_bind, member]
  dsimp only
  rw [outcome_bind, infers, outcome_bind, outcome_read]
  dsimp only
  cases acceptsFirst env.order t s <;> rfl

/-! ### Calls -/

theorem outcome_checkMethodCall {method : String} {operands : List Operand}
    (found : env.attributeType? st.vars method base = some (.callable s)) :
    (checkMethodCall method base operands span).outcome env st =
      (checkCall (.callable s) (operands.map .positional) span >>= fun result =>
        Pure.pure result.type).outcome env st := by
  have member : (getAttribute? method base).outcome env st = (some (.callable s), st) :=
    congrArg (·, st) found
  have attribute' : (getAttribute method base span).outcome env st = (.callable s, st) := by
    rw [getAttribute, outcome_bind, member]
    rfl
  rw [checkMethodCall, outcome_bind, attribute']

theorem outcome_checkCall_one (takes : s.argKinds.head?.any (·.takesPositional) = true)
    (infers : (operand.accept (operatorContext? (.callable s))).outcome env st = (t, st')) :
    (checkCall (.callable s) [.positional operand] span).outcome env st =
      (checkGiven s [operand.asGiven t] (ArgBinding.bind s [.positional]) span).outcome env st' := by
  have given : (giveFor (.callable s) [.positional operand]).outcome env st = ([operand.asGiven t], st') := by
    have one : (giveFor (.callable s) [.positional operand]).outcome env st =
        ([operand.asGiven ((operand.accept (argContext? s (ArgBinding.bind s [.positional]) 0
          .positional)).outcome env st).1], ((operand.accept (argContext? s (ArgBinding.bind s [.positional]) 0
          .positional)).outcome env st).2) := rfl
    rw [one, argContext?_one takes, infers]
  have resolves : resolveCallee env st.vars maxCallSteps (.callable s) = .callable s :=
    resolveCallee_callable _
  exact outcome_checkCall resolves given rfl

theorem argTypes_called {given : List Given} {bound : ArgBinding.Bound} :
    ((called s given bound span).outcome env st).1.argTypes.length = s.argTypes.length := by
  have length (args : TypeArgs) : (s.expand args).argTypes.length = s.argTypes.length := by
    cases args with
    | nil => rfl
    | cons arg args =>
      cases s
      exact (congrArg List.length (Ty.substituteEach_eq_map _ _)).trans (List.length_map _)
  unfold called
  split
  · rfl
  · exact length _

theorem argKinds_called {given : List Given} {bound : ArgBinding.Bound} :
    ((called s given bound span).outcome env st).1.argKinds = s.argKinds := by
  unfold called
  split
  · rfl
  · exact argKinds_applied

/-- A call with one positional argument demands that type arguments are found, that the function can be called
with one argument, and that the argument fits its first formal. -/
theorem checkGiven_one_silent_iff (aligned : s.argTypes.length = s.argKinds.length)
    (value : t.isVoid = false) :
    let given := [operand.asGiven t]
    let bound := ArgBinding.bind s [.positional]
    let used := ((called s given bound span).outcome env st).1
    (checkGiven s given bound span).Silent env st ↔
      (called s given bound span).Silent env st ∧ s.takesOne = true ∧
        acceptsFirst env.order t used = true := by
  intro given bound used
  have values : ∀ g ∈ given, g.seenType.isVoid = false := List.forall_mem_singleton.mpr value
  have demands : Demands (checkGiven s given bound span) env st _ _ := checkGiven_demands_of_single rfl values
  rw [demands.silent_iff]
  refine and_congr_right fun _ => ?_
  have first : (∀ i < given.length, bound.any (·.contains i) = true) ↔
      s.argKinds.head?.any (·.takesPositional) = true := by
    rw [← ArgBinding.any_contains_bind_one]
    exact ⟨fun all => all 0 Nat.one_pos, fun here i inside => Nat.lt_one_iff.mp inside ▸ here⟩
  rw [first, Signature.takesOne, Bool.and_eq_true, and_assoc, and_assoc]
  refine and_congr_right fun takes => ?_
  rw [ArgBinding.lacksRequired_bind_one argKinds_called takes, Signature.withBound_one takes,
    Bool.not_eq_true']
  refine and_congr_right fun _ => ?_
  obtain ⟨type, types, formals⟩ : ∃ type types, used.argTypes = type :: types := by
    refine List.exists_cons_of_ne_nil fun none => ?_
    have length : used.argTypes.length = s.argTypes.length := argTypes_called
    rw [none, aligned] at length
    rw [List.length_eq_zero_iff.mp length.symm] at takes
    cases takes
  rw [acceptsFirst, show ((called s given bound span).outcome env st).1 = used from rfl, formals]
  simp [given, Operand.asGiven, ArgShape.positional, Given.seenType]

end Check

/-! ### Agreement -/

open Check

/-- One check has something to report exactly if the other has, and where neither has they find the same. -/
structure Check.Concur {α : Type} (x y : Check α) (env : Env) (s : State) : Prop where
  silent : x.Silent env s ↔ y.Silent env s
  answer : x.Silent env s → y.Silent env s →
    (x.outcome env { s with diagnostics := [] }).1 = (y.outcome env { s with diagnostics := [] }).1

/-- The call of a method of the value of one expression with that of another. -/
def Rules.callMethod (method : String) (left right : Part) (span : Span) : Check Ty := do
  checkMethodCall method (← left.operand.accept none) [right.operand] span

section

variable {env : Env} {st st' st'' : State} {op : BinaryOp} {method : String} {left right : Part} {span : Span}
  {base t : Ty} {s : Signature}

theorem Rules.outcome_inferBinary (ordinary : op ≠ .isIn ∧ op ≠ .isNotIn)
    (implemented : op.method? env.options.version = some method)
    (infers : (left.operand.accept none).outcome env st = (base, st')) :
    (inferBinary op left right span).outcome env st =
      (checkOperator method base right.operand op.symbol span >>= fun result =>
        pure result.type).outcome env st' := by
  cases op with
  | isIn => exact absurd rfl ordinary.1
  | isNotIn => exact absurd rfl ordinary.2
  | same | notSame | and | or => cases implemented
  | _ =>
    unfold inferBinary
    rw [outcome_bind, infers, outcome_bind, outcome_read]
    dsimp only
    rw [implemented]

theorem Rules.operator_silent_iff (ordinary : op ≠ .isIn ∧ op ≠ .isNotIn)
    (implemented : op.method? env.options.version = some method)
    (infersLeft : (left.operand.accept none).outcome env { st with diagnostics := [] } = (base, st'))
    (found : env.attributeType? st'.vars method base = some (.callable s))
    (infersRight : (right.operand.accept (operatorContext? (.callable s))).outcome env st' = (t, st'')) :
    (inferBinary op left right span).Silent env st ↔
      st''.diagnostics = [] ∧ acceptsFirst env.order t s = true := by
  have demands : Demands (if !acceptsFirst env.order t s then report (.operands op.symbol base t) span
    else pure ()) env st'' _ _ := .reportUnless _
  have keeps : Keeps Effects.reporting (if !acceptsFirst env.order t s then
      report (.operands op.symbol base t) span else pure () : Check Unit) := by
    split
    · exact report_keeps
    · exact .done
  rw [Silent, reports, outcome_inferBinary ordinary implemented infersLeft, outcome_bind,
    outcome_checkOperator found infersRight, outcome_pure]
  exact (diagnostics_eq_nil_iff keeps).trans (and_congr_right fun _ => demands.silent_iff)

/-- The operator has the result that the method declares. -/
theorem Rules.operator_type (ordinary : op ≠ .isIn ∧ op ≠ .isNotIn)
    (implemented : op.method? env.options.version = some method)
    (infersLeft : (left.operand.accept none).outcome env st = (base, st'))
    (found : env.attributeType? st'.vars method base = some (.callable s))
    (infersRight : (right.operand.accept (operatorContext? (.callable s))).outcome env st' = (t, st'')) :
    ((inferBinary op left right span).outcome env st).1 = s.ret := by
  rw [outcome_inferBinary ordinary implemented infersLeft, outcome_bind,
    outcome_checkOperator found infersRight]
  rfl

theorem Rules.outcome_callMethod (infers : (left.operand.accept none).outcome env st = (base, st'))
    (found : env.attributeType? st'.vars method base = some (.callable s)) :
    (callMethod method left right span).outcome env st =
      (checkCall (.callable s) [.positional right.operand] span >>= fun result =>
        pure result.type).outcome env st' := by
  rw [callMethod, outcome_bind, infers, outcome_checkMethodCall found, List.map_cons, List.map_nil]

theorem Rules.call_silent_iff
    (infersLeft : (left.operand.accept none).outcome env { st with diagnostics := [] } = (base, st'))
    (found : env.attributeType? st'.vars method base = some (.callable s))
    (aligned : s.argTypes.length = s.argKinds.length)
    (infersRight : (right.operand.accept (operatorContext? (.callable s))).outcome env st' = (t, st''))
    (value : t.isVoid = false) :
    let typed := called s [right.operand.asGiven t] (ArgBinding.bind s [.positional]) span
    (callMethod method left right span).Silent env st ↔ st''.diagnostics = [] ∧ typed.Silent env st'' ∧
      s.takesOne = true ∧ acceptsFirst env.order t (typed.outcome env st'').1 = true := by
  intro typed
  rw [Silent, reports, outcome_callMethod infersLeft found, outcome_bind, outcome_pure]
  dsimp only
  by_cases takes : s.argKinds.head?.any (·.takesPositional) = true
  · rw [outcome_checkCall_one takes infersRight, diagnostics_eq_nil_iff (checkGiven_keeps (w := .reporting))]
    exact and_congr_right fun _ => checkGiven_one_silent_iff aligned value
  · -- The call does not come to a comparison, whatever the operand is found to be.
    refine iff_of_false (fun silent => takes ?_) fun silent => takes (Bool.and_eq_true_iff.mp silent.2.2.1).1
    obtain ⟨u, last, infers⟩ : ∃ u last,
        (giveFor (.callable s) [.positional right.operand]).outcome env st' = ([right.operand.asGiven u], last) :=
      ⟨_, _, rfl⟩
    have resolves : resolveCallee env st'.vars maxCallSteps (.callable s) = .callable s :=
      resolveCallee_callable _
    rw [outcome_checkCall resolves infers rfl,
      diagnostics_eq_nil_iff (checkGiven_keeps (w := .reporting))] at silent
    rw [← ArgBinding.any_contains_bind_one]
    exact bound_of_checkGiven_silent rfl silent.2 0 Nat.one_pos

/-- The call has the result of the method with its type arguments. -/
theorem Rules.call_type (infers : (left.operand.accept none).outcome env st = (base, st'))
    (found : env.attributeType? st'.vars method base = some (.callable s))
    (takes : s.takesOne = true)
    (infersRight : (right.operand.accept (operatorContext? (.callable s))).outcome env st' = (t, st'')) :
    ((callMethod method left right span).outcome env st).1 =
      ((called s [right.operand.asGiven t] (ArgBinding.bind s [.positional]) span).outcome env st'').1.ret := by
  rw [outcome_callMethod infers found, outcome_bind,
    outcome_checkCall_one (Bool.and_eq_true_iff.mp takes).1 infersRight, checkGiven_eq]
  rfl

/-- An operator and the explicit call of the method that implements it agree, both on whether there is anything
to report and on the type, exactly if the operand fits the first formal as it is declared just where the method
can be called with one argument, has type arguments and the operand fits its formal with these, and if the
result is the same with them. For a method without type variables of its own this is that it can be called with
one argument, if the operand fits its first formal. -/
theorem operator_agrees_with_call_iff (span : Span) (ordinary : op ≠ .isIn ∧ op ≠ .isNotIn)
    (implemented : op.method? env.options.version = some method)
    (infersLeft : (left.operand.accept none).outcome env { st with diagnostics := [] } = (base, st'))
    (found : env.attributeType? st'.vars method base = some (.callable s))
    (aligned : s.argTypes.length = s.argKinds.length)
    (infersRight : (right.operand.accept (operatorContext? (.callable s))).outcome env st' = (t, st''))
    (value : t.isVoid = false) :
    let operator := Rules.inferBinary op left right span
    let call := Rules.callMethod method left right span
    let typed := called s [right.operand.asGiven t] (ArgBinding.bind s [.positional]) span
    let used := (typed.outcome env st'').1
    let fits := acceptsFirst env.order t s = true
    (operator.Concur call env st ↔ (st''.diagnostics = [] →
      (fits ↔ typed.Silent env st'' ∧ s.takesOne = true ∧ acceptsFirst env.order t used = true) ∧
        (fits → used.ret = s.ret))) ∧
    (s.quantified = [] →
      (operator.Concur call env st ↔ (st''.diagnostics = [] → fits → s.takesOne = true))) := by
  intro operator call typed used fits
  have operatorSilent : operator.Silent env st ↔ st''.diagnostics = [] ∧ fits :=
    Rules.operator_silent_iff ordinary implemented infersLeft found infersRight
  have callSilent : call.Silent env st ↔ st''.diagnostics = [] ∧ typed.Silent env st'' ∧
      s.takesOne = true ∧ acceptsFirst env.order t used = true :=
    Rules.call_silent_iff infersLeft found aligned infersRight value
  have operatorType : (operator.outcome env { st with diagnostics := [] }).1 = s.ret :=
    Rules.operator_type ordinary implemented infersLeft found infersRight
  have callType (takes : s.takesOne = true) : (call.outcome env { st with diagnostics := [] }).1 = used.ret :=
    Rules.call_type infersLeft found takes infersRight
  have general : operator.Concur call env st ↔ (st''.diagnostics = [] →
      (fits ↔ typed.Silent env st'' ∧ s.takesOne = true ∧ acceptsFirst env.order t used = true) ∧
        (fits → used.ret = s.ret)) := by
    constructor
    · rintro ⟨reported, alike⟩ silent
      rw [operatorSilent, callSilent, and_congr_right_iff] at reported
      refine ⟨reported silent, fun fit => ?_⟩
      have accepted := (reported silent).mp fit
      have same := alike (operatorSilent.mpr ⟨silent, fit⟩) (callSilent.mpr ⟨silent, accepted⟩)
      rw [← callType accepted.2.1, ← same, operatorType]
    · intro both
      refine ⟨?_, fun first second => ?_⟩
      · rw [operatorSilent, callSilent]
        exact and_congr_right fun silent => (both silent).1
      · obtain ⟨silent, fit⟩ := operatorSilent.mp first
        rw [operatorType, callType (callSilent.mp second).2.2.1, (both silent).2 fit]
  refine ⟨general, fun plain => general.trans ?_⟩
  have untyped : typed = pure s := by
    rw [show typed = called s _ _ span from rfl, called, plain]
    rfl
  have same : used = s := by
    rw [show used = (typed.outcome env st'').1 from rfl, untyped]
    rfl
  have quiet : typed.Silent env st'' := by
    rw [untyped]
    rfl
  rw [same]
  refine imp_congr_right fun _ => ?_
  constructor
  · exact fun both fit => (both.1.mp fit).2.1
  · exact fun takes => ⟨⟨fun fit => ⟨quiet, takes fit, fit⟩, fun accepted => accepted.2.2⟩, fun _ => rfl⟩

end

/-- A method that takes two values behind its receiver. -/
def Signature.twofold : Signature := .positional [.any, .any, .any] .any

/-- A class that has this method for addition. -/
def ClassTable.twofold : ClassTable :=
  let add : Symbol := .func ⟨"__add__", "Sum.__add__", some 0, .callable .twofold, false⟩
  ⟨#[⟨"Sum", "Sum", [], [0], .ofList [("__add__", add)], [], false⟩]⟩

/-- One value can be added to such an instance, and the call of the method with it does not agree. -/
theorem twofold_add_disagrees :
    let program : Program := ⟨∅, .twofold, 2, .empty⟩
    let env := Env.ofProgram program default
    let st := State.initial program
    let value (id : NodeId) : Part := Expr.part ⟨id, default, .placeholder (some (.inst 0 "Sum" []))⟩
    let operator := Rules.inferBinary .add (value 0) (value 1) default
    let call := Rules.callMethod "__add__" (value 0) (value 1) default
    operator.Silent env st ∧ ¬ operator.Concur call env st := by
  intro program env st value operator call
  let st' := (((value 0).operand.accept none).outcome env { st with diagnostics := [] }).2
  let context := operatorContext? (.callable Signature.twofold.bound)
  let st'' := (((value 1).operand.accept context).outcome env st').2
  have ordinary : BinaryOp.add ≠ .isIn ∧ BinaryOp.add ≠ .isNotIn := by decide
  have implemented : BinaryOp.add.method? env.options.version = some "__add__" := rfl
  have infersLeft : ((value 0).operand.accept none).outcome env { st with diagnostics := [] } =
      (.inst 0 "Sum" [], st') := rfl
  have found : env.attributeType? st'.vars "__add__" (.inst 0 "Sum" []) =
      some (.callable Signature.twofold.bound) := rfl
  have infersRight : ((value 1).operand.accept context).outcome env st' = (.inst 0 "Sum" [], st'') := rfl
  have fit : acceptsFirst env.order (.inst 0 "Sum" []) Signature.twofold.bound = true := by decide +kernel
  refine ⟨(Rules.operator_silent_iff ordinary implemented infersLeft found infersRight).mpr ⟨rfl, fit⟩,
    fun agree => ?_⟩
  have agrees :=
    (operator_agrees_with_call_iff default ordinary implemented infersLeft found rfl infersRight rfl).2 rfl
  exact absurd (agrees.mp agree rfl fit) (by decide)

end Gradual
