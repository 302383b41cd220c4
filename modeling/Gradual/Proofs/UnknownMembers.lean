import Gradual.Proofs.Builders
import Gradual.Proofs.Inheritance

/-!
Methods that override variables. A method is compared with what a class behind its own has under its name,
also if that is a variable: then it fits only if the variable is known to be a function. A variable of
which nothing is known, which agrees with everything where two bases declare the name, is overridden by no
method without a report. A wrapped method is such a variable until its decorators have been called.
-/

namespace Gradual

namespace TypeOrder

variable {o : TypeOrder} {t : Ty}

theorem isEquivalent_dynamic (dynamic : t.isDynamic = true) (u : Ty) : o.isEquivalent t u = true := by
  have there : o.question t u = .settled true := if_pos (by rw [dynamic, Bool.true_or])
  have back : o.question u t = .settled true := if_pos (by rw [dynamic, Bool.or_true])
  rw [isEquivalent, isSubtype_of_settled there, isSubtype_of_settled back]
  rfl

theorem boundMethod_of_isDynamic (dynamic : t.isDynamic = true) : t.boundMethod = t := by
  cases t <;> first | rfl | cases dynamic

/-- A declaration of which nothing is known agrees with every other. -/
theorem membersAgree_of_unknown {declared : Option Ty}
    (unknown : ∀ type, declared = some type → type.isDynamic = true) (other : Option Ty) :
    o.membersAgree declared other = true ∧ o.membersAgree other declared = true := by
  cases declared with
  | none => cases other <;> exact ⟨rfl, rfl⟩
  | some type =>
    cases other with
    | none => exact ⟨rfl, rfl⟩
    | some u =>
      have equivalent := isEquivalent_dynamic (o := o) (unknown type rfl) u.boundMethod
      rw [membersAgree_eq, membersAgree_eq, boundMethod_of_isDynamic (unknown type rfl),
        isEquivalent_comm u.boundMethod]
      exact ⟨equivalent, equivalent⟩

end TypeOrder

namespace Env

variable {env : Env} {vars : VarTypes} {name : String} {c base : ClassId} {type : Ty} {v : Var}

theorem overrideProblems_var (own : env.classes.own? base name = some (.var v)) :
    env.overrideProblems vars name c type base =
      match (vars.get? v).filter Ty.isFunctionLike with
      | some old => env.order.overrideProblems name (env.classes.info base).name type.boundMethod
          (env.fromSupertype old.boundMethod c base)
      | none => [.overrideSignature name (env.classes.info base).name] := by
  rw [overrideProblems, own]
  rfl

theorem overrideProblems_var_eq_nil_iff (own : env.classes.own? base name = some (.var v)) :
    env.overrideProblems vars name c type base = [] ↔
      ∃ old, vars.get? v = some old ∧ old.isFunctionLike = true ∧
        env.order.overrideProblems name (env.classes.info base).name type.boundMethod
          (env.fromSupertype old.boundMethod c base) = [] := by
  rw [overrideProblems_var own]
  cases known : (vars.get? v).filter Ty.isFunctionLike with
  | none =>
    refine iff_of_false (List.cons_ne_nil _ _) ?_
    rintro ⟨old, typed, function, -⟩
    rw [typed, Option.filter_some, if_pos function] at known
    cases known
  | some old =>
    obtain ⟨typed, function⟩ := Option.filter_eq_some_iff.mp known
    constructor
    · exact fun fits => ⟨old, typed, function, fits⟩
    · rintro ⟨other, typed', -, fits⟩
      cases typed.symm.trans typed'
      exact fits

theorem overrideProblems_of_unknown (own : env.classes.own? base name = some (.var v))
    (unknown : ∀ old, vars.get? v = some old → old.isDynamic = true) :
    env.overrideProblems vars name c type base = [.overrideSignature name (env.classes.info base).name] := by
  have none : (vars.get? v).filter Ty.isFunctionLike = none := by
    refine Option.filter_eq_none_iff.mpr fun old typed => ?_
    have dynamic := unknown old typed
    cases old <;> first | exact Bool.false_ne_true | cases dynamic
  rw [overrideProblems_var own, none]

end Env

namespace Check

variable (env : Env) (s : State)

/-- A loop over bases that makes reports for each of them. -/
theorem outcome_reports_each (problems : VarTypes → ClassId → List Problem) (span : Span)
    (bases : List ClassId) :
    ∃ ds, (forIn bases PUnit.unit fun base _ => do
        for p in problems (← get).vars base do
          report p span
        pure (ForInStep.yield PUnit.unit) : Check PUnit).outcome env s =
          (PUnit.unit, { s with diagnostics := ds }) ∧
      ∀ d, d ∈ ds ↔ d ∈ s.diagnostics ∨
        ∃ base ∈ bases, ∃ p ∈ problems s.vars base, d = diagnostic env s.file s.scope p span := by
  -- Reports change no types and no scopes, so each base is judged as in the first state.
  induction bases generalizing s with
  | nil => exact ⟨s.diagnostics, rfl, by simp⟩
  | cons base rest ih =>
    obtain ⟨first, reported, new⟩ := outcome_reports_add env s id span (problems s.vars base)
    obtain ⟨ds, others, added⟩ := ih { s with diagnostics := first }
    refine ⟨ds, ?_, fun d => ?_⟩
    · rw [List.forIn_cons, outcome_bind, outcome_bind, outcome_get, outcome_bind]
      dsimp only [id] at reported ⊢
      rw [reported]
      exact others
    · simp only [added, new, List.mem_cons, exists_eq_or_imp, or_assoc, id]

theorem outcome_checkOverrides (name : String) (c : ClassId) (type : Ty) (span : Span) :
    ∃ ds, (checkOverrides name c type span).outcome env s = ((), { s with diagnostics := ds }) ∧
      ∀ d, d ∈ ds ↔ d ∈ s.diagnostics ∨ name ≠ "__init__" ∧ ∃ base ∈ (env.classes.mro c).tail,
        ∃ p ∈ env.overrideProblems s.vars name c type base, d = diagnostic env s.file s.scope p span := by
  unfold checkOverrides
  rw [outcome_bind, outcome_read]
  by_cases constructor : name = "__init__"
  · refine ⟨s.diagnostics, ?_, fun d => by simp [constructor]⟩
    rw [constructor]
    rfl
  · obtain ⟨ds, reported, new⟩ := outcome_reports_each env s
      (fun vars base => env.overrideProblems vars name c type base) span (env.classes.mro c).tail
    refine ⟨ds, ?_, fun d => by simp [new, constructor]⟩
    dsimp only
    rw [if_pos (by simpa using constructor)]
    rw [outcome_bind, reported]
    rfl

/-- The variable of a wrapped function has the type that the decorators make of the function, under the name
of the function. -/
theorem outcome_checkDecorators (d : FuncDef) (decorators : List Expr) (v : Var) (span : Span) :
    let made := ((decoratedType (.callable d.type) decorators span).outcome env s).1
    ((checkDecorators d decorators v span).outcome env s).2.vars.get? v =
      some (made.mapSignatures (·.withName d.name)) :=
  VarTypes.get?_set_self _ _ _

end Check

theorem Ty.form_mapSignatures (f : Signature → Signature) (t : Ty) :
    (t.mapSignatures f).isFunctionLike = t.isFunctionLike ∧ (t.mapSignatures f).isDynamic = t.isDynamic := by
  cases t <;> exact ⟨rfl, rfl⟩

open Check

/-- A method is compared with what each class behind its own has under its name; constructors are not. With
a variable nothing is wrong exactly if the type of the variable is known to be a function which the method
can override. So each variable whose type is dynamic or not known is reported, while it agrees with
whatever another base has under the name. The variable of a wrapped method is such a variable as long as its
decorators have not been called, and also behind them if what they answer is dynamic. -/
theorem overridden_variable_silent_iff (env : Env) (s : State) (name : String) (c : ClassId) (type : Ty)
    (span : Span) :
    (∀ d, d ∈ ((checkOverrides name c type span).outcome env s).2.diagnostics ↔
      d ∈ s.diagnostics ∨ name ≠ "__init__" ∧ ∃ base ∈ (env.classes.mro c).tail,
        ∃ p ∈ env.overrideProblems s.vars name c type base, d = diagnostic env s.file s.scope p span) ∧
    (∀ base v, env.classes.own? base name = some (.var v) →
      let problems := env.overrideProblems s.vars name c type base
      let supertype := (env.classes.info base).name
      (problems = [] ↔ ∃ old, s.vars.get? v = some old ∧ old.isFunctionLike = true ∧
        env.order.overrideProblems name supertype type.boundMethod
          (env.fromSupertype old.boundMethod c base) = []) ∧
      ((∀ old, s.vars.get? v = some old → old.isDynamic = true) →
        problems = [.overrideSignature name supertype] ∧
        ∀ other, env.order.membersAgree (env.declaredType? s.vars base name) other = true ∧
          env.order.membersAgree other (env.declaredType? s.vars base name) = true)) ∧
    ∀ (d : FuncDef) (decorators : List Expr) (v : Var) (place : Span),
      let made := ((decoratedType (.callable d.type) decorators place).outcome env s).1
      ∃ old, ((checkDecorators d decorators v place).outcome env s).2.vars.get? v = some old ∧
        old.isFunctionLike = made.isFunctionLike ∧ old.isDynamic = made.isDynamic := by
  refine ⟨fun d => ?_, fun base v own => ⟨Env.overrideProblems_var_eq_nil_iff own, fun unknown => ?_⟩,
    fun d decorators v place =>
      ⟨_, outcome_checkDecorators env s d decorators v place, Ty.form_mapSignatures _ _⟩⟩
  · obtain ⟨ds, reported, new⟩ := outcome_checkOverrides env s name c type span
    rw [reported]
    exact new d
  · refine ⟨Env.overrideProblems_of_unknown own unknown, TypeOrder.membersAgree_of_unknown fun t declared => ?_⟩
    rw [Env.declaredType?, own] at declared
    exact unknown t declared

open Builder

/-- A builder with a class that has a variable of the dynamic type, and a class behind it. -/
def Builder.loose : Builder :=
  let declared : Build Unit := do
    let base ← newPlainClass "Base" []
    discard <| classVar base "handle" (some .any)
    discard <| newPlainClass "Derived" [base]
  (declared.run .bare).2

/-- A method that is called as a dynamic variable of the base does not pass for an override, although the
variable agrees with the method where both are inherited. -/
theorem dynamic_handle_not_overridden :
    let env : Env := .ofProgram Builder.loose.toProgram default
    let s : State := .initial Builder.loose.toProgram
    let handle : Ty := .callable (.ofFormals [.any] [.pos] [some "self"] .noneType)
    env.overrideProblems s.vars "handle" 1 handle 0 = [.overrideSignature "handle" "Base"] ∧
      diagnostic env s.file s.scope (.overrideSignature "handle" "Base") (.atLine 1) ∈
        ((checkOverrides "handle" 1 handle (.atLine 1)).outcome env s).2.diagnostics ∧
      env.order.membersAgree (env.declaredType? s.vars 0 "handle") (some handle) = true := by
  intro env s handle
  obtain ⟨reports, overrides, -⟩ := overridden_variable_silent_iff env s "handle" 1 handle (.atLine 1)
  obtain ⟨-, unknown⟩ := overrides 0 ⟨0, "handle", "builtins.Base.handle", some 0⟩ rfl
  obtain ⟨wrong, agrees⟩ := unknown fun old typed => by
    cases typed
    rfl
  have named : (env.classes.info 0).name = "Base" := rfl
  rw [named] at wrong
  refine ⟨wrong, (reports _).mpr (.inr ⟨by decide, 0, by decide +kernel, _, ?_, rfl⟩), (agrees _).1⟩
  rw [wrong]
  exact List.mem_cons_self

end Gradual
