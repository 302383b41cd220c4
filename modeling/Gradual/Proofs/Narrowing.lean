import Gradual.Proofs.ScopeBalance
import Gradual.Proofs.Subtyping

/-!
What a guard that always holds does to its variable: in the branch the variable has the type that is
tested for, which says less than the type that it had, unless the two are of one class.
-/

namespace Gradual

namespace Env

variable {env : Env} {c : ClassId}

/-- The class as a guard narrows to it: all type arguments are dynamic. -/
theorem erase_selfInstance :
    ∃ as, (env.selfInstance c).toTy.erase = .inst c (env.classes.info c).fullName as ∧
      ∀ a ∈ as, a = .any := by
  refine ⟨_, rfl, ?_⟩
  rw [Ty.substituteEach_eq_map]
  intro a member
  simp only [selfInstance, ClassTable.instanceOf, List.map_map, List.mem_map] at member
  obtain ⟨v, -, rfl⟩ := member
  rfl

/-- A class that is used as a value constructs its instances. -/
theorem of_mem_typeObject {s : Signature} (member : s ∈ (env.typeObject c).signatures) :
    s.ret = (env.selfInstance c).toTy ∧ s.isTypeObject = true := by
  unfold typeObject at member
  extract_lets constructor at member
  have listed : s ∈ (env.initSignatures c).map constructor := by
    split at member
    · rename_i only single
      rw [single]
      exact member
    · exact member
  obtain ⟨init, -, rfl⟩ := List.mem_map.mp listed
  exact ⟨rfl, rfl⟩

/-- What a guard makes of a class that is used as a value. -/
theorem constructed?_typeObject {t : Ty} (h : (env.typeObject c).constructed? = some t) :
    t = (env.selfInstance c).toTy.erase := by
  unfold Ty.constructed? at h
  split at h
  · rename_i s first
    obtain ⟨made, isTypeObject⟩ := of_mem_typeObject (List.mem_of_mem_head? first)
    rw [if_pos isTypeObject] at h
    rw [← Option.some.inj h, made]
  · cases h

/-- The attributes of an instance are those of its class. -/
theorem attributeType?_inst_isSome {vars : VarTypes} {name n : String} {as : List Ty} :
    (env.attributeType? vars name (.inst c n as)).isSome = (env.attribute? c name).isSome := by
  simp only [attributeType?, instanceAttribute?]
  cases env.attribute? c name with
  | none => rfl
  | some found => rfl

end Env

open Check

/-- A condition that is a test of `x` against the class `c`, and that holds by the type that `x` has:
what is known when the condition has been inferred. -/
structure AlwaysHolds (env : Env) (s : State) (test : Expr) (x : Var) (c : ClassId) (type : Ty) :
    Prop where
  isTest : ∃ cls, test.instanceTest? = some ⟨x, cls⟩ ∧ s.types[cls]? = some (env.typeObject c)
  known : s.scope.binder.get? s.vars x = some type
  always : (Guard.ofExpr? env.order s.types s.scope.binder s.vars test).map (·.kind) =
    some .alwaysTrue

namespace AlwaysHolds

variable {env : Env} {s : State} {test : Expr} {x : Var} {c : ClassId} {type : Ty}

/-- The guard narrows the variable to the class, of which its type is properly a subtype. -/
theorem guard_eq (h : AlwaysHolds env s test x c type) :
    Guard.ofExpr? env.order s.types s.scope.binder s.vars test =
        some ⟨x, (env.selfInstance c).toTy.erase, .alwaysTrue⟩ ∧
      env.order.isProperSubtype type (env.selfInstance c).toTy.erase = true := by
  obtain ⟨cls, tested, recorded⟩ := h.isTest
  obtain ⟨g, classified, always⟩ := Option.map_eq_some_iff.mp h.always
  unfold Guard.ofExpr? at classified ⊢
  rw [tested] at classified ⊢
  simp only [Option.bind_eq_bind, Option.bind_some, recorded] at classified ⊢
  obtain ⟨target, constructed, made⟩ := Option.bind_eq_some_iff.mp classified
  cases made
  rw [constructed, Option.bind_some, ← Env.constructed?_typeObject constructed]
  have proper : env.order.isProperSubtype type target = true := by
    by_cases proper : env.order.isProperSubtype type target = true
    · exact proper
    · rw [h.known, Guard.kindOf] at always
      dsimp only at always
      rw [if_neg proper] at always
      split at always <;> cases always
  exact ⟨congrArg (fun kind => some (⟨x, target, kind⟩ : Guard)) always, proper⟩

end AlwaysHolds

namespace Check

variable {env : Env} {s : State} {test : Expr} {x : Var} {c : ClassId} {type : Ty}

/-- Of the branches the one behind such a guard is checked, and no other. -/
theorem checkArm_of_alwaysHolds {body rest : Check Unit}
    (h : AlwaysHolds env ((checkCondition test).outcome env s).2 test x c type) :
    (checkArm test body rest).outcome env s =
      (narrowing (some (x, (env.selfInstance c).toTy.erase)) body).outcome env
        ((checkCondition test).outcome env s).2 := by
  have classified : (guard? test).outcome env ((checkCondition test).outcome env s).2 =
      (some ⟨x, (env.selfInstance c).toTy.erase, .alwaysTrue⟩,
        ((checkCondition test).outcome env s).2) :=
    Prod.ext h.guard_eq.1 rfl
  unfold checkArm
  rw [outcome_bind, outcome_bind, classified]
  rfl

/-- A variable that is narrowed is read with the type that it is narrowed to. -/
theorem outcome_inferName_of_narrowed {ref : NameRef} {span : Span} {target : Ty}
    (named : ref.symbol = .var x) (narrowed : s.scope.binder.narrowed? x = some target) :
    (Rules.inferName ref span).outcome env s = (target, s) := by
  have got : s.scope.binder.get? s.vars x = some target := by rw [Binder.get?, narrowed, Option.some_or]
  unfold Rules.inferName
  rw [named]
  simp only [outcome_bind, outcome_scope, outcome_get, got]
  rfl

end Check

/-- The state in which the branch behind a guard is checked. -/
def State.narrowed (s : State) (x : Var) (type : Ty) : State :=
  { s with scope := { s.scope with binder := s.scope.binder.push x type } }

/-- In the branch behind a guard that always holds every read of the variable gives the class that
is tested for, so the type that it had before is lost: the new one is a subtype of it only if it was
of that same class, and what the class does not declare is no longer there. The branches behind are
not checked. -/
theorem alwaysTrue_branch_reads_tested_class (p : Program) (options : Options)
    (acyclic : p.classes.Acyclic) (s : State) (test : Expr) (body : Block) (rest : List Arm)
    (orElse : Check Unit) (x : Var) (c : ClassId) (type : Ty)
    (holds : AlwaysHolds (.ofProgram p options)
      ((checkCondition test).outcome (.ofProgram p options) s).2 test x c type) :
    let env : Env := .ofProgram p options
    let tested := (env.selfInstance c).toTy.erase
    let before := ((checkCondition test).outcome env s).2
    let inside := before.narrowed x tested
    ((checkArms Block.check orElse (⟨test, body⟩ :: rest)).outcome env s).2 =
        { ((checkBlock Block.check body).outcome env inside).2 with scope := before.scope } ∧
      (∀ (done left : Block) (ref : NameRef) (span : Span), body = done ++ left →
        ref.symbol = .var x →
        ((Rules.inferName ref span).outcome env
          ((checkBlock Block.check done).outcome env inside).2).1 = tested) ∧
      (env.order.isSubtype tested type = true ↔ ∃ name args, type = .inst c name args) ∧
      (∀ vars name, (env.attributeType? vars name tested).isSome = (env.attribute? c name).isSome) ∧
      ((∃ name args, type = .inst c name args) → ∀ vars name,
        (env.attributeType? vars name type).isSome →
          (env.attributeType? vars name tested).isSome) := by
  intro env tested before inside
  obtain ⟨args, instance_eq, dynamic⟩ := env.erase_selfInstance (c := c)
  have balanced : ∀ b, ((checkBlock Block.check b).outcome env inside).2.scope = inside.scope := by
    intro b
    rw [← Block.check_eq]
    exact check_scope b env inside
  refine ⟨?_, ?_, ?_, ?_, ?_⟩
  · have left : (fun scope : Scope => { scope with binder := scope.binder.pop x })
        ((checkBlock Block.check body).outcome env inside).2.scope = before.scope := by
      rw [balanced body]
      show { before.scope with binder := (before.scope.binder.push x tested).pop x } = before.scope
      rw [Binder.pop_push]
    rw [checkArms, checkArm_of_alwaysHolds holds, narrowing, outcome_between]
    exact congrArg (fun scope =>
      { ((checkBlock Block.check body).outcome env inside).2 with scope := scope }) left
  · intro done left ref span _ named
    have narrowed : inside.scope.binder.narrowed? x = some tested :=
      Binder.narrowed?_push before.scope.binder x tested
    rw [← balanced done] at narrowed
    rw [outcome_inferName_of_narrowed named narrowed]
  · have proper := holds.guard_eq.2
    rw [instance_eq] at proper
    rw [show tested = _ from instance_eq]
    exact TypeOrder.isSubtype_of_properSubtype_iff acyclic dynamic proper
  · intro vars name
    rw [show tested = _ from instance_eq]
    exact env.attributeType?_inst_isSome
  · rintro ⟨name, args', rfl⟩ vars member available
    rw [env.attributeType?_inst_isSome] at available
    rw [show tested = _ from instance_eq, env.attributeType?_inst_isSome]
    exact available

/-- A class and another one that derives from it. -/
def ClassTable.derivedPair : ClassTable :=
  ⟨#[⟨"Animal", "Animal", [], [0], ∅, [], false⟩,
    ⟨"Dog", "Dog", [⟨0, "Animal", []⟩], [1, 0],
      .ofList [("bark", Symbol.func ⟨"bark", "Dog.bark", some 1, .any, false⟩)], [], false⟩]⟩

/-- A program with these classes and a variable of the second. -/
def Program.derivedPair : Program := ⟨∅, .derivedPair, 4, ⟨1, .ofList [(0, Ty.inst 1 "Dog" [])]⟩⟩

/-- A test of the variable against the first class. -/
def Expr.derivedPairTest : Expr :=
  let named (id : NodeId) (fullName : String) (symbol : Symbol) : Expr :=
    ⟨id, .atLine 1, .name ⟨fullName, fullName, .inModule, symbol, false⟩⟩
  ⟨3, .atLine 1, .call (named 1 "builtins.isinstance" (.module "builtins"))
    [⟨.pos, none, named 0 "x" (.var ⟨0, "x", "x", none⟩)⟩, ⟨.pos, none, named 2 "Animal" (.cls 0)⟩]⟩

theorem derivedPair_acyclic : Program.derivedPair.classes.Acyclic := by
  intro c d below above
  match c, d with
  | 0, 0 | 1, 1 => rfl
  | 0, 1 => cases below
  | 1, 0 => cases above
  | c + 2, _ => cases below
  | _, d + 2 => cases above

/-- What is known when the test has been inferred. -/
def State.derivedPair : State :=
  ((checkCondition .derivedPairTest).outcome (.ofProgram .derivedPair default)
    (.initial .derivedPair)).2

theorem derivedPair_alwaysHolds :
    AlwaysHolds (.ofProgram .derivedPair default) .derivedPair .derivedPairTest
      ⟨0, "x", "x", none⟩ 0 (.inst 1 "Dog" []) where
  isTest := ⟨2, rfl, rfl⟩
  known := rfl
  always := by decide +kernel

/-- A dog that is tested to be an animal is read as an animal, which is no dog and does not bark. -/
theorem dog_reads_as_animal :
    ((Rules.inferName ⟨"x", "x", .inModule, .var ⟨0, "x", "x", none⟩, false⟩ (.atLine 1)).outcome
        (.ofProgram .derivedPair default)
        (State.derivedPair.narrowed ⟨0, "x", "x", none⟩ (.inst 0 "Animal" []))).1 =
      .inst 0 "Animal" [] ∧
    (Env.ofProgram .derivedPair default).order.isSubtype (.inst 0 "Animal" [])
      (.inst 1 "Dog" []) = false ∧
    ((Env.ofProgram .derivedPair default).attributeType? .empty "bark"
      (.inst 1 "Dog" [])).isSome = true ∧
    ((Env.ofProgram .derivedPair default).attributeType? .empty "bark"
      (.inst 0 "Animal" [])).isSome = false := by
  obtain ⟨-, reads, narrower, -, -⟩ :=
    alwaysTrue_branch_reads_tested_class .derivedPair default derivedPair_acyclic
      (.initial .derivedPair) .derivedPairTest [] [] (pure ()) ⟨0, "x", "x", none⟩ 0
      (.inst 1 "Dog" []) derivedPair_alwaysHolds
  refine ⟨reads [] [] _ _ rfl rfl, ?_, ?_, ?_⟩
  · rw [Bool.eq_false_iff]
    intro fits
    obtain ⟨name, args, same⟩ := narrower.mp fits
    cases same
  · rw [Env.attributeType?_inst_isSome]
    decide +kernel
  · rw [Env.attributeType?_inst_isSome]
    decide +kernel

end Gradual
