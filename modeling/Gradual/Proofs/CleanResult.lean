import Gradual.Proofs.Narrowing
import Gradual.Proofs.Soundness

/-!
Modules in which nothing is reported: what is recorded for returned values and for the values of
variables can be used as what is declared.
-/

namespace Gradual

/-! ### The statements that have to fit -/

namespace Check

variable {env : Env} {s : State}

theorem diagnostics_report_ne_nil {p : Problem} {span : Span} :
    ((report p span).outcome env s).2.diagnostics ≠ [] := by
  rw [outcome_report]
  dsimp only
  split
  · rename_i known
    exact List.ne_nil_of_mem known
  · simp

/-- Without a report the value is of a type that can be used. -/
theorem isSubtype_of_checkSubtype {l r : Ty} {span : Span} {p : Problem} {call : Option String}
    (clean : ((checkSubtype l r span p call).outcome env s).2.diagnostics = []) :
    env.order.isSubtype l r = true ∧ ((checkSubtype l r span p call).outcome env s).2 = s := by
  unfold checkSubtype at clean ⊢
  rw [outcome_bind, outcome_isSubtype] at clean ⊢
  cases fits : env.order.isSubtype l r with
  | true => exact ⟨rfl, rfl⟩
  | false =>
    rw [fits] at clean
    exact absurd clean diagnostics_report_ne_nil

end Check

open Check

/-- Every expression is inferred by a rule of its own and then recorded. -/
theorem Expr.accept_eq (e : Expr) :
    ∃ infer : Check Ty, ∀ expected, e.accept expected = acceptAs e.id infer expected := by
  obtain ⟨id, span, kind⟩ := e
  cases kind with
  | name ref =>
    refine ⟨Rules.inferName ref span, fun expected => ?_⟩
    show (Rules.name id span ref).accept expected = _
    unfold Rules.name
    dsimp only
    split <;> rfl
  | _ => exact ⟨_, fun _ => rfl⟩

/-- In code that is not dynamic the answer is what is recorded. -/
theorem Expr.accept_recorded (e : Expr) (expected : Option Ty) (env : Env) {s : State}
    (typed : s.scope.functions.head?.any (·.isDynamic) = false) :
    ((e.accept expected).outcome env s).2.types[e.id]? =
      some ((e.accept expected).outcome env s).1 := by
  have scope := Check.accept_scope e expected env s
  obtain ⟨infer, accepted⟩ := e.accept_eq
  rw [accepted] at scope ⊢
  unfold acceptAs at scope ⊢
  simp only [outcome_bind, outcome_store, outcome_isDynamic, outcome_pure] at scope ⊢
  simp [scope, typed]

variable {c : Setting} {f : Option FuncDef}

/-- What is recorded for a value that is returned can be used as what is to be returned. -/
theorem isSubtype_of_checkReturn {e : Expr} {span : Span} {expected : Ty} {env : Env} {s : State}
    (typed : s.scope.functions.head?.any (·.isDynamic) = false)
    (known : s.scope.returnTypes.head? = some expected)
    (clean : ((checkReturn (some e) span).outcome env s).2.diagnostics = []) :
    ∃ type, ((checkReturn (some e) span).outcome env s).2.types[e.id]? = some type ∧
      env.order.isSubtype type expected = true := by
  have recorded := e.accept_recorded (some expected) env typed
  unfold checkReturn at clean ⊢
  rw [outcome_bind, outcome_scope] at clean ⊢
  dsimp only at clean ⊢
  rw [known] at clean ⊢
  dsimp only at clean ⊢
  rw [outcome_bind] at clean ⊢
  generalize (e.accept (some expected)).outcome env s = accepted at recorded clean ⊢
  obtain ⟨actual, s'⟩ := accepted
  refine ⟨actual, ?_⟩
  dsimp only at recorded clean ⊢
  split at clean
  · rename_i notAny
    rw [if_pos notAny]
    split at clean
    · exact absurd clean diagnostics_report_ne_nil
    · rename_i notVoid
      rw [if_neg notVoid]
      obtain ⟨fits, same⟩ := isSubtype_of_checkSubtype clean
      rw [same]
      exact ⟨recorded, fits⟩
  · rename_i any
    rw [if_neg any]
    cases actual with
    | any => exact ⟨recorded, TypeOrder.isSubtype_any_left expected⟩
    | _ => exact absurd rfl any

theorem checkReturn_sound {value : Option Expr} {span : Span}
    (h : c.Knows ⟨span, .ret value⟩) :
    Sound c (.of f) [] [⟨f, ⟨span, .ret value⟩⟩] (checkReturn value span) where
  keeps := by
    have within := h.within.exprs
    exact (checkReturn_keeps (by simpa [StmtKind.exprs] using within)).more (by simp [nodesOf])
  fits := by
    intro s ready clean p member
    rw [List.mem_singleton.mp member]
    cases value with
    | none => exact True.intro
    | some e =>
      intro d around signature declared type recorded
      have around : f = some d := around
      have declared : d.signature = some signature := declared
      have typed : s.scope.functions.head?.any (·.isDynamic) = false := by
        rw [ready.holds.dynamic]
        simp [Surroundings.of, around, declared]
      have expected : s.scope.returnTypes.head? = some signature.ret := by
        apply ready.holds.returns
        simp [Surroundings.of, around, declared]
      obtain ⟨same, known, fits⟩ := isSubtype_of_checkReturn typed expected clean
      cases known.symm.trans recorded
      exact fits

/-- Any value but a bare placeholder is inferred and compared with the type of its target. -/
theorem assignOne_typed_eq {e : Expr} (bare : e.isPlaceholder = false) (type : Ty) (span : Span)
    (p : Problem) :
    assignOne (.typed type) e.toValue span p = (do
      let actual ← e.accept (some type)
      checkSubtype actual type span p e.operand.call
      return some actual) := by
  unfold assignOne
  split
  · rename_i form
    simp only [Expr.toValue] at form
    split at form <;> simp [bare] at form
  · rename_i same _
    cases same
    rfl
  · contradiction
  · contradiction

/-- What is recorded for the value of a variable can be used as what the variable is declared to
be. -/
theorem isSubtype_of_checkVarDef {v : Var} {isLocal : Bool} {e : Expr} {span : Span} {declared : Ty}
    {env : Env} {s : State} (typed : s.scope.functions.head?.any (·.isDynamic) = false)
    (bare : e.isPlaceholder = false) (known : s.vars.get? v = some declared)
    (clean : ((checkVarDef [v] isLocal (some e) span).outcome env s).2.diagnostics = []) :
    ∃ type, ((checkVarDef [v] isLocal (some e) span).outcome env s).2.types[e.id]? = some type ∧
      env.order.isSubtype type declared = true := by
  have recorded := e.accept_recorded (some declared) env typed
  unfold checkVarDef at clean ⊢
  rw [outcome_bind, outcome_typeOfVar, known] at clean ⊢
  dsimp only at clean ⊢
  rw [if_pos List.isEmpty_nil, outcome_discard, assignOne_typed_eq bare, outcome_bind] at clean ⊢
  generalize (e.accept (some declared)).outcome env s = accepted at recorded clean ⊢
  obtain ⟨actual, s'⟩ := accepted
  obtain ⟨fits, same⟩ := isSubtype_of_checkSubtype clean
  refine ⟨actual, ?_, fits⟩
  rw [outcome_bind, same]
  exact recorded

theorem checkVarDef_sound {vars : List Var} {binding : Binding} {isTopLevel : Bool}
    {init : Option Expr} {span : Span} {isLocal : Bool}
    (h : c.Knows ⟨span, .varDef vars binding isTopLevel init⟩) :
    Sound c (.of f) [] [⟨f, ⟨span, .varDef vars binding isTopLevel init⟩⟩]
      (checkVarDef vars isLocal init span) where
  keeps := by
    have within := h.within.exprs
    exact (checkVarDef_keeps (by simpa [StmtKind.exprs] using within) fun _ _ _ => True.intro).more
      (by simp [nodesOf])
  fits := by
    intro s ready clean p member
    rw [List.mem_singleton.mp member]
    unfold Place.Fits
    split
    · contradiction
    · rename_i v binding isTopLevel e defined
      cases defined
      intro bare outside declared declares type recorded
      have typed : s.scope.functions.head?.any (·.isDynamic) = false := by
        rw [ready.holds.dynamic]
        cases f with
        | none => rfl
        | some d => simpa [Surroundings.of, Option.isNone_eq_false_iff] using outside d rfl
      have has := ready.declared v declared declares
      obtain ⟨same, known, fits⟩ := isSubtype_of_checkVarDef typed bare has clean
      cases known.symm.trans recorded
      exact fits
    · trivial

/-! ### Functions -/

variable {k : Surroundings} {d : FuncDef} {N M : List NodeId} {P Q : List Place}
  {body rest : Check Unit} {checkCopy : Block → Check Unit}

/-- In the body of a function, what is to be returned is what the signature says. -/
theorem checkFuncBody_sound (hp : d.retypings ⊆ c.retypings) (hd : ∀ e ∈ d.defaults, c.Lists e)
    (hb : Sound c (.of (some d)) [] P body) :
    Sound c ⟨d.signature.isNone, none⟩ (d.defaults.flatMap (·.nodes)) P
      (checkFuncBody d d.type body) := by
  have declared := declareParams_keeps (w := c.effects []) fun r member =>
    Setting.allows_of_mem (hp member)
  have inferred : Keeps (c.effects (d.defaults.flatMap (·.nodes))) (do
      for default in d.params.filterMap (·.default) do
        discard <| default.accept none) := by
    refine (Keeps.forIn fun e member => ?_).seq fun _ => .done
    exact ((Setting.within_of_lists hd e member).accept none).discard.yielding
  have returned : Sound c ⟨d.signature.isNone, none⟩ [] P (returning d.type.ret body) := by
    refine hb.returning fun scope holds => ⟨holds.dynamic, ?_⟩
    intro type known
    obtain ⟨signature, declared, same⟩ : ∃ signature, d.signature = some signature ∧
        signature.ret = type := by simpa [Surroundings.of] using known
    rw [← same, FuncDef.type, declared]
    rfl
  have checked := (Sound.own (k := ⟨d.signature.isNone, none⟩) declared).seq
    ((Sound.own inferred).seq returned)
  rw [List.append_nil] at checked
  refine .reads (fun _ _ => rfl) fun dynamic => ?_
  split
  · exact (Sound.own (N := []) report_keeps).seq checked
  · exact checked

/-- A function is checked as its signature says; one with a restricted type variable is checked in
copies, so nothing is recorded for its own statements. -/
theorem checkFunc_sound (hc : CopiesKeep checkCopy)
    (hp : d.retypings ⊆ c.retypings) (hd : ∀ e ∈ d.defaults, c.Lists e)
    (hv : ∀ p ∈ d.places, c.Knows p.stmt)
    (hb : Sound c (.of (some d)) [] d.places body) :
    Sound c k (d.defaults.flatMap (·.nodes)) d.places (checkFunc d body checkCopy) := by
  cases restricted : d.restricted? with
  | none =>
    unfold checkFunc
    rw [restricted]
    refine (checkFuncBody_sound hp hd hb).inLocalScope.inFunction fun scope holds => ⟨?_, ?_⟩
    · simp
    · simp
  | some v =>
    refine .skipped (checkFunc_keeps_of_restricted restricted ⟨rfl, ?_, fun _ _ => True.intro⟩ hc)
    intro u given type
    obtain ⟨s, listed, shared⟩ := List.mem_flatMap.mp given
    obtain ⟨p, place, rfl⟩ := List.mem_map.mp listed
    exact ⟨_, (hv p place).vars (StmtKind.mem_retypings_of_shares shared), rfl, .inl rfl⟩

/-! ### Branches -/

/-- A guard decides which of two branches is checked. -/
theorem checkArm_sound {test : Expr} (ht : c.Lists test)
    (hb : Sound c k [] P body) (hr : Sound c k M Q rest) :
    Sound c k (test.nodes ++ M) (P ++ Q) (checkArm test body rest) := by
  refine (Sound.own (checkCondition_keeps (Setting.within_of_lists_self ht))).seq (P := []) ?_
  refine .reads (fun _ _ => rfl) fun guard => ?_
  split
  · exact hb.seq hr
  · split
    · exact hr.skipping (N := [])
    · exact hb.narrowing.pruning
    · exact hb.narrowing.seq hr

/-! ### Trees -/

mutual

theorem Stmt.check_sound (hc : CopiesKeep checkCopy) {f : Option FuncDef} :
    (s : Stmt) → (∀ p ∈ s.places f, c.Knows p.stmt) →
    Sound c (.of f) [] (s.places f) (s.check checkCopy)
  | ⟨span, kind⟩, h => by
    simp only [Stmt.places, List.forall_mem_cons] at h
    exact kind.check_sound hc span h.1 h.2

theorem StmtKind.check_sound (hc : CopiesKeep checkCopy) {f : Option FuncDef}
    (span : Span) (kind : StmtKind) (own : c.Knows ⟨span, kind⟩)
    (h : ∀ p ∈ kind.places f, c.Knows p.stmt) :
    Sound c (.of f) [] (⟨f, ⟨span, kind⟩⟩ :: kind.places f) (kind.check checkCopy span) := by
  have keeps := kind.check_keeps hc (f := none) span own.within
  have exprs := own.exprs
  have vars := own.vars
  cases kind with
  | varDef vars binding isTopLevel init =>
    unfold StmtKind.check
    exact checkVarDef_sound own
  | ret value =>
    unfold StmtKind.check
    exact checkReturn_sound own
  | func d =>
    unfold StmtKind.check
    refine .place (p := ⟨f, ⟨span, .func d⟩⟩) ?_ fun _ => True.intro
    exact (d.check_sound hc vars exprs h).followed checkPlace_keeps
  | overloaded items owner symbol =>
    unfold StmtKind.check
    refine .place (p := ⟨f, ⟨span, .overloaded items owner symbol⟩⟩) ?_ fun _ => True.intro
    exact (checkEach_sound hc items vars exprs h).followed checkOverloads_keeps
  | cls name cls body =>
    unfold StmtKind.check
    refine .place (p := ⟨f, ⟨span, .cls name cls body⟩⟩) ?_ fun _ => True.intro
    exact ((checkBlock_sound hc body h).followed checkInherited_keeps).inClass
  | decorated func decorators v =>
    unfold StmtKind.check
    refine .place (p := ⟨f, ⟨span, .decorated func decorators v⟩⟩) ?_ fun _ => True.intro
    obtain ⟨defaults, wrapped⟩ := List.forall_mem_append.mp exprs
    obtain ⟨formals, named⟩ := List.append_subset.mp vars
    have called : Keeps (c.effects (decorators.flatMap (·.nodes))) (do
        checkPlace func
        checkDecorators func decorators v span) :=
      checkPlace_keeps.seq fun _ => checkDecorators_keeps (Setting.within_of_lists wrapped)
        (Setting.allows_of_mem (named List.mem_cons_self))
    rw [Stmt.nodes, StmtKind.exprs, List.flatMap_append]
    exact (func.check_sound hc formals defaults h).ending called
  | ifElse arms orElse =>
    unfold StmtKind.check
    simp only [StmtKind.places, List.forall_mem_append] at h
    refine .place (p := ⟨f, ⟨span, .ifElse arms orElse⟩⟩) ?_ fun _ => True.intro
    exact checkArms_sound hc (checkOption_sound hc orElse h.2) arms exprs h.1
  | whileLoop test body orElse =>
    unfold StmtKind.check
    simp only [StmtKind.places, List.forall_mem_append] at h
    refine .place (p := ⟨f, ⟨span, .whileLoop test body orElse⟩⟩) ?_ fun _ => True.intro
    have tested := checkCondition_keeps (Setting.within_of_lists exprs test List.mem_cons_self)
    exact .preceded tested ((checkBlock_sound hc body h.1).seq (checkOption_sound hc orElse h.2))
  | forLoop targets isAnnotated sequence body orElse =>
    unfold StmtKind.check
    simp only [StmtKind.places, List.forall_mem_append] at h
    refine .place (p := ⟨f, ⟨span, .forLoop targets isAnnotated sequence body orElse⟩⟩) ?_ fun _ =>
      True.intro
    obtain ⟨ht, hs⟩ := List.forall_mem_append.mp (Setting.within_of_lists exprs)
    refine .preceded (checkForTargets_keeps ht (hs sequence List.mem_cons_self)) ?_
    exact (checkBlock_sound hc body h.1).seq (checkOption_sound hc orElse h.2)
  | withBlock items body =>
    unfold StmtKind.check
    refine .place (p := ⟨f, ⟨span, .withBlock items body⟩⟩) ?_ fun _ => True.intro
    refine .preceded (.forIn fun (manager, target) member => ?_) (checkBlock_sound hc body h)
    have both : ∀ e ∈ manager :: target.toList, e.Within (c.effects _) := fun e he =>
      Setting.within_of_lists exprs e (List.mem_flatMap.mpr ⟨_, member, he⟩)
    obtain ⟨hm, ht⟩ := List.forall_mem_cons.mp both
    exact (checkContext_keeps hm (by simpa using ht)).yielding
  | tryBlock body handlers orElse atEnd =>
    unfold StmtKind.check
    simp only [StmtKind.places, List.forall_mem_append] at h
    refine .place (p := ⟨f, ⟨span, .tryBlock body handlers orElse atEnd⟩⟩) ?_ fun _ => True.intro
    have checked := (checkBlock_sound hc body h.1.1.1).seq
      ((checkHandlers_sound hc handlers exprs h.1.1.2).seq
        ((checkOption_sound hc orElse h.1.2).seq (checkOption_sound hc atEnd h.2)))
    simp only [List.nil_append, List.append_nil, ← List.append_assoc] at checked
    exact checked
  | assign | opAssign | expr | assert | yield | raise | del | print | pass | breakLoop
  | continueLoop | globals | imports =>
    exact (Sound.own (keeps (by simp [StmtKind.places]))).place fun _ => True.intro

theorem FuncDef.check_sound (hc : CopiesKeep checkCopy) {k : Surroundings} :
    (d : FuncDef) → d.retypings ⊆ c.retypings → (∀ e ∈ d.defaults, c.Lists e) →
    (∀ p ∈ d.places, c.Knows p.stmt) →
    Sound c k (d.defaults.flatMap (·.nodes)) d.places (d.check checkCopy)
  | ⟨name, fullName, owner, params, body, signature, isGenerator, span, isAbstract, earlier,
      symbol⟩, vars, exprs, h => by
    unfold FuncDef.check
    exact checkFunc_sound hc vars exprs h (checkBlock_sound hc body h)

theorem checkEach_sound (hc : CopiesKeep checkCopy) {k : Surroundings}
    (items : List FuncDef) (vars : items.flatMap (·.retypings) ⊆ c.retypings)
    (exprs : ∀ e ∈ items.flatMap (·.defaults), c.Lists e)
    (h : ∀ p ∈ placesOfEach items, c.Knows p.stmt) :
    Sound c k ((items.flatMap (·.defaults)).flatMap (·.nodes)) (placesOfEach items)
      (checkEach checkCopy items) := by
  cases items with
  | nil => exact .skip
  | cons d rest =>
    unfold checkEach
    simp only [placesOfEach, List.forall_mem_append] at h
    rw [List.flatMap_cons] at vars exprs ⊢
    obtain ⟨first, others⟩ := List.append_subset.mp vars
    obtain ⟨own, further⟩ := List.forall_mem_append.mp exprs
    rw [List.flatMap_append]
    exact (d.check_sound hc first own h.1).seq (checkEach_sound hc rest others further h.2)

theorem checkBlock_sound (hc : CopiesKeep checkCopy) {f : Option FuncDef}
    (b : List Stmt) (h : ∀ p ∈ blockPlaces f b, c.Knows p.stmt) :
    Sound c (.of f) [] (blockPlaces f b) (checkBlock checkCopy b) := by
  cases b with
  | nil => exact .skip
  | cons s rest =>
    unfold checkBlock
    simp only [blockPlaces, List.forall_mem_append] at h
    exact (s.check_sound hc h.1).seq (checkBlock_sound hc rest h.2)

theorem checkOption_sound (hc : CopiesKeep checkCopy) {f : Option FuncDef}
    (b : Option (List Stmt)) (h : ∀ p ∈ optionPlaces f b, c.Knows p.stmt) :
    Sound c (.of f) [] (optionPlaces f b) (checkOption checkCopy b) := by
  cases b with
  | none => exact .skip
  | some b => exact checkBlock_sound hc b h

theorem checkArms_sound (hc : CopiesKeep checkCopy) {f : Option FuncDef}
    {Q : List Place} {orElse : Check Unit} (ho : Sound c (.of f) [] Q orElse) : (arms : List Arm) →
    (∀ e ∈ arms.map (·.test), c.Lists e) → (∀ p ∈ armPlaces f arms, c.Knows p.stmt) →
    Sound c (.of f) ((arms.map (·.test)).flatMap (·.nodes)) (armPlaces f arms ++ Q)
      (checkArms checkCopy orElse arms)
  | [], _, _ => ho
  | ⟨test, body⟩ :: rest, tests, h => by
    unfold checkArms
    simp only [armPlaces, List.forall_mem_append] at h
    obtain ⟨first, others⟩ := List.forall_mem_cons.mp tests
    rw [armPlaces, List.append_assoc]
    exact checkArm_sound first (checkBlock_sound hc body h.1)
      (checkArms_sound hc ho rest others h.2)

theorem checkHandlers_sound (hc : CopiesKeep checkCopy) {f : Option FuncDef} :
    (handlers : List Handler) →
    (∀ e ∈ handlers.flatMap fun h => h.type.toList ++ h.var.toList, c.Lists e) →
    (∀ p ∈ handlerPlaces f handlers, c.Knows p.stmt) →
    Sound c (.of f)
      ((handlers.flatMap fun h => h.type.toList ++ h.var.toList).flatMap (·.nodes))
      (handlerPlaces f handlers) (checkHandlers checkCopy handlers)
  | [], _, _ => .skip
  | ⟨type, v, body⟩ :: rest, exprs, h => by
    unfold checkHandlers
    simp only [handlerPlaces, List.forall_mem_append] at h
    rw [List.flatMap_cons] at exprs ⊢
    obtain ⟨first, others⟩ := List.forall_mem_append.mp exprs
    obtain ⟨ht, hv⟩ := List.forall_mem_append.mp (Setting.within_of_lists first)
    have typed : ∀ e ∈ type, e.Within _ := fun e he => ht e (Option.mem_toList.mpr he)
    have named : ∀ e ∈ v, e.Within _ := fun e he => hv e (Option.mem_toList.mpr he)
    have caught := checkCaught_keeps typed named
    rw [List.flatMap_append]
    exact (Sound.own caught).seq
      ((checkBlock_sound hc body h.1).seq (checkHandlers_sound hc rest others h.2))

end

theorem Block.check_sound {b : Block} (h : b.retypings ⊆ c.retypings) :
    Sound c (.of none) [] b.places b.check := by
  have copies : CopiesKeep Block.check := fun _ _ body h => body.check_keeps h
  rw [b.check_eq]
  refine checkBlock_sound copies b fun p member => Setting.knows_of_subset fun r given => ?_
  exact h (List.mem_flatMap.mpr ⟨p, member, given⟩)

/-! ### Modules -/

namespace Check

variable {env : Env} {s : State}

/-- Ids are taken in order. -/
structure Later (s s' : State) : Prop where
  node : s.nextNode ≤ s'.nextNode
  var : s.vars.next ≤ s'.vars.next

theorem checkModule_later (m : Module) : Later s ((checkModule m).outcome env s).2 := by
  have keeps : Keeps Effects.anything m.body.check :=
    m.body.check_keeps (f := none) fun p _ => p.stmt.within_anything
  have frame := keeps.frame env ((enterModule m).outcome env s).2
  exact ⟨frame.nextNode, frame.nextVar⟩

theorem checkModuleNamed_later (name : String) :
    Later s ((checkModuleNamed name).outcome env s).2 := by
  unfold checkModuleNamed
  rw [outcome_bind, outcome_read]
  split
  · exact checkModule_later _
  · exact ⟨Nat.le_refl _, Nat.le_refl _⟩

theorem checkModules_later (names : List String) :
    Later s ((names.mapM checkModuleNamed).outcome env s).2 := by
  induction names generalizing s with
  | nil => exact ⟨Nat.le_refl _, Nat.le_refl _⟩
  | cons name rest ih =>
    rw [List.mapM_cons]
    have first : Later s ((checkModuleNamed name).outcome env s).2 := checkModuleNamed_later name
    have others := ih (s := ((checkModuleNamed name).outcome env s).2)
    exact ⟨Nat.le_trans first.node others.node, Nat.le_trans first.var others.var⟩

end Check

/-- If nothing is reported in a module, then in it, however deeply nested,
* what is recorded for a returned value is a subtype of what the function around declares, and
* what is recorded for the value of a variable that is defined alone and has a type is a subtype of
  that, except in functions without signature and if the variable is given another type in the
  module.
The modules before it are those that have been checked with it. -/
theorem clean_module_fits (p : Program) (options : Options) (names : List String) (m : Module)
    (distinct : m.body.nodes.Nodup) (numbered : ∀ id ∈ m.body.nodes, id < p.nextNode)
    (clean : ((checkModule m).outcome (.ofProgram p options)
      (p.run options (names.mapM checkModuleNamed)).2).1.diagnostics = []) :
    let order := (Env.ofProgram p options).order
    let before := (p.run options (names.mapM checkModuleNamed)).2
    let report := ((checkModule m).outcome (.ofProgram p options) before).1
    (∀ place ∈ m.body.places, ∀ d ∈ place.func, ∀ signature ∈ d.signature,
      ∀ e, place.stmt.kind = .ret (some e) → ∀ type, report.types[e.id]? = some type →
        order.isSubtype type signature.ret = true) ∧
    ∀ place ∈ m.body.places, (∀ d ∈ place.func, d.signature.isSome = true) →
      ∀ v binding isTopLevel e, place.stmt.kind = .varDef [v] binding isTopLevel (some e) →
        e.isPlaceholder = false → v.id < p.vars.next → ∀ declared, before.vars.get? v = some declared →
          (∀ r ∈ m.body.retypings, r.1 = v.id → r.2 = some declared) →
            ∀ type, report.types[e.id]? = some type → order.isSubtype type declared = true := by
  intro order before report
  let c : Setting :=
    ⟨.ofProgram p options, m.body.retypings, p.nextNode, p.vars.next, before.vars.get?⟩
  have sound : Sound c (.of none) [] m.body.places m.body.check := Block.check_sound fun _ h => h
  have outermost : before.scope = .outermost :=
    checkModules_scope names (.ofProgram p options) (.initial p) rfl
  have later : Later (.initial p) before := checkModules_later names
  have ready : Ready c (.of none) ([] ++ nodesOf m.body.places)
      ((enterModule m).outcome c.env before).2 :=
    { holds := by
        show Surroundings.Hold _ { before.scope with locals := none, binder := .empty }
        rw [outermost]
        exact ⟨rfl, fun _ known => nomatch known⟩
      nextNode := later.node
      nextVar := later.var
      fresh := fun id _ => Std.TreeMap.getElem?_emptyc
      distinct := distinct
      old := numbered
      declared := fun v type declares => declares.1 }
  have fits := sound.fits _ ready (List.append_eq_nil_iff.mp clean).1
  refine ⟨?_, ?_⟩
  · intro place member d around signature declared e returned type recorded
    have fit := fits place member
    rw [Place.Fits, returned] at fit
    exact fit d around signature declared type recorded
  · intro place member outside v binding isTopLevel e defined bare old declared has only type recorded
    have fit := fits place member
    rw [Place.Fits, defined] at fit
    exact fit bare outside declared ⟨has, old, only⟩ type recorded

/-! ### Two modules -/

/-- A function with or without a signature. -/
def FuncDef.sample (params : List Param) (signature : Option Signature) (body : Block) : FuncDef :=
  ⟨"f", "m.f", none, params, body, signature, false, .atLine 1, false, none,
    ⟨"f", "m.f", none, .any, false⟩⟩

def Module.sample (body : Block) : Module := ⟨"m", "m.py", body, ∅⟩

def Var.dog : Var := ⟨0, "dog", "dog", none⟩

def Var.animal : Var := ⟨1, "animal", "animal", none⟩

def Expr.dog (id : NodeId) : Expr :=
  ⟨id, .atLine 1, .name ⟨"dog", "dog", .inModule, .var .dog, false⟩⟩

/-- A dog is returned as an animal and stored as an animal. -/
def FuncDef.fitting : FuncDef :=
  .sample [] (some ⟨[], [], [], .inst 0 "Animal" [], [], false, some "f", false⟩)
    [⟨.atLine 2, .ret (some (.dog 0))⟩]

def Block.fitting : Block :=
  [⟨.atLine 1, .func .fitting⟩, ⟨.atLine 3, .varDef [.animal] .inModule true (some (.dog 1))⟩]

def Program.fitting : Program :=
  { Program.derivedPair with
    vars := ⟨2, .ofList [(0, Ty.inst 1 "Dog" []), (1, Ty.inst 0 "Animal" [])]⟩ }

theorem fitting_clean : ((checkModule (.sample .fitting)).outcome (.ofProgram .fitting default)
    (Program.fitting.run default (([] : List String).mapM checkModuleNamed)).2).1.diagnostics =
    [] := by decide +kernel

/-- Where nothing is reported, the dog that is returned and stored is recorded as a dog, which is an
animal. -/
theorem fitting_module_fits :
    let order := (Env.ofProgram .fitting default).order
    let report := ((checkModule (.sample .fitting)).outcome (.ofProgram .fitting default)
      (Program.fitting.run default (([] : List String).mapM checkModuleNamed)).2).1
    report.diagnostics = [] ∧
      (report.types[0]? = some (.inst 1 "Dog" []) ∧
        order.isSubtype (.inst 1 "Dog" []) (.inst 0 "Animal" []) = true) ∧
      report.types[1]? = some (.inst 1 "Dog" []) ∧
        order.isSubtype (.inst 1 "Dog" []) (.inst 0 "Animal" []) = true := by
  intro order report
  obtain ⟨returned, defined⟩ := clean_module_fits .fitting default [] (.sample .fitting)
    (by decide) (by decide) fitting_clean
  have first : report.types[0]? = some (.inst 1 "Dog" []) := by with_unfolding_all rfl
  have second : report.types[1]? = some (.inst 1 "Dog" []) := by with_unfolding_all rfl
  refine ⟨fitting_clean, ⟨first, ?_⟩, second, ?_⟩
  · exact returned ⟨some .fitting, ⟨.atLine 2, .ret (some (.dog 0))⟩⟩ (.tail _ (.head _)) .fitting
      rfl _ rfl (.dog 0) rfl _ first
  · refine defined ⟨none, ⟨.atLine 3, .varDef [.animal] .inModule true (some (.dog 1))⟩⟩
      (.tail _ (.tail _ (.head _))) (fun _ around => nomatch around) .animal .inModule true (.dog 1)
      rfl rfl (by decide) (.inst 0 "Animal" []) (by with_unfolding_all rfl) ?_ _ second
    exact fun r given => nomatch given

/-- The dog becomes a tuple behind a function without signature that has it as an argument. -/
def Block.retyping : Block :=
  [⟨.atLine 1, .func (.sample [⟨.dog, .pos, none⟩] none [])⟩,
    ⟨.atLine 3, .varDef [.dog] .inModule true (some ⟨0, .atLine 3, .tuple []⟩)⟩]

/-- Without a report a value need not fit the type that its variable had before the module was
checked, where something in the module gives it another type. -/
theorem retyped_variable_unfit :
    let env : Env := .ofProgram .derivedPair default
    let before := (Program.derivedPair.run default (([] : List String).mapM checkModuleNamed)).2
    let report := ((checkModule (.sample .retyping)).outcome env before).1
    Block.retyping.nodes.Nodup ∧ report.diagnostics = [] ∧
      ⟨none, ⟨.atLine 3, .varDef [.dog] .inModule true (some ⟨0, .atLine 3, .tuple []⟩)⟩⟩ ∈
        Block.retyping.places ∧
      before.vars.get? .dog = some (.inst 1 "Dog" []) ∧
      report.types[0]? = some (.tuple []) ∧
      env.order.isSubtype (.tuple []) (.inst 1 "Dog" []) = false := by
  intro env before report
  refine ⟨by decide, by decide +kernel, .tail _ (.head _), by with_unfolding_all rfl,
    by with_unfolding_all rfl, by decide +kernel⟩

end Gradual
