import Gradual.Checker.Module
import Gradual.Proofs.UntypedExpr

/-!
Functions without a signature are not type checked: nothing is reported in them but what does not
depend on types, whatever surrounds them and whatever the state they are checked in.
-/

namespace Gradual

/-- Not the definition of a function or of a class. -/
def StmtKind.isPlain : StmtKind → Bool
  | .func _ | .overloaded .. | .cls .. | .decorated .. => false
  | _ => true

/-- A statement that defines no function and no class, with plain expressions. -/
structure Stmt.IsPlain (s : Stmt) : Prop where
  kind : s.kind.isPlain = true
  exprs : ∀ e ∈ s.kind.exprs, e.IsPlain

instance (s : Stmt) : Decidable s.IsPlain :=
  decidable_of_iff (s.kind.isPlain = true ∧ ∀ e ∈ s.kind.exprs, e.IsPlain)
    ⟨fun h => ⟨h.1, h.2⟩, fun h => ⟨h.kind, h.exprs⟩⟩

/-- A function in which no other one is defined. -/
structure FuncDef.IsPlain (d : FuncDef) : Prop where
  defaults : ∀ e ∈ d.defaults, e.IsPlain
  body : ∀ p ∈ d.places, p.stmt.IsPlain

instance (d : FuncDef) : Decidable d.IsPlain :=
  decidable_of_iff ((∀ e ∈ d.defaults, e.IsPlain) ∧ ∀ p ∈ d.places, p.stmt.IsPlain)
    ⟨fun h => ⟨h.1, h.2⟩, fun h => ⟨h.defaults, h.body⟩⟩

namespace Check

variable {r : Option Ty}

/-! ### Results -/

theorem checkReturn_untyped {value : Option Expr} {span : Span} (h : ∀ e ∈ value, e.IsPlain) :
    Keeps (.untyped r) (checkReturn value span) := by
  apply scope_keeps.seq
  intro s
  split
  · exact .done
  · rename_i e _
    apply ((h e rfl).accept _).bind
    intro _ answer
    subst answer
    exact .done
  · refine scope_keeps.seq fun s => isDynamic_untyped.bind ?_
    rintro _ rfl
    rw [Bool.not_true, Bool.and_false]
    exact .done

/-- What a function without a signature yields is dynamic too. -/
theorem checkYield_untyped {value : Expr} {span : Span} (h : value.IsPlain) :
    Keeps (.untyped (some .any)) (checkYield value span) := by
  apply scope_untyped.bind
  intro s inside
  rw [inside.returns]
  apply (h.accept _).bind
  intro _ answer
  subst answer
  exact checkSubtype_untyped

/-! ### Assignments -/

theorem checkAssign_untyped {targets : List Expr} {value : Expr} (ht : ∀ t ∈ targets, t.IsPlain)
    (hv : value.IsPlain) : Keeps (.untyped r) (checkAssign targets value) := by
  unfold checkAssign
  split
  · exact hv.discarded
  · rename_i last known
    have lastPlain := ht last (List.mem_of_getLast? known)
    apply (assignTargets_untyped lastPlain.targets hv.toValue).seq
    intro _
    apply isDynamic_untyped.bind
    intro _ answer
    subst answer
    have dynamic : Keeps (.untyped r) (pure Ty.any) (· = .any) := .pure rfl
    apply dynamic.bind
    intro _ answer
    subst answer
    refine (Keeps.forIn fun t member => ?_).seq fun _ => .done
    have plain := ht t (List.dropLast_subset _ member)
    exact (assignTargets_untyped plain.targets Value.untyped_known).yielding

theorem typed_untyped {vars : List Var} :
    Keeps (.untyped r) (vars.mapM fun v => return Target.typed ((← typeOfVar v).getD .any))
      fun targets => ∀ t ∈ targets, t.Untyped r :=
  .mapM fun _ _ => typeOfVar_keeps.seq fun _ => .pure True.intro

theorem checkVarDef_untyped {vars : List Var} {isLocal : Bool} {init : Option Expr} {span : Span}
    (h : ∀ e ∈ init, e.IsPlain) : Keeps (.untyped r) (checkVarDef vars isLocal init span) := by
  unfold checkVarDef
  split
  · exact .done
  · rename_i first others
    apply typeOfVar_keeps.seq
    intro known
    split
    · apply isDynamic_untyped.bind
      intro _ answer
      subst answer
      rw [Bool.not_true, Bool.and_false]
      exact .done
    · exact .done
    · rename_i init type
      have value := (h init rfl).toValue (r := r)
      split
      · have target : (Target.typed type).Untyped r := True.intro
        exact (assignOne_untyped target value).trivial.discard
      · exact typed_untyped.bind fun targets plain =>
          (assignMany_untyped plain value).trivial.discard
    · rename_i init
      apply ((h init rfl).accept none).bind
      intro _ answer
      subst answer
      split
      · exact inferTypes_untyped .any
      · exact .done

theorem checkOpAssign_untyped {op : BinaryOp} {target value : Expr} {span : Span}
    (ht : target.IsPlain) (hv : value.IsPlain) :
    Keeps (.untyped r) (checkOpAssign op target value span) := by
  apply (ht.accept none).bind
  intro _ answer
  subst answer
  apply read_keeps.seq
  intro env
  split
  · exact hv.discarded
  · apply (checkOperator_untyped hv.operand).bind
    intro called answer
    dsimp only
    rw [answer]
    split
    · rename_i base index display
      have inside := target.inside_unwrapped_subset
      rw [display] at inside
      have hb : base.IsPlain := fun x member => ht x (inside (List.mem_append_left _ member))
      have hi : index.IsPlain := fun x member => ht x (inside (List.mem_append_right _ member))
      have plain : Target.Untyped r (.indexed (base.accept none) index.operand) :=
        ⟨hb.accept none, hi.operand⟩
      exact (assignOne_untyped plain Value.untyped_known).trivial.discard
    · apply isSubtype_untyped.bind
      intro _ answer
      subst answer
      exact .done

theorem checkDel_untyped {target : Expr} (h : target.IsPlain) :
    Keeps (.untyped r) (checkDel target) := by
  have inside := target.inside_unwrapped_subset
  unfold checkDel
  split
  · rename_i base index display
    rw [display] at inside
    have hb : base.IsPlain := fun x member => h x (inside (List.mem_append_left _ member))
    have hi : index.IsPlain := fun x member => h x (inside (List.mem_append_right _ member))
    apply (hb.accept none).bind
    intro _ answer
    subst answer
    exact (checkMethodCall_untyped (by simpa using hi.operand)).trivial.discard
  · exact .done

/-! ### Branches and loops -/

theorem checkCondition_untyped {test : Expr} (h : test.IsPlain) :
    Keeps (.untyped r) (checkCondition test) := by
  apply (h.accept none).bind
  intro _ answer
  subst answer
  exact .done

/-- Whatever a guard says, the branches report nothing. -/
theorem checkArm_untyped {test : Expr} {body rest : Check Unit} (ht : test.IsPlain)
    (hb : Keeps (.untyped r) body) (hr : Keeps (.untyped r) rest) :
    Keeps (.untyped r) (checkArm test body rest) := by
  apply (checkCondition_untyped ht).seq
  intro _
  refine (Keeps.of_reads fun _ _ => rfl).seq fun guard => ?_
  split
  · exact hb.seq fun _ => hr
  · split
    · exact hr
    · exact narrowing_untyped hb
    · exact (narrowing_untyped hb).seq fun _ => hr

theorem declaredType_untyped {e : Expr} : Keeps (.untyped r) (declaredType e) := by
  unfold declaredType
  split
  · split
    · exact typeOfVar_keeps.seq fun _ => .done
    · exact .done
  · exact .done

theorem checkForTargets_untyped {targets : List Expr} {isAnnotated : Bool} {sequence : Expr}
    {span : Span} (ht : ∀ t ∈ targets, t.IsPlain) (hs : sequence.IsPlain) :
    Keeps (.untyped r) (checkForTargets targets isAnnotated sequence span) := by
  apply (itemType_untyped hs.operand).bind
  intro _ answer
  subst answer
  unfold checkLoopTargets
  split
  · have typed : Keeps (.untyped r) (targets.mapM fun e => return Target.typed (← declaredType e))
        fun targets => ∀ t ∈ targets, t.Untyped r :=
      .mapM fun _ _ => declaredType_untyped.seq fun _ => .pure True.intro
    apply typed.bind
    intro targets plain
    split
    · exact (assignOne_untyped (plain _ (by simp)) Value.untyped_known).trivial.discard
    · exact (assignMany_untyped plain Value.untyped_known).trivial.discard
  · exact assignTargets_untyped ht Value.untyped_known

theorem checkContext_untyped {manager : Expr} {target : Option Expr} (hm : manager.IsPlain)
    (ht : ∀ t ∈ target, t.IsPlain) : Keeps (.untyped r) (checkContext manager target) := by
  apply (hm.accept none).bind
  intro _ answer
  subst answer
  apply (checkMethodCall_untyped (by simp)).bind
  intro _ answer
  subst answer
  have left : Keeps (.untyped r) (do
      discard <| checkMethodCall "__exit__" .any (List.replicate 3 (.known .any)) manager.span) := by
    refine (checkMethodCall_untyped fun o member => ?_).trivial.discard
    rw [List.eq_of_mem_replicate member]
    exact known_untyped
  split
  · rename_i target
    exact (assignTargets_untyped (ht target rfl).targets Value.untyped_known).seq fun _ => left
  · exact left

/-! ### Exceptions -/

theorem checkRaised_untyped {e : Expr} (h : e.IsPlain) : Keeps (.untyped r) (checkRaised e) := by
  apply (h.accept none).bind
  intro _ answer
  subst answer
  exact named_untyped.seq fun base => checkSubtype_untyped

theorem caughtByClass_untyped {e : Expr} (h : e.IsPlain) :
    Keeps (.untyped r) (caughtByClass e) (· = .any) := by
  apply (h.accept none).bind
  intro _ answer
  subst answer
  exact .pure rfl

/-- A tuple of classes names exceptions, unless it is empty. -/
theorem caughtByTuple_untyped {e : Expr} {items : List Expr} {caught : Check (List Ty)}
    (hc : Keeps (.untyped r) caught (∀ type ∈ ·, type = .any)) :
    Keeps (.untyped r) (caughtByTuple e items caught) (· = .any) := by
  unfold caughtByTuple
  split
  · exact (report_untyped (.inr rfl)).seq fun _ => .pure rfl
  · apply hc.bind
    intro types all
    refine (Keeps.mapM_trivial fun item _ => recorded_keeps).seq fun recorded => ?_
    apply store_untyped.seq
    intro _
    split
    · exact .pure rfl
    · rename_i first rest
      obtain ⟨rfl, others⟩ := List.forall_mem_cons.mp all
      exact foldlM_join_untyped others

end Check

open Check

variable {r : Option Ty}

mutual

theorem Expr.caught_untyped : (e : Expr) → e.IsPlain → Keeps (.untyped r) e.caught (· = .any)
  | ⟨id, span, kind⟩, h =>
    kind.caught_untyped ⟨id, span, kind⟩ h fun x member => h x (List.mem_cons_of_mem _ member)

theorem ExprKind.caught_untyped (e : Expr) : (kind : ExprKind) → e.IsPlain →
    (∀ x ∈ kind.inside, x.kind.isPlain = true) → Keeps (.untyped r) (kind.caught e) (· = .any)
  | .paren ⟨_, _, kind⟩, he, h =>
    kind.caught_untyped e he fun x member => h x (List.mem_cons_of_mem _ member)
  | .tuple items, _, h => caughtByTuple_untyped (caughtByEach_untyped items h)
  | .name _, he, _ | .int _, he, _ | .str _, he, _ | .bytes _, he, _ | .unicode _, he, _
  | .float, he, _ | .super _, he, _ | .typeVar _, he, _ | .placeholder _, he, _
  | .member .., he, _ | .call .., he, _ | .binary .., he, _ | .unary .., he, _ | .index .., he, _
  | .cast .., he, _ | .typeApplication .., he, _ | .list _, he, _ | .set _, he, _ | .dict _, he, _
  | .slice .., he, _ | .lambda .., he, _ | .listComprehension .., he, _ | .generator .., he, _
  | .conditional .., he, _ => caughtByClass_untyped he

theorem caughtByEach_untyped : (items : List Expr) →
    (∀ x ∈ allOfExprs items, x.kind.isPlain = true) →
    Keeps (.untyped r) (caughtByEach items) (∀ type ∈ ·, type = .any)
  | [], _ => .pure (by simp)
  | e :: rest, h => by
    simp only [allOfExprs, List.forall_mem_append] at h
    apply (e.caught_untyped h.1).bind
    intro _ answer
    subst answer
    refine (caughtByEach_untyped rest h.2).bind fun types all => .pure ?_
    exact List.forall_mem_cons.mpr ⟨rfl, all⟩

end

namespace Check

theorem checkCaught_untyped {type v : Option Expr} (ht : ∀ e ∈ type, e.IsPlain)
    (hv : ∀ e ∈ v, e.IsPlain) : Keeps (.untyped r) (checkCaught type v) := by
  unfold checkCaught
  split
  · rename_i type
    apply (type.caught_untyped (ht type rfl)).bind
    intro _ answer
    subst answer
    split
    · rename_i v
      have plain : ∀ t ∈ [v], t.IsPlain := by simpa using hv v rfl
      exact assignTargets_untyped plain Value.untyped_known
    · exact .done
  · exact .done

/-! ### Functions -/

theorem declareParam_untyped {v : Var} {kind : ArgKind} {type : Ty} :
    Keeps (.untyped r) (declareParam v kind type) := by
  have given : Keeps (.untyped r) (paramType kind type) := by
    unfold paramType
    split
    · exact named_untyped
    · exact named_untyped.seq fun _ => named_untyped
    all_goals exact .done
  exact given.seq fun _ => setVar_untyped.seq fun _ => declareLocal_untyped

/-- The body of a function without a signature is to return something dynamic. -/
theorem checkFuncBody_untyped {d : FuncDef} {s : Signature} {body : Check Unit}
    (hd : ∀ e ∈ d.defaults, e.IsPlain) (dynamic : s.ret = .any)
    (hb : Keeps (.untyped (some .any)) body) : Keeps (.untyped r) (checkFuncBody d s body) := by
  apply isDynamic_untyped.bind
  intro _ answer
  subst answer
  rw [Bool.not_true, Bool.and_false, dynamic]
  refine Keeps.seq (.forIn fun (p, type, kind) _ => declareParam_untyped.yielding) fun _ => ?_
  refine Keeps.seq (.forIn fun e member => ?_) fun _ => returning_untyped hb
  exact (hd e member).discarded.yielding

end Check

/-! ### Trees -/

section Trees

variable {checkCopy : Block → Check Unit}

mutual

theorem Stmt.check_untyped {f : Option FuncDef} : (s : Stmt) →
    (∀ p ∈ s.places f, p.stmt.IsPlain) → Keeps (.untyped (some .any)) (s.check checkCopy)
  | ⟨span, kind⟩, h => by
    simp only [Stmt.places, List.forall_mem_cons] at h
    exact kind.check_untyped span h.1 h.2

theorem StmtKind.check_untyped {f : Option FuncDef} (span : Span) (kind : StmtKind)
    (own : Stmt.IsPlain ⟨span, kind⟩) (h : ∀ p ∈ kind.places f, p.stmt.IsPlain) :
    Keeps (.untyped (some .any)) (kind.check checkCopy span) := by
  obtain ⟨plain, exprs⟩ := own
  cases kind with
  | varDef vars binding isTopLevel init =>
    exact checkVarDef_untyped (by simpa [StmtKind.exprs] using exprs)
  | func | overloaded | cls | decorated => cases plain
  | assign targets value =>
    obtain ⟨ht, hv⟩ := List.forall_mem_append.mp exprs
    exact checkAssign_untyped ht (by simpa using hv)
  | opAssign op target value =>
    obtain ⟨ht, hv⟩ : target.IsPlain ∧ value.IsPlain := by simpa [StmtKind.exprs] using exprs
    exact checkOpAssign_untyped ht hv
  | expr e | assert e => exact (exprs e (by simp [StmtKind.exprs])).discarded
  | ret value => exact checkReturn_untyped (by simpa [StmtKind.exprs] using exprs)
  | yield value => exact checkYield_untyped (exprs value (by simp [StmtKind.exprs]))
  | ifElse arms orElse =>
    unfold StmtKind.check
    simp only [StmtKind.places, List.forall_mem_append] at h
    have tests : ∀ arm ∈ arms, arm.test.IsPlain := fun arm member =>
      exprs _ (List.mem_map.mpr ⟨arm, member, rfl⟩)
    exact checkArms_untyped (checkOption_untyped orElse h.2) arms tests h.1
  | whileLoop test body orElse =>
    unfold StmtKind.check
    simp only [StmtKind.places, List.forall_mem_append] at h
    apply (checkCondition_untyped (exprs test (by simp [StmtKind.exprs]))).seq
    intro _
    apply (checkBlock_untyped body h.1).seq
    intro _
    exact checkOption_untyped orElse h.2
  | forLoop targets isAnnotated sequence body orElse =>
    unfold StmtKind.check
    simp only [StmtKind.places, List.forall_mem_append] at h
    obtain ⟨ht, hs⟩ := List.forall_mem_append.mp exprs
    apply (checkForTargets_untyped ht (by simpa using hs)).seq
    intro _
    apply (checkBlock_untyped body h.1).seq
    intro _
    exact checkOption_untyped orElse h.2
  | withBlock items body =>
    unfold StmtKind.check
    refine Keeps.seq (.forIn fun (manager, target) member => ?_) fun _ =>
      checkBlock_untyped body h
    have both : ∀ e ∈ manager :: target.toList, e.IsPlain := fun e he =>
      exprs e (List.mem_flatMap.mpr ⟨_, member, he⟩)
    obtain ⟨hm, ht⟩ := List.forall_mem_cons.mp both
    exact (checkContext_untyped hm (by simpa using ht)).yielding
  | raise value cause =>
    unfold StmtKind.check
    refine (Keeps.forIn fun e member => ?_).seq fun _ => .done
    exact (checkRaised_untyped (exprs e member)).yielding
  | tryBlock body handlers orElse atEnd =>
    unfold StmtKind.check
    simp only [StmtKind.places, List.forall_mem_append] at h
    have parts : ∀ c ∈ handlers, ∀ e ∈ c.type.toList ++ c.var.toList, e.IsPlain :=
      fun c member e he => exprs e (List.mem_flatMap.mpr ⟨c, member, he⟩)
    apply (checkBlock_untyped body h.1.1.1).seq
    intro _
    apply (checkHandlers_untyped handlers parts h.1.1.2).seq
    intro _
    apply (checkOption_untyped orElse h.1.2).seq
    intro _
    exact checkOption_untyped atEnd h.2
  | del target => exact checkDel_untyped (exprs target (by simp [StmtKind.exprs]))
  | print args =>
    unfold StmtKind.check
    refine (Keeps.forIn fun e member => ?_).seq fun _ => .done
    exact (exprs e member).discarded.yielding
  | pass | breakLoop | continueLoop | globals | imports => exact .done

theorem checkBlock_untyped {f : Option FuncDef} (b : List Stmt)
    (h : ∀ p ∈ blockPlaces f b, p.stmt.IsPlain) :
    Keeps (.untyped (some .any)) (checkBlock checkCopy b) := by
  cases b with
  | nil => exact .done
  | cons s rest =>
    unfold checkBlock
    simp only [blockPlaces, List.forall_mem_append] at h
    apply (s.check_untyped h.1).seq
    intro _
    exact checkBlock_untyped rest h.2

theorem checkOption_untyped {f : Option FuncDef} (b : Option (List Stmt))
    (h : ∀ p ∈ optionPlaces f b, p.stmt.IsPlain) :
    Keeps (.untyped (some .any)) (checkOption checkCopy b) := by
  cases b with
  | none => exact .done
  | some b => exact checkBlock_untyped b h

theorem checkArms_untyped {f : Option FuncDef} {orElse : Check Unit}
    (ho : Keeps (.untyped (some .any)) orElse) : (arms : List Arm) →
    (∀ arm ∈ arms, arm.test.IsPlain) → (∀ p ∈ armPlaces f arms, p.stmt.IsPlain) →
    Keeps (.untyped (some .any)) (checkArms checkCopy orElse arms)
  | [], _, _ => ho
  | ⟨test, body⟩ :: rest, tests, h => by
    unfold checkArms
    simp only [armPlaces, List.forall_mem_append] at h
    obtain ⟨first, others⟩ := List.forall_mem_cons.mp tests
    exact checkArm_untyped first (checkBlock_untyped body h.1)
      (checkArms_untyped ho rest others h.2)

theorem checkHandlers_untyped {f : Option FuncDef} : (handlers : List Handler) →
    (∀ c ∈ handlers, ∀ e ∈ c.type.toList ++ c.var.toList, e.IsPlain) →
    (∀ p ∈ handlerPlaces f handlers, p.stmt.IsPlain) →
    Keeps (.untyped (some .any)) (checkHandlers checkCopy handlers)
  | [], _, _ => .done
  | ⟨type, v, body⟩ :: rest, parts, h => by
    unfold checkHandlers
    simp only [handlerPlaces, List.forall_mem_append] at h
    obtain ⟨first, others⟩ := List.forall_mem_cons.mp parts
    obtain ⟨ht, hv⟩ := List.forall_mem_append.mp first
    apply (checkCaught_untyped (by simpa using ht) (by simpa using hv)).seq
    intro _
    apply (checkBlock_untyped body h.1).seq
    intro _
    exact checkHandlers_untyped rest others h.2

end

end Trees

theorem FuncDef.check_eq (d : FuncDef) (checkCopy : Block → Check Unit) :
    d.check checkCopy = checkFunc d (checkBlock checkCopy d.body) checkCopy := by
  cases d; rfl

/-- What a function without a signature declares: everything is dynamic. -/
theorem FuncDef.type_of_untyped {d : FuncDef} (untyped : d.signature = none) :
    d.restricted? = none ∧ d.type.ret = .any := by
  unfold FuncDef.restricted? FuncDef.type
  rw [untyped]
  exact ⟨rfl, rfl⟩

/-- A function without a signature that defines no other, uses no `super` and no bare placeholder
is not type checked: in whatever state and surroundings, of its defaults and its body only wrong
numbers of items and empty tuples of exceptions are reported. -/
theorem untyped_function_unchecked (d : FuncDef) (untyped : d.signature = none) (plain : d.IsPlain)
    (checkCopy : Block → Check Unit) (env : Env) (s : State) :
    ∃ reports, ((d.check checkCopy).outcome env s).2.diagnostics = s.diagnostics ++ reports ∧
      ∀ report ∈ reports, report.code = Code.valueCountMismatch.text ∨
        report.code = Code.unsupportedException.text := by
  obtain ⟨unrestricted, dynamic⟩ := FuncDef.type_of_untyped untyped
  have places := plain.body
  rw [d.places_eq] at places
  have body : Keeps (.untyped (some .any)) (checkBlock checkCopy d.body) :=
    checkBlock_untyped d.body places
  have inside : Keeps (.untyped s.scope.returnTypes.head?)
      (inLocalScope (checkFuncBody d d.type (checkBlock checkCopy d.body))) :=
    inLocalScope_untyped (checkFuncBody_untyped plain.defaults dynamic body)
  rw [d.check_eq, checkFunc, unrestricted]
  exact (outcome_inFunction_untyped (by rw [untyped]; rfl) inside).diagnostics

/-- A function that calls an empty tuple, and assigns it to two variables. -/
def FuncDef.careless (signature : Option Signature) : FuncDef :=
  let empty (id : NodeId) : Expr := ⟨id, .atLine 2, .tuple []⟩
  let named (id : NodeId) (name : String) : Expr :=
    ⟨id, .atLine 3, .name ⟨name, name, .inFunction, .var ⟨id, name, name, none⟩, true⟩⟩
  ⟨"f", "m.f", none, [],
    [⟨.atLine 2, .expr ⟨0, .atLine 2, .call (empty 1) []⟩⟩,
      ⟨.atLine 3, .assign [⟨2, .atLine 3, .tuple [named 3 "a", named 4 "b"]⟩] (empty 5)⟩],
    signature, false, .atLine 1, false, none, ⟨"f", "m.f", none, .any, false⟩⟩

/-- Without a signature only the number of items is wrong in it; with one the call is reported
too. -/
theorem careless_unchecked :
    let env : Env := .ofProgram ⟨∅, ⟨#[]⟩, 6, ⟨6, ∅⟩⟩ default
    let reported (signature : Option Signature) : List Diagnostic :=
      (((FuncDef.careless signature).check Block.check).outcome env
        (.initial env.program)).2.diagnostics
    (reported none).map (·.code) = [Code.valueCountMismatch.text] ∧
      (∀ report ∈ reported none, report.code = Code.valueCountMismatch.text ∨
        report.code = Code.unsupportedException.text) ∧
      (reported (some (.positional [] .void))).map (·.code) =
        [Code.notCallable.text, Code.valueCountMismatch.text] := by
  intro env reported
  refine ⟨by decide +kernel, ?_, by decide +kernel⟩
  obtain ⟨reports, all, allowed⟩ := untyped_function_unchecked (.careless none) rfl (by decide)
    Block.check env (.initial env.program)
  have same : reported none = reports := all
  rw [same]
  exact allowed

end Gradual
