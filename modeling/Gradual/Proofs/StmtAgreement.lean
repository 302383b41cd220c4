import Gradual.Checker.Stmt
import Gradual.Proofs.CopyAgreement
import Gradual.Proofs.ExprAgreement

/-!
Agreement of checking: a block and the same block with other ids, in states that differ in ids only.
-/

namespace Gradual

variable {ρ : NodeId → NodeId}

/-- A copy with other ids. -/
def Instantiation.renumber (ρ : NodeId → NodeId) (i : Instantiation) : Instantiation :=
  { i with func := i.func.renumber ρ }

namespace Check

/-! ### Results -/

theorem checkReturn_same {value : Option Expr} {span : Span} :
    Same ρ (checkReturn value span) (checkReturn (value.map (·.renumber ρ)) span) := by
  apply scope_blind.seq
  intro s
  cases s.returnTypes.head? with
  | none => exact .done
  | some expected =>
    cases value with
    | some e =>
      apply (e.accept_same _).seq
      intro actual
      rw [e.calledName?_renumber]
      show Blind ρ _
      split
      · split
        · exact report_blind
        · exact checkSubtype_blind
      · exact .done
    | none =>
      refine scope_blind.seq fun s => isDynamic_blind.seq fun dynamic => ?_
      show Blind ρ _
      split
      · exact report_blind
      · exact .done

theorem checkYield_same {value : Expr} {span : Span} :
    Same ρ (checkYield value span) (checkYield (value.renumber ρ) span) := by
  unfold checkYield
  rw [value.calledName?_renumber]
  apply scope_blind.seq
  intro s
  split
  · exact (value.accept_same _).seq fun actual => checkSubtype_blind
  · exact report_blind.seq fun _ => (value.accept_same none).discard

/-! ### Assignments -/

theorem checkAssign_same {targets : List Expr} {value : Expr} :
    Same ρ (checkAssign targets value)
      (checkAssign (targets.map (·.renumber ρ)) (value.renumber ρ)) := by
  unfold checkAssign
  rw [List.getLast?_map, ← List.map_dropLast, value.renumber_span, value.renumber_id]
  cases targets.getLast? with
  | none => exact (value.accept_same none).discard
  | some last =>
    dsimp -zeta only [Option.map_some]
    rw [last.targets_renumber]
    apply (assignTargets_same last.targets value.toValue_alike).seq
    intro _
    apply isDynamic_blind.seq
    intro dynamic
    extract_lets others others'
    have othersSame : ∀ type, Same ρ (others type) (others' type) := by
      intro type
      refine (Agree.forIn ?_).seq fun _ => .done
      rw [List.forall₂_map_right_iff, List.forall₂_same]
      intro t _
      rw [t.targets_renumber]
      exact (assignTargets_same t.targets Value.known_alike).yielding
    split
    · exact Agree.done.seq othersSame
    · exact recorded_same.seq othersSame

theorem typed_alike {vars : List Var} :
    Agree (State.Alike ρ) (TargetsAlike ρ)
      (vars.mapM fun v => return Target.typed ((← typeOfVar v).getD .any))
      (vars.mapM fun v => return Target.typed ((← typeOfVar v).getD .any)) :=
  .mapM (List.forall₂_same.mpr fun _ _ => typeOfVar_blind.seq fun _ => .pure (.typed _))

theorem checkVarDef_same {vars : List Var} {isLocal : Bool} {init : Option Expr} {span : Span} :
    Same ρ (checkVarDef vars isLocal init span)
      (checkVarDef vars isLocal (init.map (·.renumber ρ)) span) := by
  unfold checkVarDef
  split
  · exact .done
  · rename_i first others
    apply typeOfVar_blind.seq
    intro known
    cases init with
    | none =>
      cases known with
      | none =>
        apply isDynamic_blind.seq
        intro dynamic
        show Blind ρ _
        split
        · exact report_blind
        · exact .done
      | some => exact .done
    | some init =>
      cases known with
      | some type =>
        dsimp only [Option.map_some]
        split
        · exact (assignOne_same (.typed type) init.toValue_alike).discard
        · exact typed_alike.bind fun _ _ alike => (assignMany_same alike init.toValue_alike).discard
      | none =>
        apply (init.accept_same none).seq
        intro type
        rw [init.calledName?_renumber]
        split
        · have unplaced : ((first :: others).map fun v => some (Introduced.mk v none)).map
              (Option.map (Introduced.renumber ρ)) = (first :: others).map fun v => some ⟨v, none⟩ :=
            List.map_map
          have same := inferTypes_same (ρ := ρ) ((first :: others).map fun v => some ⟨v, none⟩) type
            init.calledName? span
          rwa [unplaced] at same
        · exact .done

theorem checkOpAssign_same {op : BinaryOp} {target value : Expr} {span : Span} :
    Same ρ (checkOpAssign op target value span)
      (checkOpAssign op (target.renumber ρ) (value.renumber ρ) span) := by
  refine (target.accept_same none).seq fun type => read_blind.seq fun env => ?_
  split
  · exact (value.accept_same none).discard
  · apply (checkOperator_same value.operand_alike).seq
    intro called
    have compared : Blind ρ (do
        if !(← isSubtype called.type type) then report (.operatorResult op.symbol) span) := by
      apply isSubtype_blind.bind
      intro fits
      split
      · exact report_blind
      · exact .done
    dsimp only
    rw [target.unwrapped_renumber, Expr.renumber_kind]
    cases target.unwrapped.kind with
    | index base index =>
      exact (assignOne_same (.indexed (base.accept_same none) index.operand_alike)
        Value.known_alike).discard
    | _ => exact compared

theorem checkDel_same {target : Expr} : Same ρ (checkDel target) (checkDel (target.renumber ρ)) := by
  unfold checkDel
  rw [target.unwrapped_renumber, Expr.renumber_kind, target.renumber_span]
  cases target.unwrapped.kind with
  | index base index =>
    apply (base.accept_same none).seq
    intro type
    exact (checkMethodCall_same (.cons index.operand_alike .nil)).discard
  | _ => exact .done

/-! ### Branches and loops -/

theorem checkCondition_same {test : Expr} :
    Same ρ (checkCondition test) (checkCondition (test.renumber ρ)) := by
  unfold checkCondition
  rw [test.calledName?_renumber, test.renumber_span]
  exact (test.accept_same none).seq fun _ => checkHasValue_blind

theorem checkArm_same {test : Expr} {body body' rest rest' : Check Unit} (hb : Same ρ body body')
    (hr : Same ρ rest rest') :
    Same ρ (checkArm test body rest) (checkArm (test.renumber ρ) body' rest') := by
  refine checkCondition_same.seq fun _ => Rules.guard?_same.seq fun guard => ?_
  cases guard with
  | none => exact hb.seq fun _ => hr
  | some g =>
    dsimp only
    split
    · exact hr
    · exact narrowing_agree hb
    · exact (narrowing_agree hb).seq fun _ => hr

theorem declaredType_same {e : Expr} :
    Same ρ (declaredType e) (declaredType (e.renumber ρ)) := by
  unfold declaredType
  rw [e.unwrapped_renumber, Expr.renumber_kind]
  cases e.unwrapped.kind with
  | name ref =>
    show Blind ρ _
    dsimp only
    split
    · exact typeOfVar_blind.bind fun _ => .done
    · exact .done
  | _ => exact .done

theorem checkLoopTargets_same {targets : List Expr} {isAnnotated : Bool} {item : Ty} {span : Span} :
    Same ρ (checkLoopTargets targets isAnnotated item span)
      (checkLoopTargets (targets.map (·.renumber ρ)) isAnnotated item span) := by
  cases isAnnotated with
  | true =>
    have typed : Agree (State.Alike ρ) (TargetsAlike ρ)
        (targets.mapM fun e => return Target.typed (← declaredType e))
        ((targets.map (·.renumber ρ)).mapM fun e => return Target.typed (← declaredType e)) := by
      refine .mapM ?_
      rw [List.forall₂_map_right_iff, List.forall₂_same]
      exact fun _ _ => declaredType_same.seq fun _ => .pure (.typed _)
    apply typed.bind
    intro kinds kinds' alike
    have several : Same ρ
        (discard <| assignMany kinds (.known item) span (.incompatibleAssignment .inFor))
        (discard <| assignMany kinds' (.known item) span (.incompatibleAssignment .inFor)) :=
      (assignMany_same alike Value.known_alike).discard
    rcases alike with _ | ⟨first, _ | ⟨second, rest⟩⟩
    · exact several
    · exact (assignOne_same first Value.known_alike).discard
    · exact several
  | false => exact assignTargets_same targets Value.known_alike

theorem checkForTargets_same {targets : List Expr} {isAnnotated : Bool} {sequence : Expr}
    {span : Span} :
    Same ρ (checkForTargets targets isAnnotated sequence span)
      (checkForTargets (targets.map (·.renumber ρ)) isAnnotated (sequence.renumber ρ) span) := by
  unfold checkForTargets
  rw [sequence.renumber_span]
  exact (itemType_same sequence.operand_alike).seq fun _ => checkLoopTargets_same

theorem checkContext_same {manager : Expr} {target : Option Expr} :
    Same ρ (checkContext manager target)
      (checkContext (manager.renumber ρ) (target.map (·.renumber ρ))) := by
  unfold checkContext
  rw [manager.renumber_span]
  have called : ∀ name base args, (∀ o ∈ args, o = Operand.known .any) →
      Blind ρ (checkMethodCall name base args manager.span) := fun _ _ _ known =>
    checkMethodCall_same (List.forall₂_same.mpr fun o given => known o given ▸ known_alike)
  apply (manager.accept_same none).seq
  intro type
  apply (called "__enter__" type [] (by simp)).seq
  intro entered
  have left : Blind ρ (do
      discard <| checkMethodCall "__exit__" type (List.replicate 3 (.known .any)) manager.span) :=
    (called _ _ _ fun _ => List.eq_of_mem_replicate).discard
  cases target with
  | none => exact left
  | some target =>
    dsimp only [Option.map_some]
    rw [target.targets_renumber, target.renumber_span]
    exact (assignTargets_same target.targets Value.known_alike).seq fun _ => left

/-! ### Exceptions -/

theorem checkException_blind {type : Ty} {span : Span} : Blind ρ (checkException type span) := by
  apply named_blind.bind
  intro base
  split
  · apply isSubtype_blind.bind
    intro fits
    split
    · exact report_blind
    · exact .done
  · exact checkSubtype_blind

theorem checkRaised_same {e : Expr} : Same ρ (checkRaised e) (checkRaised (e.renumber ρ)) := by
  unfold checkRaised
  rw [e.renumber_span]
  exact (e.accept_same none).seq fun _ => checkException_blind

theorem caughtByClass_same {e : Expr} :
    Same ρ (caughtByClass e) (caughtByClass (e.renumber ρ)) := by
  unfold caughtByClass
  rw [e.renumber_span]
  apply (e.accept_same none).seq
  intro type
  show Blind ρ _
  split
  · exact .done
  · apply named_blind.bind
    intro base
    have refused : Blind ρ (do
        report .invalidException e.span
        return Ty.any) := report_blind.bind fun _ => .done
    split
    · apply isSubtype_blind.bind
      intro fits
      split
      · exact .done
      · exact refused
    · exact refused

theorem caughtByTuple_same {e : Expr} {items : List Expr} {caught caught' : Check (List Ty)}
    (h : Same ρ caught caught') :
    Same ρ (caughtByTuple e items caught)
      (caughtByTuple (e.renumber ρ) (renumberExprs ρ items) caught') := by
  unfold caughtByTuple
  rw [renumberExprs_eq, List.isEmpty_map, e.renumber_span, e.renumber_id]
  split
  · exact report_blind.seq fun _ => .done
  · apply h.seq
    intro types
    have told : Same ρ (items.mapM fun item => recorded item.id)
        ((items.map (·.renumber ρ)).mapM fun item => recorded item.id) := by
      refine .mapM_eq ?_
      rw [List.forall₂_map_right_iff, List.forall₂_same]
      intro item _
      rw [item.renumber_id]
      exact recorded_same
    refine told.seq fun types' => store_same.seq fun _ => ?_
    split
    · exact .done
    · exact .foldlM (List.forall₂_same.mpr fun _ _ _ => join_blind)

end Check

open Check

mutual

theorem Expr.caught_same : (e : Expr) → Same ρ e.caught (e.renumber ρ).caught
  | ⟨id, span, kind⟩ => kind.caught_same ⟨id, span, kind⟩

theorem ExprKind.caught_same (e : Expr) : (kind : ExprKind) →
    Same ρ (kind.caught e) ((kind.renumber ρ).caught (e.renumber ρ))
  | .paren ⟨_, _, kind⟩ => kind.caught_same e
  | .tuple items => caughtByTuple_same (caughtByEach_same items)
  | .name _ | .int _ | .str _ | .bytes _ | .unicode _ | .float | .super _ | .typeVar _
  | .placeholder _ | .member .. | .call .. | .binary .. | .unary .. | .index .. | .cast ..
  | .typeApplication .. | .list _ | .set _ | .dict _ | .slice .. | .lambda ..
  | .listComprehension .. | .generator .. | .conditional .. => caughtByClass_same

theorem caughtByEach_same : (items : List Expr) →
    Same ρ (caughtByEach items) (caughtByEach (renumberExprs ρ items))
  | [] => .done
  | e :: rest => e.caught_same.seq fun _ => (caughtByEach_same rest).seq fun _ => .done

end

namespace Check

theorem checkCaught_same {type v : Option Expr} :
    Same ρ (checkCaught type v) (checkCaught (type.map (·.renumber ρ)) (v.map (·.renumber ρ))) := by
  cases type with
  | none => exact .done
  | some type =>
    apply type.caught_same.seq
    intro caught
    cases v with
    | none => exact .done
    | some v =>
      dsimp only [Option.map_some]
      rw [v.renumber_span]
      exact assignTargets_same [v] Value.known_alike

/-! ### Definitions -/

theorem checkOverrides_blind {name : String} {c : ClassId} {type : Ty} {span : Span} :
    Blind ρ (checkOverrides name c type span) := by
  apply read_blind.bind
  intro env
  split
  · refine Blind.bind (.forIn (List.forall₂_same.mpr fun base _ => ?_)) fun _ => .done
    refine get_alike.bind fun s t alike => ?_
    rw [alike.vars_eq]
    exact (Agree.forIn (List.forall₂_same.mpr fun p _ => report_blind.yielding)).yielding
  · exact .done

theorem checkInherited_blind {c : ClassId} {span : Span} : Blind ρ (checkInherited c span) := by
  refine read_blind.bind fun env => get_alike.bind fun s t alike => ?_
  rw [alike.vars_eq]
  exact Blind.bind (.forIn (List.forall₂_same.mpr fun conflict _ => report_blind.yielding))
    fun _ => .done

theorem paramType_blind {kind : ArgKind} {type : Ty} : Blind ρ (paramType kind type) := by
  cases kind with
  | star => exact named_blind
  | star2 => exact strType_blind.bind fun _ => named_blind
  | pos | opt | named => exact .done

theorem declareParam_blind {v : Var} {kind : ArgKind} {type : Ty} :
    Blind ρ (declareParam v kind type) :=
  paramType_blind.bind fun _ => setVar_blind.bind fun _ => declareLocal_blind

/-- The arguments, the defaults and the body of a function. -/
theorem checkBody_same {d : FuncDef} {s : Signature} {body body' : Check Unit}
    (h : Same ρ body body') :
    Same ρ
      (do
        for (p, type, kind) in d.params.zip (s.argTypes.zip s.argKinds) do
          declareParam p.var kind type
        for default in d.defaults do
          discard <| default.accept none
        returning s.ret body)
      (do
        for (p, type, kind) in (d.renumber ρ).params.zip (s.argTypes.zip s.argKinds) do
          declareParam p.var kind type
        for default in (d.renumber ρ).defaults do
          discard <| default.accept none
        returning s.ret body') := by
  rw [d.params_renumber, List.zip_map_left, d.defaults_renumber]
  refine Agree.seq (.forIn ?_) fun _ => Agree.seq (.forIn ?_) fun _ => returning_agree h
  · rw [List.forall₂_map_right_iff, List.forall₂_same]
    exact fun _ _ => declareParam_blind.yielding
  · rw [List.forall₂_map_right_iff, List.forall₂_same]
    exact fun e _ => (e.accept_same none).discard.yielding

theorem checkFuncBody_same {d : FuncDef} {s : Signature} {body body' : Check Unit}
    (h : Same ρ body body') :
    Same ρ (checkFuncBody d s body) (checkFuncBody (d.renumber ρ) s body') := by
  unfold checkFuncBody
  rw [d.owner_renumber, d.name_renumber, d.span_renumber]
  apply isDynamic_blind.seq
  intro dynamic
  split
  · exact report_blind.seq fun _ => checkBody_same h
  · exact checkBody_same h

theorem run_instantiate (d : FuncDef) (v : TypeVar) (value : Ty) (env : Env) (s : State) :
    ((instantiate d v value).run env).run s =
      let args : TypeArgs := [(v.id, value)]
      let made := d.instantiate args s.nextNode s.vars
      (⟨made.1, d.type.expand args, "In instantiation with " ++ v.name ++ " = " ++ value.display⟩,
        { s with nextNode := made.2.1, vars := made.2.2 }) := rfl

theorem instantiate_alike {d : FuncDef} {v : TypeVar} {value : Ty} :
    Agree (State.Alike ρ) (fun i j => j = i.renumber ρ) (instantiate d v value)
      (instantiate (d.renumber ρ) v value) := by
  rintro env s _ ⟨types, n, injective, recorded, next⟩
  obtain ⟨func, vars, left⟩ := d.instantiate_renumber [(v.id, value)] next s.vars
  rw [run_instantiate, run_instantiate, d.type_renumber]
  dsimp only
  rw [func, vars]
  exact ⟨rfl, .intro types _ injective recorded left⟩

/-- Blocks are checked in the same way as the same blocks with other ids. -/
def CopiesAgree (ρ : NodeId → NodeId) (checkCopy : Block → Check Unit) : Prop :=
  ∀ b, Same ρ (checkCopy b) (checkCopy (renumberBlock ρ b))

theorem checkFunc_same {d : FuncDef} {body body' : Check Unit} {checkCopy : Block → Check Unit}
    (hb : Same ρ body body') (hc : CopiesAgree ρ checkCopy) :
    Same ρ (checkFunc d body checkCopy) (checkFunc (d.renumber ρ) body' checkCopy) := by
  have restricted : (d.renumber ρ).restricted? = d.restricted? := by
    rw [FuncDef.restricted?, d.type_renumber, FuncDef.restricted?]
  unfold checkFunc
  rw [restricted, d.type_renumber, d.name_renumber, d.signature_renumber, d.isGenerator_renumber]
  apply inFunction_agree
  cases d.restricted? with
  | none => exact inLocalScope_agree (checkFuncBody_same hb)
  | some v =>
    refine Agree.bind (.mapM (List.forall₂_same.mpr fun _ _ => instantiate_alike)) ?_
    intro copies copies' alike
    refine (Agree.forIn (alike.imp ?_)).seq fun _ => .done
    rintro i _ rfl
    have checked : Same ρ (checkCopy i.func.body) (checkCopy (i.renumber ρ).func.body) := by
      rw [Instantiation.renumber, FuncDef.body_renumber]
      exact hc i.func.body
    exact (inInstantiation_agree (inLocalScope_agree (checkFuncBody_same checked))).yielding

theorem checkPlace_blind {d : FuncDef} : Blind ρ (checkPlace d) := by
  unfold checkPlace
  extract_lets compared
  have comparedBlind : ∀ u, Blind ρ (compared u) := by
    intro _
    unfold compared
    split
    · split
      · exact report_blind
      · exact .done
    · exact .done
  split
  · exact checkOverrides_blind.bind comparedBlind
  · exact comparedBlind ()

theorem checkPlace_renumber (d : FuncDef) : checkPlace (d.renumber ρ) = checkPlace d := by
  unfold checkPlace
  rw [d.owner_renumber, d.name_renumber, d.symbol_renumber, d.span_renumber, d.earlier_renumber,
    d.type_renumber]

theorem checkOverloads_same {items : List FuncDef} {owner : Option ClassId}
    {symbol : FunctionSymbol} {span : Span} :
    Same ρ (checkOverloads items owner symbol span)
      (checkOverloads (renumberFuncDefs ρ items) owner symbol span) := by
  have marked : FuncDef.isAbstract ∘ FuncDef.renumber ρ = FuncDef.isAbstract :=
    funext fun d => d.isAbstract_renumber ρ
  unfold checkOverloads
  rw [renumberFuncDefs_eq, List.any_map, List.all_map, marked]
  show Blind ρ _
  extract_lets compared
  have comparedBlind : ∀ u, Blind ρ (compared u) := by
    intro _
    unfold compared
    split
    · exact checkOverrides_blind
    · exact .done
  split
  · exact report_blind.bind comparedBlind
  · exact comparedBlind ()

theorem checkDecorators_same {d : FuncDef} {decorators : List Expr} {v : Var} {span : Span} :
    Same ρ (checkDecorators d decorators v span)
      (checkDecorators (d.renumber ρ) (decorators.map (·.renumber ρ)) v span) := by
  have same : ∀ type, Same ρ (decoratedType type decorators span)
      (decoratedType type (decorators.map (·.renumber ρ)) span) := by
    intro type
    unfold decoratedType
    rw [← List.map_reverse]
    refine .foldlM ?_
    rw [List.forall₂_map_right_iff, List.forall₂_same]
    intro e _ type
    apply (e.accept_same none).seq
    intro callee
    exact (checkCall_same (.cons ⟨rfl, known_alike⟩ .nil)).seq fun _ => .done
  unfold checkDecorators
  rw [d.type_renumber, d.name_renumber]
  exact (same _).seq fun type => setVar_blind

end Check

/-! ### Trees -/

section Trees

variable {checkCopy : Block → Check Unit}

mutual

theorem Stmt.check_same (hc : CopiesAgree ρ checkCopy) : (s : Stmt) →
    Same ρ (s.check checkCopy) ((s.renumber ρ).check checkCopy)
  | ⟨span, kind⟩ => kind.check_same hc span

theorem StmtKind.check_same (hc : CopiesAgree ρ checkCopy) (span : Span) (kind : StmtKind) :
    Same ρ (kind.check checkCopy span) ((kind.renumber ρ).check checkCopy span) := by
  cases kind with
  | varDef vars binding isTopLevel init => exact checkVarDef_same
  | func d =>
    unfold StmtKind.renumber StmtKind.check
    rw [checkPlace_renumber]
    exact (d.check_same hc).seq fun _ => checkPlace_blind
  | overloaded items owner symbol =>
    unfold StmtKind.renumber StmtKind.check
    exact (checkEach_same hc items).seq fun _ => checkOverloads_same
  | cls name c body =>
    unfold StmtKind.renumber StmtKind.check
    exact inClass_agree ((checkBlock_same hc body).seq fun _ => checkInherited_blind)
  | decorated func decorators v =>
    unfold StmtKind.renumber StmtKind.check
    rw [checkPlace_renumber]
    exact (func.check_same hc).seq fun _ => checkPlace_blind.seq fun _ => checkDecorators_same
  | assign targets value => exact checkAssign_same
  | opAssign op target value => exact checkOpAssign_same
  | expr e | assert e => exact (e.accept_same none).discard
  | ret value => exact checkReturn_same
  | yield value => exact checkYield_same
  | ifElse arms orElse =>
    unfold StmtKind.renumber StmtKind.check
    exact checkArms_same hc (checkOption_same hc orElse) arms
  | whileLoop test body orElse =>
    unfold StmtKind.renumber StmtKind.check
    exact checkCondition_same.seq fun _ => (checkBlock_same hc body).seq fun _ =>
      checkOption_same hc orElse
  | forLoop targets isAnnotated sequence body orElse =>
    unfold StmtKind.renumber StmtKind.check
    exact checkForTargets_same.seq fun _ => (checkBlock_same hc body).seq fun _ =>
      checkOption_same hc orElse
  | withBlock items body =>
    unfold StmtKind.renumber StmtKind.check
    refine Agree.seq (.forIn ?_) fun _ => checkBlock_same hc body
    rw [List.forall₂_map_right_iff, List.forall₂_same]
    exact fun _ _ => checkContext_same.yielding
  | raise value cause =>
    unfold StmtKind.renumber StmtKind.check
    refine Agree.seq (.forIn ?_) fun _ => .done
    have listed : ∀ e : Option Expr, (e.map (·.renumber ρ)).toList = e.toList.map (·.renumber ρ) := by
      rintro (_ | e) <;> rfl
    rw [listed, listed, ← List.map_append, List.forall₂_map_right_iff, List.forall₂_same]
    exact fun _ _ => checkRaised_same.yielding
  | tryBlock body handlers orElse atEnd =>
    unfold StmtKind.renumber StmtKind.check
    exact (checkBlock_same hc body).seq fun _ => (checkHandlers_same hc handlers).seq fun _ =>
      (checkOption_same hc orElse).seq fun _ => checkOption_same hc atEnd
  | del target => exact checkDel_same
  | print args =>
    unfold StmtKind.renumber StmtKind.check
    refine Agree.seq (.forIn ?_) fun _ => .done
    rw [List.forall₂_map_right_iff, List.forall₂_same]
    exact fun e _ => (e.accept_same none).discard.yielding
  | pass | breakLoop | continueLoop | globals | imports => exact .done

theorem FuncDef.check_same (hc : CopiesAgree ρ checkCopy) : (d : FuncDef) →
    Same ρ (d.check checkCopy) ((d.renumber ρ).check checkCopy)
  | ⟨name, fullName, owner, params, body, signature, isGenerator, span, isAbstract, earlier,
      symbol⟩ => by
    unfold FuncDef.renumber FuncDef.check
    exact checkFunc_same (checkBlock_same hc body) hc

theorem checkEach_same (hc : CopiesAgree ρ checkCopy) (items : List FuncDef) :
    Same ρ (checkEach checkCopy items) (checkEach checkCopy (renumberFuncDefs ρ items)) := by
  cases items with
  | nil => exact .done
  | cons d rest =>
    unfold renumberFuncDefs checkEach
    exact (d.check_same hc).seq fun _ => checkEach_same hc rest

theorem checkBlock_same (hc : CopiesAgree ρ checkCopy) (b : List Stmt) :
    Same ρ (checkBlock checkCopy b) (checkBlock checkCopy (renumberBlock ρ b)) := by
  cases b with
  | nil => exact .done
  | cons s rest =>
    unfold renumberBlock checkBlock
    exact (s.check_same hc).seq fun _ => checkBlock_same hc rest

theorem checkOption_same (hc : CopiesAgree ρ checkCopy) (b : Option (List Stmt)) :
    Same ρ (checkOption checkCopy b) (checkOption checkCopy (renumberOptionBlock ρ b)) := by
  cases b with
  | none => exact .done
  | some b => exact checkBlock_same hc b

theorem checkArms_same (hc : CopiesAgree ρ checkCopy) {orElse orElse' : Check Unit}
    (ho : Same ρ orElse orElse') : (arms : List Arm) →
    Same ρ (checkArms checkCopy orElse arms) (checkArms checkCopy orElse' (renumberArms ρ arms))
  | [] => ho
  | ⟨test, body⟩ :: rest => by
    unfold renumberArms checkArms
    exact checkArm_same (checkBlock_same hc body) (checkArms_same hc ho rest)

theorem checkHandlers_same (hc : CopiesAgree ρ checkCopy) : (handlers : List Handler) →
    Same ρ (checkHandlers checkCopy handlers) (checkHandlers checkCopy (renumberHandlers ρ handlers))
  | [] => .done
  | ⟨type, v, body⟩ :: rest => by
    unfold renumberHandlers checkHandlers
    exact checkCaught_same.seq fun _ => (checkBlock_same hc body).seq fun _ =>
      checkHandlers_same hc rest

end

end Trees

theorem checkNested_agree (depth : Nat) : CopiesAgree ρ (checkNested depth) := by
  induction depth with
  | zero => exact fun b => checkBlock_same (fun _ => .done) b
  | succ depth ih => exact fun b => checkBlock_same ih b

/-- A block whose ids are left as they are finds the same whatever the next id is. -/
theorem Block.check_blind (b : Block) (own : ∀ id ∈ b.nodes, ρ id = id) : Blind ρ b.check := by
  have agree := checkNested_agree (ρ := ρ) (blockNesting b) b
  rwa [b.renumber_eq_self own] at agree

end Gradual
