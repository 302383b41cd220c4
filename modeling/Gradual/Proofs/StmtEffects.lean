import Gradual.Checker.Stmt
import Gradual.Proofs.ExprEffects

/-!
The effects of checking: a statement records the types of its own expressions and of those in the
statements in it, and gives types to the variables that these introduce. What it changes for a copy
of a function belongs to the copy.
-/

namespace Gradual

/-- The statement is covered by the effects: its own expressions and the variables that it gives
types to. -/
structure Stmt.Within (w : Effects) (s : Stmt) : Prop where
  exprs : ∀ e ∈ s.kind.exprs, e.Within w
  vars : ∀ r ∈ s.kind.retypings, w.Allows r
  introduces : ∀ v ∈ s.kind.introduces, w.infers v
  copies : s.kind.functions ≠ [] → w.copies = true

/-- A function is within the effects where the statement that defines it is. -/
structure FuncDef.Within (w : Effects) (d : FuncDef) : Prop where
  defaults : ∀ e ∈ d.defaults, e.Within w
  vars : ∀ r ∈ d.retypings, w.Allows r
  copies : w.copies = true

namespace Check

variable {w : Effects}

/-! ### Results -/

theorem checkReturn_keeps {value : Option Expr} {span : Span} (h : ∀ e ∈ value, e.Within w) :
    Keeps w (checkReturn value span) := by
  apply scope_keeps.seq
  intro s
  split
  · exact .done
  · rename_i expected e known
    apply ((h e rfl).accept _).seq
    intro actual
    split
    · split
      · exact report_keeps
      · exact checkSubtype_keeps
    · exact .done
  · refine scope_keeps.seq fun s => isDynamic_keeps.seq fun dynamic => ?_
    split
    · exact report_keeps
    · exact .done

theorem checkYield_keeps {value : Expr} {span : Span} (h : value.Within w) :
    Keeps w (checkYield value span) := by
  apply scope_keeps.seq
  intro s
  split
  · exact (h.accept _).seq fun actual => checkSubtype_keeps
  · exact report_keeps.seq fun _ => (h.accept none).discard

/-! ### Assignments -/

theorem checkAssign_keeps {targets : List Expr} {value : Expr}
    (ht : ∀ t ∈ targets, t.Within w) (hv : value.Within w) :
    Keeps w (checkAssign targets value) := by
  unfold checkAssign
  split
  · exact (hv.accept none).discard
  · rename_i last known
    have lastWithin := ht last (List.mem_of_getLast? known)
    apply (assignTargets_keeps lastWithin.targets hv.toValue).seq
    intro _
    apply isDynamic_keeps.seq
    intro dynamic
    extract_lets others
    have othersKeep : ∀ type, Keeps w (others type) := by
      refine fun type => (Keeps.forIn fun t member => ?_).seq fun _ => .done
      have within := ht t (List.dropLast_subset _ member)
      exact (assignTargets_keeps within.targets Value.known_keeps).yielding
    split
    · exact Keeps.done.seq othersKeep
    · exact recorded_keeps.seq othersKeep

theorem typed_keeps {vars : List Var} :
    Keeps w (vars.mapM fun v => return Target.typed ((← typeOfVar v).getD .any))
      fun targets => ∀ t ∈ targets, t.Keeps w :=
  .mapM fun _ _ => typeOfVar_keeps.seq fun _ => .pure True.intro

theorem checkVarDef_keeps {vars : List Var} {isLocal : Bool} {init : Option Expr} {span : Span}
    (h : ∀ e ∈ init, e.Within w) (hv : isLocal = true → ∀ v ∈ vars, w.infers v.id) :
    Keeps w (checkVarDef vars isLocal init span) := by
  unfold checkVarDef
  split
  · exact .done
  · rename_i first others
    apply typeOfVar_keeps.seq
    intro known
    split
    · apply isDynamic_keeps.seq
      intro dynamic
      split
      · exact report_keeps
      · exact .done
    · exact .done
    · rename_i init type
      have within := h init rfl
      split
      · exact (assignOne_keeps .typed within.toValue).discard
      · refine typed_keeps.bind fun targets kept => ?_
        exact (assignMany_keeps (fun t member => (kept t member).stores) within.toValue).discard
    · rename_i init
      apply ((h init rfl).accept none).seq
      intro type
      split
      · rename_i isLocal
        refine inferTypes_keeps fun i given => ?_
        obtain ⟨v, member, same⟩ := List.mem_map.mp given
        cases same
        exact ⟨hv isLocal v member, by simp⟩
      · exact .done

theorem checkOpAssign_keeps {op : BinaryOp} {target value : Expr} {span : Span}
    (ht : target.Within w) (hv : value.Within w) :
    Keeps w (checkOpAssign op target value span) := by
  refine (ht.accept none).seq fun type => read_keeps.seq fun env => ?_
  split
  · exact (hv.accept none).discard
  · apply (checkOperator_keeps hv.operand).seq
    intro called
    dsimp only
    split
    · rename_i base index display
      have inside : ∀ x ∈ base.all ++ index.all, w.Covers x := by
        intro x member
        refine ht.unwrapped x ?_
        rw [Expr.all_eq, display]
        exact List.mem_cons_of_mem _ member
      obtain ⟨hb, hi⟩ := List.forall_mem_append.mp inside
      have kept : Target.Keeps w (.indexed (base.accept none) index.operand) :=
        ⟨Expr.Within.accept hb none, Expr.Within.operand hi⟩
      exact (assignOne_keeps kept.stores Value.known_keeps).discard
    · apply isSubtype_keeps.seq
      intro fits
      split
      · exact report_keeps
      · exact .done

theorem checkDel_keeps {target : Expr} (h : target.Within w) : Keeps w (checkDel target) := by
  unfold checkDel
  split
  · rename_i base index display
    have inside : ∀ x ∈ base.all ++ index.all, w.Covers x := by
      intro x member
      refine h.unwrapped x ?_
      rw [Expr.all_eq, display]
      exact List.mem_cons_of_mem _ member
    obtain ⟨hb, hi⟩ := List.forall_mem_append.mp inside
    apply (Expr.Within.accept hb none).seq
    intro type
    exact (checkMethodCall_keeps (by simpa using Expr.Within.operand hi)).discard
  · exact .done

/-! ### Branches and loops -/

theorem checkCondition_keeps {test : Expr} (h : test.Within w) : Keeps w (checkCondition test) :=
  (h.accept none).seq fun _ => checkHasValue_keeps

theorem checkArm_keeps {test : Expr} {body rest : Check Unit} (ht : test.Within w)
    (hb : Keeps w body) (hr : Keeps w rest) : Keeps w (checkArm test body rest) := by
  refine (checkCondition_keeps ht).seq fun _ => Rules.guard?_keeps.seq fun guard => ?_
  split
  · exact hb.seq fun _ => hr
  · split
    · exact hr
    · exact hb.narrowing
    · exact hb.narrowing.seq fun _ => hr

theorem declaredType_keeps {e : Expr} : Keeps w (declaredType e) := by
  unfold declaredType
  split
  · split
    · exact typeOfVar_keeps.seq fun _ => .done
    · exact .done
  · exact .done

theorem checkLoopTargets_keeps {targets : List Expr} {isAnnotated : Bool} {item : Ty} {span : Span}
    (h : ∀ t ∈ targets, t.Within w) :
    Keeps w (checkLoopTargets targets isAnnotated item span) := by
  unfold checkLoopTargets
  split
  · have typed : Keeps w (targets.mapM fun e => return Target.typed (← declaredType e))
        fun targets => ∀ t ∈ targets, t.Keeps w :=
      .mapM fun _ _ => declaredType_keeps.seq fun _ => .pure True.intro
    apply typed.bind
    intro targets kept
    split
    · exact (assignOne_keeps (kept _ (by simp)).stores Value.known_keeps).discard
    · exact (assignMany_keeps (fun t member => (kept t member).stores) Value.known_keeps).discard
  · exact assignTargets_keeps h Value.known_keeps

theorem checkForTargets_keeps {targets : List Expr} {isAnnotated : Bool} {sequence : Expr}
    {span : Span} (ht : ∀ t ∈ targets, t.Within w) (hs : sequence.Within w) :
    Keeps w (checkForTargets targets isAnnotated sequence span) :=
  (itemType_keeps hs.operand).seq fun _ => checkLoopTargets_keeps ht

theorem checkContext_keeps {manager : Expr} {target : Option Expr} (hm : manager.Within w)
    (ht : ∀ t ∈ target, t.Within w) : Keeps w (checkContext manager target) := by
  apply (hm.accept none).seq
  intro type
  apply (checkMethodCall_keeps (by simp)).seq
  intro entered
  have left : Keeps w (do
      discard <| checkMethodCall "__exit__" type (List.replicate 3 (.known .any)) manager.span) := by
    refine (checkMethodCall_keeps fun o member => ?_).discard
    rw [List.eq_of_mem_replicate member]
    exact known_keeps
  split
  · rename_i target
    exact (assignTargets_keeps (ht target rfl).targets Value.known_keeps).seq fun _ => left
  · exact left

/-! ### Exceptions -/

theorem checkException_keeps {type : Ty} {span : Span} : Keeps w (checkException type span) := by
  apply named_keeps.seq
  intro base
  split
  · apply isSubtype_keeps.seq
    intro fits
    split
    · exact report_keeps
    · exact .done
  · exact checkSubtype_keeps

theorem checkRaised_keeps {e : Expr} (h : e.Within w) : Keeps w (checkRaised e) :=
  (h.accept none).seq fun _ => checkException_keeps

theorem caughtByClass_keeps {e : Expr} (h : e.Within w) : Keeps w (caughtByClass e) := by
  apply (h.accept none).seq
  intro type
  split
  · exact .done
  · apply named_keeps.seq
    intro base
    have refused : Keeps w (do
        report .invalidException e.span
        return Ty.any) := report_keeps.seq fun _ => .done
    split
    · apply isSubtype_keeps.seq
      intro fits
      split
      · exact .done
      · exact refused
    · exact refused

/-- Behind its items a tuple of classes is recorded, and what the items catch is joined. -/
theorem joinCaught_keeps {e : Expr} {items : List Expr} (he : w.nodes e.id) (types : List Ty) :
    Keeps w (do
      store e.id (.tuple (← items.mapM fun item => recorded item.id))
      match types with
      | [] => return .any
      | first :: rest => rest.foldlM join first) := by
  refine (Keeps.mapM_trivial fun item _ => recorded_keeps).seq fun recorded => ?_
  apply (store_keeps he).seq
  intro _
  split
  · exact .done
  · exact .foldlM fun _ _ _ => join_keeps

theorem caughtByTuple_keeps {e : Expr} {items : List Expr} {caught : Check (List Ty)}
    (he : w.nodes e.id) (hc : Keeps w caught) : Keeps w (caughtByTuple e items caught) := by
  unfold caughtByTuple
  split
  · exact report_keeps.seq fun _ => .done
  · exact hc.seq (joinCaught_keeps he)

end Check

open Check

variable {w : Effects}

mutual

theorem Expr.caught_keeps : (e : Expr) → e.Within w → Keeps w e.caught
  | ⟨id, span, kind⟩, h =>
    kind.caught_keeps ⟨id, span, kind⟩ h fun x member => h x (List.mem_cons_of_mem _ member)

theorem ExprKind.caught_keeps (e : Expr) : (kind : ExprKind) → e.Within w →
    (∀ x ∈ kind.inside, w.Covers x) → Keeps w (kind.caught e)
  | .paren ⟨_, _, kind⟩, he, h =>
    kind.caught_keeps e he fun x member => h x (List.mem_cons_of_mem _ member)
  | .tuple items, he, h => caughtByTuple_keeps he.records (caughtByEach_keeps items h)
  | .name _, he, _ | .int _, he, _ | .str _, he, _ | .bytes _, he, _ | .unicode _, he, _
  | .float, he, _ | .super _, he, _ | .typeVar _, he, _ | .placeholder _, he, _
  | .member .., he, _ | .call .., he, _ | .binary .., he, _ | .unary .., he, _ | .index .., he, _
  | .cast .., he, _ | .typeApplication .., he, _ | .list _, he, _ | .set _, he, _ | .dict _, he, _
  | .slice .., he, _ | .lambda .., he, _ | .listComprehension .., he, _ | .generator .., he, _
  | .conditional .., he, _ => caughtByClass_keeps he

theorem caughtByEach_keeps : (items : List Expr) → (∀ x ∈ allOfExprs items, w.Covers x) →
    Keeps w (caughtByEach items)
  | [], _ => .done
  | e :: rest, h => by
    simp only [allOfExprs, List.forall_mem_append] at h
    exact (e.caught_keeps h.1).seq fun _ => (caughtByEach_keeps rest h.2).seq fun _ => .done

end

namespace Check

theorem checkCaught_keeps {type v : Option Expr} (ht : ∀ e ∈ type, e.Within w)
    (hv : ∀ e ∈ v, e.Within w) : Keeps w (checkCaught type v) := by
  unfold checkCaught
  split
  · rename_i type
    apply (type.caught_keeps (ht type rfl)).seq
    intro caught
    split
    · rename_i v
      have within : ∀ t ∈ [v], t.Within w := by simpa using hv v rfl
      exact assignTargets_keeps within Value.known_keeps
    · exact .done
  · exact .done

/-! ### Definitions -/

theorem checkOverrides_keeps {name : String} {c : ClassId} {type : Ty} {span : Span} :
    Keeps w (checkOverrides name c type span) := by
  apply read_keeps.seq
  intro env
  split
  · refine (Keeps.forIn fun base _ => ?_).seq fun _ => .done
    apply get_keeps.seq
    intro s
    exact (Keeps.forIn fun p _ => report_keeps.yielding).yielding
  · exact .done

theorem checkInherited_keeps {c : ClassId} {span : Span} : Keeps w (checkInherited c span) := by
  refine read_keeps.seq fun env => get_keeps.seq fun s => ?_
  exact (Keeps.forIn fun conflict _ => report_keeps.yielding).seq fun _ => .done

theorem paramType_keeps {kind : ArgKind} {type : Ty} : Keeps w (paramType kind type)
    fun given => kind.isStar = false → given = type := by
  unfold paramType
  split
  · exact named_keeps.imp fun _ _ plain => nomatch plain
  · exact strType_keeps.seq fun _ => named_keeps.imp fun _ _ plain => nomatch plain
  all_goals exact .pure fun _ => rfl

theorem declareParam_keeps {v : Var} {kind : ArgKind} {type : Ty}
    (h : ∀ given, (kind.isStar = false → given = type) → w.retypes v.id given) :
    Keeps w.declaring (declareParam v kind type) := by
  apply paramType_keeps.declaring.bind
  intro given answer
  exact (setVar_keeps (h given answer)).declaring.seq fun _ => declareLocal_keeps rfl

theorem declareParams_keeps {params : List Param} {s : Signature}
    (h : ∀ r ∈ formalRetypings params s, w.Allows r) :
    Keeps w.declaring (do
      for (p, type, kind) in params.zip (s.argTypes.zip s.argKinds) do
        declareParam p.var kind type) := by
  refine (Keeps.forIn fun (p, type, kind) member => ?_).seq fun _ => .done
  refine (declareParam_keeps fun given answer => ?_).yielding
  have allowed := h _ (List.mem_map.mpr ⟨(p, type, kind), member, rfl⟩)
  cases kind with
  | star | star2 => exact allowed given (.inl rfl)
  | pos | opt | named => exact allowed given (.inr (congrArg some (answer rfl).symm))

theorem checkFuncBody_keeps {d : FuncDef} {s : Signature} {body : Check Unit}
    (hp : ∀ r ∈ formalRetypings d.params s, w.Allows r) (hd : ∀ e ∈ d.defaults, e.Within w)
    (hb : Keeps w body) : Keeps w.declaring (checkFuncBody d s body) := by
  apply isDynamic_keeps.seq
  intro dynamic
  have checked : Keeps w.declaring (do
      for (p, type, kind) in d.params.zip (s.argTypes.zip s.argKinds) do
        declareParam p.var kind type
      for default in d.params.filterMap (·.default) do
        discard <| default.accept none
      returning s.ret body) := by
    refine Keeps.seq (declareParams_keeps hp) fun _ => ?_
    refine Keeps.seq (.forIn fun e member => ?_) fun _ => hb.returning.declaring
    exact ((hd e member).accept none).discard.declaring.yielding
  split
  · exact report_keeps.seq fun _ => checked
  · exact checked

/-- A function without restricted type variables records what is in it. -/
theorem checkFunc_keeps_of_plain {d : FuncDef} {body : Check Unit} {checkCopy : Block → Check Unit}
    (plain : d.restricted? = none) (hp : ∀ r ∈ d.retypings, w.Allows r)
    (hd : ∀ e ∈ d.defaults, e.Within w) (hb : Keeps w body) :
    Keeps w (checkFunc d body checkCopy) := by
  unfold checkFunc
  rw [plain]
  exact (checkFuncBody_keeps hp hd hb).inLocalScope.inFunction

/-- Blocks are checked within the effects that cover them. -/
def CopiesKeep (checkCopy : Block → Check Unit) : Prop :=
  ∀ (w : Effects) (f : Option FuncDef) (b : Block), (∀ p ∈ blockPlaces f b, p.stmt.Within w) →
    Keeps w (checkCopy b)

/-- Copies are made one after the other. -/
theorem instantiateEach_changes {d : FuncDef} {v : TypeVar} (shares : w.Shares d) (values : List Ty)
    (env : Env) (s : State) :
    Changes w s (((values.mapM (instantiate d v)).outcome env s).1.map (·.func))
        ((values.mapM (instantiate d v)).outcome env s).2 ∧
      ((values.mapM (instantiate d v)).outcome env s).2.scope = s.scope := by
  induction values generalizing s with
  | nil => exact ⟨.refl, rfl⟩
  | cons value values ih =>
    rw [List.mapM_cons]
    have first : Changes w s [((instantiate d v value).outcome env s).1.func]
        ((instantiate d v value).outcome env s).2 :=
      Changes.refl.copy d [(v.id, value)] (by simpa using shares)
    obtain ⟨others, same⟩ := ih ((instantiate d v value).outcome env s).2
    exact ⟨first.trans others, same⟩

end Check

/-! ### Copies -/

section Copies

variable {w : Effects} {made : List FuncDef} {d : FuncDef}

/-- The effects that include those of a copy cover all expressions in it. -/
theorem Effects.covers_including (member : d ∈ made) {e : Expr} (inside : e ∈ d.exprs) :
    (w.including made).Covers e where
  node := .inr ⟨d, member, List.mem_map_of_mem inside⟩
  vars r given _ _ := by
    refine .inr ⟨d, member, List.mem_append_left _ (List.mem_append_right _ ?_)⟩
    exact List.mem_flatMap.mpr ⟨e, inside, List.mem_map_of_mem given⟩
  introduces v given :=
    .inr ⟨d, member, List.mem_append_left _ (List.mem_flatMap.mpr ⟨e, inside, given⟩)⟩

theorem FuncDef.defaults_within_including (member : d ∈ made) :
    ∀ e ∈ d.defaults, e.Within (w.including made) := by
  intro e given x inside
  refine Effects.covers_including member (List.mem_append_left _ ?_)
  exact List.mem_flatMap.mpr ⟨e, given, inside⟩

theorem FuncDef.places_within_including (copies : w.copies = true) (member : d ∈ made) :
    ∀ p ∈ d.places, p.stmt.Within (w.including made) := by
  intro p place
  have listed : p.stmt ∈ d.stmts := List.mem_map_of_mem place
  refine ⟨fun e given x inside => ?_, fun r given _ _ => ?_, fun v given => ?_, fun _ => copies⟩
  · refine Effects.covers_including member (List.mem_append_right _ ?_)
    exact List.mem_flatMap.mpr ⟨p.stmt, listed, List.mem_flatMap.mpr ⟨e, given, inside⟩⟩
  · refine .inr ⟨d, member, List.mem_append_right _ ?_⟩
    exact List.mem_flatMap.mpr ⟨p.stmt, listed, List.mem_map_of_mem given⟩
  · refine .inr ⟨d, member, List.mem_append_right _ ?_⟩
    exact List.mem_flatMap.mpr ⟨p.stmt, listed, given⟩

theorem FuncDef.formals_allowed_including (member : d ∈ made) {s : Signature} :
    ∀ r ∈ formalRetypings d.params s, (w.including made).Allows r := by
  intro r given _ _
  obtain ⟨⟨p, type, kind⟩, zipped, rfl⟩ := List.mem_map.mp given
  refine .inr ⟨d, member, List.mem_append_left _ (List.mem_append_left _ ?_)⟩
  exact List.mem_map_of_mem (List.of_mem_zip zipped).1

theorem Expr.shares_subset_introduces (e : Expr) : e.shares ⊆ e.introduces := by
  obtain ⟨id, span, kind⟩ := e
  intro v given
  cases kind with
  | name ref =>
    simp only [Expr.shares] at given
    split at given
    · cases given
    · exact given
  | member base name defined isDef => cases defined <;> cases isDef <;> exact given
  | _ => cases given

theorem StmtKind.mem_retypings_of_shares {kind : StmtKind} {v : VarId} (given : v ∈ kind.shares) :
    (v, none) ∈ kind.retypings := by
  cases kind with
  | decorated d decorators u =>
    rw [List.mem_singleton.mp given]
    exact List.mem_append_right _ (List.mem_singleton.mpr rfl)
  | _ => cases given

/-- What a function that is within the effects shares with its copies may change. -/
theorem FuncDef.Within.shares (own : d.Within w) (h : ∀ p ∈ d.places, p.stmt.Within w) :
    w.Shares d where
  copies := own.copies
  retyped v given type := by
    obtain ⟨s, listed, shared⟩ := List.mem_flatMap.mp given
    obtain ⟨p, place, rfl⟩ := List.mem_map.mp listed
    exact (h p place).vars _ (StmtKind.mem_retypings_of_shares shared) type (.inl rfl)
  introduced v given := by
    obtain ⟨x, inside, shared⟩ := List.mem_flatMap.mp given
    have introduced := x.shares_subset_introduces shared
    rcases List.mem_append.mp inside with inDefaults | inStmts
    · obtain ⟨e, default, inside⟩ := List.mem_flatMap.mp inDefaults
      exact (own.defaults e default x inside).introduces v introduced
    · obtain ⟨s, listed, inStmt⟩ := List.mem_flatMap.mp inStmts
      obtain ⟨e, part, inside⟩ := List.mem_flatMap.mp inStmt
      obtain ⟨p, place, rfl⟩ := List.mem_map.mp listed
      exact ((h p place).exprs e part x inside).introduces v introduced

end Copies

namespace Check

variable {w : Effects}

/-- A function with a restricted type variable is checked in copies only, so beside the copies only
what they share with it changes. -/
theorem checkFunc_keeps_of_restricted {d : FuncDef} {body : Check Unit}
    {checkCopy : Block → Check Unit} {v : TypeVar} (restricted : d.restricted? = some v)
    (shares : w.Shares d) (hc : CopiesKeep checkCopy) : Keeps w (checkFunc d body checkCopy) := by
  unfold checkFunc
  rw [restricted]
  refine Keeps.inFunction fun env s _ => ⟨?_, True.intro⟩
  -- All copies are made before the first of them is checked, so each check may rely on all of them.
  obtain ⟨changes, same⟩ := instantiateEach_changes (v := v) shares v.values env s
  generalize instances : (v.values.mapM (instantiate d v)).outcome env s = copies at changes same
  have checked : Keeps (w.including (copies.1.map (·.func))) (do
      for i in copies.1 do
        inInstantiation i.note <| inLocalScope <|
          checkFuncBody i.func i.signature (checkCopy i.func.body)) := by
    refine (Keeps.forIn fun i given => ?_).seq fun _ => .done
    have member : i.func ∈ copies.1.map (·.func) := List.mem_map_of_mem given
    have bodyKeeps := hc (w.including (copies.1.map (·.func))) (some i.func) i.func.body (by
      rw [← FuncDef.places_eq]
      exact i.func.places_within_including shares.copies member)
    have bodyKeeps' := checkFuncBody_keeps (i.func.formals_allowed_including member (s := i.signature))
      (i.func.defaults_within_including member) bodyKeeps
    exact bodyKeeps'.inLocalScope.inInstantiation.yielding
  have frame := checked.frame env copies.2
  rw [outcome_bind, instances]
  exact .behind changes same frame

theorem checkPlace_keeps {d : FuncDef} : Keeps w (checkPlace d) := by
  unfold checkPlace
  extract_lets compared
  have comparedKeeps : ∀ u, Keeps w (compared u) := by
    intro _
    unfold compared
    split
    · split
      · exact report_keeps
      · exact .done
    · exact .done
  split
  · exact checkOverrides_keeps.seq comparedKeeps
  · exact comparedKeeps ()

theorem checkOverloads_keeps {items : List FuncDef} {owner : Option ClassId}
    {symbol : FunctionSymbol} {span : Span} :
    Keeps w (checkOverloads items owner symbol span) := by
  unfold checkOverloads
  extract_lets compared
  have comparedKeeps : ∀ u, Keeps w (compared u) := by
    intro _
    unfold compared
    split
    · exact checkOverrides_keeps
    · exact .done
  split
  · exact report_keeps.seq comparedKeeps
  · exact comparedKeeps ()

theorem checkDecorators_keeps {d : FuncDef} {decorators : List Expr} {v : Var} {span : Span}
    (hd : ∀ e ∈ decorators, e.Within w) (hv : w.Allows (v.id, none)) :
    Keeps w (checkDecorators d decorators v span) := by
  refine Keeps.seq ?_ fun type => setVar_keeps (hv _ (.inl rfl))
  refine .foldlM fun type e member => ?_
  apply ((hd e (List.mem_reverse.mp member)).accept none).seq
  intro callee
  refine (checkCall_keeps fun a given => ?_).seq fun _ => .done
  rw [List.mem_singleton.mp given]
  exact known_keeps

end Check

/-! ### Trees -/

section Trees

variable {checkCopy : Block → Check Unit}

mutual

theorem Stmt.check_keeps (hc : CopiesKeep checkCopy) {f : Option FuncDef} : (s : Stmt) →
    (∀ p ∈ s.places f, p.stmt.Within w) → Keeps w (s.check checkCopy)
  | ⟨span, kind⟩, h => by
    simp only [Stmt.places, List.forall_mem_cons] at h
    exact kind.check_keeps hc span h.1 h.2

theorem StmtKind.check_keeps (hc : CopiesKeep checkCopy) {f : Option FuncDef} (span : Span)
    (kind : StmtKind) (own : Stmt.Within w ⟨span, kind⟩)
    (h : ∀ p ∈ kind.places f, p.stmt.Within w) : Keeps w (kind.check checkCopy span) := by
  obtain ⟨exprs, vars, introduces, copies⟩ := own
  cases kind with
  | varDef vars binding isTopLevel init =>
    refine checkVarDef_keeps (by simpa [StmtKind.exprs] using exprs) fun isLocal v member => ?_
    refine introduces v.id ?_
    rw [StmtKind.introduces, if_pos isLocal]
    exact List.mem_map_of_mem member
  | func d =>
    unfold StmtKind.check
    exact (d.check_keeps hc ⟨exprs, vars, copies (by simp [StmtKind.functions])⟩ h).seq
      fun _ => checkPlace_keeps
  | overloaded items owner symbol =>
    unfold StmtKind.check
    have within : ∀ d ∈ items, d.Within w := fun d member =>
      ⟨fun e he => exprs e (List.mem_flatMap.mpr ⟨d, member, he⟩),
        fun r hr => vars r (List.mem_flatMap.mpr ⟨d, member, hr⟩),
        copies (List.ne_nil_of_mem member)⟩
    exact (checkEach_keeps hc items within h).seq fun _ => checkOverloads_keeps
  | cls name c body =>
    unfold StmtKind.check
    exact ((checkBlock_keeps hc body h).seq fun _ => checkInherited_keeps).inClass
  | decorated func decorators v =>
    unfold StmtKind.check
    obtain ⟨defaults, wrapped⟩ := List.forall_mem_append.mp exprs
    obtain ⟨formals, named⟩ := List.forall_mem_append.mp vars
    apply (func.check_keeps hc ⟨defaults, formals, copies (by simp [StmtKind.functions])⟩ h).seq
    intro _
    exact checkPlace_keeps.seq fun _ => checkDecorators_keeps wrapped (by simpa using named)
  | assign targets value =>
    obtain ⟨ht, hv⟩ := List.forall_mem_append.mp exprs
    exact checkAssign_keeps ht (by simpa using hv)
  | opAssign op target value =>
    obtain ⟨ht, hv⟩ : target.Within w ∧ value.Within w := by simpa [StmtKind.exprs] using exprs
    exact checkOpAssign_keeps ht hv
  | expr e | assert e =>
    have within : e.Within w := exprs e (by simp [StmtKind.exprs])
    exact (within.accept none).discard
  | ret value => exact checkReturn_keeps (by simpa [StmtKind.exprs] using exprs)
  | yield value => exact checkYield_keeps (exprs value (by simp [StmtKind.exprs]))
  | ifElse arms orElse =>
    unfold StmtKind.check
    simp only [StmtKind.places, List.forall_mem_append] at h
    have tests : ∀ arm ∈ arms, arm.test.Within w := fun arm member =>
      exprs _ (List.mem_map.mpr ⟨arm, member, rfl⟩)
    exact checkArms_keeps hc (checkOption_keeps hc orElse h.2) arms tests h.1
  | whileLoop test body orElse =>
    unfold StmtKind.check
    simp only [StmtKind.places, List.forall_mem_append] at h
    apply (checkCondition_keeps (exprs test (by simp [StmtKind.exprs]))).seq
    intro _
    apply (checkBlock_keeps hc body h.1).seq
    intro _
    exact checkOption_keeps hc orElse h.2
  | forLoop targets isAnnotated sequence body orElse =>
    unfold StmtKind.check
    simp only [StmtKind.places, List.forall_mem_append] at h
    obtain ⟨ht, hs⟩ := List.forall_mem_append.mp exprs
    apply (checkForTargets_keeps ht (by simpa using hs)).seq
    intro _
    apply (checkBlock_keeps hc body h.1).seq
    intro _
    exact checkOption_keeps hc orElse h.2
  | withBlock items body =>
    unfold StmtKind.check
    refine Keeps.seq (.forIn fun (manager, target) member => ?_) fun _ =>
      checkBlock_keeps hc body h
    have both : ∀ e ∈ manager :: target.toList, e.Within w := fun e he =>
      exprs e (List.mem_flatMap.mpr ⟨_, member, he⟩)
    obtain ⟨hm, ht⟩ := List.forall_mem_cons.mp both
    exact (checkContext_keeps hm (by simpa using ht)).yielding
  | raise value cause =>
    unfold StmtKind.check
    refine (Keeps.forIn fun e member => ?_).seq fun _ => .done
    exact (checkRaised_keeps (exprs e member)).yielding
  | tryBlock body handlers orElse atEnd =>
    unfold StmtKind.check
    simp only [StmtKind.places, List.forall_mem_append] at h
    have parts : ∀ c ∈ handlers, ∀ e ∈ c.type.toList ++ c.var.toList, e.Within w :=
      fun c member e he => exprs e (List.mem_flatMap.mpr ⟨c, member, he⟩)
    apply (checkBlock_keeps hc body h.1.1.1).seq
    intro _
    apply (checkHandlers_keeps hc handlers parts h.1.1.2).seq
    intro _
    apply (checkOption_keeps hc orElse h.1.2).seq
    intro _
    exact checkOption_keeps hc atEnd h.2
  | del target => exact checkDel_keeps (exprs target (by simp [StmtKind.exprs]))
  | print args =>
    unfold StmtKind.check
    refine (Keeps.forIn fun e member => ?_).seq fun _ => .done
    exact ((exprs e member).accept none).discard.yielding
  | pass | breakLoop | continueLoop | globals | imports => exact .done

theorem FuncDef.check_keeps (hc : CopiesKeep checkCopy) : (d : FuncDef) → d.Within w →
    (∀ p ∈ d.places, p.stmt.Within w) → Keeps w (d.check checkCopy)
  | ⟨name, fullName, owner, params, body, signature, isGenerator, span, isAbstract, earlier,
      symbol⟩, own, h => by
    unfold FuncDef.check
    have checked := checkBlock_keeps hc body h
    generalize FuncDef.mk name fullName owner params body signature isGenerator span isAbstract
      earlier symbol = d at own h checked
    cases restricted : d.restricted? with
    | none => exact checkFunc_keeps_of_plain restricted own.vars own.defaults checked
    | some v =>
      exact checkFunc_keeps_of_restricted restricted (own.shares h) hc

theorem checkEach_keeps (hc : CopiesKeep checkCopy) (items : List FuncDef)
    (own : ∀ d ∈ items, d.Within w) (h : ∀ p ∈ placesOfEach items, p.stmt.Within w) :
    Keeps w (checkEach checkCopy items) := by
  cases items with
  | nil => exact .done
  | cons d rest =>
    unfold checkEach
    simp only [placesOfEach, List.forall_mem_append] at h
    obtain ⟨first, others⟩ := List.forall_mem_cons.mp own
    apply (d.check_keeps hc first h.1).seq
    intro _
    exact checkEach_keeps hc rest others h.2

theorem checkBlock_keeps (hc : CopiesKeep checkCopy) {f : Option FuncDef} (b : List Stmt)
    (h : ∀ p ∈ blockPlaces f b, p.stmt.Within w) : Keeps w (checkBlock checkCopy b) := by
  cases b with
  | nil => exact .done
  | cons s rest =>
    unfold checkBlock
    simp only [blockPlaces, List.forall_mem_append] at h
    apply (s.check_keeps hc h.1).seq
    intro _
    exact checkBlock_keeps hc rest h.2

theorem checkOption_keeps (hc : CopiesKeep checkCopy) {f : Option FuncDef}
    (b : Option (List Stmt)) (h : ∀ p ∈ optionPlaces f b, p.stmt.Within w) :
    Keeps w (checkOption checkCopy b) := by
  cases b with
  | none => exact .done
  | some b => exact checkBlock_keeps hc b h

theorem checkArms_keeps (hc : CopiesKeep checkCopy) {f : Option FuncDef} {orElse : Check Unit}
    (ho : Keeps w orElse) : (arms : List Arm) → (∀ arm ∈ arms, arm.test.Within w) →
    (∀ p ∈ armPlaces f arms, p.stmt.Within w) → Keeps w (checkArms checkCopy orElse arms)
  | [], _, _ => ho
  | ⟨test, body⟩ :: rest, tests, h => by
    unfold checkArms
    simp only [armPlaces, List.forall_mem_append] at h
    obtain ⟨first, others⟩ := List.forall_mem_cons.mp tests
    exact checkArm_keeps first (checkBlock_keeps hc body h.1)
      (checkArms_keeps hc ho rest others h.2)

theorem checkHandlers_keeps (hc : CopiesKeep checkCopy) {f : Option FuncDef} :
    (handlers : List Handler) →
    (∀ c ∈ handlers, ∀ e ∈ c.type.toList ++ c.var.toList, e.Within w) →
    (∀ p ∈ handlerPlaces f handlers, p.stmt.Within w) →
    Keeps w (checkHandlers checkCopy handlers)
  | [], _, _ => .done
  | ⟨type, v, body⟩ :: rest, parts, h => by
    unfold checkHandlers
    simp only [handlerPlaces, List.forall_mem_append] at h
    obtain ⟨first, others⟩ := List.forall_mem_cons.mp parts
    obtain ⟨ht, hv⟩ := List.forall_mem_append.mp first
    apply (checkCaught_keeps (by simpa using ht) (by simpa using hv)).seq
    intro _
    apply (checkBlock_keeps hc body h.1).seq
    intro _
    exact checkHandlers_keeps hc rest others h.2

end

end Trees

/-- What a block may change: the types of the expressions in it and of the variables that it
introduces. -/
theorem checkNested_keeps (depth : Nat) : CopiesKeep (checkNested depth) := by
  induction depth with
  | zero =>
    have unchecked : CopiesKeep fun _ => pure () := fun _ _ _ _ => .done
    exact fun w f b h => checkBlock_keeps unchecked b h
  | succ depth ih => exact fun w f b h => checkBlock_keeps ih b h

theorem Block.check_keeps {w : Effects} {f : Option FuncDef} (b : Block)
    (h : ∀ p ∈ blockPlaces f b, p.stmt.Within w) : Keeps w b.check :=
  checkNested_keeps (blockNesting b) w f b h

end Gradual
