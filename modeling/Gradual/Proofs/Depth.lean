import Gradual.Proofs.StmtEffects

/-!
The depth with which a block is checked: any depth that covers the definitions in the block gives the
same check, so the check of a block is that of its statements, and bodies of copies are checked as
any other block is.
-/

namespace Gradual

/-- An action that may change everything but the scope. -/
def Effects.anything : Effects := ⟨fun _ => True, fun _ _ => True, fun _ => True, true, false⟩

theorem Expr.within_anything (e : Expr) : e.Within .anything :=
  fun _ _ => ⟨True.intro, fun _ _ _ _ => True.intro, fun _ _ => True.intro⟩

theorem Stmt.within_anything (s : Stmt) : s.Within .anything :=
  ⟨fun e _ => e.within_anything, fun _ _ _ _ => True.intro, fun _ _ => True.intro, fun _ => rfl⟩

theorem FuncDef.within_anything (d : FuncDef) : d.Within .anything :=
  ⟨fun e _ => e.within_anything, fun _ _ _ _ => True.intro, rfl⟩

theorem FuncDef.nesting_eq (d : FuncDef) : d.nesting = blockNesting d.body + 1 := by cases d; rfl

/-- Two checks of copies that agree on the blocks in which definitions are nested less deeply. -/
def AgreeBelow (depth : Nat) (checkCopy checkCopy' : Block → Check Unit) : Prop :=
  ∀ b : Block, blockNesting b < depth → checkCopy b = checkCopy' b

namespace Check

variable {checkCopy checkCopy' : Block → Check Unit} {depth : Nat}

/-- Two continuations that agree on what an action answers. -/
theorem bind_congr_of_keeps {α β : Type} {x : Check α} {post : α → Prop} {f g : α → Check β}
    (h : Keeps Effects.anything x post) (same : ∀ a, post a → f a = g a) : x >>= f = x >>= g := by
  funext env s
  have answer := (h env s True.intro).2
  show (f (x.outcome env s).1).outcome env (x.outcome env s).2 =
    (g (x.outcome env s).1).outcome env (x.outcome env s).2
  rw [same _ answer]

theorem forIn_congr {α : Type} {xs : List α} {f g : α → PUnit → Check (ForInStep PUnit)}
    (same : ∀ c ∈ xs, f c = g c) : forIn xs PUnit.unit f = forIn xs PUnit.unit g := by
  induction xs with
  | nil => rfl
  | cons c xs ih =>
    have later := ih fun c member => same c (by simp [member])
    rw [List.forIn_cons, List.forIn_cons, same c (by simp)]
    simp only [later]

/-- Definitions are nested as deeply in a copy as in what it is made from. -/
theorem instantiate_keeps {d : FuncDef} {v : TypeVar} {value : Ty} :
    Keeps Effects.anything (instantiate d v value) (·.func.nesting = d.nesting) := by
  intro env s _
  have copied := d.instantiate_copied [(v.id, value)] s.nextNode s.vars
  have shares : (Effects.anything.including []).Shares d :=
    ⟨rfl, fun _ _ _ => .inl True.intro, fun _ _ => .inl True.intro⟩
  exact ⟨⟨rfl, fun _ => rfl, _, Changes.refl.copy d [(v.id, value)] shares⟩,
    FuncDef.nesting_eq_of_outline copied.outline⟩

/-- Only the bodies of copies are left to the check of copies. -/
theorem checkFunc_congr {d : FuncDef} {body : Check Unit} (nested : d.nesting ≤ depth)
    (same : AgreeBelow depth checkCopy checkCopy') :
    checkFunc d body checkCopy = checkFunc d body checkCopy' := by
  unfold checkFunc
  cases d.restricted? with
  | none => rfl
  | some v =>
    have copied : Keeps Effects.anything (v.values.mapM (instantiate d v))
        fun copies => ∀ i ∈ copies, i.func.nesting = d.nesting :=
      .mapM fun _ _ => instantiate_keeps
    refine congrArg (inFunction _) (bind_congr_of_keeps copied fun copies made => ?_)
    refine congrArg (· >>= fun _ => pure ()) (forIn_congr fun i member => ?_)
    have deeper : blockNesting i.func.body < depth := by
      have nesting := made i member
      rw [FuncDef.nesting_eq] at nesting
      omega
    rw [same _ deeper]

end Check

open Check

section Trees

variable {checkCopy checkCopy' : Block → Check Unit} {depth : Nat}

mutual

theorem Stmt.check_congr (same : AgreeBelow depth checkCopy checkCopy') : (s : Stmt) →
    s.nesting ≤ depth → s.check checkCopy = s.check checkCopy'
  | ⟨span, kind⟩, nested => kind.check_congr same span nested

theorem StmtKind.check_congr (same : AgreeBelow depth checkCopy checkCopy') (span : Span)
    (kind : StmtKind) (nested : kind.nesting ≤ depth) :
    kind.check checkCopy span = kind.check checkCopy' span := by
  cases kind with
  | func d =>
    rw [StmtKind.check, StmtKind.check, d.check_congr same nested]
  | overloaded items owner symbol =>
    rw [StmtKind.check, StmtKind.check, checkEach_congr same items nested]
  | cls name c body =>
    rw [StmtKind.check, StmtKind.check, checkBlock_congr same body nested]
  | decorated d decorators v =>
    rw [StmtKind.check, StmtKind.check, d.check_congr same nested]
  | ifElse arms orElse =>
    rw [StmtKind.nesting] at nested
    rw [StmtKind.check, StmtKind.check, checkOption_congr same orElse (by omega),
      checkArms_congr same arms (by omega)]
  | whileLoop test body orElse =>
    rw [StmtKind.nesting] at nested
    rw [StmtKind.check, StmtKind.check, checkBlock_congr same body (by omega),
      checkOption_congr same orElse (by omega)]
  | forLoop targets isAnnotated sequence body orElse =>
    rw [StmtKind.nesting] at nested
    rw [StmtKind.check, StmtKind.check, checkBlock_congr same body (by omega),
      checkOption_congr same orElse (by omega)]
  | withBlock items body =>
    rw [StmtKind.check, StmtKind.check, checkBlock_congr same body nested]
  | tryBlock body handlers orElse atEnd =>
    rw [StmtKind.nesting] at nested
    rw [StmtKind.check, StmtKind.check, checkBlock_congr same body (by omega),
      checkHandlers_congr same handlers (by omega), checkOption_congr same orElse (by omega),
      checkOption_congr same atEnd (by omega)]
  | varDef | assign | opAssign | expr | ret | yield | assert | raise | del | print | pass
  | breakLoop | continueLoop | globals | imports => rfl

theorem FuncDef.check_congr (same : AgreeBelow depth checkCopy checkCopy') : (d : FuncDef) →
    d.nesting ≤ depth → d.check checkCopy = d.check checkCopy'
  | ⟨name, fullName, owner, params, body, signature, isGenerator, span, isAbstract, earlier,
      symbol⟩, nested => by
    have shallower : blockNesting body ≤ depth := by
      rw [FuncDef.nesting] at nested
      omega
    rw [FuncDef.check, FuncDef.check, checkBlock_congr same body shallower]
    exact checkFunc_congr nested same

theorem checkEach_congr (same : AgreeBelow depth checkCopy checkCopy') (items : List FuncDef)
    (nested : nestingOfEach items ≤ depth) : checkEach checkCopy items = checkEach checkCopy' items := by
  cases items with
  | nil => rfl
  | cons d rest =>
    rw [nestingOfEach] at nested
    rw [checkEach, checkEach, d.check_congr same (by omega), checkEach_congr same rest (by omega)]

theorem checkBlock_congr (same : AgreeBelow depth checkCopy checkCopy') (b : List Stmt)
    (nested : blockNesting b ≤ depth) : checkBlock checkCopy b = checkBlock checkCopy' b := by
  cases b with
  | nil => rfl
  | cons s rest =>
    rw [blockNesting] at nested
    rw [checkBlock, checkBlock, s.check_congr same (by omega), checkBlock_congr same rest (by omega)]

theorem checkOption_congr (same : AgreeBelow depth checkCopy checkCopy') (b : Option (List Stmt))
    (nested : optBlockNesting b ≤ depth) : checkOption checkCopy b = checkOption checkCopy' b := by
  cases b with
  | none => rfl
  | some b => exact checkBlock_congr same b nested

theorem checkArms_congr (same : AgreeBelow depth checkCopy checkCopy') {orElse : Check Unit} :
    (arms : List Arm) → armsNesting arms ≤ depth →
    checkArms checkCopy orElse arms = checkArms checkCopy' orElse arms
  | [], _ => rfl
  | ⟨test, body⟩ :: rest, nested => by
    rw [armsNesting] at nested
    rw [checkArms, checkArms, checkBlock_congr same body (by omega),
      checkArms_congr same rest (by omega)]

theorem checkHandlers_congr (same : AgreeBelow depth checkCopy checkCopy') :
    (handlers : List Handler) → handlersNesting handlers ≤ depth →
    checkHandlers checkCopy handlers = checkHandlers checkCopy' handlers
  | [], _ => rfl
  | ⟨type, v, body⟩ :: rest, nested => by
    rw [handlersNesting] at nested
    rw [checkHandlers, checkHandlers, checkBlock_congr same body (by omega),
      checkHandlers_congr same rest (by omega)]

end

end Trees

/-- Any two depths that cover the definitions in a block give the same check. -/
theorem checkNested_congr (depth depth' : Nat) (b : Block) (h : blockNesting b ≤ depth)
    (h' : blockNesting b ≤ depth') : checkNested depth b = checkNested depth' b := by
  induction depth generalizing depth' b with
  | zero =>
    have flat : blockNesting b ≤ 0 := h
    have agree : ∀ checkCopy checkCopy' : Block → Check Unit, AgreeBelow 0 checkCopy checkCopy' :=
      fun _ _ _ less => absurd less (Nat.not_lt_zero _)
    cases depth' with
    | zero => rfl
    | succ depth' => exact checkBlock_congr (agree _ _) b flat
  | succ depth ih =>
    cases depth' with
    | zero =>
      have flat : blockNesting b ≤ 0 := h'
      exact checkBlock_congr (fun _ less => absurd less (Nat.not_lt_zero _)) b flat
    | succ depth' =>
      refine checkBlock_congr ?_ b (Nat.le_refl _)
      intro c less
      exact ih depth' c (by omega) (by omega)

/-- A block is checked one statement after the other, and the body of a copy as any other block. -/
theorem Block.check_eq (b : Block) : b.check = checkBlock Block.check b := by
  have agree : ∀ depth, AgreeBelow (depth + 1) (checkNested depth) Block.check :=
    fun depth c less => checkNested_congr depth (blockNesting c) c (Nat.le_of_lt_succ less)
      (Nat.le_refl _)
  have covered := checkNested_congr (blockNesting b) (blockNesting b + 1) b (Nat.le_refl _)
    (Nat.le_succ _)
  calc
    b.check = checkBlock (checkNested (blockNesting b)) b := covered
    _ = checkBlock Block.check b := checkBlock_congr (agree _) b (Nat.le_succ _)

end Gradual
