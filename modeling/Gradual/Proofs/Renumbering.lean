import Gradual.Checker.Guard
import Gradual.Proofs.Occurrence

/-!
Trees with other ids: what is in a tree does not depend on the ids of its expressions, and a tree is
left as it is if its own ids are.
-/

namespace Gradual

section

variable (ρ : NodeId → NodeId)

mutual

/-- The expression with other ids for it and for all expressions in it. -/
def Expr.renumber : Expr → Expr
  | ⟨id, span, kind⟩ => ⟨ρ id, span, kind.renumber⟩

def ExprKind.renumber : ExprKind → ExprKind
  | .name ref => .name ref
  | .member base name defined isDef => .member base.renumber name defined isDef
  | .call callee args => .call callee.renumber (renumberActuals args)
  | .paren inner => .paren inner.renumber
  | .int value => .int value
  | .str value => .str value
  | .bytes value => .bytes value
  | .unicode value => .unicode value
  | .float => .float
  | .binary op left right => .binary op left.renumber right.renumber
  | .unary op operand => .unary op operand.renumber
  | .index base index => .index base.renumber index.renumber
  | .cast inner type => .cast inner.renumber type
  | .super name => .super name
  | .typeApplication inner types => .typeApplication inner.renumber types
  | .typeVar name => .typeVar name
  | .list items => .list (renumberExprs items)
  | .set items => .set (renumberExprs items)
  | .tuple items => .tuple (renumberExprs items)
  | .dict items => .dict (renumberPairs items)
  | .slice first last stride =>
    .slice (renumberOption first) (renumberOption last) (renumberOption stride)
  | .lambda params body => .lambda params body.renumber
  | .listComprehension left clauses => .listComprehension left.renumber (renumberClauses clauses)
  | .generator left clauses => .generator left.renumber (renumberClauses clauses)
  | .placeholder type => .placeholder type
  | .conditional cond ifTrue ifFalse =>
    .conditional cond.renumber ifTrue.renumber ifFalse.renumber

def renumberExprs : List Expr → List Expr
  | [] => []
  | e :: rest => e.renumber :: renumberExprs rest

def renumberActuals : List Actual → List Actual
  | [] => []
  | ⟨kind, name, value⟩ :: rest => ⟨kind, name, value.renumber⟩ :: renumberActuals rest

def renumberPairs : List (Expr × Expr) → List (Expr × Expr)
  | [] => []
  | (key, value) :: rest => (key.renumber, value.renumber) :: renumberPairs rest

def renumberOption : Option Expr → Option Expr
  | none => none
  | some e => some e.renumber

def renumberClauses : List Clause → List Clause
  | [] => []
  | ⟨targets, sequence, conditions⟩ :: rest =>
    ⟨renumberExprs targets, sequence.renumber, renumberExprs conditions⟩ :: renumberClauses rest

end

def Param.renumber (p : Param) : Param := { p with default := p.default.map (·.renumber ρ) }

mutual

def Stmt.renumber : Stmt → Stmt
  | ⟨span, kind⟩ => ⟨span, kind.renumber⟩

def StmtKind.renumber : StmtKind → StmtKind
  | .varDef vars binding isTopLevel init =>
    .varDef vars binding isTopLevel (init.map (·.renumber ρ))
  | .func d => .func d.renumber
  | .overloaded items owner symbol => .overloaded (renumberFuncDefs items) owner symbol
  | .cls name c body => .cls name c (renumberBlock body)
  | .decorated func decorators v => .decorated func.renumber (decorators.map (·.renumber ρ)) v
  | .assign targets value => .assign (targets.map (·.renumber ρ)) (value.renumber ρ)
  | .opAssign op target value => .opAssign op (target.renumber ρ) (value.renumber ρ)
  | .expr e => .expr (e.renumber ρ)
  | .ret value => .ret (value.map (·.renumber ρ))
  | .yield value => .yield (value.renumber ρ)
  | .ifElse arms orElse => .ifElse (renumberArms arms) (renumberOptionBlock orElse)
  | .whileLoop test body orElse =>
    .whileLoop (test.renumber ρ) (renumberBlock body) (renumberOptionBlock orElse)
  | .forLoop targets isAnnotated sequence body orElse =>
    .forLoop (targets.map (·.renumber ρ)) isAnnotated (sequence.renumber ρ) (renumberBlock body)
      (renumberOptionBlock orElse)
  | .withBlock items body =>
    .withBlock (items.map fun (manager, target) => (manager.renumber ρ, target.map (·.renumber ρ)))
      (renumberBlock body)
  | .assert test => .assert (test.renumber ρ)
  | .raise value cause => .raise (value.map (·.renumber ρ)) (cause.map (·.renumber ρ))
  | .tryBlock body handlers orElse atEnd =>
    .tryBlock (renumberBlock body) (renumberHandlers handlers) (renumberOptionBlock orElse)
      (renumberOptionBlock atEnd)
  | .del target => .del (target.renumber ρ)
  | .print args => .print (args.map (·.renumber ρ))
  | .pass => .pass
  | .breakLoop => .breakLoop
  | .continueLoop => .continueLoop
  | .globals names => .globals names
  | .imports names => .imports names

def FuncDef.renumber : FuncDef → FuncDef
  | ⟨name, fullName, owner, params, body, signature, isGenerator, span, isAbstract, earlier,
      symbol⟩ =>
    ⟨name, fullName, owner, params.map (·.renumber ρ), renumberBlock body, signature, isGenerator,
      span, isAbstract, earlier, symbol⟩

def renumberFuncDefs : List FuncDef → List FuncDef
  | [] => []
  | d :: rest => d.renumber :: renumberFuncDefs rest

def renumberBlock : List Stmt → List Stmt
  | [] => []
  | s :: rest => s.renumber :: renumberBlock rest

def renumberOptionBlock : Option (List Stmt) → Option (List Stmt)
  | none => none
  | some body => some (renumberBlock body)

def renumberArms : List Arm → List Arm
  | [] => []
  | ⟨test, body⟩ :: rest => ⟨test.renumber ρ, renumberBlock body⟩ :: renumberArms rest

def renumberHandlers : List Handler → List Handler
  | [] => []
  | ⟨type, v, body⟩ :: rest =>
    ⟨type.map (·.renumber ρ), v.map (·.renumber ρ), renumberBlock body⟩ :: renumberHandlers rest

end

/-! ### Lists -/

theorem renumberExprs_eq (items : List Expr) : renumberExprs ρ items = items.map (·.renumber ρ) := by
  induction items with
  | nil => rfl
  | cons e rest ih => rw [renumberExprs, ih, List.map_cons]

theorem renumberOption_eq (e : Option Expr) : renumberOption ρ e = e.map (·.renumber ρ) := by
  cases e <;> rfl

theorem renumberClauses_eq (clauses : List Clause) :
    renumberClauses ρ clauses = clauses.map fun c =>
      ⟨renumberExprs ρ c.targets, c.sequence.renumber ρ, renumberExprs ρ c.conditions⟩ := by
  induction clauses with
  | nil => rfl
  | cons c rest ih =>
    obtain ⟨targets, sequence, conditions⟩ := c
    rw [renumberClauses, ih, List.map_cons]

theorem renumberFuncDefs_eq (items : List FuncDef) :
    renumberFuncDefs ρ items = items.map (·.renumber ρ) := by
  induction items with
  | nil => rfl
  | cons d rest ih => rw [renumberFuncDefs, ih, List.map_cons]

theorem renumberArms_eq (arms : List Arm) :
    renumberArms ρ arms = arms.map fun a => ⟨a.test.renumber ρ, renumberBlock ρ a.body⟩ := by
  induction arms with
  | nil => rfl
  | cons a rest ih =>
    obtain ⟨test, body⟩ := a
    rw [renumberArms, ih, List.map_cons]

theorem renumberHandlers_eq (handlers : List Handler) :
    renumberHandlers ρ handlers = handlers.map fun h =>
      ⟨h.type.map (·.renumber ρ), h.var.map (·.renumber ρ), renumberBlock ρ h.body⟩ := by
  induction handlers with
  | nil => rfl
  | cons h rest ih =>
    obtain ⟨type, v, body⟩ := h
    rw [renumberHandlers, ih, List.map_cons]

/-! ### What does not depend on ids -/

namespace Expr

variable (e : Expr)

@[simp] theorem renumber_id : (e.renumber ρ).id = ρ e.id := by cases e; rfl

@[simp] theorem renumber_span : (e.renumber ρ).span = e.span := by cases e; rfl

@[simp] theorem renumber_kind : (e.renumber ρ).kind = e.kind.renumber ρ := by cases e; rfl

end Expr

mutual

theorem Expr.unwrapped_renumber : (e : Expr) → (e.renumber ρ).unwrapped = e.unwrapped.renumber ρ
  | ⟨id, span, kind⟩ => kind.unwrappedOr_renumber ⟨id, span, kind⟩

theorem ExprKind.unwrappedOr_renumber (self : Expr) : (kind : ExprKind) →
    (kind.renumber ρ).unwrappedOr (self.renumber ρ) = (kind.unwrappedOr self).renumber ρ
  | .paren inner => inner.unwrapped_renumber
  | .name _ | .int _ | .str _ | .bytes _ | .unicode _ | .float | .super _ | .typeVar _
  | .placeholder _ | .member .. | .call .. | .binary .. | .unary .. | .index .. | .cast ..
  | .typeApplication .. | .list _ | .set _ | .tuple _ | .dict _ | .slice .. | .lambda ..
  | .listComprehension .. | .generator .. | .conditional .. => rfl

end

namespace Expr

theorem calledName?_renumber (e : Expr) : (e.renumber ρ).calledName? = e.calledName? := by
  unfold calledName?
  rw [e.unwrapped_renumber, renumber_kind]
  cases e.unwrapped.kind with
  | call callee args =>
    simp only [ExprKind.renumber, callee.unwrapped_renumber, renumber_kind]
    cases callee.unwrapped.kind <;> rfl
  | _ => rfl

theorem intLiteral?_renumber (e : Expr) : (e.renumber ρ).intLiteral? = e.intLiteral? := by
  unfold intLiteral?
  rw [e.unwrapped_renumber, renumber_kind]
  cases e.unwrapped.kind with
  | unary op operand =>
    cases op with
    | neg =>
      simp only [ExprKind.renumber, operand.unwrapped_renumber, renumber_kind]
      cases operand.unwrapped.kind <;> rfl
    | _ => rfl
  | _ => rfl

theorem instanceTest?_renumber (e : Expr) :
    (e.renumber ρ).instanceTest? = e.instanceTest?.map fun t => { t with cls := ρ t.cls } := by
  unfold instanceTest?
  rw [e.unwrapped_renumber, renumber_kind]
  cases e.unwrapped.kind with
  | call callee args =>
    match args with
    | [] | [⟨_, _, _⟩] | ⟨_, _, _⟩ :: ⟨_, _, _⟩ :: ⟨_, _, _⟩ :: _ => rfl
    | [⟨_, _, subject⟩, ⟨_, _, cls⟩] =>
      simp only [ExprKind.renumber, renumberActuals, callee.unwrapped_renumber,
        subject.unwrapped_renumber, renumber_kind, renumber_id]
      cases callee.unwrapped.kind with
      | name f =>
        cases subject.unwrapped.kind with
        | name ref =>
          simp only [ExprKind.renumber]
          cases ref.symbol with
          | var v => by_cases test : f.fullName = "builtins.isinstance" <;> simp [test]
          | _ => rfl
        | _ => rfl
      | _ => rfl
  | _ => rfl

end Expr

namespace FuncDef

variable (d : FuncDef)

@[simp] theorem name_renumber : (d.renumber ρ).name = d.name := by cases d; rfl

@[simp] theorem owner_renumber : (d.renumber ρ).owner = d.owner := by cases d; rfl

@[simp] theorem params_renumber : (d.renumber ρ).params = d.params.map (·.renumber ρ) := by
  cases d; rfl

@[simp] theorem body_renumber : (d.renumber ρ).body = renumberBlock ρ d.body := by cases d; rfl

@[simp] theorem signature_renumber : (d.renumber ρ).signature = d.signature := by cases d; rfl

@[simp] theorem isGenerator_renumber : (d.renumber ρ).isGenerator = d.isGenerator := by cases d; rfl

@[simp] theorem span_renumber : (d.renumber ρ).span = d.span := by cases d; rfl

@[simp] theorem isAbstract_renumber : (d.renumber ρ).isAbstract = d.isAbstract := by cases d; rfl

@[simp] theorem earlier_renumber : (d.renumber ρ).earlier = d.earlier := by cases d; rfl

@[simp] theorem symbol_renumber : (d.renumber ρ).symbol = d.symbol := by cases d; rfl

@[simp] theorem type_renumber : (d.renumber ρ).type = d.type := by
  obtain ⟨name, fullName, owner, params, body, signature, isGenerator, span, isAbstract, earlier,
    symbol⟩ := d
  simp [FuncDef.renumber, FuncDef.type, Param.renumber, Function.comp_def]

@[simp] theorem defaults_renumber :
    (d.renumber ρ).defaults = d.defaults.map (·.renumber ρ) := by
  simp only [defaults, params_renumber, List.filterMap_map, List.map_filterMap]
  rfl

end FuncDef

end

/-! ### Own ids -/

section

variable {ρ : NodeId → NodeId}

/-- The ids of the expressions are left as they are. -/
def Spared (ρ : NodeId → NodeId) (es : List Expr) : Prop := ∀ e ∈ es, ρ e.id = e.id

mutual

theorem Expr.renumber_eq_self : (e : Expr) → Spared ρ e.all → e.renumber ρ = e
  | ⟨id, span, kind⟩, h => by
    obtain ⟨own, inside⟩ := List.forall_mem_cons.mp h
    have same : ρ id = id := own
    rw [Expr.renumber, same, kind.renumber_eq_self inside]

theorem ExprKind.renumber_eq_self (kind : ExprKind) (h : Spared ρ kind.inside) :
    kind.renumber ρ = kind := by
  unfold Spared at h
  cases kind with
  | name | int | str | bytes | unicode | float | super | typeVar | placeholder => rfl
  | member base => rw [ExprKind.renumber, base.renumber_eq_self h]
  | call callee args =>
    simp only [ExprKind.inside, List.forall_mem_append] at h
    rw [ExprKind.renumber, callee.renumber_eq_self h.1, renumberActuals_eq_self args h.2]
  | paren inner | cast inner | typeApplication inner | lambda _ inner =>
    rw [ExprKind.renumber, inner.renumber_eq_self h]
  | unary op operand => rw [ExprKind.renumber, operand.renumber_eq_self h]
  | binary op left right =>
    simp only [ExprKind.inside, List.forall_mem_append] at h
    rw [ExprKind.renumber, left.renumber_eq_self h.1, right.renumber_eq_self h.2]
  | index base index =>
    simp only [ExprKind.inside, List.forall_mem_append] at h
    rw [ExprKind.renumber, base.renumber_eq_self h.1, index.renumber_eq_self h.2]
  | list items | set items | tuple items => rw [ExprKind.renumber, renumberExprs_eq_self items h]
  | dict items => rw [ExprKind.renumber, renumberPairs_eq_self items h]
  | slice first last stride =>
    simp only [ExprKind.inside, List.forall_mem_append] at h
    rw [ExprKind.renumber, renumberOption_eq_self first h.1.1, renumberOption_eq_self last h.1.2,
      renumberOption_eq_self stride h.2]
  | listComprehension left clauses | generator left clauses =>
    simp only [ExprKind.inside, List.forall_mem_append] at h
    rw [ExprKind.renumber, left.renumber_eq_self h.1, renumberClauses_eq_self clauses h.2]
  | conditional cond ifTrue ifFalse =>
    simp only [ExprKind.inside, List.forall_mem_append] at h
    rw [ExprKind.renumber, cond.renumber_eq_self h.1.1, ifTrue.renumber_eq_self h.1.2,
      ifFalse.renumber_eq_self h.2]

theorem renumberExprs_eq_self (items : List Expr) (h : Spared ρ (allOfExprs items)) :
    renumberExprs ρ items = items := by
  unfold Spared at h
  cases items with
  | nil => rfl
  | cons e rest =>
    simp only [allOfExprs, List.forall_mem_append] at h
    rw [renumberExprs, e.renumber_eq_self h.1, renumberExprs_eq_self rest h.2]

theorem renumberActuals_eq_self : (args : List Actual) → Spared ρ (allOfActuals args) →
    renumberActuals ρ args = args
  | [], _ => rfl
  | ⟨_, _, value⟩ :: rest, h => by
    simp only [Spared, allOfActuals, List.forall_mem_append] at h
    rw [renumberActuals, value.renumber_eq_self h.1, renumberActuals_eq_self rest h.2]

theorem renumberPairs_eq_self : (items : List (Expr × Expr)) → Spared ρ (allOfPairs items) →
    renumberPairs ρ items = items
  | [], _ => rfl
  | (key, value) :: rest, h => by
    simp only [Spared, allOfPairs, List.forall_mem_append] at h
    rw [renumberPairs, key.renumber_eq_self h.1.1, value.renumber_eq_self h.1.2,
      renumberPairs_eq_self rest h.2]

theorem renumberOption_eq_self (e : Option Expr) (h : Spared ρ (allOfOption e)) :
    renumberOption ρ e = e := by
  cases e with
  | none => rfl
  | some e => rw [renumberOption, e.renumber_eq_self h]

theorem renumberClauses_eq_self : (clauses : List Clause) → Spared ρ (allOfClauses clauses) →
    renumberClauses ρ clauses = clauses
  | [], _ => rfl
  | ⟨targets, sequence, conditions⟩ :: rest, h => by
    simp only [Spared, allOfClauses, List.forall_mem_append] at h
    rw [renumberClauses, renumberExprs_eq_self targets h.1.1.1, sequence.renumber_eq_self h.1.1.2,
      renumberExprs_eq_self conditions h.1.2, renumberClauses_eq_self rest h.2]

end

/-- The expressions of a statement itself are left as they are with all that is in them. -/
theorem Spared.each {es : List Expr} (h : Spared ρ (es.flatMap (·.all))) :
    ∀ e ∈ es, e.renumber ρ = e :=
  fun e listed => e.renumber_eq_self fun x inside => h x (List.mem_flatMap.mpr ⟨e, listed, inside⟩)

theorem map_renumber_eq_self {es : List Expr} (h : ∀ e ∈ es, e.renumber ρ = e) :
    es.map (·.renumber ρ) = es := List.map_congr_left h |>.trans (List.map_id es)

theorem option_renumber_eq_self {e : Option Expr} (h : ∀ x ∈ e.toList, x.renumber ρ = x) :
    e.map (·.renumber ρ) = e := by
  cases e with
  | none => rfl
  | some e => exact congrArg some (h e List.mem_cons_self)

theorem params_renumber_eq_self {params : List Param}
    (h : ∀ e ∈ params.filterMap (·.default), e.renumber ρ = e) :
    params.map (·.renumber ρ) = params := by
  refine (List.map_congr_left fun p listed => ?_).trans (List.map_id params)
  obtain ⟨v, kind, default⟩ := p
  have same : default.map (·.renumber ρ) = default := option_renumber_eq_self fun e given =>
    h e (List.mem_filterMap.mpr ⟨_, listed, Option.mem_toList.mp given⟩)
  exact congrArg (Param.mk v kind) same

/-- The expressions of all statements are left as they are. -/
def PlacesSpared (ρ : NodeId → NodeId) (ps : List Place) : Prop :=
  ∀ p ∈ ps, ∀ e ∈ p.stmt.kind.exprs, e.renumber ρ = e

mutual

theorem Stmt.renumber_eq_self {f : Option FuncDef} :
    (s : Stmt) → PlacesSpared ρ (s.places f) → s.renumber ρ = s
  | ⟨_, kind⟩, h => by
    obtain ⟨own, inner⟩ := List.forall_mem_cons.mp h
    rw [Stmt.renumber, kind.renumber_eq_self own inner]

theorem StmtKind.renumber_eq_self {f : Option FuncDef} (kind : StmtKind)
    (own : ∀ e ∈ kind.exprs, e.renumber ρ = e) (h : PlacesSpared ρ (kind.places f)) :
    kind.renumber ρ = kind := by
  unfold PlacesSpared at h
  cases kind with
  | varDef vars binding isTopLevel init =>
    rw [StmtKind.renumber, option_renumber_eq_self own]
  | func d => rw [StmtKind.renumber, d.renumber_eq_self own h]
  | overloaded items =>
    rw [StmtKind.renumber, renumberFuncDefs_eq_self items
      (fun d listed e given => own e (List.mem_flatMap.mpr ⟨d, listed, given⟩)) h]
  | cls name c body => rw [StmtKind.renumber, renumberBlock_eq_self body h]
  | decorated func decorators =>
    obtain ⟨defaults, wrapped⟩ := List.forall_mem_append.mp own
    rw [StmtKind.renumber, func.renumber_eq_self defaults h, map_renumber_eq_self wrapped]
  | assign targets value =>
    obtain ⟨ht, hv⟩ := List.forall_mem_append.mp own
    rw [StmtKind.renumber, map_renumber_eq_self ht, hv value (List.mem_singleton.mpr rfl)]
  | opAssign op target value =>
    rw [StmtKind.renumber, own target (by simp [StmtKind.exprs]),
      own value (by simp [StmtKind.exprs])]
  | expr e | yield e | assert e | del e =>
    rw [StmtKind.renumber, own e (by simp [StmtKind.exprs])]
  | ret value => rw [StmtKind.renumber, option_renumber_eq_self own]
  | ifElse arms orElse =>
    simp only [StmtKind.places, List.forall_mem_append] at h
    rw [StmtKind.renumber, renumberArms_eq_self arms
      (fun a listed => own a.test (List.mem_map_of_mem listed)) h.1,
      renumberOptionBlock_eq_self orElse h.2]
  | whileLoop test body orElse =>
    simp only [StmtKind.places, List.forall_mem_append] at h
    rw [StmtKind.renumber, own test (by simp [StmtKind.exprs]), renumberBlock_eq_self body h.1,
      renumberOptionBlock_eq_self orElse h.2]
  | forLoop targets isAnnotated sequence body orElse =>
    simp only [StmtKind.places, List.forall_mem_append] at h
    obtain ⟨ht, hs⟩ := List.forall_mem_append.mp own
    rw [StmtKind.renumber, map_renumber_eq_self ht, hs sequence (List.mem_singleton.mpr rfl),
      renumberBlock_eq_self body h.1, renumberOptionBlock_eq_self orElse h.2]
  | withBlock items body =>
    have each : items.map (fun (manager, target) =>
        (manager.renumber ρ, target.map (·.renumber ρ))) = items := by
      refine (List.map_congr_left fun (manager, target) listed => ?_).trans (List.map_id items)
      have both : ∀ e ∈ manager :: target.toList, e.renumber ρ = e := fun e given =>
        own e (List.mem_flatMap.mpr ⟨_, listed, given⟩)
      obtain ⟨hm, ht⟩ := List.forall_mem_cons.mp both
      exact Prod.ext hm (option_renumber_eq_self ht)
    rw [StmtKind.renumber, each, renumberBlock_eq_self body h]
  | raise value cause =>
    obtain ⟨hv, hc⟩ := List.forall_mem_append.mp own
    rw [StmtKind.renumber, option_renumber_eq_self hv, option_renumber_eq_self hc]
  | tryBlock body handlers orElse atEnd =>
    simp only [StmtKind.places, List.forall_mem_append] at h
    have parts : ∀ c ∈ handlers, ∀ e ∈ c.type.toList ++ c.var.toList, e.renumber ρ = e :=
      fun c listed e given => own e (List.mem_flatMap.mpr ⟨c, listed, given⟩)
    rw [StmtKind.renumber, renumberBlock_eq_self body h.1.1.1,
      renumberHandlers_eq_self handlers parts h.1.1.2, renumberOptionBlock_eq_self orElse h.1.2,
      renumberOptionBlock_eq_self atEnd h.2]
  | print args =>
    have each : ∀ e ∈ args, e.renumber ρ = e := own
    rw [StmtKind.renumber, map_renumber_eq_self each]
  | pass | breakLoop | continueLoop | globals | imports => rfl

theorem FuncDef.renumber_eq_self : (d : FuncDef) → (∀ e ∈ d.defaults, e.renumber ρ = e) →
    PlacesSpared ρ d.places → d.renumber ρ = d
  | ⟨name, fullName, owner, params, body, signature, isGenerator, span, isAbstract, earlier,
      symbol⟩, defaults, h => by
    rw [FuncDef.renumber, params_renumber_eq_self defaults, renumberBlock_eq_self body h]

theorem renumberFuncDefs_eq_self (items : List FuncDef)
    (own : ∀ d ∈ items, ∀ e ∈ d.defaults, e.renumber ρ = e)
    (h : PlacesSpared ρ (placesOfEach items)) : renumberFuncDefs ρ items = items := by
  unfold PlacesSpared at h
  cases items with
  | nil => rfl
  | cons d rest =>
    simp only [placesOfEach, List.forall_mem_append] at h
    obtain ⟨first, others⟩ := List.forall_mem_cons.mp own
    rw [renumberFuncDefs, d.renumber_eq_self first h.1, renumberFuncDefs_eq_self rest others h.2]

theorem renumberBlock_eq_self {f : Option FuncDef} (b : List Stmt)
    (h : PlacesSpared ρ (blockPlaces f b)) : renumberBlock ρ b = b := by
  unfold PlacesSpared at h
  cases b with
  | nil => rfl
  | cons s rest =>
    simp only [blockPlaces, List.forall_mem_append] at h
    rw [renumberBlock, s.renumber_eq_self h.1, renumberBlock_eq_self rest h.2]

theorem renumberOptionBlock_eq_self {f : Option FuncDef} (b : Option (List Stmt))
    (h : PlacesSpared ρ (optionPlaces f b)) : renumberOptionBlock ρ b = b := by
  cases b with
  | none => rfl
  | some b => rw [renumberOptionBlock, renumberBlock_eq_self b h]

theorem renumberArms_eq_self {f : Option FuncDef} : (arms : List Arm) →
    (∀ a ∈ arms, a.test.renumber ρ = a.test) → PlacesSpared ρ (armPlaces f arms) →
    renumberArms ρ arms = arms
  | [], _, _ => rfl
  | ⟨test, body⟩ :: rest, tests, h => by
    simp only [PlacesSpared, armPlaces, List.forall_mem_append] at h
    obtain ⟨first, others⟩ := List.forall_mem_cons.mp tests
    have same : test.renumber ρ = test := first
    rw [renumberArms, same, renumberBlock_eq_self body h.1, renumberArms_eq_self rest others h.2]

theorem renumberHandlers_eq_self {f : Option FuncDef} : (handlers : List Handler) →
    (∀ c ∈ handlers, ∀ e ∈ c.type.toList ++ c.var.toList, e.renumber ρ = e) →
    PlacesSpared ρ (handlerPlaces f handlers) → renumberHandlers ρ handlers = handlers
  | [], _, _ => rfl
  | ⟨type, v, body⟩ :: rest, parts, h => by
    simp only [PlacesSpared, handlerPlaces, List.forall_mem_append] at h
    obtain ⟨first, others⟩ := List.forall_mem_cons.mp parts
    obtain ⟨ht, hv⟩ := List.forall_mem_append.mp first
    rw [renumberHandlers, option_renumber_eq_self ht, option_renumber_eq_self hv,
      renumberBlock_eq_self body h.1, renumberHandlers_eq_self rest others h.2]

end

/-- A block is left as it is if its ids are. -/
theorem Block.renumber_eq_self (b : Block) (own : ∀ id ∈ b.nodes, ρ id = id) :
    renumberBlock ρ b = b := by
  refine renumberBlock_eq_self (f := none) b fun p place => Spared.each fun x inside => ?_
  obtain ⟨e, part, inside⟩ := List.mem_flatMap.mp inside
  exact own x.id (List.mem_flatMap.mpr
    ⟨p, place, List.mem_flatMap.mpr ⟨e, part, List.mem_map_of_mem inside⟩⟩)

end
end Gradual
