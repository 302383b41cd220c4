import Gradual.Proofs.CopyRules
import Gradual.Proofs.Outline
import Mathlib.Data.List.Perm.Basic

/-!
Copies of expressions: of the same outline, with an id for each expression in them.
-/

namespace Gradual
namespace Copy

variable {first : VarId} {i j : List NodeId}

/-- A copy of a part of a tree, and of the expressions in it. -/
structure Copied {α : Type} (first : VarId) (outline : α → α) (all : α → List Expr) (orig : α)
    (ids : List NodeId) (copy : α) : Prop where
  outline : outline copy = outline orig
  exprs : Renamed first ids (all copy) (all orig)

/-- A copy of what kind of expression there is. -/
structure KindCopied (first : VarId) (orig : ExprKind) (ids : List NodeId) (copy : ExprKind) : Prop
    extends Copied first ExprKind.outline ExprKind.inside orig ids copy where
  own : ∀ e : Expr, e.kind = copy → ∀ o : Expr, o.kind = orig → e.Renames first o

/-- Most kinds of expressions introduce no variables of their own. -/
theorem KindCopied.plain {orig copy : ExprKind} (outline : copy.outline = orig.outline)
    (exprs : Renamed first i copy.inside orig.inside)
    (retypings : ∀ id span, Expr.retypings ⟨id, span, copy⟩ = [])
    (introduces : ∀ id span, Expr.introduces ⟨id, span, copy⟩ = []) :
    KindCopied first orig i copy where
  outline := outline
  exprs := exprs
  own := by
    rintro ⟨id, span, kind⟩ rfl o _
    exact ⟨by simp [retypings], by simp [introduces]⟩

/-- A kind of expression that has no parts. -/
theorem KindCopied.leaf {orig copy : ExprKind} (outline : copy.outline = orig.outline)
    (inside : copy.inside = []) (inside' : orig.inside = [])
    (own : ∀ e : Expr, e.kind = copy → ∀ o : Expr, o.kind = orig → e.Renames first o) :
    KindCopied first orig [] copy where
  outline := outline
  exprs := by
    rw [inside, inside']
    exact .nil
  own := own

/-- What is made of all items of a list. -/
theorem Takes.mapM {α γ : Type} {outline : α → α} {all : α → List Expr} {f : γ → Copy α}
    {orig : γ → α} {xs : List γ}
    (h : ∀ c ∈ xs, Takes first (f c) (Copied first outline all (orig c))) :
    Takes first (xs.mapM f)
      (Copied first (List.map outline) (fun as => as.flatMap all) (xs.map orig)) := by
  induction xs with
  | nil => exact .pure ⟨rfl, .nil⟩
  | cons c xs ih =>
    rw [List.mapM_cons]
    apply (h c List.mem_cons_self).bind
    intro i a ha
    refine (ih fun d hd => h d (List.mem_cons_of_mem _ hd)).done fun j as hr => ⟨?_, ?_⟩
    · rw [List.map_cons, List.map_cons, List.map_cons, ha.outline, hr.outline]
    · simp only [List.map_cons, List.flatMap_cons]
      exact ha.exprs.append hr.exprs

abbrev ExprsCopied (first : VarId) := Copied first outlineExprs allOfExprs

abbrev ListsCopied (first : VarId) :=
  Copied first (List.map outlineExprs) fun lists => lists.flatMap allOfExprs

/-! ### Expressions -/

/-- What is in the clauses of a comprehension, by the parts of the clauses. -/
theorem allOfClauses_perm (clauses : List Clause) :
    (allOfClauses clauses).Perm
      (allOfExprs (clauses.map (·.sequence)) ++
        ((clauses.map (·.targets)).flatMap allOfExprs ++
          (clauses.map (·.conditions)).flatMap allOfExprs)) := by
  have byParts : allOfClauses clauses = clauses.flatMap fun c =>
      allOfExprs c.targets ++ (c.sequence.all ++ allOfExprs c.conditions) := by
    rw [allOfClauses_eq]
    simp only [allOfExprs_eq, List.append_assoc]
  rw [byParts, allOfExprs_eq, List.flatMap_map, List.flatMap_map, List.flatMap_map]
  refine (List.flatMap_append_perm ..).symm.trans ?_
  refine ((List.flatMap_append_perm ..).symm.append_left _).trans ?_
  exact List.perm_append_comm_assoc ..

theorem outlineExprs_eq (items : List Expr) : outlineExprs items = items.map Expr.outline := by
  induction items with
  | nil => rfl
  | cons e rest ih => rw [outlineExprs, ih, List.map_cons]

/-- Clauses that agree in all their parts have one outline. -/
theorem outlineClauses_eq_of_parts {clauses clauses' : List Clause}
    (sequences : outlineExprs (clauses.map (·.sequence)) = outlineExprs (clauses'.map (·.sequence)))
    (targets : (clauses.map (·.targets)).map outlineExprs =
      (clauses'.map (·.targets)).map outlineExprs)
    (conditions : (clauses.map (·.conditions)).map outlineExprs =
      (clauses'.map (·.conditions)).map outlineExprs) :
    outlineClauses clauses = outlineClauses clauses' := by
  rw [outlineExprs_eq, outlineExprs_eq] at sequences
  simp only [List.map_map] at sequences targets conditions
  rw [outlineClauses_eq, outlineClauses_eq]
  have pairs := map_eq_of_parts (h := fun c : Clause => (c.sequence.outline, outlineExprs c.conditions))
    Prod.mk (fun _ => rfl) sequences conditions
  exact map_eq_of_parts (fun t p => ⟨t, p.1, p.2⟩) (fun _ => rfl) targets pairs

/-- Clauses that are put together from copies of their parts. -/
theorem clauses_copied {clauses : List Clause} {k : List NodeId} {sequences : List Expr}
    {targets conditions : List (List Expr)}
    (hs : ExprsCopied first (clauses.map (·.sequence)) i sequences)
    (ht : ListsCopied first (clauses.map (·.targets)) j targets)
    (hc : ListsCopied first (clauses.map (·.conditions)) k conditions) :
    Copied first outlineClauses allOfClauses clauses (i ++ (j ++ k))
      ((targets.zip (sequences.zip conditions)).map fun (t, s, c) => ⟨t, s, c⟩) := by
  have manySequences : sequences.length = clauses.length := by
    have same := congrArg List.length hs.outline
    simpa [outlineExprs_eq] using same
  have manyTargets : targets.length = clauses.length := by
    simpa using congrArg List.length ht.outline
  have manyConditions : conditions.length = clauses.length := by
    simpa using congrArg List.length hc.outline
  obtain ⟨madeTargets, madeSequences, madeConditions⟩ := clauses_parts targets sequences
    conditions (by omega) (by omega)
  -- From here on the copies are clauses whose parts are known, not lists that were zipped.
  generalize ((targets.zip (sequences.zip conditions)).map fun (t, s, c) => (⟨t, s, c⟩ : Clause)) =
    copies at madeTargets madeSequences madeConditions ⊢
  rw [← madeSequences] at hs
  rw [← madeTargets] at ht
  rw [← madeConditions] at hc
  exact ⟨outlineClauses_eq_of_parts hs.outline ht.outline hc.outline,
    (hs.exprs.append (ht.exprs.append hc.exprs)).perm (allOfClauses_perm copies)
      (allOfClauses_perm clauses)⟩

theorem types_takes {types : List Ty} : Takes first (types.mapM type) fun i copies =>
    i = [] ∧ (copies.map fun _ => Ty.any) = types.map fun _ => Ty.any := by
  have counted : Takes first (types.mapM type) fun i copies =>
      i = [] ∧ copies.length = types.length ∧ ∀ t ∈ copies, True :=
    Takes.mapM_skip fun _ _ => type_takes
  refine counted.imp fun i copies ⟨none_taken, count, _⟩ => ⟨none_taken, ?_⟩
  rw [List.map_const', List.map_const', count]

end Copy

open Copy

section Expressions

variable {first : VarId}

mutual

/-- The id of a copy comes behind those of its parts. -/
theorem Expr.copy_takes : (e : Expr) → Takes first e.copy (Copied first Expr.outline Expr.all e)
  | ⟨id, span, kind⟩ => by
    unfold Expr.copy
    apply kind.copy_takes.bind
    intro i copy made
    refine freshNode_takes.done fun j id' taken => ?_
    subst taken
    have own : Renamed first [id'] [⟨id', span, copy⟩] [⟨id, span, kind⟩] :=
      ⟨.refl _, by simpa using made.own _ rfl _ rfl⟩
    refine ⟨by rw [Expr.outline, Expr.outline, made.outline], ?_⟩
    -- The expression is listed before its parts and gets its id behind them.
    have swap : ∀ e : Expr, (e :: e.kind.inside).Perm (e.kind.inside ++ [e]) := fun e =>
      (List.perm_append_singleton e e.kind.inside).symm
    exact (made.exprs.append own).perm (swap ⟨id', span, copy⟩) (swap ⟨id, span, kind⟩)

theorem ExprKind.copy_takes (kind : ExprKind) : Takes first kind.copy (KindCopied first kind) := by
  cases kind with
  | name ref =>
    unfold ExprKind.copy
    refine name_takes.done fun i copy ⟨none_taken, outline, vars⟩ => none_taken ▸ ?_
    refine .leaf ?_ rfl rfl ?_
    · rw [ExprKind.outline, ExprKind.outline, outline]
    · rintro ⟨id, span, kind⟩ rfl ⟨id', span', kind'⟩ rfl
      refine ⟨by simp [Expr.retypings], fun v introduced => (vars v introduced).imp_right ?_⟩
      rintro ⟨shared, introduced⟩
      simpa [Expr.shares, shared] using introduced
  | member base name defined isDef =>
    unfold ExprKind.copy
    refine base.copy_takes.done fun i copy hb => ⟨⟨?_, hb.exprs⟩, ?_⟩
    · rw [ExprKind.outline, ExprKind.outline, hb.outline]
    · rintro ⟨id, span, kind⟩ rfl ⟨id', span', kind'⟩ rfl
      refine ⟨by simp [Expr.retypings], fun v introduced => .inr ?_⟩
      cases defined <;> cases isDef <;> exact introduced
  | call callee args =>
    unfold ExprKind.copy
    apply callee.copy_takes.bind
    intro i _ hc
    refine (copyActuals_takes args).done fun j _ ha => ?_
    refine .plain ?_ (hc.exprs.append ha.exprs) (fun _ _ => rfl) fun _ _ => rfl
    rw [ExprKind.outline, ExprKind.outline, hc.outline, ha.outline]
  | paren inner =>
    unfold ExprKind.copy
    refine inner.copy_takes.done fun i _ hi => .plain ?_ hi.exprs (fun _ _ => rfl) fun _ _ => rfl
    rw [ExprKind.outline, ExprKind.outline, hi.outline]
  | int | str | bytes | unicode | float | super | typeVar =>
    unfold ExprKind.copy
    exact .pure (.plain rfl .nil (fun _ _ => rfl) fun _ _ => rfl)
  | binary op left right =>
    unfold ExprKind.copy
    apply left.copy_takes.bind
    intro i _ hl
    refine right.copy_takes.done fun j _ hr => ?_
    refine .plain ?_ (hl.exprs.append hr.exprs) (fun _ _ => rfl) fun _ _ => rfl
    rw [ExprKind.outline, ExprKind.outline, hl.outline, hr.outline]
  | unary op operand =>
    unfold ExprKind.copy
    refine operand.copy_takes.done fun i _ ho => .plain ?_ ho.exprs (fun _ _ => rfl) fun _ _ => rfl
    rw [ExprKind.outline, ExprKind.outline, ho.outline]
  | index base index =>
    unfold ExprKind.copy
    apply base.copy_takes.bind
    intro i _ hb
    refine index.copy_takes.done fun j _ hi => ?_
    refine .plain ?_ (hb.exprs.append hi.exprs) (fun _ _ => rfl) fun _ _ => rfl
    rw [ExprKind.outline, ExprKind.outline, hb.outline, hi.outline]
  | cast inner t =>
    unfold ExprKind.copy
    apply inner.copy_takes.bind
    intro i _ hi
    refine type_takes.done fun j _ ⟨none_taken, _⟩ => ?_
    rw [none_taken, List.append_nil]
    refine .plain ?_ hi.exprs (fun _ _ => rfl) fun _ _ => rfl
    rw [ExprKind.outline, ExprKind.outline, hi.outline]
  | typeApplication inner types =>
    unfold ExprKind.copy
    apply inner.copy_takes.bind
    intro i _ hi
    refine types_takes.done fun j _ ⟨none_taken, same⟩ => ?_
    rw [none_taken, List.append_nil]
    refine .plain ?_ hi.exprs (fun _ _ => rfl) fun _ _ => rfl
    rw [ExprKind.outline, ExprKind.outline, hi.outline, same]
  | list items | set items | tuple items =>
    unfold ExprKind.copy
    refine (copyExprs_takes items).done fun i _ hi => ?_
    refine .plain ?_ hi.exprs (fun _ _ => rfl) fun _ _ => rfl
    rw [ExprKind.outline, ExprKind.outline, hi.outline]
  | dict items =>
    unfold ExprKind.copy
    refine (copyPairs_takes items).done fun i _ hi => ?_
    refine .plain ?_ hi.exprs (fun _ _ => rfl) fun _ _ => rfl
    rw [ExprKind.outline, ExprKind.outline, hi.outline]
  | slice start last stride =>
    unfold ExprKind.copy
    apply (copyOption_takes start).bind
    intro i _ hf
    apply (copyOption_takes last).bind
    intro j _ hl
    refine (copyOption_takes stride).done fun k _ hs => ?_
    refine .plain ?_ ?_ (fun _ _ => rfl) fun _ _ => rfl
    · rw [ExprKind.outline, ExprKind.outline, hf.outline, hl.outline, hs.outline]
    · rw [← List.append_assoc]
      exact (hf.exprs.append hl.exprs).append hs.exprs
  | lambda params body =>
    unfold ExprKind.copy
    apply lambdaParams_takes.skip
    intro copy ⟨outline, fresh⟩
    refine body.copy_takes.done fun i _ hb => ⟨⟨?_, hb.exprs⟩, ?_⟩
    · rw [ExprKind.outline, ExprKind.outline, hb.outline]
      exact congrArg (ExprKind.lambda · _) outline
    · rintro ⟨id, span, kind⟩ rfl o _
      refine ⟨fun r given => ?_, by simp [Expr.introduces]⟩
      obtain ⟨p, member, rfl⟩ := List.mem_map.mp given
      exact fresh p member
  | listComprehension left clauses | generator left clauses =>
    unfold ExprKind.copy
    apply (copyClauses_takes clauses).bind
    intro i _ hc
    refine left.copy_takes.done fun j _ hl => ?_
    refine .plain ?_ ?_ (fun _ _ => rfl) fun _ _ => rfl
    · rw [ExprKind.outline, ExprKind.outline, hl.outline, hc.outline]
    -- The clauses are copied before the part that stands in front of them and uses their variables.
    · exact (hc.exprs.append hl.exprs).perm List.perm_append_comm List.perm_append_comm
  | placeholder t =>
    cases t with
    | none =>
      unfold ExprKind.copy
      exact .pure (.plain rfl .nil (fun _ _ => rfl) fun _ _ => rfl)
    | some t =>
      unfold ExprKind.copy
      refine type_takes.done fun i _ ⟨none_taken, _⟩ => none_taken ▸ ?_
      exact .plain rfl .nil (fun _ _ => rfl) fun _ _ => rfl
  | conditional cond ifTrue ifFalse =>
    unfold ExprKind.copy
    apply cond.copy_takes.bind
    intro i _ hc
    apply ifTrue.copy_takes.bind
    intro j _ ht
    refine ifFalse.copy_takes.done fun k _ hf => ?_
    refine .plain ?_ ?_ (fun _ _ => rfl) fun _ _ => rfl
    · rw [ExprKind.outline, ExprKind.outline, hc.outline, ht.outline, hf.outline]
    · rw [← List.append_assoc]
      exact (hc.exprs.append ht.exprs).append hf.exprs

theorem copyExprs_takes (items : List Expr) :
    Takes first (copyExprs items) (ExprsCopied first items) := by
  cases items with
  | nil =>
    unfold copyExprs
    exact .pure ⟨rfl, .nil⟩
  | cons e rest =>
    unfold copyExprs
    apply e.copy_takes.bind
    intro i _ he
    refine (copyExprs_takes rest).done fun j _ hr => ⟨?_, he.exprs.append hr.exprs⟩
    rw [outlineExprs, outlineExprs, he.outline, hr.outline]

theorem copyActuals_takes : (args : List Actual) →
    Takes first (copyActuals args) (Copied first outlineActuals allOfActuals args)
  | [] => by
    unfold copyActuals
    exact .pure ⟨rfl, .nil⟩
  | ⟨_, _, value⟩ :: rest => by
    unfold copyActuals
    apply value.copy_takes.bind
    intro i _ hv
    refine (copyActuals_takes rest).done fun j _ hr => ⟨?_, hv.exprs.append hr.exprs⟩
    rw [outlineActuals, outlineActuals, hv.outline, hr.outline]

theorem copyPairs_takes : (items : List (Expr × Expr)) →
    Takes first (copyPairs items) (Copied first outlinePairs allOfPairs items)
  | [] => by
    unfold copyPairs
    exact .pure ⟨rfl, .nil⟩
  | (key, value) :: rest => by
    unfold copyPairs
    apply key.copy_takes.bind
    intro i _ hk
    apply value.copy_takes.bind
    intro j _ hv
    refine (copyPairs_takes rest).done fun k _ hr => ⟨?_, ?_⟩
    · rw [outlinePairs, outlinePairs, hk.outline, hv.outline, hr.outline]
    · rw [← List.append_assoc]
      exact (hk.exprs.append hv.exprs).append hr.exprs

theorem copyOption_takes (e : Option Expr) :
    Takes first (copyOption e) (Copied first outlineOption allOfOption e) := by
  cases e with
  | none =>
    unfold copyOption
    exact .pure ⟨rfl, .nil⟩
  | some e =>
    unfold copyOption
    refine e.copy_takes.done fun i _ he => ⟨?_, he.exprs⟩
    rw [outlineOption, outlineOption, he.outline]

theorem copyClauses_takes (clauses : List Clause) :
    Takes first (copyClauses clauses) (Copied first outlineClauses allOfClauses clauses) := by
  unfold copyClauses
  apply (copySequences_takes clauses).bind
  intro i sequences hs
  apply (copyTargets_takes clauses).bind
  intro j targets ht
  exact (copyConditions_takes clauses).done fun k conditions hc => clauses_copied hs ht hc

theorem copySequences_takes : (clauses : List Clause) →
    Takes first (copySequences clauses) (ExprsCopied first (clauses.map (·.sequence)))
  | [] => by
    unfold copySequences
    exact .pure ⟨rfl, .nil⟩
  | ⟨_, sequence, _⟩ :: rest => by
    unfold copySequences
    apply sequence.copy_takes.bind
    intro i _ hs
    refine (copySequences_takes rest).done fun j _ hr => ⟨?_, hs.exprs.append hr.exprs⟩
    rw [List.map_cons, outlineExprs, outlineExprs, hs.outline, hr.outline]

theorem copyTargets_takes : (clauses : List Clause) →
    Takes first (copyTargets clauses) (ListsCopied first (clauses.map (·.targets)))
  | [] => by
    unfold copyTargets
    exact .pure ⟨rfl, .nil⟩
  | ⟨targets, _, _⟩ :: rest => by
    unfold copyTargets
    apply (copyExprs_takes targets).bind
    intro i _ ht
    refine (copyTargets_takes rest).done fun j _ hr => ⟨?_, ht.exprs.append hr.exprs⟩
    rw [List.map_cons, List.map_cons, List.map_cons, ht.outline, hr.outline]

theorem copyConditions_takes : (clauses : List Clause) →
    Takes first (copyConditions clauses) (ListsCopied first (clauses.map (·.conditions)))
  | [] => by
    unfold copyConditions
    exact .pure ⟨rfl, .nil⟩
  | ⟨_, _, conditions⟩ :: rest => by
    unfold copyConditions
    apply (copyExprs_takes conditions).bind
    intro i _ hc
    refine (copyConditions_takes rest).done fun j _ hr => ⟨?_, hc.exprs.append hr.exprs⟩
    rw [List.map_cons, List.map_cons, List.map_cons, hc.outline, hr.outline]

end

end Expressions

end Gradual
