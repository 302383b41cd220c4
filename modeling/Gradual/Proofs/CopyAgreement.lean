import Gradual.Proofs.Agreement
import Gradual.Proofs.CopyRules
import Gradual.Proofs.Renumbering

/-!
Copies with other ids: a copy that is made from another first id on, of a tree with whatever ids, is the
same copy with other ids.
-/

namespace Gradual

/-- States of copying with different next ids: the ids of the first are changed to those of the
second. -/
inductive CopyState.Alike (ρ : NodeId → NodeId) (c : CopyState) : CopyState → Prop
  | intro (n : NodeId) (next : ∀ k, ρ (c.nextNode + k) = n + k) : Alike ρ c { c with nextNode := n }

namespace CopyState.Alike

variable {ρ : NodeId → NodeId} {c d : CopyState} (h : CopyState.Alike ρ c d)

include h

theorem vars_eq : d.vars = c.vars := by cases h; rfl

theorem next : ∀ k, ρ (c.nextNode + k) = d.nextNode + k := by
  cases h with
  | intro n next => exact next

end CopyState.Alike

namespace Copy

variable {ρ : NodeId → NodeId} {α β : Type}

/-- The second makes what the first makes with other ids. -/
abbrev Renumbers (ρ : NodeId → NodeId) (renumber : α → β) (x : Copy α) (y : Copy β) : Prop :=
  Agree (CopyState.Alike ρ) (fun a b => b = renumber a) x y

/-- Both make the same. -/
abbrev Same (ρ : NodeId → NodeId) (x y : Copy α) : Prop := Agree (CopyState.Alike ρ) Eq x y

theorem freshNode_renumbers : Renumbers ρ ρ freshNode freshNode := by
  rintro args c _ ⟨n, next⟩
  refine ⟨(next 0).symm, .intro (n + 1) fun k => ?_⟩
  have shifted := next (1 + k)
  rwa [← Nat.add_assoc, ← Nat.add_assoc] at shifted

theorem freshVar_same {v : Var} : Same ρ (freshVar v) (freshVar v) := by
  rintro args c _ ⟨n, next⟩
  exact ⟨rfl, .intro n next⟩

theorem type_same {t : Ty} : Same ρ (type t) (type t) := fun _ _ _ related => ⟨rfl, related⟩

theorem signature_same {s : Option Signature} :
    Same ρ (s.mapM Copy.signature) (s.mapM Copy.signature) := by
  cases s <;> exact fun _ _ _ related => ⟨rfl, related⟩

theorem name_same {ref : NameRef} : Same ρ (name ref) (name ref) := by
  cases names : ref.symbol with
  | func | cls | module | typeVar =>
    obtain ⟨name, fullName, binding, symbol, isDef⟩ := ref
    cases names
    exact .done
  | var v =>
    rintro args c _ ⟨n, next⟩
    rw [run_name_var ref v names, run_name_var ref v names]
    dsimp only
    split
    · exact ⟨rfl, .intro n next⟩
    · exact ⟨rfl, .intro n next⟩

theorem vars_same {vars : List Var} : Same ρ (vars.mapM freshVar) (vars.mapM freshVar) :=
  .mapM_same fun _ _ => freshVar_same

theorem lambdaParams_same {params : List (Var × ArgKind)} :
    Same ρ (lambdaParams params) (lambdaParams params) :=
  .mapM_same fun _ _ => freshVar_same.seq fun _ => .done

theorem types_same {types : List Ty} : Same ρ (types.mapM type) (types.mapM type) :=
  .mapM_same fun _ _ => type_same

theorem definedVars_same {vars : List Var} {binding : Binding} :
    Same ρ (definedVars vars binding) (definedVars vars binding) := by
  unfold definedVars
  split
  · exact vars_same
  · exact .done

/-- Clauses that are put together from parts with other ids. -/
theorem renumberClauses_zip (targets : List (List Expr)) (sequences : List Expr)
    (conditions : List (List Expr)) :
    renumberClauses ρ ((targets.zip (sequences.zip conditions)).map fun (t, s, c) => ⟨t, s, c⟩) =
      ((targets.map (renumberExprs ρ)).zip
        ((renumberExprs ρ sequences).zip (conditions.map (renumberExprs ρ)))).map
        fun (t, s, c) => ⟨t, s, c⟩ := by
  rw [renumberClauses_eq, renumberExprs_eq, List.zip_map, List.zip_map]
  simp

end Copy

open Copy

/-! ### Expressions -/

section

variable {ρ : NodeId → NodeId}

mutual

theorem Expr.copy_renumbers : (e : Expr) →
    Renumbers ρ (Expr.renumber ρ) e.copy (e.renumber ρ).copy
  | ⟨_, _, kind⟩ => by
    rw [Expr.renumber]
    unfold Expr.copy
    refine kind.copy_renumbers.bind fun _ _ hk => freshNode_renumbers.last fun _ _ hn => ?_
    rw [hk, hn, Expr.renumber]

theorem ExprKind.copy_renumbers (kind : ExprKind) :
    Renumbers ρ (ExprKind.renumber ρ) kind.copy (kind.renumber ρ).copy := by
  cases kind with
  | name ref =>
    unfold ExprKind.renumber ExprKind.copy
    exact name_same.seq fun _ => .pure rfl
  | member base =>
    unfold ExprKind.renumber ExprKind.copy
    exact base.copy_renumbers.last fun _ _ hb => by rw [hb, ExprKind.renumber]
  | call callee args =>
    unfold ExprKind.renumber ExprKind.copy
    refine callee.copy_renumbers.bind fun _ _ hc =>
      (copyActuals_renumbers args).last fun _ _ ha => ?_
    rw [hc, ha, ExprKind.renumber]
  | paren inner =>
    unfold ExprKind.renumber ExprKind.copy
    exact inner.copy_renumbers.last fun _ _ hi => by rw [hi, ExprKind.renumber]
  | int | str | bytes | unicode | float | super | typeVar =>
    unfold ExprKind.renumber ExprKind.copy
    exact .pure rfl
  | binary op left right =>
    unfold ExprKind.renumber ExprKind.copy
    refine left.copy_renumbers.bind fun _ _ hl => right.copy_renumbers.last fun _ _ hr => ?_
    rw [hl, hr, ExprKind.renumber]
  | unary op operand =>
    unfold ExprKind.renumber ExprKind.copy
    exact operand.copy_renumbers.last fun _ _ ho => by rw [ho, ExprKind.renumber]
  | index base index =>
    unfold ExprKind.renumber ExprKind.copy
    refine base.copy_renumbers.bind fun _ _ hb => index.copy_renumbers.last fun _ _ hi => ?_
    rw [hb, hi, ExprKind.renumber]
  | cast inner t =>
    unfold ExprKind.renumber ExprKind.copy
    refine inner.copy_renumbers.bind fun _ _ hi => type_same.last fun _ _ ht => ?_
    rw [hi, ht, ExprKind.renumber]
  | typeApplication inner types =>
    unfold ExprKind.renumber ExprKind.copy
    refine inner.copy_renumbers.bind fun _ _ hi => types_same.last fun _ _ ht => ?_
    rw [hi, ht, ExprKind.renumber]
  | list items | set items | tuple items =>
    unfold ExprKind.renumber ExprKind.copy
    exact (copyExprs_renumbers items).last fun _ _ hi => by rw [hi, ExprKind.renumber]
  | dict items =>
    unfold ExprKind.renumber ExprKind.copy
    exact (copyPairs_renumbers items).last fun _ _ hi => by rw [hi, ExprKind.renumber]
  | slice start last stride =>
    unfold ExprKind.renumber ExprKind.copy
    refine (copyOption_renumbers start).bind fun _ _ hf => (copyOption_renumbers last).bind
      fun _ _ hl => (copyOption_renumbers stride).last fun _ _ hs => ?_
    rw [hf, hl, hs, ExprKind.renumber]
  | lambda params body =>
    unfold ExprKind.renumber ExprKind.copy
    refine lambdaParams_same.bind fun _ _ hp => body.copy_renumbers.last fun _ _ hb => ?_
    rw [hp, hb, ExprKind.renumber]
  | listComprehension left clauses | generator left clauses =>
    unfold ExprKind.renumber ExprKind.copy
    refine (copyClauses_renumbers clauses).bind fun _ _ hc => left.copy_renumbers.last
      fun _ _ hl => ?_
    rw [hc, hl, ExprKind.renumber]
  | placeholder t =>
    cases t with
    | none =>
      unfold ExprKind.renumber ExprKind.copy
      exact .pure rfl
    | some t =>
      unfold ExprKind.renumber ExprKind.copy
      exact type_same.last fun _ _ ht => by rw [ht, ExprKind.renumber]
  | conditional cond ifTrue ifFalse =>
    unfold ExprKind.renumber ExprKind.copy
    refine cond.copy_renumbers.bind fun _ _ hc => ifTrue.copy_renumbers.bind fun _ _ ht =>
      ifFalse.copy_renumbers.last fun _ _ hf => ?_
    rw [hc, ht, hf, ExprKind.renumber]

theorem copyExprs_renumbers (items : List Expr) :
    Renumbers ρ (renumberExprs ρ) (copyExprs items) (copyExprs (renumberExprs ρ items)) := by
  cases items with
  | nil =>
    unfold renumberExprs copyExprs
    exact .pure rfl
  | cons e rest =>
    unfold renumberExprs copyExprs
    refine e.copy_renumbers.bind fun _ _ he => (copyExprs_renumbers rest).last fun _ _ hr => ?_
    rw [he, hr, renumberExprs]

theorem copyActuals_renumbers : (args : List Actual) →
    Renumbers ρ (renumberActuals ρ) (copyActuals args) (copyActuals (renumberActuals ρ args))
  | [] => by
    unfold renumberActuals copyActuals
    exact .pure rfl
  | ⟨_, _, value⟩ :: rest => by
    unfold renumberActuals copyActuals
    refine value.copy_renumbers.bind fun _ _ hv => (copyActuals_renumbers rest).last fun _ _ hr => ?_
    rw [hv, hr, renumberActuals]

theorem copyPairs_renumbers : (items : List (Expr × Expr)) →
    Renumbers ρ (renumberPairs ρ) (copyPairs items) (copyPairs (renumberPairs ρ items))
  | [] => by
    unfold renumberPairs copyPairs
    exact .pure rfl
  | (key, value) :: rest => by
    unfold renumberPairs copyPairs
    refine key.copy_renumbers.bind fun _ _ hk => value.copy_renumbers.bind fun _ _ hv =>
      (copyPairs_renumbers rest).last fun _ _ hr => ?_
    rw [hk, hv, hr, renumberPairs]

theorem copyOption_renumbers (e : Option Expr) :
    Renumbers ρ (renumberOption ρ) (copyOption e) (copyOption (renumberOption ρ e)) := by
  cases e with
  | none =>
    unfold renumberOption copyOption
    exact .pure rfl
  | some e =>
    unfold renumberOption copyOption
    exact e.copy_renumbers.last fun _ _ he => by rw [he, renumberOption]

theorem copyClauses_renumbers (clauses : List Clause) :
    Renumbers ρ (renumberClauses ρ) (copyClauses clauses)
      (copyClauses (renumberClauses ρ clauses)) := by
  unfold copyClauses
  refine (copySequences_renumbers clauses).bind fun _ _ hs => (copyTargets_renumbers clauses).bind
    fun _ _ ht => (copyConditions_renumbers clauses).last fun _ _ hc => ?_
  rw [hs, ht, hc, renumberClauses_zip]

theorem copySequences_renumbers : (clauses : List Clause) →
    Renumbers ρ (renumberExprs ρ) (copySequences clauses)
      (copySequences (renumberClauses ρ clauses))
  | [] => by
    unfold renumberClauses copySequences
    exact .pure rfl
  | ⟨_, sequence, _⟩ :: rest => by
    unfold renumberClauses copySequences
    refine sequence.copy_renumbers.bind fun _ _ hs => (copySequences_renumbers rest).last
      fun _ _ hr => ?_
    rw [hs, hr, renumberExprs]

theorem copyTargets_renumbers : (clauses : List Clause) →
    Renumbers ρ (List.map (renumberExprs ρ)) (copyTargets clauses)
      (copyTargets (renumberClauses ρ clauses))
  | [] => by
    unfold renumberClauses copyTargets
    exact .pure rfl
  | ⟨targets, _, _⟩ :: rest => by
    unfold renumberClauses copyTargets
    refine (copyExprs_renumbers targets).bind fun _ _ ht => (copyTargets_renumbers rest).last
      fun _ _ hr => ?_
    rw [ht, hr, List.map_cons]

theorem copyConditions_renumbers : (clauses : List Clause) →
    Renumbers ρ (List.map (renumberExprs ρ)) (copyConditions clauses)
      (copyConditions (renumberClauses ρ clauses))
  | [] => by
    unfold renumberClauses copyConditions
    exact .pure rfl
  | ⟨_, _, conditions⟩ :: rest => by
    unfold renumberClauses copyConditions
    refine (copyExprs_renumbers conditions).bind fun _ _ hc => (copyConditions_renumbers rest).last
      fun _ _ hr => ?_
    rw [hc, hr, List.map_cons]

end

/-! ### Statements and functions -/

namespace Copy

theorem option_renumbers (e : Option Expr) :
    Renumbers ρ (Option.map (·.renumber ρ)) (copyOption e) (copyOption (e.map (·.renumber ρ))) := by
  have same : renumberOption ρ = Option.map (·.renumber ρ) := funext (renumberOption_eq ρ)
  have renumbers := copyOption_renumbers (ρ := ρ) e
  rwa [same] at renumbers

theorem exprs_renumber (items : List Expr) :
    Renumbers ρ (List.map (·.renumber ρ)) (copyExprs items)
      (copyExprs (items.map (·.renumber ρ))) := by
  have same : renumberExprs ρ = List.map (·.renumber ρ) := funext (renumberExprs_eq ρ)
  have renumbers := copyExprs_renumbers (ρ := ρ) items
  rwa [same] at renumbers

theorem params_renumber (ps : List Param) :
    Renumbers ρ (List.map (·.renumber ρ)) (params ps) (params (ps.map (·.renumber ρ))) := by
  unfold params
  have vars : Same ρ (ps.mapM fun p => freshVar p.var)
      ((ps.map (·.renumber ρ)).mapM fun p => freshVar p.var) := by
    have made : Renumbers ρ (List.map id) (ps.mapM fun p => freshVar p.var)
        ((ps.map (·.renumber ρ)).mapM fun p => freshVar p.var) :=
      .mapM_map fun _ _ => freshVar_same.imp fun _ _ same => same.symm
    exact made.imp fun vs _ same => by rw [same, List.map_id]
  refine vars.seq fun vs => (Agree.mapM_map fun p _ => option_renumbers p.default).last
    fun ds _ hd => ?_
  rw [hd, List.zip_map_right, List.zip_map, List.map_map, List.map_map]
  rfl

theorem withItems_renumber (items : List (Expr × Option Expr)) :
    Renumbers ρ (List.map fun (m, t) => (m.renumber ρ, t.map (·.renumber ρ))) (withItems items)
      (withItems (items.map fun (m, t) => (m.renumber ρ, t.map (·.renumber ρ)))) := by
  unfold withItems
  refine (Agree.mapM_map fun item _ => item.1.copy_renumbers).bind fun _ _ hm =>
    (Agree.mapM_map fun item _ => option_renumbers item.2).last fun _ _ ht => ?_
  rw [hm, ht, List.zip_map]
  rfl

theorem renumberArms_zip (tests : List Expr) (bodies : List (List Stmt)) :
    renumberArms ρ ((tests.zip bodies).map fun (t, b) => ⟨t, b⟩) =
      ((renumberExprs ρ tests).zip (bodies.map (renumberBlock ρ))).map fun (t, b) => ⟨t, b⟩ := by
  rw [renumberArms_eq, renumberExprs_eq, List.zip_map]
  simp

theorem renumberHandlers_zip (types vars : List (Option Expr)) (bodies : List (List Stmt)) :
    renumberHandlers ρ ((types.zip (vars.zip bodies)).map fun (t, v, b) => ⟨t, v, b⟩) =
      ((types.map (Option.map (·.renumber ρ))).zip
        ((vars.map (Option.map (·.renumber ρ))).zip (bodies.map (renumberBlock ρ)))).map
        fun (t, v, b) => ⟨t, v, b⟩ := by
  rw [renumberHandlers_eq, List.zip_map, List.zip_map]
  simp

/-- The classes, or the variables, of handlers. -/
theorem handlerParts_renumber {part : Handler → Option Expr} {handlers : List Handler}
    (same : ∀ h : Handler,
      part ⟨h.type.map (·.renumber ρ), h.var.map (·.renumber ρ), renumberBlock ρ h.body⟩ =
        (part h).map (·.renumber ρ)) :
    Renumbers ρ (List.map (Option.map (·.renumber ρ))) (handlers.mapM fun h => copyOption (part h))
      ((renumberHandlers ρ handlers).mapM fun h => copyOption (part h)) := by
  rw [renumberHandlers_eq]
  refine .mapM_map fun h _ => ?_
  rw [same]
  exact option_renumbers (part h)

end Copy

mutual

theorem Stmt.copy_renumbers : (s : Stmt) →
    Renumbers ρ (Stmt.renumber ρ) s.copy (s.renumber ρ).copy
  | ⟨_, kind⟩ => by
    unfold Stmt.renumber Stmt.copy
    exact kind.copy_renumbers.last fun _ _ hk => by rw [hk, Stmt.renumber]

theorem StmtKind.copy_renumbers (kind : StmtKind) :
    Renumbers ρ (StmtKind.renumber ρ) kind.copy (kind.renumber ρ).copy := by
  cases kind with
  | varDef vars binding isTopLevel init =>
    unfold StmtKind.renumber StmtKind.copy
    refine (option_renumbers init).bind fun _ _ hi => definedVars_same.last fun _ _ hv => ?_
    rw [hi, hv, StmtKind.renumber]
  | func d =>
    unfold StmtKind.renumber StmtKind.copy
    exact d.copy_renumbers.last fun _ _ hd => by rw [hd, StmtKind.renumber]
  | overloaded items =>
    unfold StmtKind.renumber StmtKind.copy
    exact (copyFuncDefs_renumbers items).last fun _ _ hi => by rw [hi, StmtKind.renumber]
  | cls name c body =>
    unfold StmtKind.renumber StmtKind.copy
    exact (copyBlock_renumbers body).last fun _ _ hb => by rw [hb, StmtKind.renumber]
  | decorated func decorators =>
    unfold StmtKind.renumber StmtKind.copy
    refine func.copy_renumbers.bind fun _ _ hf => (exprs_renumber decorators).last fun _ _ hd => ?_
    rw [hf, hd, StmtKind.renumber]
  | assign targets value =>
    unfold StmtKind.renumber StmtKind.copy
    refine value.copy_renumbers.bind fun _ _ hv => (exprs_renumber targets).last fun _ _ ht => ?_
    rw [hv, ht, StmtKind.renumber]
  | opAssign op target value =>
    unfold StmtKind.renumber StmtKind.copy
    refine target.copy_renumbers.bind fun _ _ ht => value.copy_renumbers.last fun _ _ hv => ?_
    rw [ht, hv, StmtKind.renumber]
  | expr e | yield e | assert e | del e =>
    unfold StmtKind.renumber StmtKind.copy
    exact e.copy_renumbers.last fun _ _ he => by rw [he, StmtKind.renumber]
  | ret value =>
    unfold StmtKind.renumber StmtKind.copy
    exact (option_renumbers value).last fun _ _ hv => by rw [hv, StmtKind.renumber]
  | ifElse arms orElse =>
    unfold StmtKind.renumber StmtKind.copy
    refine (copyTests_renumbers arms).bind fun _ _ ht => (copyBodies_renumbers arms).bind
      fun _ _ hb => (copyOptionBlock_renumbers orElse).last fun _ _ ho => ?_
    rw [ht, hb, ho, StmtKind.renumber, renumberArms_zip]
  | whileLoop test body orElse =>
    unfold StmtKind.renumber StmtKind.copy
    refine test.copy_renumbers.bind fun _ _ ht => (copyBlock_renumbers body).bind
      fun _ _ hb => (copyOptionBlock_renumbers orElse).last fun _ _ ho => ?_
    rw [ht, hb, ho, StmtKind.renumber]
  | forLoop targets isAnnotated sequence body orElse =>
    unfold StmtKind.renumber StmtKind.copy
    refine sequence.copy_renumbers.bind fun _ _ hs => (exprs_renumber targets).bind
      fun _ _ ht => (copyBlock_renumbers body).bind
      fun _ _ hb => (copyOptionBlock_renumbers orElse).last fun _ _ ho => ?_
    rw [hs, ht, hb, ho, StmtKind.renumber]
  | withBlock items body =>
    unfold StmtKind.renumber StmtKind.copy
    refine (withItems_renumber items).bind fun _ _ hi => (copyBlock_renumbers body).last
      fun _ _ hb => ?_
    rw [hi, hb, StmtKind.renumber]
  | raise value cause =>
    unfold StmtKind.renumber StmtKind.copy
    refine (option_renumbers value).bind fun _ _ hv => (option_renumbers cause).last
      fun _ _ hc => ?_
    rw [hv, hc, StmtKind.renumber]
  | tryBlock body handlers orElse atEnd =>
    unfold StmtKind.renumber StmtKind.copy
    refine (copyBlock_renumbers body).bind fun _ _ hb =>
      (handlerParts_renumber fun _ => rfl).bind fun _ _ ht =>
      (handlerParts_renumber fun _ => rfl).bind fun _ _ hv =>
      (copyHandlerBodies_renumbers handlers).bind fun _ _ hh =>
      (copyOptionBlock_renumbers orElse).bind fun _ _ ho =>
      (copyOptionBlock_renumbers atEnd).last fun _ _ ha => ?_
    rw [hb, ht, hv, hh, ho, ha, StmtKind.renumber, renumberHandlers_zip]
  | print args =>
    unfold StmtKind.renumber StmtKind.copy
    exact (exprs_renumber args).last fun _ _ ha => by rw [ha, StmtKind.renumber]
  | pass | breakLoop | continueLoop | globals | imports =>
    unfold StmtKind.renumber StmtKind.copy
    exact .pure rfl

theorem FuncDef.copy_renumbers : (d : FuncDef) →
    Renumbers ρ (FuncDef.renumber ρ) d.copy (d.renumber ρ).copy
  | ⟨name, fullName, owner, params, body, signature, isGenerator, span, isAbstract, earlier,
      symbol⟩ => by
    unfold FuncDef.renumber FuncDef.copy
    refine (params_renumber params).bind fun _ _ hp => (copyBlock_renumbers body).bind
      fun _ _ hb => signature_same.last fun _ _ hs => ?_
    rw [hp, hb, hs, FuncDef.renumber]

theorem copyFuncDefs_renumbers (items : List FuncDef) :
    Renumbers ρ (renumberFuncDefs ρ) (copyFuncDefs items)
      (copyFuncDefs (renumberFuncDefs ρ items)) := by
  cases items with
  | nil =>
    unfold renumberFuncDefs copyFuncDefs
    exact .pure rfl
  | cons d rest =>
    unfold renumberFuncDefs copyFuncDefs
    refine d.copy_renumbers.bind fun _ _ hd => (copyFuncDefs_renumbers rest).last fun _ _ hr => ?_
    rw [hd, hr, renumberFuncDefs]

theorem copyBlock_renumbers (b : List Stmt) :
    Renumbers ρ (renumberBlock ρ) (copyBlock b) (copyBlock (renumberBlock ρ b)) := by
  cases b with
  | nil =>
    unfold renumberBlock copyBlock
    exact .pure rfl
  | cons s rest =>
    unfold renumberBlock copyBlock
    refine s.copy_renumbers.bind fun _ _ hs => (copyBlock_renumbers rest).last fun _ _ hr => ?_
    rw [hs, hr, renumberBlock]

theorem copyOptionBlock_renumbers (b : Option (List Stmt)) :
    Renumbers ρ (renumberOptionBlock ρ) (copyOptionBlock b)
      (copyOptionBlock (renumberOptionBlock ρ b)) := by
  cases b with
  | none =>
    unfold renumberOptionBlock copyOptionBlock
    exact .pure rfl
  | some b =>
    unfold renumberOptionBlock copyOptionBlock
    exact (copyBlock_renumbers b).last fun _ _ hb => by rw [hb, renumberOptionBlock]

theorem copyTests_renumbers : (arms : List Arm) →
    Renumbers ρ (renumberExprs ρ) (copyTests arms) (copyTests (renumberArms ρ arms))
  | [] => by
    unfold renumberArms copyTests
    exact .pure rfl
  | ⟨test, _⟩ :: rest => by
    unfold renumberArms copyTests
    refine test.copy_renumbers.bind fun _ _ ht => (copyTests_renumbers rest).last fun _ _ hr => ?_
    rw [ht, hr, renumberExprs]

theorem copyBodies_renumbers : (arms : List Arm) →
    Renumbers ρ (List.map (renumberBlock ρ)) (copyBodies arms) (copyBodies (renumberArms ρ arms))
  | [] => by
    unfold renumberArms copyBodies
    exact .pure rfl
  | ⟨_, body⟩ :: rest => by
    unfold renumberArms copyBodies
    refine (copyBlock_renumbers body).bind fun _ _ hb => (copyBodies_renumbers rest).last
      fun _ _ hr => ?_
    rw [hb, hr, List.map_cons]

theorem copyHandlerBodies_renumbers : (handlers : List Handler) →
    Renumbers ρ (List.map (renumberBlock ρ)) (copyHandlerBodies handlers)
      (copyHandlerBodies (renumberHandlers ρ handlers))
  | [] => by
    unfold renumberHandlers copyHandlerBodies
    exact .pure rfl
  | ⟨_, _, body⟩ :: rest => by
    unfold renumberHandlers copyHandlerBodies
    refine (copyBlock_renumbers body).bind fun _ _ hb => (copyHandlerBodies_renumbers rest).last
      fun _ _ hr => ?_
    rw [hb, hr, List.map_cons]

end

/-- A copy that is made from another first id on is the same copy with other ids, and hands out as
many of them. -/
theorem FuncDef.instantiate_renumber (d : FuncDef) (args : TypeArgs) {node node' : NodeId}
    (next : ∀ k, ρ (node + k) = node' + k) (types : VarTypes) :
    let made := d.instantiate args node types
    let made' := (d.renumber ρ).instantiate args node' types
    made'.1 = made.1.renumber ρ ∧ made'.2.2 = made.2.2 ∧
      ∀ k, ρ (made.2.1 + k) = made'.2.1 + k := by
  have start : CopyState.Alike ρ ⟨∅, node, types⟩ ⟨∅, node', types⟩ := .intro node' next
  obtain ⟨copied, left⟩ := d.copy_renumbers args _ _ start
  exact ⟨copied, left.vars_eq, left.next⟩

end
end Gradual
