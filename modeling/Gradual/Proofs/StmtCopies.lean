import Gradual.Proofs.ExprCopies

/-!
Copies of statements and of functions. What copying makes of a function is a tree of the same
outline, whose expressions have the ids that were free, each of them once, and whose variables are
new but for those that all copies share.
-/

namespace Gradual

/-! ### Statements -/

namespace Copy

variable {first : VarId} {i j : List NodeId}

/-- A copy of a part of a tree, of the expressions in it and of the statements in it. -/
structure BodyCopied {α : Type} (first : VarId) (outline : α → α) (exprs : α → List Expr)
    (stmts : α → List Stmt) (orig : α) (ids : List NodeId) (copy : α) : Prop where
  outline : outline copy = outline orig
  parts : Carried first ids (exprs copy) (exprs orig) (stmts copy) (stmts orig)

/-- A copy of a block. -/
abbrev BlockCopied (first : VarId) :=
  BodyCopied first outlineBlock (fun _ => []) Block.stmts

/-- A copy of a block that need not be there. -/
abbrev OptionCopied (first : VarId) :=
  BodyCopied first outlineOptionBlock (fun _ => []) fun b => b.toList.flatMap Block.stmts

/-- Copies of several blocks. -/
abbrev BlocksCopied (first : VarId) :=
  BodyCopied first (List.map outlineBlock) (fun _ => []) fun bs => bs.flatMap Block.stmts

/-- A copy of what kind of statement there is. -/
structure StmtCopied (first : VarId) (orig : StmtKind) (ids : List NodeId) (copy : StmtKind) : Prop
    extends BodyCopied first StmtKind.outline (fun kind => kind.exprs.flatMap (·.all))
      StmtKind.inner orig ids copy where
  own : copy.Renames first orig

/-- A copy of a function. -/
structure FuncCopied (first : VarId) (orig : FuncDef) (ids : List NodeId) (copy : FuncDef) : Prop
    extends BodyCopied first FuncDef.outline (fun d => d.defaults.flatMap (·.all)) FuncDef.stmts orig
      ids copy where
  params : ∀ p ∈ copy.params, first ≤ p.var.id

theorem StmtCopied.leaf {orig copy : StmtKind} (outline : copy.outline = orig.outline)
    (exprs : Renamed first i (copy.exprs.flatMap (·.all)) (orig.exprs.flatMap (·.all)))
    (own : copy.Renames first orig) (inner : copy.inner = []) (inner' : orig.inner = []) :
    StmtCopied first orig i copy where
  outline := outline
  parts := by
    rw [inner, inner']
    exact .ofExprs exprs
  own := own

theorem signature_takes {s : Option Signature} : Takes first (s.mapM Copy.signature) fun i copy =>
    i = [] ∧ copy.map Signature.outline = s.map Signature.outline := by
  cases s with
  | none => exact .pure ⟨rfl, rfl⟩
  | some s =>
    have expanded : ∀ args : TypeArgs, (s.expand args).outline = s.outline := by
      intro args
      cases args with
      | nil => rfl
      | cons arg args =>
        obtain ⟨argTypes, argKinds, argNames, ret, quantified, isTypeObject, name, isImplicit⟩ := s
        simp [Signature.outline, Signature.expand, Ty.substituteSignature, Ty.substituteEach_eq_map,
          Function.comp_def]
    exact fun args c holds => ⟨0, rfl, .refl c, holds, rfl, congrArg some (expanded args)⟩

theorem definedVars_takes {vars : List Var} {binding : Binding} :
    Takes first (definedVars vars binding) fun i copies => i = [] ∧
      (copies.map fun _ => (default : Var)) = (vars.map fun _ => default) ∧
      (binding = .inFunction → ∀ v ∈ copies, first ≤ v.id) := by
  unfold definedVars
  split
  · have made : Takes first (vars.mapM freshVar) fun i copies =>
        i = [] ∧ copies.length = vars.length ∧ ∀ v ∈ copies, first ≤ v.id :=
      Takes.mapM_skip fun _ _ => freshVar_takes
    refine made.imp fun i copies ⟨none_taken, count, fresh⟩ => ⟨none_taken, ?_, fun _ => fresh⟩
    rw [List.map_const', List.map_const', count]
  · rename_i shared
    exact .pure ⟨rfl, rfl, fun isLocal => absurd isLocal shared⟩

theorem withItems_takes {items : List (Expr × Option Expr)} :
    Takes first (withItems items)
      (Copied first (List.map fun (manager, target) => (manager.outline, outlineOption target))
        (fun items => items.flatMap fun (manager, target) => manager.all ++ allOfOption target)
        items) := by
  unfold withItems
  have managersTake : Takes first (items.mapM fun item => item.1.copy) _ :=
    Takes.mapM fun (item : Expr × Option Expr) _ => item.1.copy_takes
  apply managersTake.bind
  intro i managers hm
  have targetsTake : Takes first (items.mapM fun item => copyOption item.2) _ :=
    Takes.mapM fun (item : Expr × Option Expr) _ => copyOption_takes item.2
  refine targetsTake.done fun j targets ht => ?_
  have manyManagers : managers.length = items.length := by simpa using congrArg List.length hm.outline
  have manyTargets : targets.length = items.length := by simpa using congrArg List.length ht.outline
  have madeManagers : (managers.zip targets).map Prod.fst = managers := List.map_fst_zip (by omega)
  have madeTargets : (managers.zip targets).map Prod.snd = targets := List.map_snd_zip (by omega)
  generalize managers.zip targets = copies at madeManagers madeTargets ⊢
  subst madeManagers madeTargets
  have outlines := hm.outline
  have outlines' := ht.outline
  rw [List.map_map, List.map_map] at outlines outlines'
  have regrouped : ∀ items : List (Expr × Option Expr),
      (items.flatMap fun (manager, target) => manager.all ++ allOfOption target).Perm
        ((items.map Prod.fst).flatMap (·.all) ++ (items.map Prod.snd).flatMap allOfOption) := by
    intro items
    rw [List.flatMap_map, List.flatMap_map]
    exact (List.flatMap_append_perm ..).symm
  exact ⟨map_eq_of_parts Prod.mk (fun _ => rfl) outlines outlines',
    (hm.exprs.append ht.exprs).perm (regrouped copies) (regrouped items)⟩

/-- Copies of formal arguments: new variables with copies of the defaults. -/
structure ParamsCopied (first : VarId) (orig : List Param) (ids : List NodeId)
    (copies : List Param) : Prop where
  outline : copies.map Param.outline = orig.map Param.outline
  fresh : ∀ p ∈ copies, first ≤ p.var.id
  defaults : Renamed first ids ((copies.filterMap (·.default)).flatMap (·.all))
    ((orig.filterMap (·.default)).flatMap (·.all))

theorem allOfDefaults_eq (ps : List Param) :
    (ps.filterMap (·.default)).flatMap (·.all) = (ps.map (·.default)).flatMap allOfOption := by
  induction ps with
  | nil => rfl
  | cons p ps ih =>
    rw [List.map_cons, List.flatMap_cons, ← ih, List.filterMap_cons]
    cases p.default <;> rfl

/-- Formal arguments that are put together from new variables and copies of the defaults. -/
theorem params_copied {ps : List Param} {vars : List Var} {defaults : List (Option Expr)}
    (manyVars : vars.length = ps.length) (fresh : ∀ v ∈ vars, first ≤ v.id)
    (hd : Copied first (List.map outlineOption) (·.flatMap allOfOption) (ps.map (·.default)) i
      defaults) :
    ParamsCopied first ps i
      ((ps.zip (vars.zip defaults)).map fun (p, v, d) => ⟨v, p.kind, d⟩) := by
  have manyDefaults : defaults.length = ps.length := by simpa using congrArg List.length hd.outline
  obtain ⟨kinds, madeVars, madeDefaults⟩ := params_parts ps vars defaults manyVars manyDefaults
  generalize ((ps.zip (vars.zip defaults)).map fun (p, v, d) => (⟨v, p.kind, d⟩ : Param)) = copies
    at kinds madeVars madeDefaults ⊢
  rw [← madeDefaults] at hd
  have outlines := hd.outline
  rw [List.map_map, List.map_map] at outlines
  refine ⟨?_, fun p member => ?_, ?_⟩
  · exact map_eq_of_parts (fun kind given => ⟨Inhabited.default, kind, given⟩) (fun _ => rfl) kinds
      outlines
  · rw [← madeVars] at fresh
    exact fresh p.var (List.mem_map_of_mem member)
  · rw [allOfDefaults_eq, allOfDefaults_eq]
    exact hd.exprs

theorem params_takes {ps : List Param} :
    Takes first (Copy.params ps) (ParamsCopied first ps) := by
  unfold Copy.params
  have varsTake : Takes first (ps.mapM fun p => freshVar p.var) fun i vars =>
      i = [] ∧ vars.length = ps.length ∧ ∀ v ∈ vars, first ≤ v.id :=
    Takes.mapM_skip fun _ _ => freshVar_takes
  apply varsTake.skip
  intro vars ⟨manyVars, fresh⟩
  have defaultsTake : Takes first (ps.mapM fun p => copyOption p.default) _ :=
    Takes.mapM fun (p : Param) _ => copyOption_takes p.default
  exact defaultsTake.done fun i defaults hd => params_copied manyVars fresh hd

/-- The arguments of a copy are new. -/
theorem FuncCopied.retypings_fresh {orig copy : FuncDef}
    (made : FuncCopied first orig i copy) : ∀ r ∈ copy.retypings, first ≤ r.1 := by
  intro r given
  obtain ⟨⟨p, type, kind⟩, zipped, rfl⟩ := List.mem_map.mp given
  exact made.params p (List.of_mem_zip zipped).1

/-- Branches that are put together from copies of their parts. -/
theorem arms_copied {arms : List Arm} {tests : List Expr} {bodies : List (List Stmt)}
    (ht : ExprsCopied first (arms.map (·.test)) i tests)
    (hb : BlocksCopied first (arms.map (·.body)) j bodies) :
    BodyCopied first outlineArms (fun arms => (arms.map (·.test)).flatMap (·.all))
      (fun arms => (arms.map (·.body)).flatMap Block.stmts) arms (i ++ j)
      ((tests.zip bodies).map fun (t, b) => ⟨t, b⟩) := by
  have outlines := ht.outline
  have outlines' := hb.outline
  rw [outlineExprs_eq, outlineExprs_eq] at outlines
  have manyTests : tests.length = arms.length := by simpa using congrArg List.length outlines
  have manyBodies : bodies.length = arms.length := by simpa using congrArg List.length outlines'
  obtain ⟨madeTests, madeBodies⟩ := arms_parts tests bodies (by omega)
  -- From here on the copies are arms whose parts are known, not pairs that were zipped.
  generalize ((tests.zip bodies).map fun (t, b) => (⟨t, b⟩ : Arm)) = copies at madeTests madeBodies ⊢
  subst madeTests madeBodies
  refine ⟨?_, ?_⟩
  · rw [List.map_map, List.map_map] at outlines outlines'
    rw [outlineArms_eq, outlineArms_eq]
    exact map_eq_of_parts Arm.mk (fun _ => rfl) outlines outlines'
  · have exprs := ht.exprs
    rw [allOfExprs_eq, allOfExprs_eq] at exprs
    exact ((Carried.ofExprs exprs).append hb.parts).congr (by simp) (by simp) rfl rfl

/-- The expressions of handlers themselves. -/
def handlerExprs (handlers : List Handler) : List Expr :=
  handlers.flatMap fun h => allOfOption h.type ++ allOfOption h.var

/-- Handlers that are put together from copies of their parts. -/
theorem handlers_copied {handlers : List Handler} {k : List NodeId} {types vars : List (Option Expr)}
    {bodies : List (List Stmt)}
    (ht : Copied first (List.map outlineOption) (·.flatMap allOfOption) (handlers.map (·.type)) i types)
    (hv : Copied first (List.map outlineOption) (·.flatMap allOfOption) (handlers.map (·.var)) j vars)
    (hb : BlocksCopied first (handlers.map (·.body)) k bodies) :
    BodyCopied first outlineHandlers handlerExprs
      (fun handlers => (handlers.map (·.body)).flatMap Block.stmts) handlers (i ++ (j ++ k))
      ((types.zip (vars.zip bodies)).map fun (t, v, b) => ⟨t, v, b⟩) := by
  have manyTypes : types.length = handlers.length := by simpa using congrArg List.length ht.outline
  have manyVars : vars.length = handlers.length := by simpa using congrArg List.length hv.outline
  have manyBodies : bodies.length = handlers.length := by simpa using congrArg List.length hb.outline
  obtain ⟨madeTypes, madeVars, madeBodies⟩ := handlers_parts types vars bodies (by omega)
    (by omega)
  generalize ((types.zip (vars.zip bodies)).map fun (t, v, b) => (⟨t, v, b⟩ : Handler)) = copies
    at madeTypes madeVars madeBodies ⊢
  rw [← madeTypes] at ht
  rw [← madeVars] at hv
  rw [← madeBodies] at hb
  -- All classes are copied before all names, but in a handler the one stands next to the other.
  have regrouped : ∀ handlers : List Handler, (handlerExprs handlers).Perm
      ((handlers.map (·.type)).flatMap allOfOption ++ (handlers.map (·.var)).flatMap allOfOption) := by
    intro handlers
    rw [List.flatMap_map, List.flatMap_map]
    exact (List.flatMap_append_perm ..).symm
  refine ⟨?_, ?_⟩
  · have outlines := ht.outline
    have outlines' := hv.outline
    have outlines'' := hb.outline
    rw [List.map_map, List.map_map] at outlines outlines' outlines''
    rw [outlineHandlers_eq, outlineHandlers_eq]
    have pairs := map_eq_of_parts (h := fun c : Handler => (outlineOption c.var, outlineBlock c.body))
      Prod.mk (fun _ => rfl) outlines' outlines''
    exact map_eq_of_parts (fun t p => ⟨t, p.1, p.2⟩) (fun _ => rfl) outlines pairs
  · have exprs := (ht.exprs.append hv.exprs).perm (regrouped copies) (regrouped handlers)
    rw [← List.append_assoc]
    exact ((Carried.ofExprs exprs).append hb.parts).congr (by simp) (by simp) rfl rfl

end Copy

open Copy

/-! ### Trees -/

section Statements

variable {first : VarId}

theorem StmtKind.inner_overloaded (items : List FuncDef) (owner : Option ClassId)
    (symbol : FunctionSymbol) :
    (StmtKind.overloaded items owner symbol).inner = items.flatMap FuncDef.stmts := by
  rw [StmtKind.inner, StmtKind.places, placesOfEach_eq, List.map_flatMap]
  rfl

theorem StmtKind.inner_ifElse (arms : List Arm) (orElse : Option (List Stmt)) :
    (StmtKind.ifElse arms orElse).inner =
      (arms.map (·.body)).flatMap Block.stmts ++ orElse.toList.flatMap Block.stmts := by
  rw [StmtKind.inner, StmtKind.places, List.map_append, armPlaces_stmts, optionPlaces_stmts]

theorem StmtKind.inner_whileLoop (test : Expr) (body : List Stmt) (orElse : Option (List Stmt)) :
    (StmtKind.whileLoop test body orElse).inner =
      Block.stmts body ++ orElse.toList.flatMap Block.stmts := by
  rw [StmtKind.inner, StmtKind.places, List.map_append, optionPlaces_stmts]
  rfl

theorem StmtKind.inner_forLoop (targets : List Expr) (isAnnotated : Bool) (sequence : Expr)
    (body : List Stmt) (orElse : Option (List Stmt)) :
    (StmtKind.forLoop targets isAnnotated sequence body orElse).inner =
      Block.stmts body ++ orElse.toList.flatMap Block.stmts := by
  rw [StmtKind.inner, StmtKind.places, List.map_append, optionPlaces_stmts]
  rfl

theorem StmtKind.inner_tryBlock (body : List Stmt) (handlers : List Handler)
    (orElse atEnd : Option (List Stmt)) :
    (StmtKind.tryBlock body handlers orElse atEnd).inner =
      Block.stmts body ++ ((handlers.map (·.body)).flatMap Block.stmts ++
        (orElse.toList.flatMap Block.stmts ++ atEnd.toList.flatMap Block.stmts)) := by
  simp only [StmtKind.inner, StmtKind.places, List.map_append, handlerPlaces_stmts,
    optionPlaces_stmts, List.append_assoc]
  rfl

mutual

theorem Stmt.copy_takes : (s : Stmt) → Takes first s.copy fun i copy =>
    copy.outline = s.outline ∧ Carried first i [] [] (copy :: copy.kind.inner) (s :: s.kind.inner)
  | ⟨span, kind⟩ => by
    unfold Stmt.copy
    refine kind.copy_takes.done fun i copy made => ⟨?_, .cons made.own made.parts⟩
    rw [Stmt.outline, Stmt.outline, made.outline]

theorem StmtKind.copy_takes (kind : StmtKind) : Takes first kind.copy (StmtCopied first kind) := by
  cases kind with
  | varDef vars binding isTopLevel init =>
    unfold StmtKind.copy
    apply (copyOption_takes init).bind
    intro i init' hi
    refine definedVars_takes.done fun j vars' ⟨none_taken, outline, fresh⟩ => ?_
    rw [none_taken, List.append_nil]
    have exprs := hi.exprs
    rw [allOfOption_eq, allOfOption_eq] at exprs
    refine .leaf ?_ exprs ?_ rfl rfl
    · rw [StmtKind.outline, StmtKind.outline, hi.outline, outline]
    · refine ⟨fun r given => (nomatch given), fun v introduced => ?_⟩
      simp only [StmtKind.introduces] at introduced
      split at introduced
      · rename_i isLocal
        obtain ⟨u, member, rfl⟩ := List.mem_map.mp introduced
        exact fresh (by simpa using (Bool.and_eq_true_iff.mp isLocal).1) u member
      · cases introduced
  | func d =>
    unfold StmtKind.copy
    refine d.copy_takes.done fun i copy made => ⟨⟨?_, made.parts⟩, ?_⟩
    · rw [StmtKind.outline, StmtKind.outline, made.outline]
    · have fresh : ∀ r ∈ copy.retypings, first ≤ r.1 := made.retypings_fresh
      exact ⟨fun r given => .inl (fresh r given), fun _ introduced => (nomatch introduced)⟩
  | overloaded items owner symbol =>
    unfold StmtKind.copy
    refine (copyFuncDefs_takes items).done fun i copies ⟨made, fresh⟩ => ⟨⟨?_, ?_⟩, ?_⟩
    · rw [StmtKind.outline, StmtKind.outline, made.outline]
    · rw [StmtKind.inner_overloaded, StmtKind.inner_overloaded]
      simp only [StmtKind.exprs, List.flatMap_assoc]
      exact made.parts
    · refine ⟨fun r given => .inl ?_, fun _ introduced => (nomatch introduced)⟩
      obtain ⟨d, member, given⟩ := List.mem_flatMap.mp given
      exact fresh d member r given
  | cls name c body =>
    unfold StmtKind.copy
    refine (copyBlock_takes body).done fun i body' hb => ⟨⟨?_, hb.parts⟩, .plain rfl rfl⟩
    rw [StmtKind.outline, StmtKind.outline, hb.outline]
  | decorated d decorators v =>
    unfold StmtKind.copy
    apply d.copy_takes.bind
    intro i copy made
    refine (copyExprs_takes decorators).done fun j decorators' hd => ⟨⟨?_, ?_⟩, ?_⟩
    · rw [StmtKind.outline, StmtKind.outline, made.outline, hd.outline]
    · exact (made.parts.append (.ofExprs hd.exprs)).congr (by simp [StmtKind.exprs, allOfExprs_eq])
        (by simp [StmtKind.exprs, allOfExprs_eq]) (List.append_nil _).symm (List.append_nil _).symm
    · refine ⟨fun r given => ?_, fun _ introduced => (nomatch introduced)⟩
      rcases List.mem_append.mp given with formal | outcome
      · exact .inl (made.retypings_fresh r formal)
      · rw [List.mem_singleton.mp outcome]
        exact .inr (List.mem_singleton.mpr rfl)
  | assign targets value =>
    unfold StmtKind.copy
    apply value.copy_takes.bind
    intro i value' hv
    refine (copyExprs_takes targets).done fun j targets' ht => .leaf ?_ ?_ (.plain rfl rfl) rfl rfl
    · rw [StmtKind.outline, StmtKind.outline, hv.outline, ht.outline]
    -- The value is copied first and listed last.
    · refine (hv.exprs.append ht.exprs).perm ?_ ?_
      all_goals
        simp only [StmtKind.exprs, List.flatMap_append, List.flatMap_singleton, allOfExprs_eq]
        exact List.perm_append_comm
  | opAssign op target value =>
    unfold StmtKind.copy
    apply target.copy_takes.bind
    intro i target' ht
    refine value.copy_takes.done fun j value' hv => .leaf ?_ ?_ (.plain rfl rfl) rfl rfl
    · rw [StmtKind.outline, StmtKind.outline, ht.outline, hv.outline]
    · simpa [StmtKind.exprs] using ht.exprs.append hv.exprs
  | expr e | yield e | assert e | del e =>
    unfold StmtKind.copy
    refine e.copy_takes.done fun i e' he => .leaf ?_ ?_ (.plain rfl rfl) rfl rfl
    · rw [StmtKind.outline, StmtKind.outline, he.outline]
    · simpa [StmtKind.exprs] using he.exprs
  | ret value =>
    unfold StmtKind.copy
    refine (copyOption_takes value).done fun i value' hv => .leaf ?_ ?_ (.plain rfl rfl) rfl rfl
    · rw [StmtKind.outline, StmtKind.outline, hv.outline]
    · simpa [StmtKind.exprs, allOfOption_eq] using hv.exprs
  | ifElse arms orElse =>
    unfold StmtKind.copy
    apply (copyTests_takes arms).bind
    intro i tests ht
    apply (copyBodies_takes arms).bind
    intro j bodies hb
    refine (copyOptionBlock_takes orElse).done fun k orElse' ho => ⟨⟨?_, ?_⟩, .plain rfl rfl⟩
    · rw [StmtKind.outline, StmtKind.outline, (arms_copied ht hb).outline, ho.outline]
    · rw [StmtKind.inner_ifElse, StmtKind.inner_ifElse, ← List.append_assoc]
      exact ((arms_copied ht hb).parts.append ho.parts).congr (by simp [StmtKind.exprs])
        (by simp [StmtKind.exprs]) rfl rfl
  | whileLoop test body orElse =>
    unfold StmtKind.copy
    apply test.copy_takes.bind
    intro i test' ht
    apply (copyBlock_takes body).bind
    intro j body' hb
    refine (copyOptionBlock_takes orElse).done fun k orElse' ho => ⟨⟨?_, ?_⟩, .plain rfl rfl⟩
    · rw [StmtKind.outline, StmtKind.outline, ht.outline, hb.outline, ho.outline]
    · rw [StmtKind.inner_whileLoop, StmtKind.inner_whileLoop]
      exact ((Carried.ofExprs ht.exprs).append (hb.parts.append ho.parts)).congr
        (by simp [StmtKind.exprs]) (by simp [StmtKind.exprs]) rfl rfl
  | forLoop targets isAnnotated sequence body orElse =>
    unfold StmtKind.copy
    apply sequence.copy_takes.bind
    intro i sequence' hs
    apply (copyExprs_takes targets).bind
    intro j targets' ht
    apply (copyBlock_takes body).bind
    intro k body' hb
    refine (copyOptionBlock_takes orElse).done fun l orElse' ho => ⟨⟨?_, ?_⟩, .plain rfl rfl⟩
    · rw [StmtKind.outline, StmtKind.outline, hs.outline, ht.outline, hb.outline, ho.outline]
    · rw [StmtKind.inner_forLoop, StmtKind.inner_forLoop, ← List.append_assoc]
      refine ((Carried.ofExprs (hs.exprs.append ht.exprs)).append (hb.parts.append ho.parts)).congr
        ?_ ?_ rfl rfl
      all_goals
        simp only [StmtKind.exprs, List.flatMap_append, List.flatMap_singleton, allOfExprs_eq,
          List.append_nil]
        exact List.perm_append_comm
  | withBlock items body =>
    unfold StmtKind.copy
    apply withItems_takes.bind
    intro i items' hi
    refine (copyBlock_takes body).done fun j body' hb => ⟨⟨?_, ?_⟩, .plain rfl rfl⟩
    · rw [StmtKind.outline, StmtKind.outline, hb.outline]
      exact congrArg (StmtKind.withBlock · _) hi.outline
    · refine ((Carried.ofExprs hi.exprs).append hb.parts).congr ?_ ?_ rfl rfl
      all_goals simp [StmtKind.exprs, List.flatMap_assoc, allOfOption_eq]
  | raise value cause =>
    unfold StmtKind.copy
    apply (copyOption_takes value).bind
    intro i value' hv
    refine (copyOption_takes cause).done fun j cause' hc => .leaf ?_ ?_ (.plain rfl rfl) rfl rfl
    · rw [StmtKind.outline, StmtKind.outline, hv.outline, hc.outline]
    · simpa [StmtKind.exprs, allOfOption_eq] using hv.exprs.append hc.exprs
  | tryBlock body handlers orElse atEnd =>
    unfold StmtKind.copy
    apply (copyBlock_takes body).bind
    intro i body' hb
    apply (Takes.mapM fun (c : Handler) _ => copyOption_takes c.type).bind
    intro j types ht
    apply (Takes.mapM fun (c : Handler) _ => copyOption_takes c.var).bind
    intro k vars hv
    apply (copyHandlerBodies_takes handlers).bind
    intro l bodies hh
    apply (copyOptionBlock_takes orElse).bind
    intro m orElse' ho
    refine (copyOptionBlock_takes atEnd).done fun n atEnd' ha => ⟨⟨?_, ?_⟩, .plain rfl rfl⟩
    · rw [StmtKind.outline, StmtKind.outline, hb.outline, (handlers_copied ht hv hh).outline,
        ho.outline, ha.outline]
    · rw [StmtKind.inner_tryBlock, StmtKind.inner_tryBlock]
      have whole := hb.parts.append ((handlers_copied ht hv hh).parts.append
        (ho.parts.append ha.parts))
      simp only [List.append_assoc] at whole
      refine whole.congr ?_ ?_ rfl rfl
      all_goals simp [StmtKind.exprs, handlerExprs, List.flatMap_assoc, allOfOption_eq]
  | print args =>
    unfold StmtKind.copy
    refine (copyExprs_takes args).done fun i args' ha => .leaf ?_ ?_ (.plain rfl rfl) rfl rfl
    · rw [StmtKind.outline, StmtKind.outline, ha.outline]
    · simpa [StmtKind.exprs, allOfExprs_eq] using ha.exprs
  | pass | breakLoop | continueLoop | globals | imports =>
    unfold StmtKind.copy
    exact .pure (.leaf rfl .nil (.plain rfl rfl) rfl rfl)

theorem FuncDef.copy_takes : (d : FuncDef) → Takes first d.copy (FuncCopied first d)
  | ⟨name, fullName, owner, params, body, signature, isGenerator, span, isAbstract, earlier,
      symbol⟩ => by
    unfold FuncDef.copy
    apply params_takes.bind
    intro i params' ⟨outlines, fresh, defaults⟩
    apply (copyBlock_takes body).bind
    intro j body' hb
    refine signature_takes.done fun k signature' ⟨none_taken, signed⟩ => ?_
    rw [none_taken, List.append_nil]
    refine ⟨⟨?_, ?_⟩, fresh⟩
    · rw [FuncDef.outline, FuncDef.outline, outlines, hb.outline, signed]
    · rw [FuncDef.stmts_eq, FuncDef.stmts_eq]
      exact ((Carried.ofExprs defaults).append hb.parts).congr (by simp [FuncDef.defaults])
        (by simp [FuncDef.defaults]) rfl rfl

theorem copyBlock_takes (b : List Stmt) :
    Takes first (copyBlock b) (BlockCopied first b) := by
  cases b with
  | nil =>
    unfold copyBlock
    exact .pure ⟨rfl, .ofExprs .nil⟩
  | cons s rest =>
    unfold copyBlock
    apply s.copy_takes.bind
    intro i s' ⟨outline, parts⟩
    refine (copyBlock_takes rest).done fun j rest' hr => ⟨?_, ?_⟩
    · rw [outlineBlock, outlineBlock, outline, hr.outline]
    · rw [Block.stmts_cons, Block.stmts_cons]
      exact parts.append hr.parts

theorem copyFuncDefs_takes (items : List FuncDef) :
    Takes first (copyFuncDefs items) fun i copies =>
      BodyCopied first outlineFuncDefs
        (fun items => items.flatMap fun d => d.defaults.flatMap (·.all))
        (fun items => items.flatMap FuncDef.stmts) items i copies ∧
      ∀ d ∈ copies, ∀ r ∈ d.retypings, first ≤ r.1 := by
  cases items with
  | nil =>
    unfold copyFuncDefs
    exact .pure ⟨⟨rfl, .ofExprs .nil⟩, by simp⟩
  | cons d rest =>
    unfold copyFuncDefs
    apply d.copy_takes.bind
    intro i copy made
    refine (copyFuncDefs_takes rest).done fun j rest' ⟨hr, fresh⟩ => ⟨⟨?_, ?_⟩, ?_⟩
    · rw [outlineFuncDefs, outlineFuncDefs, made.outline, hr.outline]
    · simp only [List.flatMap_cons]
      exact made.parts.append hr.parts
    · exact List.forall_mem_cons.mpr ⟨made.retypings_fresh, fresh⟩

theorem copyOptionBlock_takes (b : Option (List Stmt)) :
    Takes first (copyOptionBlock b) (OptionCopied first b) := by
  cases b with
  | none =>
    unfold copyOptionBlock
    exact .pure ⟨rfl, .ofExprs .nil⟩
  | some b =>
    unfold copyOptionBlock
    refine (copyBlock_takes b).done fun i b' hb => ⟨?_, ?_⟩
    · rw [outlineOptionBlock, outlineOptionBlock, hb.outline]
    · simpa using hb.parts

theorem copyTests_takes : (arms : List Arm) →
    Takes first (copyTests arms) (ExprsCopied first (arms.map (·.test)))
  | [] => by
    unfold copyTests
    exact .pure ⟨rfl, .nil⟩
  | ⟨test, _⟩ :: rest => by
    unfold copyTests
    apply test.copy_takes.bind
    intro i test' ht
    refine (copyTests_takes rest).done fun j tests hr => ⟨?_, ht.exprs.append hr.exprs⟩
    rw [List.map_cons, outlineExprs, outlineExprs, ht.outline, hr.outline]

theorem copyBodies_takes : (arms : List Arm) →
    Takes first (copyBodies arms) (BlocksCopied first (arms.map (·.body)))
  | [] => by
    unfold copyBodies
    exact .pure ⟨rfl, .ofExprs .nil⟩
  | ⟨_, body⟩ :: rest => by
    unfold copyBodies
    apply (copyBlock_takes body).bind
    intro i body' hb
    refine (copyBodies_takes rest).done fun j bodies hr => ⟨?_, hb.parts.append hr.parts⟩
    rw [List.map_cons, List.map_cons, List.map_cons, hb.outline, hr.outline]

theorem copyHandlerBodies_takes : (handlers : List Handler) →
    Takes first (copyHandlerBodies handlers) (BlocksCopied first (handlers.map (·.body)))
  | [] => by
    unfold copyHandlerBodies
    exact .pure ⟨rfl, .ofExprs .nil⟩
  | ⟨_, _, body⟩ :: rest => by
    unfold copyHandlerBodies
    apply (copyBlock_takes body).bind
    intro i body' hb
    refine (copyHandlerBodies_takes rest).done fun j bodies hr => ⟨?_, hb.parts.append hr.parts⟩
    rw [List.map_cons, List.map_cons, List.map_cons, hb.outline, hr.outline]

end

end Statements

/-! ### Instances of functions -/

/-- How a copy of a function compares with the function: it has the ids from the first one that was
free to the last one that was taken, and the variables that are older are as they were. -/
structure FuncDef.Copied (d : FuncDef) (node : NodeId) (types : VarTypes) (copy : FuncDef)
    (node' : NodeId) (types' : VarTypes) : Prop where
  outline : copy.outline = d.outline
  nextNode : node ≤ node'
  nodes : copy.nodes.Perm (List.range' node (node' - node))
  nextVar : types.next ≤ types'.next
  vars : ∀ v : Var, v.id < types.next → types'.get? v = types.get? v
  retyped : ∀ v ∈ copy.retyped, types.next ≤ v ∨ v ∈ d.sharedRetyped
  introduced : ∀ v ∈ copy.introduced, types.next ≤ v ∨ v ∈ d.sharedIntroduced

theorem FuncDef.instantiate_copied (d : FuncDef) (args : TypeArgs) (node : NodeId)
    (types : VarTypes) :
    d.Copied node types (d.instantiate args node types).1 (d.instantiate args node types).2.1
      (d.instantiate args node types).2.2 := by
  have empty : Holds types.next ⟨∅, node, types⟩ :=
    ⟨Nat.le_refl _, fun id v known => by simp at known⟩
  obtain ⟨count, next, grown, -, made⟩ := d.copy_takes args ⟨∅, node, types⟩ empty
  have next' : (d.instantiate args node types).2.1 = node + count := next
  refine ⟨made.outline, ?_, ?_, grown.nextVar, grown.vars, ?_, ?_⟩
  · rw [next']
    exact Nat.le_add_right node count
  · rw [next', Nat.add_sub_cancel_left]
    exact made.parts.exprs.nodes
  · intro v member
    simp only [FuncDef.retyped, List.mem_append] at member
    rcases member with (formal | inExprs) | inStmts
    · obtain ⟨p, hp, rfl⟩ := List.mem_map.mp formal
      exact .inl (made.params p hp)
    · obtain ⟨e, he, given⟩ := List.mem_flatMap.mp inExprs
      obtain ⟨r, hr, rfl⟩ := List.mem_map.mp given
      obtain ⟨o, -, renames⟩ := made.parts.exprs.vars e he
      exact .inl (renames.retypings r hr)
    · obtain ⟨s, hs, given⟩ := List.mem_flatMap.mp inStmts
      obtain ⟨r, hr, rfl⟩ := List.mem_map.mp given
      obtain ⟨t, ht, renames⟩ := made.parts.stmts s hs
      exact (renames.retypings r hr).imp_right fun shared => List.mem_flatMap.mpr ⟨t, ht, shared⟩
  · intro v member
    rcases List.mem_append.mp member with inExprs | inStmts
    · obtain ⟨e, he, given⟩ := List.mem_flatMap.mp inExprs
      obtain ⟨o, ho, renames⟩ := made.parts.exprs.vars e he
      exact (renames.introduces v given).imp_right fun shared => List.mem_flatMap.mpr ⟨o, ho, shared⟩
    · obtain ⟨s, hs, given⟩ := List.mem_flatMap.mp inStmts
      obtain ⟨t, ht, renames⟩ := made.parts.stmts s hs
      exact .inl (renames.introduces v given)

end Gradual
