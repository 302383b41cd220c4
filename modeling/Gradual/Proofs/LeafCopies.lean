import Gradual.Proofs.CopyRules
import Gradual.Proofs.Leaves

/-!
Copies by their leaves: the leaves of a copy are those of the tree, copied one after the other in the
order in which a copy is made. What becomes of a leaf depends only on the variables that stand for
others by then.
-/

namespace Gradual

/-! ### Copies of leaves -/

/-- Which variables stand for others, and the types of variables. -/
structure Naming where
  renamed : Std.TreeMap VarId Var
  vars : VarTypes

def CopyState.naming (c : CopyState) : Naming := ⟨c.renamed, c.vars⟩

namespace Naming

/-- A variable that stands for the given one from now on. -/
def fresh (args : TypeArgs) (n : Naming) (v : Var) : Var × Naming :=
  let (copy, vars) := n.vars.fresh v.name v.fullName v.owner ((n.vars.get? v).map (·.expand args))
  (copy, ⟨n.renamed.insert v.id copy, vars⟩)

/-- Does an occurrence of a variable introduce it? -/
def introducedBy (n : Naming) (ref : NameRef) (v : Var) : Bool :=
  ref.isDef && ref.binding == .inFunction && !n.renamed.contains v.id

end Naming

/-- A leaf of a copy, and the variables that stand for others behind it. -/
def Leaf.copy (args : TypeArgs) (n : Naming) : Leaf → Leaf × Naming
  | .binds v => (n.fresh args v).map .binds id
  | .name ref =>
    match ref.symbol with
    | .var v =>
      if n.introducedBy ref v then
        (n.fresh args v).map (fun u => .name { ref with symbol := .var u }) id
      else (.name { ref with symbol := .var ((n.renamed[v.id]?).getD v) }, n)
    | _ => (.name ref, n)
  | .shares v => (.shares v, n)
  | .type t => (.type (t.expand args), n)
  | .signature s => (.signature (s.expand args), n)
  | .declares f => (.declares f, n)

/-- Copies leaves one after the other. -/
def copyLeaves (args : TypeArgs) : Naming → List Leaf → List Leaf × Naming
  | n, [] => ([], n)
  | n, l :: ls =>
    let first := l.copy args n
    let rest := copyLeaves args first.2 ls
    (first.1 :: rest.1, rest.2)

theorem copyLeaves_append {args : TypeArgs} {n : Naming} {ls ms : List Leaf} :
    copyLeaves args n (ls ++ ms) =
      ((copyLeaves args n ls).1 ++ (copyLeaves args (copyLeaves args n ls).2 ms).1,
        (copyLeaves args (copyLeaves args n ls).2 ms).2) := by
  induction ls generalizing n with
  | nil => rfl
  | cons l ls ih =>
    rw [List.cons_append, copyLeaves, ih]
    rfl

namespace Copy

/-- The copy makes what it makes out of the leaves, one after the other, and what is made has the
property. -/
def Makes {α : Type} (x : Copy α) (ls : List Leaf) (post : List Leaf → α → Prop) : Prop :=
  ∀ args c,
    ((x.run args).run c).2.naming = (copyLeaves args c.naming ls).2 ∧
      post (copyLeaves args c.naming ls).1 ((x.run args).run c).1

namespace Makes

variable {α β : Type} {x : Copy α} {ls ms : List Leaf} {post : List Leaf → α → Prop}
  {f : α → Copy β} {goal : List Leaf → β → Prop}

theorem pure {a : α} (h : post [] a) : Makes (Pure.pure a : Copy α) [] post :=
  fun _ _ => ⟨rfl, h⟩

theorem bind (before : Makes x ls post)
    (after : ∀ ls' a, post ls' a → Makes (f a) ms fun ms' b => goal (ls' ++ ms') b) :
    Makes (x >>= f) (ls ++ ms) goal := by
  intro args c
  obtain ⟨naming, made⟩ := before args c
  obtain ⟨naming', made'⟩ := after _ _ made args ((x.run args).run c).2
  rw [naming] at naming' made'
  rw [copyLeaves_append]
  exact ⟨naming', made'⟩

/-- A last part without leaves. -/
theorem bind_nil (before : Makes x ls post)
    (after : ∀ ls' a, post ls' a → Makes (f a) [] fun _ b => goal ls' b) :
    Makes (x >>= f) ls goal := by
  intro args c
  obtain ⟨naming, made⟩ := before args c
  obtain ⟨naming', made'⟩ := after _ _ made args ((x.run args).run c).2
  exact ⟨naming'.trans naming, made'⟩

theorem imp {weaker : List Leaf → α → Prop} (h : Makes x ls post)
    (implies : ∀ ls' a, post ls' a → weaker ls' a) : Makes x ls weaker :=
  fun args c => ⟨(h args c).1, implies _ _ (h args c).2⟩

/-- The last part of what is made. -/
theorem done {g : α → β} (h : Makes x ls post) (make : ∀ ls' a, post ls' a → goal ls' (g a)) :
    Makes (x >>= fun a => Pure.pure (g a)) ls goal :=
  fun args c => ⟨(h args c).1, make _ _ (h args c).2⟩

/-- What is made of all items of a list, given the leaves of an item and of what is made of it. -/
theorem mapM {γ : Type} {xs : List γ} {f : γ → Copy β} {orig : γ → List Leaf} {out : β → List Leaf}
    (h : ∀ c ∈ xs, Makes (f c) (orig c) fun ls' b => out b = ls') :
    Makes (xs.mapM f) (xs.flatMap orig) fun ls' bs => bs.flatMap out = ls' ∧ bs.length = xs.length := by
  induction xs with
  | nil => exact .pure ⟨rfl, rfl⟩
  | cons c xs ih =>
    rw [List.mapM_cons, List.flatMap_cons]
    apply (h c List.mem_cons_self).bind
    intro ls' b hb
    refine (ih fun d hd => h d (List.mem_cons_of_mem _ hd)).done fun ms' bs ⟨hbs, count⟩ => ⟨?_, ?_⟩
    · rw [List.flatMap_cons, hb, hbs]
    · rw [List.length_cons, List.length_cons, count]

/-- The same of items with one leaf each. -/
theorem mapM_one {γ : Type} {xs : List γ} {f : γ → Copy β} {orig : γ → Leaf} {out : β → Leaf}
    (h : ∀ c ∈ xs, Makes (f c) [orig c] fun ls' b => [out b] = ls') :
    Makes (xs.mapM f) (xs.map orig) fun ls' bs => bs.map out = ls' ∧ bs.length = xs.length := by
  simpa only [List.map_eq_flatMap] using mapM h

end Makes

/-- A copy of a part of a tree has the leaves that copies of its leaves are. -/
abbrev Follows {α : Type} (leaves : α → List Leaf) (a : α) (x : Copy α) : Prop :=
  Makes x (leaves a) fun ls copy => leaves copy = ls

theorem freshNode_makes : Makes freshNode [] fun ls _ => ls = [] := fun _ _ => ⟨rfl, rfl⟩

theorem freshVar_makes {v : Var} : Makes (freshVar v) [.binds v] fun ls u => [Leaf.binds u] = ls :=
  fun _ _ => ⟨rfl, rfl⟩

theorem type_makes {t : Ty} : Makes (type t) [.type t] fun ls t' => [Leaf.type t'] = ls :=
  fun _ _ => ⟨rfl, rfl⟩

theorem signature_makes {s : Option Signature} :
    Makes (s.mapM Copy.signature) (s.toList.map .signature) fun ls s' =>
      s'.toList.map Leaf.signature = ls := by
  cases s <;> exact fun _ _ => ⟨rfl, rfl⟩

theorem copyLeaves_kept {args : TypeArgs} {n : Naming} {ls : List Leaf}
    (kept : ∀ l ∈ ls, l.copy args n = (l, n)) : copyLeaves args n ls = (ls, n) := by
  induction ls with
  | nil => rfl
  | cons l ls ih =>
    have rest := ih fun m member => kept m (List.mem_cons_of_mem _ member)
    rw [copyLeaves, kept l List.mem_cons_self, rest]

/-- Leaves that are left as they are. -/
theorem Makes.kept {α : Type} {a : α} {ls : List Leaf} {post : List Leaf → α → Prop}
    (kept : ∀ l ∈ ls, ∀ args n, l.copy args n = (l, n)) (h : post ls a) :
    Makes (Pure.pure a : Copy α) ls post := by
  intro args c
  rw [copyLeaves_kept fun l member => kept l member args c.naming]
  exact ⟨rfl, h⟩

theorem name_makes {ref : NameRef} :
    Makes (Copy.name ref) [.name ref] fun ls copy => [Leaf.name copy] = ls := by
  intro args c
  obtain ⟨name, fullName, binding, symbol, isDef⟩ := ref
  cases symbol with
  | func | cls | module | typeVar => exact ⟨rfl, rfl⟩
  | var v =>
    let naming (u : Var) : NameRef := ⟨name, fullName, binding, .var u, isDef⟩
    have run : ((Copy.name (naming v)).run args).run c =
        ((if c.naming.introducedBy (naming v) v then naming <$> freshVar v
          else naming <$> renamed v).run args).run c := run_name_var (naming v) v rfl args c
    rw [run]
    simp only [copyLeaves, Leaf.copy]
    by_cases new : c.naming.introducedBy (naming v) v = true
    · rw [if_pos new, if_pos new]
      exact ⟨rfl, rfl⟩
    · rw [if_neg new, if_neg new]
      exact ⟨rfl, rfl⟩

theorem lambdaParams_makes {params : List (Var × ArgKind)} :
    Makes (lambdaParams params) (params.map (.binds ·.1)) fun ls copy =>
      copy.map (Leaf.binds ·.1) = ls := by
  have each : ∀ p ∈ params, Makes (do return (← freshVar p.1, p.2)) [.binds p.1] fun ls copy =>
      [Leaf.binds copy.1] = ls := fun p _ => freshVar_makes.done fun _ _ made => made
  exact (Makes.mapM_one each).imp fun _ _ made => made.1

theorem types_makes {types : List Ty} :
    Makes (types.mapM type) (types.map .type) fun ls copies => copies.map Leaf.type = ls :=
  (Makes.mapM_one fun _ _ => type_makes).imp fun _ _ made => made.1

/-! ### Parts of a copy -/

/-- In a copy all first parts come first. -/
theorem arrange_copying {α : Type} {first second third : α → List Leaf} (items : List α) :
    Walk.copying.arrange (items.map fun a => (first a, second a, third a)) =
      items.flatMap first ++ (items.flatMap second ++ items.flatMap third) := by
  simp only [Walk.arrange, List.flatMap_map]

theorem operands_copying (op : BinaryOp) (left right : List Leaf) :
    Walk.copying.operands op left right = left ++ right := by
  cases op <;> rfl

theorem arrange_clauses (clauses : List Clause) :
    Walk.copying.arrange (clauseRows .copying clauses) =
      leavesOfExprs .copying (clauses.map (·.sequence)) ++
        ((clauses.map (·.targets)).flatMap (leavesOfExprs .copying) ++
          (clauses.map (·.conditions)).flatMap (leavesOfExprs .copying)) := by
  rw [clauseRows_eq, arrange_copying, leavesOfExprs_eq, List.flatMap_map, List.flatMap_map,
    List.flatMap_map]

/-- A copy of what has rows of parts. -/
abbrev Arranges {α : Type} (rows : α → List (List Leaf × List Leaf × List Leaf)) (a : α)
    (x : Copy α) : Prop :=
  Makes x (Walk.copying.arrange (rows a)) fun ls copy => Walk.copying.arrange (rows copy) = ls

/-- Several lists of expressions. -/
abbrev ListsFollow (lists : List (List Expr)) (x : Copy (List (List Expr))) : Prop :=
  Makes x (lists.flatMap (leavesOfExprs .copying)) fun ls copies =>
    copies.flatMap (leavesOfExprs .copying) = ls ∧ copies.length = lists.length

end Copy

open Copy

/-! ### Expressions -/

mutual

theorem Expr.copy_follows : (e : Expr) → Follows (Expr.leaves .copying) e e.copy
  | ⟨_, _, kind⟩ => by
    unfold Expr.copy
    apply kind.copy_follows.bind_nil
    exact fun ls copy made => freshNode_makes.done fun _ _ _ => made

theorem ExprKind.copy_follows (kind : ExprKind) :
    Follows (ExprKind.leaves .copying) kind kind.copy := by
  cases kind with
  | name ref =>
    unfold ExprKind.copy
    exact name_makes.done fun _ _ made => made
  | member base name defined isDef =>
    unfold ExprKind.copy
    apply base.copy_follows.bind
    intro ls _ hb
    refine .kept (List.forall_mem_map.mpr fun _ _ _ _ => rfl) ?_
    rw [ExprKind.leaves, hb]
  | call callee args =>
    unfold ExprKind.copy
    apply callee.copy_follows.bind
    intro ls _ hc
    refine (copyActuals_follows args).done fun ms _ ha => ?_
    rw [ExprKind.leaves, hc, ha]
  | paren inner =>
    unfold ExprKind.copy
    exact inner.copy_follows.done fun _ _ made => made
  | int | str | bytes | unicode | float | super | typeVar =>
    unfold ExprKind.copy
    exact .pure rfl
  | binary op left right =>
    unfold ExprKind.copy
    show Makes _ (Walk.copying.operands op _ _) _
    rw [operands_copying]
    apply left.copy_follows.bind
    intro ls _ hl
    refine right.copy_follows.done fun ms _ hr => ?_
    rw [ExprKind.leaves, operands_copying, hl, hr]
  | unary op operand =>
    unfold ExprKind.copy
    exact operand.copy_follows.done fun _ _ made => made
  | index base index =>
    unfold ExprKind.copy
    apply base.copy_follows.bind
    intro ls _ hb
    refine index.copy_follows.done fun ms _ hi => ?_
    rw [ExprKind.leaves, hb, hi]
  | cast inner t =>
    unfold ExprKind.copy
    apply inner.copy_follows.bind
    intro ls _ hi
    refine type_makes.done fun ms _ ht => ?_
    rw [ExprKind.leaves, hi, ht]
  | typeApplication inner types =>
    unfold ExprKind.copy
    apply inner.copy_follows.bind
    intro ls _ hi
    refine types_makes.done fun ms _ ht => ?_
    rw [ExprKind.leaves, hi, ht]
  | list items | set items | tuple items =>
    unfold ExprKind.copy
    exact (copyExprs_follows items).done fun _ _ made => made
  | dict items =>
    unfold ExprKind.copy
    exact (copyPairs_follows items).done fun _ _ made => made
  | slice start last stride =>
    unfold ExprKind.copy
    apply (copyOption_follows start).bind
    intro ls _ hf
    apply (copyOption_follows last).bind
    intro ms _ hl
    refine (copyOption_follows stride).done fun ns _ hs => ?_
    rw [ExprKind.leaves, hf, hl, hs]
  | lambda params body =>
    unfold ExprKind.copy
    apply lambdaParams_makes.bind
    intro ls _ hp
    refine body.copy_follows.done fun ms _ hb => ?_
    rw [ExprKind.leaves, hp, hb]
  | listComprehension left clauses | generator left clauses =>
    unfold ExprKind.copy
    apply (copyClauses_follows clauses).bind
    intro ls _ hc
    refine left.copy_follows.done fun ms _ hl => ?_
    rw [ExprKind.leaves, hc, hl]
  | placeholder t =>
    cases t with
    | none =>
      unfold ExprKind.copy
      exact .pure rfl
    | some t =>
      unfold ExprKind.copy
      exact type_makes.done fun _ _ made => made
  | conditional cond ifTrue ifFalse =>
    unfold ExprKind.copy
    apply cond.copy_follows.bind
    intro ls _ hc
    apply ifTrue.copy_follows.bind
    intro ms _ ht
    refine ifFalse.copy_follows.done fun ns _ hf => ?_
    rw [ExprKind.leaves, hc, ht, hf]

theorem copyExprs_follows (items : List Expr) :
    Follows (leavesOfExprs .copying) items (copyExprs items) := by
  cases items with
  | nil =>
    unfold copyExprs
    exact .pure rfl
  | cons e rest =>
    unfold copyExprs
    apply e.copy_follows.bind
    intro ls _ he
    refine (copyExprs_follows rest).done fun ms _ hr => ?_
    rw [leavesOfExprs, he, hr]

theorem copyActuals_follows : (args : List Actual) →
    Follows (leavesOfActuals .copying) args (copyActuals args)
  | [] => by
    unfold copyActuals
    exact .pure rfl
  | ⟨_, _, value⟩ :: rest => by
    unfold copyActuals
    apply value.copy_follows.bind
    intro ls _ hv
    refine (copyActuals_follows rest).done fun ms _ hr => ?_
    rw [leavesOfActuals, hv, hr]

theorem copyPairs_follows : (items : List (Expr × Expr)) →
    Follows (leavesOfPairs .copying) items (copyPairs items)
  | [] => by
    unfold copyPairs
    exact .pure rfl
  | (key, value) :: rest => by
    unfold copyPairs
    apply key.copy_follows.bind
    intro ls _ hk
    apply value.copy_follows.bind
    intro ms _ hv
    refine (copyPairs_follows rest).done fun ns _ hr => ?_
    rw [leavesOfPairs, hk, hv, hr]

theorem copyOption_follows (e : Option Expr) :
    Follows (leavesOfOption .copying) e (copyOption e) := by
  cases e with
  | none =>
    unfold copyOption
    exact .pure rfl
  | some e =>
    unfold copyOption
    exact e.copy_follows.done fun _ _ made => made

theorem copyClauses_follows (clauses : List Clause) :
    Arranges (clauseRows .copying) clauses (copyClauses clauses) := by
  unfold copyClauses Arranges
  rw [arrange_clauses]
  apply (copySequences_follows clauses).bind
  intro ls sequences ⟨hs, manySequences⟩
  apply (copyTargets_follows clauses).bind
  intro ms targets ⟨ht, manyTargets⟩
  refine (copyConditions_follows clauses).done fun ns conditions ⟨hc, manyConditions⟩ => ?_
  rw [List.length_map] at manyTargets manyConditions
  obtain ⟨madeTargets, madeSequences, madeConditions⟩ := clauses_parts targets sequences
    conditions (by omega) (by omega)
  rw [arrange_clauses, madeTargets, madeSequences, madeConditions, hs, ht, hc]

theorem copySequences_follows : (clauses : List Clause) →
    Makes (copySequences clauses) (leavesOfExprs .copying (clauses.map (·.sequence)))
      fun ls copies => leavesOfExprs .copying copies = ls ∧ copies.length = clauses.length
  | [] => by
    unfold copySequences
    exact .pure ⟨rfl, rfl⟩
  | ⟨_, sequence, _⟩ :: rest => by
    unfold copySequences
    apply sequence.copy_follows.bind
    intro ls _ hs
    refine (copySequences_follows rest).done fun ms _ ⟨hr, count⟩ => ⟨?_, congrArg (· + 1) count⟩
    rw [leavesOfExprs, hs, hr]

theorem copyTargets_follows : (clauses : List Clause) →
    ListsFollow (clauses.map (·.targets)) (copyTargets clauses)
  | [] => by
    unfold copyTargets
    exact .pure ⟨rfl, rfl⟩
  | ⟨targets, _, _⟩ :: rest => by
    unfold copyTargets
    apply (copyExprs_follows targets).bind
    intro ls _ ht
    refine (copyTargets_follows rest).done fun ms _ ⟨hr, count⟩ => ⟨?_, congrArg (· + 1) count⟩
    rw [List.flatMap_cons, ht, hr]

theorem copyConditions_follows : (clauses : List Clause) →
    ListsFollow (clauses.map (·.conditions)) (copyConditions clauses)
  | [] => by
    unfold copyConditions
    exact .pure ⟨rfl, rfl⟩
  | ⟨_, _, conditions⟩ :: rest => by
    unfold copyConditions
    apply (copyExprs_follows conditions).bind
    intro ls _ hc
    refine (copyConditions_follows rest).done fun ms _ ⟨hr, count⟩ => ⟨?_, congrArg (· + 1) count⟩
    rw [List.flatMap_cons, hc, hr]

end

/-! ### Statements -/

namespace Copy

theorem leavesOfParams_eq (ps : List Param) :
    leavesOfParams .copying ps = (ps.map (·.var)).map .binds ++
      (ps.map (·.default)).flatMap (leavesOfOption .copying) := by
  rw [leavesOfParams, List.map_map, List.flatMap_map]
  rfl

theorem params_makes {ps : List Param} :
    Follows (leavesOfParams .copying) ps (Copy.params ps) := by
  unfold Copy.params
  have varsMake : Makes (ps.mapM fun p => freshVar p.var) _ _ :=
    .mapM_one fun p _ => freshVar_makes
  apply varsMake.bind
  intro ls vars ⟨hv, manyVars⟩
  have defaultsMake : Makes (ps.mapM fun p => copyOption p.default) _ _ :=
    .mapM fun p _ => copyOption_follows p.default
  refine defaultsMake.done fun ms defaults ⟨hd, manyDefaults⟩ => ?_
  obtain ⟨-, madeVars, madeDefaults⟩ := params_parts ps vars defaults manyVars manyDefaults
  rw [leavesOfParams_eq, madeVars, madeDefaults, hv, hd]

theorem definedVars_makes {vars : List Var} {binding : Binding} :
    Makes (definedVars vars binding) (vars.map (Leaf.defined binding)) fun ls copies =>
      copies.map (Leaf.defined binding) = ls := by
  unfold definedVars Leaf.defined
  split
  · exact (Makes.mapM_one fun v _ => freshVar_makes).imp fun _ _ made => made.1
  · exact .kept (List.forall_mem_map.mpr fun _ _ _ _ => rfl) rfl

theorem arrange_items (items : List (Expr × Option Expr)) :
    Walk.copying.arrange (itemRows .copying items) =
      leavesOfExprs .copying (items.map (·.1)) ++
        (items.map (·.2)).flatMap (leavesOfOption .copying) := by
  rw [itemRows, arrange_copying, leavesOfExprs_eq, List.flatMap_map, List.flatMap_map]
  simp

theorem withItems_makes {items : List (Expr × Option Expr)} :
    Arranges (itemRows .copying) items (withItems items) := by
  unfold withItems Arranges
  rw [arrange_items, leavesOfExprs_eq, List.flatMap_map, List.flatMap_map]
  have managersMake : Makes (items.mapM fun item => item.1.copy) _ _ :=
    .mapM fun item _ => item.1.copy_follows
  apply managersMake.bind
  intro ls managers ⟨hm, manyManagers⟩
  have targetsMake : Makes (items.mapM fun item => copyOption item.2) _ _ :=
    .mapM fun item _ => copyOption_follows item.2
  refine targetsMake.done fun ms targets ⟨ht, manyTargets⟩ => ?_
  rw [arrange_items, List.map_fst_zip (by omega), List.map_snd_zip (by omega), leavesOfExprs_eq, hm,
    ht]

theorem arrange_arms (arms : List Arm) :
    Walk.copying.arrange (armRows .copying arms) =
      leavesOfExprs .copying (arms.map (·.test)) ++
        (arms.map (·.body)).flatMap (leavesOfBlock .copying) := by
  rw [armRows_eq, arrange_copying, leavesOfExprs_eq, List.flatMap_map, List.flatMap_map]
  simp

theorem arrange_handlers (handlers : List Handler) :
    Walk.copying.arrange (handlerRows .copying handlers) =
      (handlers.map (·.type)).flatMap (leavesOfOption .copying) ++
        ((handlers.map (·.var)).flatMap (leavesOfOption .copying) ++
          (handlers.map (·.body)).flatMap (leavesOfBlock .copying)) := by
  rw [handlerRows_eq, arrange_copying, List.flatMap_map, List.flatMap_map, List.flatMap_map]

/-- The bodies of branches or handlers. -/
abbrev BodiesFollow (bodies : List (List Stmt)) (x : Copy (List (List Stmt))) : Prop :=
  Makes x (bodies.flatMap (leavesOfBlock .copying)) fun ls copies =>
    copies.flatMap (leavesOfBlock .copying) = ls ∧ copies.length = bodies.length

theorem handlerParts_make {handlers : List Handler} (part : Handler → Option Expr) :
    Makes (handlers.mapM fun h => copyOption (part h))
      ((handlers.map part).flatMap (leavesOfOption .copying)) fun ls copies =>
        copies.flatMap (leavesOfOption .copying) = ls ∧ copies.length = handlers.length := by
  rw [List.flatMap_map]
  exact .mapM fun h _ => copyOption_follows (part h)

end Copy

mutual

theorem Stmt.copy_follows : (s : Stmt) → Follows (Stmt.leaves .copying) s s.copy
  | ⟨_, kind⟩ => by
    unfold Stmt.copy
    exact kind.copy_follows.done fun _ _ made => made

theorem StmtKind.copy_follows (kind : StmtKind) :
    Follows (StmtKind.leaves .copying) kind kind.copy := by
  cases kind with
  | varDef vars binding isTopLevel init =>
    unfold StmtKind.copy
    apply (copyOption_follows init).bind
    intro ls _ hi
    refine definedVars_makes.done fun ms _ hv => ?_
    rw [StmtKind.leaves, hi, hv]
  | func d =>
    unfold StmtKind.copy
    exact d.copy_follows.done fun _ _ made => made
  | overloaded items owner symbol =>
    unfold StmtKind.copy
    apply (copyFuncDefs_follows items).bind
    intro ls _ hi
    refine .kept (List.forall_mem_singleton.mpr fun _ _ => rfl) ?_
    rw [StmtKind.leaves, hi]
  | cls name c body =>
    unfold StmtKind.copy
    exact (copyBlock_follows body).done fun _ _ made => made
  | decorated d decorators v =>
    unfold StmtKind.copy
    apply d.copy_follows.bind
    intro ls _ hd
    apply (copyExprs_follows decorators).bind
    intro ms _ hw
    refine .kept (List.forall_mem_singleton.mpr fun _ _ => rfl) ?_
    rw [StmtKind.leaves, hd, hw]
  | assign targets value =>
    unfold StmtKind.copy
    apply value.copy_follows.bind
    intro ls _ hv
    refine (copyExprs_follows targets).done fun ms _ ht => ?_
    rw [StmtKind.leaves, hv, ht]
  | opAssign op target value =>
    unfold StmtKind.copy
    apply target.copy_follows.bind
    intro ls _ ht
    refine value.copy_follows.done fun ms _ hv => ?_
    rw [StmtKind.leaves, ht, hv]
  | expr e | yield e | assert e | del e =>
    unfold StmtKind.copy
    exact e.copy_follows.done fun _ _ made => made
  | ret value =>
    unfold StmtKind.copy
    exact (copyOption_follows value).done fun _ _ made => made
  | ifElse arms orElse =>
    unfold StmtKind.copy
    show Makes _ (Walk.copying.arrange _ ++ _) _
    rw [arrange_arms, List.append_assoc]
    apply (copyTests_follows arms).bind
    intro ls tests ⟨ht, manyTests⟩
    apply (copyBodies_follows arms).bind
    intro ms bodies ⟨hb, manyBodies⟩
    rw [List.length_map] at manyBodies
    refine (copyOptionBlock_follows orElse).done fun ns _ ho => ?_
    obtain ⟨madeTests, madeBodies⟩ := arms_parts tests bodies (by omega)
    rw [StmtKind.leaves, arrange_arms, madeTests, madeBodies, ht, hb, ho, List.append_assoc]
  | whileLoop test body orElse =>
    unfold StmtKind.copy
    apply test.copy_follows.bind
    intro ls _ ht
    apply (copyBlock_follows body).bind
    intro ms _ hb
    refine (copyOptionBlock_follows orElse).done fun ns _ ho => ?_
    rw [StmtKind.leaves, ht, hb, ho]
  | forLoop targets isAnnotated sequence body orElse =>
    unfold StmtKind.copy
    apply sequence.copy_follows.bind
    intro ls _ hs
    apply (copyExprs_follows targets).bind
    intro ms _ ht
    apply (copyBlock_follows body).bind
    intro ns _ hb
    refine (copyOptionBlock_follows orElse).done fun os _ ho => ?_
    rw [StmtKind.leaves, hs, ht, hb, ho]
  | withBlock items body =>
    unfold StmtKind.copy
    apply withItems_makes.bind
    intro ls _ hi
    refine (copyBlock_follows body).done fun ms _ hb => ?_
    rw [StmtKind.leaves, hi, hb]
  | raise value cause =>
    unfold StmtKind.copy
    apply (copyOption_follows value).bind
    intro ls _ hv
    refine (copyOption_follows cause).done fun ms _ hc => ?_
    rw [StmtKind.leaves, hv, hc]
  | tryBlock body handlers orElse atEnd =>
    unfold StmtKind.copy
    show Makes _ (_ ++ (Walk.copying.arrange _ ++ _)) _
    rw [arrange_handlers]
    simp only [List.append_assoc]
    apply (copyBlock_follows body).bind
    intro ls _ hb
    apply (handlerParts_make (·.type)).bind
    intro ms types ⟨ht, manyTypes⟩
    apply (handlerParts_make (·.var)).bind
    intro ns vars ⟨hv, manyVars⟩
    apply (copyHandlerBodies_follows handlers).bind
    intro os bodies ⟨hh, manyBodies⟩
    rw [List.length_map] at manyBodies
    apply (copyOptionBlock_follows orElse).bind
    intro ps _ ho
    refine (copyOptionBlock_follows atEnd).done fun qs _ ha => ?_
    obtain ⟨madeTypes, madeVars, madeBodies⟩ := handlers_parts types vars bodies (by omega)
      (by omega)
    rw [StmtKind.leaves, arrange_handlers, madeTypes, madeVars, madeBodies, hb, ht, hv, hh, ho, ha]
    simp only [List.append_assoc]
  | print args =>
    unfold StmtKind.copy
    exact (copyExprs_follows args).done fun _ _ made => made
  | pass | breakLoop | continueLoop | globals | imports =>
    unfold StmtKind.copy
    exact .pure rfl

theorem FuncDef.copy_follows : (d : FuncDef) → Follows (FuncDef.leaves .copying) d d.copy
  | ⟨name, fullName, owner, params, body, signature, isGenerator, span, isAbstract, earlier,
      symbol⟩ => by
    unfold FuncDef.copy
    apply params_makes.bind
    intro ls params' hp
    apply (copyBlock_follows body).bind
    intro ms body' hb
    apply signature_makes.bind
    intro ns signature' hs
    have kept : ∀ l ∈ earlier.toList.map Leaf.declares ++ [.declares symbol], ∀ args n,
        l.copy args n = (l, n) := by
      simp only [List.mem_append, List.mem_map, List.mem_singleton]
      rintro l (⟨f, -, rfl⟩ | rfl) args n <;> rfl
    refine .kept kept ?_
    rw [FuncDef.leaves, hp, hb, hs]

theorem copyFuncDefs_follows (items : List FuncDef) :
    Follows (leavesOfFuncDefs .copying) items (copyFuncDefs items) := by
  cases items with
  | nil =>
    unfold copyFuncDefs
    exact .pure rfl
  | cons d rest =>
    unfold copyFuncDefs
    apply d.copy_follows.bind
    intro ls _ hd
    refine (copyFuncDefs_follows rest).done fun ms _ hr => ?_
    rw [leavesOfFuncDefs, hd, hr]

theorem copyBlock_follows (b : List Stmt) :
    Follows (leavesOfBlock .copying) b (copyBlock b) := by
  cases b with
  | nil =>
    unfold copyBlock
    exact .pure rfl
  | cons s rest =>
    unfold copyBlock
    apply s.copy_follows.bind
    intro ls _ hs
    refine (copyBlock_follows rest).done fun ms _ hr => ?_
    rw [leavesOfBlock, hs, hr]

theorem copyOptionBlock_follows (b : Option (List Stmt)) :
    Follows (leavesOfOptionBlock .copying) b (copyOptionBlock b) := by
  cases b with
  | none =>
    unfold copyOptionBlock
    exact .pure rfl
  | some b =>
    unfold copyOptionBlock
    exact (copyBlock_follows b).done fun _ _ made => made

theorem copyTests_follows : (arms : List Arm) →
    Makes (copyTests arms) (leavesOfExprs .copying (arms.map (·.test)))
      fun ls copies => leavesOfExprs .copying copies = ls ∧ copies.length = arms.length
  | [] => by
    unfold copyTests
    exact .pure ⟨rfl, rfl⟩
  | ⟨test, _⟩ :: rest => by
    unfold copyTests
    apply test.copy_follows.bind
    intro ls _ ht
    refine (copyTests_follows rest).done fun ms _ ⟨hr, count⟩ => ⟨?_, congrArg (· + 1) count⟩
    rw [leavesOfExprs, ht, hr]

theorem copyBodies_follows : (arms : List Arm) →
    BodiesFollow (arms.map (·.body)) (copyBodies arms)
  | [] => by
    unfold copyBodies
    exact .pure ⟨rfl, rfl⟩
  | ⟨_, body⟩ :: rest => by
    unfold copyBodies
    apply (copyBlock_follows body).bind
    intro ls _ hb
    refine (copyBodies_follows rest).done fun ms _ ⟨hr, count⟩ => ⟨?_, congrArg (· + 1) count⟩
    rw [List.flatMap_cons, hb, hr]

theorem copyHandlerBodies_follows : (handlers : List Handler) →
    BodiesFollow (handlers.map (·.body)) (copyHandlerBodies handlers)
  | [] => by
    unfold copyHandlerBodies
    exact .pure ⟨rfl, rfl⟩
  | ⟨_, _, body⟩ :: rest => by
    unfold copyHandlerBodies
    apply (copyBlock_follows body).bind
    intro ls _ hb
    refine (copyHandlerBodies_follows rest).done fun ms _ ⟨hr, count⟩ => ⟨?_, congrArg (· + 1) count⟩
    rw [List.flatMap_cons, hb, hr]

end

/-- The leaves of a copy of a function, and the types of variables with those of the copy. -/
theorem FuncDef.instantiate_leaves (d : FuncDef) (args : TypeArgs) (node : NodeId)
    (types : VarTypes) :
    let made := copyLeaves args ⟨∅, types⟩ (d.leaves .copying)
    (d.instantiate args node types).1.leaves .copying = made.1 ∧
      (d.instantiate args node types).2.2 = made.2.vars := by
  obtain ⟨naming, leaves⟩ := d.copy_follows args ⟨∅, node, types⟩
  exact ⟨leaves, congrArg Naming.vars naming⟩

end Gradual
