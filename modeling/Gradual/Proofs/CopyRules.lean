import Gradual.Checker.Copy
import Gradual.Proofs.Occurrence
import Gradual.Proofs.Outline

/-!
Rules for copying: ids are taken one after the other, names that are local get variables of the copy,
and what is copied piece by piece has the ids of all pieces.
-/

namespace Gradual

/-- All that a copy of an expression has in common with the expression: it introduces new variables
or shared ones, and replaces the types of new ones only. -/
structure Expr.Renames (first : VarId) (copy orig : Expr) : Prop where
  retypings : ∀ r ∈ copy.retypings, first ≤ r.1
  introduces : ∀ v ∈ copy.introduces, first ≤ v ∨ v ∈ orig.shares

/-- The same of a statement itself. -/
structure StmtKind.Renames (first : VarId) (copy orig : StmtKind) : Prop where
  retypings : ∀ r ∈ copy.retypings, first ≤ r.1 ∨ r.1 ∈ orig.shares
  introduces : ∀ v ∈ copy.introduces, first ≤ v

/-- Most kinds of statements give types to no variables of their own. -/
theorem StmtKind.Renames.plain {first : VarId} {copy orig : StmtKind}
    (retypings : copy.retypings = []) (introduces : copy.introduces = []) :
    copy.Renames first orig :=
  ⟨by simp [retypings], by simp [introduces]⟩

/-! ### Lists of parts -/

/-- Lists that agree in two parts of their items agree in all that is told from both. -/
theorem map_eq_of_parts {α β γ δ : Type} {f : α → β} {g : α → γ} {h : α → δ} (mk : β → γ → δ)
    {xs ys : List α} (told : ∀ a, h a = mk (f a) (g a)) (left : xs.map f = ys.map f)
    (right : xs.map g = ys.map g) : xs.map h = ys.map h := by
  have zipped : ∀ zs : List α, zs.map h = List.zipWith mk (zs.map f) (zs.map g) := by
    intro zs
    rw [List.zipWith_map, List.zipWith_self]
    exact List.map_congr_left fun a _ => told a
  rw [zipped, zipped, left, right]

/-- The parts of what is put together from three lists of one length. -/
theorem map_zip_parts {α β γ δ : Type} {xs : List α} {ys : List β} {zs : List γ}
    {mk : α × β × γ → δ} {f : δ → α} {g : δ → β} {h : δ → γ} (left : ∀ p, f (mk p) = p.1)
    (middle : ∀ p, g (mk p) = p.2.1) (right : ∀ p, h (mk p) = p.2.2) (many : ys.length = xs.length)
    (many' : zs.length = xs.length) :
    ((xs.zip (ys.zip zs)).map mk).map f = xs ∧ ((xs.zip (ys.zip zs)).map mk).map g = ys ∧
      ((xs.zip (ys.zip zs)).map mk).map h = zs := by
  have inner : (xs.zip (ys.zip zs)).map Prod.snd = ys.zip zs :=
    List.map_snd_zip (by simp; omega)
  simp only [List.map_map, Function.comp_def, left, middle, right]
  refine ⟨List.map_fst_zip (by simp; omega), ?_, ?_⟩
  · have firsts := congrArg (List.map Prod.fst) inner
    rw [List.map_map, List.map_fst_zip (by omega)] at firsts
    exact firsts
  · have seconds := congrArg (List.map Prod.snd) inner
    rw [List.map_map, List.map_snd_zip (by omega)] at seconds
    exact seconds

/-- The parts of what is put together from two lists of one length. -/
theorem map_zip_pair {α β δ : Type} {xs : List α} {ys : List β} {mk : α × β → δ} {f : δ → α}
    {g : δ → β} (left : ∀ p, f (mk p) = p.1) (right : ∀ p, g (mk p) = p.2)
    (many : ys.length = xs.length) :
    ((xs.zip ys).map mk).map f = xs ∧ ((xs.zip ys).map mk).map g = ys := by
  simp only [List.map_map, Function.comp_def, left, right]
  exact ⟨List.map_fst_zip (by omega), List.map_snd_zip (by omega)⟩

theorem clauses_parts (targets : List (List Expr)) (sequences : List Expr)
    (conditions : List (List Expr)) (manySequences : sequences.length = targets.length)
    (manyConditions : conditions.length = targets.length) :
    let copies : List Clause := (targets.zip (sequences.zip conditions)).map fun (t, s, c) => ⟨t, s, c⟩
    copies.map (·.targets) = targets ∧ copies.map (·.sequence) = sequences ∧
      copies.map (·.conditions) = conditions :=
  map_zip_parts (fun _ => rfl) (fun _ => rfl) (fun _ => rfl) manySequences manyConditions

theorem params_parts (ps : List Param) (vars : List Var) (defaults : List (Option Expr))
    (manyVars : vars.length = ps.length) (manyDefaults : defaults.length = ps.length) :
    let copies : List Param := (ps.zip (vars.zip defaults)).map fun (p, v, d) => ⟨v, p.kind, d⟩
    copies.map (·.kind) = ps.map (·.kind) ∧ copies.map (·.var) = vars ∧
      copies.map (·.default) = defaults := by
  intro copies
  have byKind : copies =
      ((ps.map (·.kind)).zip (vars.zip defaults)).map fun (k, v, d) => ⟨v, k, d⟩ := by
    rw [List.zip_map_left, List.map_map]
    rfl
  rw [byKind]
  exact map_zip_parts (fun _ => rfl) (fun _ => rfl) (fun _ => rfl) (by simpa using manyVars)
    (by simpa using manyDefaults)

theorem arms_parts (tests : List Expr) (bodies : List (List Stmt))
    (manyBodies : bodies.length = tests.length) :
    let copies : List Arm := (tests.zip bodies).map fun (t, b) => ⟨t, b⟩
    copies.map (·.test) = tests ∧ copies.map (·.body) = bodies :=
  map_zip_pair (fun _ => rfl) (fun _ => rfl) manyBodies

theorem handlers_parts (types vars : List (Option Expr)) (bodies : List (List Stmt))
    (manyVars : vars.length = types.length) (manyBodies : bodies.length = types.length) :
    let copies : List Handler := (types.zip (vars.zip bodies)).map fun (t, v, b) => ⟨t, v, b⟩
    copies.map (·.type) = types ∧ copies.map (·.var) = vars ∧ copies.map (·.body) = bodies :=
  map_zip_parts (fun _ => rfl) (fun _ => rfl) (fun _ => rfl) manyVars manyBodies

namespace Copy

/-- Copies of expressions that have these ids. -/
structure Renamed (first : VarId) (ids : List NodeId) (copies origs : List Expr) : Prop where
  nodes : (copies.map (·.id)).Perm ids
  vars : ∀ c ∈ copies, ∃ o ∈ origs, c.Renames first o

/-- Copies of expressions and of statements, all of whose expressions together have these ids. -/
structure Carried (first : VarId) (ids : List NodeId) (es os : List Expr) (ss ts : List Stmt) :
    Prop where
  exprs : Renamed first ids (es ++ ss.flatMap (·.exprs)) (os ++ ts.flatMap (·.exprs))
  stmts : ∀ s ∈ ss, ∃ t ∈ ts, s.kind.Renames first t.kind

variable {first : VarId} {i j : List NodeId}

namespace Renamed

variable {copies copies' origs origs' : List Expr}

theorem nil : Renamed first [] [] [] := ⟨.nil, by simp⟩

theorem append (h : Renamed first i copies origs) (h' : Renamed first j copies' origs') :
    Renamed first (i ++ j) (copies ++ copies') (origs ++ origs') where
  nodes := by
    rw [List.map_append]
    exact h.nodes.append h'.nodes
  vars c member := by
    rcases List.mem_append.mp member with left | right
    · obtain ⟨o, ho, renames⟩ := h.vars c left
      exact ⟨o, List.mem_append_left _ ho, renames⟩
    · obtain ⟨o, ho, renames⟩ := h'.vars c right
      exact ⟨o, List.mem_append_right _ ho, renames⟩

/-- The order does not matter. -/
theorem perm (h : Renamed first i copies origs) (same : copies'.Perm copies)
    (same' : origs'.Perm origs) : Renamed first i copies' origs' where
  nodes := (same.map _).trans h.nodes
  vars c member := by
    obtain ⟨o, ho, renames⟩ := h.vars c (same.subset member)
    exact ⟨o, same'.symm.subset ho, renames⟩

end Renamed

namespace Carried

variable {es es' os os' : List Expr} {ss ss' ts ts' : List Stmt}

theorem ofExprs (h : Renamed first i es os) : Carried first i es os [] [] where
  exprs := by simpa using h
  stmts := by simp

theorem append (h : Carried first i es os ss ts) (h' : Carried first j es' os' ss' ts') :
    Carried first (i ++ j) (es ++ es') (os ++ os') (ss ++ ss') (ts ++ ts') where
  exprs := by
    have regrouped : ∀ (es es' : List Expr) (ss ss' : List Stmt),
        ((es ++ es') ++ (ss ++ ss').flatMap (·.exprs)).Perm
          ((es ++ ss.flatMap (·.exprs)) ++ (es' ++ ss'.flatMap (·.exprs))) := by
      intro es es' ss ss'
      rw [List.flatMap_append, List.append_assoc, List.append_assoc]
      exact (List.perm_append_comm_assoc es' _ _).append_left es
    exact (h.exprs.append h'.exprs).perm (regrouped es es' ss ss') (regrouped os os' ts ts')
  stmts s member := by
    rcases List.mem_append.mp member with left | right
    · obtain ⟨t, ht, renames⟩ := h.stmts s left
      exact ⟨t, List.mem_append_left _ ht, renames⟩
    · obtain ⟨t, ht, renames⟩ := h'.stmts s right
      exact ⟨t, List.mem_append_right _ ht, renames⟩

/-- The order of the expressions does not matter. -/
theorem congr (h : Carried first i es os ss ts) (exprs : es'.Perm es) (exprs' : os'.Perm os)
    (stmts : ss' = ss) (stmts' : ts' = ts) : Carried first i es' os' ss' ts' := by
  subst stmts stmts'
  exact ⟨h.exprs.perm (exprs.append_right _) (exprs'.append_right _), h.stmts⟩

/-- A statement with the statements in it. -/
theorem cons {s t : Stmt} (own : s.kind.Renames first t.kind)
    (h : Carried first i s.exprs t.exprs ss ts) : Carried first i [] [] (s :: ss) (t :: ts) where
  exprs := by simpa using h.exprs
  stmts u member := by
    rcases List.mem_cons.mp member with rfl | inner
    · exact ⟨t, List.mem_cons_self, own⟩
    · obtain ⟨o, ho, renames⟩ := h.stmts u inner
      exact ⟨o, List.mem_cons_of_mem _ ho, renames⟩

end Carried

/-! ### Taking ids -/

/-- What has been copied stands for new variables, which start with the first one. -/
structure Holds (first : VarId) (c : CopyState) : Prop where
  next : first ≤ c.vars.next
  renamed : ∀ (id : VarId) (v : Var), c.renamed[id]? = some v → first ≤ v.id

/-- Copying gives types only to variables that it makes. -/
structure Grows (c c' : CopyState) : Prop where
  nextVar : c.vars.next ≤ c'.vars.next
  vars : ∀ v : Var, v.id < c.vars.next → c'.vars.get? v = c.vars.get? v

theorem Grows.refl (c : CopyState) : Grows c c := ⟨Nat.le_refl _, fun _ _ => rfl⟩

theorem Grows.trans {c d e : CopyState} (before : Grows c d) (after : Grows d e) : Grows c e where
  nextVar := Nat.le_trans before.nextVar after.nextVar
  vars v old := (after.vars v (Nat.lt_of_lt_of_le old before.nextVar)).trans (before.vars v old)

/-- The copy takes some ids, one after the other from the one that is free, and what is made of
them has the property. -/
def Takes {α : Type} (first : VarId) (x : Copy α) (post : List NodeId → α → Prop) : Prop :=
  ∀ args c, Holds first c →
    ∃ count, ((x.run args).run c).2.nextNode = c.nextNode + count ∧
      Grows c ((x.run args).run c).2 ∧ Holds first ((x.run args).run c).2 ∧
      post (List.range' c.nextNode count) ((x.run args).run c).1

namespace Takes

variable {α β : Type} {x : Copy α} {post : List NodeId → α → Prop} {f : α → Copy β}
  {goal : List NodeId → β → Prop}

theorem pure {a : α} (h : post [] a) : Takes first (Pure.pure a : Copy α) post :=
  fun _ c holds => ⟨0, rfl, .refl c, holds, h⟩

theorem bind (before : Takes first x post)
    (after : ∀ i a, post i a → Takes first (f a) fun j b => goal (i ++ j) b) :
    Takes first (x >>= f) goal := by
  intro args c holds
  obtain ⟨count, next, grown, held, made⟩ := before args c holds
  obtain ⟨count', next', grown', held', made'⟩ := after _ _ made args _ held
  refine ⟨count + count', ?_, grown.trans grown', held', ?_⟩
  · exact next'.trans (by rw [next, Nat.add_assoc])
  · rw [next, List.range'_append_1] at made'
    exact made'

theorem imp {weaker : List NodeId → α → Prop} (h : Takes first x post)
    (implies : ∀ i a, post i a → weaker i a) : Takes first x weaker := by
  intro args c holds
  obtain ⟨count, next, grown, held, made⟩ := h args c holds
  exact ⟨count, next, grown, held, implies _ _ made⟩

/-- The last part of what is made. -/
theorem done {g : α → β} (h : Takes first x post) (make : ∀ i a, post i a → goal i (g a)) :
    Takes first (x >>= fun a => Pure.pure (g a)) goal := by
  refine h.bind fun i a made => .pure ?_
  rw [List.append_nil]
  exact make i a made

/-- A part that takes no ids. -/
theorem skip {also : α → Prop} (before : Takes first x fun i a => i = [] ∧ also a)
    (after : ∀ a, also a → Takes first (f a) goal) : Takes first (x >>= f) goal :=
  before.bind fun _ a ⟨none_taken, made⟩ => by simpa [none_taken] using after a made

/-- Parts that take no ids. -/
theorem mapM_skip {γ : Type} {xs : List γ} {f : γ → Copy β} {also : β → Prop}
    (h : ∀ c ∈ xs, Takes first (f c) fun i b => i = [] ∧ also b) :
    Takes first (xs.mapM f) fun i bs => i = [] ∧ bs.length = xs.length ∧ ∀ b ∈ bs, also b := by
  induction xs with
  | nil => exact .pure (by simp)
  | cons c xs ih =>
    rw [List.mapM_cons]
    apply (h c List.mem_cons_self).skip
    intro b hb
    refine (ih fun d hd => h d (List.mem_cons_of_mem _ hd)).done fun i bs made => ?_
    obtain ⟨none_taken, count, others⟩ := made
    exact ⟨none_taken, by simp [count], List.forall_mem_cons.mpr ⟨hb, others⟩⟩

end Takes

theorem freshNode_takes : Takes first freshNode fun i id => i = [id] :=
  fun _ _ holds =>
    ⟨1, rfl, ⟨Nat.le_refl _, fun _ _ => rfl⟩, ⟨holds.next, holds.renamed⟩, rfl⟩

theorem type_takes {t : Ty} : Takes first (type t) fun i _ => i = [] ∧ True :=
  fun _ c holds => ⟨0, rfl, .refl c, holds, rfl, True.intro⟩

theorem get?_fresh_of_lt {types : VarTypes} {u : Var} (old : u.id < types.next)
    (name fullName : String) (owner : Option ClassId) (type : Option Ty) :
    (types.fresh name fullName owner type).2.get? u = types.get? u := by
  have ne : types.next ≠ u.id := (Nat.ne_of_lt old).symm
  cases type <;> simp [VarTypes.fresh, VarTypes.get?, Std.TreeMap.getElem?_insert, ne]

theorem freshVar_takes {v : Var} : Takes first (freshVar v) fun i u => i = [] ∧ first ≤ u.id := by
  intro args c holds
  have grown : Grows c (((freshVar v).run args).run c).2 :=
    ⟨Nat.le_succ _, fun _ old => get?_fresh_of_lt old v.name v.fullName v.owner _⟩
  refine ⟨0, rfl, grown, ⟨Nat.le_trans holds.next grown.nextVar, fun id u known => ?_⟩, rfl,
    holds.next⟩
  have inserted : (c.renamed.insert v.id ⟨c.vars.next, v.name, v.fullName, v.owner⟩)[id]? = some u :=
    known
  rw [Std.TreeMap.getElem?_insert] at inserted
  split at inserted
  · cases inserted
    exact holds.next
  · exact holds.renamed id u inserted

/-- An occurrence of a variable gets a new variable if it introduces one, and else the one that stands
for the variable. -/
theorem run_name_var (ref : NameRef) (v : Var) (names : ref.symbol = .var v) (args : TypeArgs)
    (c : CopyState) :
    let naming (u : Var) : NameRef := { ref with symbol := .var u }
    ((Copy.name ref).run args).run c =
      ((if ref.isDef && ref.binding == .inFunction && !c.renamed.contains v.id then
          naming <$> freshVar v
        else naming <$> renamed v).run args).run c := by
  obtain ⟨name, fullName, binding, symbol, isDef⟩ := ref
  subst names
  cases isDef <;> cases binding <;> rfl

/-- A local name that is introduced gets a variable of the copy. -/
theorem name_takes {ref : NameRef} : Takes first (Copy.name ref) fun i copy => i = [] ∧
    copy.outline = ref.outline ∧ ∀ v ∈ copy.introduces,
      first ≤ v ∨ ref.binding ≠ .inFunction ∧ v ∈ ref.introduces := by
  obtain ⟨name, fullName, binding, symbol, isDef⟩ := ref
  cases symbol with
  | func | cls | module | typeVar =>
    exact .pure ⟨rfl, rfl, by cases isDef <;> simp [NameRef.introduces]⟩
  | var v =>
    intro args c holds
    let naming (u : Var) : NameRef := ⟨name, fullName, binding, .var u, isDef⟩
    rw [run_name_var (naming v) v rfl]
    by_cases new : (isDef && binding == .inFunction && !c.renamed.contains v.id) = true
    · rw [if_pos new]
      have named : Takes first (naming <$> freshVar v) fun i copy => i = [] ∧
          copy.outline = NameRef.outline ⟨name, fullName, binding, .var v, isDef⟩ ∧
          ∀ u ∈ copy.introduces, first ≤ u := by
        refine freshVar_takes.done fun i u ⟨none_taken, fresh⟩ => ⟨none_taken, rfl, ?_⟩
        cases isDef <;> simp [naming, NameRef.introduces, fresh]
      obtain ⟨count, next, grown, held, none_taken, outline, fresh⟩ := named args c holds
      exact ⟨count, next, grown, held, none_taken, outline, fun u introduced =>
        .inl (fresh u introduced)⟩
    · rw [if_neg new]
      refine ⟨0, rfl, .refl c, holds, rfl, rfl, fun u introduced => ?_⟩
      cases isDef with
      | false => cases introduced
      | true =>
        obtain rfl : u = ((c.renamed[v.id]?).getD v).id := List.mem_singleton.mp introduced
        cases known : c.renamed[v.id]? with
        | some u => exact .inl (holds.renamed v.id u known)
        | none =>
          have absent : c.renamed.contains v.id = false := by
            rw [Std.TreeMap.contains_eq_isSome_getElem?, known]
            rfl
          have shared : binding ≠ .inFunction := by simpa [absent] using new
          exact .inr ⟨shared, List.mem_singleton.mpr rfl⟩

theorem lambdaParams_takes {params : List (Var × ArgKind)} :
    Takes first (lambdaParams params) fun i copy => i = [] ∧
      (copy.map fun p => ((default : Var), p.2)) = (params.map fun p => ((default : Var), p.2)) ∧
      ∀ p ∈ copy, first ≤ p.1.id := by
  unfold lambdaParams
  induction params with
  | nil => exact .pure (by simp)
  | cons p rest ih =>
    obtain ⟨v, kind⟩ := p
    rw [List.mapM_cons]
    have renamed : Takes first (do return (← freshVar v, kind)) fun i p =>
        i = [] ∧ p.2 = kind ∧ first ≤ p.1.id :=
      freshVar_takes.done fun i u ⟨none_taken, fresh⟩ => ⟨none_taken, rfl, fresh⟩
    apply renamed.skip
    · intro p ⟨same, fresh⟩
      refine ih.done fun i copy ⟨none_taken, outline, others⟩ => ⟨none_taken, ?_, ?_⟩
      · rw [List.map_cons, List.map_cons, outline, same]
      · exact List.forall_mem_cons.mpr ⟨fresh, others⟩

end Copy
end Gradual
