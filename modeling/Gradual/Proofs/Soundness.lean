import Gradual.Proofs.ScopeBalance

/-!
What a result without reports says. A statement that can go wrong either reports or leaves types that
fit, and what is checked later neither takes the report back nor records another type for the
expressions of the statement; so of a module in which nothing is reported all statements fit.
-/

namespace Gradual

/-! ### What fits -/

/-- What is known of the code that is checked: is it dynamic, and what is to be returned, if the
function around declares that? -/
structure Surroundings where
  dynamic : Bool
  returns : Option Ty

namespace Surroundings

/-- The body of a function, or the code outside all functions. -/
def of (f : Option FuncDef) : Surroundings where
  dynamic := f.any (·.signature.isNone)
  returns := (f.bind (·.signature)).map (·.ret)

/-- The scope is as the surroundings say. -/
structure Hold (k : Surroundings) (scope : Scope) : Prop where
  dynamic : scope.functions.head?.any (·.isDynamic) = k.dynamic
  returns : ∀ type ∈ k.returns, scope.returnTypes.head? = some type

end Surroundings

/-- What a module is checked with: `retypings` are those of the module, whose ids are all below the
first ones of copies. -/
structure Setting where
  env : Env
  retypings : List Retyping
  firstNode : NodeId
  firstVar : VarId
  /-- The types of variables before the module is checked. -/
  types : Var → Option Ty

namespace Setting

/-- The effects of checking statements whose expressions have these ids. -/
def effects (c : Setting) (nodes : List NodeId) : Effects where
  nodes id := id ∈ nodes
  retypes v type := ∃ r ∈ c.retypings, r.1 = v ∧ (r.2 = none ∨ r.2 = some type)
  infers _ := True
  copies := true
  declares := true

/-- The variable has the type before the module is checked, and nothing in the module gives it
another. -/
def Declares (c : Setting) (v : Var) (type : Ty) : Prop :=
  c.types v = some type ∧ v.id < c.firstVar ∧ ∀ r ∈ c.retypings, r.1 = v.id → r.2 = some type

variable {c : Setting}

/-- What is listed is allowed. -/
theorem allows_of_mem {nodes : List NodeId} {r : Retyping} (listed : r ∈ c.retypings) :
    (c.effects nodes).Allows r := fun _ given => ⟨r, listed, rfl, given⟩

/-- A declared variable gets no other type. -/
theorem Declares.only {v : Var} {type : Ty} (h : c.Declares v type) (nodes : List NodeId) :
    ∀ given, (c.effects nodes).retypes v.id given → given = type := by
  rintro given ⟨r, listed, same, unknown | known⟩
  · cases unknown.symm.trans (h.2.2 r listed same)
  · exact Option.some.inj (known.symm.trans (h.2.2 r listed same))

/-- The variables that the expression and those in it give types to are listed. -/
def Lists (c : Setting) (e : Expr) : Prop := ∀ x ∈ e.all, x.retypings ⊆ c.retypings

theorem within_of_lists {es : List Expr} (h : ∀ e ∈ es, c.Lists e) :
    ∀ e ∈ es, e.Within (c.effects (es.flatMap (·.nodes))) := by
  intro e member x inside
  refine ⟨?_, fun r given => allows_of_mem (h e member x inside given), fun _ _ => True.intro⟩
  exact List.mem_flatMap.mpr ⟨e, member, List.mem_map.mpr ⟨x, inside, rfl⟩⟩

theorem within_of_lists_self {e : Expr} (h : c.Lists e) : e.Within (c.effects e.nodes) :=
  fun x inside => ⟨List.mem_map.mpr ⟨x, inside, rfl⟩, fun _ given =>
    allows_of_mem (h x inside given), fun _ _ => True.intro⟩

/-- The variables that the statement itself gives types to are listed. -/
structure Knows (c : Setting) (s : Stmt) : Prop where
  exprs : ∀ e ∈ s.kind.exprs, c.Lists e
  vars : s.kind.retypings ⊆ c.retypings

theorem Knows.within {s : Stmt} (h : c.Knows s) : s.Within (c.effects s.nodes) :=
  ⟨within_of_lists h.exprs, fun _ given => allows_of_mem (h.vars given), fun _ _ => True.intro,
    fun _ => rfl⟩

theorem knows_of_subset {s : Stmt} (h : s.retypings ⊆ c.retypings) : c.Knows s where
  exprs e member x inside _ given := h (List.mem_append_right _ (List.mem_flatMap.mpr
    ⟨e, member, List.mem_flatMap.mpr ⟨x, inside, given⟩⟩))
  vars _ given := h (List.mem_append_left _ given)

end Setting

/-- What is recorded for a statement fits what is declared: the value of a `return`, if the function
around has a signature, and the value of the definition of one variable, outside functions
without. -/
def Place.Fits (o : TypeOrder) (declares : Var → Ty → Prop) (types : TypeMap) (p : Place) : Prop :=
  match p.stmt.kind with
  | .ret (some e) => ∀ d ∈ p.func, ∀ s ∈ d.signature, ∀ type, types[e.id]? = some type →
      o.isSubtype type s.ret = true
  | .varDef [v] _ _ (some e) => e.isPlaceholder = false → (∀ d ∈ p.func, d.signature.isSome = true) →
      ∀ declared, declares v declared → ∀ type, types[e.id]? = some type →
        o.isSubtype type declared = true
  | _ => True

namespace Place.Fits

variable {o : TypeOrder} {declares : Var → Ty → Prop} {types types' : TypeMap} {p : Place}

/-- Only what is recorded for the expressions of the statement counts. -/
theorem congr (same : ∀ id ∈ p.stmt.nodes, types'[id]? = types[id]?) (h : p.Fits o declares types) :
    p.Fits o declares types' := by
  have own : ∀ e ∈ p.stmt.kind.exprs, types'[e.id]? = types[e.id]? := fun e member =>
    same _ (List.mem_flatMap.mpr ⟨e, member, List.mem_map.mpr ⟨e, e.self_mem_all, rfl⟩⟩)
  unfold Place.Fits at h ⊢
  split at h
  · rename_i e returned
    rw [returned] at own
    rw [own e (by simp [StmtKind.exprs])]
    exact h
  · rename_i v binding isTopLevel e defined
    rw [defined] at own
    rw [own e (by simp [StmtKind.exprs])]
    exact h
  · trivial

/-- A statement for which nothing is recorded fits. -/
theorem of_unrecorded (none : ∀ id ∈ p.stmt.nodes, types[id]? = none) : p.Fits o declares types := by
  have own : ∀ e ∈ p.stmt.kind.exprs, types[e.id]? = Option.none := fun e member =>
    none _ (List.mem_flatMap.mpr ⟨e, member, List.mem_map.mpr ⟨e, e.self_mem_all, rfl⟩⟩)
  unfold Place.Fits
  split
  · rename_i e returned
    rw [returned] at own
    intro d _ s _ type recorded
    rw [own e (by simp [StmtKind.exprs])] at recorded
    cases recorded
  · rename_i v binding isTopLevel e defined
    rw [defined] at own
    intro _ _ declared _ type recorded
    rw [own e (by simp [StmtKind.exprs])] at recorded
    cases recorded
  · trivial

end Place.Fits

/-- The ids of the expressions of some statements. -/
def nodesOf (places : List Place) : List NodeId := places.flatMap (·.stmt.nodes)

theorem nodesOf_append (first second : List Place) :
    nodesOf (first ++ second) = nodesOf first ++ nodesOf second := List.flatMap_append ..

theorem mem_nodesOf {places : List Place} {p : Place} {id : NodeId} (member : p ∈ places)
    (own : id ∈ p.stmt.nodes) : id ∈ nodesOf places := List.mem_flatMap.mpr ⟨p, member, own⟩

/-! ### Checking without reports -/

/-- Nothing is recorded yet for the expressions of these statements and with these other ids, none
of which occurs twice. -/
structure Ready (c : Setting) (k : Surroundings) (nodes : List NodeId) (s : State) : Prop where
  holds : k.Hold s.scope
  nextNode : c.firstNode ≤ s.nextNode
  nextVar : c.firstVar ≤ s.vars.next
  fresh : ∀ id ∈ nodes, s.types[id]? = none
  distinct : nodes.Nodup
  old : ∀ id ∈ nodes, id < c.firstNode
  declared : ∀ v type, c.Declares v type → s.vars.get? v = some type

namespace Check

/-- An action that checks the statements, and has expressions with the other ids: it records nothing
else, and if nothing has been reported when it is done the statements fit. -/
structure Sound (c : Setting) (k : Surroundings) (nodes : List NodeId) (places : List Place)
    (x : Check Unit) : Prop where
  keeps : Keeps (c.effects (nodes ++ nodesOf places)) x
  fits : ∀ s, Ready c k (nodes ++ nodesOf places) s → (x.outcome c.env s).2.diagnostics = [] →
    ∀ p ∈ places, p.Fits c.env.order c.Declares (x.outcome c.env s).2.types

end Check

namespace Check

variable {c : Setting} {k : Surroundings} {N M : List NodeId} {P Q : List Place} {x y : Check Unit}

theorem Keeps.more {α : Type} {x : Check α} {post : α → Prop} (h : Keeps (c.effects N) x post)
    (more : N ⊆ M) : Keeps (c.effects M) x post :=
  h.mono ⟨fun _ member => more member, fun _ _ => id, fun _ => id, id⟩ id

end Check

namespace Ready

variable {c : Setting} {k : Surroundings} {N M : List NodeId} {s s' : State}

theorem of_subset (h : Ready c k N s) (fewer : M ⊆ N) (distinct : M.Nodup) : Ready c k M s :=
  { h with fresh := fun id member => h.fresh id (fewer member), distinct
           old := fun id member => h.old id (fewer member) }

/-- What has other ids is left unrecorded. -/
theorem types_eq {id : NodeId} (frame : (c.effects M).Frame s s') (nextNode : c.firstNode ≤ s.nextNode)
    (old : id < c.firstNode) (other : id ∉ M) : s'.types[id]? = s.types[id]? :=
  frame.types other (.inl (Nat.lt_of_lt_of_le old nextNode))

theorem hold_of_frame {w : Effects} (frame : w.Frame s s') (h : k.Hold s.scope) : k.Hold s'.scope := by
  rw [frame.scope]
  exact ⟨h.dynamic, h.returns⟩

/-- What is to be checked behind an action that has other ids is ready when that is done. -/
theorem next (h : Ready c k N s) (frame : (c.effects M).Frame s s') (other : ∀ id ∈ N, id ∉ M) :
    Ready c k N s' where
  holds := hold_of_frame frame h.holds
  nextNode := Nat.le_trans h.nextNode frame.nextNode
  nextVar := Nat.le_trans h.nextVar frame.nextVar
  fresh id member :=
    (types_eq frame h.nextNode (h.old id member) (other id member)).trans (h.fresh id member)
  distinct := h.distinct
  old := h.old
  declared v type declares :=
    frame.typed (Nat.lt_of_lt_of_le declares.2.1 h.nextVar) (declares.only M)
      (h.declared v type declares)

end Ready

namespace Check.Sound

variable {c : Setting} {k k' : Surroundings} {N M : List NodeId} {P Q : List Place}
  {x y : Check Unit}

/-- An action that checks no statements. -/
theorem own (h : Keeps (c.effects N) x) : Sound c k N [] x where
  keeps := h.more (List.subset_append_left _ _)
  fits _ _ _ := by simp

/-- Statements that are not checked fit. -/
theorem skipped (h : Keeps (c.effects N) x) : Sound c k N P x where
  keeps := h.more (List.subset_append_left _ _)
  fits := by
    intro s ready _ p member
    refine .of_unrecorded fun id own => ?_
    have listed : id ∈ nodesOf P := mem_nodesOf member own
    have unlisted : id ∉ N := fun also =>
      (List.nodup_append.mp ready.distinct).2.2 id also id listed rfl
    have frame := h.frame c.env s
    rw [Ready.types_eq frame ready.nextNode (ready.old id (by simp [listed])) unlisted]
    exact ready.fresh id (by simp [listed])

theorem skip : Sound c k N P (pure ()) := skipped .done

/-- One action after the other. -/
theorem seq (first : Sound c k N P x) (second : Sound c k M Q y) :
    Sound c k (N ++ M) (P ++ Q) (x >>= fun _ => y) := by
  have regrouped : ((N ++ M) ++ nodesOf (P ++ Q)).Perm
      ((N ++ nodesOf P) ++ (M ++ nodesOf Q)) := by
    rw [nodesOf_append, List.append_assoc, List.append_assoc]
    exact (List.perm_append_comm_assoc M (nodesOf P) (nodesOf Q)).append_left N
  have bothKeep : Keeps (c.effects ((N ++ nodesOf P) ++ (M ++ nodesOf Q))) (x >>= fun _ => y) :=
    (first.keeps.more (List.subset_append_left _ _)).seq fun _ =>
      second.keeps.more (List.subset_append_right _ _)
  refine ⟨bothKeep.more regrouped.symm.subset, ?_⟩
  intro s ready clean
  rw [outcome_bind] at clean ⊢
  obtain ⟨distinctFirst, distinctSecond, apart⟩ :=
    List.nodup_append.mp (regrouped.nodup_iff.mp ready.distinct)
  have firstListed : N ++ nodesOf P ⊆ (N ++ M) ++ nodesOf (P ++ Q) :=
    List.Subset.trans (List.subset_append_left _ _) regrouped.symm.subset
  have secondListed : M ++ nodesOf Q ⊆ (N ++ M) ++ nodesOf (P ++ Q) :=
    List.Subset.trans (List.subset_append_right _ _) regrouped.symm.subset
  have readyFirst := ready.of_subset firstListed distinctFirst
  have frame := first.keeps.frame c.env s
  have readySecond := (ready.of_subset secondListed distinctSecond).next frame
    fun id later earlier => apart id earlier id later rfl
  have frame' := second.keeps.frame c.env (x.outcome c.env s).2
  have cleanFirst : (x.outcome c.env s).2.diagnostics = [] := by
    obtain ⟨new, appended, -⟩ := frame'.diagnostics
    exact (List.append_eq_nil_iff.mp (appended.symm.trans clean)).1
  intro p member
  rcases List.mem_append.mp member with earlier | later
  · refine (first.fits s readyFirst cleanFirst p earlier).congr fun id own => ?_
    have listed : id ∈ N ++ nodesOf P := by simp [mem_nodesOf earlier own]
    refine Ready.types_eq frame' readySecond.nextNode (ready.old id (firstListed listed)) fun also => ?_
    exact apart id listed id also rfl
  · exact second.fits _ readySecond clean p later

/-- Statements and expressions that are left out before an action. -/
theorem skipping (later : Sound c k M Q x) : Sound c k (N ++ M) (P ++ Q) x := skip.seq later

/-- Statements and expressions that are left out after an action. -/
theorem pruning (first : Sound c k N P x) : Sound c k (N ++ M) (P ++ Q) x := by
  have both : Sound c k (N ++ M) (P ++ Q) (x >>= fun _ => pure ()) := first.seq skip
  rw [bind_pure_unit] at both
  exact both

/-- The expressions of a statement are inferred before the blocks in it are checked. -/
theorem preceded (first : Keeps (c.effects N) x) (later : Sound c k [] Q y) :
    Sound c k N Q (x >>= fun _ => y) := by
  have both : Sound c k (N ++ []) Q (x >>= fun _ => y) := (own first).seq later
  rw [List.append_nil] at both
  exact both

/-- Behind the statements an action infers expressions. -/
theorem ending (first : Sound c k N P x) (last : Keeps (c.effects M) y) :
    Sound c k (N ++ M) P (x >>= fun _ => y) := by
  have both : Sound c k (N ++ M) (P ++ []) (x >>= fun _ => y) := first.seq (own last)
  rw [List.append_nil] at both
  exact both

/-- Behind the statements an action only compares. -/
theorem followed (first : Sound c k N P x) (last : Keeps (c.effects []) y) :
    Sound c k N P (x >>= fun _ => y) := by
  have both := first.ending last
  rw [List.append_nil] at both
  exact both

/-- What only reads decides how to go on. -/
theorem reads {α : Type} {x : Check α} {f : α → Check Unit}
    (same : ∀ env s, (x.outcome env s).2 = s) (h : ∀ a, Sound c k N P (f a)) :
    Sound c k N P (x >>= f) where
  keeps := (Keeps.of_reads same).seq fun a => (h a).keeps
  fits s ready clean := by
    rw [outcome_bind, same] at clean ⊢
    exact (h _).fits s ready clean

/-- A statement with those in it, of which it does not have to fit itself. -/
theorem place {p : Place} (h : Sound c k p.stmt.nodes P x)
    (fits : ∀ types, p.Fits c.env.order c.Declares types) : Sound c k [] (p :: P) x where
  keeps := h.keeps
  fits s ready clean q member := by
    rcases List.mem_cons.mp member with rfl | inner
    · exact fits _
    · exact h.fits s ready clean q inner

/-- The same action in other surroundings. -/
theorem between {enter leave : Scope → Scope}
    (keeps : Keeps (c.effects (N ++ nodesOf P)) (between enter leave x))
    (h : Sound c k' N P x) (enters : ∀ scope, k.Hold scope → k'.Hold (enter scope)) :
    Sound c k N P (between enter leave x) where
  keeps := keeps
  fits s ready clean := by
    rw [outcome_between] at clean ⊢
    exact h.fits { s with scope := enter s.scope }
      { ready with holds := enters _ ready.holds } clean

theorem narrowing {narrowed : Option (Var × Ty)} (h : Sound c k N P x) :
    Sound c k N P (narrowing narrowed x) := by
  cases narrowed with
  | none => exact h
  | some narrowed =>
    have kept : Keeps (c.effects (N ++ nodesOf P)) (Check.narrowing (some narrowed) x) :=
      h.keeps.narrowing
    exact h.between kept fun _ holds => ⟨holds.dynamic, holds.returns⟩

theorem inFunction {frame : Frame} (h : Sound c k' N P x)
    (enters : ∀ scope, k.Hold scope →
      k'.Hold { scope with functions := frame :: scope.functions }) :
    Sound c k N P (inFunction frame x) :=
  h.between h.keeps.inFunction enters

theorem returning {type : Ty} (h : Sound c k' N P x)
    (enters : ∀ scope, k.Hold scope →
      k'.Hold { scope with returnTypes := type :: scope.returnTypes }) :
    Sound c k N P (returning type x) :=
  h.between h.keeps.returning enters

theorem inLocalScope (h : Sound c k N P x) : Sound c k N P (inLocalScope x) where
  keeps := Keeps.inLocalScope h.keeps
  fits s ready :=
    h.fits { s with scope := { s.scope with locals := some ∅ } }
      { ready with holds := ⟨ready.holds.dynamic, ready.holds.returns⟩ }

theorem inClass {cls : ClassId} (h : Sound c k N P x) : Sound c k N P (inClass cls x) :=
  h.between h.keeps.inClass fun _ holds => ⟨holds.dynamic, holds.returns⟩

end Check.Sound

end Gradual
