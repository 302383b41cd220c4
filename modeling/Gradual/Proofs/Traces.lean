import Gradual.Proofs.Events
import Gradual.Proofs.Runs

/-!
What a check leaves as it was, told from what happened in it: it records nothing in the branches that
were ruled out, and the ids in the copies of functions are new and all different.
-/

namespace Gradual

open Check

/-! ### States -/

/-- The id was free in the one state and is not in the other. -/
def HandedOut (s u : State) (id : NodeId) : Prop := s.nextNode ≤ id ∧ id < u.nextNode

theorem HandedOut.not_later {s t u : State} {id : NodeId} (h : HandedOut s t id) :
    ¬ HandedOut t u id :=
  fun later => absurd h.2 (Nat.not_lt.mpr later.1)

theorem handedOut_iff {s t u : State} {id : NodeId} (h : s.nextNode ≤ t.nextNode)
    (h' : t.nextNode ≤ u.nextNode) : HandedOut s u id ↔ HandedOut s t id ∨ HandedOut t u id := by
  constructor
  · rintro ⟨lower, upper⟩
    rcases Nat.lt_or_ge id t.nextNode with early | late
    · exact .inl ⟨lower, early⟩
    · exact .inr ⟨late, upper⟩
  · rintro (⟨lower, upper⟩ | ⟨lower, upper⟩)
    · exact ⟨lower, Nat.lt_of_lt_of_le upper h'⟩
    · exact ⟨Nat.le_trans h lower, upper⟩

/-- Between two states the types change that are recorded for the given ids and for new ones, but for
none that the decisions rule out. -/
structure Spares (nodes : List NodeId) (s u : State) (ds : List Decision) : Prop where
  nextNode : s.nextNode ≤ u.nextNode
  types : ∀ id ∉ nodes, ¬ HandedOut s u id → u.types[id]? = s.types[id]?
  within : ∀ d ∈ ds, ∀ id ∈ d.pruned, id ∈ nodes ∨ HandedOut s u id
  pruned : nodes.Nodup → (∀ id ∈ nodes, ¬ HandedOut s u id) →
    ∀ d ∈ ds, ∀ id ∈ d.pruned, u.types[id]? = s.types[id]?

namespace Spares

variable {a b : List NodeId} {s t u : State} {ds ds' : List Decision}

theorem trans (first : Spares a s t ds) (second : Spares b t u ds') :
    Spares (a ++ b) s u (ds ++ ds') := by
  have handed (id : NodeId) : HandedOut s u id ↔ HandedOut s t id ∨ HandedOut t u id :=
    handedOut_iff first.nextNode second.nextNode
  refine ⟨Nat.le_trans first.nextNode second.nextNode, fun id other old => ?_,
    fun d member id own => ?_, fun distinct old d member id own => ?_⟩
  · rw [List.mem_append, not_or] at other
    rw [handed, not_or] at old
    exact (second.types id other.2 old.2).trans (first.types id other.1 old.1)
  · rw [List.mem_append, handed]
    rcases List.mem_append.mp member with earlier | later
    · exact (first.within d earlier id own).imp .inl .inl
    · exact (second.within d later id own).imp .inr .inr
  · obtain ⟨distinct, distinct', apart⟩ := List.nodup_append.mp distinct
    have olds (id : NodeId) (listed : id ∈ a ++ b) : ¬ HandedOut s t id ∧ ¬ HandedOut t u id :=
      not_or.mp ((handed id).not.mp (old id listed))
    have oldA (id : NodeId) (listed : id ∈ a) := olds id (List.mem_append_left b listed)
    have oldB (id : NodeId) (listed : id ∈ b) := olds id (List.mem_append_right a listed)
    rcases List.mem_append.mp member with earlier | later
    -- What the first part rules out the second one cannot record, as it has other ids.
    · have kept := first.pruned distinct (fun id listed => (oldA id listed).1) d earlier id own
      rcases first.within d earlier id own with listed | new
      · have other : id ∉ b := fun listed' => apart id listed id listed' rfl
        exact (second.types id other (oldA id listed).2).trans kept
      · have other : id ∉ b := fun listed => (oldB id listed).1 new
        exact (second.types id other new.not_later).trans kept
    · have kept := second.pruned distinct' (fun id listed => (oldB id listed).2) d later id own
      rcases second.within d later id own with listed | new
      · have other : id ∉ a := fun listed' => apart id listed' id listed rfl
        exact kept.trans (first.types id other (oldB id listed).1)
      · have other : id ∉ a := fun listed => (oldA id listed).2 new
        exact kept.trans (first.types id other fun earlier => earlier.not_later new)

theorem perm (h : Spares a s u ds) (same : a.Perm b) : Spares b s u ds where
  nextNode := h.nextNode
  types id other := h.types id fun listed => other (same.subset listed)
  within d member id own := (h.within d member id own).imp_left fun listed => same.subset listed
  pruned distinct old :=
    h.pruned (same.nodup_iff.mpr distinct) fun id listed => old id (same.subset listed)

/-- What a decision rules out is none of what is changed. -/
theorem skip (h : Spares a s u ds) {d : Decision} (skipped : ∀ id ∈ d.pruned, id ∈ b) :
    Spares (b ++ a) s u (d :: ds) where
  nextNode := h.nextNode
  types id other := h.types id fun listed => other (List.mem_append_right b listed)
  within c member id own := by
    rw [List.mem_append]
    rcases List.mem_cons.mp member with rfl | member
    · exact .inl (.inl (skipped id own))
    · exact (h.within c member id own).imp_left .inr
  pruned distinct old c member id own := by
    obtain ⟨-, distinct, apart⟩ := List.nodup_append.mp distinct
    rw [List.forall_mem_append] at old
    rcases List.mem_cons.mp member with rfl | member
    · have listed := skipped id own
      exact h.types id (fun listed' => apart id listed id listed' rfl) (old.1 id listed)
    · exact h.pruned distinct old.2 c member id own

/-- What has no nodes but those of copies that are new. -/
theorem of_copies (next : s.nextNode ≤ t.nextNode) (same : t.types = s.types)
    (made : a.Perm (List.range' s.nextNode (t.nextNode - s.nextNode)))
    (h : Spares a t u ds) : Spares b s u ds := by
  have handed (id : NodeId) : HandedOut s u id ↔ HandedOut s t id ∨ HandedOut t u id :=
    handedOut_iff next h.nextNode
  have new : ∀ id ∈ a, HandedOut s t id := fun id listed =>
    (Changes.mem_range'_sub next).mp (made.subset listed)
  -- That `b` has no id twice plays no part: the decisions are about the copies, not about `b`.
  refine ⟨Nat.le_trans next h.nextNode, fun id _ old => ?_, fun d member id own => ?_,
    fun _ _ d member id own => ?_⟩
  · rw [handed, not_or] at old
    rw [← same]
    exact h.types id (fun listed => old.1 (new id listed)) old.2
  · rw [handed]
    exact .inr ((h.within d member id own).imp_left (new id))
  · rw [← same]
    have distinct := made.nodup_iff.mpr List.nodup_range'
    exact h.pruned distinct (fun id listed => (new id listed).not_later) d member id own

end Spares

/-- The ids that are handed out between two states are those in the copies of functions, each of
them once. -/
structure Issues (s u : State) (copies : List FuncDef) : Prop where
  nextNode : s.nextNode ≤ u.nextNode
  nodes : (copies.flatMap (·.nodes)).Perm (List.range' s.nextNode (u.nextNode - s.nextNode))

namespace Issues

variable {s t u : State} {copies copies' : List FuncDef}

theorem of_nextNode_eq (same : t.nextNode = s.nextNode) : Issues s t [] where
  nextNode := Nat.le_of_eq same.symm
  nodes := by simp [same]

theorem trans (first : Issues s t copies) (second : Issues t u copies') :
    Issues s u (copies ++ copies') where
  nextNode := Nat.le_trans first.nextNode second.nextNode
  nodes := by
    rw [List.flatMap_append]
    have inOrder := Changes.range'_append_range' first.nextNode second.nextNode
    exact (first.nodes.append second.nodes).trans (.of_eq inOrder)

theorem distinct (h : Issues s u copies) : (copies.flatMap (·.nodes)).Nodup :=
  h.nodes.nodup_iff.mpr List.nodup_range'

theorem mem_iff (h : Issues s u copies) (id : NodeId) :
    id ∈ copies.flatMap (·.nodes) ↔ HandedOut s u id :=
  h.nodes.mem_iff.trans (Changes.mem_range'_sub h.nextNode)

end Issues

/-- What happened between two states accounts for what is different. -/
structure Traced (nodes : List NodeId) (s u : State) (es : List Event) : Prop where
  spares : Spares nodes s u (decisionsIn es)
  issues : Issues s u (copiesIn es)

namespace Traced

variable {a b : List NodeId} {s t u : State} {es es' : List Event}

theorem trans (first : Traced a s t es) (second : Traced b t u es') :
    Traced (a ++ b) s u (es ++ es') := by
  refine ⟨?_, ?_⟩
  · rw [decisionsIn_append]
    exact first.spares.trans second.spares
  · rw [copiesIn_append]
    exact first.issues.trans second.issues

theorem perm (h : Traced a s u es) (same : a.Perm b) : Traced b s u es :=
  ⟨h.spares.perm same, h.issues⟩

theorem skip (h : Traced a s u es) {d : Decision} (skipped : ∀ id ∈ d.pruned, id ∈ b) :
    Traced (b ++ a) s u (.decided d :: es) :=
  ⟨h.spares.skip skipped, h.issues⟩

/-- What is recorded does not depend on the scope. -/
theorem rescoped {before after : Scope} (h : Traced a { s with scope := before } u es) :
    Traced a s { u with scope := after } es := by
  obtain ⟨⟨nextNode, types, within, pruned⟩, ⟨_, nodes⟩⟩ := h
  exact ⟨⟨nextNode, types, within, pruned⟩, ⟨nextNode, nodes⟩⟩

/-- Copies are made of a function, and then they are checked. -/
theorem of_copies {copies : List FuncDef} (next : s.nextNode ≤ t.nextNode)
    (same : t.types = s.types)
    (made : (copies.flatMap (·.nodes)).Perm (List.range' s.nextNode (t.nextNode - s.nextNode)))
    (h : Traced (copies.flatMap (·.nodes)) t u es) :
    Traced b s u (copies.map .copied ++ es) := by
  refine ⟨?_, ?_⟩
  · rw [decisionsIn_append, decisionsIn_copied, List.nil_append]
    exact h.spares.of_copies next same made
  · rw [copiesIn_append, copiesIn_copied]
    have issued : Issues s t copies := ⟨next, made⟩
    exact issued.trans h.issues

end Traced

/-! ### Actions -/

/-- The effects of what records types for the given ids, and makes no copies. -/
def Effects.recording (nodes : List NodeId) : Effects :=
  ⟨(· ∈ nodes), fun _ _ => True, fun _ => True, false, true⟩

theorem Expr.within_recording {e : Expr} {nodes : List NodeId} (h : e.nodes ⊆ nodes) :
    e.Within (.recording nodes) := fun _ inside =>
  ⟨h (List.mem_map_of_mem inside), fun _ _ _ _ => True.intro, fun _ _ => True.intro⟩

theorem Expr.each_within_recording (items : List Expr) :
    ∀ e ∈ items, e.Within (.recording (items.flatMap (·.nodes))) :=
  fun e member => within_recording fun _ inside => List.mem_flatMap.mpr ⟨e, member, inside⟩

/-- What makes no copies changes no types but those that it may record. -/
theorem Check.Keeps.types_eq {α : Type} {x : Check α} {post : α → Prop} {nodes : List NodeId} {id : NodeId}
    (h : Keeps (Effects.recording nodes) x post) (other : id ∉ nodes) (env : Env) (s : State) :
    (x.outcome env s).2.types[id]? = s.types[id]? := (h.frame env s).types_eq rfl other

/-- Whatever state the action starts in, the events account for what it does. -/
def Check.Traces {α : Type} (nodes : List NodeId) (x : Check α) (es : Events) : Prop :=
  ∀ env s, Traced nodes s (x.outcome env s).2 (es env s)

namespace Check
namespace Traces

variable {a b : List NodeId} {x y : Check Unit} {es es' : Events}

/-- What makes no copies and decides nothing. -/
theorem of_keeps {α : Type} {x : Check α} (h : Keeps (Effects.recording a) x) :
    Traces a x .none := by
  intro env s
  have frame := h.frame env s
  have types (id : NodeId) (other : id ∉ a) (old : ¬ HandedOut s (x.outcome env s).2 id) :
      (x.outcome env s).2.types[id]? = s.types[id]? := by
    rw [HandedOut, not_and_or, Nat.not_le, Nat.not_lt] at old
    exact frame.types other old
  have spares : Spares a s (x.outcome env s).2 [] :=
    ⟨frame.nextNode, types, fun _ member => (nomatch member), fun _ _ _ member => (nomatch member)⟩
  exact ⟨spares, .of_nextNode_eq (frame.nextNode_eq rfl)⟩

theorem perm (h : Traces a x es) (same : a.Perm b) : Traces b x es := fun env s =>
  (h env s).perm same

theorem followed (first : Traces a x es) (second : Traces b y es') :
    Traces (a ++ b) (x >>= fun _ => y) (es.followed x es') := fun env s =>
  (first env s).trans (second env _)

theorem after (first : Keeps (Effects.recording a) x) (second : Traces b y es) :
    Traces (a ++ b) (x >>= fun _ => y) (es.after x) := fun env s =>
  (of_keeps first env s).trans (second env _)

theorem before (first : Traces a x es) (second : Keeps (Effects.recording b) y) :
    Traces (a ++ b) (x >>= fun _ => y) es := by
  intro env s
  have both := (first env s).trans (of_keeps second env _)
  rw [Events.none, List.append_nil] at both
  exact both

/-- Nothing is recorded behind it. -/
theorem ended (first : Traces a x es) (second : Keeps (Effects.recording []) y) :
    Traces a (x >>= fun _ => y) es := by
  have both := first.before second
  rw [List.append_nil] at both
  exact both

theorem between {enter leave : Scope → Scope} (h : Traces a x es) :
    Traces a (between enter leave x) (es.inside (between enter leave)) := fun env s =>
  (h env { s with scope := enter s.scope }).rescoped

theorem inClass {c : ClassId} (h : Traces a x es) :
    Traces a (inClass c x) (es.inside (inClass c)) := h.between

theorem inFunction {frame : Frame} (h : Traces a x es) :
    Traces a (inFunction frame x) (es.inside (inFunction frame)) := h.between

theorem returning {type : Ty} (h : Traces a x es) :
    Traces a (returning type x) (es.inside (returning type)) := h.between

theorem inInstantiation {note : String} (h : Traces a x es) :
    Traces a (inInstantiation note x) (es.inside (inInstantiation note)) := h.between

theorem narrowing {narrowed : Var × Ty} (h : Traces a x es) :
    Traces a (narrowing (some narrowed) x) (es.inside (narrowing (some narrowed))) := h.between

theorem inLocalScope (h : Traces a x es) :
    Traces a (inLocalScope x) (es.inside inLocalScope) := fun env s =>
  (h env { s with scope := { s.scope with locals := some ∅ } }).rescoped

end Traces

/-- A condition with what its guard decides about. -/
theorem checkArm_traces {arm : Arm} {later : List Arm} {orElse : Option Block}
    {body rest : Check Unit} {inBody others : Events}
    (hb : Traces (Block.nodes arm.body) body inBody)
    (hr : Traces (armNodes later orElse) rest others) :
    Traces (armNodes (arm :: later) orElse) (checkArm arm.test body rest)
      (.after (checkCondition arm.test) (guardEvents arm later orElse inBody body others)) := by
  have tested : Keeps (Effects.recording arm.test.nodes) (checkCondition arm.test) :=
    checkCondition_keeps (Expr.within_recording (List.Subset.refl _))
  intro env s
  have cond := Traces.of_keeps tested env s
  generalize reached : ((checkCondition arm.test).outcome env s).2 = t at cond
  have nodes_eq : armNodes (arm :: later) orElse =
      arm.test.nodes ++ (Block.nodes arm.body ++ armNodes later orElse) := by simp [armNodes]
  rw [nodes_eq]
  unfold checkArm Events.after guardEvents
  rw [outcome_bind, outcome_bind, reached]
  have same : ((guard? arm.test).outcome env t).2 = t := rfl
  rw [same]
  -- The cases are those of `guardEvents`: what is skipped is a part of the nodes that nothing visits.
  cases ((guard? arm.test).outcome env t).1 with
  | none => exact cond.trans ((hb.followed hr) env t)
  | some g =>
    obtain ⟨v, target, kind⟩ := g
    have branch : Traces _ (narrowing (some (v, target)) body) _ := hb.narrowing
    cases kind with
    | alwaysFalse =>
      have skipped := (cond.trans (hr env t)).skip (d := ⟨.alwaysFalse, arm.body, later, orElse⟩)
        fun _ own => own
      exact skipped.perm (List.perm_append_comm_assoc ..)
    | alwaysTrue =>
      have skipped := (cond.trans (branch env t)).skip
        (d := ⟨.alwaysTrue, arm.body, later, orElse⟩) fun _ own => own
      exact skipped.perm (List.perm_append_comm.trans (.of_eq (List.append_assoc ..)))
    | overlapping =>
      have undecided := (cond.trans ((branch.followed hr) env t)).skip (b := [])
        (d := ⟨.overlapping, arm.body, later, orElse⟩) fun _ own => own
      exact undecided

/-! ### Functions -/

theorem checkFormals_keeps {d : FuncDef} {s : Signature} :
    Keeps (Effects.recording (d.defaults.flatMap (·.nodes))) (checkFormals d s) := by
  have declared : Keeps (Effects.recording (d.defaults.flatMap (·.nodes))) _ :=
    declareParams_keeps (w := .recording _) fun r (_ : r ∈ formalRetypings d.params s) _ _ =>
      True.intro
  have inferred : ∀ e ∈ d.defaults, Keeps (Effects.recording (d.defaults.flatMap (·.nodes))) (do
      discard <| e.accept none
      return ForInStep.yield PUnit.unit) (· = .yield PUnit.unit) := fun e member =>
    ((Expr.each_within_recording d.defaults e member).accept none).discard.yielding
  apply isDynamic_keeps.seq
  intro dynamic
  split
  · apply report_keeps.seq
    intro _
    exact declared.seq fun _ => (Keeps.forIn inferred).seq fun _ => .done
  · exact declared.seq fun _ => (Keeps.forIn inferred).seq fun _ => .done

theorem checkFuncBody_traces {d : FuncDef} {s : Signature} {body : Check Unit} {inBody : Events}
    (h : Traces (Block.nodes d.body) body inBody) :
    Traces d.nodes (inLocalScope (checkFuncBody d s body)) (bodyEvents d s inBody) := by
  rw [checkFuncBody_eq, d.nodes_eq]
  exact ((Traces.after checkFormals_keeps h.returning)).inLocalScope

theorem instantiateEach_types {d : FuncDef} {v : TypeVar} (values : List Ty) (env : Env)
    (s : State) : ((values.mapM (instantiate d v)).outcome env s).2.types = s.types := by
  induction values generalizing s with
  | nil => rfl
  | cons value values ih =>
    rw [List.mapM_cons]
    exact ih ((instantiate d v value).outcome env s).2

section Copies

variable {checkCopy : Block → Check Unit} {inCopy : Block → Events}
  (hc : ∀ b, Traces (Block.nodes b) (checkCopy b) (inCopy b))

include hc

theorem checkCopies_traces (copies : List Instantiation) :
    Traces ((copies.map (·.func)).flatMap (·.nodes))
      (do for i in copies do checkInstance checkCopy i)
      (copyEvents checkCopy inCopy copies) := by
  induction copies with
  | nil => exact Traces.of_keeps .done
  | cons i rest ih =>
    rw [List.forIn_cons, bind_assoc]
    exact (checkFuncBody_traces (hc i.func.body)).inInstantiation.followed ih

theorem checkFunc_traces {d : FuncDef} {body : Check Unit} {inBody : Events}
    (h : Traces (Block.nodes d.body) body inBody) :
    Traces d.nodes (checkFunc d body checkCopy) (functionEvents checkCopy inCopy d inBody) := by
  unfold checkFunc functionEvents
  apply Traces.inFunction
  cases d.restricted? with
  | none => exact checkFuncBody_traces h
  | some v =>
    intro env s
    -- All copies are made before the first of them is checked.
    obtain ⟨changes, -⟩ := instantiateEach_changes (d := d) (v := v) (w := Effects.anything)
      ⟨rfl, fun _ _ _ => True.intro, fun _ _ => True.intro⟩ v.values env s
    exact (checkCopies_traces hc _ env _).of_copies changes.nextNode
      (instantiateEach_types v.values env s) changes.nodes_perm

end Copies

end Check

/-! ### Trees -/

section Trees

variable {checkCopy : Block → Check Unit} {inCopy : Block → Events}

/-- A statement in which no functions are defined. -/
theorem Stmt.check_records (hc : CopiesKeep checkCopy) (s : Stmt)
    (plain : ∀ p ∈ s.places none, p.stmt.kind.functions = []) :
    Keeps (Effects.recording (Block.nodes [s])) (s.check checkCopy) := by
  refine s.check_keeps hc (f := none) fun p place => ⟨fun e part => ?_, fun _ _ _ _ => True.intro,
    fun _ _ => True.intro, fun some => absurd (plain p place) some⟩
  refine Expr.within_recording fun id inside => ?_
  refine List.mem_flatMap.mpr ⟨p, ?_, List.mem_flatMap.mpr ⟨e, part, inside⟩⟩
  exact List.mem_append_left _ place

/-- Blocks are checked within the effects that cover them, and their events account for that. -/
structure CopiesTrace (checkCopy : Block → Check Unit) (inCopy : Block → Events) : Prop where
  keep : CopiesKeep checkCopy
  trace : ∀ b, Traces (Block.nodes b) (checkCopy b) (inCopy b)

mutual

theorem Stmt.check_traces (hc : CopiesTrace checkCopy inCopy) : (s : Stmt) →
    Traces (Block.nodes [s]) (s.check checkCopy) (s.events checkCopy inCopy)
  | ⟨span, kind⟩ => kind.check_traces hc span

theorem StmtKind.check_traces (hc : CopiesTrace checkCopy inCopy) (span : Span) (kind : StmtKind) :
    Traces (Block.nodes [⟨span, kind⟩]) (kind.check checkCopy span)
      (kind.events checkCopy inCopy span) := by
  cases kind with
  | func d =>
    rw [Block.nodes_func]
    unfold StmtKind.check StmtKind.events
    exact (d.check_traces hc).ended checkPlace_keeps
  | overloaded items owner symbol =>
    unfold StmtKind.check StmtKind.events
    refine Traces.perm ?_ (Block.nodes_overloaded_perm items owner symbol)
    exact (checkEach_traces hc items).ended checkOverloads_keeps
  | cls name c body =>
    unfold StmtKind.check StmtKind.events
    rw [Block.nodes_cls]
    exact ((checkBlock_traces hc body).ended checkInherited_keeps).inClass
  | decorated d decorators v =>
    unfold StmtKind.check StmtKind.events
    have wrapped : Keeps (Effects.recording (decorators.flatMap (·.nodes))) (do
        checkPlace d
        checkDecorators d decorators v span) :=
      checkPlace_keeps.seq fun _ =>
        checkDecorators_keeps (Expr.each_within_recording _) fun _ _ => True.intro
    exact ((d.check_traces hc).before wrapped).perm (Block.nodes_decorated_perm d decorators v)
  | ifElse arms orElse =>
    unfold StmtKind.check StmtKind.events
    have branches := checkArms_traces hc orElse (checkOption_traces hc orElse) arms
    exact branches.perm (Block.nodes_ifElse_perm arms orElse)
  | whileLoop test body orElse =>
    unfold StmtKind.check StmtKind.events
    rw [Block.nodes_whileLoop]
    have tested : test.Within (.recording test.nodes) := Expr.within_recording (List.Subset.refl _)
    exact .after (checkCondition_keeps tested)
      ((checkBlock_traces hc body).followed (checkOption_traces hc orElse))
  | forLoop targets isAnnotated sequence body orElse =>
    unfold StmtKind.check StmtKind.events
    rw [Block.nodes_forLoop]
    obtain ⟨ht, hs⟩ := List.forall_mem_append.mp (Expr.each_within_recording (targets ++ [sequence]))
    exact .after (checkForTargets_keeps ht (by simpa using hs))
      ((checkBlock_traces hc body).followed (checkOption_traces hc orElse))
  | withBlock items body =>
    unfold StmtKind.check StmtKind.events
    rw [Block.nodes_withBlock]
    have entered : Keeps
        (Effects.recording ((StmtKind.withBlock items body).exprs.flatMap (·.nodes))) (do
          for (manager, target) in items do
            checkContext manager target) := by
      refine Keeps.seq (.forIn fun (manager, target) member => ?_) fun _ => .done
      have both : ∀ e ∈ manager :: target.toList, e.Within _ := fun e inside =>
        Expr.each_within_recording (StmtKind.withBlock items body).exprs e
          (List.mem_flatMap.mpr ⟨_, member, inside⟩)
      obtain ⟨hm, ht⟩ := List.forall_mem_cons.mp both
      exact (checkContext_keeps hm (by simpa using ht)).yielding
    exact .after entered (checkBlock_traces hc body)
  | tryBlock body handlers orElse atEnd =>
    unfold StmtKind.check StmtKind.events
    refine Traces.perm ?_ (Block.nodes_tryBlock_perm body handlers orElse atEnd)
    have behind := (checkOption_traces hc orElse).followed (checkOption_traces hc atEnd)
    exact (checkBlock_traces hc body).followed ((checkHandlers_traces hc handlers).followed behind)
  | varDef vars binding isTopLevel init | assign targets value | opAssign op target value
  | expr e | ret value | yield value | assert test | raise value cause | del target | print args
  | pass | breakLoop | continueLoop | globals names | imports names =>
    refine .of_keeps (Stmt.check_records hc.keep ⟨span, _⟩ fun p place => ?_)
    rw [List.mem_singleton.mp place]
    rfl

theorem FuncDef.check_traces (hc : CopiesTrace checkCopy inCopy) : (d : FuncDef) →
    Traces d.nodes (d.check checkCopy) (d.events checkCopy inCopy)
  | ⟨_, _, _, _, body, _, _, _, _, _, _⟩ => checkFunc_traces hc.trace (checkBlock_traces hc body)

theorem checkEach_traces (hc : CopiesTrace checkCopy inCopy) (items : List FuncDef) :
    Traces (items.flatMap (·.nodes)) (checkEach checkCopy items)
      (eventsOfEach checkCopy inCopy items) := by
  cases items with
  | nil => exact .of_keeps .done
  | cons d rest => exact (d.check_traces hc).followed (checkEach_traces hc rest)

theorem checkBlock_traces (hc : CopiesTrace checkCopy inCopy) (b : List Stmt) :
    Traces (Block.nodes b) (checkBlock checkCopy b) (blockEvents checkCopy inCopy b) := by
  cases b with
  | nil => exact .of_keeps .done
  | cons s rest =>
    rw [Block.nodes_cons]
    exact (s.check_traces hc).followed (checkBlock_traces hc rest)

theorem checkOption_traces (hc : CopiesTrace checkCopy inCopy) (b : Option (List Stmt)) :
    Traces (b.toList.flatMap Block.nodes) (checkOption checkCopy b)
      (optionEvents checkCopy inCopy b) := by
  cases b with
  | none => exact .of_keeps .done
  | some b =>
    rw [Option.toList_some, List.flatMap_singleton]
    exact checkBlock_traces hc b

theorem checkArms_traces (hc : CopiesTrace checkCopy inCopy) (orElse : Option Block)
    {otherwise : Check Unit} {inOther : Events}
    (ho : Traces (orElse.toList.flatMap Block.nodes) otherwise inOther) : (arms : List Arm) →
    Traces (armNodes arms orElse) (checkArms checkCopy otherwise arms)
      (armEvents checkCopy inCopy orElse inOther arms)
  | [] => ho
  | ⟨_, body⟩ :: rest =>
    checkArm_traces (checkBlock_traces hc body) (checkArms_traces hc orElse ho rest)

theorem checkHandlers_traces (hc : CopiesTrace checkCopy inCopy) : (handlers : List Handler) →
    Traces (handlerNodes handlers) (checkHandlers checkCopy handlers)
      (handlerEvents checkCopy inCopy handlers)
  | [] => .of_keeps .done
  | ⟨type, v, body⟩ :: rest => by
    unfold checkHandlers handlerEvents
    have caught : Keeps (Effects.recording ((type.toList ++ v.toList).flatMap (·.nodes)))
        (checkCaught type v) := by
      obtain ⟨ht, hv⟩ :=
        List.forall_mem_append.mp (Expr.each_within_recording (type.toList ++ v.toList))
      exact checkCaught_keeps (fun e given => ht e (Option.mem_toList.mpr given))
        fun e given => hv e (Option.mem_toList.mpr given)
    have nodes_eq : handlerNodes (⟨type, v, body⟩ :: rest) =
        (type.toList ++ v.toList).flatMap (·.nodes) ++
          (Block.nodes body ++ handlerNodes rest) := by simp [handlerNodes]
    rw [nodes_eq]
    exact .after caught ((checkBlock_traces hc body).followed (checkHandlers_traces hc rest))

end

end Trees

/-! ### Blocks and modules -/

theorem checkNested_traces (depth : Nat) (b : Block) :
    Traces b.nodes (checkNested depth b) (nestedEvents depth b) := by
  -- The check of copies is the check of blocks with less depth.
  induction depth generalizing b with
  | zero =>
    have copies : CopiesTrace (fun _ => pure ()) fun _ => .none :=
      ⟨fun _ _ _ _ => .done, fun _ => .of_keeps .done⟩
    exact checkBlock_traces copies b
  | succ depth ih => exact checkBlock_traces ⟨checkNested_keeps depth, ih⟩ b

theorem Block.check_traces (b : Block) : Traces b.nodes b.check b.events :=
  checkNested_traces (blockNesting b) b

/-- A statement by itself is checked as one of a block. -/
theorem Stmt.check_traces_self (stmt : Stmt) : Traces (Block.nodes [stmt])
    (stmt.check Block.check) (stmt.events Block.check Block.events) :=
  stmt.check_traces ⟨fun _ _ b h => b.check_keeps h, Block.check_traces⟩

/-- In however many modules copies are made, no two of them have an id in common. -/
theorem checkModules_issues (names : List String) (env : Env) (s : State) :
    Issues s ((names.mapM checkModuleNamed).outcome env s).2
      (copiesIn (modulesEvents names env s)) := by
  induction names generalizing s with
  | nil => exact .of_nextNode_eq rfl
  | cons name rest ih =>
    rw [List.mapM_cons, modulesEvents, Events.followed, copiesIn_append]
    refine Issues.trans ?_ (ih ((checkModuleNamed name).outcome env s).2)
    unfold checkModuleNamed
    rw [outcome_bind, outcome_read]
    unfold Program.module?
    cases env.program.modules[name]? with
    | none => exact .of_nextNode_eq rfl
    | some m =>
      have issued := (m.body.check_traces env ((enterModule m).outcome env s).2).issues
      exact ⟨issued.nextNode, issued.nodes⟩

end Gradual
