import Gradual.Checker.Module
import Gradual.Proofs.Depth

/-!
Recorded types: when an expression has been inferred, a type is recorded for it and for all the
expressions in it that have values, whatever is reported and whichever rules apply.
-/

namespace Gradual

mutual

/-- An expression with the expressions in it that are evaluated: all but the targets of
comprehensions. -/
def Expr.evaluated : Expr → List Expr
  | ⟨id, span, kind⟩ => ⟨id, span, kind⟩ :: kind.evaluated

/-- The expressions that are evaluated in an expression of this kind. -/
def ExprKind.evaluated : ExprKind → List Expr
  | .name _ | .int _ | .str _ | .bytes _ | .unicode _ | .float | .super _ | .typeVar _
  | .placeholder _ => []
  | .member base _ _ _ => base.evaluated
  | .call callee args => callee.evaluated ++ evaluatedInActuals args
  | .paren inner => inner.evaluated
  | .binary _ left right => left.evaluated ++ right.evaluated
  | .unary _ operand => operand.evaluated
  | .index base index => base.evaluated ++ index.evaluated
  | .cast inner _ => inner.evaluated
  | .typeApplication inner _ => inner.evaluated
  | .list items | .set items | .tuple items => evaluatedInExprs items
  | .dict items => evaluatedInPairs items
  | .slice first last stride =>
    evaluatedInOption first ++ (evaluatedInOption last ++ evaluatedInOption stride)
  | .lambda _ body => body.evaluated
  | .listComprehension left clauses | .generator left clauses =>
    evaluatedInClauses clauses ++ left.evaluated
  | .conditional cond ifTrue ifFalse => cond.evaluated ++ (ifTrue.evaluated ++ ifFalse.evaluated)

def evaluatedInExprs : List Expr → List Expr
  | [] => []
  | e :: rest => e.evaluated ++ evaluatedInExprs rest

def evaluatedInActuals : List Actual → List Expr
  | [] => []
  | ⟨_, _, value⟩ :: rest => value.evaluated ++ evaluatedInActuals rest

def evaluatedInPairs : List (Expr × Expr) → List Expr
  | [] => []
  | (key, value) :: rest => (key.evaluated ++ value.evaluated) ++ evaluatedInPairs rest

def evaluatedInOption : Option Expr → List Expr
  | none => []
  | some e => e.evaluated

def evaluatedInClauses : List Clause → List Expr
  | [] => []
  | ⟨_, sequence, conditions⟩ :: rest =>
    (sequence.evaluated ++ evaluatedInExprs conditions) ++ evaluatedInClauses rest

end

/-! ### Actions -/

namespace Check

/-- The action takes nothing away that is recorded, and leaves types for the expressions. -/
structure Visits {α : Type} (es : List Expr) (x : Check α) : Prop where
  retains : ∀ env s (id : NodeId), s.types[id]?.isSome = true →
    (x.outcome env s).2.types[id]?.isSome = true
  records : ∀ env s, ∀ e ∈ es, (x.outcome env s).2.types[e.id]?.isSome = true

namespace Visits

variable {α β γ : Type} {a b : List Expr} {x : Check α} {f : α → Check β}

theorem of_keeps {w : Effects} {post : α → Prop} (h : Keeps w x post) : Visits [] x where
  retains env s _ := (h.frame env s).recorded
  records _ _ _ member := nomatch member

theorem bind (first : Visits a x) (second : ∀ r, Visits b (f r)) : Visits (a ++ b) (x >>= f) where
  retains env s id known := (second _).retains env _ id (first.retains env s id known)
  records env s e member := by
    rcases List.mem_append.mp member with before | after
    · exact (second _).retains env _ e.id (first.records env s e before)
    · exact (second _).records env _ e after

/-- All is visited by the first action. -/
theorem andThen (first : Visits a x) (second : ∀ r, Keeps Effects.anything (f r)) :
    Visits a (x >>= f) := by
  have both := first.bind fun r => of_keeps (second r)
  rw [List.append_nil] at both
  exact both

theorem congr {y : Check α} (h : Visits a x) (same : ∀ env s, y.outcome env s = x.outcome env s) :
    Visits a y where
  retains env s := same env s ▸ h.retains env s
  records env s := same env s ▸ h.records env s

theorem perm (h : Visits a x) (same : a.Perm b) : Visits b x where
  retains := h.retains
  records env s e member := h.records env s e (same.mem_iff.mpr member)

theorem discard (h : Visits a x) : Visits a (discard x) := h.andThen fun _ => .done

/-- A change of the scope takes nothing away. -/
theorem between {enter leave : Scope → Scope} (h : Visits a x) :
    Visits a (between enter leave x) where
  retains env s := h.retains env { s with scope := enter s.scope }
  records env s := h.records env { s with scope := enter s.scope }

theorem narrowing {narrowed : Option (Var × Ty)} (h : Visits a x) :
    Visits a (narrowing narrowed x) := by
  cases narrowed with
  | none => exact h
  | some narrowed => exact h.between

theorem inLocalScope (h : Visits a x) : Visits a (inLocalScope x) where
  retains env s := h.retains env { s with scope := { s.scope with locals := some ∅ } }
  records env s := h.records env { s with scope := { s.scope with locals := some ∅ } }

end Visits

/-- All is visited by what follows. -/
theorem Keeps.visits {α β : Type} {x : Check α} {f : α → Check β} {post : α → Prop} {es : List Expr}
    (first : Keeps Effects.anything x post) (second : ∀ r, Visits es (f r)) :
    Visits es (x >>= f) :=
  (Visits.of_keeps first).bind second

/-! ### Lists -/

/-- Each expression is visited at its place in a list. -/
inductive EachVisits {γ : Type} (visits : List Expr → γ → Prop) : List Expr → List γ → Prop
  | nil : EachVisits visits [] []
  | cons {a b : List Expr} {y : γ} {ys : List γ} (first : visits a y)
      (rest : EachVisits visits b ys) : EachVisits visits (a ++ b) (y :: ys)

namespace EachVisits

variable {γ δ β : Type} {visits : List Expr → γ → Prop} {es : List Expr} {ys : List γ}

theorem map {visits' : List Expr → δ → Prop} {f : γ → δ} (h : EachVisits visits es ys)
    (implies : ∀ a y, visits a y → visits' a (f y)) : EachVisits visits' es (ys.map f) := by
  induction h with
  | nil => exact .nil
  | cons first _ ih => exact .cons (implies _ _ first) ih

theorem imp {visits' : List Expr → γ → Prop} (h : EachVisits visits es ys)
    (implies : ∀ a y, visits a y → visits' a y) : EachVisits visits' es ys := by
  have mapped : EachVisits visits' es (ys.map id) := h.map implies
  rw [List.map_id] at mapped
  exact mapped

theorem append {es' : List Expr} {ys' : List γ} (h : EachVisits visits es ys)
    (h' : EachVisits visits es' ys') : EachVisits visits (es ++ es') (ys ++ ys') := by
  induction h with
  | nil => exact h'
  | cons first _ ih =>
    rw [List.append_assoc]
    exact .cons first ih

/-- Places next to which something else stands. -/
theorem zip (h : EachVisits visits es ys) {zs : List δ} (count : zs.length = ys.length) :
    EachVisits (fun a p => visits a p.1) es (ys.zip zs) := by
  induction h generalizing zs with
  | nil => exact .nil
  | cons first _ ih =>
    cases zs with
    | nil => cases count
    | cons z zs => exact .cons first (ih (Nat.succ.inj count))

theorem mapM {f : γ → Check β} (h : EachVisits (fun a y => Visits a (f y)) es ys) :
    Visits es (ys.mapM f) := by
  induction h with
  | nil => exact .of_keeps (w := .anything) .done
  | cons first _ ih =>
    rw [List.mapM_cons]
    exact first.bind fun _ => ih.andThen fun _ => .done

/-- A loop over a list that does not leave early. -/
theorem forIn {f : γ → PUnit → Check (ForInStep PUnit)}
    (h : EachVisits (fun a y => Visits a (f y PUnit.unit)) es ys)
    (goesOn : ∀ y env s, ((f y PUnit.unit).outcome env s).1 = .yield PUnit.unit) :
    Visits es (forIn ys PUnit.unit f) := by
  induction h with
  | nil => exact .of_keeps (w := .anything) .done
  | @cons a b y ys first _ ih =>
    have later : Visits (a ++ b) (f y PUnit.unit >>= fun _ => ForIn.forIn ys PUnit.unit f) :=
      first.bind fun _ => ih
    rw [List.forIn_cons]
    -- If the loop could be left, what is behind would be visited in one of two cases only.
    refine later.congr fun env s => ?_
    rw [outcome_bind, outcome_bind, goesOn]

end EachVisits

end Check

/-- Whatever is expected of it, the value visits the expressions. -/
def Operand.Visits (es : List Expr) (o : Operand) : Prop :=
  ∀ expected, Check.Visits es (o.accept expected)

namespace Check

variable {es : List Expr}

/-! ### Calls -/

theorem giveFrom_visits {context : Nat → ArgShape → Option Ty} {i : Nat} {args : List Arg}
    (h : EachVisits (fun a arg => arg.operand.Visits a) es args) :
    Visits es (giveFrom context i args) := by
  induction h generalizing i with
  | nil => exact .of_keeps (w := .anything) .done
  | cons first _ ih => exact (first _).bind fun _ => ih.andThen fun _ => .done

theorem giveAll_visits {args : List Arg}
    (h : EachVisits (fun a arg => arg.operand.Visits a) es args) : Visits es (giveAll args) :=
  giveFrom_visits h

theorem checkCall_visits {callee : Ty} {args : List Arg} {span : Span}
    (h : EachVisits (fun a arg => arg.operand.Visits a) es args) :
    Visits es (checkCall callee args span) := by
  refine read_keeps.visits fun env => get_keeps.visits fun s => ?_
  dsimp only
  -- The arguments are given in each case, whether the callee can be called or not.
  split
  · exact (giveFrom_visits h).andThen fun _ => checkGiven_keeps
  · refine (giveAll_visits h).andThen fun given => read_keeps.seq fun env => ?_
    split
    · exact checkGiven_keeps
    · split
      · exact report_keeps.seq fun _ => .done
      · exact .done
  · exact (giveAll_visits h).discard.andThen fun _ => .done
  · exact (giveAll_visits h).discard.andThen fun _ => .done
  · exact (giveAll_visits h).discard.andThen fun _ => .done
  · exact report_keeps.visits fun _ => (giveAll_visits h).discard.andThen fun _ => .done

theorem checkMethodCall_visits {method : String} {base : Ty} {arg : Operand} {span : Span}
    (h : arg.Visits es) : Visits es (checkMethodCall method base [arg] span) := by
  refine getAttribute_keeps.visits fun callee => ?_
  have args : EachVisits (fun a arg => arg.operand.Visits a) (es ++ []) [Arg.positional arg] :=
    .cons h .nil
  rw [List.append_nil] at args
  exact (checkCall_visits args).andThen fun _ => .done

theorem checkOperator_visits {method op : String} {base : Ty} {arg : Operand} {span : Span}
    (h : arg.Visits es) : Visits es (checkOperator method base arg op span) := by
  unfold checkOperator
  split
  · exact (h none).discard.andThen fun _ => .done
  · refine getAttribute?_keeps.visits fun found => ?_
    split
    · exact report_keeps.visits fun _ => (h none).discard.andThen fun _ => .done
    · rename_i type
      refine (h _).andThen fun argType => read_keeps.seq fun env => ?_
      dsimp only
      split
      · split
        · exact report_keeps.seq fun _ => .done
        · exact .done
      · split
        · exact .done
        · exact report_keeps.seq fun _ => .done
      · exact .done
      · exact .done
      · exact .done
      · exact report_keeps.seq fun _ => .done

/-! ### Displays -/

theorem checkItems_visits {display : Display} {item : Ty} {i : Nat} {items : List (Operand × Span)}
    (h : EachVisits (fun a c => c.1.Visits a) es items) :
    Visits es (checkItems display item i items) := by
  induction h generalizing i with
  | nil => exact .of_keeps (w := .anything) .done
  | @cons a b c rest first _ ih =>
    obtain ⟨operand, span⟩ := c
    refine (first _).bind fun type => isSubtype_keeps.visits fun fits => ?_
    dsimp only
    split
    · exact report_keeps.visits fun _ => ih
    · exact ih

theorem sequenceDisplay_visits {display : Display} {items : List (Operand × Span)}
    (h : EachVisits (fun a c => c.1.Visits a) es items) :
    Visits es (sequenceDisplay display items) := by
  refine expectedItem?_keeps.visits fun expected => ?_
  split
  · exact (checkItems_visits h).andThen fun _ => named_keeps
  · have joined : Visits es (joinItems items) :=
      (EachVisits.mapM (h.imp fun _ _ first => first none)).andThen fun _ => joinAll_keeps
    refine joined.andThen fun joined => ?_
    split
    · split
      · exact report_keeps.seq fun _ => named_keeps
      · exact named_keeps
    · exact named_keeps

/-- The key and the value of an entry are visited. -/
def DictEntry.Visits (es : List Expr) (e : DictEntry) : Prop :=
  ∃ a b, es = a ++ b ∧ e.key.Visits a ∧ e.value.Visits b

theorem checkEntries_visits {key value : Ty} {i : Nat} {entries : List DictEntry}
    (h : EachVisits DictEntry.Visits es entries) : Visits es (checkEntries key value i entries) := by
  induction h generalizing i with
  | nil => exact .of_keeps (w := .anything) .done
  | cons first _ ih =>
    obtain ⟨a, b, rfl, visitsKey, visitsValue⟩ := first
    rw [List.append_assoc]
    refine (visitsKey _).bind fun k => (visitsValue _).bind fun v => ?_
    refine isSubtype_keeps.visits fun keyFits => isSubtype_keeps.visits fun valueFits => ?_
    dsimp only
    split
    · exact report_keeps.visits fun _ => ih
    · exact ih

theorem dictDisplay_visits {entries : List DictEntry} {span : Span}
    (h : EachVisits DictEntry.Visits es entries) : Visits es (dictDisplay entries span) := by
  refine expectedArgs?_keeps.visits fun expected => ?_
  split
  · exact (checkEntries_visits h).andThen fun _ => named_keeps
  · have inferred : Visits es
        (entries.mapM fun e => return (← e.key.accept none, ← e.value.accept none)) := by
      refine EachVisits.mapM (h.imp fun es e first => ?_)
      obtain ⟨a, b, rfl, visitsKey, visitsValue⟩ := first
      exact (visitsKey none).bind fun _ => (visitsValue none).andThen fun _ => .done
    refine inferred.andThen fun types => joinAll_keeps.seq fun keys => joinAll_keeps.seq fun _ => ?_
    split
    · exact report_keeps.seq fun _ => named_keeps
    · exact named_keeps

theorem tupleDisplay_visits {items : List Operand}
    (h : EachVisits (fun a o => o.Visits a) es items) : Visits es (tupleDisplay items) := by
  refine expectedType_keeps.visits fun expected => ?_
  extract_lets inferred
  have inferredVisits : ∀ types : List (Option Ty), types.length = items.length →
      Visits es (inferred types) := by
    intro types count
    have each := (h.zip count).imp fun _ p first => first p.2
    exact each.mapM.andThen fun _ => .done
  split
  · refine inferredVisits _ ?_
    split
    · rename_i count
      rw [List.length_map, count]
    · rw [List.length_map]
  · exact inferredVisits _ (by rw [List.length_map])

/-! ### Iteration -/

theorem itemType_visits {sequence : Operand} {span : Span} (h : sequence.Visits es) :
    Visits es (itemType sequence span) := by
  -- What is done behind the sequence is done for a sequence of a known type.
  have later (type : Ty) : Keeps Effects.anything
      (itemType ⟨fun _ => return type, sequence.call⟩ span) := itemType_keeps fun _ => .done
  exact (h none).andThen later

end Check

/-- A part whose type is known: what a rule does with a part when it has inferred it. -/
def Part.inferred (p : Part) (type : Ty) : Part :=
  { p with operand := .known type, target := return .typed type }

theorem Part.inferred_keeps (p : Part) (type : Ty) : (p.inferred type).Keeps Effects.anything :=
  ⟨True.intro, Check.known_keeps, .pure True.intro⟩

namespace Rules

open Check

variable {es a b : List Expr} {span : Span}

theorem acceptAs_visits {id : NodeId} {infer : Check Ty} {kind : ExprKind} (h : Visits es infer)
    (expected : Option Ty) : Visits (⟨id, span, kind⟩ :: es) (acceptAs id infer expected) := by
  have stored (type : Ty) : Visits [⟨id, span, kind⟩] (store id type) := by
    refine ⟨fun env s => (Visits.of_keeps (store_keeps (w := .anything) True.intro)).retains env s,
      fun env s e member => ?_⟩
    rw [List.mem_singleton.mp member, outcome_store]
    simp
  have inferred : Visits es (expecting expected infer) := h.between
  have both := inferred.bind fun type => (stored type).andThen fun _ =>
    isDynamic_keeps.seq fun dynamic => .done (a := if dynamic then .any else type)
  exact both.perm (List.perm_append_singleton ..)

theorem ofInfer_visits {id : NodeId} {infer : Check Ty} {kind : ExprKind} (h : Visits es infer)
    (expected : Option Ty) :
    Visits (⟨id, span, kind⟩ :: es) ((ofInfer id infer).accept expected) :=
  acceptAs_visits h expected

theorem placed_visits {parts : List Part}
    (h : EachVisits (fun a p => p.operand.Visits a) es parts) :
    EachVisits (fun a c => c.1.Visits a) es (placed parts) :=
  h.map fun _ _ visits => visits

theorem inferUnary_visits {op : UnaryOp} {operand : Part} (h : operand.operand.Visits es) :
    Visits es (inferUnary op operand span) :=
  (h none).andThen fun type => inferUnary_keeps (operand.inferred_keeps type)

theorem inferBinary_visits {op : BinaryOp} {left right : Part} (hl : left.operand.Visits a)
    (hr : right.operand.Visits b) : Visits (a ++ b) (inferBinary op left right span) := by
  have joined : Visits (a ++ b) (do
      let l ← left.operand.accept none
      let r ← right.operand.accept none
      join l r) :=
    (hl none).bind fun _ => (hr none).andThen fun _ => join_keeps
  have compared : Visits (a ++ b) (do
      discard <| left.operand.accept none
      discard <| right.operand.accept none
      boolType) :=
    (hl none).discard.bind fun _ => (hr none).discard.andThen fun _ => boolType_keeps
  -- A container is inferred before what is looked for in it, so that the order is the other one.
  have contained : Visits (a ++ b) (do
      let container ← right.operand.accept none
      discard <| checkOperator "__contains__" container left.operand op.symbol span
      boolType) :=
    ((hr none).bind fun _ => (checkOperator_visits hl).discard.andThen fun _ => boolType_keeps).perm
      List.perm_append_comm
  unfold inferBinary
  split
  · exact joined
  · exact joined
  · exact compared
  · exact compared
  · exact contained
  · exact contained
  · refine (hl none).bind fun l => read_keeps.visits fun env => ?_
    split
    · exact (checkOperator_visits hr).andThen fun _ => .done
    · exact (hr none).discard.andThen fun _ => .done

theorem inferIndex_visits {base index : Part} {literal : Option Int} (hb : base.operand.Visits a)
    (hi : index.operand.Visits b) : Visits (a ++ b) (inferIndex base index literal span) := by
  refine (hb none).bind fun type => ?_
  split
  · refine (hi none).discard.andThen fun _ => ?_
    split
    · exact report_keeps.seq fun _ => .done
    · split
      · exact .done
      · exact report_keeps.seq fun _ => .done
  · exact checkMethodCall_visits hi

theorem inferTypeApplication_visits {inner : Part} {types : List Ty}
    (h : inner.operand.Visits es) : Visits es (inferTypeApplication inner types span) :=
  (h none).andThen fun type => inferTypeApplication_keeps (inner.inferred_keeps type)

theorem inferSlice_visits {bounds : List Part}
    (h : EachVisits (fun a p => p.operand.Visits a) es bounds) : Visits es (inferSlice bounds) := by
  refine named_keeps.visits fun int => ?_
  refine Visits.andThen (EachVisits.forIn (h.imp fun a bound visits => ?_) ?_) fun _ => named_keeps
  · refine (visits none).andThen fun type => isSubtype_keeps.seq fun fits => ?_
    split
    · exact report_keeps.seq fun _ => .done
    · exact .done
  · intro bound env s
    simp only [outcome_bind]
    split <;> rfl

theorem inferLambda_visits {params : List (Var × ArgKind)} {body : Part}
    (hb : body.operand.Visits es) : Visits es (inferLambda params body) := by
  refine expectedType_keeps.visits fun expected => ?_
  -- Where the formals come from plays no part: both cases go on with `checked`.
  extract_lets checked
  have checkedVisits : ∀ formals, Visits es (checked formals) := by
    rintro ⟨argTypes, result⟩
    refine isDynamic_keeps.visits fun dynamic => Visits.andThen (.between (.inLocalScope ?_))
      fun _ => .done
    refine Visits.bind (a := []) ?_ fun _ => hb result
    refine .of_keeps (w := Effects.anything.declaring) (Check.Keeps.forIn fun p _ => ?_)
    obtain ⟨⟨v, kind⟩, type⟩ := p
    exact (setVar_keeps True.intro).seq fun _ => (declareLocal_keeps rfl).yielding
  split
  · exact Check.Keeps.done.visits checkedVisits
  · exact Check.Keeps.done.visits checkedVisits

theorem checkClause_visits {c : ClausePart} (ht : ∀ p ∈ c.targets, p.Keeps Effects.anything)
    (hs : c.sequence.operand.Visits a)
    (hc : EachVisits (fun a p => p.operand.Visits a) b c.conditions) :
    Visits (a ++ b) (checkClause span c) := by
  refine (itemType_visits hs).bind fun item => ?_
  have assigned : Check.Keeps Effects.anything
      (assign (c.targets.map fun t => (t.id, t.target)) (.known item) span) := by
    refine assign_keeps ?_ ?_ Value.known_keeps
    · intro t member
      obtain ⟨p, part, rfl⟩ := List.mem_map.mp member
      exact (ht p part).id
    · intro t member
      obtain ⟨p, part, rfl⟩ := List.mem_map.mp member
      exact (ht p part).target
  refine assigned.visits fun _ => Visits.andThen (EachVisits.forIn ?_ fun _ _ _ => rfl) fun _ => .done
  exact hc.imp fun _ condition visits => (visits none).discard.andThen fun _ => .done

theorem inferComprehension_visits {fullName : String} {left : Part} {clauses : List ClausePart}
    (hl : left.operand.Visits b)
    (hc : EachVisits (fun a c => Visits a (checkClause span c)) a clauses) :
    Visits (a ++ b) (inferComprehension fullName left clauses span) := by
  refine expectedItem?_keeps.visits fun expected => ?_
  refine Visits.bind (EachVisits.forIn (hc.imp fun _ c visits => visits.andThen fun _ => .done)
    fun _ _ _ => rfl) fun _ => ?_
  exact (hl expected).andThen fun _ => named_keeps

theorem inferConditional_visits {cond : Expr} {condition ifTrue ifFalse : Part} {c : List Expr}
    (hc : condition.operand.Visits c) (ht : ifTrue.operand.Visits a)
    (hf : ifFalse.operand.Visits b) :
    Visits (c ++ (a ++ b)) (inferConditional cond condition ifTrue ifFalse) := by
  refine expectedType_keeps.visits fun expected => (hc none).discard.bind fun _ => ?_
  refine guard?_keeps.visits fun guard => (ht expected).narrowing.bind fun t => ?_
  exact (hf expected).andThen fun f => join_keeps

end Rules

open Check Rules

/-! ### Trees -/

mutual

theorem Expr.part_visits : (e : Expr) → e.part.operand.Visits e.evaluated
  | ⟨id, span, kind⟩ => kind.rules_visits id span

theorem ExprKind.rules_visits (id : NodeId) (span : Span) (kind : ExprKind) (expected : Option Ty) :
    Visits (⟨id, span, kind⟩ :: kind.evaluated) ((kind.rules id span).accept expected) := by
  cases kind with
  | name ref =>
    -- A name that is defined differs only as a target, and a target is not evaluated.
    have named : (ExprKind.rules id span (.name ref)).accept =
        (ofInfer id (inferName ref span)).accept := by
      unfold ExprKind.rules Rules.name
      dsimp only
      split <;> rfl
    rw [named]
    exact ofInfer_visits (.of_keeps (w := .anything) inferName_keeps) expected
  | member base name defined isDef =>
    exact acceptAs_visits ((base.part_visits none).andThen fun _ => getAttribute_keeps) expected
  | call callee args =>
    refine ofInfer_visits ((callee.part_visits none).bind fun type => ?_) expected
    exact (checkCall_visits (argParts_visits args)).andThen fun _ => .done
  | paren inner =>
    exact acceptAs_visits (expectedType_keeps.visits fun _ => inner.part_visits _) expected
  | binary op left right =>
    exact ofInfer_visits (inferBinary_visits left.part_visits right.part_visits) expected
  | unary op operand => exact ofInfer_visits (inferUnary_visits operand.part_visits) expected
  | index base index =>
    exact acceptAs_visits (inferIndex_visits base.part_visits index.part_visits) expected
  | cast inner type =>
    exact ofInfer_visits ((inner.part_visits none).discard.andThen fun _ => .done) expected
  | typeApplication inner types =>
    exact ofInfer_visits (inferTypeApplication_visits inner.part_visits) expected
  | list items =>
    exact acceptAs_visits (sequenceDisplay_visits (placed_visits (partsOf_visits items))) expected
  | set items =>
    exact ofInfer_visits (sequenceDisplay_visits (placed_visits (partsOf_visits items))) expected
  | tuple items =>
    have operands : EachVisits (fun a o => o.Visits a) (evaluatedInExprs items)
        ((partsOf items).map (·.operand)) :=
      (partsOf_visits items).map fun _ _ visits => visits
    exact acceptAs_visits (tupleDisplay_visits operands) expected
  | dict items => exact ofInfer_visits (dictDisplay_visits (entryParts_visits items)) expected
  | slice first last stride =>
    have bounds := (optionPart_visits first).append
      ((optionPart_visits last).append (optionPart_visits stride))
    rw [← List.append_assoc (optionPart first)] at bounds
    exact ofInfer_visits (inferSlice_visits bounds) expected
  | lambda params body => exact ofInfer_visits (inferLambda_visits body.part_visits) expected
  | listComprehension left clauses | generator left clauses =>
    exact ofInfer_visits (inferComprehension_visits left.part_visits (clauseParts_visits span clauses))
      expected
  | conditional cond ifTrue ifFalse =>
    exact ofInfer_visits (inferConditional_visits cond.part_visits ifTrue.part_visits
      ifFalse.part_visits) expected
  | int | float => exact ofInfer_visits (.of_keeps (w := .anything) named_keeps) expected
  | str => exact ofInfer_visits (.of_keeps (w := .anything) strType_keeps) expected
  | bytes =>
    refine ofInfer_visits (read_keeps.visits fun env => ?_) expected
    split
    · exact .of_keeps (w := .anything) named_keeps
    · exact .of_keeps (w := .anything) strType_keeps
  | unicode =>
    refine ofInfer_visits (read_keeps.visits fun env => ?_) expected
    split
    · exact .of_keeps (w := .anything) strType_keeps
    · exact .of_keeps (w := .anything) named_keeps
  | super name => exact ofInfer_visits (.of_keeps (w := .anything) superAttribute_keeps) expected
  | typeVar | placeholder => exact ofInfer_visits (.of_keeps (w := .anything) .done) expected

theorem partsOf_visits (items : List Expr) :
    EachVisits (fun a p => p.operand.Visits a) (evaluatedInExprs items) (partsOf items) := by
  cases items with
  | nil => exact .nil
  | cons e rest => exact .cons e.part_visits (partsOf_visits rest)

theorem argParts_visits : (args : List Actual) →
    EachVisits (fun a arg => arg.operand.Visits a) (evaluatedInActuals args) (argParts args)
  | [] => .nil
  | ⟨_, _, value⟩ :: rest => .cons value.part_visits (argParts_visits rest)

theorem entryParts_visits : (items : List (Expr × Expr)) →
    EachVisits DictEntry.Visits (evaluatedInPairs items) (entryParts items)
  | [] => .nil
  | (key, value) :: rest =>
    .cons ⟨_, _, rfl, key.part_visits, value.part_visits⟩ (entryParts_visits rest)

theorem optionPart_visits (e : Option Expr) :
    EachVisits (fun a p => p.operand.Visits a) (evaluatedInOption e) (optionPart e) := by
  cases e with
  | none => exact .nil
  | some e =>
    rw [evaluatedInOption, ← List.append_nil e.evaluated]
    exact .cons e.part_visits .nil

theorem clauseParts_visits (span : Span) : (clauses : List Clause) →
    EachVisits (fun a c => Visits a (checkClause span c)) (evaluatedInClauses clauses)
      (clauseParts clauses)
  | [] => .nil
  | ⟨targets, sequence, conditions⟩ :: rest => by
    refine .cons (checkClause_visits ?_ sequence.part_visits (partsOf_visits conditions))
      (clauseParts_visits span rest)
    exact partsOf_keep targets fun x _ => x.within_anything x x.self_mem_all

end

/-- Whatever the expression and the state, and whatever is expected, when an expression has been
inferred there are types for it and for all expressions that are evaluated in it. -/
theorem accept_records_evaluated (env : Env) (s : State) (e : Expr) (expected : Option Ty) :
    ∀ x ∈ e.evaluated, ∃ type, ((e.accept expected).outcome env s).2.types[x.id]? = some type := by
  intro x member
  exact Option.isSome_iff_exists.mp ((e.part_visits expected).records env s x member)

/-! ### A call -/

/-- A call of an empty tuple with a tuple of one item. -/
def Expr.tupleCall : Expr :=
  ⟨3, .atLine 1, .call ⟨0, .atLine 1, .tuple []⟩
    [⟨.pos, none, ⟨2, .atLine 1, .tuple [⟨1, .atLine 1, .placeholder none⟩]⟩⟩]⟩

def Program.tupleCall : Program := ⟨∅, .empty, 4, .empty⟩

/-- What is called cannot be called, and still its argument is inferred with the item in it. -/
theorem tupleCall_recorded :
    let t := ((Expr.tupleCall.accept none).outcome (.ofProgram .tupleCall default)
      (.initial .tupleCall)).2
    t.diagnostics.length = 1 ∧ ∀ id ∈ [0, 1, 2, 3], ∃ type, t.types[id]? = some type := by
  intro t
  refine ⟨by with_unfolding_all rfl, fun id listed => ?_⟩
  have ids : Expr.tupleCall.evaluated.map (·.id) = [3, 0, 2, 1] := by decide
  have evaluated : id ∈ Expr.tupleCall.evaluated.map (·.id) := by
    rw [ids]
    simp at listed ⊢
    omega
  obtain ⟨x, member, rfl⟩ := List.mem_map.mp evaluated
  exact accept_records_evaluated (.ofProgram .tupleCall default) (.initial .tupleCall) .tupleCall
    none x member

end Gradual
