import Gradual.Checker.Expr
import Gradual.Proofs.Occurrence
import Gradual.Proofs.RuleEffects

/-!
The effects of inference: it records the types of the expression and of those in it, and gives types
to the arguments of functions without a name.
-/

namespace Gradual

namespace Effects

/-- The variable may get the type, or any type if none is given. -/
def Allows (w : Effects) (r : Retyping) : Prop :=
  ∀ type, r.2 = none ∨ r.2 = some type → w.retypes r.1 type

/-- The type of the expression may be recorded, and the variables that it introduces or retypes may
get theirs. -/
structure Covers (w : Effects) (e : Expr) : Prop where
  node : w.nodes e.id
  vars : ∀ r ∈ e.retypings, w.Allows r
  introduces : ∀ v ∈ e.introduces, w.infers v

end Effects

/-- Everything in the expression is covered by the effects. -/
def Expr.Within (w : Effects) (e : Expr) : Prop := ∀ x ∈ e.all, w.Covers x

structure Rules.Keeps (w : Effects) (r : Rules) : Prop where
  accept : ∀ expected, Check.Keeps w (r.accept expected)
  target : Check.Keeps w r.target (·.Keeps w)

structure Part.Keeps (w : Effects) (p : Part) : Prop where
  id : w.nodes p.id
  operand : p.operand.Keeps w
  target : Check.Keeps w p.target (·.Keeps w)

/-- All parts of a clause stay within the effects. -/
structure ClausePart.Keeps (w : Effects) (c : ClausePart) : Prop where
  targets : ∀ p ∈ c.targets, p.Keeps w
  sequence : c.sequence.Keeps w
  conditions : ∀ p ∈ c.conditions, p.Keeps w

open Check

namespace Rules

variable {w : Effects}

theorem acceptAs_keeps {id : NodeId} {infer : Check Ty} {expected : Option Ty} (hid : w.nodes id)
    (h : Check.Keeps w infer) : Check.Keeps w (acceptAs id infer expected) := by
  refine h.expecting.seq fun type => (store_keeps hid).seq fun _ => ?_
  exact isDynamic_keeps.seq fun _ => .done

theorem ofInfer_keeps {id : NodeId} {infer : Check Ty} (hid : w.nodes id)
    (h : Check.Keeps w infer) : (ofInfer id infer).Keeps w :=
  ⟨fun _ => acceptAs_keeps hid h, (acceptAs_keeps hid h).seq fun _ => .pure True.intro⟩

/-! ### Names and attributes -/

theorem variableTarget_keeps {id : NodeId} {v : Var} (hid : w.nodes id) (hv : w.infers v.id) :
    Check.Keeps w (variableTarget id v) (·.Keeps w) := by
  apply typeOfVar_keeps.seq
  intro known
  split
  · exact (store_keeps hid).seq fun _ => .pure True.intro
  · exact .pure hv

theorem inferName_keeps {ref : NameRef} {span : Span} : Check.Keeps w (inferName ref span) := by
  unfold inferName
  split
  · refine scope_keeps.seq fun s => get_keeps.seq fun _ => ?_
    split
    · exact .done
    · apply isDynamic_keeps.seq
      intro dynamic
      split
      · exact report_keeps.seq fun _ => .done
      · exact .done
  · exact .done
  · exact read_keeps.seq fun _ => .done
  · exact .done
  · exact .done

theorem name_keeps {id : NodeId} {span : Span} {ref : NameRef} (hid : w.nodes id)
    (hv : ∀ v ∈ ref.introduces, w.infers v) : (name id span ref).Keeps w := by
  have plain : (ofInfer id (inferName ref span)).Keeps w := ofInfer_keeps hid inferName_keeps
  unfold name
  dsimp only
  split
  · rename_i v isDef symbol
    refine ⟨plain.accept, variableTarget_keeps hid (hv v.id ?_)⟩
    simp [NameRef.introduces, isDef, symbol]
  · exact plain

theorem memberTarget_keeps {id : NodeId} {span : Span} {base : Part} {name : String}
    {defined : Option Var} {isDef : Bool} (hid : w.nodes id) (h : base.Keeps w)
    (hv : isDef = true → ∀ v ∈ defined, w.infers v.id) :
    Check.Keeps w (memberTarget id span base name defined isDef) (·.Keeps w) := by
  apply (h.operand none).seq
  intro type
  split
  · rename_i introduces
    split
    · rename_i v
      exact variableTarget_keeps hid (hv introduces v rfl)
    · exact .pure True.intro
  · exact getAttribute_keeps.seq fun _ => (store_keeps hid).seq fun _ => .pure True.intro

theorem member_keeps {id : NodeId} {span : Span} {base : Part} {name : String}
    {defined : Option Var} {isDef : Bool} (hid : w.nodes id) (h : base.Keeps w)
    (hv : isDef = true → ∀ v ∈ defined, w.infers v.id) :
    (member id span base name defined isDef).Keeps w where
  accept _ := acceptAs_keeps hid ((h.operand none).seq fun _ => getAttribute_keeps)
  target := memberTarget_keeps hid h hv

/-! ### Operators -/

theorem inferUnary_keeps {op : UnaryOp} {operand : Part} {span : Span} (h : operand.Keeps w) :
    Check.Keeps w (inferUnary op operand span) := by
  apply (h.operand none).seq
  intro type
  split
  · exact boolType_keeps
  · split
    · exact .done
    · apply getAttribute?_keeps.seq
      intro found
      split
      · exact (checkCall_keeps (by simp)).seq fun _ => .done
      · exact report_keeps.seq fun _ => .done

theorem inferBinary_keeps {op : BinaryOp} {left right : Part} {span : Span} (hl : left.Keeps w)
    (hr : right.Keeps w) : Check.Keeps w (inferBinary op left right span) := by
  have joined : Check.Keeps w (do
      let l ← left.operand.accept none
      let r ← right.operand.accept none
      join l r) :=
    (hl.operand none).seq fun _ => (hr.operand none).seq fun _ => join_keeps
  have compared : Check.Keeps w (do
      discard <| left.operand.accept none
      discard <| right.operand.accept none
      boolType) :=
    (hl.operand none).discard.seq fun _ => (hr.operand none).discard.seq fun _ => boolType_keeps
  have contained : Check.Keeps w (do
      let container ← right.operand.accept none
      discard <| checkOperator "__contains__" container left.operand op.symbol span
      boolType) :=
    (hr.operand none).seq fun _ =>
      (checkOperator_keeps hl.operand).discard.seq fun _ => boolType_keeps
  unfold inferBinary
  split
  · exact joined
  · exact joined
  · exact compared
  · exact compared
  · exact contained
  · exact contained
  · refine (hl.operand none).seq fun l => read_keeps.seq fun env => ?_
    split
    · exact (checkOperator_keeps hr.operand).seq fun _ => .done
    · exact (hr.operand none).discard.seq fun _ => .done

theorem inferIndex_keeps {base index : Part} {literal : Option Int} {span : Span}
    (hb : base.Keeps w) (hi : index.Keeps w) :
    Check.Keeps w (inferIndex base index literal span) := by
  apply (hb.operand none).seq
  intro type
  split
  · apply (hi.operand none).discard.seq
    intro _
    split
    · exact report_keeps.seq fun _ => .done
    · split
      · exact .done
      · exact report_keeps.seq fun _ => .done
  · exact checkMethodCall_keeps (by simpa using hi.operand)

theorem inferTypeApplication_keeps {inner : Part} {types : List Ty} {span : Span}
    (h : inner.Keeps w) : Check.Keeps w (inferTypeApplication inner types span) := by
  apply (h.operand none).seq
  intro type
  extract_lets applied? expected
  clear_value applied?
  split
  · exact .done
  · exact report_keeps.seq fun _ => .done

/-! ### Slices, functions without a name, comprehensions -/

theorem inferSlice_keeps {bounds : List Part} (h : ∀ p ∈ bounds, p.Keeps w) :
    Check.Keeps w (inferSlice bounds) := by
  apply named_keeps.seq
  intro int
  refine (Check.Keeps.forIn fun bound member => ?_).seq fun _ => named_keeps
  refine ((h bound member).operand none).seq fun type => isSubtype_keeps.seq fun fits => ?_
  split
  · exact report_keeps.yielding
  · exact .pure rfl

theorem inferLambda_keeps {params : List (Var × ArgKind)} {body : Part} (hb : body.Keeps w)
    (hp : ∀ p ∈ params, w.Allows (p.1.id, none)) : Check.Keeps w (inferLambda params body) := by
  apply expectedType_keeps.seq
  intro expected
  extract_lets checked
  have checkedKeeps : ∀ formals, Check.Keeps w (checked formals) := by
    intro (argTypes, result)
    apply isDynamic_keeps.seq
    intro dynamic
    refine Check.Keeps.seq ?_ fun type => .done
    refine (Check.Keeps.seq ?_ fun _ => (hb.operand result).declaring).inLocalScope.inFunction
    refine .forIn fun ((v, kind), type) member => ?_
    have allowed := hp _ (List.of_mem_zip member).1 type (.inl rfl)
    apply (setVar_keeps allowed).declaring.seq
    intro _
    exact (declareLocal_keeps rfl).yielding
  split
  · exact Check.Keeps.done.seq checkedKeeps
  · exact Check.Keeps.done.seq checkedKeeps

theorem checkClause_keeps {span : Span} {c : ClausePart} (h : c.Keeps w) :
    Check.Keeps w (checkClause span c) := by
  apply (itemType_keeps h.sequence.operand).seq
  intro item
  refine Check.Keeps.seq (assign_keeps ?_ ?_ Value.known_keeps) fun _ => ?_
  · intro t ht
    obtain ⟨p, hp, rfl⟩ := List.mem_map.mp ht
    exact (h.targets p hp).id
  · intro t ht
    obtain ⟨p, hp, rfl⟩ := List.mem_map.mp ht
    exact (h.targets p hp).target
  · refine (Check.Keeps.forIn fun condition member => ?_).seq fun _ => .done
    exact ((h.conditions condition member).operand none).discard.yielding

theorem inferComprehension_keeps {fullName : String} {left : Part} {clauses : List ClausePart}
    {span : Span} (hl : left.Keeps w) (hc : ∀ c ∈ clauses, c.Keeps w) :
    Check.Keeps w (inferComprehension fullName left clauses span) := by
  apply expectedItem?_keeps.seq
  intro expected
  refine (Check.Keeps.forIn fun c member => ?_).seq fun _ => ?_
  · exact (checkClause_keeps (hc c member)).yielding
  · exact (hl.operand expected).seq fun _ => named_keeps

theorem guard?_keeps {e : Expr} : Check.Keeps w (guard? e) := .of_reads fun _ _ => rfl

theorem inferConditional_keeps {cond : Expr} {condition ifTrue ifFalse : Part}
    (hc : condition.Keeps w) (ht : ifTrue.Keeps w) (hf : ifFalse.Keeps w) :
    Check.Keeps w (inferConditional cond condition ifTrue ifFalse) := by
  apply expectedType_keeps.seq
  intro expected
  refine (hc.operand none).discard.seq fun _ => guard?_keeps.seq fun guard => ?_
  apply (ht.operand expected).narrowing.seq
  intro t
  exact (hf.operand expected).seq fun f => join_keeps

/-! ### Targets with items -/

theorem nestedTargetType_keeps {t : Target} (h : t.Keeps w) :
    Check.Keeps w (nestedTargetType t) := by
  unfold nestedTargetType
  split
  · exact .done
  · exact (inferVar_keeps h rfl).seq fun _ => .done
  · exact .done

theorem displayTarget_keeps {items : List Part} (h : ∀ p ∈ items, p.Keeps w) :
    Check.Keeps w (displayTarget items) (·.Keeps w) := by
  refine (Check.Keeps.mapM_trivial fun item member => ?_).seq fun _ => .pure True.intro
  exact (h item member).target.bind fun _ kept => nestedTargetType_keeps kept

theorem placed_keeps {items : List Part} (h : ∀ p ∈ items, p.Keeps w) :
    ∀ c ∈ placed items, c.1.Keeps w := by
  intro c member
  obtain ⟨p, hp, rfl⟩ := List.mem_map.mp member
  exact (h p hp).operand

end Rules

section Inference

open Rules

variable {w : Effects}

mutual

theorem Expr.part_keeps : (e : Expr) → e.Within w → e.part.Keeps w
  | ⟨id, span, kind⟩, h => by
    have own := h ⟨id, span, kind⟩ (by simp [Expr.all])
    have rules : (kind.rules id span).Keeps w :=
      kind.rules_keeps own fun x hx => h x (by simp [Expr.all, hx])
    exact ⟨own.node, rules.accept, rules.target⟩

theorem ExprKind.rules_keeps {id : NodeId} {span : Span} : (kind : ExprKind) →
    w.Covers ⟨id, span, kind⟩ → (∀ x ∈ kind.inside, w.Covers x) → (kind.rules id span).Keeps w
  | .name _, own, _ => name_keeps own.node own.introduces
  | .member base .., own, h => by
    refine member_keeps own.node (base.part_keeps h) fun isDef v known => ?_
    subst isDef known
    exact own.introduces v.id (List.mem_singleton.mpr rfl)
  | .call callee args, own, h => by
    simp only [ExprKind.inside, List.forall_mem_append] at h
    refine ofInfer_keeps own.node (((callee.part_keeps h.1).operand none).seq fun type => ?_)
    exact (checkCall_keeps (argParts_keep args h.2)).seq fun _ => .done
  | .paren inner, own, h => by
    have part := inner.part_keeps h
    refine ⟨fun _ => acceptAs_keeps own.node ?_, part.target⟩
    exact expectedType_keeps.seq fun _ => part.operand _
  | .int _, own, _ => ofInfer_keeps own.node named_keeps
  | .float, own, _ => ofInfer_keeps own.node named_keeps
  | .str _, own, _ => ofInfer_keeps own.node strType_keeps
  | .bytes _, own, _ => by
    refine ofInfer_keeps own.node (read_keeps.seq fun env => ?_)
    split
    · exact named_keeps
    · exact strType_keeps
  | .unicode _, own, _ => by
    refine ofInfer_keeps own.node (read_keeps.seq fun env => ?_)
    split
    · exact strType_keeps
    · exact named_keeps
  | .binary op left right, own, h => by
    simp only [ExprKind.inside, List.forall_mem_append] at h
    exact ofInfer_keeps own.node (inferBinary_keeps (left.part_keeps h.1) (right.part_keeps h.2))
  | .unary op operand, own, h => ofInfer_keeps own.node (inferUnary_keeps (operand.part_keeps h))
  | .index base index, own, h => by
    simp only [ExprKind.inside, List.forall_mem_append] at h
    have b := base.part_keeps h.1
    have i := index.part_keeps h.2
    exact ⟨fun _ => acceptAs_keeps own.node (inferIndex_keeps b i),
      .pure ⟨b.operand none, i.operand⟩⟩
  | .cast inner _, own, h =>
    ofInfer_keeps own.node (((inner.part_keeps h).operand none).discard.seq fun _ => .done)
  | .super _, own, _ => ofInfer_keeps own.node superAttribute_keeps
  | .typeApplication inner _, own, h =>
    ofInfer_keeps own.node (inferTypeApplication_keeps (inner.part_keeps h))
  | .typeVar _, own, _ => ofInfer_keeps own.node .done
  | .list items, own, h =>
    ⟨fun _ => acceptAs_keeps own.node (sequenceDisplay_keeps (placed_keeps (partsOf_keep items h))),
      displayTarget_keeps (partsOf_keep items h)⟩
  | .set items, own, h =>
    ofInfer_keeps own.node (sequenceDisplay_keeps (placed_keeps (partsOf_keep items h)))
  | .tuple items, own, h => by
    have parts := partsOf_keep items h
    refine ⟨fun _ => acceptAs_keeps own.node (tupleDisplay_keeps ?_), displayTarget_keeps parts⟩
    simpa using fun p hp => (parts p hp).operand
  | .dict items, own, h => ofInfer_keeps own.node (dictDisplay_keeps (entryParts_keep items h))
  | .slice first last stride, own, h => by
    simp only [ExprKind.inside, List.forall_mem_append] at h
    refine ofInfer_keeps own.node (inferSlice_keeps ?_)
    simp only [List.forall_mem_append]
    exact ⟨⟨optionPart_keep first h.1.1, optionPart_keep last h.1.2⟩, optionPart_keep stride h.2⟩
  | .lambda params body, own, h => by
    refine ofInfer_keeps own.node (inferLambda_keeps (body.part_keeps h) fun p hp => ?_)
    exact own.vars _ (List.mem_map.mpr ⟨p, hp, rfl⟩)
  | .listComprehension left clauses, own, h => by
    simp only [ExprKind.inside, List.forall_mem_append] at h
    exact ofInfer_keeps own.node
      (inferComprehension_keeps (left.part_keeps h.1) (clauseParts_keep clauses h.2))
  | .generator left clauses, own, h => by
    simp only [ExprKind.inside, List.forall_mem_append] at h
    exact ofInfer_keeps own.node
      (inferComprehension_keeps (left.part_keeps h.1) (clauseParts_keep clauses h.2))
  | .placeholder _, own, _ => ofInfer_keeps own.node .done
  | .conditional cond ifTrue ifFalse, own, h => by
    simp only [ExprKind.inside, List.forall_mem_append] at h
    exact ofInfer_keeps own.node (inferConditional_keeps (cond.part_keeps h.1.1)
      (ifTrue.part_keeps h.1.2) (ifFalse.part_keeps h.2))

theorem partsOf_keep : (items : List Expr) → (∀ x ∈ allOfExprs items, w.Covers x) →
    ∀ p ∈ partsOf items, p.Keeps w
  | [], _ => by simp [partsOf]
  | e :: rest, h => by
    simp only [allOfExprs, List.forall_mem_append] at h
    simp only [partsOf, List.forall_mem_cons]
    exact ⟨e.part_keeps h.1, partsOf_keep rest h.2⟩

theorem argParts_keep : (args : List Actual) → (∀ x ∈ allOfActuals args, w.Covers x) →
    ∀ a ∈ argParts args, a.operand.Keeps w
  | [], _ => by simp [argParts]
  | ⟨_, _, value⟩ :: rest, h => by
    simp only [allOfActuals, List.forall_mem_append] at h
    simp only [argParts, List.forall_mem_cons]
    exact ⟨(value.part_keeps h.1).operand, argParts_keep rest h.2⟩

theorem entryParts_keep : (items : List (Expr × Expr)) → (∀ x ∈ allOfPairs items, w.Covers x) →
    ∀ e ∈ entryParts items, DictEntry.Keeps w e
  | [], _ => by simp [entryParts]
  | (key, value) :: rest, h => by
    simp only [allOfPairs, List.forall_mem_append] at h
    simp only [entryParts, List.forall_mem_cons]
    exact ⟨⟨(key.part_keeps h.1.1).operand, (value.part_keeps h.1.2).operand⟩,
      entryParts_keep rest h.2⟩

theorem optionPart_keep : (e : Option Expr) → (∀ x ∈ allOfOption e, w.Covers x) →
    ∀ p ∈ optionPart e, p.Keeps w
  | none, _ => by simp [optionPart]
  | some e, h => by simpa [optionPart] using e.part_keeps h

theorem clauseParts_keep : (clauses : List Clause) → (∀ x ∈ allOfClauses clauses, w.Covers x) →
    ∀ c ∈ clauseParts clauses, c.Keeps w
  | [], _ => by simp [clauseParts]
  | ⟨targets, sequence, conditions⟩ :: rest, h => by
    simp only [allOfClauses, List.forall_mem_append] at h
    simp only [clauseParts, List.forall_mem_cons]
    exact ⟨⟨partsOf_keep targets h.1.1.1, sequence.part_keeps h.1.1.2,
      partsOf_keep conditions h.1.2⟩, clauseParts_keep rest h.2⟩

end

namespace Expr

/-! ### Values and targets -/

theorem inside_unwrapped_subset (e : Expr) : e.unwrapped.kind.inside ⊆ e.all := by
  intro x member
  refine e.unwrapped_all_subset ?_
  rw [Expr.all_eq]
  exact List.mem_cons_of_mem _ member

theorem targets_all_subset {e t : Expr} (h : t ∈ e.targets) : t.all ⊆ e.all := by
  have inItems : ∀ {items : List Expr}, allOfExprs items ⊆ e.all →
      t ∈ items.map Expr.unwrapped → t.all ⊆ e.all := by
    intro items inside member
    obtain ⟨y, hy, rfl⟩ := List.mem_map.mp member
    exact fun x hx => inside (all_subset_allOfExprs hy (y.unwrapped_all_subset hx))
  have inside := e.inside_unwrapped_subset
  unfold Expr.targets at h
  split at h
  · rename_i items display
    rw [display] at inside
    exact inItems inside h
  · rename_i items display
    rw [display] at inside
    exact inItems inside h
  · rw [List.mem_singleton.mp h]
    exact e.unwrapped_all_subset

namespace Within

variable {e : Expr} (h : e.Within w)

include h

theorem records : w.nodes e.id := (h e e.self_mem_all).node

theorem accept (expected : Option Ty) : Check.Keeps w (e.accept expected) :=
  (e.part_keeps h).operand expected

theorem operand : e.operand.Keeps w := (e.part_keeps h).operand

theorem toItem : e.toItem.Keeps w := ⟨operand h, records h⟩

theorem unwrapped : e.unwrapped.Within w := fun x hx => h x (e.unwrapped_all_subset hx)

theorem toValue : e.toValue.Keeps w := by
  refine ⟨operand h, ?_⟩
  have outer := records h
  have inner := (unwrapped h).records
  have inside := e.inside_unwrapped_subset
  unfold Expr.toValue
  extract_lets bare form
  unfold form
  split
  · exact ⟨outer, inner⟩
  · rename_i items display
    rw [display] at inside
    refine ⟨outer, inner, fun item member => ?_⟩
    obtain ⟨x, hx, rfl⟩ := List.mem_map.mp member
    exact toItem fun y hy => h y (inside (all_subset_allOfExprs hx hy))
  · exact True.intro

theorem targets : ∀ t ∈ e.targets, t.Within w :=
  fun _ member x hx => h x (targets_all_subset member hx)

end Within
end Expr

/-- Assigning to targets that are within the effects. -/
theorem assignTargets_keeps {targets : List Expr} {value : Value} {span : Span}
    (ht : ∀ t ∈ targets, t.Within w) (hv : value.Keeps w) :
    Check.Keeps w (assign (targets.map Expr.placedTarget) value span) := by
  refine assign_keeps ?_ ?_ hv
  · intro c member
    obtain ⟨t, placed, rfl⟩ := List.mem_map.mp member
    exact (ht t placed).records
  · intro c member
    obtain ⟨t, placed, rfl⟩ := List.mem_map.mp member
    exact (t.part_keeps (ht t placed)).target

end Inference

end Gradual
