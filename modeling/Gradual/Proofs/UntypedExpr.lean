import Gradual.Proofs.ExprEffects
import Gradual.Proofs.UntypedRules

/-!
Expressions in code that declares no types: whatever they are made of, they answer the dynamic type.
Two kinds are set apart, whose rules look at what is declared elsewhere.
-/

namespace Gradual

/-- Not an attribute behind the class and not a placeholder that is not told its type. -/
def ExprKind.isPlain : ExprKind → Bool
  | .super _ | .placeholder none => false
  | _ => true

/-- Everything in the expression is plain. -/
def Expr.IsPlain (e : Expr) : Prop := ∀ x ∈ e.all, x.kind.isPlain = true

instance (e : Expr) : Decidable e.IsPlain :=
  inferInstanceAs (Decidable (∀ x ∈ e.all, x.kind.isPlain = true))

variable {r : Option Ty}

structure Rules.Untyped (r : Option Ty) (rules : Rules) : Prop where
  accept : ∀ expected, Check.Keeps (.untyped r) (rules.accept expected) (· = .any)
  target : Check.Keeps (.untyped r) rules.target (·.Untyped r)

structure Part.Untyped (r : Option Ty) (p : Part) : Prop where
  operand : p.operand.Untyped r
  target : Check.Keeps (.untyped r) p.target (·.Untyped r)

/-- All parts of a clause are dynamic. -/
structure ClausePart.Untyped (r : Option Ty) (c : ClausePart) : Prop where
  targets : ∀ p ∈ c.targets, p.Untyped r
  sequence : c.sequence.Untyped r
  conditions : ∀ p ∈ c.conditions, p.Untyped r

open Check

namespace Rules

/-- Whatever is inferred, the answer is dynamic. -/
theorem acceptAs_untyped {id : NodeId} {infer : Check Ty} {expected : Option Ty}
    (h : Check.Keeps (.untyped r) infer) :
    Check.Keeps (.untyped r) (acceptAs id infer expected) (· = .any) := by
  apply (expecting_untyped h).seq
  intro type
  refine store_untyped.seq fun _ => isDynamic_untyped.bind ?_
  rintro _ rfl
  exact .pure rfl

theorem ofInfer_untyped {id : NodeId} {infer : Check Ty} (h : Check.Keeps (.untyped r) infer) :
    (ofInfer id infer).Untyped r :=
  ⟨fun _ => acceptAs_untyped h, (acceptAs_untyped h).trivial.seq fun _ => .pure True.intro⟩

/-! ### Names and attributes -/

theorem variableTarget_untyped {id : NodeId} {v : Var} :
    Check.Keeps (.untyped r) (variableTarget id v) (·.Untyped r) := by
  apply typeOfVar_keeps.seq
  intro known
  split
  · exact store_untyped.seq fun _ => .pure True.intro
  · exact .pure True.intro

/-- A variable without a type is no problem in code without types. -/
theorem inferName_untyped {ref : NameRef} {span : Span} :
    Check.Keeps (.untyped r) (inferName ref span) := by
  unfold inferName
  split
  · refine scope_keeps.seq fun s => get_keeps.seq fun _ => ?_
    split
    · exact .done
    · apply isDynamic_untyped.bind
      intro _ answer
      subst answer
      exact .done
  · exact .done
  · exact read_keeps.seq fun _ => .done
  · exact .done
  · exact .done

theorem name_untyped {id : NodeId} {span : Span} {ref : NameRef} :
    (name id span ref).Untyped r := by
  have plain : (ofInfer id (inferName ref span)).Untyped r := ofInfer_untyped inferName_untyped
  unfold name
  dsimp only
  split
  · exact ⟨plain.accept, variableTarget_untyped⟩
  · exact plain

theorem memberTarget_untyped {id : NodeId} {span : Span} {base : Part} {name : String}
    {defined : Option Var} {isDef : Bool} (h : base.Untyped r) :
    Check.Keeps (.untyped r) (memberTarget id span base name defined isDef) (·.Untyped r) := by
  apply (h.operand none).bind
  intro _ answer
  subst answer
  split
  · split
    · exact variableTarget_untyped
    · exact .pure True.intro
  · exact getAttribute_untyped.trivial.seq fun _ => store_untyped.seq fun _ => .pure True.intro

theorem member_untyped {id : NodeId} {span : Span} {base : Part} {name : String}
    {defined : Option Var} {isDef : Bool} (h : base.Untyped r) :
    (member id span base name defined isDef).Untyped r := by
  refine ⟨fun _ => acceptAs_untyped ((h.operand none).bind ?_), memberTarget_untyped h⟩
  rintro _ rfl
  exact getAttribute_untyped.trivial

/-! ### Operators -/

theorem inferUnary_untyped {op : UnaryOp} {operand : Part} {span : Span} (h : operand.Untyped r) :
    Check.Keeps (.untyped r) (inferUnary op operand span) := by
  apply (h.operand none).bind
  intro _ answer
  subst answer
  split
  · exact named_untyped
  · exact .done

theorem inferBinary_untyped {op : BinaryOp} {left right : Part} {span : Span}
    (hl : left.Untyped r) (hr : right.Untyped r) :
    Check.Keeps (.untyped r) (inferBinary op left right span) := by
  have joined : Check.Keeps (.untyped r) (do
      let l ← left.operand.accept none
      let r ← right.operand.accept none
      join l r) := by
    apply (hl.operand none).bind
    intro _ answer
    subst answer
    apply (hr.operand none).bind
    intro _ answer
    subst answer
    exact join_untyped.trivial
  have compared : Check.Keeps (.untyped r) (do
      discard <| left.operand.accept none
      discard <| right.operand.accept none
      boolType) :=
    (hl.operand none).trivial.discard.seq fun _ =>
      (hr.operand none).trivial.discard.seq fun _ => named_untyped
  have contained : Check.Keeps (.untyped r) (do
      let container ← right.operand.accept none
      discard <| checkOperator "__contains__" container left.operand op.symbol span
      boolType) := by
    apply (hr.operand none).bind
    intro _ answer
    subst answer
    exact (checkOperator_untyped hl.operand).trivial.discard.seq fun _ => named_untyped
  unfold inferBinary
  split
  · exact joined
  · exact joined
  · exact compared
  · exact compared
  · exact contained
  · exact contained
  · apply (hl.operand none).bind
    intro _ answer
    subst answer
    apply read_keeps.seq
    intro env
    split
    · exact (checkOperator_untyped hr.operand).trivial.seq fun _ => .done
    · exact (hr.operand none).trivial.discard.seq fun _ => .done

theorem inferIndex_untyped {base index : Part} {literal : Option Int} {span : Span}
    (hb : base.Untyped r) (hi : index.Untyped r) :
    Check.Keeps (.untyped r) (inferIndex base index literal span) := by
  apply (hb.operand none).bind
  intro _ answer
  subst answer
  exact (checkMethodCall_untyped (by simpa using hi.operand)).trivial

theorem inferTypeApplication_untyped {inner : Part} {types : List Ty} {span : Span}
    (h : inner.Untyped r) : Check.Keeps (.untyped r) (inferTypeApplication inner types span) := by
  apply (h.operand none).bind
  intro _ answer
  subst answer
  exact .done

/-! ### Slices, functions without a name, comprehensions -/

theorem inferSlice_untyped {bounds : List Part} (h : ∀ p ∈ bounds, p.Untyped r) :
    Check.Keeps (.untyped r) (inferSlice bounds) := by
  apply named_untyped.seq
  intro int
  refine (Check.Keeps.forIn fun bound member => ?_).seq fun _ => named_untyped
  apply ((h bound member).operand none).bind
  intro _ answer
  subst answer
  apply isSubtype_untyped.bind
  intro _ answer
  subst answer
  exact .pure rfl

/-- A function without a name declares types no more than the code around it. -/
theorem inferLambda_untyped {params : List (Var × ArgKind)} {body : Part} (h : body.Untyped r) :
    Check.Keeps (.untyped r) (inferLambda params body) := by
  apply expectedType_keeps.seq
  intro expected
  extract_lets checked
  have checkedKeeps : ∀ formals, Check.Keeps (.untyped r) (checked formals) := by
    rintro ⟨argTypes, result⟩
    apply isDynamic_untyped.bind
    intro _ answer
    subst answer
    refine (inFunction_untyped rfl (inLocalScope_untyped ?_)).seq fun _ => .done
    refine Check.Keeps.seq (.forIn fun p _ => ?_) fun _ => (h.operand result).trivial
    exact setVar_untyped.seq fun _ => declareLocal_untyped.yielding
  split
  · exact Check.Keeps.done.seq checkedKeeps
  · exact Check.Keeps.done.seq checkedKeeps

theorem checkClause_untyped {span : Span} {c : ClausePart} (h : c.Untyped r) :
    Check.Keeps (.untyped r) (checkClause span c) := by
  apply (itemType_untyped h.sequence.operand).bind
  intro _ answer
  subst answer
  refine Check.Keeps.seq (assign_untyped ?_ Value.untyped_known) fun _ => ?_
  · intro t ht
    obtain ⟨p, hp, rfl⟩ := List.mem_map.mp ht
    exact (h.targets p hp).target
  · refine (Check.Keeps.forIn fun condition member => ?_).seq fun _ => .done
    exact ((h.conditions condition member).operand none).trivial.discard.yielding

theorem inferComprehension_untyped {fullName : String} {left : Part} {clauses : List ClausePart}
    {span : Span} (hl : left.Untyped r) (hc : ∀ c ∈ clauses, c.Untyped r) :
    Check.Keeps (.untyped r) (inferComprehension fullName left clauses span) := by
  apply expectedItem?_untyped.seq
  intro expected
  refine (Check.Keeps.forIn fun c member => ?_).seq fun _ => ?_
  · exact (checkClause_untyped (hc c member)).yielding
  · exact (hl.operand expected).trivial.seq fun _ => named_untyped

theorem inferConditional_untyped {cond : Expr} {condition ifTrue ifFalse : Part}
    (hc : condition.Untyped r) (ht : ifTrue.Untyped r) (hf : ifFalse.Untyped r) :
    Check.Keeps (.untyped r) (inferConditional cond condition ifTrue ifFalse) := by
  apply expectedType_keeps.seq
  intro expected
  apply (hc.operand none).trivial.discard.seq
  intro _
  refine (Check.Keeps.of_reads fun _ _ => rfl).seq fun guard => ?_
  apply (narrowing_untyped (ht.operand expected)).bind
  intro _ answer
  subst answer
  apply (hf.operand expected).bind
  intro _ answer
  subst answer
  exact join_untyped.trivial

/-! ### Targets with items -/

theorem nestedTargetType_untyped {t : Target} : Check.Keeps (.untyped r) (nestedTargetType t) := by
  unfold nestedTargetType
  split
  · exact .done
  · exact inferVar_untyped.seq fun _ => .done
  · exact .done

theorem displayTarget_untyped {items : List Part} (h : ∀ p ∈ items, p.Untyped r) :
    Check.Keeps (.untyped r) (displayTarget items) (·.Untyped r) := by
  refine (Check.Keeps.mapM_trivial fun item member => ?_).seq fun _ => .pure True.intro
  exact (h item member).target.trivial.seq fun _ => nestedTargetType_untyped

theorem placed_untyped {items : List Part} (h : ∀ p ∈ items, p.Untyped r) :
    ∀ c ∈ placed items, c.1.Untyped r := by
  intro c member
  obtain ⟨p, hp, rfl⟩ := List.mem_map.mp member
  exact (h p hp).operand

end Rules

section Inference

open Rules

mutual

theorem Expr.part_untyped : (e : Expr) → e.IsPlain → e.part.Untyped r
  | ⟨id, span, kind⟩, h => by
    have own := h ⟨id, span, kind⟩ (by simp [Expr.all])
    have rules : (kind.rules id span).Untyped r :=
      kind.rules_untyped own fun x hx => h x (by simp [Expr.all, hx])
    exact ⟨rules.accept, rules.target⟩

theorem ExprKind.rules_untyped {id : NodeId} {span : Span} : (kind : ExprKind) →
    kind.isPlain = true → (∀ x ∈ kind.inside, x.kind.isPlain = true) →
    (kind.rules id span).Untyped r
  | .name _, _, _ => name_untyped
  | .member base .., _, h => member_untyped (base.part_untyped h)
  | .call callee args, _, h => by
    simp only [ExprKind.inside, List.forall_mem_append] at h
    refine ofInfer_untyped (((callee.part_untyped h.1).operand none).bind ?_)
    rintro _ rfl
    exact (checkCall_untyped (argParts_untyped args h.2)).trivial.seq fun _ => .done
  | .paren inner, _, h => by
    have part := inner.part_untyped h
    refine ⟨fun _ => acceptAs_untyped ?_, part.target⟩
    exact expectedType_keeps.seq fun _ => (part.operand _).trivial
  | .int _, _, _ | .float, _, _ | .str _, _, _ => ofInfer_untyped named_untyped
  | .bytes _, _, _ => by
    refine ofInfer_untyped (read_keeps.seq fun env => ?_)
    split <;> exact named_untyped
  | .unicode _, _, _ => by
    refine ofInfer_untyped (read_keeps.seq fun env => ?_)
    split <;> exact named_untyped
  | .binary op left right, _, h => by
    simp only [ExprKind.inside, List.forall_mem_append] at h
    exact ofInfer_untyped (inferBinary_untyped (left.part_untyped h.1) (right.part_untyped h.2))
  | .unary op operand, _, h => ofInfer_untyped (inferUnary_untyped (operand.part_untyped h))
  | .index base index, _, h => by
    simp only [ExprKind.inside, List.forall_mem_append] at h
    have b := base.part_untyped h.1
    have i := index.part_untyped h.2
    exact ⟨fun _ => acceptAs_untyped (inferIndex_untyped b i),
      .pure ⟨b.operand none, i.operand⟩⟩
  | .cast inner _, _, h =>
    ofInfer_untyped (((inner.part_untyped h).operand none).trivial.discard.seq fun _ => .done)
  | .super _, own, _ => nomatch own
  | .typeApplication inner _, _, h =>
    ofInfer_untyped (inferTypeApplication_untyped (inner.part_untyped h))
  | .typeVar _, _, _ => ofInfer_untyped .done
  | .list items, _, h =>
    ⟨fun _ => acceptAs_untyped (sequenceDisplay_untyped (placed_untyped (partsOf_untyped items h))),
      displayTarget_untyped (partsOf_untyped items h)⟩
  | .set items, _, h =>
    ofInfer_untyped (sequenceDisplay_untyped (placed_untyped (partsOf_untyped items h)))
  | .tuple items, _, h => by
    have parts := partsOf_untyped items h
    refine ⟨fun _ => acceptAs_untyped (tupleDisplay_untyped ?_), displayTarget_untyped parts⟩
    simpa using fun p hp => (parts p hp).operand
  | .dict items, _, h => ofInfer_untyped (dictDisplay_untyped (entryParts_untyped items h))
  | .slice first last stride, _, h => by
    simp only [ExprKind.inside, List.forall_mem_append] at h
    refine ofInfer_untyped (inferSlice_untyped ?_)
    simp only [List.forall_mem_append]
    exact ⟨⟨optionPart_untyped first h.1.1, optionPart_untyped last h.1.2⟩,
      optionPart_untyped stride h.2⟩
  | .lambda params body, _, h => ofInfer_untyped (inferLambda_untyped (body.part_untyped h))
  | .listComprehension left clauses, _, h => by
    simp only [ExprKind.inside, List.forall_mem_append] at h
    exact ofInfer_untyped
      (inferComprehension_untyped (left.part_untyped h.1) (clauseParts_untyped clauses h.2))
  | .generator left clauses, _, h => by
    simp only [ExprKind.inside, List.forall_mem_append] at h
    exact ofInfer_untyped
      (inferComprehension_untyped (left.part_untyped h.1) (clauseParts_untyped clauses h.2))
  | .placeholder _, _, _ => ofInfer_untyped .done
  | .conditional cond ifTrue ifFalse, _, h => by
    simp only [ExprKind.inside, List.forall_mem_append] at h
    exact ofInfer_untyped (inferConditional_untyped (cond.part_untyped h.1.1)
      (ifTrue.part_untyped h.1.2) (ifFalse.part_untyped h.2))

theorem partsOf_untyped : (items : List Expr) →
    (∀ x ∈ allOfExprs items, x.kind.isPlain = true) → ∀ p ∈ partsOf items, p.Untyped r
  | [], _ => by simp [partsOf]
  | e :: rest, h => by
    simp only [allOfExprs, List.forall_mem_append] at h
    simp only [partsOf, List.forall_mem_cons]
    exact ⟨e.part_untyped h.1, partsOf_untyped rest h.2⟩

theorem argParts_untyped : (args : List Actual) →
    (∀ x ∈ allOfActuals args, x.kind.isPlain = true) → ∀ a ∈ argParts args, a.operand.Untyped r
  | [], _ => by simp [argParts]
  | ⟨_, _, value⟩ :: rest, h => by
    simp only [allOfActuals, List.forall_mem_append] at h
    simp only [argParts, List.forall_mem_cons]
    exact ⟨(value.part_untyped h.1).operand, argParts_untyped rest h.2⟩

theorem entryParts_untyped : (items : List (Expr × Expr)) →
    (∀ x ∈ allOfPairs items, x.kind.isPlain = true) → ∀ e ∈ entryParts items, DictEntry.Untyped r e
  | [], _ => by simp [entryParts]
  | (key, value) :: rest, h => by
    simp only [allOfPairs, List.forall_mem_append] at h
    simp only [entryParts, List.forall_mem_cons]
    exact ⟨⟨(key.part_untyped h.1.1).operand, (value.part_untyped h.1.2).operand⟩,
      entryParts_untyped rest h.2⟩

theorem optionPart_untyped : (e : Option Expr) →
    (∀ x ∈ allOfOption e, x.kind.isPlain = true) → ∀ p ∈ optionPart e, p.Untyped r
  | none, _ => by simp [optionPart]
  | some e, h => by simpa [optionPart] using e.part_untyped h

theorem clauseParts_untyped : (clauses : List Clause) →
    (∀ x ∈ allOfClauses clauses, x.kind.isPlain = true) → ∀ c ∈ clauseParts clauses, c.Untyped r
  | [], _ => by simp [clauseParts]
  | ⟨targets, sequence, conditions⟩ :: rest, h => by
    simp only [allOfClauses, List.forall_mem_append] at h
    simp only [clauseParts, List.forall_mem_cons]
    exact ⟨⟨partsOf_untyped targets h.1.1.1, sequence.part_untyped h.1.1.2,
      partsOf_untyped conditions h.1.2⟩, clauseParts_untyped rest h.2⟩

end

namespace Expr.IsPlain

variable {e : Expr} (h : e.IsPlain)

include h

theorem operand : e.operand.Untyped r := (e.part_untyped h).operand

theorem accept (expected : Option Ty) : Check.Keeps (.untyped r) (e.accept expected) (· = .any) :=
  operand h expected

theorem discarded : Check.Keeps (.untyped r) (discard (e.accept none)) :=
  (accept h none).trivial.discard

theorem unwrapped : e.unwrapped.IsPlain := fun x hx => h x (e.unwrapped_all_subset hx)

theorem toItem : e.toItem.Untyped r := by
  refine ⟨operand h, ?_⟩
  have own := h e e.self_mem_all
  show e.isPlaceholder = false
  unfold Expr.isPlaceholder
  split
  · rename_i placeholder
    rw [placeholder] at own
    cases own
  · rfl

theorem toValue : e.toValue.Untyped r := by
  refine ⟨operand h, ?_⟩
  have inner := unwrapped h _ e.unwrapped.self_mem_all
  have inside := e.inside_unwrapped_subset
  unfold Expr.toValue
  extract_lets bare form
  unfold form
  split
  · rename_i placeholder
    rw [placeholder] at inner
    cases inner
  · rename_i items display
    rw [display] at inside
    intro item member
    obtain ⟨x, hx, rfl⟩ := List.mem_map.mp member
    exact toItem fun y hy => h y (inside (all_subset_allOfExprs hx hy))
  · exact True.intro

theorem targets : ∀ t ∈ e.targets, t.IsPlain :=
  fun _ member x hx => h x (targets_all_subset member hx)

end Expr.IsPlain

/-- Assigning to plain targets. -/
theorem assignTargets_untyped {targets : List Expr} {value : Value} {span : Span}
    (ht : ∀ t ∈ targets, t.IsPlain) (hv : value.Untyped r) :
    Keeps (.untyped r) (assign (targets.map Expr.placedTarget) value span) := by
  refine assign_untyped (fun c member => ?_) hv
  obtain ⟨t, placed, rfl⟩ := List.mem_map.mp member
  exact (t.part_untyped (ht t placed)).target

end Inference

end Gradual
