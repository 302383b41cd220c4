import Gradual.Checker.Expr
import Gradual.Proofs.Renumbering
import Gradual.Proofs.RuleAgreement

/-!
Agreement of inference: an expression and the same expression with other ids.
-/

namespace Gradual

variable {ρ : NodeId → NodeId}

structure Rules.Alike (ρ : NodeId → NodeId) (r q : Rules) : Prop where
  accept : ∀ expected, Check.Same ρ (r.accept expected) (q.accept expected)
  target : Agree (State.Alike ρ) (Target.Alike ρ) r.target q.target

structure Part.Alike (ρ : NodeId → NodeId) (p q : Part) : Prop where
  id : q.id = ρ p.id
  span : q.span = p.span
  operand : p.operand.Alike ρ q.operand
  target : Agree (State.Alike ρ) (Target.Alike ρ) p.target q.target

abbrev PartsAlike (ρ : NodeId → NodeId) : List Part → List Part → Prop :=
  List.Forall₂ (Part.Alike ρ)

structure ClausePart.Alike (ρ : NodeId → NodeId) (c d : ClausePart) : Prop where
  targets : PartsAlike ρ c.targets d.targets
  sequence : c.sequence.Alike ρ d.sequence
  conditions : PartsAlike ρ c.conditions d.conditions

open Check

theorem Part.Alike.accept {p q : Part} (h : p.Alike ρ q) (expected : Option Ty) :
    Same ρ (p.operand.accept expected) (q.operand.accept expected) := h.operand.accept expected

namespace Rules

theorem acceptAs_same {id : NodeId} {infer infer' : Check Ty} {expected : Option Ty}
    (h : Same ρ infer infer') : Same ρ (acceptAs id infer expected) (acceptAs (ρ id) infer' expected) :=
  (expecting_agree h).seq fun _ => store_same.seq fun _ => isDynamic_blind.seq fun _ => .done

theorem ofInfer_alike {id : NodeId} {infer infer' : Check Ty} (h : Same ρ infer infer') :
    (ofInfer id infer).Alike ρ (ofInfer (ρ id) infer') :=
  ⟨fun _ => acceptAs_same h, (acceptAs_same h).last fun _ _ same => same ▸ .typed _⟩

/-! ### Names and attributes -/

theorem variableTarget_alike {id : NodeId} {v : Var} :
    Agree (State.Alike ρ) (Target.Alike ρ) (variableTarget id v) (variableTarget (ρ id) v) := by
  apply typeOfVar_blind.seq
  intro known
  cases known with
  | some type => exact store_same.seq fun _ => .pure (.typed type)
  | none => exact .pure (.inferred v)

theorem inferName_blind {ref : NameRef} {span : Span} : Blind ρ (inferName ref span) := by
  unfold inferName
  split
  · refine scope_blind.seq fun s => get_alike.bind fun t u alike => ?_
    rw [alike.vars_eq]
    show Blind ρ _
    split
    · exact .done
    · apply isDynamic_blind.bind
      intro dynamic
      split
      · exact report_blind.bind fun _ => .done
      · exact .done
  · exact .done
  · exact read_blind.bind fun _ => .done
  · exact .done
  · exact .done

theorem name_alike {id : NodeId} {span : Span} {ref : NameRef} :
    (name id span ref).Alike ρ (name (ρ id) span ref) := by
  have plain : (ofInfer id (inferName ref span)).Alike ρ (ofInfer (ρ id) (inferName ref span)) :=
    ofInfer_alike inferName_blind
  unfold name
  dsimp only
  split
  · exact ⟨plain.accept, variableTarget_alike⟩
  · exact plain

theorem memberTarget_alike {id : NodeId} {span : Span} {base base' : Part} {name : String}
    {defined : Option Var} {isDef : Bool} (h : base.Alike ρ base') :
    Agree (State.Alike ρ) (Target.Alike ρ) (memberTarget id span base name defined isDef)
      (memberTarget (ρ id) span base' name defined isDef) := by
  apply (h.accept none).seq
  intro type
  cases isDef with
  | true =>
    cases defined with
    | some v => exact variableTarget_alike
    | none => exact .pure (.typed .any)
  | false => exact getAttribute_blind.seq fun _ => store_same.seq fun _ => .pure (.typed _)

theorem member_alike {id : NodeId} {span : Span} {base base' : Part} {name : String}
    {defined : Option Var} {isDef : Bool} (h : base.Alike ρ base') :
    (member id span base name defined isDef).Alike ρ
      (member (ρ id) span base' name defined isDef) where
  accept _ := acceptAs_same ((h.accept none).seq fun _ => getAttribute_blind)
  target := memberTarget_alike h

/-! ### Operators -/

theorem inferUnary_same {op : UnaryOp} {operand operand' : Part} {span : Span}
    (h : operand.Alike ρ operand') :
    Same ρ (inferUnary op operand span) (inferUnary op operand' span) := by
  apply (h.accept none).seq
  intro type
  show Blind ρ _
  split
  · exact boolType_blind
  · split
    · exact .done
    · apply getAttribute?_blind.bind
      intro found
      split
      · exact Blind.bind (checkCall_same .nil) fun _ => .done
      · exact report_blind.bind fun _ => .done

theorem inferBinary_same {op : BinaryOp} {left left' right right' : Part} {span : Span}
    (hl : left.Alike ρ left') (hr : right.Alike ρ right') :
    Same ρ (inferBinary op left right span) (inferBinary op left' right' span) := by
  unfold inferBinary
  split
  · exact (hl.accept none).seq fun _ => (hr.accept none).seq fun _ => join_blind
  · exact (hl.accept none).seq fun _ => (hr.accept none).seq fun _ => join_blind
  · exact (hl.accept none).discard.seq fun _ => (hr.accept none).discard.seq fun _ => boolType_blind
  · exact (hl.accept none).discard.seq fun _ => (hr.accept none).discard.seq fun _ => boolType_blind
  · exact (hr.accept none).seq fun _ =>
      (checkOperator_same hl.operand).discard.seq fun _ => boolType_blind
  · exact (hr.accept none).seq fun _ =>
      (checkOperator_same hl.operand).discard.seq fun _ => boolType_blind
  · refine (hl.accept none).seq fun l => read_blind.seq fun env => ?_
    split
    · exact (checkOperator_same hr.operand).seq fun _ => .done
    · exact (hr.accept none).discard.seq fun _ => .done

theorem inferIndex_same {base base' index index' : Part} {literal : Option Int} {span : Span}
    (hb : base.Alike ρ base') (hi : index.Alike ρ index') :
    Same ρ (inferIndex base index literal span) (inferIndex base' index' literal span) := by
  apply (hb.accept none).seq
  intro type
  split
  · apply (hi.accept none).discard.seq
    intro _
    show Blind ρ _
    split
    · exact report_blind.bind fun _ => .done
    · split
      · exact .done
      · exact report_blind.bind fun _ => .done
  · exact checkMethodCall_same (.cons hi.operand .nil)

theorem inferTypeApplication_same {inner inner' : Part} {types : List Ty} {span : Span}
    (h : inner.Alike ρ inner') :
    Same ρ (inferTypeApplication inner types span) (inferTypeApplication inner' types span) := by
  apply (h.accept none).seq
  intro type
  show Blind ρ _
  extract_lets applied? expected
  clear_value applied?
  split
  · exact .done
  · exact report_blind.bind fun _ => .done

/-! ### Slices, functions without a name, comprehensions -/

theorem inferSlice_same {bounds bounds' : List Part} (h : PartsAlike ρ bounds bounds') :
    Same ρ (inferSlice bounds) (inferSlice bounds') := by
  apply named_blind.seq
  intro int
  refine (Agree.forIn (h.imp fun bound bound' alike => ?_)).seq fun _ => named_blind
  refine (alike.accept none).seq fun type => isSubtype_blind.seq fun fits => ?_
  rw [alike.span]
  split
  · exact report_blind.yielding
  · exact .pure ⟨rfl, rfl⟩

theorem inferLambda_same {params : List (Var × ArgKind)} {body body' : Part} (h : body.Alike ρ body') :
    Same ρ (inferLambda params body) (inferLambda params body') := by
  apply expectedType_blind.seq
  intro expected
  extract_lets checked checked'
  have checkedSame : ∀ formals, Same ρ (checked formals) (checked' formals) := by
    intro (argTypes, result)
    apply isDynamic_blind.seq
    intro dynamic
    refine (inFunction_agree (inLocalScope_agree ?_)).seq fun type => .done
    refine Agree.seq (.forIn (List.forall₂_same.mpr ?_)) fun _ => h.accept result
    rintro ⟨⟨v, kind⟩, type⟩ -
    exact setVar_blind.seq fun _ => declareLocal_blind.yielding
  split
  · exact Agree.done.seq checkedSame
  · exact Agree.done.seq checkedSame

/-- Targets with their ids. -/
theorem placedTargets_alike {targets targets' : List Part} (h : PartsAlike ρ targets targets') :
    List.Forall₂ (PlacedAlike ρ) (targets.map fun t => (t.id, t.target))
      (targets'.map fun t => (t.id, t.target)) := by
  rw [List.forall₂_map_left_iff, List.forall₂_map_right_iff]
  exact h.imp fun _ _ alike => ⟨alike.id, alike.target⟩

theorem checkClause_same {span : Span} {c d : ClausePart} (h : c.Alike ρ d) :
    Same ρ (checkClause span c) (checkClause span d) := by
  unfold checkClause
  rw [h.sequence.span]
  apply (itemType_same h.sequence.operand).seq
  intro item
  apply (assign_same (placedTargets_alike h.targets) Value.known_alike).seq
  intro _
  refine (Agree.forIn (h.conditions.imp fun _ _ alike => ?_)).seq fun _ => .done
  exact (alike.accept none).discard.yielding

theorem inferComprehension_same {fullName : String} {left left' : Part}
    {clauses clauses' : List ClausePart} {span : Span} (hl : left.Alike ρ left')
    (hc : List.Forall₂ (ClausePart.Alike ρ) clauses clauses') :
    Same ρ (inferComprehension fullName left clauses span)
      (inferComprehension fullName left' clauses' span) := by
  apply expectedItem?_blind.seq
  intro expected
  apply (Agree.forIn (hc.imp fun _ _ alike => (checkClause_same alike).yielding)).seq
  intro _
  exact (hl.accept expected).seq fun _ => named_blind

theorem guard?_same {e : Expr} : Same ρ (guard? e) (guard? (e.renumber ρ)) := by
  refine get_alike.bind fun s t alike => read_blind.seq fun env => ?_
  cases alike with
  | intro types n injective recorded next =>
    refine .pure ?_
    unfold Guard.ofExpr?
    rw [e.instanceTest?_renumber]
    cases e.instanceTest? with
    | none => rfl
    | some test =>
      simp only [Option.map_some, Option.bind_eq_bind, Option.bind_some, recorded]

theorem inferConditional_same {cond : Expr}
    {condition condition' ifTrue ifTrue' ifFalse ifFalse' : Part}
    (hc : condition.Alike ρ condition') (ht : ifTrue.Alike ρ ifTrue')
    (hf : ifFalse.Alike ρ ifFalse') :
    Same ρ (inferConditional cond condition ifTrue ifFalse)
      (inferConditional (cond.renumber ρ) condition' ifTrue' ifFalse') := by
  apply expectedType_blind.seq
  intro expected
  refine (hc.accept none).discard.seq fun _ => guard?_same.seq fun guard => ?_
  apply (narrowing_agree (ht.accept expected)).seq
  intro t
  exact (hf.accept expected).seq fun f => join_blind

/-! ### Targets with items -/

theorem nestedTargetType_same {t u : Target} (h : t.Alike ρ u) :
    Same ρ (nestedTargetType t) (nestedTargetType u) := by
  cases h with
  | typed => exact .done
  | indexed => exact .done
  | inferred v => exact inferVar_blind.seq fun _ => .done

theorem displayTarget_alike {items items' : List Part} (h : PartsAlike ρ items items') :
    Agree (State.Alike ρ) (Target.Alike ρ) (displayTarget items) (displayTarget items') := by
  have types : Same ρ (items.mapM fun item => do nestedTargetType (← item.target))
      (items'.mapM fun item => do nestedTargetType (← item.target)) :=
    .mapM_eq (h.imp fun _ _ alike => alike.target.bind fun _ _ same => nestedTargetType_same same)
  exact types.last fun _ _ same => same ▸ .typed _

theorem placed_alike {items items' : List Part} (h : PartsAlike ρ items items') :
    ItemsAlike ρ (placed items) (placed items') := by
  unfold placed ItemsAlike
  rw [List.forall₂_map_left_iff, List.forall₂_map_right_iff]
  exact h.imp fun _ _ alike => ⟨alike.operand, alike.span⟩

theorem operands_alike {items items' : List Part} (h : PartsAlike ρ items items') :
    List.Forall₂ (Operand.Alike ρ) (items.map (·.operand)) (items'.map (·.operand)) := by
  rw [List.forall₂_map_left_iff, List.forall₂_map_right_iff]
  exact h.imp fun _ _ alike => alike.operand

end Rules

section Inference

open Rules

mutual

theorem Expr.part_alike : (e : Expr) → e.part.Alike ρ (e.renumber ρ).part
  | ⟨id, span, kind⟩ => by
    have rules : (kind.rules id span).Alike ρ ((kind.renumber ρ).rules (ρ id) span) :=
      kind.rules_alike
    exact ⟨rfl, rfl, ⟨rules.accept, Expr.calledName?_renumber ρ ⟨id, span, kind⟩⟩, rules.target⟩

theorem ExprKind.rules_alike {id : NodeId} {span : Span} : (kind : ExprKind) →
    (kind.rules id span).Alike ρ ((kind.renumber ρ).rules (ρ id) span)
  | .name _ => name_alike
  | .member base .. => member_alike base.part_alike
  | .call callee args => ofInfer_alike <| (callee.part_alike.accept none).seq fun _ =>
      (checkCall_same (argParts_alike args)).seq fun _ => .done
  | .paren inner => by
    have part : inner.part.Alike ρ _ := inner.part_alike
    exact ⟨fun _ => acceptAs_same (expectedType_blind.seq fun _ => part.accept _), part.target⟩
  | .int _ | .float => ofInfer_alike named_blind
  | .str _ => ofInfer_alike strType_blind
  | .bytes _ => by
    refine ofInfer_alike (read_blind.bind fun env => ?_)
    split
    · exact named_blind
    · exact strType_blind
  | .unicode _ => by
    refine ofInfer_alike (read_blind.bind fun env => ?_)
    split
    · exact strType_blind
    · exact named_blind
  | .binary op left right => ofInfer_alike (inferBinary_same left.part_alike right.part_alike)
  | .unary op operand => ofInfer_alike (inferUnary_same operand.part_alike)
  | .index base index => by
    have b : base.part.Alike ρ _ := base.part_alike
    have i : index.part.Alike ρ _ := index.part_alike
    refine ⟨fun _ => acceptAs_same ?_, .pure (.indexed (b.accept none) i.operand)⟩
    rw [index.intLiteral?_renumber]
    exact inferIndex_same b i
  | .cast inner _ => ofInfer_alike ((inner.part_alike.accept none).discard.seq fun _ => .done)
  | .super _ => ofInfer_alike superAttribute_blind
  | .typeApplication inner _ => ofInfer_alike (inferTypeApplication_same inner.part_alike)
  | .typeVar _ => ofInfer_alike .done
  | .list items => by
    have parts : PartsAlike ρ (partsOf items) _ := partsOf_alike items
    exact ⟨fun _ => acceptAs_same (sequenceDisplay_same (placed_alike parts)),
      displayTarget_alike parts⟩
  | .set items => ofInfer_alike (sequenceDisplay_same (placed_alike (partsOf_alike items)))
  | .tuple items => by
    have parts : PartsAlike ρ (partsOf items) _ := partsOf_alike items
    exact ⟨fun _ => acceptAs_same (tupleDisplay_same (operands_alike parts)),
      displayTarget_alike parts⟩
  | .dict items => ofInfer_alike (dictDisplay_same (entryParts_alike items))
  | .slice first last stride => ofInfer_alike <| inferSlice_same <|
      List.rel_append (List.rel_append (optionPart_alike first) (optionPart_alike last))
        (optionPart_alike stride)
  | .lambda _ body => ofInfer_alike (inferLambda_same body.part_alike)
  | .listComprehension left clauses | .generator left clauses =>
    ofInfer_alike (inferComprehension_same left.part_alike (clauseParts_alike clauses))
  | .placeholder _ => ofInfer_alike .done
  | .conditional cond ifTrue ifFalse => ofInfer_alike
      (inferConditional_same cond.part_alike ifTrue.part_alike ifFalse.part_alike)

theorem partsOf_alike : (items : List Expr) →
    PartsAlike ρ (partsOf items) (partsOf (renumberExprs ρ items))
  | [] => .nil
  | e :: rest => .cons e.part_alike (partsOf_alike rest)

theorem argParts_alike : (args : List Actual) →
    List.Forall₂ (Arg.Alike ρ) (argParts args) (argParts (renumberActuals ρ args))
  | [] => .nil
  | ⟨_, _, value⟩ :: rest => .cons ⟨rfl, value.part_alike.operand⟩ (argParts_alike rest)

theorem entryParts_alike : (items : List (Expr × Expr)) →
    List.Forall₂ (DictEntry.Alike ρ) (entryParts items) (entryParts (renumberPairs ρ items))
  | [] => .nil
  | (key, value) :: rest =>
    .cons ⟨key.part_alike.operand, value.part_alike.operand, key.renumber_span ρ⟩
      (entryParts_alike rest)

theorem optionPart_alike : (e : Option Expr) →
    PartsAlike ρ (optionPart e) (optionPart (renumberOption ρ e))
  | none => .nil
  | some e => .cons e.part_alike .nil

theorem clauseParts_alike : (clauses : List Clause) →
    List.Forall₂ (ClausePart.Alike ρ) (clauseParts clauses) (clauseParts (renumberClauses ρ clauses))
  | [] => .nil
  | ⟨targets, sequence, conditions⟩ :: rest =>
    .cons ⟨partsOf_alike targets, sequence.part_alike, partsOf_alike conditions⟩
      (clauseParts_alike rest)

end

namespace Expr

theorem accept_same (e : Expr) (expected : Option Ty) :
    Same ρ (e.accept expected) ((e.renumber ρ).accept expected) := e.part_alike.accept expected

theorem operand_alike (e : Expr) : e.operand.Alike ρ (e.renumber ρ).operand := e.part_alike.operand

theorem isPlaceholder_renumber (e : Expr) : (e.renumber ρ).isPlaceholder = e.isPlaceholder := by
  unfold isPlaceholder
  rw [renumber_kind]
  cases e.kind with
  | placeholder type => cases type <;> rfl
  | _ => rfl

theorem toItem_alike (e : Expr) : e.toItem.Alike ρ (e.renumber ρ).toItem where
  id := e.renumber_id ρ
  span := e.renumber_span ρ
  operand := e.operand_alike
  isPlaceholder := e.isPlaceholder_renumber

theorem toItems_alike (items : List Expr) :
    List.Forall₂ (Item.Alike ρ) (items.map toItem) ((renumberExprs ρ items).map toItem) := by
  rw [renumberExprs_eq, List.map_map, List.forall₂_map_left_iff, List.forall₂_map_right_iff,
    List.forall₂_same]
  exact fun e _ => e.toItem_alike

theorem toValue_alike (e : Expr) : e.toValue.Alike ρ (e.renumber ρ).toValue := by
  refine ⟨e.operand_alike, ?_⟩
  unfold toValue
  dsimp only
  rw [e.unwrapped_renumber, e.isPlaceholder_renumber, renumber_kind, renumber_id, renumber_id]
  cases e.unwrapped.kind with
  | placeholder type =>
    cases type with
    | none => exact .placeholder ..
    | some => exact .expr
  | tuple items => exact .display _ _ (toItems_alike items)
  | _ => exact .expr

theorem targets_renumber (e : Expr) : (e.renumber ρ).targets = e.targets.map (·.renumber ρ) := by
  unfold targets
  rw [e.unwrapped_renumber, renumber_kind]
  cases e.unwrapped.kind with
  | tuple items | list items =>
    dsimp only [ExprKind.renumber]
    rw [renumberExprs_eq, List.map_map, List.map_map]
    exact List.map_congr_left fun item _ => item.unwrapped_renumber ρ
  | _ => rfl

end Expr

/-- Assigning to targets with other ids. -/
theorem assignTargets_same (targets : List Expr) {value value' : Value} {span : Span}
    (hv : value.Alike ρ value') :
    Same ρ (assign (targets.map Expr.placedTarget) value span)
      (assign ((targets.map (·.renumber ρ)).map Expr.placedTarget) value' span) := by
  refine assign_same ?_ hv
  rw [List.map_map, List.forall₂_map_left_iff, List.forall₂_map_right_iff, List.forall₂_same]
  exact fun t _ => ⟨t.renumber_id ρ, t.part_alike.target⟩

end Inference

end Gradual
