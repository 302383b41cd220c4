import Gradual.Checker.Module
import Gradual.Proofs.Depth

/-!
Assignment of a tuple to names that have no types yet. Two names or more get the types of the items by their
places, if there are as many items, and otherwise the number of items is reported and the names are dynamic. A
display of a single name stands for the name alone, which gets the type of the whole tuple.
-/

namespace Gradual

open Check

variable {env : Env} {s s' : State}

/-! ### Values -/

namespace Check

theorem fst_acceptAs {P : Ty → Prop} (dynamic : P .any) {id : NodeId} {infer : Check Ty}
    {expected : Option Ty} (h : ∀ s, P (infer.outcome env s).1) :
    P ((acceptAs id infer expected).outcome env s).1 := by
  have found : P ((expecting expected infer).outcome env s).1 := h _
  unfold acceptAs
  rw [outcome_bind, outcome_bind, outcome_bind, outcome_isDynamic]
  dsimp only
  split
  · exact dynamic
  · exact found

theorem length_mapM {α β : Type} {f : α → Check β} {xs : List α} :
    ((xs.mapM f).outcome env s).1.length = xs.length := by
  induction xs generalizing s with
  | nil => rfl
  | cons x xs ih =>
    rw [List.mapM_cons, outcome_bind, outcome_bind, outcome_pure, List.length_cons, ih, List.length_cons]

/-- A tuple that is written out has the types of its items. -/
theorem fst_tupleDisplay {items : List Operand} :
    ∃ types, ((tupleDisplay items).outcome env s).1 = .tuple types ∧ types.length = items.length := by
  have found (s : State) {expected : List (Option Ty)} (length : expected.length = items.length) :
      ∃ types, ((do return .tuple (← (items.zip expected).mapM fun p => p.1.accept p.2) :
        Check Ty).outcome env s).1 = .tuple types ∧ types.length = items.length := by
    rw [outcome_bind]
    refine ⟨_, rfl, ?_⟩
    rw [length_mapM, List.length_zip, length, Nat.min_self]
  unfold tupleDisplay
  rw [outcome_bind]
  split
  · refine found _ ?_
    split
    · rename_i same
      rw [List.length_map, same]
    · rw [List.length_map]
  · exact found _ (List.length_map _)

end Check

mutual

/-- What holds of expressions without parentheses and goes over to parentheses around them holds of all. -/
theorem Expr.paren_induction {motive : Expr → Prop} (bare : ∀ e : Expr, e.unwrapped = e → motive e)
    (paren : ∀ id span inner, motive inner → motive ⟨id, span, .paren inner⟩) : (e : Expr) → motive e
  | ⟨id, span, kind⟩ => kind.paren_induction bare paren id span

theorem ExprKind.paren_induction {motive : Expr → Prop} (bare : ∀ e : Expr, e.unwrapped = e → motive e)
    (paren : ∀ id span inner, motive inner → motive ⟨id, span, .paren inner⟩) (id : NodeId) (span : Span) :
    (kind : ExprKind) → motive ⟨id, span, kind⟩
  | .paren inner => paren id span inner (inner.paren_induction bare paren)
  | .name _ | .int _ | .str _ | .bytes _ | .unicode _ | .float | .super _ | .typeVar _ | .placeholder _
  | .member .. | .call .. | .binary .. | .unary .. | .index .. | .cast .. | .typeApplication .. | .list _
  | .set _ | .tuple _ | .dict _ | .slice .. | .lambda .. | .listComprehension .. | .generator ..
  | .conditional .. => bare _ rfl

end

/-- An expression in parentheses is found to be what is inside them, or dynamic. -/
theorem Expr.accept_of_unwrapped {P : Ty → Prop} (dynamic : P .any) (e : Expr)
    (inside : ∀ expected s, P ((e.unwrapped.accept expected).outcome env s).1) (expected : Option Ty)
    (s : State) : P ((e.accept expected).outcome env s).1 := by
  induction e using Expr.paren_induction generalizing expected s with
  | bare e same =>
    rw [same] at inside
    exact inside expected s
  | paren id span inner ih => exact fst_acceptAs dynamic fun _ => ih inside _ _

theorem length_partsOf (items : List Expr) : (partsOf items).length = items.length := by
  induction items with
  | nil => rfl
  | cons e items ih => rw [partsOf, List.length_cons, ih, List.length_cons]

/-- What a tuple that is written out is found to be has as many items. -/
theorem Expr.length_of_display {value : Expr} {items : List Expr}
    (display : value.unwrapped.kind = .tuple items) {expected : Option Ty} {types : List Ty}
    (found : ((value.accept expected).outcome env s).1 = .tuple types) :
    types.length = items.length := by
  have inside (expected : Option Ty) (s : State) : ∀ types,
      ((value.unwrapped.accept expected).outcome env s).1 = .tuple types → types.length = items.length := by
    intro types
    generalize value.unwrapped = inner at display
    obtain ⟨id, span, kind⟩ := inner
    obtain rfl : kind = .tuple items := display
    refine fst_acceptAs (P := fun t => t = .tuple types → types.length = items.length) nofun fun s => ?_
    obtain ⟨found, answer, length⟩ : ∃ found,
        ((tupleDisplay ((partsOf items).map (·.operand))).outcome env s).1 = .tuple found ∧
          found.length = ((partsOf items).map (·.operand)).length := fst_tupleDisplay
    rintro same
    obtain rfl : found = types := Ty.tuple.inj (answer.symm.trans same)
    rw [length, List.length_map, length_partsOf]
  exact Expr.accept_of_unwrapped (P := fun t => ∀ types, t = .tuple types → types.length = items.length)
    nofun value inside expected s types found

/-- A placeholder is dynamic. -/
theorem Expr.accept_placeholder {value : Expr} (placeholder : value.unwrapped.kind = .placeholder none)
    {expected : Option Ty} : ((value.accept expected).outcome env s).1 = .any := by
  refine Expr.accept_of_unwrapped (P := (· = .any)) rfl value (fun expected s => ?_) expected s
  generalize value.unwrapped = inner at placeholder
  obtain ⟨id, span, kind⟩ := inner
  obtain rfl : kind = .placeholder none := placeholder
  exact fst_acceptAs (P := (· = .any)) rfl fun _ => rfl

/-! ### Names as targets -/

/-- A variable without a type gets the type that is inferred. -/
theorem VarTypes.infer_of_untyped {vars : VarTypes} {v : Var} {type : Ty} (untyped : vars.get? v = none) :
    vars.infer v type = vars.set v type := by
  have untyped : ¬ vars.hasType v = true := by
    rw [VarTypes.hasType_iff, untyped]
    exact Bool.false_ne_true
  rw [VarTypes.infer, if_neg untyped]

/-- The expression is an occurrence that introduces the variable. -/
def Expr.Defines (e : Expr) (v : Var) : Prop :=
  ∃ ref : NameRef, e.kind = .name ref ∧ ref.isDef = true ∧ ref.symbol = .var v

section Names

variable {names : List Expr} {vs : List Var} {p : Problem} {span : Span}

theorem Expr.Defines.outcome_target {e : Expr} {v : Var} (h : e.Defines v) (untyped : s.vars.get? v = none) :
    e.part.target.outcome env s = (.inferred v, s) := by
  obtain ⟨ref, kind, isDef, symbol⟩ := h
  obtain ⟨id, span, _⟩ := e
  dsimp only at kind
  subst kind
  have target : (Expr.part ⟨id, span, .name ref⟩).target = (Rules.name id span ref).target := rfl
  rw [target, Rules.name, isDef, symbol]
  dsimp only
  rw [Rules.variableTarget, outcome_bind, outcome_typeOfVar, untyped]
  rfl

theorem outcome_targets (defines : List.Forall₂ Expr.Defines names vs)
    (untyped : ∀ v ∈ vs, s.vars.get? v = none) :
    ((names.map Expr.placedTarget).mapM fun (target : NodeId × Check Target) => target.2).outcome env s =
      (vs.map Target.inferred, s) := by
  induction defines with
  | nil => rfl
  | cons first _ ih =>
    obtain ⟨untyped, others⟩ := List.forall_mem_cons.mp untyped
    rw [List.map_cons, List.mapM_cons, outcome_bind, Expr.placedTarget, first.outcome_target untyped,
      outcome_bind, ih others]
    rfl

/-- The names with their occurrences. -/
def introductions (names : List Expr) (vs : List Var) : List Introduced :=
  List.zipWith (fun e v => ⟨v, some e.id⟩) names vs

namespace Check

/-- Names without types take items of any types. -/
theorem outcome_assignKnown {types : List Ty} :
    (assignKnown (vs.map .inferred) types span p).outcome env s = ((), s) := by
  induction vs generalizing types with
  | nil => rfl
  | cons v vs ih =>
    cases types with
    | nil => rfl
    | cons type types => exact ih

theorem assignItems_eq {items : List Item} (length : items.length = vs.length) :
    assignItems (vs.map .inferred) items p = items.mapM (·.operand.accept none) := by
  induction vs generalizing items with
  | nil =>
    cases List.length_eq_zero_iff.mp length
    rfl
  | cons v vs ih =>
    cases items with
    | nil => cases length
    | cons item items =>
      have rest := ih (Nat.succ.inj length)
      unfold assignItems at rest ⊢
      rw [List.map_cons, List.zip_cons_cons, List.mapM_cons, List.mapM_cons, rest]
      rfl

theorem wantedTuple_inferred {types : List Ty} :
    wantedTuple (vs.map .inferred) types = .tuple (types.take vs.length) := by
  rw [wantedTuple]
  refine congrArg Ty.tuple ?_
  induction vs generalizing types with
  | nil => rfl
  | cons v vs ih =>
    rw [List.map_cons, List.mapIdx_cons]
    cases types with
    | nil => simp [Target.type?]
    | cons type types => simpa [Target.type?] using ih

/-- A variable without a type gets one, and the others keep theirs. -/
theorem outcome_introduce {i : Introduced} {type : Ty} (untyped : s.vars.get? i.var = none) :
    let after := ((introduce i type).outcome env s).2
    after.diagnostics = s.diagnostics ∧ after.vars = s.vars.set i.var type.stripped := by
  rw [← VarTypes.infer_of_untyped untyped]
  cases i with
  | mk v node => cases node <;> exact ⟨rfl, rfl⟩

/-- Different variables without types get the types at their places. -/
theorem introduceEach_types {is : List Introduced} (distinct : (is.map (·.var.id)).Nodup)
    (untyped : ∀ i ∈ is, s.vars.get? i.var = none) {types : List Ty} (length : types.length = is.length) :
    let after := ((introduceEach (is.map some) types).outcome env s).2
    after.diagnostics = s.diagnostics ∧
      List.Forall₂ (fun i type => after.vars.get? i.var = some type.stripped) is types ∧
      ∀ v : Var, v.id ∉ is.map (·.var.id) → after.vars.get? v = s.vars.get? v := by
  induction is generalizing s types with
  | nil =>
    cases List.length_eq_zero_iff.mp length
    exact ⟨rfl, .nil, fun _ _ => rfl⟩
  | cons i is ih =>
    obtain ⟨type, types, rfl⟩ := List.exists_cons_of_length_eq_add_one length
    obtain ⟨apart, distinct⟩ := List.nodup_cons.mp distinct
    obtain ⟨untyped, others⟩ := List.forall_mem_cons.mp untyped
    let first := ((introduce i type).outcome env s).2
    obtain ⟨diagnostics, vars⟩ : first.diagnostics = s.diagnostics ∧
        first.vars = s.vars.set i.var type.stripped := outcome_introduce untyped
    have kept {v : Var} (other : v.id ≠ i.var.id) : first.vars.get? v = s.vars.get? v := by
      rw [vars, VarTypes.get?_set_of_ne (Ne.symm other)]
    have untyped' : ∀ j ∈ is, first.vars.get? j.var = none := by
      intro j member
      rw [kept fun same => apart (List.mem_map.mpr ⟨j, member, same⟩)]
      exact others j member
    obtain ⟨diagnostics', each, rest⟩ := ih (s := first) distinct untyped' (Nat.succ.inj length)
    refine ⟨diagnostics'.trans diagnostics, .cons ?_ each, fun v other => ?_⟩
    · rw [← VarTypes.get?_set_self s.vars i.var type.stripped, ← vars]
      exact rest i.var apart
    · obtain ⟨notFirst, notOther⟩ := not_or.mp (List.mem_cons.not.mp other)
      exact (rest v notOther).trans (kept notFirst)

end Check
end Names

/-! ### The value of an assignment -/

/-- Whatever was reported before, the action reports nothing, answers `a` and leaves the state `t`. -/
def Check.Clean {α : Type} (x : Check α) (env : Env) (s : State) (a : α) (t : State) : Prop :=
  ∀ ds, x.outcome env { s with diagnostics := ds } = (a, { t with diagnostics := ds })

/-- The inference of a value that is assigned to so many names without types. For one name it is inferred as
it is. For more, a tuple that is written out is inferred item by item, if it has so many items, and any other
tuple twice, the second time with the types of its first items in view. -/
def Expr.assigned (count : Nat) (value : Expr) : Check Ty :=
  if count = 1 then value.accept none
  else match value.toValue.form with
  | .display _ _ items =>
    if items.length = count then do return .tuple (← items.mapM (·.operand.accept none)) else value.accept none
  | _ => do
    match ← value.accept none with
    | .tuple types => value.accept (some (.tuple (types.take count)))
    | type => return type

/-- The variable has no type, and nothing in the value gives it one. -/
structure State.Fresh (s : State) (value : Expr) (v : Var) : Prop where
  old : v.id < s.vars.next
  untyped : s.vars.get? v = none
  notIntroduced : ∀ e ∈ value.all, v.id ∉ e.introduces
  notRetyped : ∀ e ∈ value.all, ∀ r ∈ e.retypings, r.1 ≠ v.id

/-- What may give types to all variables but one. -/
def Effects.sparing (v : VarId) : Effects := ⟨fun _ => True, fun u _ => u ≠ v, (· ≠ v), false, false⟩

section Values

variable {value : Expr} {v : Var} {count : Nat}

theorem State.Fresh.within (h : s.Fresh value v) : value.Within (.sparing v.id) := by
  refine fun e member =>
    ⟨True.intro, fun r retyped _ _ => h.notRetyped e member r retyped, fun u introduced => ?_⟩
  rintro rfl
  exact h.notIntroduced e member introduced

theorem Expr.assigned_keeps {w : Effects} (count : Nat) (h : value.Within w) :
    Keeps w (value.assigned count) := by
  have form := h.toValue.form
  unfold assigned
  split
  · exact h.accept none
  · split
    · rename_i display
      rw [display] at form
      split
      · exact (Keeps.mapM_trivial fun item member => (form.2.2 item member).operand none).seq fun _ => .done
      · exact h.accept none
    · apply (h.accept none).seq
      intro type
      split
      · exact h.accept _
      · exact .done

theorem Check.Clean.outcome_eq {α : Type} {x : Check α} {a : α} (h : x.Clean env s a s') :
    x.outcome env s = (a, { s' with diagnostics := s.diagnostics }) := h s.diagnostics

/-- A fresh variable has no type when the value has been inferred. -/
theorem State.Fresh.still {type : Ty} (h : s.Fresh value v)
    (infers : (value.assigned count).Clean env s type s') : s'.vars.get? v = none := by
  have frame := (Expr.assigned_keeps count h.within).frame env s
  rw [infers.outcome_eq] at frame
  obtain ⟨made, changes⟩ := frame.changes
  have untouched := changes.untouched h.old (fun _ other => other rfl) fun other => other rfl
  exact untouched.trans h.untyped

/-- A report is the same before the value is inferred and behind it. -/
theorem Expr.diagnostic_assigned {type : Ty} (infers : (value.assigned count).Clean env s type s')
    {p : Problem} {span : Span} :
    diagnostic env s'.file s'.scope p span = diagnostic env s.file s.scope p span := by
  have frame := (Expr.assigned_keeps count value.within_anything).frame env s
  rw [infers.outcome_eq] at frame
  exact frame.diagnostic_eq env p span

end Values

/-! ### Assignments -/

section Assignments

variable {names : List Expr} {vs : List Var} {value : Expr} {types : List Ty} {span : Span} {p : Problem}

theorem isSpecific_tuple (specific : ∀ type ∈ types, type.isSpecific = true) :
    (Ty.tuple types).isSpecific = true := allSpecific_iff.mpr specific

namespace Check

theorem inferTypes_eq {names : List (Option Introduced)} {type : Ty} {call : Option String}
    (hasValue : type.isVoid = false) (specific : type.isSpecific = true) :
    inferTypes names type call span =
      if names.length = 1 then introduceEach names [type]
      else introduceEach names (itemTypes names.length type) := by
  unfold inferTypes
  rw [hasValue, specific, if_neg Bool.false_ne_true, Bool.not_true, if_neg Bool.false_ne_true]
  split
  · rfl
  · rename_i several
    rw [if_neg fun single => ?_]
    obtain ⟨name, same⟩ := List.length_eq_one_iff.mp single
    exact several name same

/-- The variables that targets introduce, with the occurrences that are these targets. -/
theorem introductions_eq (length : names.length = vs.length) :
    (((names.map Expr.placedTarget).zip (vs.map Target.inferred)).map fun
      (p : (NodeId × Check Target) × Target) =>
      p.2.var?.map fun v => (⟨v, some p.1.1⟩ : Introduced)) = (introductions names vs).map some := by
  induction names generalizing vs with
  | nil => rfl
  | cons e names ih =>
    obtain ⟨v, vs, rfl⟩ := List.exists_cons_of_length_eq_add_one length.symm
    have rest := ih (Nat.succ.inj length)
    simp only [List.map_cons, List.zip_cons_cons, introductions, List.zipWith_cons_cons] at rest ⊢
    rw [rest]
    rfl

theorem outcome_assign_single {e : Expr} {v : Var} (defines : e.Defines v) (untyped : s.vars.get? v = none)
    {value : Value} : (assign [e.placedTarget] value span).outcome env s = (do
      let type ← value.operand.accept none
      inferTypes [some ⟨v, some e.id⟩] type value.operand.call span).outcome env s := by
  unfold assign
  rw [Expr.placedTarget]
  dsimp only
  rw [outcome_bind, defines.outcome_target untyped]

/-- Several names get types from what the value is found to be. -/
theorem outcome_assign_many (defines : List.Forall₂ Expr.Defines names vs)
    (untyped : ∀ v ∈ vs, s.vars.get? v = none) (several : vs.length ≠ 1) (nonempty : vs ≠ []) {value : Value} :
    (assign (names.map Expr.placedTarget) value span).outcome env s = (do
      let type ← assignMany (vs.map .inferred) value span (.incompatibleAssignment .toVariable)
      inferTypes ((introductions names vs).map some) type value.operand.call span).outcome env s := by
  have length : names.length = vs.length := defines.length_eq
  have inferred : (vs.map Target.inferred).any (·.var?.isSome) = true := by
    obtain ⟨v, vs, rfl⟩ := List.exists_cons_of_ne_nil nonempty
    rfl
  unfold assign
  split
  · rename_i single
    have one := congrArg List.length single
    rw [List.length_map, length] at one
    exact absurd one several
  · rw [outcome_bind]
    have kinds : ((names.map Expr.placedTarget).mapM fun ((_, target) : NodeId × Check Target) => target).outcome
      env s = (vs.map Target.inferred, s) := outcome_targets defines untyped
    rw [kinds, outcome_bind, outcome_bind]
    dsimp only
    rw [if_pos inferred]
    rw [introductions_eq length]

/-- A report changes the diagnostics only. -/
theorem report_only : ((report p span).outcome env s).2 =
    { s with diagnostics := ((report p span).outcome env s).2.diagnostics } := by
  rw [outcome_report]
  dsimp only
  split <;> rfl

/-- What the assignment of a tuple of these types finds and leaves, before the names get their types: the
tuple, if it has an item for each name, and otherwise one report more. -/
structure Unpacked (env : Env) (s : State) (count : Nat) (types : List Ty) (span : Span) (vars : VarTypes)
    (found : Ty × State) : Prop where
  vars : found.2.vars = vars
  same : types.length = count → found.1 = .tuple types ∧ found.2.diagnostics = s.diagnostics
  other : types.length ≠ count → (found.1 = .any ∨ found.1 = .tuple types) ∧
    found.2.diagnostics = ((report (.valueCount count types.length) span).outcome env s).2.diagnostics

/-- A tuple that is written out is unpacked before it is inferred as a whole. -/
theorem unpacked_display {id inner : NodeId} {items : List Expr} (several : vs.length ≠ 1)
    (display : value.unwrapped.kind = .tuple items)
    (form : value.toValue.form = .display id inner (items.map Expr.toItem))
    (infers : (value.assigned vs.length).Clean env s (.tuple types) s') :
    Unpacked env s vs.length types span s'.vars
      ((assignMany (vs.map .inferred) value.toValue span p).outcome env s) := by
  rw [Expr.assigned, if_neg several, form] at infers
  dsimp only at infers
  unfold assignMany
  rw [form]
  dsimp only
  rw [List.length_map] at infers ⊢
  rw [List.length_map]
  by_cases fit : items.length = vs.length
  · rw [if_pos fit] at infers ⊢
    have found := infers.outcome_eq
    rw [outcome_bind, outcome_pure] at found
    have each : ((items.map Expr.toItem).mapM fun (item : Item) => item.operand.accept none).outcome env s =
        (types, { s' with diagnostics := s.diagnostics }) :=
      Prod.ext (Ty.tuple.inj (congrArg Prod.fst found)) (Prod.mk.inj found).2
    have counted : types.length = (items.map Expr.toItem).length :=
      (congrArg (·.1.length) each).symm.trans length_mapM
    have length : types.length = vs.length := by rw [counted, List.length_map, fit]
    rw [outcome_bind, assignItems_eq ((List.length_map _).trans fit), each]
    exact ⟨rfl, fun _ => ⟨rfl, rfl⟩, fun other => absurd length other⟩
  · rw [if_neg fit] at infers ⊢
    let reported := ((report (.valueCount vs.length items.length) span).outcome env s).2
    have only : reported = { s with diagnostics := reported.diagnostics } := report_only
    have found := infers reported.diagnostics
    rw [← only] at found
    have length : types.length = items.length := Expr.length_of_display display (congrArg Prod.fst found)
    have operand : value.toValue.operand.accept = value.accept := rfl
    rw [outcome_bind, outcome_bind, outcome_discard, outcome_pure, operand, found]
    refine ⟨rfl, fun same => absurd (length.symm.trans same) fit, fun _ => ⟨.inl rfl, ?_⟩⟩
    rw [length]

/-- Any other tuple is inferred, and unpacked then. -/
theorem unpacked_expr (several : vs.length ≠ 1) (form : value.toValue.form = .expr)
    (infers : (value.assigned vs.length).Clean env s (.tuple types) s') :
    Unpacked env s vs.length types span s'.vars
      ((assignMany (vs.map .inferred) value.toValue span p).outcome env s) := by
  have same : diagnostic env s'.file s'.scope (.valueCount vs.length types.length) span = _ :=
    Expr.diagnostic_assigned infers
  have found := infers.outcome_eq
  rw [Expr.assigned, if_neg several, form] at found
  dsimp only at found
  unfold assignMany
  rw [form]
  dsimp only
  simp only [wantedTuple_inferred]
  have operand : value.toValue.operand.accept = value.accept := rfl
  rw [operand, outcome_bind]
  rw [outcome_bind] at found
  cases type : ((value.accept none).outcome env s).1 with
  | tuple items =>
    rw [type] at found
    dsimp only at found ⊢
    rw [outcome_bind, found, outcome_bind, outcome_pure]
    by_cases fit : types.length = vs.length
    · rw [unpack, List.length_map, if_pos fit, outcome_assignKnown]
      exact ⟨rfl, fun _ => ⟨rfl, rfl⟩, fun other => absurd fit other⟩
    · rw [unpack, List.length_map, if_neg fit]
      refine ⟨?_, fun same => absurd same fit, fun _ => ⟨.inr rfl, ?_⟩⟩
      · rw [report_only]
      · rw [outcome_report, outcome_report]
        dsimp only
        rw [same]
        split <;> rfl
  | any | void | noneType | inst | callable | overloaded | typeVar | unbound | error =>
    rw [type] at found
    cases (Prod.mk.inj found).1

theorem toValue_form_cases (value : Expr) :
    (value.unwrapped.kind = .placeholder none ∧
      ∃ inParens, value.toValue.form = .placeholder value.id value.unwrapped.id inParens) ∨
      (∃ items, value.unwrapped.kind = .tuple items ∧
        value.toValue.form = .display value.id value.unwrapped.id (items.map Expr.toItem)) ∨
      value.toValue.form = .expr := by
  unfold Expr.toValue
  dsimp only
  split
  · rename_i placeholder
    exact .inl ⟨placeholder, _, rfl⟩
  · rename_i items display
    exact .inr (.inl ⟨items, display, rfl⟩)
  · exact .inr (.inr rfl)

theorem unpacked (several : vs.length ≠ 1)
    (infers : (value.assigned vs.length).Clean env s (.tuple types) s') :
    Unpacked env s vs.length types span s'.vars
      ((assignMany (vs.map .inferred) value.toValue span p).outcome env s) := by
  rcases toValue_form_cases value with ⟨placeholder, inParens, form⟩ | ⟨items, display, form⟩ | form
  · -- A placeholder is found to be dynamic, and so is no tuple.
    have found := infers.outcome_eq
    have dynamic : ((value.accept none).outcome env s).1 = .any := Expr.accept_placeholder placeholder
    rw [Expr.assigned, if_neg several, form] at found
    dsimp only at found
    rw [outcome_bind, dynamic] at found
    cases (Prod.mk.inj found).1
  · exact unpacked_display several display form infers
  · exact unpacked_expr several form infers

theorem introductions_vars (length : names.length = vs.length) :
    (introductions names vs).map (·.var) = vs := by
  induction names generalizing vs with
  | nil => exact (List.length_eq_zero_iff.mp length.symm).symm
  | cons e names ih =>
    obtain ⟨v, vs, rfl⟩ := List.exists_cons_of_length_eq_add_one length.symm
    exact congrArg (v :: ·) (ih (Nat.succ.inj length))

/-- Different names without types get the types at their places. -/
theorem names_introduced (length : names.length = vs.length) (distinct : (vs.map (·.id)).Nodup)
    (untyped : ∀ v ∈ vs, s.vars.get? v = none) (same : types.length = vs.length) :
    let after := ((introduceEach ((introductions names vs).map some) types).outcome env s).2
    after.diagnostics = s.diagnostics ∧
      List.Forall₂ (fun v type => after.vars.get? v = some type.stripped) vs types := by
  intro after
  have vars := introductions_vars length
  rw [← vars, List.map_map] at distinct
  rw [← vars, List.forall_mem_map] at untyped
  rw [← vars, List.length_map] at same
  obtain ⟨diagnostics, each, -⟩ : after.diagnostics = s.diagnostics ∧ _ ∧ _ :=
    introduceEach_types distinct untyped same
  have placed : List.Forall₂ (fun v type => after.vars.get? v = some type.stripped)
      ((introductions names vs).map (·.var)) types := List.forall₂_map_left_iff.mpr each
  rw [vars] at placed
  exact ⟨diagnostics, placed⟩

/-- Where there are not as many items, the names are dynamic. -/
theorem names_dynamic (length : names.length = vs.length) (distinct : (vs.map (·.id)).Nodup)
    (untyped : ∀ v ∈ vs, s.vars.get? v = none) :
    let after :=
      ((introduceEach ((introductions names vs).map some) (List.replicate vs.length .any)).outcome env s).2
    after.diagnostics = s.diagnostics ∧ ∀ v ∈ vs, after.vars.get? v = some .any := by
  intro after
  obtain ⟨diagnostics, each⟩ : after.diagnostics = s.diagnostics ∧
      List.Forall₂ (fun v (type : Ty) => after.vars.get? v = some type.stripped) vs
        (List.replicate vs.length Ty.any) :=
    names_introduced length distinct untyped List.length_replicate
  refine ⟨diagnostics, fun v member => ?_⟩
  obtain ⟨i, inside, rfl⟩ := List.mem_iff_getElem.mp member
  have placed := (List.forall₂_iff_get.mp each).2 i inside (by rwa [List.length_replicate])
  simpa [Ty.stripped, Ty.mapSignatures] using placed

/-- Several names take what a value of items is found to be. -/
theorem several_names_inferred (length : names.length = vs.length) (several : vs.length ≠ 1) {type : Ty}
    {call : Option String} (hasValue : type.isVoid = false) (specific : type.isSpecific = true) :
    inferTypes ((introductions names vs).map some) type call span =
      introduceEach ((introductions names vs).map some) (itemTypes vs.length type) := by
  have count : ((introductions names vs).map some).length = vs.length := by
    rw [List.length_map, introductions, List.length_zipWith, length, Nat.min_self]
  rw [inferTypes_eq hasValue specific, count, if_neg several]

theorem outcome_checkAssign_single {target : Expr} : ((checkAssign [target] value).outcome env s).2 =
    ((assign (target.targets.map Expr.placedTarget) value.toValue value.span).outcome env s).2 := by
  unfold checkAssign
  rw [List.getLast?_singleton]
  dsimp only
  rw [outcome_bind, outcome_bind]
  split <;> rfl

end Check

/-- A single name has the type of the tuple. -/
theorem single_name_takes_tuple {target : Expr} (names : List.Forall₂ Expr.Defines target.targets vs)
    (distinct : (vs.map (·.id)).Nodup) (fresh : ∀ v ∈ vs, s.Fresh value v)
    (infers : (value.assigned vs.length).Clean env s (.tuple types) s')
    (specific : (Ty.tuple types).isSpecific = true) (single : vs.length = 1) :
    let after := ((checkAssign [target] value).outcome env s).2
    after.diagnostics = s.diagnostics ∧ ∀ v ∈ vs, after.vars.get? v = some (.tuple types) := by
  intro after
  have still : ∀ v ∈ vs, s'.vars.get? v = none := fun v member => (fresh v member).still infers
  obtain ⟨v, rfl⟩ := List.length_eq_one_iff.mp single
  obtain ⟨e, es, defines, rest, shape⟩ := List.forall₂_cons_right_iff.mp names
  obtain rfl := List.forall₂_nil_right_iff.mp rest
  rw [Expr.assigned, if_pos single] at infers
  have operand : value.toValue.operand.accept = value.accept := rfl
  have inferred : after = ((introduceEach ((introductions [e] [v]).map some) [.tuple types]).outcome env
      { s' with diagnostics := s.diagnostics }).2 := by
    have untyped := (fresh v (List.mem_singleton.mpr rfl)).untyped
    rw [show after = _ from outcome_checkAssign_single, shape, List.map_singleton,
      outcome_assign_single defines untyped, outcome_bind, operand, infers.outcome_eq,
      inferTypes_eq rfl specific]
    rfl
  obtain ⟨unreported, given⟩ : after.diagnostics = s.diagnostics ∧
      List.Forall₂ (fun v (type : Ty) => after.vars.get? v = some type.stripped) [v] [.tuple types] := by
    have named : [e].length = [v].length := rfl
    rw [inferred]
    exact names_introduced named distinct still rfl
  exact ⟨unreported, List.forall_mem_singleton.mpr (List.forall₂_cons.mp given).1⟩

/-- Assignment in code that states types: a value that is inferred without reports to be a tuple of specific
types is assigned to different names that have no types and are not given any in the value. Two names or more
have the types of the items at their places then, without the names of functions, and nothing is reported, if
there are as many items; otherwise the number of items is reported, nothing else is, and the names are dynamic.
A single name, in a display or not, has the type of the tuple itself then, and nothing is reported. -/
theorem unpacking_positional {target : Expr} (names : List.Forall₂ Expr.Defines target.targets vs)
    (nonempty : vs ≠ []) (distinct : (vs.map (·.id)).Nodup) (fresh : ∀ v ∈ vs, s.Fresh value v)
    (infers : (value.assigned vs.length).Clean env s (.tuple types) s')
    (specific : ∀ type ∈ types, type.isSpecific = true) :
    let after := ((checkAssign [target] value).outcome env s).2
    (vs.length ≠ 1 → types.length = vs.length → after.diagnostics = s.diagnostics ∧
      List.Forall₂ (fun v type => after.vars.get? v = some type.stripped) vs types) ∧
    (vs.length ≠ 1 → types.length ≠ vs.length →
      after.diagnostics =
          ((report (.valueCount vs.length types.length) value.span).outcome env s).2.diagnostics ∧
        ∀ v ∈ vs, after.vars.get? v = some .any) ∧
    (vs.length = 1 →
      after.diagnostics = s.diagnostics ∧ ∀ v ∈ vs, after.vars.get? v = some (.tuple types)) := by
  intro after
  have length : target.targets.length = vs.length := names.length_eq
  have untyped : ∀ v ∈ vs, s.vars.get? v = none := fun v member => (fresh v member).untyped
  have still : ∀ v ∈ vs, s'.vars.get? v = none := fun v member => (fresh v member).still infers
  have checked : after = _ := outcome_checkAssign_single
  have whole : (Ty.tuple types).isSpecific = true := isSpecific_tuple specific
  by_cases single : vs.length = 1
  · refine ⟨fun several => absurd single several, fun several => absurd single several, fun _ => ?_⟩
    exact single_name_takes_tuple names distinct fresh infers whole single
  · let found := (assignMany (vs.map .inferred) value.toValue value.span
      (.incompatibleAssignment .toVariable)).outcome env s
    have unpacks : Unpacked env s vs.length types value.span s'.vars found := unpacked single infers
    have still : ∀ v ∈ vs, found.2.vars.get? v = none := by
      rw [unpacks.vars]
      exact still
    have inferred : after = ((inferTypes ((introductions target.targets vs).map some) found.1
        value.toValue.operand.call value.span).outcome env found.2).2 := by
      rw [checked, outcome_assign_many names untyped single nonempty]
      rfl
    refine ⟨fun _ same => ?_, fun _ other => ?_, fun single' => absurd single' single⟩
    · obtain ⟨tuple, unreported⟩ := unpacks.same same
      rw [inferred, tuple, several_names_inferred length single rfl whole, itemTypes, if_pos same,
        ← unreported]
      exact names_introduced length distinct still same
    · obtain ⟨type, reported⟩ := unpacks.other other
      rw [← reported, inferred]
      rcases type with dynamic | tuple
      · have none : itemTypes vs.length .any = List.replicate vs.length .any := rfl
        rw [dynamic, several_names_inferred length single rfl rfl, none]
        exact names_dynamic length distinct still
      · rw [tuple, several_names_inferred length single rfl whole, itemTypes, if_neg other]
        exact names_dynamic length distinct still

end Assignments

/-- An occurrence that introduces the variable. -/
def Var.introduction (v : Var) : Expr := ⟨v.id, default, .name ⟨v.name, v.fullName, .inModule, .var v, true⟩⟩

/-- A pair that is assigned to two names gives each of them a type, and to a single one its own. -/
theorem pair_unpacked :
    let program : Program := ⟨∅, ⟨#[⟨"Item", "Item", [], [0], ∅, [], false⟩]⟩, 5, ⟨2, ∅⟩⟩
    let env := Env.ofProgram program default
    let st := State.initial program
    let x : Var := ⟨0, "x", "x", none⟩
    let y : Var := ⟨1, "y", "y", none⟩
    let type : Ty := .inst 0 "Item" []
    let item (id : NodeId) : Expr := ⟨id, default, .placeholder (some type)⟩
    let value : Expr := ⟨2, default, .tuple [item 3, item 4]⟩
    let display (vs : List Var) : Expr := ⟨5, default, .tuple (vs.map Var.introduction)⟩
    let after (vs : List Var) : State := ((checkAssign [display vs] value).outcome env st).2
    ((after [x, y]).diagnostics = [] ∧
      List.Forall₂ (fun v type => (after [x, y]).vars.get? v = some type.stripped) [x, y] [type, type]) ∧
    (after [x]).diagnostics = [] ∧ ∀ v ∈ [x], (after [x]).vars.get? v = some (.tuple [type, type]) := by
  intro program env st x y type item value display after
  have defines (v : Var) : v.introduction.Defines v := ⟨_, rfl, rfl, rfl⟩
  have introducesNone : ∀ e ∈ value.all, e.introduces = [] := by decide
  have retypesNone : ∀ e ∈ value.all, e.retypings = [] := by decide
  have fresh {v : Var} (old : v.id < st.vars.next) : st.Fresh value v := by
    refine ⟨old, rfl, fun e member => ?_, fun e member => ?_⟩
    · rw [introducesNone e member]
      exact List.not_mem_nil
    · rw [retypesNone e member]
      exact nofun
  have freshX : st.Fresh value x := fresh (by decide)
  have freshY : st.Fresh value y := fresh (by decide)
  have specific : ∀ t ∈ [type, type], Ty.isSpecific t = true := by decide
  have clean (count : Nat) (known : count = 1 ∨ count = 2) :
      (value.assigned count).Clean env st (.tuple [type, type])
        ((value.assigned count).outcome env st).2 := by
    rcases known with rfl | rfl <;> exact fun _ => rfl
  have two : List.Forall₂ Expr.Defines (display [x, y]).targets [x, y] :=
    .cons (defines x) (.cons (defines y) .nil)
  have one : List.Forall₂ Expr.Defines (display [x]).targets [x] := .cons (defines x) .nil
  have both : ∀ v ∈ [x, y], st.Fresh value v :=
    List.forall_mem_cons.mpr ⟨freshX, List.forall_mem_singleton.mpr freshY⟩
  exact ⟨(unpacking_positional two nofun (by decide) both (clean 2 (.inr rfl)) specific).1 nofun rfl,
    (unpacking_positional one nofun (by decide) (List.forall_mem_singleton.mpr freshX) (clean 1 (.inl rfl))
      specific).2.2 rfl⟩

end Gradual
