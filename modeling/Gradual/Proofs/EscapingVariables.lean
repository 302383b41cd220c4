import Gradual.Checker.Module
import Gradual.Proofs.CallEffects
import Gradual.Proofs.ClosedAttributes
import Gradual.Proofs.FilledTypes
import Gradual.Proofs.Instantiation
import Gradual.Proofs.SubstitutionLaws

/-!
Type variables that get out of the signatures that quantify them. To infer type arguments a call matches
the types of its formals with those of the arguments. Where both are functions their parts are matched
as they stand, also those of a generic function: what it quantifies is then collected for the type
variables of the callee, and free in the result.
-/

namespace Gradual

/-! ### What matching collects -/

mutual

/-- The ids of the type variables that are quantified by those signatures, in the type of a value, whose
parts are matched. -/
def TypeOrder.opened (o : TypeOrder) : (template actual : Ty) → List Int
  | .inst c _ args, actual =>
    match actual.toInstance?.bind (o.classes.view? · c) with
    | some view => o.openedOfEach args view.args
    | none => []
  | .tuple items, actual =>
    match actual with
    | .tuple actuals => if items.length = actuals.length then o.openedOfEach items actuals else []
    | _ => []
  | .callable s, actual =>
    match actual.signatures.head? with
    | some t => t.quantified.map (·.id) ++ o.openedOfSignature s t
    | none => []
  | .typeVar _, _ | .overloaded _, _ | .any, _ | .void, _ | .noneType, _ | .unbound _, _
  | .error, _ => []

def TypeOrder.openedOfSignature (o : TypeOrder) : (template actual : Signature) → List Int
  | ⟨argTypes, _, _, ret, _, _, _, _⟩, t => o.openedOfEach argTypes t.argTypes ++ o.opened ret t.ret

def TypeOrder.openedOfEach (o : TypeOrder) : (templates actuals : List Ty) → List Int
  | t :: ts, a :: as => o.opened t a ++ o.openedOfEach ts as
  | _, _ => []

end

/-- Filled types, over the type variables that are given. -/
def Constraints.FilledOver (t : ClassTable) (ids : List Int) (cs : Constraints) : Prop :=
  ∀ c ∈ cs, c.2.FilledOver t ids

namespace Constraints.FilledOver

variable {t : ClassTable} {ids ids' : List Int} {cs ds : Constraints}

theorem nil : FilledOver t ids [] := List.forall_mem_nil _

theorem append (first : FilledOver t ids cs) (rest : FilledOver t ids ds) :
    FilledOver t ids (cs ++ ds) := List.forall_mem_append.mpr ⟨first, rest⟩

theorem mono (h : FilledOver t ids cs) (more : ids ⊆ ids') : FilledOver t ids' cs := fun c member =>
  ⟨(h c member).filled, fun _ free => more ((h c member).free free)⟩

theorem dynamic (own : List Int) : FilledOver t ids (dynamicConstraints own) := by
  intro c member
  obtain ⟨id, -, rfl⟩ := List.mem_map.mp member
  exact .closed (.dynamic rfl) rfl

theorem of (h : FilledOver t ids cs) (id : Int) : ∀ u ∈ cs.of id, u.FilledOver t ids := by
  intro u member
  obtain ⟨c, listed, rfl⟩ := List.mem_map.mp member
  exact h c (List.mem_of_mem_filter listed)

end Constraints.FilledOver

theorem Signature.freeVars_parts_subset (s : Signature) :
    freeVarsOfEach s.argTypes ++ s.ret.freeVars ⊆ s.freeVars ++ s.quantified.map (·.id) := by
  intro x free
  rw [List.mem_append]
  by_cases own : x ∈ s.quantified.map (·.id)
  · exact .inr own
  · rw [List.mem_append, mem_freeVarsOfEach] at free
    refine .inl (Signature.mem_freeVars.mpr ⟨free, fun v member same => ?_⟩)
    exact own (List.mem_map.mpr ⟨v, member, same⟩)

namespace TypeOrder

variable {o : TypeOrder}

mutual

/-- What is collected from the type of a value mentions what is free in it and what the signatures in
it quantify whose parts are matched. -/
theorem constraints_filledOver (fills : o.Fills) : (template : Ty) → {actual : Ty} →
    actual.Filled o.classes →
    (o.constraints template actual).FilledOver o.classes (actual.freeVars ++ o.opened template actual)
  | .typeVar v, actual, filled => by
    intro c member
    rw [constraints, List.mem_singleton] at member
    rw [member]
    exact ⟨filled, List.subset_append_left _ _⟩
  | .inst c n args, actual, filled => by
    rw [constraints, opened]
    by_cases marked : actual.isDynamic = true
    · rw [if_pos marked]
      exact .dynamic _
    · rw [if_neg marked]
      cases found : actual.toInstance?.bind (o.classes.view? · c) with
      | none => exact .nil
      | some view =>
        obtain ⟨i, own, seen⟩ := Option.bind_eq_some_iff.mp found
        cases actual with
        | inst d m bs =>
          cases own
          have known : view.toTy.FilledOver o.classes (freeVarsOfEach bs) :=
            fills.bases.view? seen ⟨filled, List.Subset.refl _⟩
          obtain ⟨-, each⟩ := Ty.Filled.inst_iff.mp known.filled
          refine (constraintsOfEach_filledOver fills args each).mono (List.append_subset.mpr ⟨?_, ?_⟩)
          · exact List.Subset.trans known.free (List.subset_append_left _ _)
          · exact List.subset_append_right _ _
        | any | void | noneType | callable | overloaded | tuple | typeVar | unbound | error => cases own
  | .tuple items, actual, filled => by
    cases actual with
    | tuple actuals =>
      have static : ¬ (Ty.tuple actuals).isDynamic = true := Bool.false_ne_true
      rw [constraints, opened, if_neg static]
      split
      · exact constraintsOfEach_filledOver fills items (Ty.Filled.tuple_iff.mp filled)
      · exact .nil
    | any | unbound | error => exact .dynamic _
    | void | noneType | inst | callable | overloaded | typeVar => exact .nil
  | .callable s, actual, filled => by
    rw [constraints, opened]
    by_cases marked : actual.isDynamic = true
    · rw [if_pos marked]
      exact .dynamic _
    · rw [if_neg marked]
      cases found : actual.signatures.head? with
      | none => exact .nil
      | some t =>
        have member : t ∈ actual.signatures := List.mem_of_mem_head? found
        refine (signatureConstraints_filledOver fills s (filled.of_mem_signatures member)).mono ?_
        refine List.append_subset.mpr ⟨fun x free => ?_, fun x inside => ?_⟩
        · rcases List.mem_append.mp (t.freeVars_parts_subset free) with outside | own
          · exact List.mem_append_left _ (Ty.mem_freeVars_of_signatures member outside)
          · exact List.mem_append_right _ (List.mem_append_left _ own)
        · exact List.mem_append_right _ (List.mem_append_right _ inside)
  | .overloaded _, _, _ | .any, _, _ | .void, _, _ | .noneType, _, _ | .unbound _, _, _
  | .error, _, _ => .nil

theorem signatureConstraints_filledOver (fills : o.Fills) : (template : Signature) →
    {actual : Signature} → (Ty.callable actual).Filled o.classes →
    (o.signatureConstraints template actual).FilledOver o.classes
      (freeVarsOfEach actual.argTypes ++ actual.ret.freeVars ++ o.openedOfSignature template actual)
  | ⟨argTypes, _, _, ret, _, _, _, _⟩, actual, filled => by
    obtain ⟨args, result⟩ := Ty.Filled.callable_iff.mp filled
    rw [signatureConstraints, openedOfSignature]
    refine ((constraintsOfEach_filledOver fills argTypes args).mono ?_).append
      ((constraints_filledOver fills ret result).mono ?_)
    all_goals
      intro x
      simp only [List.mem_append]
      tauto

theorem constraintsOfEach_filledOver (fills : o.Fills) : (templates : List Ty) → {actuals : List Ty} →
    (∀ a ∈ actuals, a.Filled o.classes) →
    (o.constraintsOfEach templates actuals).FilledOver o.classes
      (freeVarsOfEach actuals ++ o.openedOfEach templates actuals)
  | [], _, _ => by
    rw [constraintsOfEach]
    · exact .nil
    · simp
  | _ :: _, [], _ => .nil
  | t :: ts, a :: as, filled => by
    obtain ⟨first, rest⟩ := List.forall_mem_cons.mp filled
    rw [constraintsOfEach, openedOfEach, freeVarsOfEach]
    refine ((constraints_filledOver fills t first).mono ?_).append
      ((constraintsOfEach_filledOver fills ts rest).mono ?_)
    all_goals
      intro x
      simp only [List.mem_append]
      tauto

end

end TypeOrder

/-- What a formal gets to see of a filled type is filled. -/
theorem Given.seenType_filledOver {t : ClassTable} {ids : List Int} {g : Given}
    (h : g.type.FilledOver t ids) : g.seenType.FilledOver t ids := by
  have dynamic : Ty.any.FilledOver t ids := .closed (.dynamic rfl) rfl
  have item {args : List Ty} (each : ∀ a ∈ args, a.FilledOver t ids) :
      (args.headD .any).FilledOver t ids := by
    cases args with
    | nil => exact dynamic
    | cons a as => exact each a List.mem_cons_self
  unfold seenType
  split
  · rename_i same
    rw [same] at h
    obtain ⟨-, each⟩ := Ty.FilledOver.inst_iff.mp h
    split
    · exact item each
    · exact dynamic
  · rename_i same
    rw [same] at h
    obtain ⟨-, each⟩ := Ty.FilledOver.inst_iff.mp h
    split
    · exact item fun a member => each a (List.mem_of_mem_tail member)
    · exact dynamic
  · exact dynamic
  · exact dynamic
  all_goals exact h

/-! ### Type arguments -/

/-- The ids of the type variables that are quantified by those signatures, in the types of the arguments
and in the type that is expected of the result, whose parts are matched. -/
def Signature.openedBy (o : TypeOrder) (s : Signature) (given : List Given) (bound : ArgBinding.Bound)
    (expected : Option Ty) : List Int :=
  ((s.withBound bound).flatMap fun (formal, i) =>
    (given[i]?.map fun g => o.opened formal g.seenType).getD []) ++
      (expected.map (o.opened s.ret)).getD []

namespace Check

variable {env : Env} {st : State} {s : Signature} {ids : List Int} {fromArgs fromContext : Constraints}
  {span : Span}

theorem mem_of_allowedValue? {o : TypeOrder} {values : List Ty} {inferred value : Ty}
    (h : allowedValue? o values inferred = some value) : value ∈ values := by
  rcases Option.or_eq_some_iff.mp h with same | ⟨-, below⟩
  · exact List.mem_of_find?_eq_some same
  · exact List.mem_of_find?_eq_some below

/-- A type argument mentions what the types it covers mention. -/
theorem freeVars_typeArgument (fills : env.order.Fills)
    (hargs : fromArgs.FilledOver env.order.classes ids)
    (hcontext : fromContext.FilledOver env.order.classes ids) {position : Nat} {v : TypeVar}
    (values : ∀ u ∈ v.values, u.freeVars = []) :
    ((typeArgument s fromArgs fromContext span position v).outcome env st).1.freeVars ⊆ ids := by
  unfold typeArgument
  rw [outcome_bind, outcome_read]
  extract_lets o bounds inferred
  have each : ∀ u ∈ bounds, u.FilledOver env.order.classes ids := by
    simp only [bounds]
    split
    · exact hcontext.of v.id
    · exact hargs.of v.id
  have known : inferred.freeVars ⊆ ids := by
    clear_value bounds
    cases bounds with
    | nil => exact List.nil_subset _
    | cons first rest =>
      obtain ⟨hfirst, hrest⟩ := List.forall_mem_cons.mp each
      exact (TypeOrder.foldl_join_filledOver fills hfirst hrest).free
  split
  · exact List.nil_subset _
  · split
    · exact known
    · split
      · rename_i value allowed
        exact values value (mem_of_allowedValue? allowed) ▸ List.nil_subset ids
      · exact known

theorem freeVars_typeArguments (fills : env.order.Fills)
    (hargs : fromArgs.FilledOver env.order.classes ids)
    (hcontext : fromContext.FilledOver env.order.classes ids) {i : Nat} {vs : List TypeVar}
    (values : ∀ v ∈ vs, ∀ u ∈ v.values, u.freeVars = []) :
    ((typeArguments s fromArgs fromContext span i vs).outcome env st).1.map (·.1) = vs.map (·.id) ∧
      ∀ p ∈ ((typeArguments s fromArgs fromContext span i vs).outcome env st).1,
        p.2.freeVars ⊆ ids := by
  induction vs generalizing i st with
  | nil => exact ⟨rfl, List.forall_mem_nil _⟩
  | cons v rest ih =>
    obtain ⟨own, later⟩ := List.forall_mem_cons.mp values
    exact ⟨congrArg (v.id :: ·) (ih later).1,
      List.forall_mem_cons.mpr ⟨freeVars_typeArgument fills hargs hcontext own, (ih later).2⟩⟩

end Check

/-- A signature that quantifies all its type variables mentions, with type arguments for these put in,
only what the type arguments mention. -/
theorem Signature.freeVars_expand {s : Signature} (closed : s.freeVars = []) {args : TypeArgs}
    {ids : List Int} (inferred : args.map (·.1) = s.quantified.map (·.id) ∧
      ∀ p ∈ args, p.2.freeVars ⊆ ids) :
    Signature.freeVars { s.expand args with quantified := [] } ⊆ ids := by
  obtain ⟨keys, each⟩ := inferred
  have expanded : s.expand args = Ty.substituteSignature (.ofIds args.lookup?) s := by
    have same := (Ty.callable s).expand_eq_substitute args
    rw [Ty.expand_callable] at same
    exact Ty.callable.inj same
  have put {t : Ty} {x : Int} (own : x ∈ t.freeVars → x ∉ s.freeVars → x ∈ s.quantified.map (·.id))
      (free : x ∈ (t.substitute (.ofIds args.lookup?)).freeVars) : x ∈ ids := by
    rcases t.freeAfter_substitute free with ⟨before, kept⟩ | ⟨y, u, found, inside⟩
    · have listed := own before (closed ▸ List.not_mem_nil)
      rw [← keys] at listed
      obtain ⟨p, member, same⟩ := List.mem_map.mp listed
      exact absurd same (TypeArgs.lookup?_eq_none_iff.mp kept p member)
    · exact each (y, u) (TypeArgs.mem_of_lookup? found) inside
  have parts {x : Int} (member : x ∈ freeVarsOfEach s.argTypes ++ s.ret.freeVars)
      (outside : x ∉ s.freeVars) : x ∈ s.quantified.map (·.id) :=
    (List.mem_append.mp (s.freeVars_parts_subset member)).resolve_left outside
  rw [expanded]
  intro x free
  rw [Signature.mem_freeVars] at free
  rcases free.1 with ⟨u, formal, inside⟩ | result
  · rw [Signature.argTypes_substitute] at formal
    obtain ⟨t, member, rfl⟩ := List.mem_map.mp formal
    refine put (fun before => parts (List.mem_append_left _ ?_)) inside
    exact mem_freeVarsOfEach.mpr ⟨t, member, before⟩
  · rw [Signature.ret_substitute] at result
    exact put (fun before => parts (List.mem_append_right _ before)) result

/-! ### Calls -/

theorem TypeOrder.constraints_of_closed {o : TypeOrder} (fills : o.Fills) {template actual : Ty}
    (h : actual.FilledOver o.classes []) :
    (o.constraints template actual).FilledOver o.classes (o.opened template actual) := by
  refine (constraints_filledOver fills template h.filled).mono (List.append_subset.mpr ⟨?_, ?_⟩)
  · exact List.Subset.trans h.free (List.nil_subset _)
  · exact List.Subset.refl _

namespace Check

variable {env : Env} {st : State} {s : Signature} {given : List Given} {bound : ArgBinding.Bound}
  {span : Span}

theorem freeVars_applied (fills : env.order.Fills) (closed : s.freeVars = [])
    (values : ∀ v ∈ s.quantified, ∀ u ∈ v.values, u.freeVars = [])
    (actuals : ∀ g ∈ given, g.type.FilledOver env.order.classes [])
    (context : ∀ t, st.scope.expected.head?.join = some t → t.FilledOver env.order.classes []) :
    ((applied s given bound span).outcome env st).1.freeVars ⊆
      s.openedBy env.order given bound st.scope.expected.head?.join := by
  unfold applied
  refine Signature.freeVars_expand closed (freeVars_typeArguments fills ?arguments ?context values)
  case arguments =>
    intro c collected
    obtain ⟨⟨formal, i⟩, member, inside⟩ := List.mem_flatMap.mp collected
    dsimp only at inside
    cases found : given[i]? with
    | none =>
      rw [found] at inside
      cases inside
    | some g =>
      rw [found] at inside
      have known := Given.seenType_filledOver (actuals g (List.mem_of_getElem? found))
      refine (TypeOrder.constraints_of_closed fills known).mono ?_ c inside
      intro x opened
      refine List.mem_append_left _ (List.mem_flatMap.mpr ⟨(formal, i), member, ?_⟩)
      dsimp only
      rw [found]
      exact opened
  case context =>
    cases expected : st.scope.expected.head?.join with
    | none => exact .nil
    | some type =>
      dsimp only
      split
      · exact .nil
      · refine (TypeOrder.constraints_of_closed fills (context type expected)).mono ?_
        exact List.subset_append_right _ _

end Check

theorem Signature.freeVars_ret_subset {s : Signature} (plain : s.quantified = []) :
    s.ret.freeVars ⊆ s.freeVars := by
  intro x free
  rw [Signature.mem_freeVars, plain]
  exact ⟨.inr free, List.forall_mem_nil _⟩

/-- In a call of a function that quantifies all its type variables, with arguments that have all their
type arguments and no free type variables, only such type variables get free in the result, and in the
function with its type arguments, as are quantified by a signature whose parts are matched. If there is
none, both are closed. -/
theorem call_frees_only_opened {env : Env} (fills : env.order.Fills) {st st' : State}
    {callee resolved : Ty} {args : List Arg} {given : List Given} {s : Signature} {span : Span}
    (resolves : Check.resolveCallee env st.vars Check.maxCallSteps callee = resolved)
    (infers : (Check.giveFor resolved args).outcome env st = (given, st'))
    (called : Check.called? env.order resolved given = some s) (closed : s.freeVars = [])
    (values : ∀ v ∈ s.quantified, ∀ u ∈ v.values, u.freeVars = [])
    (actuals : ∀ g ∈ given, g.type.FilledOver env.order.classes [])
    (context : ∀ t, st'.scope.expected.head?.join = some t → t.FilledOver env.order.classes []) :
    let opened := s.openedBy env.order given (ArgBinding.bind s (args.map (·.shape)))
      st'.scope.expected.head?.join
    let result := ((Check.checkCall callee args span).outcome env st).1
    result.type.freeVars ⊆ opened ∧ result.callee.freeVars ⊆ opened := by
  intro opened result
  have known : result = _ :=
    (congrArg Prod.fst (Check.outcome_checkCall resolves infers called)).trans Check.checkGiven_fst
  rw [known]
  by_cases plain : s.quantified.isEmpty = true
  · rw [if_pos plain]
    have nothing : s.freeVars ⊆ opened := closed ▸ List.nil_subset opened
    have own := Signature.freeVars_ret_subset (List.isEmpty_iff.mp plain)
    exact ⟨List.Subset.trans own nothing, nothing⟩
  · rw [if_neg plain]
    have inferred : ((Check.applied s given _ span).outcome env st').1.freeVars ⊆ opened :=
      Check.freeVars_applied fills closed values actuals context
    exact ⟨List.Subset.trans (Signature.freeVars_ret_subset rfl) inferred, inferred⟩

/-! ### A generic function as an argument -/

theorem Builder.tables_fills : (TypeOrder.ofClasses Builder.tables.classes).Fills where
  bases
    | 0, _, member => absurd member List.not_mem_nil
    | 1, base, member => by
      have row : Builder.tables.classes.bases 1 = [⟨0, "builtins.list",
          [.tuple [.typeVar (.plain "K" 1 .any), .typeVar (.plain "V" 2 .any)]]⟩] := rfl
      have columns : ∀ v ∈ [Ty.typeVar (.plain "K" 1 .any), .typeVar (.plain "V" 2 .any)],
          v.Filled Builder.tables.classes := by
        simp only [List.forall_mem_cons]
        exact ⟨.typeVar (.dynamic rfl) rfl, .typeVar (.dynamic rfl) rfl, List.forall_mem_nil _⟩
      have listed : base ∈ Builder.tables.classes.bases 1 := member
      rw [row] at listed
      rw [List.mem_singleton.mp listed]
      refine ⟨.inst (by decide +kernel) (List.forall_mem_singleton.mpr (.tuple columns)), ?_⟩
      decide +kernel
    | _ + 2, _, member => absurd member List.not_mem_nil
  basic := by
    have missing : (TypeOrder.ofClasses Builder.tables.classes).basic.object ::
        (TypeOrder.ofClasses Builder.tables.classes).fallbackClasses = [none, none, none, none] := by
      decide +kernel
    intro c listed
    rw [missing] at listed
    simp at listed

/-- The identity, which is generic. -/
def Signature.identity : Signature :=
  let item := TypeVar.plain "U" (-1) .any
  { Signature.positional [.typeVar item] (.typeVar item) with quantified := [item] }

/-- Applies a function to the items of a list. -/
def Signature.mapping : Signature :=
  let item := TypeVar.plain "T" (-1) .any
  let result := TypeVar.plain "S" (-2) .any
  let step := Signature.positional [.typeVar item] (.typeVar result)
  { Signature.positional [.callable step, .inst 0 "builtins.list" [.typeVar item]]
      (.inst 0 "builtins.list" [.typeVar result]) with
    quantified := [item, result] }

/-- The type variable of the identity gets free where the identity is applied to the rows of a table. -/
theorem mapping_frees_identity :
    let program := Builder.tables.toProgram
    let table : Ty := .inst 1 "builtins.Table" [.noneType, .noneType]
    let args := [Arg.positional (.known (.callable .identity)), Arg.positional (.known table)]
    let result := ((Check.checkCall (.callable .mapping) args default).outcome
      (Env.ofProgram program default) (.initial program)).1
    Signature.mapping.freeVars = [] ∧ Signature.identity.freeVars = [] ∧
      result.type.freeVars = [-1] ∧ result.callee.freeVars ⊆ [-1] := by
  intro program table args result
  have filled : ∀ g ∈ ([⟨⟨.pos, none⟩, .callable .identity, none⟩, ⟨⟨.pos, none⟩, table, none⟩] :
      List Given), g.type.FilledOver Builder.tables.classes [] := by
    simp only [List.forall_mem_cons]
    have item : (Ty.typeVar (.plain "U" (-1) .any)).Filled Builder.tables.classes :=
      .typeVar (.dynamic rfl) rfl
    refine ⟨⟨.callable (List.forall_mem_singleton.mpr item) item, by decide⟩, ⟨?_, by decide⟩,
      List.forall_mem_nil _⟩
    refine .inst (by decide +kernel) ?_
    simp only [List.forall_mem_cons]
    exact ⟨.noneType, .noneType, List.forall_mem_nil _⟩
  have opened : result.type.freeVars ⊆ _ ∧ result.callee.freeVars ⊆ _ := call_frees_only_opened
    Builder.tables_fills rfl rfl rfl (by decide) (by decide) filled fun _ expected => by cases expected
  exact ⟨by decide, by decide, by decide +kernel, opened.2⟩

end Gradual
