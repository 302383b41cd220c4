import Gradual.Proofs.Demands
import Gradual.Proofs.Unpacking

/-!
Names as targets of an assignment: a name that introduces a variable without a type gets one, and any other
name states the type that it has. What the names need is found without reports, and only types of theirs are
recorded for it.
-/

namespace Gradual

open Check

variable {env : Env} {s t u : State}

/-! ### Actions without reports -/

namespace Check.Clean

variable {α β : Type} {x : Check α} {f : α → Check β} {a : α} {b : β}

theorem pure : (Pure.pure a : Check α).Clean env s a s := fun _ => rfl

theorem bind (first : x.Clean env s a t) (second : (f a).Clean env t b u) : (x >>= f).Clean env s b u := by
  intro ds
  rw [outcome_bind, first, second]

theorem discard (h : x.Clean env s a t) : (discard x).Clean env s () t := by
  intro ds
  rw [outcome_discard, h]

theorem silent (h : x.Clean env s a t) : x.Silent env s := by
  rw [Silent, reports, h]

/-- Behind an action without reports. -/
theorem silent_bind (first : x.Clean env s a t) : (x >>= f).Silent env s ↔ (f a).Silent env t := by
  rw [Silent, reports, outcome_bind, first]
  exact Iff.rfl

end Check.Clean

/-- The code is in a function that declares no types. -/
def State.isDynamic (s : State) : Bool := s.scope.functions.head?.any (·.isDynamic)

/-- What is inferred without reports is recorded without reports. -/
theorem Check.acceptAs_clean (id : NodeId) {infer : Check Ty} {expected : Option Ty} {type : Ty}
    {types : TypeMap} (found : infer.Clean env (s.expecting expected) type { s.expecting expected with types }) :
    (acceptAs id infer expected).Clean env s (if s.isDynamic then .any else type)
      { s with types := types.insert id type } := by
  intro ds
  have inside : infer.outcome env { s with
      diagnostics := ds, scope := { s.scope with expected := expected :: s.scope.expected } } =
        (type, { s.expecting expected with types, diagnostics := ds }) := found ds
  simp only [acceptAs, Check.expecting, outcome_bind, outcome_between, inside, outcome_store, outcome_isDynamic,
    outcome_pure]
  rfl

/-- Parentheses around an expression whose type is found by looking it up: it is found with them too. -/
theorem Expr.accept_clean {e : Expr} {infer : Check Ty} {type : Ty}
    (bare : ∀ expected, e.unwrapped.accept expected = acceptAs e.unwrapped.id infer expected)
    (found : ∀ types expected, infer.Clean env { s with types, scope := { s.scope with expected } } type
      { s with types, scope := { s.scope with expected } }) (expected : Option Ty) :
    ∃ types, (e.accept expected).Clean env s (if s.isDynamic then .any else type) { s with types } ∧
      ∃ t ∈ [type, .any], types[e.id]? = some t := by
  induction e using Expr.paren_induction generalizing s expected with
  | bare e same =>
    rw [same] at bare
    have inside : infer.Clean env (s.expecting expected) type { s.expecting expected with types := s.types } :=
      found s.types (expected :: s.scope.expected)
    rw [bare]
    exact ⟨_, acceptAs_clean e.id inside, type, List.mem_cons_self, Std.TreeMap.getElem?_insert_self⟩
  | paren id span inner ih =>
    obtain ⟨types, inside, -⟩ := ih (s := s.expecting expected) bare found expected
    have accepted := acceptAs_clean id inside
    have same : (if s.isDynamic then .any else if s.isDynamic then .any else type : Ty) =
        if s.isDynamic then .any else type := by
      split <;> rfl
    refine ⟨_, same ▸ accepted, if s.isDynamic then .any else type, ?_, Std.TreeMap.getElem?_insert_self⟩
    split <;> simp

/-! ### What a name needs -/

/-- The type with which a name is used, if it has one. -/
def NameRef.type? (env : Env) (s : State) (ref : NameRef) : Option Ty :=
  match ref.symbol with
  | .var v => s.scope.binder.get? s.vars v
  | .func f => some f.type
  | .cls c => some (env.typeObject c)
  | .module _ | .typeVar _ => some .any

/-- The expression is a name, and as a target it needs this. -/
inductive Expr.Wants (env : Env) (s : State) (e : Expr) : Target → Prop
  /-- The name introduces a variable without a type. -/
  | fresh {v : Var} (defines : e.Defines v) (untyped : s.vars.get? v = none) : e.Wants env s (.inferred v)
  /-- The name introduces a variable that has a type. -/
  | declared {v : Var} {type : Ty} (defines : e.Defines v) (typed : s.vars.get? v = some type) :
    e.Wants env s (.typed type)
  /-- The name is used with a type, which is dynamic in code that declares no types. -/
  | used {ref : NameRef} {type : Ty} (kind : e.kind = .name ref) (use : ∀ v, ¬ e.Defines v)
    (known : ref.type? env s = some type) : e.Wants env s (.typed (if s.isDynamic then .any else type))

/-- A name that has a type is inferred without reports. -/
theorem NameRef.outcome_inferName {ref : NameRef} {span : Span} {type : Ty} (known : ref.type? env s = some type) :
    (Rules.inferName ref span).outcome env s = (type, s) := by
  unfold Rules.inferName
  unfold NameRef.type? at known
  cases symbol : ref.symbol with
  | var v =>
    rw [symbol] at known
    dsimp only at known ⊢
    rw [outcome_bind, outcome_scope, outcome_bind, outcome_get]
    dsimp only
    rw [known]
    rfl
  | func | cls | module | typeVar =>
    rw [symbol] at known
    exact congrArg (·, s) (Option.some.inj known)

/-- A name, in parentheses or not, that has a type is inferred without reports. -/
theorem Expr.accept_name_clean {e : Expr} {ref : NameRef} {type : Ty} (name : e.unwrapped.kind = .name ref)
    (known : ref.type? env s = some type) (expected : Option Ty) :
    ∃ types, (e.accept expected).Clean env s (if s.isDynamic then .any else type) { s with types } := by
  have bare (expected : Option Ty) : e.unwrapped.accept expected =
      acceptAs e.unwrapped.id (Rules.inferName ref e.unwrapped.span) expected := by
    generalize e.unwrapped = inner at name
    obtain ⟨id, span, kind⟩ := inner
    obtain rfl : kind = .name ref := name
    show (Rules.name id span ref).accept expected = _
    unfold Rules.name
    dsimp only
    split <;> rfl
  obtain ⟨types, found, -⟩ := accept_clean bare (fun _ _ _ => NameRef.outcome_inferName known) expected
  exact ⟨types, found⟩

/-- The target takes a value of the type without a report. -/
def Target.Takes (o : TypeOrder) (type : Ty) : Target → Prop
  | .typed want => o.isSubtype type want = true
  | .inferred _ => type.isSpecific = true
  | .indexed .. => False

/-- The types of variables behind a target that was assigned a value of the type. -/
def Target.giving (type : Ty) (vars : VarTypes) (k : Target) : VarTypes :=
  match k.var? with
  | some v => vars.set v type.stripped
  | none => vars

/-- What a target needs when a variable has got a type. -/
def Target.given (v : Var) (type : Ty) : Target → Target
  | .inferred u => if u.id = v.id then .typed type else .inferred u
  | k => k

namespace Expr

variable {e : Expr} {k : Target}

/-- A name that introduces nothing is inferred as a target as it is elsewhere. -/
theorem target_of_used {id : NodeId} {span : Span} {ref : NameRef}
    (use : ∀ v, ¬ (⟨id, span, .name ref⟩ : Expr).Defines v) :
    (Expr.part ⟨id, span, .name ref⟩).target = (Rules.ofInfer id (Rules.inferName ref span)).target := by
  have rules : (Expr.part ⟨id, span, .name ref⟩).target = (Rules.name id span ref).target := rfl
  rw [rules]
  unfold Rules.name
  dsimp only
  split
  · rename_i v isDef symbol
    exact absurd ⟨ref, rfl, isDef, symbol⟩ (use v)
  · rfl

namespace Wants

/-- What a name needs depends on the scope and on the types of variables only. -/
theorem congr (h : e.Wants env s k) (scope : t.scope = s.scope) (vars : t.vars = s.vars) :
    e.Wants env t k := by
  cases h with
  | fresh defines untyped => exact .fresh defines (vars ▸ untyped)
  | declared defines typed => exact .declared defines (vars ▸ typed)
  | @used ref type kind use known =>
    have dynamic : t.isDynamic = s.isDynamic := by rw [State.isDynamic, scope, State.isDynamic]
    have same : ref.type? env t = ref.type? env s := by
      unfold NameRef.type?
      rw [scope, vars]
    rw [← dynamic]
    exact .used kind use (same.trans known)

/-- A target that is a name is looked up without reports. -/
theorem target_clean (h : e.Wants env s k) : ∃ types, e.part.target.Clean env s k { s with types } := by
  cases h with
  | fresh defines untyped => exact ⟨s.types, fun _ => defines.outcome_target untyped⟩
  | @declared v type defines typed =>
    obtain ⟨ref, kind, isDef, symbol⟩ := defines
    obtain ⟨id, span, _⟩ := e
    dsimp only at kind
    subst kind
    refine ⟨s.types.insert id type, fun ds => ?_⟩
    have target : (Expr.part ⟨id, span, .name ref⟩).target = (Rules.name id span ref).target := rfl
    rw [target, Rules.name, isDef, symbol]
    dsimp only
    rw [Rules.variableTarget, outcome_bind, outcome_typeOfVar, typed]
    rfl
  | @used ref type kind use known =>
    obtain ⟨id, span, _⟩ := e
    dsimp only at kind
    subst kind
    have found : (Rules.inferName ref span).Clean env (s.expecting none) type
        { s.expecting none with types := s.types } := fun _ => NameRef.outcome_inferName known
    refine ⟨s.types.insert id type, ?_⟩
    rw [target_of_used use]
    exact (acceptAs_clean id found).bind .pure

/-- A name calls nothing as a target. -/
theorem stores {w : Effects} (h : e.Wants env s k) : k.Stores w := by
  cases h <;> exact True.intro

/-- A name, in parentheses or not, is one target. -/
theorem targets (h : e.unwrapped.Wants env s k) : e.targets = [e.unwrapped] := by
  have named : ∃ ref, e.unwrapped.kind = .name ref := by
    cases h with
    | fresh defines | declared defines => exact defines.imp fun _ h => h.1
    | used kind => exact ⟨_, kind⟩
  obtain ⟨ref, kind⟩ := named
  rw [Expr.targets, kind]

/-- When a variable without a type gets one, the names that introduce it state that type. -/
theorem set {v : Var} {type : Ty} (h : e.Wants env s k) (untyped : s.vars.get? v = none) :
    e.Wants env { s with vars := s.vars.set v type } (k.given v type) := by
  have other {u : Var} {known : Ty} (typed : s.vars.get? u = some known) :
      (s.vars.set v type).get? u = some known := by
    rw [VarTypes.get?_set_of_ne, typed]
    intro same
    rw [VarTypes.get?, same, ← VarTypes.get?, typed] at untyped
    cases untyped
  cases h with
  | @fresh u defines none =>
    rw [Target.given]
    split
    · rename_i same
      refine .declared defines ?_
      show (s.vars.set v type).get? u = some type
      rw [VarTypes.get?, same, ← VarTypes.get?, VarTypes.get?_set_self]
    · rename_i apart
      exact .fresh defines ((VarTypes.get?_set_of_ne (Ne.symm apart)).trans none)
  | declared defines typed => exact .declared defines (other typed)
  | @used ref known kind use found =>
    refine .used kind use ?_
    unfold NameRef.type? at found ⊢
    split at found
    · rename_i u _
      rcases Option.or_eq_some_iff.mp found with narrowed | ⟨wide, typed⟩
      · exact Option.or_eq_some_iff.mpr (.inl narrowed)
      · exact Option.or_eq_some_iff.mpr (.inr ⟨wide, other typed⟩)
    all_goals exact found

end Wants

theorem targets_store {es : List Expr} {ks : List Target} {w : Effects}
    (wants : List.Forall₂ (Expr.Wants env s) es ks) : ∀ k ∈ ks, k.Stores w := by
  induction wants with
  | nil => exact List.forall_mem_nil _
  | cons first _ ih => exact List.forall_mem_cons.mpr ⟨first.stores, ih⟩

/-- Targets that are names are looked up without reports. -/
theorem targets_clean {es : List Expr} {ks : List Target} (wants : List.Forall₂ (Expr.Wants env s) es ks) :
    ∃ types, ((es.map Expr.placedTarget).mapM fun (target : NodeId × Check Target) => target.2).Clean env s ks
      { s with types } := by
  induction es generalizing s ks with
  | nil =>
    cases wants
    exact ⟨s.types, .pure⟩
  | cons e es ih =>
    obtain ⟨k, ks, first, others, rfl⟩ := List.forall₂_cons_left_iff.mp wants
    obtain ⟨types, found⟩ := first.target_clean
    obtain ⟨types', rest⟩ := ih (s := { s with types }) (others.imp fun _ _ h => h.congr rfl rfl)
    refine ⟨types', ?_⟩
    rw [List.map_cons, List.mapM_cons]
    exact found.bind (rest.bind .pure)

end Expr

/-! ### Types for variables -/

/-- A type that is there stays. -/
theorem VarTypes.get?_infer {types : VarTypes} {v u : Var} {type : Ty} :
    (types.infer v type).get? u = (types.get? u).or (if v.id = u.id then some type else none) := by
  by_cases same : v.id = u.id
  · have get {t : VarTypes} : t.get? u = t.get? v := by rw [VarTypes.get?, ← same, ← VarTypes.get?]
    rw [if_pos same, get, get]
    cases known : types.get? v with
    | none => rw [infer_of_untyped known, get?_set_self, Option.none_or]
    | some old =>
      have typed : types.hasType v = true := by
        rw [hasType_iff, known]
        rfl
      rw [infer_of_hasType typed, known, Option.some_or]
  · have other : (types.infer v type).get? u = types.get? u := by
      unfold VarTypes.infer
      split
      · rfl
      · exact VarTypes.get?_set_of_ne same
    rw [if_neg same, Option.or_none, other]

namespace Check

variable {names : List (Option Introduced)} {type : Ty} {call : Option String} {span : Span}

theorem introduce_eq (i : Introduced) (type : Ty) (env : Env) (s : State) :
    ∃ types, ((introduce i type).outcome env s).2 =
    { s with vars := s.vars.infer i.var type.stripped, types } := by
  obtain ⟨v, node⟩ := i
  cases node with
  | none => exact ⟨s.types, rfl⟩
  | some node => exact ⟨_, rfl⟩

theorem introduceEach_diagnostics {types : List Ty} :
    ((introduceEach names types).outcome env s).2.diagnostics = s.diagnostics := by
  unfold introduceEach
  induction names.zip types generalizing s with
  | nil => rfl
  | cons p rest ih =>
    obtain ⟨name, type⟩ := p
    rw [List.forM, outcome_bind, ih]
    cases name with
    | none => rfl
    | some i =>
      obtain ⟨recorded, given⟩ := introduce_eq i type env s
      exact congrArg (·.diagnostics) given

/-- Variables can get their types from a value exactly if its type is specific. -/
theorem inferTypes_silent_iff :
    (inferTypes names type call span).Silent env s ↔ type.isSpecific = true := by
  have asks {p : Problem} {types : List Ty} :
      ¬ (do report p span; introduceEach names types : Check Unit).Silent env s := by
    rw [Silent, reports, outcome_bind, introduceEach_diagnostics]
    exact not_silent_report
  unfold inferTypes
  split
  · rename_i void
    cases type with
    | void => exact iff_of_false asks Bool.false_ne_true
    | _ => cases void
  · split
    · rename_i unspecific
      exact iff_of_false asks (by simpa using unspecific)
    · rename_i specific
      refine iff_of_true ?_ (by simpa using specific)
      split <;> exact introduceEach_diagnostics

/-- A name gets the type of a value alone if that is specific. -/
theorem inferTypes_single_clean {v : Var} {node : NodeId} (untyped : s.vars.get? v = none)
    (specific : type.isSpecific = true) :
    (inferTypes [some ⟨v, some node⟩] type call span).Clean env s ()
      { s with types := s.types.insert node type.stripped, vars := s.vars.set v type.stripped } := by
  have hasValue : type.isVoid = false := by cases type <;> first | rfl | cases specific
  intro ds
  have given : (introduce ⟨v, some node⟩ type).outcome env { s with diagnostics := ds } = ((), { s with
      diagnostics := ds
      vars := s.vars.infer v type.stripped
      types := s.types.insert node (((s.vars.infer v type.stripped).get? v).getD .any) }) := rfl
  rw [VarTypes.infer_of_untyped untyped, VarTypes.get?_set_self] at given
  rw [inferTypes_eq hasValue specific]
  exact given

/-! ### A known type for a name -/

theorem checkSubtype_demands {l r : Ty} {span : Span} {p : Problem} {call : Option String} :
    Demands (checkSubtype l r span p call) env s (env.order.isSubtype l r = true) () :=
  .after (fun _ => rfl) (.reportUnless _)

theorem checkSubtype_clean {l r : Ty} {span : Span} {p : Problem} {call : Option String}
    (fits : env.order.isSubtype l r = true) : (checkSubtype l r span p call).Clean env s () s :=
  checkSubtype_demands.holds fits

/-- A known type that is assigned to a name is reported exactly if the name does not take it. -/
theorem assignKnown_silent_iff {e : Expr} {k : Target} (wants : e.Wants env s k) :
    (assign [e.placedTarget] (.known type) span).Silent env s ↔ k.Takes env.order type := by
  obtain ⟨types, found⟩ := wants.target_clean
  unfold assign
  rw [Expr.placedTarget, found.silent_bind]
  cases k with
  | typed want => exact checkSubtype_demands.silent_iff
  | inferred v => exact inferTypes_silent_iff
  | indexed => cases wants

/-- A known type that a name takes is assigned to it without reports, and only the name may get a type. -/
theorem assignKnown_clean {e : Expr} {k : Target} (wants : e.Wants env s k) (takes : k.Takes env.order type)
    (span : Span) : ∃ types, (assign [e.placedTarget] (.known type) span).Clean env s ()
      { s with types, vars := k.giving type s.vars } := by
  obtain ⟨types, found⟩ := wants.target_clean
  cases k with
  | typed want =>
    refine ⟨types, ?_⟩
    unfold assign
    exact found.bind (checkSubtype_clean takes)
  | inferred v =>
    have untyped : s.vars.get? v = none := by
      cases wants
      assumption
    refine ⟨types.insert e.id type.stripped, ?_⟩
    unfold assign
    exact found.bind (Clean.bind .pure (inferTypes_single_clean (s := { s with types }) untyped takes))
  | indexed => cases takes

end Check
end Gradual
