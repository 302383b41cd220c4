import Gradual.Proofs.CleanResult
import Gradual.Proofs.NamedTargets

/-!
Definitions of several variables with one value. If the first of them has a type, the items of the value are
compared with the types that the others have. If the first has none, nothing is compared, whatever types the
others have.
-/

namespace Gradual

open Check

variable {env : Env} {s : State}

/-- In code that is not dynamic an expression is recorded with the type that it is found to have. -/
theorem Check.outcome_acceptAs {id : NodeId} {infer : Check Ty} {expected : Option Ty}
    (typed : ((expecting expected infer).outcome env s).2.scope.functions.head?.any (·.isDynamic) = false) :
    let found := (expecting expected infer).outcome env s
    (acceptAs id infer expected).outcome env s =
      (found.1, { found.2 with types := found.2.types.insert id found.1 }) := by
  intro found
  unfold acceptAs
  rw [outcome_bind, outcome_bind, outcome_bind, outcome_isDynamic]
  simp [typed, found]

/-- In code that is not dynamic the answer is what is recorded for the expression inside its parentheses. -/
theorem Expr.accept_recorded_inside (e : Expr) (expected : Option Ty) (env : Env) {s : State}
    (typed : s.scope.functions.head?.any (·.isDynamic) = false) :
    ((e.accept expected).outcome env s).2.types[e.unwrapped.id]? =
      some ((e.accept expected).outcome env s).1 := by
  induction e using Expr.paren_induction generalizing expected s with
  | bare e same =>
    rw [same]
    exact e.accept_recorded expected env typed
  | paren id span inner ih =>
    let infer : Check Ty := do inner.accept (← expectedType)
    let found := (expecting expected infer).outcome env s
    have accepted : Expr.accept ⟨id, span, .paren inner⟩ expected = acceptAs id infer expected := rfl
    have scope : found.2.scope = s.scope := Check.accept_scope ⟨id, span, .paren inner⟩ expected env s
    have inside : found.2.types[inner.unwrapped.id]? = some found.1 := ih _ (s := s.expecting expected) typed
    rw [accepted, outcome_acceptAs (scope ▸ typed)]
    show (found.2.types.insert id found.1)[inner.unwrapped.id]? = some found.1
    rw [Std.TreeMap.getElem?_insert]
    split
    · rfl
    · exact inside

/-! ### Targets with types -/

namespace Check

theorem outcome_typedTargets {vars : List Var} :
    (vars.mapM fun v => return Target.typed ((← typeOfVar v).getD .any) : Check (List Target)).outcome env s =
      ((vars.map fun v => (s.vars.get? v).getD .any).map .typed, s) := by
  induction vars with
  | nil => rfl
  | cons v vars ih =>
    have rest := congrArg (fun found : List Target × State =>
      (Target.typed ((s.vars.get? v).getD .any) :: found.1, found.2)) ih
    rw [List.mapM_cons]
    exact rest

variable {wanted types : List Ty} {span : Span} {p : Problem}

/-- Without a report each known type fits the target at its place, and nothing is changed. -/
theorem fits_of_assignKnown
    (clean : ((assignKnown (wanted.map .typed) types span p).outcome env s).2.diagnostics = []) :
    ((assignKnown (wanted.map .typed) types span p).outcome env s).2 = s ∧
      ∀ (i : Nat) type want, types[i]? = some type → wanted[i]? = some want → env.order.isSubtype type want = true := by
  induction wanted generalizing types s with
  | nil => exact ⟨rfl, fun i type want _ known => nomatch known⟩
  | cons want wanted ih =>
    cases types with
    | nil => exact ⟨rfl, fun i type want known => nomatch known⟩
    | cons type types =>
      have split : (assignKnown ((want :: wanted).map .typed) (type :: types) span p).outcome env s =
          (assignKnown (wanted.map .typed) types span p).outcome env
            ((checkSubtype type want span p none).outcome env s).2 := rfl
      rw [split] at clean ⊢
      obtain ⟨same, fits⟩ := ih clean
      rw [same] at clean ⊢
      obtain ⟨fit, unchanged⟩ := isSubtype_of_checkSubtype clean
      rw [unchanged]
      refine ⟨rfl, fun i => ?_⟩
      cases i with
      | zero =>
        rintro t w ⟨⟩ ⟨⟩
        exact fit
      | succ i => exact fits i

theorem fits_of_unpack
    (clean : ((unpack (wanted.map .typed) (.tuple types) span p).outcome env s).2.diagnostics = []) :
    ((unpack (wanted.map .typed) (.tuple types) span p).outcome env s).2 = s ∧
      ∀ (i : Nat) type want, types[i]? = some type → wanted[i]? = some want → env.order.isSubtype type want = true := by
  unfold unpack at clean ⊢
  dsimp only at clean ⊢
  split at clean
  · rename_i same
    rw [if_pos same]
    exact fits_of_assignKnown clean
  · exact absurd clean diagnostics_report_ne_nil

/-- Without a report an item of a display is found to fit its target, unless it is supplied later and has the
type of the target. -/
theorem fits_of_assignItem {item : Expr} {want : Ty}
    (clean : ((assignOne (.typed want) item.toItem.toValue span p).outcome env s).2.diagnostics = []) :
    ∃ type, ((assignOne (.typed want) item.toItem.toValue span p).outcome env s).1 = some type ∧
      (env.order.isSubtype type want = true ∨ item.isPlaceholder = true ∧ type = want) := by
  cases supplied : item.isPlaceholder with
  | true =>
    have stored : assignOne (.typed want) item.toItem.toValue span p = (do
        store item.id want
        return some want) := by
      rw [Item.toValue, Expr.toItem, supplied]
      rfl
    rw [stored]
    exact ⟨want, rfl, .inr ⟨rfl, rfl⟩⟩
  | false =>
    have compared : assignOne (.typed want) item.toItem.toValue span p = (do
        let type ← item.accept (some want)
        checkSubtype type want span p item.operand.call
        return some type) := by
      rw [Item.toValue, Expr.toItem, supplied]
      rfl
    rw [compared] at clean ⊢
    exact ⟨_, rfl, .inl (isSubtype_of_checkSubtype clean).1⟩

theorem typed_stores {w : Effects} : ∀ target ∈ wanted.map Target.typed, target.Stores w := by
  intro target member
  obtain ⟨want, -, rfl⟩ := List.mem_map.mp member
  exact .typed

/-- Without a report this holds of each item of a display. -/
theorem fits_of_assignItems {items : List Expr}
    (clean : ((assignItems (wanted.map .typed) (items.map Expr.toItem) p).outcome env s).2.diagnostics = []) :
    ∀ (i : Nat) type want,
      ((assignItems (wanted.map .typed) (items.map Expr.toItem) p).outcome env s).1[i]? = some type →
        wanted[i]? = some want → env.order.isSubtype type want = true ∨
          (∃ item, items[i]? = some item ∧ item.isPlaceholder = true) ∧ type = want := by
  induction wanted generalizing items s with
  | nil => exact fun i type want _ known => nomatch known
  | cons want wanted ih =>
    cases items with
    | nil => exact fun i type want known => nomatch known
    | cons item items =>
      let first := (assignOne (.typed want) item.toItem.toValue item.span p).outcome env s
      let rest := (assignItems (wanted.map .typed) (items.map Expr.toItem) p).outcome env first.2
      have split : (assignItems ((want :: wanted).map .typed) ((item :: items).map Expr.toItem) p).outcome env s =
          (first.1.getD .any :: rest.1, rest.2) := by
        have tail : assignItems ((want :: wanted).map .typed) ((item :: items).map Expr.toItem) p = (do
            let type ← assignOne (.typed want) item.toItem.toValue item.span p
            let types ← assignItems (wanted.map .typed) (items.map Expr.toItem) p
            return type.getD .any :: types) := by
          unfold assignItems
          rw [List.map_cons, List.map_cons, List.zip_cons_cons, List.mapM_cons]
          rfl
        rw [tail]
        rfl
      rw [split] at clean ⊢
      intro i
      cases i with
      | zero =>
        have kept : Keeps Effects.anything (assignItems (wanted.map .typed) (items.map Expr.toItem) p) := by
          refine assignItems_keeps typed_stores fun placed member => ?_
          obtain ⟨e, -, rfl⟩ := List.mem_map.mp member
          exact Expr.Within.toItem e.within_anything
        obtain ⟨found, answer, fits⟩ := fits_of_assignItem ((diagnostics_eq_nil_iff kept).mp clean).1
        rintro type w known ⟨⟩
        obtain rfl : found = type := by
          have value : first.1.getD .any = type := Option.some.inj known
          rw [← value, show first.1 = some found from answer]
          rfl
        exact fits.imp_right fun late => ⟨⟨item, rfl, late.1⟩, late.2⟩
      | succ i => exact ih clean i

/-- Unpacking a type records nothing. -/
theorem unpack_types {type : Ty} {id : NodeId} :
    ((unpack (wanted.map .typed) type span p).outcome env s).2.types[id]? = s.types[id]? := by
  have keeps : Keeps Effects.reporting (unpack (wanted.map .typed) type span p) := unpack_keeps typed_stores
  exact (keeps.frame env s).types_eq rfl fun recorded => recorded

end Check

/-! ### Definitions -/

/-- The item at the place of the value is supplied later. -/
def Expr.Defers (value : Expr) (i : Nat) : Prop :=
  value.unwrapped.kind = .placeholder none ∨
    ∃ items item, value.unwrapped.kind = .tuple items ∧ items[i]? = some item ∧ item.isPlaceholder = true

section Several

variable {value : Expr} {wanted types : List Ty} {span : Span} {p : Problem}

/-- Items that are compared with types one by one. -/
def TypeOrder.FitsEach (o : TypeOrder) (value : Expr) (types wanted : List Ty) : Prop :=
  ∀ (i : Nat) type want, types[i]? = some type → wanted[i]? = some want →
    o.isSubtype type want = true ∨ value.Defers i ∧ type = want

theorem fitsEach_of_placeholder {id : NodeId} {inParens : Bool}
    (placeholder : value.unwrapped.kind = .placeholder none)
    (form : value.toValue.form = .placeholder id value.unwrapped.id inParens)
    (recorded : ((assignMany (wanted.map .typed) value.toValue span p).outcome env s).2.types[
      value.unwrapped.id]? = some (.tuple types)) : env.order.FitsEach value types wanted := by
  have stored : ((assignMany (wanted.map .typed) value.toValue span p).outcome env s).2.types[
      value.unwrapped.id]? = some (.tuple ((wanted.map Target.typed).map fun target =>
        target.type?.getD .any)) := by
    unfold assignMany
    rw [form]
    exact Std.TreeMap.getElem?_insert_self
  have same : (wanted.map Target.typed).map (fun target => target.type?.getD .any) = wanted := by
    rw [List.map_map]
    exact List.map_id wanted
  rw [stored, same] at recorded
  obtain rfl := Ty.tuple.inj (Option.some.inj recorded)
  intro i type want first second
  exact .inr ⟨.inl placeholder, Option.some.inj (first.symm.trans second)⟩

theorem fitsEach_of_display {id : NodeId} {items : List Expr}
    (display : value.unwrapped.kind = .tuple items)
    (form : value.toValue.form = .display id value.unwrapped.id (items.map Expr.toItem))
    (clean : ((assignMany (wanted.map .typed) value.toValue span p).outcome env s).2.diagnostics = [])
    (recorded : ((assignMany (wanted.map .typed) value.toValue span p).outcome env s).2.types[
      value.unwrapped.id]? = some (.tuple types)) : env.order.FitsEach value types wanted := by
  unfold assignMany at clean recorded
  rw [form] at clean recorded
  dsimp only at clean recorded
  split at clean
  · rename_i same
    let each := (assignItems (wanted.map .typed) (items.map Expr.toItem) p).outcome env s
    have stored : ((each.2.types.insert value.unwrapped.id (.tuple each.1)).insert id (.tuple each.1))[
        value.unwrapped.id]? = some (.tuple each.1) := by
      rw [Std.TreeMap.getElem?_insert]
      split
      · rfl
      · exact Std.TreeMap.getElem?_insert_self
    rw [if_pos same] at recorded
    obtain rfl := Ty.tuple.inj (Option.some.inj (stored.symm.trans recorded))
    intro i type want known wants
    refine (fits_of_assignItems clean i type want known wants).imp_right fun late => ⟨.inr ?_, late.2⟩
    obtain ⟨item, place, supplied⟩ := late.1
    exact ⟨items, item, display, place, supplied⟩
  · have keeps : Keeps Effects.anything (do discard <| value.toValue.operand.accept none; return Ty.any) :=
      (value.within_anything.accept none).discard.seq fun _ => .done
    exact absurd ((diagnostics_eq_nil_iff keeps).mp clean).1 diagnostics_report_ne_nil

theorem fitsEach_of_expr (typed : s.scope.functions.head?.any (·.isDynamic) = false)
    (form : value.toValue.form = .expr)
    (clean : ((assignMany (wanted.map .typed) value.toValue span p).outcome env s).2.diagnostics = [])
    (recorded : ((assignMany (wanted.map .typed) value.toValue span p).outcome env s).2.types[
      value.unwrapped.id]? = some (.tuple types)) : env.order.FitsEach value types wanted := by
  -- Whether the value is inferred once or twice, what is found last is recorded and unpacked.
  have found : ∃ found : Ty × State, found.2.types[value.unwrapped.id]? = some found.1 ∧
      ((assignMany (wanted.map .typed) value.toValue span p).outcome env s).2 =
        ((unpack (wanted.map .typed) found.1 span p).outcome env found.2).2 := by
    unfold assignMany
    rw [form]
    dsimp only
    have operand : value.toValue.operand.accept = value.accept := rfl
    rw [operand, outcome_bind]
    have once := value.accept_recorded_inside none env typed
    have scope := Check.accept_scope value none env s
    split
    · exact ⟨_, value.accept_recorded_inside _ env (scope ▸ typed), rfl⟩
    · exact ⟨_, once, rfl⟩
  obtain ⟨⟨type, t⟩, known, unpacks⟩ := found
  rw [unpacks] at clean recorded
  rw [unpack_types, known] at recorded
  obtain rfl : type = .tuple types := Option.some.inj recorded
  exact fun i type want first second => .inl ((fits_of_unpack clean).2 i type want first second)

theorem fitsEach_of_assignMany (typed : s.scope.functions.head?.any (·.isDynamic) = false)
    (clean : ((assignMany (wanted.map .typed) value.toValue span p).outcome env s).2.diagnostics = [])
    (recorded : ((assignMany (wanted.map .typed) value.toValue span p).outcome env s).2.types[
      value.unwrapped.id]? = some (.tuple types)) : env.order.FitsEach value types wanted := by
  rcases toValue_form_cases value with ⟨placeholder, inParens, form⟩ | ⟨items, display, form⟩ | form
  · exact fitsEach_of_placeholder placeholder form recorded
  · exact fitsEach_of_display display form clean recorded
  · exact fitsEach_of_expr typed form clean recorded

end Several

section Definition

variable {first second : Var} {others : List Var} {isLocal : Bool} {init : Expr} {span : Span}

/-- Where the first variable has a type, the value is assigned to the types of all. -/
theorem outcome_checkVarDef_declared {declared : Ty} (known : s.vars.get? first = some declared) :
    ((checkVarDef (first :: second :: others) isLocal (some init) span).outcome env s).2 =
      ((assignMany (((first :: second :: others).map fun v => (s.vars.get? v).getD .any).map .typed) init.toValue
        span (.incompatibleAssignment .toVariable)).outcome env s).2 := by
  unfold checkVarDef
  rw [outcome_bind, outcome_typeOfVar, known]
  dsimp only
  rw [if_neg (by simp), outcome_bind, outcome_typedTargets]
  rfl

/-- Where the first variable has no type, the value is inferred, and local variables get types from it. -/
theorem outcome_checkVarDef_undeclared (untyped : s.vars.get? first = none) :
    ((checkVarDef (first :: second :: others) isLocal (some init) span).outcome env s).2 =
      let inferred := (init.accept none).outcome env s
      ((if isLocal then inferTypes ((first :: second :: others).map fun v => some ⟨v, none⟩) inferred.1
        init.calledName? span else return ()).outcome env inferred.2).2 := by
  unfold checkVarDef
  rw [outcome_bind, outcome_typeOfVar, untyped]
  rfl

/-- Definition of several variables with one value, in code that declares types. If the first variable has a
type and nothing is reported where the value is found to be a tuple, then each variable that has a type gets an
item that fits it, or one that is supplied later and has that very type. If the first variable has no type,
something is reported only in the value, or because local variables cannot get types from it: which types the
other variables have is not looked at. -/
theorem definition_compared_iff_first_declared (typed : s.scope.functions.head?.any (·.isDynamic) = false) :
    let vars := first :: second :: others
    let inferred := (init.accept none).outcome env s
    let after := ((checkVarDef vars isLocal (some init) span).outcome env s).2
    ((s.vars.get? first).isSome = true → after.diagnostics = [] →
      ∀ types, after.types[init.unwrapped.id]? = some (.tuple types) →
        ∀ (i : Nat) v type want, vars[i]? = some v → types[i]? = some type → s.vars.get? v = some want →
          env.order.isSubtype type want = true ∨ init.Defers i ∧ type = want) ∧
    (s.vars.get? first = none → (after.diagnostics = [] ↔
      inferred.2.diagnostics = [] ∧ (isLocal = true → inferred.1.isSpecific = true))) := by
  intro vars inferred after
  constructor
  · intro declared clean types recorded i v type want place item known
    obtain ⟨first's, has⟩ := Option.isSome_iff_exists.mp declared
    have assigned : after = _ := outcome_checkVarDef_declared has
    rw [assigned] at clean recorded
    refine fitsEach_of_assignMany typed clean recorded i type want item ?_
    rw [List.getElem?_map, place, Option.map_some, known, Option.getD_some]
  · intro untyped
    have checked : after = _ := outcome_checkVarDef_undeclared untyped
    rw [checked]
    cases isLocal with
    | false => exact (and_iff_left nofun).symm
    | true =>
      have keeps : Keeps Effects.anything (inferTypes (vars.map fun v => some ⟨v, none⟩) inferred.1
          init.calledName? span) := inferTypes_keeps fun i _ => ⟨True.intro, fun _ _ => True.intro⟩
      refine (diagnostics_eq_nil_iff keeps).trans (and_congr_right fun _ => ?_)
      rw [inferTypes_silent_iff]
      exact (imp_iff_right rfl).symm

end Definition

/-- A pair that is no subtype of what its second variable declares is defined without a report where the first
variable has no type, and each item is known to fit where the first has one. -/
theorem mixed_pair_defined :
    let item : Ty := .inst 0 "Item" []
    let box : Ty := .inst 1 "Box" []
    let program : Program :=
      ⟨∅, ⟨#[⟨"Item", "Item", [], [0], ∅, [], false⟩, ⟨"Box", "Box", [], [1], ∅, [], false⟩]⟩, 3,
        ⟨2, .ofList [(1, box)]⟩⟩
    let env := Env.ofProgram program default
    let st := State.initial program
    let x : Var := ⟨0, "x", "x", none⟩
    let y : Var := ⟨1, "y", "y", none⟩
    let pair (t u : Ty) : Expr :=
      ⟨2, default, .tuple [⟨0, default, .placeholder (some t)⟩, ⟨1, default, .placeholder (some u)⟩]⟩
    let after (first second : Var) (init : Expr) : State :=
      ((checkVarDef [first, second] true (some init) default).outcome env st).2
    (after x y (pair item item)).diagnostics = [] ∧ env.order.isSubtype item box = false ∧
      (after y x (pair box item)).diagnostics = [] ∧ env.order.isSubtype box box = true := by
  intro item box program env st x y pair after
  have mixed : (after x y (pair item item)).diagnostics = [] :=
    ((definition_compared_iff_first_declared rfl).2 rfl).mpr ⟨by decide +kernel, fun _ => by decide +kernel⟩
  have clean : (after y x (pair box item)).diagnostics = [] := by decide +kernel
  have fits := (definition_compared_iff_first_declared rfl).1 (by with_unfolding_all rfl) clean [box, item]
    (by with_unfolding_all rfl) 0 y box box rfl rfl (by with_unfolding_all rfl)
  refine ⟨mixed, by decide +kernel, clean, fits.resolve_right ?_⟩
  rintro ⟨placeholder | ⟨items, late, display, place, supplied⟩, -⟩
  · cases placeholder
  · cases display
    cases place
    cases supplied

end Gradual
