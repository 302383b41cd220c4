import Gradual.Proofs.NamedTargets

/-!
Assignment of a tuple to names some of which have types and others not. Each name that has none gets the type
of the item at its place, but only if the types of all items are specific: the items of the other names count
as well, and a type is asked for if one of theirs is not specific.
-/

namespace Gradual

open Check

variable {env : Env} {s : State}

/-! ### Giving types to names -/

/-- The target is a name that introduces the variable, which has no type. -/
def Target.introduces (v : Var) (k : Target) : Bool := k.var?.any (·.id == v.id)

/-- The first of the types that stand where the targets introduce the variable. -/
def itemFor? (v : Var) (kinds : List Target) (types : List Ty) : Option Ty :=
  ((kinds.zip types).find? (·.1.introduces v)).map (·.2)

theorem itemFor?_cons {v : Var} {k : Target} {kinds : List Target} {type : Ty} {types : List Ty} :
    itemFor? v (k :: kinds) (type :: types) = if k.introduces v then some type else itemFor? v kinds types := by
  rw [itemFor?, List.zip_cons_cons, List.find?_cons]
  cases k.introduces v <;> rfl

/-- The names among targets that get types, each with its occurrence. -/
def introduced (names : List Expr) (kinds : List Target) : List (Option Introduced) :=
  List.zipWith (fun e k => k.var?.map fun v => ⟨v, some e.id⟩) names kinds

namespace Check

/-- A variable that names introduce has the type at the first of its places then, if it had none. -/
theorem get?_introduceEach {u : Var} {names : List Expr} {kinds : List Target} {types : List Ty}
    (named : names.length = kinds.length) (length : types.length = kinds.length) :
    ((introduceEach (introduced names kinds) types).outcome env s).2.vars.get? u =
      (s.vars.get? u).or ((itemFor? u kinds types).map Ty.stripped) := by
  induction kinds generalizing names types s with
  | nil =>
    cases List.length_eq_zero_iff.mp named
    exact (Option.or_none).symm
  | cons k kinds ih =>
    obtain ⟨e, names, rfl⟩ := List.exists_cons_of_length_eq_add_one named
    obtain ⟨type, types, rfl⟩ := List.exists_cons_of_length_eq_add_one length
    have rest (s : State) := ih (s := s) (Nat.succ.inj named) (Nat.succ.inj length)
    cases var : k.var? with
    | none =>
      have stays : k.introduces u = false := by rw [Target.introduces, var]; rfl
      have first : (introduceEach (introduced (e :: names) (k :: kinds)) (type :: types)).outcome env s =
          (introduceEach (introduced names kinds) types).outcome env s := by
        rw [introduced, List.zipWith_cons_cons, var]
        rfl
      rw [first, rest, itemFor?_cons, stays, if_neg Bool.false_ne_true]
    | some v =>
      obtain ⟨recorded, given⟩ := introduce_eq ⟨v, some e.id⟩ type env s
      have first : ((introduceEach (introduced (e :: names) (k :: kinds)) (type :: types)).outcome env s).2 =
          ((introduceEach (introduced names kinds) types).outcome env
            { s with vars := s.vars.infer v type.stripped, types := recorded }).2 := by
        rw [← given, introduced, List.zipWith_cons_cons, var]
        rfl
      have introduces : k.introduces u = true ↔ v.id = u.id := by simp [Target.introduces, var]
      rw [first, rest, VarTypes.get?_infer, Option.or_assoc, itemFor?_cons]
      by_cases same : v.id = u.id
      · rw [if_pos same, if_pos (introduces.mpr same)]
        rfl
      · rw [if_neg same, if_neg (introduces.not.mpr same), Option.none_or]

theorem inferTypes_unspecific {names : List (Option Introduced)} {type : Ty} {call : Option String} {span : Span}
    (value : type.isVoid = false) (unspecific : type.isSpecific = false) :
    inferTypes names type call span = (do
      report .needsType span
      introduceEach names (names.map fun _ => .any)) := by
  unfold inferTypes
  rw [value, unspecific, if_neg Bool.false_ne_true, Bool.not_false, if_pos rfl]

end Check

/-! ### Comparing and inferring -/

/-- Compares a value with the targets that have types and answers its type. -/
def Check.compare (targets : List Expr) (value : Expr) : Check Ty := do
  let kinds ← (targets.map Expr.placedTarget).mapM fun (target : NodeId × Check Target) => target.2
  assignMany kinds value.toValue value.span (.incompatibleAssignment .toVariable)

section Names

variable {names : List Expr} {kinds : List Target} {value : Expr} {v : Var}

theorem length_introduced (length : names.length = kinds.length) :
    (introduced names kinds).length = kinds.length := by
  rw [introduced, List.length_zipWith, length, Nat.min_self]

/-- Several names, some of them without types, get types from what the value is found to be. -/
theorem outcome_assign_names (wants : List.Forall₂ (Expr.Wants env s) names kinds) (several : 2 ≤ kinds.length)
    (some : kinds.any (·.var?.isSome) = true) :
    let compared := (Check.compare names value).outcome env s
    ((assign (names.map Expr.placedTarget) value.toValue value.span).outcome env s).2 =
      ((inferTypes (introduced names kinds) compared.1 value.toValue.operand.call value.span).outcome env
        compared.2).2 := by
  intro compared
  obtain ⟨types, found⟩ := Expr.targets_clean wants
  have kindsFound : ((names.map Expr.placedTarget).mapM fun (target : NodeId × Check Target) => target.2).outcome
      env s = (kinds, { s with types }) := found.outcome_eq
  have zipped : ((names.map Expr.placedTarget).zip kinds).map (fun (p : (NodeId × Check Target) × Target) =>
      p.2.var?.map fun v => (⟨v, Option.some p.1.1⟩ : Introduced)) = introduced names kinds := by
    rw [introduced, List.zip, List.map_zipWith, List.zipWith_map_left]
    rfl
  have answer : compared = (assignMany kinds value.toValue value.span (.incompatibleAssignment .toVariable)).outcome
      env { s with types } := by
    show (Check.compare names value).outcome env s = _
    rw [Check.compare, outcome_bind, kindsFound]
  unfold assign
  split
  · rename_i single
    have one : kinds.length = 1 := by
      rw [← wants.length_eq, ← List.length_map Expr.placedTarget, single, List.length_singleton]
    exact absurd several (by rw [one]; decide)
  · rw [outcome_bind, kindsFound, outcome_bind, ← answer]
    dsimp only
    rw [if_pos some, zipped]

/-- What the comparison may change is what the value may. -/
theorem compare_frame {w : Effects} (wants : List.Forall₂ (Expr.Wants env s) names kinds)
    (within : value.Within w) : ∃ types,
      w.Frame { s with types } ((Check.compare names value).outcome env s).2 := by
  obtain ⟨types, found⟩ := Expr.targets_clean wants
  refine ⟨types, ?_⟩
  rw [Check.compare, outcome_bind, found.outcome_eq]
  exact (assignMany_keeps (Expr.targets_store wants) within.toValue).frame env { s with types }

/-- A name that is not given a type in the value has none when the value has been compared. -/
theorem untyped_compare (wants : List.Forall₂ (Expr.Wants env s) names kinds) (fresh : s.Fresh value v) :
    ((Check.compare names value).outcome env s).2.vars.get? v = none := by
  obtain ⟨types, frame⟩ := compare_frame wants fresh.within
  obtain ⟨made, changes⟩ := frame.changes
  have untouched := changes.untouched fresh.old (fun _ other => other rfl) fun other => other rfl
  exact untouched.trans fresh.untyped

/-- A report is the same before the value is compared and behind it. -/
theorem diagnostic_compare (wants : List.Forall₂ (Expr.Wants env s) names kinds) {p : Problem} {span : Span} :
    let compared := ((Check.compare names value).outcome env s).2
    diagnostic env compared.file compared.scope p span = diagnostic env s.file s.scope p span := by
  intro compared
  obtain ⟨types, frame⟩ := compare_frame wants value.within_anything
  exact frame.diagnostic_eq env p span

end Names

theorem itemFor?_dynamic {v : Var} {kinds : List Target} (member : .inferred v ∈ kinds) {types : List Ty}
    (length : types.length = kinds.length) (dynamic : ∀ type ∈ types, type = .any) :
    itemFor? v kinds types = some .any := by
  obtain ⟨i, inside, place⟩ := List.mem_iff_getElem.mp member
  have typed : i < types.length := length ▸ inside
  have paired : (Target.inferred v, types[i]) ∈ kinds.zip types := by
    rw [← place, ← List.getElem_zip (h := by rwa [List.length_zip, length, Nat.min_self])]
    exact List.getElem_mem _
  have some : ((kinds.zip types).find? (·.1.introduces v)).isSome = true :=
    List.find?_isSome.mpr ⟨_, paired, by simp [Target.introduces, Target.var?]⟩
  obtain ⟨p, found⟩ := Option.isSome_iff_exists.mp some
  rw [itemFor?, found, Option.map_some,
    dynamic p.2 (List.of_mem_zip (List.mem_of_find?_eq_some found)).2]

namespace Check

variable {names : List Expr} {kinds : List Target} {types : List Ty} {call : Option String} {span : Span}

/-- Where all items are specific, names without types get those of their own items. -/
theorem inferTypes_names (named : names.length = kinds.length) (several : 2 ≤ kinds.length)
    (fit : types.length = kinds.length) (specific : ∀ type ∈ types, type.isSpecific = true) :
    let after := ((inferTypes (introduced names kinds) (.tuple types) call span).outcome env s).2
    after.diagnostics = s.diagnostics ∧
      ∀ v, s.vars.get? v = none → after.vars.get? v = (itemFor? v kinds types).map Ty.stripped := by
  intro after
  have each : after = ((introduceEach (introduced names kinds) types).outcome env s).2 := by
    show ((inferTypes _ _ _ _).outcome env s).2 = _
    rw [inferTypes_eq rfl (isSpecific_tuple specific), length_introduced named, if_neg (by omega), itemTypes,
      if_pos fit]
  rw [each]
  refine ⟨introduceEach_diagnostics, fun v untyped => ?_⟩
  rw [get?_introduceEach named fit, untyped, Option.none_or]

/-- Where some item is not specific, all names without types are dynamic. -/
theorem inferTypes_names_unspecific (named : names.length = kinds.length)
    (unspecific : ∃ type ∈ types, type.isSpecific = false) :
    let after := ((inferTypes (introduced names kinds) (.tuple types) call span).outcome env s).2
    after.diagnostics = ((report .needsType span).outcome env s).2.diagnostics ∧
      ∀ v, .inferred v ∈ kinds → s.vars.get? v = none → after.vars.get? v = some .any := by
  intro after
  let dynamic := (introduced names kinds).map fun _ => Ty.any
  let reported := ((report .needsType span).outcome env s).2
  have whole : (Ty.tuple types).isSpecific = false := by
    obtain ⟨type, member, low⟩ := unspecific
    exact Bool.eq_false_iff.mpr fun all => Bool.eq_false_iff.mp low (allSpecific_iff.mp all type member)
  have each : after = ((introduceEach (introduced names kinds) dynamic).outcome env reported).2 := by
    show ((inferTypes _ _ _ _).outcome env s).2 = _
    rw [inferTypes_unspecific rfl whole]
    rfl
  have length : dynamic.length = kinds.length := by rw [List.length_map, length_introduced named]
  rw [each]
  refine ⟨introduceEach_diagnostics, fun v member untyped => ?_⟩
  have item : itemFor? v kinds dynamic = some .any := itemFor?_dynamic member length fun type inside => by
    obtain ⟨_, _, rfl⟩ := List.mem_map.mp inside
    rfl
  have kept : reported.vars.get? v = none := by
    rw [show reported = _ from report_only]
    exact untyped
  rw [get?_introduceEach named length, kept, Option.none_or, item]
  rfl

end Check

/-- Assignment to several names, some of which have no types and are not given any in the value: where the value
that is compared with the others is a tuple of as many items, a type is asked for behind the comparison exactly
if the type of some item is not specific, whichever name it is for. Otherwise nothing more is reported, and each
name without a type gets that of its own item, without the names of functions; if a type is asked for, all of
them are dynamic. -/
theorem fresh_names_judged_by_whole_tuple {target value : Expr} {kinds : List Target} {types : List Ty}
    (wants : List.Forall₂ (Expr.Wants env s) target.targets kinds) (several : 2 ≤ kinds.length)
    (mixed : kinds.any (·.var?.isSome) = true) (fresh : ∀ v, .inferred v ∈ kinds → s.Fresh value v)
    (found : ((Check.compare target.targets value).outcome env s).1 = .tuple types)
    (fit : types.length = kinds.length) :
    let compared := ((Check.compare target.targets value).outcome env s).2
    let after := ((checkAssign [target] value).outcome env s).2
    let needs := diagnostic env s.file s.scope .needsType value.span
    (needs ∈ after.diagnostics ↔ needs ∈ compared.diagnostics ∨ ∃ type ∈ types, type.isSpecific = false) ∧
    ((∀ type ∈ types, type.isSpecific = true) → after.diagnostics = compared.diagnostics ∧
      ∀ v, .inferred v ∈ kinds → after.vars.get? v = (itemFor? v kinds types).map Ty.stripped) ∧
    ((∃ type ∈ types, type.isSpecific = false) →
      after.diagnostics = ((report .needsType value.span).outcome env compared).2.diagnostics ∧
        ∀ v, .inferred v ∈ kinds → after.vars.get? v = some .any) := by
  intro compared after needs
  have named : target.targets.length = kinds.length := wants.length_eq
  have inferred : after = ((inferTypes (introduced target.targets kinds) (.tuple types)
      value.toValue.operand.call value.span).outcome env compared).2 := by
    rw [← found]
    exact outcome_checkAssign_single.trans (outcome_assign_names wants several mixed)
  have still : ∀ v, .inferred v ∈ kinds → compared.vars.get? v = none :=
    fun v member => untyped_compare wants (fresh v member)
  have same : diagnostic env compared.file compared.scope .needsType value.span = needs :=
    diagnostic_compare wants
  by_cases unspecific : ∃ type ∈ types, type.isSpecific = false
  · obtain ⟨reported, dynamic⟩ : after.diagnostics = _ ∧
        ∀ v, .inferred v ∈ kinds → compared.vars.get? v = none → after.vars.get? v = some .any := by
      rw [inferred]
      exact inferTypes_names_unspecific named unspecific
    have asked : needs ∈ after.diagnostics := by
      rw [reported, ← same]
      exact mem_report
    refine ⟨iff_of_true asked (.inr unspecific), fun specific => ?_, fun _ =>
      ⟨reported, fun v member => dynamic v member (still v member)⟩⟩
    obtain ⟨type, member, low⟩ := unspecific
    exact absurd (specific type member) (Bool.eq_false_iff.mp low)
  · have specific : ∀ type ∈ types, type.isSpecific = true := fun type member =>
      eq_true_of_ne_false fun low => unspecific ⟨type, member, low⟩
    obtain ⟨unreported, given⟩ : after.diagnostics = compared.diagnostics ∧ ∀ v,
        compared.vars.get? v = none → after.vars.get? v = (itemFor? v kinds types).map Ty.stripped := by
      rw [inferred]
      exact inferTypes_names named several fit specific
    refine ⟨?_, fun _ => ⟨unreported, fun v member => given v (still v member)⟩, fun low => absurd low unspecific⟩
    rw [unreported]
    exact (or_iff_left unspecific).symm

/-- A name without a type that is assigned an item of its own kind stays without it, as `None` is assigned to
another name, whose type it fits. -/
theorem none_for_declared_name_needs_type :
    let type : Ty := .inst 0 "Item" []
    let program : Program := ⟨∅, ⟨#[⟨"Item", "Item", [], [0], ∅, [], false⟩]⟩, 6, ⟨2, .ofList [(1, type)]⟩⟩
    let env := Env.ofProgram program default
    let st := State.initial program
    let x : Var := ⟨0, "x", "x", none⟩
    let y : Var := ⟨1, "y", "y", none⟩
    let item (id : NodeId) (type : Ty) : Expr := ⟨id, default, .placeholder (some type)⟩
    let value : Expr := ⟨2, default, .tuple [item 3 type, item 4 .noneType]⟩
    let target : Expr := ⟨5, default, .tuple [x.introduction, y.introduction]⟩
    let after := ((checkAssign [target] value).outcome env st).2
    st.vars.get? y = some type ∧ type.isSpecific = true ∧ env.order.isSubtype .noneType type = true ∧
      diagnostic env st.file st.scope .needsType value.span ∈ after.diagnostics ∧
      after.vars.get? x = some .any := by
  intro type program env st x y item value target after
  have typed : st.vars.get? y = some type := by with_unfolding_all rfl
  have wants : List.Forall₂ (Expr.Wants env st) target.targets [.inferred x, .typed type] :=
    .cons (.fresh ⟨_, rfl, rfl, rfl⟩ rfl) (.cons (.declared ⟨_, rfl, rfl, rfl⟩ typed) .nil)
  have introducesNone : ∀ e ∈ value.all, e.introduces = [] := by decide
  have retypesNone : ∀ e ∈ value.all, e.retypings = [] := by decide
  have fresh : ∀ v, .inferred v ∈ [Target.inferred x, .typed type] → st.Fresh value v := by
    intro v member
    obtain rfl : v = x := by simpa using member
    refine ⟨by decide, rfl, fun e member => ?_, fun e member => ?_⟩
    · rw [introducesNone e member]
      exact List.not_mem_nil
    · rw [retypesNone e member]
      exact nofun
  have found : ((Check.compare target.targets value).outcome env st).1 = .tuple [type, .noneType] := by
    with_unfolding_all rfl
  obtain ⟨asked, -, dynamic⟩ := fresh_names_judged_by_whole_tuple wants (by decide) rfl fresh found rfl
  have low : ∃ t ∈ [type, .noneType], Ty.isSpecific t = false := ⟨.noneType, by simp, rfl⟩
  exact ⟨typed, rfl, by decide +kernel, asked.mpr (.inr low), (dynamic low).2 x (by simp)⟩

end Gradual
