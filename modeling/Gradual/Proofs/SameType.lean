import Gradual.Proofs.Cores
import Gradual.Proofs.Inheritance
import Gradual.Proofs.Overriding
import Gradual.Proofs.Reflexivity

/-!
What the checker reports where a type meets itself: a value assigned to a variable that has the type
of the value, a method that overrides one of the same signature and a name that two bases declare
alike.
-/

namespace Gradual

/-! ### The names of functions -/

theorem Signature.core_withoutName {side : Side} (s : Signature) : s.withoutName.core side = s.core side := by
  cases s
  rfl

theorem Ty.core_stripped {side : Side} (t : Ty) : t.stripped.core side = t.core side := by
  cases t with
  | callable s => exact congrArg Ty.callable s.core_withoutName
  | overloaded items =>
    rw [stripped, mapSignatures, core, core, coreSignatures_eq_map, coreSignatures_eq_map, List.map_map]
    exact congrArg Ty.overloaded (List.map_congr_left fun s _ => s.core_withoutName)
  | any | void | noneType | inst | tuple | typeVar | unbound | error => rfl

/-- A type fits where another is expected whatever the functions there are called. -/
theorem TypeOrder.isSubtype_stripped {o : TypeOrder} (l r : Ty) :
    o.isSubtype l r.stripped = o.isSubtype l r := by
  rw [← o.isSubtype_core l r.stripped, Ty.core_stripped, o.isSubtype_core]

/-! ### Assignment -/

namespace Check

variable {env : Env} {s s' : State}

theorem outcome_checkSubtype (l r : Ty) (span : Span) (p : Problem) (call : Option String) :
    (checkSubtype l r span p call).outcome env s =
      if env.order.isSubtype l r then ((), s)
      else (report (if l.isVoid then .noValue call else p) span).outcome env s := by
  unfold checkSubtype
  rw [outcome_bind, outcome_isSubtype]
  cases env.order.isSubtype l r <;> rfl

/-- A variable that has a type compares it with that of the value, unless the value is still to
come. -/
theorem outcome_assign_variable {id : NodeId} {v : Var} {value : Value} {span : Span} {type t : Ty}
    (known : s.vars.get? v = some type)
    (present : ∀ i j, value.form ≠ .placeholder i j false)
    (accepted : (value.operand.accept (some type)).outcome env
      { s with types := s.types.insert id type } = (t, s')) :
    (assign [(id, Rules.variableTarget id v)] value span).outcome env s =
      (checkSubtype t type span (.incompatibleAssignment .toVariable) value.operand.call).outcome env
        s' := by
  have target : (Rules.variableTarget id v).outcome env s =
      (.typed type, { s with types := s.types.insert id type }) := by
    rw [Rules.variableTarget, outcome_bind, outcome_typeOfVar, known]
    rfl
  have one : assignOne (.typed type) value span (.incompatibleAssignment .toVariable) = (do
      let t ← value.operand.accept (some type)
      checkSubtype t type span (.incompatibleAssignment .toVariable) value.operand.call
      return some t) := by
    unfold assignOne
    split
    · rename_i form
      exact absurd form (present _ _)
    · rename_i same _
      cases same
      rfl
    · contradiction
    · contradiction
  rw [assign, outcome_bind, target]
  dsimp only
  rw [outcome_discard, one, outcome_bind, accepted]
  rfl

end Check

/-! ### Overrides and names from two bases -/

/-- What is compared when a method overrides one of the same signature: the parts of the signature,
or all alternatives at once. -/
def Ty.comparedParts : Ty → List Ty
  | .callable s => s.ret :: s.argTypes
  | t => [t]

namespace TypeOrder

variable {o : TypeOrder} {t : Ty}

theorem isEquivalent_self : o.isEquivalent t t = o.isSubtype t t := Bool.and_self _

theorem overrideProblems_self_iff (name supertype : String) :
    o.overrideProblems name supertype t t = [] ↔
      ∀ u ∈ t.comparedParts, o.isSubtype u u = true := by
  cases t with
  | callable s =>
    rw [overrideProblems_eq_nil_iff_of_same_counts ⟨rfl, rfl⟩, zip_self, List.forall_mem_map,
      Ty.comparedParts, List.forall_mem_cons, and_comm]
    simp only [isEquivalent_self]
  | any | void | noneType | inst | overloaded | tuple | typeVar | unbound | error =>
    simp only [Ty.comparedParts, List.forall_mem_singleton]
    refine overrideProblems_eq_nil_iff_of_whole fun _ _ single => ?_
    cases single

end TypeOrder

/-- A type fits in its own place, is equivalent to itself, can be assigned again and agrees with
itself in two bases exactly if each overloaded type in it has an alternative that serves for all.
A method overrides one of the same signature exactly if that holds of the parts that are compared. -/
theorem meets_itself_iff (env : Env) (t : Ty) (wf : t.isWellFormed = true)
    (ends : env.order.EndAmong t.overloads) :
    (env.order.isSubtype t t = true ↔ env.order.HasLeads t.overloads) ∧
    (env.order.isEquivalent t t = true ↔ env.order.HasLeads t.overloads) ∧
    (∀ (s s' : State) (id : NodeId) (v : Var) (value : Value) (span : Span),
      s.vars.get? v = some t.stripped → (∀ i j, value.form ≠ .placeholder i j false) →
      (value.operand.accept (some t.stripped)).outcome env
        { s with types := s.types.insert id t.stripped } = (t, s') →
      (env.order.HasLeads t.overloads →
        (Check.assign [(id, Rules.variableTarget id v)] value span).outcome env s = ((), s')) ∧
      (¬ env.order.HasLeads t.overloads →
        (Check.assign [(id, Rules.variableTarget id v)] value span).outcome env s =
          (Check.report (.incompatibleAssignment .toVariable) span).outcome env s')) ∧
    (∀ (vars : VarTypes) (name : String) (c base : ClassId) (symbol : Symbol) (type old : Ty),
      env.classes.own? base name = some symbol → symbol.declaredType? vars = some old →
      old.isFunctionLike = true → type.boundMethod = t →
      env.fromSupertype old.boundMethod c base = t →
      (env.overrideProblems vars name c type base = [] ↔
        ∀ u ∈ t.comparedParts, env.order.isSubtype u u = true)) ∧
    (∀ a b : Ty, a.boundMethod = t → b.boundMethod = t →
      (env.order.membersAgree (some a) (some b) = true ↔ env.order.HasLeads t.overloads)) := by
  have fits := TypeOrder.isSubtype_self_iff wf ends
  have equivalent : env.order.isEquivalent t t = true ↔ env.order.HasLeads t.overloads := by
    rw [TypeOrder.isEquivalent_self]
    exact fits
  refine ⟨fits, equivalent, ?_, ?_, ?_⟩
  · intro s s' id v value span known present accepted
    rw [Check.outcome_assign_variable known present accepted, Check.outcome_checkSubtype,
      TypeOrder.isSubtype_stripped]
    constructor
    · intro leads
      rw [if_pos (fits.mpr leads)]
    · intro leads
      have unfit : ¬ env.order.isSubtype t t = true := fun h => leads (fits.mp h)
      have value : t.isVoid = false := by
        cases t with
        | void => exact absurd TypeOrder.hasLeads_nil leads
        | any | noneType | inst | callable | overloaded | tuple | typeVar | unbound | error => rfl
      rw [if_neg unfit, value]
      rfl
  · intro vars name c base symbol type old own declared function bound seen
    rw [Env.overrideProblems, own]
    dsimp only
    rw [declared, Option.filter_some, if_pos function]
    dsimp only
    rw [bound, seen]
    exact TypeOrder.overrideProblems_self_iff _ _
  · intro a b first second
    rw [TypeOrder.membersAgree_eq, first, second]
    exact equivalent

/-- A method with an alternative for each of two classes. -/
def Ty.chooser : Ty :=
  let alternative (c : ClassId) (name : String) : Signature :=
    .ofFormals [.inst 0 "Base" [], .inst c name []] [.pos, .pos] [some "self", some "x"]
      (.inst c name [])
  .overloaded [alternative 0 "Base", alternative 1 "Derived"]

/-- A class with such a method and one that derives from it. -/
def ClassTable.choosing : ClassTable :=
  ⟨#[⟨"Base", "Base", [], [0],
      .ofList [("m", Symbol.func ⟨"m", "Base.m", some 0, .chooser, false⟩)], [], false⟩,
    ⟨"Derived", "Derived", [⟨0, "Base", []⟩], [1, 0], ∅, [], false⟩]⟩

def Program.choosing : Program := ⟨∅, .choosing, 1, ⟨1, .ofList [(0, Ty.chooser.boundMethod)]⟩⟩

theorem choosing_grounded : (Env.ofProgram .choosing default).order.Grounded where
  bases c base member := by
    match c with
    | 0 | c + 2 => cases member
    | 1 =>
      cases member with
      | head => decide
      | tail _ later => cases later
  fallbacks := by decide +kernel

/-- A method with an alternative for each of two classes does not fit in its own place. -/
theorem chooser_unfit :
    (Env.ofProgram .choosing default).order.isSubtype Ty.chooser.boundMethod Ty.chooser.boundMethod =
        false ∧
    (Env.ofProgram .choosing default).order.isEquivalent Ty.chooser.boundMethod
        Ty.chooser.boundMethod = false ∧
    ((Check.assign [(0, Rules.variableTarget 0 ⟨0, "x", "x", none⟩)] (.known Ty.chooser.boundMethod)
        (.atLine 1)).outcome (.ofProgram .choosing default) (.initial .choosing)).2.diagnostics.length =
        1 ∧
    ((Env.ofProgram .choosing default).overrideProblems .empty "m" 1 .chooser 0).isEmpty = false ∧
    (Env.ofProgram .choosing default).order.membersAgree (some .chooser) (some .chooser) = false := by
  have wf : Ty.chooser.boundMethod.isWellFormed = true := by decide
  obtain ⟨fits, equivalent, assigned, overridden, agree⟩ :=
    meets_itself_iff (.ofProgram .choosing default) Ty.chooser.boundMethod wf
      fun _ _ _ _ _ _ => choosing_grounded.ends _ _
  have unfit : ¬ (Env.ofProgram .choosing default).order.HasLeads Ty.chooser.boundMethod.overloads := by
    rw [← fits]
    decide +kernel
  refine ⟨Bool.eq_false_iff.mpr fun h => unfit (fits.mp h),
    Bool.eq_false_iff.mpr fun h => unfit (equivalent.mp h), ?_, ?_,
    Bool.eq_false_iff.mpr fun h => unfit ((agree _ _ rfl rfl).mp h)⟩
  · rw [(assigned (.initial .choosing) _ 0 ⟨0, "x", "x", none⟩ (.known Ty.chooser.boundMethod)
      (.atLine 1) rfl (fun _ _ form => nomatch form) rfl).2 unfit]
    rfl
  · have reported := overridden .empty "m" 1 0 _ .chooser .chooser rfl rfl rfl rfl rfl
    rw [Bool.eq_false_iff, ne_eq, List.isEmpty_iff, reported]
    exact fun all => unfit (fits.mp (all _ List.mem_cons_self))

end Gradual
