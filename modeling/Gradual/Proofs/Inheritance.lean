import Gradual.Checker.Module
import Gradual.Proofs.Outcome
import Gradual.Proofs.Steps
import Gradual.Proofs.Subtyping

/-!
Names that a class inherits from two of the classes that it derives from. The two declarations are
compared as they stand in the bodies of those classes: what the class gives for their type variables
is not put in, so where the bases are generic the comparison is not that of what is inherited.
-/

namespace Gradual

namespace TypeOrder

variable {o : TypeOrder} {f t a b : Ty}

theorem isSubtype_of_settled {l r : Ty} {b : Bool} (settled : o.question l r = .settled b) :
    o.isSubtype l r = b := by
  obtain ⟨steps, enough⟩ := Nat.exists_eq_add_one.mpr (o.budget_pos l r)
  rw [isSubtype, subtype?, enough, subtypeWithin_succ, settled]
  rfl

theorem isEquivalent_comm (s t : Ty) : o.isEquivalent s t = o.isEquivalent t s := Bool.and_comm _ _

theorem subtypeWithin_ne_of_settled {l r : Ty} (settled : o.question l r = .settled false)
    (steps : Nat) : o.subtypeWithin steps l r ≠ some true := by
  cases steps with
  | zero => exact nofun
  | succ steps =>
    rw [subtypeWithin_succ, settled]
    exact nofun

/-- Alternatives none of which fits do not fit together. -/
theorem isSubtype_overloaded_left {items : List Signature}
    (asked : o.question (.overloaded items) t = .oneOf items t)
    (settled : ∀ s ∈ items, o.question (.callable s) t = .settled false) :
    o.isSubtype (.overloaded items) t = false := by
  rw [Bool.eq_false_iff]
  intro fits
  obtain ⟨steps, enough⟩ := Nat.exists_eq_add_one.mpr (o.budget_pos (.overloaded items) t)
  have answer := subtype?_of_isSubtype fits
  rw [subtype?, enough, subtypeWithin_succ, asked] at answer
  obtain ⟨s, member, found⟩ := exists_of_anyM_eq_some_true answer
  exact subtypeWithin_ne_of_settled (settled s member) steps found

/-- Nothing fits where several alternatives are expected unless it fits each. -/
theorem isSubtype_overloaded_right {items : List Signature}
    (asked : o.question t (.overloaded items) = .eachOf t items)
    {s : Signature} (member : s ∈ items) (settled : o.question t (.callable s) = .settled false) :
    o.isSubtype t (.overloaded items) = false := by
  rw [Bool.eq_false_iff]
  intro fits
  obtain ⟨steps, enough⟩ := Nat.exists_eq_add_one.mpr (o.budget_pos t (.overloaded items))
  have answer := subtype?_of_isSubtype fits
  rw [subtype?, enough, subtypeWithin_succ, asked] at answer
  exact subtypeWithin_ne_of_settled settled steps (allM_eq_some_true_iff.mp answer s member)

/-- No function is equivalent to anything but functions and what is dynamic. -/
theorem isEquivalent_function_other (function : f.isFunctionLike = true)
    (other : t.isFunctionLike = false) : o.isEquivalent f t = t.isDynamic := by
  have left (h : o.isSubtype f t = false) : o.isEquivalent f t = false := by
    rw [isEquivalent, h, Bool.false_and]
  have right (h : o.isSubtype t f = false) : o.isEquivalent f t = false := by
    rw [isEquivalent, h, Bool.and_false]
  have dynamic (h : t.isDynamic = true) : o.isEquivalent f t = true := by
    have there : o.question f t = .settled true := if_pos (by rw [h, Bool.or_true])
    have back : o.question t f = .settled true := if_pos (by rw [h, Bool.true_or])
    rw [isEquivalent, isSubtype_of_settled there, isSubtype_of_settled back]
    rfl
  cases f with
  | callable s =>
    cases t with
    | any | unbound | error => exact dynamic rfl
    | void | noneType | tuple | typeVar => exact left (isSubtype_of_settled rfl)
    | inst => exact right (isSubtype_of_settled rfl)
    | callable | overloaded => cases other
  | overloaded items =>
    cases t with
    | any | unbound | error => exact dynamic rfl
    | void | typeVar => exact left (isSubtype_of_settled rfl)
    | noneType | tuple => exact left (isSubtype_overloaded_left rfl fun _ _ => rfl)
    | inst =>
      -- The alternatives may all count as the instance, but it is none of them.
      cases items with
      | nil => exact left (isSubtype_overloaded_left rfl nofun)
      | cons s ss => exact right (isSubtype_overloaded_right rfl List.mem_cons_self rfl)
    | callable | overloaded => cases other
  | any | void | noneType | inst | tuple | typeVar | unbound | error => cases function

theorem isFunctionLike_boundMethod (a : Ty) : a.boundMethod.isFunctionLike = a.isFunctionLike := by
  cases a <;> rfl

theorem boundMethod_of_not_isFunctionLike (h : a.isFunctionLike = false) : a.boundMethod = a := by
  cases a <;> first | rfl | cases h

/-- Two declarations agree if they are equivalent without receivers. -/
theorem membersAgree_eq (a b : Ty) :
    o.membersAgree (some a) (some b) = o.isEquivalent a.boundMethod b.boundMethod := by
  rw [membersAgree]
  cases left : a.isFunctionLike with
  | true =>
    cases right : b.isFunctionLike with
    | true => rfl
    | false =>
      have bound : a.boundMethod.isFunctionLike = true := (isFunctionLike_boundMethod a).trans left
      rw [boundMethod_of_not_isFunctionLike right, isEquivalent_function_other bound right]
      exact isEquivalent_function_other left right
  | false =>
    cases right : b.isFunctionLike with
    | true =>
      have bound : b.boundMethod.isFunctionLike = true := (isFunctionLike_boundMethod b).trans right
      rw [boundMethod_of_not_isFunctionLike left, isEquivalent_comm, isEquivalent_comm a,
        isEquivalent_function_other bound left]
      exact isEquivalent_function_other right left
    | false =>
      rw [boundMethod_of_not_isFunctionLike left, boundMethod_of_not_isFunctionLike right]
      rfl

end TypeOrder

/-! ### Which names are compared -/

namespace Env

variable {env : Env} {c : ClassId}

/-- Two classes of a lookup order are compared by each name that both declare and that is not
exempt. -/
theorem mem_sharedNames_iff {isExempt : String → Bool} {cs : List ClassId} {name : String}
    {first second : ClassId} :
    (name, first, second) ∈ env.sharedNames isExempt cs ↔
      isExempt name = false ∧ (env.classes.own? first name).isSome = true ∧
        (env.classes.own? second name).isSome = true ∧ [first, second].Sublist cs := by
  induction cs with
  | nil => simp [sharedNames]
  | cons d ds ih =>
    have here : (name, first, second) ∈
        (((env.classes.info d).names.keys.filter (!isExempt ·)).flatMap fun name =>
          (ds.filter fun c => (env.classes.own? c name).isSome).map fun second => (name, d, second)) ↔
        first = d ∧ isExempt name = false ∧ (env.classes.own? first name).isSome = true ∧
          (env.classes.own? second name).isSome = true ∧ second ∈ ds := by
      have declared (name : String) :
          name ∈ (env.classes.info d).names ↔ (env.classes.own? d name).isSome = true := by
        simp [ClassTable.own?]
      simp only [List.mem_flatMap, List.mem_filter, List.mem_map, Std.TreeMap.mem_keys, declared,
        Bool.not_eq_true', Prod.mk.injEq]
      constructor
      · rintro ⟨_, ⟨one, exempt⟩, _, ⟨later, two⟩, rfl, rfl, rfl⟩
        exact ⟨rfl, exempt, one, two, later⟩
      · rintro ⟨rfl, exempt, one, two, later⟩
        exact ⟨name, ⟨one, exempt⟩, second, ⟨later, two⟩, rfl, rfl, rfl⟩
    rw [sharedNames, List.mem_append, here, ih, List.sublist_cons_iff]
    constructor
    · rintro (⟨rfl, exempt, one, two, later⟩ | ⟨exempt, one, two, later⟩)
      · exact ⟨exempt, one, two, .inr ⟨[second], rfl, List.singleton_sublist.mpr later⟩⟩
      · exact ⟨exempt, one, two, .inl later⟩
    · rintro ⟨exempt, one, two, later | ⟨rest, same, later⟩⟩
      · exact .inr ⟨exempt, one, two, later⟩
      · cases same
        exact .inl ⟨rfl, exempt, one, two, List.singleton_sublist.mp later⟩

theorem own?_isSome_of_declaredType? {vars : VarTypes} {name : String} {t : Ty}
    (declared : env.declaredType? vars c name = some t) :
    (env.classes.own? c name).isSome = true := by
  obtain ⟨symbol, own, -⟩ := Option.bind_eq_some_iff.mp declared
  exact Option.isSome_of_eq_some own

/-- Two declarations of a name are in conflict if their types are known and not equivalent as they
stand. -/
theorem mem_conflicts_iff {vars : VarTypes} {name : String} {first second : ClassId} :
    (name, first, second) ∈ env.conflicts vars c ↔
      1 < (env.classes.bases c).length ∧ name ≠ "__init__" ∧ env.classes.own? c name = none ∧
        [first, second].Sublist (env.classes.mro c).tail ∧
        ∃ a b, env.declaredType? vars first name = some a ∧
          env.declaredType? vars second name = some b ∧
          env.order.isEquivalent a.boundMethod b.boundMethod = false := by
  have several : 1 < (env.classes.bases c).length ↔ ¬ (env.classes.info c).bases.length ≤ 1 :=
    Nat.not_le.symm
  have own : (env.classes.info c).names.contains name = false ↔ env.classes.own? c name = none := by
    rw [Bool.eq_false_iff, ne_eq, Std.TreeMap.contains_iff_mem]
    simp [ClassTable.own?]
  have exempt : (name == "__init__" || (env.classes.info c).names.contains name) = false ↔
      name ≠ "__init__" ∧ env.classes.own? c name = none := by
    rw [Bool.or_eq_false_iff, own, beq_eq_false_iff_ne]
  have disagree : (!env.order.membersAgree (env.declaredType? vars first name)
      (env.declaredType? vars second name)) = true ↔
      ∃ a b, env.declaredType? vars first name = some a ∧ env.declaredType? vars second name = some b ∧
        env.order.isEquivalent a.boundMethod b.boundMethod = false := by
    cases env.declaredType? vars first name with
    | none => simp [TypeOrder.membersAgree]
    | some a =>
      cases env.declaredType? vars second name with
      | none => simp [TypeOrder.membersAgree]
      | some b =>
        rw [TypeOrder.membersAgree_eq]
        simp
  rw [conflicts, several]
  dsimp only
  by_cases few : (env.classes.info c).bases.length ≤ 1
  · simp [few]
  · rw [if_neg few, List.mem_filter, mem_sharedNames_iff, exempt]
    dsimp only
    rw [disagree]
    constructor
    · rintro ⟨⟨⟨ordinary, inherited⟩, -, -, order⟩, unequal⟩
      exact ⟨few, ordinary, inherited, order, unequal⟩
    · rintro ⟨-, ordinary, inherited, order, a, b, one, two, unequal⟩
      exact ⟨⟨⟨ordinary, inherited⟩, own?_isSome_of_declaredType? one, own?_isSome_of_declaredType? two,
        order⟩, a, b, one, two, unequal⟩

end Env

/-! ### What is reported -/

namespace Check

variable (env : Env) (s : State)

/-- A report changes the diagnostics and nothing else. -/
theorem outcome_report_adds (p : Problem) (span : Span) :
    ∃ ds, (report p span).outcome env s = ((), { s with diagnostics := ds }) ∧
      ∀ d, d ∈ ds ↔ d ∈ s.diagnostics ∨ d = diagnostic env s.file s.scope p span := by
  rw [outcome_report]
  by_cases known : diagnostic env s.file s.scope p span ∈ s.diagnostics
  · rw [if_pos known]
    exact ⟨s.diagnostics, rfl, fun d => ⟨.inl, fun h => h.elim id fun same => same ▸ known⟩⟩
  · rw [if_neg known]
    exact ⟨_, rfl, fun d => by rw [List.mem_append, List.mem_singleton]⟩

/-- So does a loop that makes a report for each member of a list. -/
theorem outcome_reports_add {α : Type} (problem : α → Problem) (span : Span) (xs : List α) :
    ∃ ds, (forIn xs PUnit.unit fun x _ => do
        report (problem x) span
        pure (ForInStep.yield PUnit.unit)).outcome env s =
          (PUnit.unit, { s with diagnostics := ds }) ∧
      ∀ d, d ∈ ds ↔ d ∈ s.diagnostics ∨
        ∃ x ∈ xs, d = diagnostic env s.file s.scope (problem x) span := by
  induction xs generalizing s with
  | nil => exact ⟨s.diagnostics, rfl, by simp⟩
  | cons x xs ih =>
    obtain ⟨first, reported, new⟩ := outcome_report_adds env s (problem x) span
    obtain ⟨ds, others, added⟩ := ih { s with diagnostics := first }
    refine ⟨ds, ?_, fun d => ?_⟩
    · rw [List.forIn_cons, outcome_bind, outcome_bind, reported]
      exact others
    · simp only [added, new, List.mem_cons, exists_eq_or_imp, or_assoc]

theorem outcome_checkInherited (c : ClassId) (span : Span) :
    ∃ ds, (checkInherited c span).outcome env s = ((), { s with diagnostics := ds }) ∧
      ∀ d, d ∈ ds ↔ d ∈ s.diagnostics ∨ ∃ x ∈ env.conflicts s.vars c,
        d = diagnostic env s.file s.scope (.conflictingBases x.1 (env.classes.info x.2.1).name
          (env.classes.info x.2.2).name) span := by
  obtain ⟨ds, reported, new⟩ := outcome_reports_add env s
    (fun x => .conflictingBases x.1 (env.classes.info x.2.1).name (env.classes.info x.2.2).name) span
    (env.conflicts s.vars c)
  refine ⟨ds, ?_, new⟩
  unfold checkInherited
  rw [outcome_bind, outcome_read]
  dsimp only
  rw [outcome_bind, outcome_get]
  dsimp only
  rw [outcome_bind, reported]
  rfl

end Check

namespace Env

/-- A base without type arguments leaves the types of its body as they are. -/
theorem fromSupertype_of_plain {env : Env} {sub sup : ClassId} {i : Instance}
    (seen : env.classes.view? (env.selfInstance sub) sup = some i) (plain : i.args = []) (type : Ty) :
    env.fromSupertype type sub sup = type := by
  rw [fromSupertype, seen]
  dsimp only
  rw [plain]
  rfl

end Env

/-- A class with several bases reports exactly the names that two classes behind it declare with
known types that are not equivalent, without receivers, as they stand in the bodies of the two
classes. Where the class gives no type arguments to the two, that is what it inherits from them. -/
theorem inherited_names_compared_as_declared (env : Env) (s : State) (c : ClassId) (span : Span) :
    (∀ d, d ∈ ((Check.checkInherited c span).outcome env s).2.diagnostics ↔
      d ∈ s.diagnostics ∨ ∃ x ∈ env.conflicts s.vars c,
        d = Check.diagnostic env s.file s.scope (.conflictingBases x.1
          (env.classes.info x.2.1).name (env.classes.info x.2.2).name) span) ∧
    ∀ (name : String) (first second : ClassId),
      ((name, first, second) ∈ env.conflicts s.vars c ↔
        1 < (env.classes.bases c).length ∧ name ≠ "__init__" ∧ env.classes.own? c name = none ∧
          [first, second].Sublist (env.classes.mro c).tail ∧
          ∃ a b, env.declaredType? s.vars first name = some a ∧
            env.declaredType? s.vars second name = some b ∧
            env.order.isEquivalent a.boundMethod b.boundMethod = false) ∧
      ∀ i j : Instance, env.classes.view? (env.selfInstance c) first = some i →
        env.classes.view? (env.selfInstance c) second = some j → i.args = [] → j.args = [] →
        ∀ a b : Ty, env.order.isEquivalent (env.fromSupertype a.boundMethod c first)
            (env.fromSupertype b.boundMethod c second) =
          env.order.isEquivalent a.boundMethod b.boundMethod := by
  constructor
  · intro d
    obtain ⟨ds, reported, new⟩ := Check.outcome_checkInherited env s c span
    rw [reported]
    exact new d
  · refine fun name first second => ⟨Env.mem_conflicts_iff, fun i j left right plain plain' a b => ?_⟩
    rw [Env.fromSupertype_of_plain left plain, Env.fromSupertype_of_plain right plain']

/-- A generic class, in two versions, whose method answers an instance of its type argument; a class
that derives from both with different type arguments; one that overrides the method for one type
argument; and one that derives from that and another class. -/
def ClassTable.sources : ClassTable :=
  let item : Ty := .typeVar (.plain "T" 1 (.unbound "builtins.object"))
  let get (owner : ClassId) (fullName : String) (receiver : List Ty) (answer : Ty) : Symbol :=
    .func ⟨"get", fullName ++ ".get", some owner,
      .callable (.ofFormals [.inst owner fullName receiver] [.pos] [some "self"] answer), false⟩
  ⟨#[⟨"Num", "Num", [], [0], ∅, [], false⟩,
    ⟨"Text", "Text", [], [1], ∅, [], false⟩,
    ⟨"Source", "Source", [], [2], .ofList [("get", get 2 "Source" [item] item)], ["T"], false⟩,
    ⟨"Feed", "Feed", [], [3], .ofList [("get", get 3 "Feed" [item] item)], ["T"], false⟩,
    ⟨"Both", "Both", [⟨2, "Source", [.inst 0 "Num" []]⟩, ⟨3, "Feed", [.inst 1 "Text" []]⟩], [4, 2, 3],
      ∅, [], false⟩,
    ⟨"Counter", "Counter", [⟨2, "Source", [.inst 0 "Num" []]⟩], [5, 2],
      .ofList [("get", get 5 "Counter" [] (.inst 0 "Num" []))], [], false⟩,
    ⟨"Mixed", "Mixed", [⟨5, "Counter", []⟩, ⟨1, "Text", []⟩], [6, 5, 2, 1], ∅, [], false⟩]⟩

def Program.sources : Program := ⟨∅, .sources, 1, ⟨0, ∅⟩⟩

/-- What a class inherits from two bases can differ without a report, and a method that overrides
one of a generic class correctly can be reported. -/
theorem sources_compared_as_declared :
    let env := Env.ofProgram .sources default
    let inherited (c sup : ClassId) (type : Ty) : Ty := env.fromSupertype type.boundMethod c sup
    ("get", 2, 3) ∉ env.conflicts .empty 4 ∧
      (env.declaredType? .empty 2 "get").any (fun a => (env.declaredType? .empty 3 "get").any fun b =>
        !env.order.isEquivalent (inherited 4 2 a) (inherited 4 3 b)) = true ∧
    ("get", 5, 2) ∈ env.conflicts .empty 6 ∧
      (env.declaredType? .empty 5 "get").any (fun a => (env.declaredType? .empty 2 "get").any fun b =>
        env.order.isEquivalent (inherited 6 5 a) (inherited 6 2 b)) = true := by
  intro env inherited
  obtain ⟨-, missed⟩ := inherited_names_compared_as_declared env (.initial .sources) 4 (.atLine 1)
  obtain ⟨-, invented⟩ := inherited_names_compared_as_declared env (.initial .sources) 6 (.atLine 1)
  refine ⟨fun listed => ?_, by decide +kernel, (invented "get" 5 2).1.mpr ?_, by decide +kernel⟩
  · obtain ⟨-, -, -, -, a, b, one, two, unequal⟩ := (missed "get" 2 3).1.mp listed
    cases one
    cases two
    revert unequal
    decide +kernel
  · exact ⟨by decide, by decide, rfl, by decide, _, _, rfl, rfl, by decide +kernel⟩

end Gradual
