import Gradual.Proofs.CleanResult
import Gradual.Proofs.NamedTargets

/-!
Chained assignment of a placeholder. The last target is assigned the placeholder itself, which fits everywhere
and is recorded with the type of that target. The others are assigned that type instead, so the placeholder fits
them only if the type of the last one does.
-/

namespace Gradual

open Check

variable {env : Env} {s : State}

/-! ### What targets take, one behind another -/

namespace Target

/-- If both targets introduce one variable, the second takes what the first has got. -/
def Agrees (o : TypeOrder) (type : Ty) (k l : Target) : Prop :=
  ∀ v ∈ k.var?, ∀ u ∈ l.var?, u.id = v.id → o.isSubtype type type.stripped = true

/-- What a target needs behind another that was assigned a value of the type. -/
def behind (type : Ty) (k l : Target) : Target :=
  match k.var? with
  | some v => l.given v type.stripped
  | none => l

variable {o : TypeOrder} {type : Ty} {k l m : Target}

theorem takes_behind_iff (takes : k.Takes o type) :
    (k.behind type l).Takes o type ↔ l.Takes o type ∧ k.Agrees o type l := by
  cases k with
  | typed | indexed => exact (and_iff_left fun _ => nofun).symm
  | inferred v =>
    cases l with
    | typed | indexed => exact (and_iff_left fun _ _ _ => nofun).symm
    | inferred u =>
      have agrees : (Target.inferred v).Agrees o type (.inferred u) ↔
          (u.id = v.id → o.isSubtype type type.stripped = true) :=
        ⟨fun h => h v rfl u rfl, by rintro h _ ⟨⟩ _ ⟨⟩; exact h⟩
      rw [agrees]
      by_cases same : u.id = v.id
      · have shown : (Target.inferred v).behind type (.inferred u) = .typed type.stripped := if_pos same
        rw [shown]
        exact ⟨fun fits => ⟨takes, fun _ => fits⟩, fun both => both.2 same⟩
      · have shown : (Target.inferred v).behind type (.inferred u) = .inferred u := if_neg same
        rw [shown]
        exact (and_iff_left fun shared => absurd shared same).symm

theorem agrees_of_fits (fits : o.isSubtype type type.stripped = true) : k.Agrees o type l :=
  fun _ _ _ _ _ => fits

/-- A target that introduces another variable needs what it did. -/
theorem behind_eq_self (apart : ¬ o.isSubtype type type.stripped = true) (agrees : k.Agrees o type l) :
    k.behind type l = l := by
  unfold behind
  cases var : k.var? with
  | none => rfl
  | some v =>
    cases l with
    | typed | indexed => rfl
    | inferred u => exact if_neg fun same => apart (agrees v var u rfl same)

theorem pairwise_behind_iff {ls : List Target} (agrees : ∀ l ∈ ls, k.Agrees o type l) :
    (ls.map (k.behind type)).Pairwise (Agrees o type) ↔ ls.Pairwise (Agrees o type) := by
  by_cases fits : o.isSubtype type type.stripped = true
  · have all (ls : List Target) : ls.Pairwise (Agrees o type) :=
      List.pairwise_of_forall fun _ _ => agrees_of_fits fits
    exact iff_of_true (all _) (all _)
  · have same : ls.map (k.behind type) = ls.map id :=
      List.map_congr_left fun l member => behind_eq_self fits (agrees l member)
    rw [same, List.map_id]

/-- Several targets take the type one after the other. -/
def TakeAll (o : TypeOrder) (type : Ty) (ks : List Target) : Prop :=
  (∀ k ∈ ks, k.Takes o type) ∧ ks.Pairwise (Agrees o type)

theorem takeAll_behind_iff {ls : List Target} (takes : k.Takes o type) :
    TakeAll o type (ls.map (k.behind type)) ↔ TakeAll o type (k :: ls) := by
  have each : (∀ l ∈ ls.map (k.behind type), l.Takes o type) ↔
      (∀ l ∈ ls, l.Takes o type) ∧ ∀ l ∈ ls, k.Agrees o type l := by
    rw [List.forall_mem_map]
    simp only [takes_behind_iff takes, imp_and, forall_and]
  rw [TakeAll, TakeAll, each, List.forall_mem_cons, List.pairwise_cons]
  constructor
  · rintro ⟨⟨taken, agrees⟩, pairs⟩
    exact ⟨⟨takes, taken⟩, agrees, (pairwise_behind_iff agrees).mp pairs⟩
  · rintro ⟨⟨-, taken⟩, agrees, pairs⟩
    exact ⟨⟨taken, agrees⟩, (pairwise_behind_iff agrees).mpr pairs⟩

end Target

/-- Behind another target a name needs what it did, unless it introduces the same variable. -/
theorem Expr.Wants.behind {e f : Expr} {k l : Target} {type : Ty} (other : f.Wants env s l) (first : e.Wants env s k)
    (types : TypeMap) : f.Wants env { s with types, vars := k.giving type s.vars } (k.behind type l) := by
  cases first with
  | fresh defines untyped =>
    have given : f.Wants env { s with vars := s.vars.set _ type.stripped } _ := other.set untyped
    exact given.congr rfl rfl
  | declared | used => exact other.congr rfl rfl

/-! ### The other targets -/

namespace Check

variable {type : Ty} {span : Span}

/-- Assigns one known type to targets, one after the other. -/
def assignEach (targets : List Expr) (type : Ty) (span : Span) : Check Unit := do
  for target in targets do
    assign (target.targets.map Expr.placedTarget) (.known type) span

theorem assignEach_cons {e : Expr} {es : List Expr} (single : e.targets = [e.unwrapped]) :
    (assignEach (e :: es) type span).outcome env s = (do
      assign [e.unwrapped.placedTarget] (.known type) span
      assignEach es type span).outcome env s := by
  unfold assignEach
  rw [List.forIn_cons, single]
  rfl

theorem assignEach_keeps {targets : List Expr} : Keeps Effects.anything (assignEach targets type span) := by
  refine (Keeps.forIn fun t _ => ?_).seq fun _ => .done
  exact (assignTargets_keeps (Expr.Within.targets t.within_anything) Value.known_keeps).yielding

/-- Nothing is reported exactly if each name takes the type, and the type it is given the type again. -/
theorem assignEach_silent_iff {targets : List Expr} {kinds : List Target}
    (wants : List.Forall₂ (fun e k => e.unwrapped.Wants env s k) targets kinds) :
    (assignEach targets type span).Silent env s ↔ Target.TakeAll env.order type kinds := by
  induction targets generalizing s kinds with
  | nil =>
    cases wants
    exact iff_of_true rfl ⟨List.forall_mem_nil _, .nil⟩
  | cons e es ih =>
    obtain ⟨k, ks, first, others, rfl⟩ := List.forall₂_cons_left_iff.mp wants
    rw [Silent, reports, assignEach_cons first.targets]
    by_cases takes : k.Takes env.order type
    · obtain ⟨types, assigned⟩ := assignKnown_clean first takes span
      have behind : List.Forall₂ (fun e l => e.unwrapped.Wants env
          { s with types, vars := k.giving type s.vars } l) es (ks.map (k.behind type)) :=
        List.forall₂_map_right_iff.mpr (others.imp fun _ _ other => other.behind first types)
      have rest := (assigned.silent_bind (f := fun _ => assignEach es type span)).trans (ih behind)
      exact rest.trans (Target.takeAll_behind_iff takes)
    · refine iff_of_false (fun silent => ?_) fun all => takes (List.forall_mem_cons.mp all.1).1
      exact takes ((assignKnown_silent_iff first).mp ((diagnostics_eq_nil_iff assignEach_keeps).mp silent).1)

end Check

/-! ### The last target -/

section Last

variable {value : Expr} {span : Span}

/-- A placeholder is dynamic and recorded so. -/
theorem Expr.placeholder_clean (placeholder : value.unwrapped.kind = .placeholder none) (expected : Option Ty) :
    ∃ types, (value.accept expected).Clean env s .any { s with types } ∧ types[value.id]? = some .any := by
  have bare (expected : Option Ty) :
      value.unwrapped.accept expected = acceptAs value.unwrapped.id (pure .any) expected := by
    generalize value.unwrapped = inner at placeholder
    obtain ⟨id, span, kind⟩ := inner
    obtain rfl : kind = .placeholder none := placeholder
    rfl
  obtain ⟨types, found, t, member, recorded⟩ := accept_clean bare (fun _ _ => .pure) expected
  rw [ite_self] at found
  obtain rfl : t = .any := by simpa using member
  exact ⟨types, found, recorded⟩

/-- The type with which a placeholder is recorded when it has been assigned to a target: that of the target,
unless it stands in parentheses. -/
def Expr.placedType (value : Expr) (k : Target) : Ty := if value.isPlaceholder then k.type?.getD .any else .any

theorem assignOne_bare {want : Ty} {p : Problem} (bare : value.isPlaceholder = true) :
    assignOne (.typed want) value.toValue span p = (do
      store value.id want
      return some want) := by
  obtain ⟨id, span, kind⟩ := value
  unfold Expr.isPlaceholder at bare
  split at bare
  · rename_i shape
    obtain rfl : kind = .placeholder none := shape
    rfl
  · cases bare

/-- A placeholder is assigned to a name without reports. -/
theorem assignPlaceholder_clean {e : Expr} {k : Target} (wants : e.Wants env s k)
    (placeholder : value.unwrapped.kind = .placeholder none) (span : Span) :
    ∃ types, (assign [e.placedTarget] value.toValue span).Clean env s ()
      { s with types, vars := k.giving .any s.vars } ∧ types[value.id]? = some (value.placedType k) := by
  obtain ⟨types, found⟩ := wants.target_clean
  have inferred (expected : Option Ty) : ∃ types', (value.accept expected).Clean env { s with types } .any
      { s with types := types' } ∧ types'[value.id]? = some .any := value.placeholder_clean placeholder expected
  unfold assign
  rw [Expr.placedTarget]
  cases k with
  | typed want =>
    cases bare : value.isPlaceholder with
    | true =>
      refine ⟨types.insert value.id want, found.bind ?_, ?_⟩
      · dsimp only
        rw [assignOne_bare bare]
        exact fun _ => rfl
      · rw [Expr.placedType, bare]
        exact Std.TreeMap.getElem?_insert_self
    | false =>
      obtain ⟨types', accepted, recorded⟩ := inferred (some want)
      refine ⟨types', found.bind ?_, ?_⟩
      · dsimp only
        rw [assignOne_typed_eq bare]
        have compared : (do
            checkSubtype .any want span (.incompatibleAssignment .toVariable) value.operand.call
            return some .any : Check (Option Ty)).Clean env { s with types := types' } (some .any)
              { s with types := types' } := (checkSubtype_clean (TypeOrder.isSubtype_any_left want)).bind .pure
        exact (accepted.bind compared).discard
      · rw [Expr.placedType, bare]
        exact recorded
  | inferred v =>
    have untyped : s.vars.get? v = none := by
      cases wants
      assumption
    obtain ⟨types', accepted, recorded⟩ := inferred none
    refine ⟨types'.insert e.id .any, found.bind ?_, ?_⟩
    · exact accepted.bind (inferTypes_single_clean (s := { s with types := types' }) untyped rfl)
    · have dynamic : value.placedType (.inferred v) = .any := ite_self _
      rw [dynamic, Std.TreeMap.getElem?_insert]
      split
      · rfl
      · exact recorded
  | indexed => cases wants

/-- The type that the other targets are assigned: what is recorded for the value, and dynamic in code that
declares no types. -/
def handedOver (id : NodeId) : Check Ty := do
  if ← isDynamic then return .any else recorded id

theorem handedOver_clean {id : NodeId} {type : Ty} (known : s.types[id]? = some type) :
    (handedOver id).Clean env s (if s.isDynamic then .any else type) s := by
  intro ds
  have found : (handedOver id).outcome env { s with diagnostics := ds } =
      (if s.isDynamic then pure .any else recorded id : Check Ty).outcome env { s with diagnostics := ds } := rfl
  rw [found]
  cases s.isDynamic with
  | true => rfl
  | false =>
    have answer : (recorded id).outcome env { s with diagnostics := ds } =
        (s.types[id]?.getD .any, { s with diagnostics := ds }) := rfl
    rw [known] at answer
    exact answer

theorem outcome_handOver {id : NodeId} (rest : Ty → Check Unit) : (do
      if ← isDynamic then
        let type ← pure Ty.any
        rest type
      else
        let type ← recorded id
        rest type : Check Unit).outcome env s = (handedOver id >>= rest).outcome env s := by
  have handed : (handedOver id).outcome env s =
      (if s.isDynamic then pure .any else recorded id : Check Ty).outcome env s := rfl
  rw [outcome_bind, outcome_bind, handed]
  show (if s.isDynamic = true then _ else _ : Check Unit).outcome env s = _
  cases s.isDynamic <;> rfl

theorem outcome_checkAssign {others : List Expr} {last : Expr} (single : last.targets = [last.unwrapped]) :
    (checkAssign (others ++ [last]) value).outcome env s = (do
      assign [last.unwrapped.placedTarget] value.toValue value.span
      assignEach others (← handedOver value.id) value.span).outcome env s := by
  unfold checkAssign
  rw [List.getLast?_concat, List.dropLast_concat]
  dsimp only
  rw [single]
  exact outcome_handOver fun type => assignEach others type value.span

end Last

theorem Target.takeAll_any {es : List Expr} {ks : List Target} {o : TypeOrder}
    (wants : List.Forall₂ (fun e k => e.unwrapped.Wants env s k) es ks) : Target.TakeAll o .any ks := by
  refine ⟨?_, List.pairwise_of_forall fun _ _ => Target.agrees_of_fits (TypeOrder.isSubtype_any_left _)⟩
  induction wants with
  | nil => exact List.forall_mem_nil _
  | cons first _ ih =>
    refine List.forall_mem_cons.mpr ⟨?_, ih⟩
    cases first with
    | fresh => exact rfl
    | declared | used => exact TypeOrder.isSubtype_any_left _

/-- Chained assignment of a placeholder that is not told its type to names, with or without types. It reports
nothing exactly if the other names take, one after the other, the type that the placeholder is recorded with
behind its assignment to the last one: they do if that is dynamic, because the last name has no type, the
placeholder stands in parentheses or the code declares no types, and otherwise only if the type of the last
name fits theirs and is specific enough for those that have none. -/
theorem placeholder_chain_silent_iff {others : List Expr} {last value : Expr} {kind : Target} {kinds : List Target}
    (placeholder : value.unwrapped.kind = .placeholder none) (wants : last.unwrapped.Wants env s kind)
    (wantsEach : List.Forall₂ (fun e k => e.unwrapped.Wants env s k) others kinds) :
    (checkAssign (others ++ [last]) value).Silent env s ↔
      Target.TakeAll env.order (if s.isDynamic then .any else value.placedType kind) kinds := by
  obtain ⟨types, assigned, recorded⟩ := assignPlaceholder_clean wants placeholder value.span
  let t : State := { s with types, vars := kind.giving .any s.vars }
  let type : Ty := if s.isDynamic then .any else value.placedType kind
  have split : (checkAssign (others ++ [last]) value).Silent env s ↔
      (assignEach others type value.span).Silent env t := by
    rw [Silent, reports, outcome_checkAssign wants.targets]
    exact assigned.silent_bind.trans (handedOver_clean recorded).silent_bind
  have behind : List.Forall₂ (fun e l => e.unwrapped.Wants env t l) others (kinds.map (kind.behind .any)) :=
    List.forall₂_map_right_iff.mpr (wantsEach.imp fun _ _ other => other.behind wants types)
  rw [split, assignEach_silent_iff behind]
  cases kind with
  | typed want =>
    have same : kinds.map ((Target.typed want).behind .any) = kinds := List.map_id kinds
    rw [same]
  | inferred v =>
    -- The last name is dynamic then, and so is the placeholder to the others.
    have dynamic : (if s.isDynamic then .any else value.placedType (.inferred v)) = Ty.any := by
      simp [Expr.placedType, Target.type?]
    rw [show type = .any from dynamic, dynamic]
    exact iff_of_true (Target.takeAll_any behind) (Target.takeAll_any wantsEach)
  | indexed => cases wants

/-- A placeholder is refused by a name in front of one whose type does not fit, and taken by it in front of a name
without a type. -/
theorem placeholder_refused_by_earlier_name :
    let item : Ty := .inst 0 "Item" []
    let box : Ty := .inst 1 "Box" []
    let program : Program :=
      ⟨∅, ⟨#[⟨"Item", "Item", [], [0], ∅, [], false⟩, ⟨"Box", "Box", [], [1], ∅, [], false⟩]⟩, 4,
        ⟨3, .ofList [(0, item), (1, box)]⟩⟩
    let env := Env.ofProgram program default
    let st := State.initial program
    let x : Var := ⟨0, "x", "x", none⟩
    let y : Var := ⟨1, "y", "y", none⟩
    let z : Var := ⟨2, "z", "z", none⟩
    let value : Expr := ⟨3, default, .placeholder none⟩
    ¬ (checkAssign [x.introduction, y.introduction] value).Silent env st ∧
      (checkAssign [x.introduction, z.introduction] value).Silent env st := by
  intro item box program env st x y z value
  have declared {v : Var} {type : Ty} (typed : st.vars.get? v = some type) :
      v.introduction.unwrapped.Wants env st (.typed type) := .declared ⟨_, rfl, rfl, rfl⟩ typed
  have first : List.Forall₂ (fun (e : Expr) k => e.unwrapped.Wants env st k) [x.introduction] [.typed item] :=
    .cons (declared (by with_unfolding_all rfl)) .nil
  have apart : env.order.isSubtype box item = false := by decide +kernel
  constructor
  · have last : y.introduction.unwrapped.Wants env st (.typed box) := declared (by with_unfolding_all rfl)
    have chain : (checkAssign ([x.introduction] ++ [y.introduction]) value).Silent env st ↔ _ :=
      placeholder_chain_silent_iff rfl last first
    intro silent
    have taken := chain.mp silent
    have fits : env.order.isSubtype box item = true := taken.1 _ (List.mem_singleton.mpr rfl)
    exact Bool.false_ne_true (apart.symm.trans fits)
  · have untyped : z.introduction.unwrapped.Wants env st (.inferred z) := .fresh ⟨_, rfl, rfl, rfl⟩ rfl
    have chain : (checkAssign ([x.introduction] ++ [z.introduction]) value).Silent env st ↔ _ :=
      placeholder_chain_silent_iff rfl untyped first
    exact chain.mpr (Target.takeAll_any first)

end Gradual
