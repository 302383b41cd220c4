import Gradual.Proofs.Termination
import Gradual.Ty.WellFormed

/-!
When a type is a subtype of itself.
-/

namespace Gradual

/-! ### What a signature takes of its own -/

section Lookup

variable {α : Type}

/-- Behind the members kept before it, a member that is kept stands at its place. -/
theorem getElem?_filter_of_kept {xs : List α} {p : α → Bool} {j : Nat} {x : α}
    (found : xs[j]? = some x) (kept : p x = true) :
    (xs.filter p)[(xs.take j).countP p]? = some x := by
  induction xs generalizing j with
  | nil => cases found
  | cons y ys ih =>
    cases j with
    | zero =>
      cases found
      simp [kept]
    | succ j =>
      have later := ih found
      cases first : p y with
      | true => simpa [first] using later
      | false => simpa [first] using later

end Lookup

namespace WellFormedFormals

variable {s : Signature}

theorem typeOfName?_eq (wf : WellFormedFormals s.argTypes.length s.argKinds s.argNames)
    {name : String} {j : Nat} {t : Ty} (names : s.argNames[j]? = some (some name))
    (types : s.argTypes[j]? = some t) : s.typeOfName? (some name) = some t := by
  have member : (some name, t) ∈ s.argNames.zip s.argTypes :=
    List.mem_of_getElem? (List.getElem?_zip_eq_some.mpr ⟨names, types⟩)
  have keys : (s.argNames.zip s.argTypes).map (·.1) = s.argNames :=
    List.map_fst_zip (Nat.le_of_eq wf.length_names)
  have once : s.argNames.count (some name) ≤ 1 :=
    wf.distinct _ (List.mem_of_getElem? names) rfl
  rw [Signature.typeOfName?, find?_eq_of_count_le_one member (by rw [keys]; exact once)]
  rfl

/-- The fixed formals before a fixed formal are taken off when it is its turn. -/
theorem fixedTypes_getElem? (wf : WellFormedFormals s.argTypes.length s.argKinds s.argNames)
    {j : Nat} {kind : ArgKind} {t : Ty} (fixed : kind.isFixed = true)
    (kinds : s.argKinds[j]? = some kind) (types : s.argTypes[j]? = some t) :
    s.fixedTypes[((s.argKinds.zip s.argNames).take j).countP (·.1.isFixed)]? = some t := by
  have found : (s.argKinds.zip s.argTypes)[j]? = some (kind, t) :=
    List.getElem?_zip_eq_some.mpr ⟨kinds, types⟩
  have before : ((s.argKinds.zip s.argNames).take j).countP (·.1.isFixed) =
      ((s.argKinds.zip s.argTypes).take j).countP (·.1.isFixed) := by
    have keys (ps : List (ArgKind × Option String)) :
        ps.countP (·.1.isFixed) = (ps.map (·.1)).countP ArgKind.isFixed := by
      rw [List.countP_map]
      rfl
    have entries (ps : List (ArgKind × Ty)) :
        ps.countP (·.1.isFixed) = (ps.map (·.1)).countP ArgKind.isFixed := by
      rw [List.countP_map]
      rfl
    rw [keys, entries, List.map_take, List.map_take,
      List.map_fst_zip (Nat.le_of_eq (wf.length_kinds.trans wf.length_names.symm)),
      List.map_fst_zip (Nat.le_of_eq wf.length_kinds)]
  rw [Signature.fixedTypes, List.getElem?_map, before, getElem?_filter_of_kept found fixed]
  rfl

/-- Each formal takes its own argument. -/
theorem takers_self (wf : WellFormedFormals s.argTypes.length s.argKinds s.argNames) :
    s.takers s = s.argTypes.map some := by
  apply List.ext_getElem?
  intro j
  rw [Signature.takers, Signature.getElem?_takersFrom, List.getElem?_map]
  by_cases inside : j < s.argTypes.length
  · obtain ⟨t, types⟩ : ∃ t, s.argTypes[j]? = some t := ⟨_, List.getElem?_eq_getElem inside⟩
    obtain ⟨kind, kinds⟩ : ∃ kind, s.argKinds[j]? = some kind :=
      ⟨_, List.getElem?_eq_getElem (by rw [wf.length_kinds]; exact inside)⟩
    obtain ⟨name, names⟩ : ∃ name, s.argNames[j]? = some name :=
      ⟨_, List.getElem?_eq_getElem (by rw [wf.length_names]; exact inside)⟩
    have pair : (s.argKinds.zip s.argNames)[j]? = some (kind, name) :=
      List.getElem?_zip_eq_some.mpr ⟨kinds, names⟩
    rw [pair, types, Option.map_some, Option.map_some]
    congr 1
    cases kind with
    | pos | opt =>
      rw [Signature.taker?, wf.fixedTypes_getElem? rfl kinds types, Option.some_or]
    | star => exact Signature.typeOfKind?_eq (Nat.le_of_eq wf.length_kinds) wf.oneStar kinds types
    | star2 => exact Signature.typeOfKind?_eq (Nat.le_of_eq wf.length_kinds) wf.oneStar2 kinds types
    | named =>
      have given := wf.named _ (List.mem_of_getElem? pair) rfl
      obtain ⟨name, rfl⟩ := Option.isSome_iff_exists.mp given
      rw [Signature.taker?, wf.typeOfName?_eq names types, Option.some_or]
  · have outside := Nat.le_of_not_lt inside
    have types : s.argTypes[j]? = none := List.getElem?_eq_none outside
    have pair : (s.argKinds.zip s.argNames)[j]? = none := by
      apply List.getElem?_eq_none
      rw [List.length_zip, wf.length_kinds, wf.length_names, Nat.min_self]
      exact outside
    rw [pair, types]
    rfl

end WellFormedFormals

/-! ### Overloaded types inside a type -/

mutual

/-- The alternatives of each overloaded type that is met when a type is compared with itself. A
signature that quantifies type variables is compared without them. -/
def Ty.overloads : Ty → List (List Signature)
  | .any | .void | .noneType | .typeVar _ | .unbound _ | .error => []
  | .inst _ _ args => overloadsEach args
  | .callable s => s.overloads
  | .overloaded items => [items]
  | .tuple items => overloadsEach items

def Signature.overloads : Signature → List (List Signature)
  | ⟨argTypes, _, _, ret, quantified, _, _, _⟩ =>
    let inside := ret.overloads ++ overloadsEach argTypes
    if quantified.isEmpty then inside else inside.map (·.map Signature.erased)

def overloadsEach : List Ty → List (List Signature)
  | [] => []
  | t :: ts => t.overloads ++ overloadsEach ts

end

theorem overloadsEach_eq_flatMap (ts : List Ty) : overloadsEach ts = ts.flatMap Ty.overloads := by
  induction ts with
  | nil => rfl
  | cons t ts ih => rw [overloadsEach, ih, List.flatMap_cons]

section Erasure

mutual

theorem Ty.substitute_erase (f : Substitution) : (t : Ty) → t.erase.substitute f = t.erase
  | .any | .void | .noneType | .unbound _ | .error | .typeVar _ => rfl
  | .inst c n args => congrArg (Ty.inst c n) (Ty.substituteEach_erase f args)
  | .callable s => congrArg Ty.callable (Signature.substitute_erased f s)
  | .overloaded items => congrArg Ty.overloaded (Signature.substituteEach_erased f items)
  | .tuple items => congrArg Ty.tuple (Ty.substituteEach_erase f items)

theorem Ty.substituteEach_erase (f : Substitution) : (ts : List Ty) →
    Ty.substituteEach f (Ty.substituteEach (fun _ => some .any) ts) =
      Ty.substituteEach (fun _ => some .any) ts
  | [] => rfl
  | t :: ts => by
    have first : (t.substitute fun _ => some .any).substitute f = t.substitute fun _ => some .any :=
      Ty.substitute_erase f t
    rw [Ty.substituteEach, Ty.substituteEach, first, Ty.substituteEach_erase f ts]

theorem Signature.substitute_erased (f : Substitution) :
    (s : Signature) → Ty.substituteSignature f s.erased = s.erased
  | ⟨argTypes, _, _, ret, quantified, _, _, _⟩ => by
    have args := Ty.substituteEach_erase f argTypes
    have result : ret.erase.substitute f = ret.erase := Ty.substitute_erase f ret
    unfold Ty.erase at result
    simp [Signature.erased, Ty.substituteSignature, args, result]

theorem Signature.substituteEach_erased (f : Substitution) : (ss : List Signature) →
    Ty.substituteSignatures f (Ty.substituteSignatures (fun _ => some .any) ss) =
      Ty.substituteSignatures (fun _ => some .any) ss
  | [] => rfl
  | s :: ss => by
    have first : Ty.substituteSignature f (Ty.substituteSignature (fun _ => some .any) s) =
        Ty.substituteSignature (fun _ => some .any) s := Signature.substitute_erased f s
    rw [Ty.substituteSignatures, Ty.substituteSignatures, first, Signature.substituteEach_erased f ss]

end

theorem Signature.erased_erased (s : Signature) : s.erased.erased = s.erased :=
  Signature.substitute_erased _ s

theorem Signature.quantified_erased (s : Signature) : s.erased.quantified = [] := by
  cases s
  simp [Signature.erased, Ty.substituteSignature]

/-- Without its type variables a signature is as well formed as it was. -/
theorem Signature.isWellFormed_erased {s : Signature} (wf : s.isWellFormed = true) :
    s.erased.isWellFormed = true :=
  Signature.isWellFormed_substitute (fun _ _ replaced => Option.some.inj replaced ▸ rfl) s wf

theorem erase_overloads_twice (os : List (List Signature)) :
    (os.map (·.map Signature.erased)).map (·.map Signature.erased) =
      os.map (·.map Signature.erased) := by
  simp [Function.comp_def, Signature.erased_erased]

mutual

theorem Ty.overloads_erase : (t : Ty) → t.erase.overloads = t.overloads.map (·.map Signature.erased)
  | .any | .void | .noneType | .unbound _ | .error | .typeVar _ => rfl
  | .inst _ _ args => overloadsEach_erase args
  | .callable s => Signature.overloads_erased s
  | .overloaded items => congrArg (fun items => [items]) (Ty.substituteSignatures_eq_map _ items)
  | .tuple items => overloadsEach_erase items

theorem Signature.overloads_erased :
    (s : Signature) → s.erased.overloads = s.overloads.map (·.map Signature.erased)
  | ⟨argTypes, kinds, names, ret, quantified, constructs, name, implicit⟩ => by
    have args := overloadsEach_erase argTypes
    have result := Ty.overloads_erase ret
    unfold Ty.erase at result
    have inside : (Ty.substitute (fun _ => some Ty.any) ret).overloads ++
        overloadsEach (Ty.substituteEach (fun _ => some Ty.any) argTypes) =
        (ret.overloads ++ overloadsEach argTypes).map (·.map Signature.erased) := by
      rw [args, result, List.map_append]
    have plain : (Signature.erased
        ⟨argTypes, kinds, names, ret, quantified, constructs, name, implicit⟩).overloads =
        (Ty.substitute (fun _ => some Ty.any) ret).overloads ++
          overloadsEach (Ty.substituteEach (fun _ => some Ty.any) argTypes) := by
      simp [Signature.erased, Ty.substituteSignature, Signature.overloads]
    rw [plain, inside]
    cases quantified with
    | nil => rfl
    | cons => exact (erase_overloads_twice _).symm

theorem overloadsEach_erase : (ts : List Ty) →
    overloadsEach (Ty.substituteEach (fun _ => some .any) ts) =
      (overloadsEach ts).map (·.map Signature.erased)
  | [] => rfl
  | t :: ts => by
    rw [Ty.substituteEach, overloadsEach, overloadsEach, List.map_append, ← overloadsEach_erase ts,
      ← Ty.overloads_erase t]
    rfl

end

end Erasure

/-! ### Comparing a type with itself -/

namespace TypeOrder

variable {o : TypeOrder} {le : Ty → Ty → Option Bool}

/-- In each list one alternative fits wherever any of them is expected. -/
def HasLeads (o : TypeOrder) (os : List (List Signature)) : Prop :=
  ∀ items ∈ os, ∃ s ∈ items, ∀ u ∈ items, o.isSubtype (.callable s) (.callable u) = true

/-- The comparisons of the alternatives in each list come to an end. -/
def EndAmong (o : TypeOrder) (os : List (List Signature)) : Prop :=
  ∀ items ∈ os, ∀ s ∈ items, ∀ u ∈ items, o.Ends (.callable s) (.callable u)

theorem hasLeads_nil : o.HasLeads [] := fun _ member => absurd member List.not_mem_nil

theorem hasLeads_overloadsEach {ts : List Ty} :
    o.HasLeads (overloadsEach ts) ↔ ∀ t ∈ ts, o.HasLeads t.overloads := by
  rw [overloadsEach_eq_flatMap, HasLeads, List.forall_mem_flatMap]
  rfl

theorem endAmong_overloadsEach {ts : List Ty} :
    o.EndAmong (overloadsEach ts) ↔ ∀ t ∈ ts, o.EndAmong t.overloads := by
  rw [overloadsEach_eq_flatMap, EndAmong, List.forall_mem_flatMap]
  rfl

theorem zip_self (ts : List Ty) : ts.zip ts = ts.map fun t => (t, t) := by
  simpa using List.zip_map' (f := id) (g := id) (l := ts)

theorem argsLe_self_iff {ts : List Ty} :
    argsLe le ts ts = some true ↔ ∀ t ∈ ts, le t t = some true := by
  rw [argsLe, allM_eq_some_true_iff, zip_self, List.forall_mem_map]

/-- A signature fits in its own place where its parts do. -/
theorem plainSignatureLe_self_iff {s : Signature}
    (wf : WellFormedFormals s.argTypes.length s.argKinds s.argNames) :
    plainSignatureLe le s s = some true ↔
      le s.ret s.ret = some true ∧ ∀ t ∈ s.argTypes, le t t = some true := by
  have pairs : s.argTypes.zip (s.takers s) = s.argTypes.map fun t => (t, some t) := by
    rw [wf.takers_self]
    simpa using List.zip_map' (f := id) (g := some) (l := s.argTypes)
  rw [plainSignatureLe_eq_some_true_iff]
  constructor
  · intro fits
    refine ⟨fits.ret, fun t member => ?_⟩
    have own : (t, some t) ∈ s.argTypes.zip (s.takers s) := by
      rw [pairs]
      exact List.mem_map_of_mem member
    obtain ⟨taker, same, taken⟩ := fits.formals _ own
    cases same
    exact taken
  · rintro ⟨ret, args⟩
    refine ⟨id, ret, by simp [Signature.countsFit], fun p member => ?_⟩
    rw [pairs] at member
    obtain ⟨t, listed, rfl⟩ := List.mem_map.mp member
    exact ⟨t, rfl, args t listed⟩

/-- A way to compare types that answers, for well-formed types of some nesting, that a type fits in
its own place exactly if each overloaded type in it has an alternative in the lead. -/
def ReflexiveBelow (o : TypeOrder) (le : Ty → Ty → Option Bool) (height : Nat) : Prop :=
  ∀ t : Ty, t.isWellFormed = true → o.EndAmong t.overloads → t.depth o.height < height →
    (le t t = some true ↔ o.HasLeads t.overloads)

namespace ReflexiveBelow

variable {height : Nat}

theorem each (reflexive : o.ReflexiveBelow le height) {ts : List Ty} (wf : areWellFormed ts = true)
    (ends : o.EndAmong (overloadsEach ts)) (low : depthEach o.height ts < height) :
    (∀ t ∈ ts, le t t = some true) ↔ o.HasLeads (overloadsEach ts) := by
  rw [areWellFormed_eq_all, List.all_eq_true] at wf
  rw [hasLeads_overloadsEach]
  refine forall₂_congr fun t member => ?_
  have lower := Ty.depth_le_depthEach o.height member
  exact reflexive t (wf t member) (endAmong_overloadsEach.mp ends t member)
    (Nat.lt_of_le_of_lt lower low)

theorem plainSignature (reflexive : o.ReflexiveBelow le height) {s : Signature}
    (wf : s.isWellFormed = true) (plain : s.quantified = []) (ends : o.EndAmong s.overloads)
    (low : s.depth o.height < height) :
    plainSignatureLe le s s = some true ↔ o.HasLeads s.overloads := by
  obtain ⟨formals, types, result⟩ := s.isWellFormed_iff.mp wf
  have parts : s.overloads = s.ret.overloads ++ overloadsEach s.argTypes := by
    cases s
    cases plain
    rfl
  rw [s.depth_eq] at low
  rw [parts] at ends ⊢
  obtain ⟨first, others⟩ := List.forall_mem_append.mp ends
  rw [plainSignatureLe_self_iff formals, reflexive _ result first (by omega),
    reflexive.each types others (by omega)]
  exact List.forall_mem_append.symm

/-- Signatures with type variables of their own are compared without them. -/
theorem signature (reflexive : o.ReflexiveBelow le height) {s : Signature}
    (wf : s.isWellFormed = true) (ends : o.EndAmong s.overloads) (low : s.depth o.height < height) :
    signatureLe le s s = some true ↔ o.HasLeads s.overloads := by
  unfold signatureLe
  cases plain : s.quantified with
  | nil => exact reflexive.plainSignature wf plain ends low
  | cons v vs =>
    have same : s.erased.overloads = s.overloads := by
      rw [Signature.overloads_erased]
      cases s
      cases plain
      exact erase_overloads_twice _
    rw [← same] at ends ⊢
    exact reflexive.plainSignature (Signature.isWellFormed_erased wf) s.quantified_erased ends
      (Nat.lt_of_le_of_lt (s.depth_erased_le o.height) low)

end ReflexiveBelow

/-- An overloaded type fits in its own place where one of its alternatives serves for all. -/
theorem subtypeWithin_overloaded_self_iff {items : List Signature} {steps : Nat}
    (ends : ∀ s ∈ items, ∀ u ∈ items, o.Ends (.callable s) (.callable u))
    (enough : ∀ s ∈ items, ∀ u ∈ items, o.budget (.callable s) (.callable u) ≤ steps) :
    o.subtypeWithin (steps + 2) (.overloaded items) (.overloaded items) = some true ↔
      ∃ s ∈ items, ∀ u ∈ items, o.isSubtype (.callable s) (.callable u) = true := by
  have alternative (s : Signature) : o.subtypeWithin (steps + 1) (.callable s) (.overloaded items) =
      items.allM fun u => o.subtypeWithin steps (.callable s) (.callable u) :=
    subtypeWithin_succ steps _ _
  have whole : o.subtypeWithin (steps + 2) (.overloaded items) (.overloaded items) =
      items.anyM fun s => o.subtypeWithin (steps + 1) (.callable s) (.overloaded items) :=
    subtypeWithin_succ (steps + 1) _ _
  rw [whole]
  constructor
  · intro found
    obtain ⟨s, member, fits⟩ := exists_of_anyM_eq_some_true found
    rw [alternative, allM_eq_some_true_iff] at fits
    exact ⟨s, member, fun u other =>
      (isSubtype_iff_within (ends s member u other) (enough s member u other)).mpr (fits u other)⟩
  · rintro ⟨s, member, serves⟩
    refine anyM_eq_some_true_of_mem (fun s member => ?_) member ?_
    · rw [alternative]
      exact allM_isSome fun u other => (ends s member u other).within (enough s member u other)
    · rw [alternative, allM_eq_some_true_iff]
      exact fun u other =>
        (isSubtype_iff_within (ends s member u other) (enough s member u other)).mp (serves u other)

/-- The steps are used up two by two, as the nesting of the type is on both sides. -/
theorem reflexiveBelow_subtypeWithin {height steps : Nat}
    (enough : 2 * height + maxFallbacks * o.fallbackHeight ≤ steps + 1) :
    o.ReflexiveBelow (o.subtypeWithin steps) height := by
  induction height generalizing steps with
  | zero => exact fun _ _ _ low => absurd low (Nat.not_lt_zero _)
  | succ height ih =>
    intro t wf ends low
    have deep := t.depth_pos o.height
    obtain ⟨steps, rfl⟩ : ∃ n, steps = n + 2 := ⟨steps - 2, by omega⟩
    have reflexive : o.ReflexiveBelow (o.subtypeWithin (steps + 1)) height := ih (by omega)
    cases t with
    | any | void | noneType | unbound | error =>
      rw [subtypeWithin_succ]
      exact ⟨fun _ => hasLeads_nil, fun _ => rfl⟩
    | typeVar v =>
      have same : o.question (.typeVar v) (.typeVar v) = .settled true := if_pos rfl
      rw [subtypeWithin_succ, same]
      exact ⟨fun _ => hasLeads_nil, fun _ => rfl⟩
    | inst c n args =>
      have view : o.classes.view? ⟨c, n, args⟩ c = some ⟨c, n, args⟩ :=
        ClassTable.view?_self _ ⟨c, n, args⟩
      rw [Ty.depth] at low
      rw [subtypeWithin_inst, instanceLe, view]
      have each := reflexive.each (show areWellFormed args = true from wf) ends (by omega)
      exact argsLe_self_iff.trans each
    | callable s =>
      rw [Ty.depth] at low
      rw [subtypeWithin_succ]
      exact reflexive.signature wf ends (by omega)
    | overloaded items =>
      -- Two steps lead to the alternatives, whose nesting is two less on each side.
      have pair : ∀ s ∈ items, ∀ u ∈ items, o.budget (.callable s) (.callable u) ≤ steps := by
        intro s member u other
        have first := Signature.depth_le_depthSignatures o.height member
        have second := Signature.depth_le_depthSignatures o.height other
        simp only [Ty.depth] at low
        simp only [budget, Ty.depth]
        omega
      rw [subtypeWithin_overloaded_self_iff (List.forall_mem_singleton.mp ends) pair, Ty.overloads,
        HasLeads, List.forall_mem_singleton]
    | tuple items =>
      have same : o.question (.tuple items) (.tuple items) = .args items items := if_pos rfl
      rw [Ty.depth] at low
      rw [subtypeWithin_succ, same]
      have each := reflexive.each (show areWellFormed items = true from wf) ends (by omega)
      exact argsLe_self_iff.trans each

/-- A type is a subtype of itself exactly if each overloaded type in it has an alternative that
serves for all. -/
theorem isSubtype_self_iff {t : Ty} (wf : t.isWellFormed = true) (ends : o.EndAmong t.overloads) :
    o.isSubtype t t = true ↔ o.HasLeads t.overloads := by
  have enough : 2 * (t.depth o.height + 1) + maxFallbacks * o.fallbackHeight ≤ o.budget t t + 1 := by
    unfold budget
    omega
  rw [← reflexiveBelow_subtypeWithin enough t wf ends (Nat.lt_succ_self _)]
  exact ⟨subtype?_of_isSubtype, fun answer => congrArg (·.getD false) answer⟩

end TypeOrder

end Gradual
