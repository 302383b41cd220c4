import Gradual.Proofs.Demands
import Gradual.Proofs.Narrowing
import Gradual.Proofs.SubstitutionLaws

/-!
The choice among several signatures. Whether a signature accepts arguments is decided apart from the check
of a call, which reports what is wrong. For signatures without type variables the two agree: the signature
by which a function is called is the first of those by which the call has nothing to report.
-/

namespace Gradual

/-! ### Signatures without type variables -/

theorem Ty.erase_eq_self {t : Ty} (standing : t.typeVars = []) (quantified : t.quantifiedVars = []) :
    t.erase = t := by
  have same : t.erase = t.substitute fun _ => none := by
    refine Ty.substitute_congr t (fun v member => ?_) fun v member => ?_
    · rw [standing] at member
      cases member
    · rw [quantified] at member
      cases member
  exact same.trans (Ty.substitute_none t)

namespace Signature

variable {s : Signature}

/-- A signature that mentions no type variables. -/
structure IsConcrete (s : Signature) : Prop where
  standing : s.typeVars = []
  quantified : s.quantifiedVars = []

instance (s : Signature) : Decidable s.IsConcrete :=
  decidable_of_iff (s.typeVars = [] ∧ s.quantifiedVars = []) ⟨fun ⟨a, b⟩ => ⟨a, b⟩, fun ⟨a, b⟩ => ⟨a, b⟩⟩

namespace IsConcrete

theorem quantified_eq_nil (h : s.IsConcrete) : s.quantified = [] := by
  cases s
  exact (List.append_eq_nil_iff.mp h.quantified).1

theorem erase_eq {t : Ty} (h : s.IsConcrete) (member : t ∈ s.argTypes) : t.erase = t := by
  cases s
  have standing := (List.append_eq_nil_iff.mp h.standing).1
  have quantified := (List.append_eq_nil_iff.mp (List.append_eq_nil_iff.mp h.quantified).2).1
  refine Ty.erase_eq_self (List.eq_nil_iff_forall_not_mem.mpr fun v mentioned => ?_)
    (List.eq_nil_iff_forall_not_mem.mpr fun v mentioned => ?_)
  · exact List.eq_nil_iff_forall_not_mem.mp standing v (mem_typeVarsOfEach.mpr ⟨t, member, mentioned⟩)
  · exact List.eq_nil_iff_forall_not_mem.mp quantified v (mem_quantifiedVarsOfEach.mpr ⟨t, member, mentioned⟩)

end IsConcrete

theorem mem_argTypes_of_withBound {bound : ArgBinding.Bound} {p : Ty × Nat}
    (member : p ∈ s.withBound bound) : p.1 ∈ s.argTypes := by
  obtain ⟨⟨formal, actuals⟩, paired, found⟩ := List.mem_flatMap.mp member
  obtain ⟨i, -, rfl⟩ := List.mem_map.mp found
  exact (List.of_mem_zip paired).1

end Signature

/-! ### Arguments whose types are known -/

/-- The argument with the type that was inferred for it. -/
def Arg.known (g : Given) : Arg := ⟨g.shape, ⟨fun _ => return g.type, g.call⟩⟩

theorem shapes_known (given : List Given) : (given.map Arg.known).map (·.shape) = given.map (·.shape) := by
  rw [List.map_map]
  rfl

theorem Given.seenType_of_single {g : Given} (single : g.shape.kind.isStar = false) :
    g.seenType = g.type := by
  rw [seenType]
  cases kind : g.shape.kind with
  | pos | opt | named => rfl
  | star | star2 =>
    rw [kind] at single
    cases single

/-! ### What a call takes -/

/-- Where arguments go in a call, and that they suit the formals there: a formal may lack an argument that
it needs only if one argument stands for several. -/
def Signature.Takes (s : Signature) (given : List Given) (suits : Ty → Given → Prop) : Prop :=
  (ArgBinding.lacksRequired s (ArgBinding.bind s (given.map (·.shape))) &&
    !ArgBinding.hasStar (given.map (·.shape))) = false ∧
  ∀ p ∈ s.withBound (ArgBinding.bind s (given.map (·.shape))), ∀ g, given[p.2]? = some g → suits p.1 g

theorem TypeOrder.accepts_iff {o : TypeOrder} {s : Signature} {given : List Given} :
    o.accepts s given = true ↔
    (∀ i < given.length, (ArgBinding.bind s (given.map (·.shape))).any (·.contains i) = true) ∧
      s.Takes given fun formal g => o.isSubtype g.seenType formal.erase = true := by
  have waived (lacks star : Bool) : (!lacks || star) = !(lacks && !star) := by
    rw [Bool.not_and, Bool.not_not]
  rw [accepts, Signature.Takes, Bool.and_eq_true, Bool.and_eq_true, waived, Bool.not_eq_true',
    List.all_eq_true, List.all_eq_true, and_assoc]
  simp only [List.mem_range, Option.all_eq_true]

namespace Check

variable {env : Env} {st : State} {s : Signature} {items : List Signature} {given : List Given} {span : Span}

/-- To infer arguments whose types are known changes nothing. -/
theorem outcome_giveFrom_known {context : Nat → ArgShape → Option Ty} {i : Nat} :
    (giveFrom context i (given.map .known)).outcome env st = (given, st) := by
  induction given generalizing i with
  | nil => rfl
  | cons g rest ih =>
    rw [List.map_cons, giveFrom, outcome_bind]
    change (giveFrom context (i + 1) (rest.map .known) >>= fun rest =>
      Pure.pure (g :: rest)).outcome env st = _
    rw [outcome_bind, ih]
    rfl

/-- The call of a function by arguments whose types are known. -/
theorem outcome_checkCall_known {callee : Ty}
    (resolves : resolveCallee env st.vars maxCallSteps callee = callee)
    (called : called? env.order callee given = some s) :
    (checkCall callee (given.map .known) span).outcome env st =
      (checkGiven s given (ArgBinding.bind s (given.map (·.shape))) span).outcome env st := by
  have infers : (giveFor callee (given.map .known)).outcome env st = (given, st) := by
    cases callee <;> exact outcome_giveFrom_known
  rw [outcome_checkCall resolves infers called, shapes_known]

/-- The call of an overloaded function by the first signature that accepts the arguments. -/
def callFirst (o : TypeOrder) (items : List Signature) (given : List Given) (span : Span) :
    Check CallResult :=
  match items.find? (o.accepts · given) with
  | some s => checkGiven s given (ArgBinding.bind s (given.map (·.shape))) span
  | none => do
    if let some first := items.head? then report (.noOverload first) span
    return .dynamic

theorem outcome_checkCall_overloaded {callee : Ty} {args : List Arg} {st' : State}
    (resolves : resolveCallee env st.vars maxCallSteps callee = .overloaded items)
    (infers : (giveAll args).outcome env st = (given, st')) :
    (checkCall callee args span).outcome env st = (callFirst env.order items given span).outcome env st' := by
  have alike : ((giveAll args).outcome env st).1.map (·.shape) = args.map (·.shape) := shapes_giveFrom
  rw [infers] at alike
  unfold checkCall
  rw [outcome_bind, outcome_read, outcome_bind, outcome_get]
  dsimp only
  rw [resolves]
  dsimp only
  rw [outcome_bind, infers, outcome_bind, outcome_read, callFirst]
  dsimp only at alike ⊢
  cases items.find? (env.order.accepts · given) with
  | some s => rw [alike]
  | none => rfl

theorem outcome_checkCall_overloaded_known :
    (checkCall (.overloaded items) (given.map .known) span).outcome env st =
    (callFirst env.order items given span).outcome env st :=
  outcome_checkCall_overloaded (resolveCallee_overloaded _) outcome_giveFrom_known

/-! ### Agreement -/

/-- The call of a function without type variables of its own demands nothing but that arguments and formals
go together. -/
theorem checkCall_demands (unquantified : s.quantified = []) :
    Demands (checkCall (.callable s) (given.map .known) span) env st
      (Placed (given.map (·.shape)) (ArgBinding.bind s (given.map (·.shape))) ∧
        s.Takes given (Fits env.order)) ⟨s.ret, .callable s⟩ := by
  have demands : Demands (checkGiven s given (ArgBinding.bind s (given.map (·.shape))) span) env st _ _ :=
    checkGiven_demands
  rw [called_of_unquantified unquantified, outcome_pure] at demands
  have silent : (Pure.pure s : Check Signature).Silent env st := rfl
  have known (st : State) : (checkCall (.callable s) (given.map .known) span).outcome env st =
      (checkGiven s given (ArgBinding.bind s (given.map (·.shape))) span).outcome env st :=
    outcome_checkCall_known (resolveCallee_callable _) rfl
  exact ((demands.of_outcome_eq known).congr (and_iff_right silent)).congr and_assoc

/-- Whatever there is to report, the result has the type that the signature declares. -/
theorem checkCall_type (unquantified : s.quantified = []) :
    ((checkCall (.callable s) (given.map .known) span).outcome env st).1.type = s.ret := by
  rw [outcome_checkCall_known (resolveCallee_callable _) rfl, checkGiven_eq,
    called_of_unquantified unquantified]
  rfl

/-- A signature accepts arguments exactly if the check of the call by it has nothing to report. -/
theorem accepts_iff_silent (concrete : s.IsConcrete) (single : ∀ g ∈ given, g.shape.kind.isStar = false)
    (values : ∀ g ∈ given, g.type.isVoid = false) : env.order.accepts s given = true ↔
      (checkCall (.callable s) (given.map .known) span).Silent env st := by
  have noStar : ArgBinding.hasStar (given.map (·.shape)) = false := by
    rw [ArgBinding.hasStar, List.any_map, List.any_eq_false]
    exact fun g member => Bool.eq_false_iff.mp (single g member)
  rw [(checkCall_demands concrete.quantified_eq_nil).silent_iff, TypeOrder.accepts_iff, placed_iff noStar,
    List.length_map]
  refine and_congr_right fun _ => and_congr_right fun _ => forall₂_congr fun p formal =>
    forall₂_congr fun g found => ?_
  have value : g.seenType.isVoid = false := by
    have member := List.mem_of_getElem? found
    rw [Given.seenType_of_single (single g member)]
    exact values g member
  dsimp only
  rw [concrete.erase_eq (Signature.mem_argTypes_of_withBound formal), Fits, and_iff_right value]

/-- A function with several signatures is called by the first that accepts the arguments. -/
theorem outcome_checkCall_picked {k : Nat} (picked : items.findIdx? (env.order.accepts · given) = some k)
    (found : items[k]? = some s) : (checkCall (.overloaded items) (given.map .known) span).outcome env st =
      (checkCall (.callable s) (given.map .known) span).outcome env st := by
  have called : called? env.order (.overloaded items) given = some s := by
    rw [called?, List.find?_eq_bind_findIdx?_getElem?, picked]
    exact found
  rw [outcome_checkCall_known (resolveCallee_overloaded _) called,
    outcome_checkCall_known (resolveCallee_callable _) rfl]

/-- Where none accepts them, that is all that is reported, if there are any. -/
theorem reports_checkCall_refused (refused : items.findIdx? (env.order.accepts · given) = none) :
    (checkCall (.overloaded items) (given.map .known) span).reports env st =
      items.head?.toList.map fun first => diagnostic env st.file st.scope (.noOverload first) span := by
  have none : items.find? (env.order.accepts · given) = none := by
    rw [List.find?_eq_bind_findIdx?_getElem?, refused]
    rfl
  rw [reports, outcome_checkCall_overloaded_known, callFirst, none]
  cases items <;> rfl

/-- That none matches is reported exactly if there are signatures and none of them accepts the arguments, where
those that do have nothing to report. -/
theorem refusal_reported_iff (silent : ∀ s ∈ items, env.order.accepts s given = true →
    (checkCall (.callable s) (given.map .known) span).Silent env st) :
    (∃ d ∈ (checkCall (.overloaded items) (given.map .known) span).reports env st,
      d.code = Code.noMatchingOverload.text) ↔
        items ≠ [] ∧ ∀ s ∈ items, ¬ env.order.accepts s given = true := by
  cases first : items.findIdx? (env.order.accepts · given) with
  | some k =>
    obtain ⟨inside, accepted, -⟩ := List.findIdx?_eq_some_iff_getElem.mp first
    have picked := List.getElem_mem inside
    have none : (checkCall (.overloaded items) (given.map .known) span).reports env st = [] := by
      rw [reports, outcome_checkCall_picked first (List.getElem?_eq_getElem inside)]
      exact silent _ picked accepted
    rw [none]
    refine iff_of_false (not_exists.mpr fun _ found => List.not_mem_nil found.1) ?_
    rintro ⟨-, refused⟩
    exact refused _ picked accepted
  | none =>
    have refused : ∀ s ∈ items, ¬ env.order.accepts s given = true := fun s member =>
      Bool.eq_false_iff.mp (List.findIdx?_eq_none_iff.mp first s member)
    rw [reports_checkCall_refused first, and_iff_left refused]
    cases items with
    | nil => exact iff_of_false (not_exists.mpr fun _ found => List.not_mem_nil found.1) fun some => some rfl
    | cons s items => exact iff_of_true ⟨_, List.mem_singleton.mpr rfl, rfl⟩ (List.cons_ne_nil s items)

end Check

open Check in
/-- An overloaded function whose signatures mention no type variables is called by the first signature by
which the call, with the types that were inferred for its arguments, has nothing to report, and as by that
signature alone. That none matches is reported exactly if there are signatures and the call by each of them
has something to report. -/
theorem overload_picked_iff_first_clean {env : Env} {st st' : State} {callee : Ty} {items : List Signature}
    {args : List Arg} {given : List Given} (span : Span)
    (resolves : resolveCallee env st.vars maxCallSteps callee = .overloaded items)
    (concrete : ∀ s ∈ items, s.IsConcrete) (single : ∀ arg ∈ args, arg.shape.kind.isStar = false)
    (infers : (giveAll args).outcome env st = (given, st'))
    (values : ∀ g ∈ given, g.type.isVoid = false) :
    let call (callee : Ty) := checkCall callee (given.map .known) span
    let clean (s : Signature) := (call (.callable s)).Silent env st'
    let picked := items.findIdx? (env.order.accepts · given)
    (checkCall callee args span).outcome env st = (call (.overloaded items)).outcome env st' ∧
      (∀ k s, items[k]? = some s → (picked = some k ↔ clean s ∧ ∀ j < k, ∀ t ∈ items[j]?, ¬ clean t)) ∧
      (∀ k s, items[k]? = some s → picked = some k →
        (call (.overloaded items)).outcome env st' = (call (.callable s)).outcome env st') ∧
      ((∃ d ∈ (call (.overloaded items)).reports env st', d.code = Code.noMatchingOverload.text) ↔
        items ≠ [] ∧ ∀ s ∈ items, ¬ clean s) := by
  intro call clean picked
  have alike : ((giveAll args).outcome env st).1.map (·.shape) = args.map (·.shape) := shapes_giveFrom
  have shapes : ∀ g ∈ given, g.shape.kind.isStar = false := by
    intro g member
    rw [infers] at alike
    have shape := List.mem_map_of_mem (f := Given.shape) member
    rw [alike] at shape
    obtain ⟨arg, member', same⟩ := List.mem_map.mp shape
    rw [← same]
    exact single arg member'
  have agree : ∀ s ∈ items, (env.order.accepts s given = true ↔ clean s) := fun s member =>
    accepts_iff_silent (concrete s member) shapes values
  refine ⟨?_, fun k s found => ?_, fun k s found first =>
    outcome_checkCall_picked first found, ?_⟩
  · rw [outcome_checkCall_overloaded resolves infers]
    exact outcome_checkCall_overloaded_known.symm
  · have inside : k < items.length := (List.getElem?_eq_some_iff.mp found).1
    have here : items[k] = s := (List.getElem?_eq_some_iff.mp found).2
    rw [show picked = some k ↔ _ from List.findIdx?_eq_some_iff_getElem, exists_prop_of_true inside, here,
      agree s (List.mem_of_getElem? found)]
    refine and_congr_right fun _ => forall₂_congr fun j before => ?_
    have earlier : items[j]? = some items[j] := List.getElem?_eq_getElem (Nat.lt_trans before inside)
    simp only [earlier, Option.mem_some_iff, forall_eq', agree _ (List.getElem_mem _)]
  · refine (refusal_reported_iff fun s member => (agree s member).mp).trans ?_
    exact and_congr_right fun _ => forall₂_congr fun s member => not_congr (agree s member)

/-- A function without signatures: each of them has something to report, and nothing is reported. -/
theorem empty_overload_unreported :
    let program := Builder.bare.toProgram
    let env := Env.ofProgram program default
    let call (callee : Ty) := Check.checkCall callee [] default
    (∀ s ∈ ([] : List Signature), ¬ (call (.callable s)).Silent env (.initial program)) ∧
      (call (.overloaded [])).reports env (.initial program) = [] :=
  ⟨nofun, rfl⟩

/-- Functions of a dog and of an animal. -/
def Signature.forDog : Signature := .positional [.inst 1 "Dog" []] .noneType

def Signature.forAnimal : Signature := .positional [.inst 0 "Animal" []] .any

/-- For an animal the second signature is picked. -/
theorem second_overload_picked :
    let env := Env.ofProgram .derivedPair default
    let given : List Given := [⟨⟨.pos, none⟩, .inst 0 "Animal" [], none⟩]
    let call (callee : Ty) := Check.checkCall callee (given.map .known) default
    (call (.overloaded [.forDog, .forAnimal])).outcome env (.initial .derivedPair) =
      (call (.callable .forAnimal)).outcome env (.initial .derivedPair) := by
  intro env given call
  have concrete : ∀ s ∈ [Signature.forDog, .forAnimal], s.IsConcrete := by decide
  have infers : (Check.giveAll (given.map .known)).outcome env (.initial .derivedPair) =
      (given, .initial .derivedPair) := rfl
  obtain ⟨-, -, called, -⟩ :=
    overload_picked_iff_first_clean default (Check.resolveCallee_overloaded _) concrete (by decide) infers
      (by decide)
  exact called 1 .forAnimal rfl (by decide +kernel)

end Gradual
