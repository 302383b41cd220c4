import Gradual.Proofs.AgreeingNames

/-!
Calls by signatures that differ in names. Where an argument goes is told by the kinds of the formals, and for
a keyword by their names. So signatures with formals of the same kinds and types take the same arguments as
long as each keyword goes to the same formal in both, and a keyword that only one of them has a formal for
tells them apart.
-/

namespace Gradual

/-! ### Where arguments go -/

namespace ArgBinding

variable {s t : Signature}

/-- The keywords among the arguments go to the same formals. -/
def KeywordsAgree (s t : Signature) (shapes : List ArgShape) : Prop :=
  ∀ shape ∈ shapes, shape.kind = .named → keywordFormal? s shape.name = keywordFormal? t shape.name

variable (kinds : s.argKinds = t.argKinds)
include kinds

theorem step_congr {shape : ArgShape} {i cursor : Nat} {bound : Bound}
    (keyword : shape.kind = .named → keywordFormal? s shape.name = keywordFormal? t shape.name) :
    step s i shape cursor bound = step t i shape cursor bound := by
  unfold step
  cases kind : shape.kind with
  | pos | opt | star => simp only [kinds]
  | named => simp only [keyword kind]
  | star2 => simp only [openFormals, kinds]

theorem run_congr {shapes : List ArgShape} (keywords : KeywordsAgree s t shapes) {i cursor : Nat}
    {bound : Bound} : run s i cursor bound shapes = run t i cursor bound shapes := by
  induction shapes generalizing i cursor bound with
  | nil => rfl
  | cons shape rest ih =>
    obtain ⟨first, others⟩ := List.forall_mem_cons.mp keywords
    rw [run, run, step_congr kinds first]
    exact ih others

/-- Which arguments go to which formals is told by the kinds of the formals and by the keywords. -/
theorem bind_congr {shapes : List ArgShape} (keywords : KeywordsAgree s t shapes) :
    bind s shapes = bind t shapes := by
  rw [bind, bind, kinds]
  exact run_congr kinds keywords

theorem lacksRequired_congr (bound : Bound) : lacksRequired s bound = lacksRequired t bound := by
  rw [lacksRequired, lacksRequired, kinds]

end ArgBinding

/-! ### Calls by either signature -/

section Calls

variable {o : TypeOrder} {s t : Signature} {given : List Given} {suits : Ty → Given → Prop}

/-- Signatures take the same arguments if the same suits their formals and keywords go to the same ones. -/
theorem Signature.takes_congr (kinds : s.argKinds = t.argKinds)
    (cores : s.argTypes.map (Ty.core .expected) = t.argTypes.map (Ty.core .expected))
    (keywords : ArgBinding.KeywordsAgree s t (given.map (·.shape)))
    (sees : ∀ type g, suits (type.core .expected) g ↔ suits type g) :
    s.Takes given suits ↔ t.Takes given suits := by
  have each (u : Signature) (bound : ArgBinding.Bound) :
      (∀ p ∈ u.withBound bound, ∀ g, given[p.2]? = some g → suits p.1 g) ↔
        ∀ q ∈ (u.argTypes.map (Ty.core .expected)).zip bound, ∀ i ∈ q.2, ∀ g, given[i]? = some g →
          suits q.1 g := by
    rw [withBound, List.zip_map_left, List.forall_mem_map]
    simp only [List.forall_mem_flatMap, List.forall_mem_map, Prod.map, id, sees]
  rw [Takes, Takes, each s, each t, cores, ArgBinding.bind_congr kinds keywords,
    ArgBinding.lacksRequired_congr kinds]

/-- Signatures accept the same arguments if keywords go to the same formals. -/
theorem TypeOrder.accepts_congr (kinds : s.argKinds = t.argKinds)
    (cores : s.argTypes.map (Ty.core .expected) = t.argTypes.map (Ty.core .expected))
    (keywords : ArgBinding.KeywordsAgree s t (given.map (·.shape))) :
    o.accepts s given = o.accepts t given := by
  rw [Bool.eq_iff_iff, accepts_iff, accepts_iff, ArgBinding.bind_congr kinds keywords]
  refine and_congr_right fun _ => Signature.takes_congr kinds cores keywords fun type g => ?_
  rw [← Ty.core_erase, o.isSubtype_core_right]

namespace Check

variable {env : Env} {st : State} {span : Span}

/-- Calls by either signature have something to report alike if keywords go to the same formals. -/
theorem checkCall_silent_congr (unquantified : s.quantified = []) (unquantified' : t.quantified = [])
    (kinds : s.argKinds = t.argKinds)
    (cores : s.argTypes.map (Ty.core .expected) = t.argTypes.map (Ty.core .expected))
    (keywords : ArgBinding.KeywordsAgree s t (given.map (·.shape))) :
    (checkCall (.callable s) (given.map .known) span).Silent env st ↔
      (checkCall (.callable t) (given.map .known) span).Silent env st := by
  rw [(checkCall_demands unquantified).silent_iff, (checkCall_demands unquantified').silent_iff,
    ArgBinding.bind_congr kinds keywords]
  refine and_congr_right fun _ => Signature.takes_congr kinds cores keywords fun type g => ?_
  rw [Fits, Fits, env.order.isSubtype_core_right]

end Check
end Calls

/-! ### Keywords that only one of two signatures knows -/

namespace ArgBinding

variable {s t : Signature} {bound : Bound} {i j k : Nat}

theorem any_contains_give : (give j k bound).any (·.contains i) = true ↔
    bound.any (·.contains i) = true ∨ i = j ∧ k < bound.length := by
  induction bound generalizing k with
  | nil => simp [give]
  | cons actuals rest ih =>
    cases k with
    | zero => simp [give, or_assoc, or_comm]
    | succ k =>
      have others := ih (k := k)
      rw [give] at others ⊢
      rw [List.modify_succ_cons, List.any_cons, List.any_cons, Bool.or_eq_true, Bool.or_eq_true, others,
        List.length_cons, Nat.add_lt_add_iff_right, or_assoc]

theorem any_contains_giveAll {formals : List Nat} : (giveAll j formals bound).any (·.contains i) = true ↔
    bound.any (·.contains i) = true ∨ i = j ∧ ∃ k ∈ formals, k < bound.length := by
  induction formals generalizing bound with
  | nil => simp [giveAll]
  | cons k rest ih =>
    have others : (giveAll j rest (give j k bound)).any (·.contains i) = true ↔ _ := ih
    have length : (give j k bound).length = bound.length := List.length_modify ..
    rw [giveAll] at others ⊢
    rw [List.foldl_cons, others, any_contains_give, length]
    simp only [List.mem_cons, exists_eq_or_imp]
    tauto

theorem keywordFormal?_lt {name : Option String} (known : keywordFormal? s name = some k) :
    k < s.argKinds.length := by
  rcases Option.or_eq_some_iff.mp known with named | ⟨-, collected⟩
  · obtain ⟨n, -, found⟩ := Option.bind_eq_some_iff.mp named
    have inside := (List.findIdx?_eq_some_iff_getElem.mp found).1
    rw [List.length_zip] at inside
    omega
  · exact (List.findIdx?_eq_some_iff_getElem.mp collected).1

/-- A formal that is left without an argument that it needs is open. -/
theorem exists_open_of_lacksRequired (lacks : lacksRequired s bound = true) :
    ∃ k ∈ openFormals s 0 bound, k < bound.length := by
  obtain ⟨⟨kind, actuals⟩, member, open'⟩ := List.any_eq_true.mp lacks
  obtain ⟨k, found⟩ := List.mem_iff_getElem?.mp member
  obtain ⟨kindAt, actualsAt⟩ := List.getElem?_zip_eq_some.mp found
  obtain ⟨needed, none⟩ := Bool.and_eq_true_iff.mp open'
  rw [beq_iff_eq.mp needed] at kindAt
  refine ⟨k, List.mem_filter.mpr ⟨List.mem_range.mpr (List.getElem?_eq_some_iff.mp kindAt).1, ?_⟩,
    (List.getElem?_eq_some_iff.mp actualsAt).1⟩
  rw [kindAt, actualsAt]
  exact none

/-- No argument has gone to a formal yet. -/
def unfilled (s : Signature) : Bound := s.argKinds.map fun _ => []

theorem any_contains_unfilled : (unfilled s).any (·.contains i) = false := by
  simp [unfilled]

theorem bind_of_known {name : Option String} (known : keywordFormal? s name = some k) (rest : List ArgShape) :
    bind s (⟨.named, name⟩ :: rest) = run s 1 0 (give 0 k (unfilled s)) rest := by
  rw [bind, run, step]
  dsimp only
  rw [known]
  rfl

theorem bind_of_unknown {name : Option String} (unknown : keywordFormal? s name = none)
    (rest : List ArgShape) : bind s (⟨.named, name⟩ :: rest) = run s 1 0 (unfilled s) rest := by
  rw [bind, run, step]
  dsimp only
  rw [unknown]
  rfl

/-- Arguments that the one signature has formals for, as many as it needs, and the other has not. -/
structure TellApart (s t : Signature) (shapes : List ArgShape) : Prop where
  filled : ∀ i < shapes.length, (bind s shapes).any (·.contains i) = true
  enough : (lacksRequired s (bind s shapes) && !hasStar shapes) = false
  keyword : ∃ name, shapes[0]? = some ⟨.named, name⟩
  refused : (bind t shapes).any (·.contains 0) = false

/-- A keyword that only the one signature has a formal for tells the two apart, alone or with a collection of
further keywords for the formals that are left. -/
theorem exists_tellApart {name : Option String} (known : keywordFormal? s name = some k)
    (unknown : keywordFormal? t name = none) : ∃ shapes, TellApart s t shapes := by
  have first : (give 0 k (unfilled s)).any (·.contains 0) = true :=
    any_contains_give.mpr (.inr ⟨rfl, by
      rw [unfilled, List.length_map]
      exact keywordFormal?_lt known⟩)
  cases lacks : lacksRequired s (give 0 k (unfilled s)) with
  | false =>
    refine ⟨[⟨.named, name⟩], ⟨fun i inside => ?_, ?_, ⟨name, rfl⟩, ?_⟩⟩
    · rw [bind_of_known known, Nat.lt_one_iff.mp inside]
      exact first
    · rw [bind_of_known known, run, lacks]
      rfl
    · rw [bind_of_unknown unknown]
      exact any_contains_unfilled
  | true =>
    refine ⟨[⟨.named, name⟩, ⟨.star2, none⟩], ⟨fun i inside => ?_, ?_, ⟨name, rfl⟩, ?_⟩⟩
    · rw [bind_of_known known]
      refine any_contains_giveAll.mpr ?_
      rcases Nat.eq_zero_or_pos i with rfl | later
      · exact .inl first
      · exact .inr ⟨Nat.le_antisymm (Nat.le_of_lt_succ inside) later, exists_open_of_lacksRequired lacks⟩
    · exact Bool.and_false _
    · rw [bind_of_unknown unknown, Bool.eq_false_iff]
      intro given
      rcases any_contains_giveAll.mp given with filled | ⟨other, -⟩
      · exact absurd filled (Bool.eq_false_iff.mp any_contains_unfilled)
      · exact Nat.zero_ne_one other

end ArgBinding

section Keywords

variable {s t : Signature} {shapes : List ArgShape}

/-- An argument of the dynamic type. -/
def Given.dynamic (shape : ArgShape) : Given := ⟨shape, .any, none⟩

theorem Given.seenType_dynamic (shape : ArgShape) : (dynamic shape).seenType = .any := by
  obtain ⟨kind, name⟩ := shape
  cases kind <;> rfl

theorem Given.shapes_dynamic : (shapes.map dynamic).map (·.shape) = shapes := by
  rw [List.map_map]
  exact List.map_id shapes

theorem Signature.takes_dynamic {suits : Ty → Given → Prop}
    (enough : (ArgBinding.lacksRequired s (ArgBinding.bind s shapes) && !ArgBinding.hasStar shapes) = false)
    (always : ∀ formal shape, suits formal (.dynamic shape)) :
    s.Takes (shapes.map Given.dynamic) suits := by
  rw [Takes, Given.shapes_dynamic]
  refine ⟨enough, fun p _ g found => ?_⟩
  obtain ⟨shape, -, rfl⟩ := List.mem_map.mp (List.mem_of_getElem? found)
  exact always p.1 shape

namespace ArgBinding.TellApart

variable (apart : TellApart s t shapes)
include apart

theorem accepts (o : TypeOrder) : o.accepts s (shapes.map .dynamic) = true := by
  refine TypeOrder.accepts_iff.mpr ⟨?_, Signature.takes_dynamic apart.enough fun formal shape => ?_⟩
  · rw [Given.shapes_dynamic, List.length_map]
    exact apart.filled
  · rw [Given.seenType_dynamic]
    exact o.isSubtype_any_left _

theorem not_accepts (o : TypeOrder) : o.accepts t (shapes.map .dynamic) = false := by
  rw [Bool.eq_false_iff]
  intro accepted
  obtain ⟨name, first⟩ := apart.keyword
  have filled := (TypeOrder.accepts_iff.mp accepted).1 0
    (by rw [List.length_map]; exact (List.getElem?_eq_some_iff.mp first).1)
  rw [Given.shapes_dynamic, apart.refused] at filled
  cases filled

variable {env : Env} {st : State} {span : Span}

theorem silent (unquantified : s.quantified = []) :
    (Check.checkCall (.callable s) ((shapes.map Given.dynamic).map .known) span).Silent env st := by
  refine (Check.checkCall_demands unquantified).silent_iff.mpr
    ⟨?_, Signature.takes_dynamic apart.enough fun formal shape => ?_⟩
  · rw [Given.shapes_dynamic]
    intro j shape found _
    exact apart.filled j (List.getElem?_eq_some_iff.mp found).1
  · rw [Check.Fits, Given.seenType_dynamic]
    exact ⟨rfl, env.order.isSubtype_any_left formal⟩

theorem not_silent (unquantified : t.quantified = []) :
    ¬ (Check.checkCall (.callable t) ((shapes.map Given.dynamic).map .known) span).Silent env st := by
  intro silent
  obtain ⟨name, first⟩ := apart.keyword
  have placed := ((Check.checkCall_demands unquantified).silent_iff.mp silent).1
  rw [Given.shapes_dynamic] at placed
  have filled := placed 0 _ first rfl
  rw [apart.refused] at filled
  cases filled

/-- The arguments are accepted by the one signature only. -/
theorem differ (unquantified : s.quantified = []) (unquantified' : t.quantified = []) :
    ∃ given : List Given, env.order.accepts s given ≠ env.order.accepts t given ∧
      ∀ span st, ¬ ((Check.checkCall (.callable s) (given.map .known) span).Silent env st ↔
        (Check.checkCall (.callable t) (given.map .known) span).Silent env st) := by
  refine ⟨shapes.map .dynamic, ?_, fun span st alike => ?_⟩
  · rw [apart.accepts, apart.not_accepts]
    exact Bool.noConfusion
  · exact apart.not_silent unquantified' (alike.mp (apart.silent unquantified))

end ArgBinding.TellApart

open ArgBinding in
/-- A keyword that only one of two signatures has a formal for makes a call that only this one accepts. -/
theorem exists_accepted_by_one {env : Env} {name : Option String} (unquantified : s.quantified = [])
    (unquantified' : t.quantified = [])
    (known : (keywordFormal? s name).isSome ≠ (keywordFormal? t name).isSome) :
    ∃ given : List Given, env.order.accepts s given ≠ env.order.accepts t given ∧
      ∀ span st, ¬ ((Check.checkCall (.callable s) (given.map .known) span).Silent env st ↔
        (Check.checkCall (.callable t) (given.map .known) span).Silent env st) := by
  cases own : keywordFormal? s name with
  | some k =>
    have unknown : keywordFormal? t name = none := by
      rw [own] at known
      exact Option.not_isSome_iff_eq_none.mp fun other => known other.symm
    obtain ⟨shapes, apart⟩ := exists_tellApart own unknown
    exact apart.differ unquantified unquantified'
  | none =>
    obtain ⟨k, other⟩ : ∃ k, keywordFormal? t name = some k := by
      rw [own] at known
      exact Option.ne_none_iff_exists'.mp fun none => known (by rw [none])
    obtain ⟨shapes, apart⟩ := exists_tellApart other own
    obtain ⟨given, differ, silent⟩ := apart.differ unquantified' unquantified
    exact ⟨given, differ.symm, fun span st alike => silent span st alike.symm⟩

end Keywords

end Gradual
