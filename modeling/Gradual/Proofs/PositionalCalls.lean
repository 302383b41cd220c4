import Gradual.Checker.Call
import Gradual.Proofs.Narrowing
import Gradual.Proofs.Termination

/-!
Calls with positional arguments. They fill the formals that take one each from left to right, and
the one that collects the rest gets what is left over. Where a function fits in the place of another
one, it takes as many arguments; but its optional formals behind those of the other one are not
compared with the formal from which they get their arguments.
-/

namespace Gradual

/-! ### Members that come first -/

section First

variable {α : Type} {p : α → Bool} {xs : List α}

theorem none_of_head_fails {x : α} (before : ∀ y ∈ xs, p y = true → p x = true)
    (fails : p x = false) : ∀ y ∈ xs, ¬ p y = true := by
  intro y member h
  rw [before y member h] at fails
  cases fails

/-- Where the members with a property come before all others they are the first ones. -/
theorem filter_eq_take_countP (first : xs.Pairwise fun x y => p y = true → p x = true) :
    xs.filter p = xs.take (xs.countP p) := by
  induction xs with
  | nil => rfl
  | cons x xs ih =>
    obtain ⟨before, later⟩ := List.pairwise_cons.mp first
    cases holds : p x with
    | true => simp [holds, ih later]
    | false =>
      have none := none_of_head_fails before holds
      simp [holds, List.countP_eq_zero.mpr none, List.filter_eq_nil_iff.mpr none]

theorem holds_iff_lt_countP (first : xs.Pairwise fun x y => p y = true → p x = true) {k : Nat}
    {x : α} (found : xs[k]? = some x) : p x = true ↔ k < xs.countP p := by
  induction xs generalizing k with
  | nil => cases found
  | cons y xs ih =>
    obtain ⟨before, later⟩ := List.pairwise_cons.mp first
    cases k with
    | zero =>
      cases found
      cases holds : p x with
      | true => simp [holds]
      | false => simp [holds, List.countP_eq_zero.mpr (none_of_head_fails before holds)]
    | succ k =>
      rw [ih later found]
      cases holds : p y with
      | true => simp [holds]
      | false => simp [holds, List.countP_eq_zero.mpr (none_of_head_fails before holds)]

/-- What is in no order to itself occurs once at most. -/
theorem count_le_one_of_pairwise [BEq α] [LawfulBEq α] {r : α → α → Prop} {a : α}
    (ordered : xs.Pairwise r) (alone : ¬ r a a) : xs.count a ≤ 1 := by
  induction xs with
  | nil => exact Nat.zero_le _
  | cons x xs ih =>
    obtain ⟨before, later⟩ := List.pairwise_cons.mp ordered
    rw [List.count_cons]
    cases same : x == a with
    | true =>
      have none : xs.count a = 0 := by
        refine List.count_eq_zero.mpr fun member => alone ?_
        have related := before a member
        rwa [eq_of_beq same] at related
      simp [none]
    | false => simpa using ih later

end First

/-! ### The order of formals -/

/-- The place of a kind among the formals of a function. -/
def ArgKind.rank : ArgKind → Nat
  | .pos => 0
  | .opt => 1
  | .star => 2
  | .named => 3
  | .star2 => 4

/-- The formals as a function declares them, one kind after the other, with at most one formal for
the remaining arguments of each sort. -/
structure Signature.InOrder (s : Signature) : Prop where
  length_kinds : s.argKinds.length = s.argTypes.length
  length_names : s.argNames.length = s.argTypes.length
  ordered : s.argKinds.Pairwise fun a b => a.rank < b.rank ∨ (a = b ∧ a.isStar = false)

instance (s : Signature) : Decidable s.InOrder :=
  decidable_of_iff
    (s.argKinds.length = s.argTypes.length ∧ s.argNames.length = s.argTypes.length ∧
      s.argKinds.Pairwise fun a b => a.rank < b.rank ∨ (a = b ∧ a.isStar = false))
    ⟨fun ⟨a, b, c⟩ => ⟨a, b, c⟩, fun ⟨a, b, c⟩ => ⟨a, b, c⟩⟩

namespace Signature

/-- The formal that the positional argument at position `i` goes to. -/
def positionalFormal? (s : Signature) (i : Nat) : Option Nat :=
  if i < s.maxFixedArgs then some i else if s.isVarArg then some s.maxFixedArgs else none

def positionalType? (s : Signature) (i : Nat) : Option Ty :=
  (s.positionalFormal? i).bind (s.argTypes[·]?)

theorem positionalType?_mem {s : Signature} {i : Nat} {t : Ty} (h : s.positionalType? i = some t) :
    t ∈ s.argTypes := by
  obtain ⟨k, -, found⟩ := Option.bind_eq_some_iff.mp h
  exact List.mem_of_getElem? found

theorem maxFixedArgs_le (s : Signature) : s.maxFixedArgs ≤ s.argKinds.length := List.countP_le_length

namespace InOrder

variable {s : Signature}

theorem fixed_first (h : s.InOrder) :
    s.argKinds.Pairwise fun a b => b.isFixed = true → a.isFixed = true :=
  h.ordered.imp fun {a b} => by
    cases a <;> cases b <;> simp [ArgKind.rank, ArgKind.isFixed, ArgKind.isStar]

theorem pos_first (h : s.InOrder) :
    s.argKinds.Pairwise fun a b => (b == .pos) = true → (a == .pos) = true :=
  h.ordered.imp fun {a b} => by
    cases a <;> cases b <;> simp [ArgKind.rank, ArgKind.isStar]

theorem isFixed_iff (h : s.InOrder) {k : Nat} {kind : ArgKind} (found : s.argKinds[k]? = some kind) :
    kind.isFixed = true ↔ k < s.maxFixedArgs :=
  holds_iff_lt_countP h.fixed_first found

/-- The formal that collects positional arguments stands right behind those that take one each. -/
theorem isVarArg_iff (h : s.InOrder) :
    s.isVarArg = true ↔ s.argKinds[s.maxFixedArgs]? = some .star := by
  rw [isVarArg, List.contains_iff_mem]
  constructor
  · intro member
    obtain ⟨j, inside, found⟩ := List.mem_iff_getElem.mp member
    have behind : ¬ j < s.maxFixedArgs := by
      rw [← h.isFixed_iff (List.getElem?_eq_some_iff.mpr ⟨inside, found⟩)]
      exact nofun
    by_cases here : s.maxFixedArgs = j
    · rw [here]
      exact List.getElem?_eq_some_iff.mpr ⟨inside, found⟩
    · have before : s.maxFixedArgs < j := by omega
      have first : s.maxFixedArgs < s.argKinds.length := by omega
      have fixed : s.argKinds[s.maxFixedArgs].isFixed = true := by
        have order := List.pairwise_iff_getElem.mp h.ordered _ _ first inside before
        rw [found] at order
        revert order
        cases s.argKinds[s.maxFixedArgs] <;> simp [ArgKind.rank, ArgKind.isFixed, ArgKind.isStar]
      exact absurd ((h.isFixed_iff (List.getElem?_eq_getElem first)).mp fixed) (Nat.lt_irrefl _)
  · exact List.mem_of_getElem?

/-- Positional arguments go to formals. -/
theorem positionalFormal?_lt (h : s.InOrder) {i k : Nat} (formal : s.positionalFormal? i = some k) :
    k < s.argKinds.length := by
  rw [positionalFormal?] at formal
  split at formal
  · have all := s.maxFixedArgs_le
    cases formal
    omega
  · obtain ⟨varArg, same⟩ := Option.ite_none_right_eq_some.mp formal
    cases same
    exact (List.getElem?_eq_some_iff.mp (h.isVarArg_iff.mp varArg)).1

theorem fixedTypes_eq (h : s.InOrder) : s.fixedTypes = s.argTypes.take s.maxFixedArgs := by
  have keys : (s.argKinds.zip s.argTypes).map (·.1) = s.argKinds :=
    List.map_fst_zip (Nat.le_of_eq h.length_kinds)
  have values : (s.argKinds.zip s.argTypes).map (·.2) = s.argTypes :=
    List.map_snd_zip (Nat.le_of_eq h.length_kinds.symm)
  have first : (s.argKinds.zip s.argTypes).Pairwise
      fun x y => y.1.isFixed = true → x.1.isFixed = true := by
    have kinds := h.fixed_first
    rw [← keys, List.pairwise_map] at kinds
    exact kinds
  have count : (s.argKinds.zip s.argTypes).countP (·.1.isFixed) = s.maxFixedArgs := by
    rw [maxFixedArgs, ← keys, List.countP_map, keys]
    rfl
  rw [fixedTypes, filter_eq_take_countP first, List.map_take, values, count]

/-- What takes the argument of a fixed formal is what takes the positional argument at its place. -/
theorem taker_eq_positionalType? (h : s.InOrder) (i : Nat) :
    s.fixedTypes[i]?.or (s.typeOfKind? .star) = s.positionalType? i := by
  rw [h.fixedTypes_eq, positionalType?, positionalFormal?]
  by_cases fixed : i < s.maxFixedArgs
  · have inside : i < s.argTypes.length := by
      have all := s.maxFixedArgs_le
      have lengths := h.length_kinds
      omega
    rw [if_pos fixed, List.getElem?_take_of_lt fixed, List.getElem?_eq_getElem inside]
    simp [inside]
  · rw [if_neg fixed, List.getElem?_eq_none (by simp; omega), Option.none_or]
    cases varArg : s.isVarArg with
    | true =>
      have found := h.isVarArg_iff.mp varArg
      obtain ⟨inside, -⟩ := List.getElem?_eq_some_iff.mp found
      obtain ⟨t, types⟩ : ∃ t, s.argTypes[s.maxFixedArgs]? = some t :=
        ⟨_, List.getElem?_eq_getElem (h.length_kinds ▸ inside)⟩
      have once : s.argKinds.count .star ≤ 1 :=
        count_le_one_of_pairwise h.ordered (by simp [ArgKind.isStar])
      rw [if_pos rfl, Option.bind_some, types]
      exact typeOfKind?_eq (Nat.le_of_eq h.length_kinds) once found types
    | false =>
      have absent : (s.argKinds.zip s.argTypes).find? (·.1 == .star) = none := by
        rw [List.find?_eq_none]
        intro p member same
        have star : .star ∈ s.argKinds := eq_of_beq same ▸ (List.of_mem_zip member).1
        rw [isVarArg, List.contains_iff_mem.mpr star] at varArg
        cases varArg
      rw [typeOfKind?, absent]
      rfl

end InOrder
end Signature

/-! ### Which arguments the formals get -/

namespace ArgBinding

variable {s : Signature}

/-- The first `n` positional arguments, as far as they go to the formal at position `k`. -/
def positionalActuals (s : Signature) (n k : Nat) : List Nat :=
  (List.range n).filter fun i => s.positionalFormal? i == some k

/-- What the formals have after `n` positional arguments. -/
def positionalBound (s : Signature) (n : Nat) : Bound :=
  (List.range s.argKinds.length).map (positionalActuals s n)

theorem mem_positionalActuals {n k i : Nat} :
    i ∈ positionalActuals s n k ↔ i < n ∧ s.positionalFormal? i = some k := by
  rw [positionalActuals, List.mem_filter, List.mem_range, beq_iff_eq]

theorem positionalActuals_succ (n k : Nat) :
    positionalActuals s (n + 1) k =
      positionalActuals s n k ++ if s.positionalFormal? n = some k then [n] else [] := by
  simp [positionalActuals, List.range_succ, List.filter_append, List.filter_cons]

theorem getElem?_positionalBound (n k : Nat) :
    (positionalBound s n)[k]? =
      if k < s.argKinds.length then some (positionalActuals s n k) else none := by
  rw [positionalBound, List.getElem?_map]
  by_cases inside : k < s.argKinds.length
  · rw [List.getElem?_range inside, if_pos inside, Option.map_some]
  · rw [List.getElem?_eq_none (by simpa using inside), if_neg inside, Option.map_none]

/-- The next argument goes to its formal, if it has one. -/
theorem positionalBound_succ (s : Signature) (n : Nat) :
    positionalBound s (n + 1) =
      match s.positionalFormal? n with
      | some k => give n k (positionalBound s n)
      | none => positionalBound s n := by
  cases formal : s.positionalFormal? n with
  | none =>
    have same (k : Nat) : positionalActuals s (n + 1) k = positionalActuals s n k := by
      simp [positionalActuals_succ, formal]
    exact congrArg (List.map · _) (funext same)
  | some j =>
    apply List.ext_getElem?
    intro k
    dsimp only
    rw [give, List.getElem?_modify, getElem?_positionalBound, getElem?_positionalBound,
      positionalActuals_succ, formal]
    by_cases inside : k < s.argKinds.length <;> by_cases same : j = k <;> simp [inside, same]

/-- The cursor is the next fixed formal, or behind them all. -/
theorem step_positional (h : s.InOrder) {n : Nat} {shape : ArgShape} (positional : shape.kind = .pos) :
    step s n shape (min n s.maxFixedArgs) (positionalBound s n) =
      (min (n + 1) s.maxFixedArgs, positionalBound s (n + 1)) := by
  rw [step, positional]
  dsimp only
  rw [positionalBound_succ, Signature.positionalFormal?]
  by_cases fixed : n < s.maxFixedArgs
  · have inside : n < s.argKinds.length := Nat.lt_of_lt_of_le fixed s.maxFixedArgs_le
    have kind := (h.isFixed_iff (List.getElem?_eq_getElem inside)).mpr fixed
    rw [Nat.min_eq_left (Nat.le_of_lt fixed), Nat.min_eq_left fixed, if_pos fixed,
      List.getElem?_eq_getElem inside]
    revert kind
    cases s.argKinds[n] <;> simp [ArgKind.isFixed]
  · -- The cursor rests where the formal that collects the rest stands, if there is one.
    rw [Nat.min_eq_right (Nat.le_of_not_lt fixed), Nat.min_eq_right (by omega), if_neg fixed]
    cases varArg : s.isVarArg with
    | true =>
      rw [h.isVarArg_iff.mp varArg]
      rfl
    | false =>
      cases found : s.argKinds[s.maxFixedArgs]? with
      | none => rfl
      | some kind =>
        have free : kind.isFixed = false := by
          rw [Bool.eq_false_iff, ne_eq, h.isFixed_iff found]
          exact Nat.lt_irrefl _
        cases kind with
        | pos | opt => cases free
        | star =>
          rw [h.isVarArg_iff.mpr found] at varArg
          cases varArg
        | named | star2 => rfl

theorem run_positional (h : s.InOrder) {shapes : List ArgShape} {n : Nat}
    (positional : ∀ shape ∈ shapes, shape.kind = .pos) :
    run s n (min n s.maxFixedArgs) (positionalBound s n) shapes =
      positionalBound s (n + shapes.length) := by
  induction shapes generalizing n with
  | nil => rfl
  | cons shape shapes ih =>
    obtain ⟨first, others⟩ := List.forall_mem_cons.mp positional
    rw [run, step_positional h first]
    dsimp only
    rw [ih others, List.length_cons]
    congr 1
    omega

/-- Positional arguments fill the formals from left to right. -/
theorem bind_positional (h : s.InOrder) {shapes : List ArgShape}
    (positional : ∀ shape ∈ shapes, shape.kind = .pos) :
    bind s shapes = positionalBound s shapes.length := by
  have initial : s.argKinds.map (fun _ => []) = positionalBound s 0 := by
    have nothing : positionalActuals s 0 = fun _ => [] := rfl
    simp [positionalBound, nothing, List.map_const']
  have filled := run_positional h (n := 0) positional
  rw [Nat.zero_min, Nat.zero_add] at filled
  rw [bind, initial, filled]

end ArgBinding

/-! ### What accepts positional arguments -/

section Acceptance

variable {s : Signature} {shapes : List ArgShape}

/-- Each formal is paired with the positional arguments that go to it. -/
theorem mem_withBound_positional (h : s.InOrder) (positional : ∀ shape ∈ shapes, shape.kind = .pos)
    {p : Ty × Nat} :
    p ∈ s.withBound (ArgBinding.bind s shapes) ↔
      p.2 < shapes.length ∧ s.positionalType? p.2 = some p.1 := by
  rw [ArgBinding.bind_positional h positional, Signature.withBound, List.mem_flatMap]
  constructor
  · rintro ⟨⟨formal, actuals⟩, paired, inside⟩
    obtain ⟨i, listed, rfl⟩ := List.mem_map.mp inside
    obtain ⟨k, at_k⟩ := List.mem_iff_getElem?.mp paired
    obtain ⟨types, bound⟩ := List.getElem?_zip_eq_some.mp at_k
    rw [ArgBinding.getElem?_positionalBound, Option.ite_none_right_eq_some] at bound
    cases bound.2
    obtain ⟨early, goes⟩ := ArgBinding.mem_positionalActuals.mp listed
    refine ⟨early, ?_⟩
    rw [Signature.positionalType?, goes]
    exact types
  · rintro ⟨early, type⟩
    obtain ⟨k, formal, types⟩ := Option.bind_eq_some_iff.mp type
    have bound := ArgBinding.getElem?_positionalBound (s := s) shapes.length k
    rw [if_pos (h.positionalFormal?_lt formal)] at bound
    exact ⟨(p.1, _), List.mem_of_getElem? (List.getElem?_zip_eq_some.mpr ⟨types, bound⟩),
      List.mem_map.mpr ⟨p.2, ArgBinding.mem_positionalActuals.mpr ⟨early, formal⟩, rfl⟩⟩

/-- An argument that has a formal is bound. -/
theorem bound_positional_iff (h : s.InOrder) (positional : ∀ shape ∈ shapes, shape.kind = .pos)
    {i : Nat} (given : i < shapes.length) :
    (ArgBinding.bind s shapes).any (·.contains i) = true ↔ ∃ t, s.positionalType? i = some t := by
  rw [ArgBinding.bind_positional h positional, List.any_eq_true]
  constructor
  · rintro ⟨actuals, member, listed⟩
    obtain ⟨k, formals, rfl⟩ := List.mem_map.mp member
    obtain ⟨-, goes⟩ := ArgBinding.mem_positionalActuals.mp (List.contains_iff_mem.mp listed)
    have inside : k < s.argTypes.length := by
      rw [← h.length_kinds]
      exact List.mem_range.mp formals
    refine ⟨s.argTypes[k], ?_⟩
    rw [Signature.positionalType?, goes]
    exact List.getElem?_eq_getElem inside
  · rintro ⟨t, type⟩
    obtain ⟨k, formal, -⟩ := Option.bind_eq_some_iff.mp type
    refine ⟨_, List.mem_map.mpr ⟨k, List.mem_range.mpr (h.positionalFormal?_lt formal), rfl⟩, ?_⟩
    exact List.contains_iff_mem.mpr (ArgBinding.mem_positionalActuals.mpr ⟨given, formal⟩)

/-- The formals that must be given come first, and each takes the argument at its own position. -/
theorem lacksRequired_positional_iff (h : s.InOrder)
    (positional : ∀ shape ∈ shapes, shape.kind = .pos) :
    ArgBinding.lacksRequired s (ArgBinding.bind s shapes) = false ↔ s.minArgs ≤ shapes.length := by
  have required {k : Nat} {kind : ArgKind} (found : s.argKinds[k]? = some kind) :
      (kind == .pos) = true ↔ k < s.minArgs := holds_iff_lt_countP h.pos_first found
  have fixed : s.minArgs ≤ s.maxFixedArgs :=
    List.countP_mono_left fun kind _ pos => by rw [eq_of_beq pos]; rfl
  have own {k : Nat} (early : k < s.minArgs) : s.positionalFormal? k = some k :=
    if_pos (Nat.lt_of_lt_of_le early fixed)
  rw [ArgBinding.bind_positional h positional, ArgBinding.lacksRequired, List.any_eq_false]
  constructor
  · intro filled
    refine Nat.le_of_not_lt fun early => ?_
    -- The first formal that is not reached would have to be given.
    have inside : shapes.length < s.argKinds.length :=
      Nat.lt_of_lt_of_le early List.countP_le_length
    have pos := (required (List.getElem?_eq_getElem inside)).mpr early
    have none : ArgBinding.positionalActuals s shapes.length shapes.length = [] := by
      rw [List.eq_nil_iff_forall_not_mem]
      intro i member
      obtain ⟨before, goes⟩ := ArgBinding.mem_positionalActuals.mp member
      rw [own (Nat.lt_trans before early)] at goes
      exact Nat.ne_of_lt before (Option.some.inj goes)
    have bound := ArgBinding.getElem?_positionalBound (s := s) shapes.length shapes.length
    rw [if_pos inside, none] at bound
    have member : (s.argKinds[shapes.length], ([] : List Nat)) ∈
        s.argKinds.zip (ArgBinding.positionalBound s shapes.length) :=
      List.mem_of_getElem? (List.getElem?_zip_eq_some.mpr ⟨List.getElem?_eq_getElem inside, bound⟩)
    exact filled _ member (Bool.and_eq_true_iff.mpr ⟨pos, rfl⟩)
  · rintro enough ⟨kind, actuals⟩ member lacking
    obtain ⟨k, at_k⟩ := List.mem_iff_getElem?.mp member
    obtain ⟨found, bound⟩ := List.getElem?_zip_eq_some.mp at_k
    rw [ArgBinding.getElem?_positionalBound, Option.ite_none_right_eq_some] at bound
    cases bound.2
    obtain ⟨pos, empty⟩ := Bool.and_eq_true_iff.mp lacking
    have early := (required found).mp pos
    have taken : k ∈ ArgBinding.positionalActuals s shapes.length k :=
      ArgBinding.mem_positionalActuals.mpr ⟨Nat.lt_of_lt_of_le early enough, own early⟩
    have nothing : ArgBinding.positionalActuals s shapes.length k = [] := List.isEmpty_iff.mp empty
    rw [nothing] at taken
    cases taken

theorem Given.seenType_positional {g : Given} (positional : g.shape.kind = .pos) :
    g.seenType = g.type := by
  rw [seenType, positional]

/-- A call with positional arguments is accepted if they are enough, each has a formal and its type
fits there. -/
theorem accepts_positional_iff (o : TypeOrder) (h : s.InOrder) {given : List Given}
    (positional : ∀ g ∈ given, g.shape.kind = .pos) :
    o.accepts s given = true ↔ s.minArgs ≤ given.length ∧
      ∀ i g, given[i]? = some g →
        ∃ t, s.positionalType? i = some t ∧ o.isSubtype g.type t.erase = true := by
  have shapes : ∀ shape ∈ given.map (·.shape), shape.kind = .pos := List.forall_mem_map.mpr positional
  have plain : ArgBinding.hasStar (given.map (·.shape)) = false := by
    refine List.any_eq_false.mpr fun shape member star => ?_
    rw [shapes shape member] at star
    cases star
  have length : (given.map (·.shape)).length = given.length := List.length_map _
  rw [TypeOrder.accepts]
  dsimp only
  rw [plain, Bool.or_false, Bool.and_eq_true, Bool.and_eq_true, Bool.not_eq_true',
    lacksRequired_positional_iff h shapes, length, List.all_eq_true, List.all_eq_true]
  constructor
  · rintro ⟨⟨bound, enough⟩, fits⟩
    refine ⟨enough, fun i g found => ?_⟩
    have inside := (List.getElem?_eq_some_iff.mp found).1
    have early : i < (given.map (·.shape)).length := length ▸ inside
    obtain ⟨t, type⟩ := (bound_positional_iff h shapes early).mp (bound i (List.mem_range.mpr inside))
    have checked := fits (t, i) ((mem_withBound_positional h shapes).mpr ⟨early, type⟩)
    dsimp only at checked
    rw [found, Option.all_some, Given.seenType_positional (positional g (List.mem_of_getElem? found))]
      at checked
    exact ⟨t, type, checked⟩
  · rintro ⟨enough, fits⟩
    refine ⟨⟨fun i member => ?_, enough⟩, fun p member => ?_⟩
    · have inside := List.mem_range.mp member
      obtain ⟨t, type, -⟩ := fits i _ (List.getElem?_eq_getElem inside)
      exact (bound_positional_iff h shapes (length ▸ inside)).mpr ⟨t, type⟩
    · obtain ⟨early, type⟩ := (mem_withBound_positional h shapes).mp member
      rw [Option.all_eq_true]
      intro g found
      obtain ⟨t, same, checked⟩ := fits p.2 g found
      cases type.symm.trans same
      rw [Given.seenType_positional (positional g (List.mem_of_getElem? found))]
      exact checked

end Acceptance

/-! ### Calls of a function in the place of another -/

section Substitution

variable {le : Ty → Ty → Option Bool} {l r : Signature} {i : Nat} {t : Ty}

/-- What takes the argument of a formal that takes one positional argument or collects them. -/
theorem fits_taker (right : r.InOrder) (fits : TypeOrder.PlainFits le l r) {k : Nat} {kind : ArgKind}
    (kinds : r.argKinds[k]? = some kind) (types : r.argTypes[k]? = some t) :
    ∃ name u, l.taker? l.fixedTypes[((r.argKinds.zip r.argNames).take k).countP (·.1.isFixed)]? kind
      name = some u ∧ le t u = some true := by
  have inside : k < r.argNames.length := by
    rw [right.length_names]
    exact (List.getElem?_eq_some_iff.mp types).1
  have formal : (r.argKinds.zip r.argNames)[k]? = some (kind, r.argNames[k]) :=
    List.getElem?_zip_eq_some.mpr ⟨kinds, List.getElem?_eq_getElem inside⟩
  have taker := l.getElem?_takersFrom l.fixedTypes (r.argKinds.zip r.argNames) k
  rw [formal, Option.map_some] at taker
  have pair : (t, l.taker? l.fixedTypes[((r.argKinds.zip r.argNames).take k).countP (·.1.isFixed)]? kind
      r.argNames[k]) ∈ r.argTypes.zip (l.takers r) :=
    List.mem_of_getElem? (List.getElem?_zip_eq_some.mpr ⟨types, taker⟩)
  obtain ⟨u, same, taken⟩ := fits.formals _ pair
  exact ⟨_, u, same, taken⟩

/-- All formals before a fixed one are fixed. -/
theorem countP_take_fixed (right : r.InOrder) (early : i < r.maxFixedArgs) :
    ((r.argKinds.zip r.argNames).take i).countP (·.1.isFixed) = i := by
  have fixed : ∀ p ∈ (r.argKinds.zip r.argNames).take i, p.1.isFixed = true := by
    intro p member
    obtain ⟨j, before⟩ := List.mem_iff_getElem?.mp member
    rw [List.getElem?_take, Option.ite_none_right_eq_some] at before
    obtain ⟨earlier, found⟩ := before
    exact (right.isFixed_iff (List.getElem?_zip_eq_some.mp found).1).mpr (Nat.lt_trans earlier early)
  have all := r.maxFixedArgs_le
  rw [List.countP_eq_length.mpr fixed, List.length_take, List.length_zip, right.length_names,
    ← right.length_kinds]
  omega

/-- Where one function fits in the place of another it has a formal for each positional argument
that the other one takes. Optional formals behind those of the other one aside, it is a formal that
the argument of the other one fits. -/
theorem positionalType?_of_fits (left : l.InOrder) (right : r.InOrder)
    (fits : TypeOrder.PlainFits le l r) (given : r.positionalType? i = some t) :
    ∃ u, l.positionalType? i = some u ∧
      (¬ (r.maxFixedArgs ≤ i ∧ i < l.maxFixedArgs) → le t u = some true) := by
  obtain ⟨k, formal, types⟩ := Option.bind_eq_some_iff.mp given
  obtain ⟨kind, kinds⟩ : ∃ kind, r.argKinds[k]? = some kind :=
    ⟨_, List.getElem?_eq_getElem (right.positionalFormal?_lt formal)⟩
  obtain ⟨name, u, taker, taken⟩ := fits_taker right fits kinds types
  rw [Signature.positionalFormal?] at formal
  by_cases fixed : i < r.maxFixedArgs
  · rw [if_pos fixed] at formal
    cases formal
    have isFixed := (right.isFixed_iff kinds).mpr fixed
    refine ⟨u, ?_, fun _ => taken⟩
    rw [← left.taker_eq_positionalType?, ← taker, countP_take_fixed right fixed]
    cases kind with
    | pos | opt => rfl
    | star | named | star2 => cases isFixed
  · rw [if_neg fixed] at formal
    obtain ⟨varArg, same⟩ := Option.ite_none_right_eq_some.mp formal
    cases same
    cases kinds.symm.trans (right.isVarArg_iff.mp varArg)
    have star : l.typeOfKind? .star = some u := taker
    rw [← left.taker_eq_positionalType?, star]
    by_cases gap : i < l.maxFixedArgs
    · -- The argument goes to an optional formal, whatever that one takes.
      cases l.fixedTypes[i]? <;>
        exact ⟨_, rfl, fun outside => absurd ⟨Nat.le_of_not_lt fixed, gap⟩ outside⟩
    · have none : l.fixedTypes[i]? = none := by
        rw [left.fixedTypes_eq]
        exact List.getElem?_eq_none (by simp; omega)
      rw [none]
      exact ⟨u, rfl, fun _ => taken⟩

variable {o : TypeOrder}

/-- Functions that quantify nothing fit if their parts do, within steps that suffice for each two of
their formals. -/
theorem plainFits_of_isSubtype (plain : l.quantified = []) (plain' : r.quantified = [])
    (fits : o.isSubtype (.callable l) (.callable r) = true) :
    ∃ steps, TypeOrder.PlainFits (o.subtypeWithin steps) l r ∧
      ∀ t ∈ r.argTypes, ∀ u ∈ l.argTypes, o.budget t u ≤ steps := by
  obtain ⟨steps, asked, -, suffice⟩ := o.subtype?_callable plain plain'
  have answer := asked.symm.trans (TypeOrder.subtype?_of_isSubtype fits)
  exact ⟨steps, TypeOrder.plainSignatureLe_eq_some_true_iff.mp answer, suffice⟩

/-- A function in the place of another one must not be given more arguments. -/
theorem minArgs_le_of_isSubtype (plain : l.quantified = []) (plain' : r.quantified = [])
    (fits : o.isSubtype (.callable l) (.callable r) = true) : l.minArgs ≤ r.minArgs := by
  obtain ⟨steps, parts, -⟩ := plainFits_of_isSubtype plain plain' fits
  have counts := parts.counts
  rw [Signature.countsFit, Bool.and_eq_true, Bool.and_eq_true, decide_eq_true_eq] at counts
  exact counts.1.1

theorem positionalType?_of_isSubtype (left : l.InOrder) (right : r.InOrder)
    (plain : l.quantified = []) (plain' : r.quantified = [])
    (ends : ∀ t ∈ r.argTypes, ∀ u ∈ l.argTypes, o.Ends t u)
    (fits : o.isSubtype (.callable l) (.callable r) = true) (given : r.positionalType? i = some t) :
    ∃ u, l.positionalType? i = some u ∧
      (¬ (r.maxFixedArgs ≤ i ∧ i < l.maxFixedArgs) → o.isSubtype t u = true) := by
  obtain ⟨steps, parts, suffice⟩ := plainFits_of_isSubtype plain plain' fits
  obtain ⟨u, type, compared⟩ := positionalType?_of_fits left right parts given
  have formal := Signature.positionalType?_mem given
  have taker := Signature.positionalType?_mem type
  exact ⟨u, type, fun outside =>
    (TypeOrder.isSubtype_iff_within (ends t formal u taker) (suffice t formal u taker)).mpr
      (compared outside)⟩

end Substitution

/-- Where a function fits in the place of another one, a call with positional arguments that the
other one accepts has enough of them, and not too many. Each fits, provided that it has exactly the
type from which the other function takes it, except that an argument for an optional formal behind
the formals of the other one was never compared; a formal with type variables is compared without
them. -/
theorem positional_call_accepted_iff (o : TypeOrder) (l r : Signature) (left : l.InOrder)
    (right : r.InOrder) (plain : l.quantified = []) (plain' : r.quantified = [])
    (ends : ∀ t ∈ r.argTypes, ∀ u ∈ l.argTypes, o.Ends t u)
    (fits : o.isSubtype (.callable l) (.callable r) = true) (accepted given : List Given)
    (positional : ∀ g ∈ given, g.shape.kind = .pos)
    (alike : accepted.map (·.shape) = given.map (·.shape)) (call : o.accepts r accepted = true)
    (own : ∀ p ∈ r.withBound (ArgBinding.bind r (given.map (·.shape))),
      given[p.2]?.map (·.type) = some p.1) :
    o.accepts l given = true ↔
      ∀ p ∈ l.withBound (ArgBinding.bind l (given.map (·.shape))),
        (r.maxFixedArgs ≤ p.2 ∧ p.2 < l.maxFixedArgs ∨ p.1.erase ≠ p.1) →
          given[p.2]?.all (o.isSubtype ·.type p.1.erase) = true := by
  have shapes : ∀ shape ∈ given.map (·.shape), shape.kind = .pos := List.forall_mem_map.mpr positional
  have positional' : ∀ g ∈ accepted, g.shape.kind = .pos := by
    rw [← alike] at shapes
    exact List.forall_mem_map.mp shapes
  have length : accepted.length = given.length := by simpa using congrArg List.length alike
  have inside {i : Nat} {g : Given} (found : given[i]? = some g) :
      i < (given.map (·.shape)).length := by
    simpa using (List.getElem?_eq_some_iff.mp found).1
  obtain ⟨enough, received⟩ := (accepts_positional_iff o right positional').mp call
  have least : l.minArgs ≤ given.length :=
    length ▸ Nat.le_trans (minArgs_le_of_isSubtype plain plain' fits) enough
  have taken : ∀ i g, given[i]? = some g → ∃ u, l.positionalType? i = some u ∧
      (¬ (r.maxFixedArgs ≤ i ∧ i < l.maxFixedArgs) → o.isSubtype g.type u = true) := by
    intro i g found
    have early : i < accepted.length := length ▸ (List.getElem?_eq_some_iff.mp found).1
    obtain ⟨t, type, -⟩ := received i _ (List.getElem?_eq_getElem early)
    have same := own (t, i) ((mem_withBound_positional right shapes).mpr ⟨inside found, type⟩)
    rw [found, Option.map_some] at same
    rw [Option.some.inj same]
    exact positionalType?_of_isSubtype left right plain plain' ends fits type
  rw [accepts_positional_iff o left positional]
  constructor
  · rintro ⟨-, all⟩ p member -
    obtain ⟨-, type⟩ := (mem_withBound_positional left shapes).mp member
    rw [Option.all_eq_true]
    intro g found
    obtain ⟨u, same, checked⟩ := all p.2 g found
    cases type.symm.trans same
    exact checked
  · refine fun unchecked => ⟨least, fun i g found => ?_⟩
    obtain ⟨u, type, compared⟩ := taken i g found
    refine ⟨u, type, ?_⟩
    by_cases unseen : r.maxFixedArgs ≤ i ∧ i < l.maxFixedArgs ∨ u.erase ≠ u
    · have member := (mem_withBound_positional left shapes (p := (u, i))).mpr ⟨inside found, type⟩
      have checked := unchecked (u, i) member unseen
      dsimp only at checked
      rwa [found] at checked
    · obtain ⟨outside, closed⟩ := not_or.mp unseen
      rw [Classical.not_not.mp closed]
      exact compared outside

/-- A function with an optional formal before the one that collects the rest, and one without. -/
def Signature.withOption : Signature :=
  .ofFormals [.inst 0 "Animal" [], .inst 1 "Dog" [], .inst 0 "Animal" []] [.pos, .opt, .star]
    [some "a", some "b", some "rest"] .noneType

def Signature.withoutOption : Signature :=
  .ofFormals [.inst 0 "Animal" [], .inst 0 "Animal" []] [.pos, .star] [some "a", some "rest"] .noneType

theorem derivedPair_grounded : (TypeOrder.ofClasses .derivedPair).Grounded where
  bases c base member := by
    match c with
    | 0 | c + 2 => cases member
    | 1 =>
      cases member with
      | head => decide
      | tail _ later => cases later
  fallbacks := by decide +kernel

/-- Two animals as positional arguments. -/
def Given.animals : List Given := List.replicate 2 ⟨⟨.pos, none⟩, .inst 0 "Animal" [], none⟩

/-- The function with an optional formal fits in the place of the other one, which takes two animals;
it does not take them, for the second one would have to be a dog. -/
theorem option_takes_no_rest :
    (TypeOrder.ofClasses .derivedPair).isSubtype (.callable .withOption) (.callable .withoutOption) =
        true ∧
      (TypeOrder.ofClasses .derivedPair).accepts .withoutOption Given.animals = true ∧
      (TypeOrder.ofClasses .derivedPair).accepts .withOption Given.animals = false := by
  have fits : (TypeOrder.ofClasses .derivedPair).isSubtype (.callable .withOption)
      (.callable .withoutOption) = true := by decide +kernel
  have call : (TypeOrder.ofClasses .derivedPair).accepts .withoutOption Given.animals = true := by
    decide +kernel
  have bound : Signature.withoutOption.withBound
      (ArgBinding.bind .withoutOption (Given.animals.map (·.shape))) =
        [(.inst 0 "Animal" [], 0), (.inst 0 "Animal" [], 1)] := rfl
  have unseen : (Ty.inst 1 "Dog" [], 1) ∈ Signature.withOption.withBound
      (ArgBinding.bind .withOption (Given.animals.map (·.shape))) := .tail _ (.head _)
  have own : ∀ p ∈ Signature.withoutOption.withBound
      (ArgBinding.bind .withoutOption (Given.animals.map (·.shape))),
      Given.animals[p.2]?.map (·.type) = some p.1 := by
    rw [bound]
    exact List.forall_mem_cons.mpr ⟨rfl, List.forall_mem_singleton.mpr rfl⟩
  have accepted := positional_call_accepted_iff (.ofClasses .derivedPair) .withOption .withoutOption
    (by decide) (by decide) rfl rfl (fun _ _ _ _ => derivedPair_grounded.ends _ _) fits Given.animals
    Given.animals (by decide) rfl call own
  refine ⟨fits, call, Bool.eq_false_iff.mpr fun h => ?_⟩
  have checked := accepted.mp h _ unseen (.inl (by decide))
  revert checked
  decide +kernel

end Gradual
