import Gradual.Proofs.LookupOrder

/-!
Orders that keep others. The merge stops on all orders; it finds an order without repetition that keeps
all of them whenever there is one, since the first class of such an order may always come next.
-/

namespace Gradual

namespace Linearize

variable {orders : List (List ClassId)} {order rest : List ClassId} {c : ClassId}
  {result other : Option (List ClassId)} {steps : Nat}

/-! ### The merge without its steps -/

/-- The merge, for as long as it takes: a class that may come next is taken off the orders until nothing
is left of them or no class may come next. -/
inductive Merges : List (List ClassId) → Option (List ClassId) → Prop
  | done {orders : List (List ClassId)} (empty : ∀ order ∈ orders, order = []) :
    Merges orders (some [])
  | stuck {orders : List (List ClassId)} (left : ∃ order ∈ orders, order ≠ [])
    (blocked : next? orders = none) : Merges orders none
  | step {orders : List (List ClassId)} {c : ClassId} {result : Option (List ClassId)}
    (chosen : next? orders = some c) (later : Merges (advance c orders) result) :
    Merges orders (result.map (c :: ·))

theorem next?_of_empty (empty : ∀ order ∈ orders, order = []) : next? orders = none := by
  cases chosen : next? orders with
  | none => rfl
  | some c =>
    obtain ⟨order, member, head⟩ := exists_head_of_next? chosen
    rw [empty order member] at head
    cases head

theorem Merges.unique (first : Merges orders result) (second : Merges orders other) :
    result = other := by
  induction first generalizing other with
  | done empty =>
    cases second with
    | done => rfl
    | stuck left =>
      obtain ⟨order, member, full⟩ := left
      exact absurd (empty order member) full
    | step chosen =>
      rw [next?_of_empty empty] at chosen
      cases chosen
  | stuck left blocked =>
    cases second with
    | done empty =>
      obtain ⟨order, member, full⟩ := left
      exact absurd (empty order member) full
    | stuck => rfl
    | step chosen =>
      rw [blocked] at chosen
      cases chosen
  | step chosen _ ih =>
    cases second with
    | done empty =>
      rw [next?_of_empty empty] at chosen
      cases chosen
    | stuck _ blocked =>
      rw [blocked] at chosen
      cases chosen
    | step chosen' later =>
      rw [chosen] at chosen'
      cases chosen'
      rw [ih later]

theorem stepsFor_cons (order : List ClassId) (orders : List (List ClassId)) :
    stepsFor (order :: orders) = order.length + stepsFor orders := List.length_append

theorem length_advanced_le (c : ClassId) (order : List ClassId) :
    (if order.head? = some c then order.tail else order).length ≤ order.length := by
  split
  · rw [List.length_tail]
    exact Nat.sub_le _ _
  · exact Nat.le_refl _

theorem stepsFor_advance_le (c : ClassId) (orders : List (List ClassId)) :
    stepsFor (advance c orders) ≤ stepsFor orders := by
  induction orders with
  | nil => exact Nat.le_refl _
  | cons order orders ih =>
    have first := length_advanced_le c order
    rw [advance, List.map_cons, stepsFor_cons, stepsFor_cons]
    exact Nat.add_le_add first ih

theorem stepsFor_advance_lt (headed : ∃ order ∈ orders, order.head? = some c) :
    stepsFor (advance c orders) < stepsFor orders := by
  induction orders with
  | nil => simp at headed
  | cons order orders ih =>
    rw [advance, List.map_cons, stepsFor_cons, stepsFor_cons]
    rcases (List.exists_mem_cons_iff _ _ _).mp headed with own | later
    · have fewer : order.tail.length < order.length := by
        cases order with
        | nil => cases own
        | cons => exact Nat.lt_succ_self _
      rw [if_pos own]
      exact Nat.add_lt_add_of_lt_of_le fewer (stepsFor_advance_le c orders)
    · exact Nat.add_lt_add_of_le_of_lt (length_advanced_le c order) (ih later)

theorem empty_of_stepsFor (none : stepsFor orders = 0) : ∀ order ∈ orders, order = [] := by
  have flat : orders.flatten = [] := List.length_eq_zero_iff.mp none
  exact List.flatten_eq_nil_iff.mp flat

theorem merges_merge (enough : stepsFor orders ≤ steps) : Merges orders (merge steps orders) := by
  induction steps generalizing orders with
  | zero =>
    have empty := empty_of_stepsFor (Nat.le_zero.mp enough)
    have all : orders.all List.isEmpty = true := by simpa using empty
    rw [merge, if_pos all]
    exact .done empty
  | succ steps ih =>
    rw [merge]
    by_cases all : orders.all List.isEmpty = true
    · rw [if_pos all]
      exact .done (by simpa using all)
    · rw [if_neg all]
      cases chosen : next? orders with
      | none => exact .stuck (by simpa using all) chosen
      | some c =>
        -- The class is taken off an order, so there are fewer places left.
        have fewer := stepsFor_advance_lt (exists_head_of_next? chosen)
        have later : Merges (advance c orders) (merge steps (advance c orders)) := ih (by omega)
        have made : (do let rest ← merge steps (advance c orders); return c :: rest) =
            (merge steps (advance c orders)).map (c :: ·) := bind_pure_comp _ _
        exact made ▸ .step chosen later

theorem merges_iff : Merges orders result ↔ result = merge (stepsFor orders) orders := by
  have stops := merges_merge (Nat.le_refl (stepsFor orders))
  exact ⟨fun merges => merges.unique stops, fun same => same ▸ stops⟩

/-! ### What is kept -/

theorem advanced_sublist (c : ClassId) (order : List ClassId) :
    (if order.head? = some c then order.tail else order).Sublist order := by
  split
  · exact List.tail_sublist order
  · exact List.Sublist.refl order

theorem sublist_of_merge (merged : merge steps orders = some rest) (member : order ∈ orders) :
    order.Sublist rest := by
  induction steps generalizing orders order rest with
  | zero =>
    rcases merge_eq_some_cases merged with ⟨empty, rfl⟩ | ⟨_, _, _, impossible, _⟩
    · rw [empty order member]
    · cases impossible
  | succ steps ih =>
    rcases merge_eq_some_cases merged with ⟨empty, rfl⟩ | ⟨fewer, c, rest, same, chosen, later, rfl⟩
    · rw [empty order member]
    · cases same
      have kept := ih later (List.mem_map_of_mem member)
      by_cases headed : order.head? = some c
      · rw [if_pos headed] at kept
        rw [List.eq_cons_of_mem_head? headed]
        exact kept.cons_cons c
      · rw [if_neg headed] at kept
        exact kept.cons c

/-- An order without repetition keeps all these. -/
def KeptBy (orders : List (List ClassId)) (order : List ClassId) : Prop :=
  order.Nodup ∧ ∀ kept ∈ orders, kept.Sublist order

theorem KeptBy.advance (h : KeptBy orders order) (c : ClassId) :
    KeptBy (advance c orders) order := by
  refine ⟨h.1, fun kept member => ?_⟩
  obtain ⟨before, listed, rfl⟩ := List.mem_map.mp member
  exact (advanced_sublist c before).trans (h.2 before listed)

theorem KeptBy.exists_next? (h : KeptBy orders order) (left : ∃ kept ∈ orders, kept ≠ []) :
    ∃ c, next? orders = some c := by
  obtain ⟨nodup, sublist⟩ := h
  induction order with
  | nil =>
    obtain ⟨kept, member, full⟩ := left
    exact absurd (List.sublist_nil.mp (sublist kept member)) full
  | cons c order ih =>
    obtain ⟨fresh, nodup⟩ := List.nodup_cons.mp nodup
    have cases (kept : List ClassId) (member : kept ∈ orders) :
        kept.Sublist order ∨ ∃ later, kept = c :: later ∧ later.Sublist order :=
      List.sublist_cons_iff.mp (sublist kept member)
    -- A class that begins one of the orders stands in the tail of none, and else all are kept without it.
    by_cases headed : ∃ kept ∈ orders, kept.head? = some c
    · have free : eligible orders c = true := eligible_iff.mpr fun kept member inside => by
        rcases cases kept member with below | ⟨later, rfl, below⟩
        · exact fresh (below.subset (List.mem_of_mem_tail inside))
        · exact fresh (below.subset inside)
      have candidate : c ∈ orders.filterMap List.head? := List.mem_filterMap.mpr headed
      exact Option.isSome_iff_exists.mp (List.find?_isSome.mpr ⟨c, candidate, free⟩)
    · refine ih nodup fun kept member => ?_
      rcases cases kept member with below | ⟨later, rfl, -⟩
      · exact below
      · exact absurd ⟨_, member, rfl⟩ headed

theorem Merges.isSome (merges : Merges orders result) (h : KeptBy orders order) :
    result.isSome = true := by
  induction merges with
  | done => rfl
  | stuck left blocked =>
    obtain ⟨c, chosen⟩ := h.exists_next? left
    rw [blocked] at chosen
    cases chosen
  | step _ _ ih =>
    rw [Option.isSome_map]
    exact ih (h.advance _)

/-- The merge finds an order that keeps all orders exactly if there is one. -/
theorem isSome_merge_iff :
    (merge (stepsFor orders) orders).isSome = true ↔ ∃ order, KeptBy orders order := by
  constructor
  · intro found
    obtain ⟨rest, merged⟩ := Option.isSome_iff_exists.mp found
    exact ⟨rest, nodup_merge merged, fun _ member => sublist_of_merge merged member⟩
  · rintro ⟨order, kept⟩
    exact (merges_iff.mpr rfl).isSome kept

/-! ### First occurrences -/

theorem firstOccurrences_filter (p : ClassId → Bool) (cs : List ClassId) :
    firstOccurrences (cs.filter p) = (firstOccurrences cs).filter p := by
  induction cs with
  | nil => rfl
  | cons c cs ih =>
    cases kept : p c with
    | true =>
      rw [List.filter_cons_of_pos kept, firstOccurrences, firstOccurrences, ih,
        List.filter_cons_of_pos kept, List.filter_filter, List.filter_filter]
      simp only [Bool.and_comm]
    | false =>
      have dropped : ¬ p c = true := by simp [kept]
      rw [List.filter_cons_of_neg dropped, firstOccurrences, List.filter_cons_of_neg dropped, ih,
        List.filter_filter]
      refine List.filter_congr fun d _ => ?_
      by_cases same : d = c <;> simp [same, kept]

theorem firstOccurrences_eq_eraseDups (cs : List ClassId) : firstOccurrences cs = cs.eraseDups := by
  induction length : cs.length using Nat.strongRecOn generalizing cs with
  | ind n ih =>
    cases cs with
    | nil => rfl
    | cons c cs =>
      have shorter : (cs.filter fun d => !d == c).length < n := by
        rw [← length]
        exact Nat.lt_succ_of_le (List.length_filter_le _ cs)
      rw [firstOccurrences, List.eraseDups_cons, ← ih _ shorter _ rfl, firstOccurrences_filter]
      congr 1
      exact List.filter_congr fun d _ => by by_cases same : d = c <;> simp [same]

end Linearize

/-! ### Orders of ancestors -/

namespace ClassTable

/-- An order, without repetition, of all classes behind these bases, that keeps the lookup order of each
base and the order of the bases. -/
structure Consistent (t : ClassTable) (bases order : List ClassId) : Prop where
  nodup : order.Nodup
  ancestors : ∀ a, a ∈ order ↔ ∃ base ∈ bases, t.Reaches base a
  orders : ∀ base ∈ bases, (t.mro base).Sublist order
  bases : bases.Sublist order

variable {t : ClassTable} {bases order : List ClassId} {a : ClassId}

theorem Consistent.keptBy (h : t.Consistent bases order) :
    Linearize.KeptBy (bases.map t.mro ++ [bases]) order := by
  refine ⟨h.nodup, fun kept member => ?_⟩
  rcases List.mem_append.mp member with listed | last
  · obtain ⟨base, inside, rfl⟩ := List.mem_map.mp listed
    exact h.orders base inside
  · exact List.mem_singleton.mp last ▸ h.bases

theorem mem_orders_iff (lin : t.Linearized) (earlier : t.BasesEarlier)
    (known : ∀ base ∈ bases, base < t.size) :
    (∃ kept ∈ bases.map t.mro ++ [bases], a ∈ kept) ↔ ∃ base ∈ bases, t.Reaches base a := by
  constructor
  · rintro ⟨kept, member, inside⟩
    rcases List.mem_append.mp member with listed | last
    · obtain ⟨base, own, rfl⟩ := List.mem_map.mp listed
      exact ⟨base, own, (mem_mro_iff lin earlier (known base own)).mp inside⟩
    · exact ⟨a, List.mem_singleton.mp last ▸ inside, .refl⟩
  · rintro ⟨base, listed, reached⟩
    exact ⟨t.mro base, List.mem_append_left _ (List.mem_map_of_mem listed),
      (mem_mro_iff lin earlier (known base listed)).mpr reached⟩

theorem consistent_of_merge (lin : t.Linearized) (earlier : t.BasesEarlier)
    (known : ∀ base ∈ bases, base < t.size) {steps : Nat}
    (merged : Linearize.merge steps (bases.map t.mro ++ [bases]) = some order) :
    t.Consistent bases order where
  nodup := Linearize.nodup_merge merged
  ancestors _ := (Linearize.mem_merge_iff merged).trans (mem_orders_iff lin earlier known)
  orders _ member := Linearize.sublist_of_merge merged
    (List.mem_append_left _ (List.mem_map_of_mem member))
  bases := Linearize.sublist_of_merge merged (List.mem_append_right _ List.mem_cons_self)

theorem consistent_ancestors (lin : t.Linearized) (earlier : t.BasesEarlier)
    (known : ∀ base ∈ bases, base < t.size) (possible : ∃ order, t.Consistent bases order) :
    t.Consistent bases (Linearize.ancestors (bases.map t.mro) bases) := by
  obtain ⟨order, consistent⟩ := possible
  obtain ⟨found, merged⟩ := Option.isSome_iff_exists.mp
    (Linearize.isSome_merge_iff.mpr ⟨order, consistent.keptBy⟩)
  rw [Linearize.ancestors, merged]
  exact consistent_of_merge lin earlier known merged

theorem ancestors_of_inconsistent (lin : t.Linearized) (earlier : t.BasesEarlier)
    (known : ∀ base ∈ bases, base < t.size) (impossible : ¬ ∃ order, t.Consistent bases order) :
    Linearize.ancestors (bases.map t.mro) bases = (bases.flatMap t.mro).eraseDups := by
  rw [Linearize.ancestors]
  cases merged : Linearize.merge (Linearize.stepsFor (bases.map t.mro ++ [bases]))
      (bases.map t.mro ++ [bases]) with
  | none => exact Linearize.firstOccurrences_eq_eraseDups _
  | some order => exact absurd ⟨order, consistent_of_merge lin earlier known merged⟩ impossible

end ClassTable

open Builder

/-- The lookup order of a new class holds the class and behind it its ancestors in a consistent order,
if there is one, and else the lookup orders of its bases one after the other, without what was there
before. The merge that finds the order stops on any orders. -/
theorem lookup_order_consistent_if_possible {made : List Expr} {b : Builder} (built : Built made b)
    (name : String) (typeVars : List String) (bases : List Instance) :
    let t := ((newClass name typeVars bases).run b).2.classes
    let c := b.classes.size
    let ids := (t.bases c).map (·.cls)
    t.BasesEarlier →
    (bases ≠ [] → ids = bases.map (·.cls)) ∧
    ((∃ order, t.Consistent ids order) → ∃ order, t.Consistent ids order ∧ t.mro c = c :: order) ∧
    ((¬ ∃ order, t.Consistent ids order) → t.mro c = c :: (ids.flatMap t.mro).eraseDups) ∧
    ∀ orders result, Linearize.Merges orders result ↔
      result = Linearize.merge (Linearize.stepsFor orders) orders := by
  intro t c ids earlier
  have lin : t.Linearized := (built.newClass name typeVars bases).linearized
  have size : t.size = c + 1 := ClassTable.size_push _ _
  have known : ∀ base ∈ ids, base < t.size := by
    intro id member
    obtain ⟨base, listed, rfl⟩ := List.mem_map.mp member
    exact Nat.lt_trans (earlier c base listed) (size ▸ Nat.lt_succ_self c)
  have own : t.mro c = c :: Linearize.ancestors (ids.map t.mro) ids :=
    lin c (size ▸ Nat.lt_succ_self c) (earlier c)
  refine ⟨fun given => ?_, fun possible => ?_, fun impossible => ?_, fun _ _ =>
    Linearize.merges_iff⟩
  · have kept : t.bases c = bases := by
      have written : (bases.isEmpty && b.qualify name != "builtins.object") = false := by
        simp [List.isEmpty_eq_false_iff.mpr given]
      show ((b.classes.push _).info b.classes.size).bases = bases
      rw [ClassTable.info_push_self]
      exact if_neg (by simp [written])
    exact congrArg (List.map (·.cls)) kept
  · exact ⟨_, ClassTable.consistent_ancestors lin earlier known possible, own⟩
  · rw [own, ClassTable.ancestors_of_inconsistent lin earlier known impossible]

/-- A builder with a class behind two others. -/
def Builder.forked : Builder :=
  let declared : Build Unit := do
    let root ← newPlainClass "Root" []
    discard <| newPlainClass "Left" [root]
    discard <| newPlainClass "Right" [root]
  (declared.run .bare).2

theorem Builder.forked_built : Built [] .forked :=
  (Declares.newPlainClass.bind fun _ => Declares.newPlainClass.discard.bind fun _ =>
    Declares.newPlainClass.discard) [] .bare .bare

/-- A class may have these two as its bases in any order, but not the class behind them in front of one
of them. -/
theorem forked_orders :
    let base (c : ClassId) : Instance := Builder.forked.classes.instanceOf c []
    let diamond := ((newClass "Diamond" [] [base 1, base 2]).run .forked).2.classes
    let contrary := ((newClass "Contrary" [] [base 0, base 2]).run .forked).2.classes
    (∃ order, diamond.Consistent [1, 2] order ∧ diamond.mro 3 = 3 :: order) ∧
      diamond.mro 3 = [3, 1, 2, 0] ∧ (¬ ∃ order, contrary.Consistent [0, 2] order) ∧
      contrary.mro 3 = 3 :: ([0, 2].flatMap contrary.mro).eraseDups ∧ contrary.mro 3 = [3, 0, 2] ∧
      Linearize.Merges ([[0], [2, 0]] ++ [[0, 2]]) none := by
  intro base diamond contrary
  have built := Builder.forked_built
  have linearized : diamond.Linearized := (built.newClass _ _ _).linearized
  have earlier : diamond.BasesEarlier := by decide +kernel
  obtain ⟨-, found, -, -⟩ :=
    lookup_order_consistent_if_possible built "Diamond" [] [base 1, base 2] earlier
  obtain ⟨-, -, failed, stops⟩ :=
    lookup_order_consistent_if_possible built "Contrary" [] [base 0, base 2] (by decide +kernel)
  have possible : diamond.Consistent [1, 2] [1, 2, 0] :=
    ClassTable.consistent_of_merge linearized earlier (by decide +kernel)
      (show Linearize.merge 7 _ = some [1, 2, 0] by decide +kernel)
  have impossible : ¬ ∃ order, contrary.Consistent [0, 2] order := by
    rintro ⟨order, consistent⟩
    have found := Linearize.isSome_merge_iff.mpr ⟨order, consistent.keptBy⟩
    have stuck : (Linearize.merge (Linearize.stepsFor ([0, 2].map contrary.mro ++ [[0, 2]]))
        ([0, 2].map contrary.mro ++ [[0, 2]])).isSome = false := by decide +kernel
    rw [stuck] at found
    cases found
  exact ⟨found ⟨_, possible⟩, by decide +kernel, impossible, failed impossible, by decide +kernel,
    (stops _ _).mpr (by decide +kernel)⟩

end Gradual
