import Gradual.Proofs.Builders
import Gradual.Proofs.Subtyping
import Mathlib.Logic.Relation

/-!
Lookup orders. The merge of the orders of the bases takes a class off all the orders at once, and the
order without a merge keeps first occurrences, so either way a class finds itself first and then, each
once, the classes that it reaches along its bases.
-/

namespace Gradual

/-! ### Merged orders -/

namespace Linearize

variable {steps : Nat} {orders : List (List ClassId)} {order result : List ClassId} {a c : ClassId}

theorem eligible_iff : eligible orders c = true ↔ ∀ order ∈ orders, c ∉ order.tail := by
  simp [eligible]

theorem eligible_of_next? (chosen : next? orders = some c) : eligible orders c = true :=
  List.find?_some chosen

theorem exists_head_of_next? (chosen : next? orders = some c) :
    ∃ order ∈ orders, order.head? = some c := by
  simpa using List.mem_of_find?_eq_some chosen

/-- An order loses a class that stands nowhere but at its head. -/
theorem mem_advanced_iff (front : c ∉ order.tail) :
    a ∈ (if order.head? = some c then order.tail else order) ↔ a ≠ c ∧ a ∈ order := by
  cases order with
  | nil => simp
  | cons d rest =>
    simp only [List.tail_cons] at front
    by_cases same : d = c
    · subst same
      simp only [List.head?_cons, List.tail_cons, List.mem_cons, if_true]
      constructor
      · intro later
        exact ⟨fun same => front (same ▸ later), .inr later⟩
      · rintro ⟨other, rfl | later⟩
        · exact absurd rfl other
        · exact later
    · simp only [List.head?_cons, Option.some.injEq, same, if_false, List.mem_cons]
      constructor
      · rintro (rfl | later)
        · exact ⟨same, .inl rfl⟩
        · exact ⟨fun same => front (same ▸ later), .inr later⟩
      · exact And.right

theorem mem_advance_iff (front : eligible orders c = true) :
    (∃ order ∈ advance c orders, a ∈ order) ↔ a ≠ c ∧ ∃ order ∈ orders, a ∈ order := by
  rw [eligible_iff] at front
  constructor
  · rintro ⟨_, advanced, later⟩
    obtain ⟨order, member, rfl⟩ := List.mem_map.mp advanced
    obtain ⟨other, inside⟩ := (mem_advanced_iff (front order member)).mp later
    exact ⟨other, order, member, inside⟩
  · rintro ⟨other, order, member, inside⟩
    exact ⟨_, List.mem_map_of_mem member, (mem_advanced_iff (front order member)).mpr ⟨other, inside⟩⟩

theorem merge_eq_some_cases (merged : merge steps orders = some result) :
    (∀ order ∈ orders, order = []) ∧ result = [] ∨
      ∃ fewer c rest, steps = fewer + 1 ∧ next? orders = some c ∧
        merge fewer (advance c orders) = some rest ∧ result = c :: rest := by
  have done (empty : orders.all List.isEmpty = true) : ∀ order ∈ orders, order = [] := by
    simpa using empty
  cases steps with
  | zero =>
    simp only [merge, Option.ite_none_right_eq_some, Option.some.injEq] at merged
    exact .inl ⟨done merged.1, merged.2.symm⟩
  | succ fewer =>
    simp only [merge] at merged
    split at merged
    · rename_i empty
      exact .inl ⟨done empty, (Option.some.inj merged).symm⟩
    · simp only [Option.bind_eq_bind, Option.bind_eq_some_iff] at merged
      obtain ⟨c, chosen, rest, later, made⟩ := merged
      exact .inr ⟨fewer, c, rest, rfl, chosen, later, (Option.some.inj made).symm⟩

theorem mem_merge_iff (merged : merge steps orders = some result) :
    a ∈ result ↔ ∃ order ∈ orders, a ∈ order := by
  have nothing {orders : List (List ClassId)} (empty : ∀ order ∈ orders, order = []) :
      a ∈ ([] : List ClassId) ↔ ∃ order ∈ orders, a ∈ order := by
    simp only [List.not_mem_nil, false_iff, not_exists, not_and]
    intro order member
    simp [empty order member]
  induction steps generalizing orders result with
  | zero =>
    rcases merge_eq_some_cases merged with ⟨empty, rfl⟩ | ⟨_, _, _, impossible, _⟩
    · exact nothing empty
    · cases impossible
  | succ steps ih =>
    rcases merge_eq_some_cases merged with ⟨empty, rfl⟩ | ⟨fewer, c, rest, same, chosen, later, rfl⟩
    · exact nothing empty
    · cases same
      obtain ⟨order, member, head⟩ := exists_head_of_next? chosen
      have listed : c ∈ order := List.mem_of_mem_head? head
      have behind : a ∈ rest ↔ a ≠ c ∧ ∃ order ∈ orders, a ∈ order :=
        (ih later).trans (mem_advance_iff (eligible_of_next? chosen))
      rw [List.mem_cons, behind]
      constructor
      · rintro (rfl | ⟨-, inside⟩)
        · exact ⟨order, member, listed⟩
        · exact inside
      · intro inside
        by_cases first : a = c
        · exact .inl first
        · exact .inr ⟨first, inside⟩

theorem nodup_merge (merged : merge steps orders = some result) : result.Nodup := by
  induction steps generalizing orders result with
  | zero =>
    rcases merge_eq_some_cases merged with ⟨_, rfl⟩ | ⟨_, _, _, impossible, _⟩
    · exact List.nodup_nil
    · cases impossible
  | succ steps ih =>
    rcases merge_eq_some_cases merged with ⟨_, rfl⟩ | ⟨fewer, c, rest, same, chosen, later, rfl⟩
    · exact List.nodup_nil
    · cases same
      refine List.nodup_cons.mpr ⟨fun again => ?_, ih later⟩
      rw [mem_merge_iff later, mem_advance_iff (eligible_of_next? chosen)] at again
      exact again.1 rfl

theorem mem_firstOccurrences_iff {cs : List ClassId} : a ∈ firstOccurrences cs ↔ a ∈ cs := by
  induction cs with
  | nil => rfl
  | cons c cs ih =>
    simp only [firstOccurrences, List.mem_cons, List.mem_filter, ih]
    by_cases same : a = c <;> simp [same]

theorem nodup_firstOccurrences (cs : List ClassId) : (firstOccurrences cs).Nodup := by
  induction cs with
  | nil => exact List.nodup_nil
  | cons c cs ih =>
    rw [firstOccurrences, List.nodup_cons]
    exact ⟨by simp, ih.filter _⟩

variable {baseOrders : List (List ClassId)} {bases : List ClassId}

/-- Merged or not, the ancestors are what the orders of the bases hold. -/
theorem mem_ancestors_iff (own : ∀ base ∈ bases, ∃ order ∈ baseOrders, base ∈ order) :
    a ∈ ancestors baseOrders bases ↔ ∃ order ∈ baseOrders, a ∈ order := by
  unfold ancestors
  extract_lets orders
  cases merged : merge (stepsFor orders) orders with
  | none => simp [mem_firstOccurrences_iff]
  | some result =>
    simp only [Option.getD_some, mem_merge_iff merged, orders, List.mem_append, List.mem_singleton]
    constructor
    · rintro ⟨order, member | rfl, inside⟩
      · exact ⟨order, member, inside⟩
      · exact own a inside
    · rintro ⟨order, member, inside⟩
      exact ⟨order, .inl member, inside⟩

theorem nodup_ancestors : (ancestors baseOrders bases).Nodup := by
  unfold ancestors
  extract_lets orders
  cases merged : merge (stepsFor orders) orders with
  | none => exact nodup_firstOccurrences _
  | some result => exact nodup_merge merged

end Linearize

/-! ### Classes behind a class -/

namespace ClassTable

variable {t : ClassTable} {a c d : ClassId}

/-- The bases of each class come before it in the table. -/
def BasesEarlier (t : ClassTable) : Prop := ∀ c, ∀ base ∈ t.bases c, base.cls < c

def HasBase (t : ClassTable) (c a : ClassId) : Prop := ∃ base ∈ t.bases c, base.cls = a

/-- The one class leads to the other along bases, in zero or more steps. -/
def Reaches (t : ClassTable) : ClassId → ClassId → Prop := Relation.ReflTransGen t.HasBase

/-- The lookup order of each class is made of those of its bases, where these come before it. -/
def Linearized (t : ClassTable) : Prop :=
  ∀ c < t.size, (∀ base ∈ t.bases c, base.cls < c) →
    let bases := (t.bases c).map (·.cls)
    t.mro c = c :: Linearize.ancestors (bases.map t.mro) bases

instance (t : ClassTable) : Decidable t.BasesEarlier :=
  decidable_of_iff (∀ c < t.size, ∀ base ∈ t.bases c, base.cls < c) forall_bases_iff

theorem lt_size_of_derives (h : t.derives c a = true) : c < t.size := by
  by_contra outside
  simp [derives, mro_of_le (Nat.le_of_not_lt outside)] at h

theorem derives_iff : t.derives c a = true ↔ a ∈ t.mro c := by
  simp [derives]

theorem Linearized.push {i : ClassInfo} (h : t.Linearized)
    (made : let bases := i.bases.map (·.cls)
      i.mro = t.size :: Linearize.ancestors (bases.map t.mro) bases) : (t.push i).Linearized := by
  intro c known earlier
  have old {d : ClassId} (within : d < t.size) : (t.push i).info d = t.info d :=
    info_push_of_lt within
  have oldOrders {ids : List ClassId} (within : ∀ d ∈ ids, d < t.size) :
      ids.map (t.push i).mro = ids.map t.mro :=
    List.map_congr_left fun d member => by rw [mro, mro, old (within d member)]
  rw [size_push] at known
  by_cases new : c = t.size
  · subst new
    simp only [bases, mro, info_push_self] at earlier ⊢
    rw [made, oldOrders]
    simpa using earlier
  · have within : c < t.size := by omega
    have before : ∀ d ∈ (t.bases c).map (·.cls), d < t.size := by
      simp only [bases, old within, List.mem_map] at earlier ⊢
      rintro d ⟨base, member, rfl⟩
      exact Nat.lt_trans (earlier base member) within
    have kept := h c within (by simpa only [bases, old within] using earlier)
    simp only [bases, mro, old within] at kept before ⊢
    rw [oldOrders before]
    exact kept

theorem info_modify {f : ClassInfo → ClassInfo} :
    (t.modify d f).info c = if c = d ∧ c < t.size then f (t.info c) else t.info c := by
  simp only [info, modify, size, Array.getD_eq_getD_getElem?, Array.getElem?_modify]
  by_cases same : d = c
  · subst same
    by_cases within : d < t.classes.size <;> simp [within]
  · simp [same, Ne.symm same]

@[simp] theorem size_modify {f : ClassInfo → ClassInfo} : (t.modify d f).size = t.size := by
  simp [size, modify]

theorem bases_modify {f : ClassInfo → ClassInfo} (kept : ∀ i, (f i).bases = i.bases) :
    (t.modify d f).bases = t.bases := by
  funext c
  simp only [ClassTable.bases, info_modify]
  split <;> simp [kept]

theorem mro_modify {f : ClassInfo → ClassInfo} (kept : ∀ i, (f i).mro = i.mro) :
    (t.modify d f).mro = t.mro := by
  funext c
  simp only [ClassTable.mro, info_modify]
  split <;> simp [kept]

theorem Linearized.modify {f : ClassInfo → ClassInfo} (h : t.Linearized)
    (bases : ∀ i, (f i).bases = i.bases) (mro : ∀ i, (f i).mro = i.mro) :
    (t.modify d f).Linearized := by
  intro c known earlier
  rw [size_modify] at known
  rw [bases_modify bases] at earlier ⊢
  rw [mro_modify mro]
  exact h c known earlier

/-! ### Along the bases -/

theorem Reaches.le (earlier : t.BasesEarlier) (h : t.Reaches c a) : a ≤ c := by
  induction h with
  | refl => exact Nat.le_refl c
  | tail _ step ih =>
    obtain ⟨base, member, rfl⟩ := step
    exact Nat.le_trans (Nat.le_of_lt (earlier _ base member)) ih

theorem reaches_iff : t.Reaches c a ↔ a = c ∨ ∃ base ∈ t.bases c, t.Reaches base.cls a := by
  unfold Reaches
  rw [Relation.ReflTransGen.cases_head_iff]
  constructor
  · rintro (rfl | ⟨_, ⟨base, member, rfl⟩, rest⟩)
    · exact .inl rfl
    · exact .inr ⟨base, member, rest⟩
  · rintro (rfl | ⟨base, member, rest⟩)
    · exact .inl rfl
    · exact .inr ⟨base.cls, ⟨base, member, rfl⟩, rest⟩

theorem mem_mro_iff (lin : t.Linearized) (earlier : t.BasesEarlier) (known : c < t.size) :
    a ∈ t.mro c ↔ t.Reaches c a := by
  induction c using Nat.strongRecOn with
  | ind c ih =>
    have behind : ∀ base ∈ t.bases c, (a ∈ t.mro base.cls ↔ t.Reaches base.cls a) :=
      fun base member =>
        ih base.cls (earlier c base member) (Nat.lt_trans (earlier c base member) known)
    have own : ∀ d ∈ (t.bases c).map (·.cls), ∃ order ∈ ((t.bases c).map (·.cls)).map t.mro,
        d ∈ order := by
      intro d member
      obtain ⟨base, listed, rfl⟩ := List.mem_map.mp member
      have within := Nat.lt_trans (earlier c base listed) known
      refine ⟨t.mro base.cls, List.mem_map_of_mem member, ?_⟩
      rw [lin base.cls within (earlier base.cls)]
      exact List.mem_cons_self
    rw [lin c known (earlier c), List.mem_cons, Linearize.mem_ancestors_iff own, reaches_iff]
    simp only [List.mem_map, exists_exists_and_eq_and]
    refine or_congr_right (exists_congr fun base => ?_)
    constructor
    · rintro ⟨member, inside⟩
      exact ⟨member, (behind base member).mp inside⟩
    · rintro ⟨member, inside⟩
      exact ⟨member, (behind base member).mpr inside⟩

theorem nodup_mro (lin : t.Linearized) (earlier : t.BasesEarlier) (known : c < t.size) :
    (t.mro c).Nodup := by
  have within : ∀ d ∈ (t.bases c).map (·.cls), d < c ∧ d < t.size := by
    intro d member
    obtain ⟨base, listed, rfl⟩ := List.mem_map.mp member
    exact ⟨earlier c base listed, Nat.lt_trans (earlier c base listed) known⟩
  have own : ∀ d ∈ (t.bases c).map (·.cls), ∃ order ∈ ((t.bases c).map (·.cls)).map t.mro,
      d ∈ order := fun d member =>
    ⟨t.mro d, List.mem_map_of_mem member,
      (mem_mro_iff lin earlier (within d member).2).mpr .refl⟩
  rw [lin c known (earlier c), List.nodup_cons]
  refine ⟨fun again => ?_, Linearize.nodup_ancestors⟩
  rw [Linearize.mem_ancestors_iff own] at again
  obtain ⟨order, member, inside⟩ := again
  obtain ⟨d, listed, rfl⟩ := List.mem_map.mp member
  obtain ⟨before, known'⟩ := within d listed
  have back := ((mem_mro_iff lin earlier known').mp inside).le earlier
  exact Nat.not_lt.mpr back before

theorem derives_iff_reaches (lin : t.Linearized) (earlier : t.BasesEarlier) :
    t.derives c a = true ↔ c < t.size ∧ t.Reaches c a := by
  rw [derives_iff]
  constructor
  · intro member
    have known := lt_size_of_derives (derives_iff.mpr member)
    exact ⟨known, (mem_mro_iff lin earlier known).mp member⟩
  · rintro ⟨known, reached⟩
    exact (mem_mro_iff lin earlier known).mpr reached

theorem derives_self (lin : t.Linearized) (earlier : t.BasesEarlier) (known : c < t.size) :
    t.derives c c = true := (derives_iff_reaches lin earlier).mpr ⟨known, .refl⟩

theorem derives_trans (lin : t.Linearized) (earlier : t.BasesEarlier)
    (first : t.derives c d = true) (second : t.derives d a = true) : t.derives c a = true := by
  rw [derives_iff_reaches lin earlier] at first second ⊢
  exact ⟨first.1, first.2.trans second.2⟩

theorem acyclic (lin : t.Linearized) (earlier : t.BasesEarlier) : t.Acyclic := by
  intro c d there back
  rw [derives_iff_reaches lin earlier] at there back
  exact Nat.le_antisymm (back.2.le earlier) (there.2.le earlier)

end ClassTable

/-! ### Class tables of builders -/

open Builder

theorem Builder.Built.linearized {made : List Expr} {b : Builder} (h : Built made b) :
    b.classes.Linearized := by
  induction h with
  | bare => exact fun c known => absurd known (Nat.not_lt_zero c)
  | newClass _ name typeVars bases ih => exact ih.push rfl
  | setAbstract _ c ih | declare _ c _ _ ih => exact ih.modify (fun _ => rfl) fun _ => rfl
  | setLine _ _ ih | enterModule _ _ ih | define _ _ _ ih | newVar _ _ _ _ _ ih | provide _ _ _ ih
  | expr _ _ _ ih | push _ _ _ ih => exact ih

/-- In every class table that a builder can make, from bases that are there before, the lookup order of
a class holds the class first and then, each once, what it reaches along bases; so derivation is a
partial order. -/
theorem lookup_order_holds_ancestors {made : List Expr} {b : Builder} (built : Built made b)
    (earlier : b.classes.BasesEarlier) :
    (∀ c < b.classes.size, (b.classes.mro c).head? = some c ∧ (b.classes.mro c).Nodup ∧
      ∀ a, a ∈ b.classes.mro c ↔ b.classes.Reaches c a) ∧
    (∀ c < b.classes.size, b.classes.derives c c = true) ∧
    (∀ c d a, b.classes.derives c d = true → b.classes.derives d a = true →
      b.classes.derives c a = true) ∧
    ∀ c d, b.classes.derives c d = true → b.classes.derives d c = true → c = d := by
  have lin := built.linearized
  refine ⟨fun c known => ⟨?_, ClassTable.nodup_mro lin earlier known, fun a => ?_⟩, fun c known => ?_,
    fun c d a => ?_, ClassTable.acyclic lin earlier⟩
  · rw [lin c known (earlier c), List.head?_cons]
  · exact ClassTable.mem_mro_iff lin earlier known
  · exact ClassTable.derives_self lin earlier known
  · exact ClassTable.derives_trans lin earlier

/-- A builder with a class behind two others, one that derives from both of these, one whose bases are
in no consistent order, one with a base twice, and one behind the last three. -/
def Builder.tangled : Builder :=
  let declared : Build Unit := do
    let root ← newPlainClass "Root" []
    let left ← newPlainClass "Left" [root]
    let right ← newPlainClass "Right" [root]
    let diamond ← newPlainClass "Diamond" [left, right]
    let contrary ← newPlainClass "Contrary" [root, right]
    let twice ← newPlainClass "Twice" [left, left]
    discard <| newPlainClass "All" [twice, contrary, diamond]
  (declared.run .bare).2

theorem Builder.tangled_built : Built [] .tangled :=
  (Declares.newPlainClass.bind fun _ => Declares.newPlainClass.bind fun _ =>
    Declares.newPlainClass.bind fun _ => Declares.newPlainClass.bind fun _ =>
      Declares.newPlainClass.bind fun _ => Declares.newPlainClass.bind fun _ =>
        Declares.newPlainClass.discard) [] .bare .bare

/-- Merged or not, the orders are without repetition. -/
theorem tangled_orders :
    let t := Builder.tangled.classes
    t.mro 3 = [3, 1, 2, 0] ∧ t.mro 4 = [4, 0, 2] ∧ t.mro 5 = [5, 1, 0] ∧
      (t.mro 6).Nodup ∧ (∀ a, a ∈ t.mro 6 ↔ t.Reaches 6 a) ∧ t.derives 6 0 = true := by
  intro t
  obtain ⟨orders, -, trans, -⟩ := lookup_order_holds_ancestors Builder.tangled_built (by decide +kernel)
  obtain ⟨-, once, reached⟩ := orders 6 (by decide +kernel)
  exact ⟨by decide +kernel, by decide +kernel, by decide +kernel, once, reached,
    trans 6 3 0 (by decide +kernel) (by decide +kernel)⟩

end Gradual
