import Gradual.Proofs.Alike

/-!
What a join is above. Where the one type is static but for markers at its top and in tuples, the join
is above it and above the other one, and whatever fits the one type fits the join.
-/

namespace Gradual

/-- Types over a vocabulary with markers at the top and as items of tuples only. -/
inductive Ty.Loose (voc : Vocabulary) : Ty → Prop
  | dynamic {t : Ty} : t.isDynamic = true → Loose voc t
  | void : Loose voc .void
  | static {t : Ty} : t.Regular voc true → Loose voc t
  | tuple {items : List Ty} : (∀ a ∈ items, Loose voc a) → Loose voc (.tuple items)

variable {voc : Vocabulary} {s t u x : Ty} {i j k : Instance}

namespace Ty.Loose

theorem regular (h : t.Loose voc) : t.Regular voc false := by
  induction h with
  | dynamic marked => exact .dynamic marked
  | void => exact .void
  | static regular => exact regular.loosen
  | tuple _ ih => exact .tuple ih

theorem items {items : List Ty} (h : (Ty.tuple items).Loose voc) : ∀ a ∈ items, a.Loose voc := by
  cases h with
  | dynamic marked => cases marked
  | static regular => exact fun a member => .static (Ty.Regular.tuple_iff.mp regular a member)
  | tuple each => exact each

/-- Apart from markers and tuples, such a type is static. -/
theorem static_of (h : t.Loose voc) (value : t ≠ .void) (known : t.isDynamic = false)
    (other : ∀ items, t ≠ .tuple items) : t.Regular voc true := by
  cases h with
  | dynamic marked => rw [known] at marked; cases marked
  | void => exact absurd rfl value
  | static regular => exact regular
  | tuple => exact absurd rfl (other _)

end Ty.Loose

/-! ### Above the first type -/

namespace ClassTable.Coherent

open TypeOrder

variable (coh : voc.classes.Coherent)
include coh

/-- What is a subtype of a tuple is one of whatever all those tuples are subtypes of. -/
theorem le_of_le_tuple {static : Bool} {as : List Ty} (hx : x.Regular voc static) (value : u ≠ .void)
    (tuples : ∀ xs, (Ty.tuple xs).Regular voc false →
      voc.order.isSubtype (.tuple xs) (.tuple as) = true → voc.order.isSubtype (.tuple xs) u = true)
    (below : voc.order.isSubtype x (.tuple as) = true) : voc.order.isSubtype x u = true := by
  induction hx with
  | dynamic marked => exact coh.decides.dynamic_le marked
  | noneType => exact coh.decides.noneType_le value
  | tuple each => exact tuples _ (Ty.Regular.tuple each).weaken below
  | typeVar _ _ ih =>
    rcases (coh.decides.typeVar_le_iff (by simp)).mp below with ⟨_, differ, -⟩ | below
    · cases differ
    · exact (coh.decides.typeVar_le_iff value).mpr (.inr (ih below))
  | void | inst | callable => cases coh.decides.isSubtype_iff.mp below

theorem exists_object : ∃ k : Instance, voc.order.objectType = k.toTy ∧ k.toTy.Regular voc true ∧
    ∀ {static : Bool} {i : Instance}, i.toTy.Regular voc static →
      voc.order.isSubtype i.toTy k.toTy = true := by
  obtain ⟨c, known, found, arity, above⟩ := coh.object
  have regular : (voc.classes.instanceOf c []).toTy.Regular voc true := .inst known arity.symm (List.forall_mem_nil _)
  refine ⟨voc.classes.instanceOf c [], ?_, regular, fun {static i} hi => ?_⟩
  · have basic : voc.order.basic.object = some c := found
    rw [objectType, instance?, basic]
    rfl
  · obtain ⟨inside, -⟩ := Ty.Regular.inst_iff.mp hi
    obtain ⟨view, seen⟩ := coh.exists_view? hi (above _ inside)
    obtain ⟨-, length, -⟩ := Ty.Regular.inst_iff.mp (coh.regular_view? hi seen)
    rw [view?_cls seen, arity] at length
    refine (coh.inst_le_iff hi regular).mpr ⟨view, seen, ?_⟩
    rw [List.length_eq_zero_iff.mp length]
    exact .nil

end ClassTable.Coherent

/-! ### Covering -/

/-- The third type takes the place of the first one and is above the second one. What is said of the
first two types holds of it again. -/
structure Vocabulary.Covers (voc : Vocabulary) (s t u : Ty) : Prop where
  keeps : ∀ x, x.Regular voc false → voc.order.isSubtype x s = true → voc.order.isSubtype x u = true
  above : voc.order.isSubtype t u = true
  regular : u.Regular voc false
  loose : t.Loose voc → u.Loose voc
  static : s.Regular voc true → t.Regular voc true → u.Regular voc true

namespace Vocabulary.Covers

theorem of_dynamic (decides : voc.order.Decides) (marked : u.isDynamic = true)
    (marker : ¬ s.Regular voc true ∨ ¬ t.Regular voc true) : voc.Covers s t u where
  keeps _ _ _ := decides.le_dynamic marked
  above := decides.le_dynamic marked
  regular := .dynamic marked
  loose _ := .dynamic marked
  static hs ht := (marker.elim (· hs) (· ht)).elim

/-- A static type is kept by all that it is a subtype of. -/
theorem of_static (coh : voc.classes.Coherent) (hs : s.Regular voc true) (hu : u.Regular voc false)
    (below : voc.order.isSubtype s u = true) (above : voc.order.isSubtype t u = true)
    (loose : t.Loose voc → u.Loose voc) (static : t.Regular voc true → u.Regular voc true) :
    voc.Covers s t u :=
  ⟨fun _ hx first => coh.isSubtype_trans hx hs hu first below, above, hu, loose, fun _ => static⟩

end Vocabulary.Covers

/-- So do lists of types, place by place. -/
inductive Vocabulary.CoversEach (voc : Vocabulary) : List Ty → List Ty → List Ty → Prop
  | nil : CoversEach voc [] [] []
  | cons {s t u : Ty} {ss ts us : List Ty} :
    voc.Covers s t u → CoversEach voc ss ts us → CoversEach voc (s :: ss) (t :: ts) (u :: us)

namespace Vocabulary.CoversEach

variable {ss ts us : List Ty} (each : voc.CoversEach ss ts us)
include each

theorem keeps {xs : List Ty} (hx : ∀ x ∈ xs, x.Regular voc false)
    (below : List.Forall₂ (fun a b => voc.order.isSubtype a b = true) xs ss) :
    List.Forall₂ (fun a b => voc.order.isSubtype a b = true) xs us := by
  induction each generalizing xs with
  | nil => exact below
  | cons first _ ih =>
    cases below with
    | cons one others =>
      obtain ⟨regular, rest⟩ := List.forall_mem_cons.mp hx
      exact .cons (first.keeps _ regular one) (ih rest others)

theorem above : List.Forall₂ (fun a b => voc.order.isSubtype a b = true) ts us := by
  induction each with
  | nil => exact .nil
  | cons first _ ih => exact .cons first.above ih

theorem length_eq : us.length = ss.length := by
  induction each with
  | nil => rfl
  | cons _ _ ih => exact congrArg (· + 1) ih

theorem regular : ∀ u ∈ us, u.Regular voc false := by
  induction each with
  | nil => exact List.forall_mem_nil _
  | cons first _ ih => exact List.forall_mem_cons.mpr ⟨first.regular, ih⟩

theorem loose (ht : ∀ t ∈ ts, t.Loose voc) : ∀ u ∈ us, u.Loose voc := by
  induction each with
  | nil => exact List.forall_mem_nil _
  | cons first _ ih =>
    obtain ⟨here, rest⟩ := List.forall_mem_cons.mp ht
    exact List.forall_mem_cons.mpr ⟨first.loose here, ih rest⟩

theorem static (hs : ∀ s ∈ ss, s.Regular voc true) (ht : ∀ t ∈ ts, t.Regular voc true) :
    ∀ u ∈ us, u.Regular voc true := by
  induction each with
  | nil => exact List.forall_mem_nil _
  | cons first _ ih =>
    obtain ⟨left, lefts⟩ := List.forall_mem_cons.mp hs
    obtain ⟨right, rights⟩ := List.forall_mem_cons.mp ht
    exact List.forall_mem_cons.mpr ⟨first.static left right, ih lefts rights⟩

end Vocabulary.CoversEach

/-- An instance above two others, static if the second one is. -/
structure Vocabulary.Bounds (voc : Vocabulary) (i j k : Instance) : Prop where
  left : voc.order.isSubtype i.toTy k.toTy = true
  right : voc.order.isSubtype j.toTy k.toTy = true
  regular : k.toTy.Regular voc false
  static : j.toTy.Regular voc true → k.toTy.Regular voc true

/-- The instance that takes part in joins for a type. -/
structure Vocabulary.CountsAs (voc : Vocabulary) (t : Ty) (i : Instance) : Prop where
  found : voc.order.joinInstance? t = some i
  keeps : t.Loose voc → ∀ x, x.Regular voc false → voc.order.isSubtype x t = true →
    voc.order.isSubtype x i.toTy = true
  passes : ∀ k : Instance, voc.order.isSubtype i.toTy k.toTy = true →
    voc.order.isSubtype t k.toTy = true
  regular : i.toTy.Regular voc false
  static : t.Loose voc → i.toTy.Regular voc true

/-! ### Joins -/

section Joins

open TypeOrder

variable {le : Ty → Ty → Option Bool} {join : Ty → Ty → Option Ty}

/-- Items are joined one by one. -/
theorem coversEach_of_mapM
    (joins : ∀ s t u, s.Loose voc → t.Regular voc false → join s t = some u → voc.Covers s t u)
    {ss ts us : List Ty} (length : ss.length = ts.length) (hs : ∀ s ∈ ss, s.Loose voc)
    (ht : ∀ t ∈ ts, t.Regular voc false)
    (made : ((ss.zip ts).mapM fun (s, t) => join s t) = some us) : voc.CoversEach ss ts us := by
  induction ss generalizing ts us with
  | nil =>
    obtain rfl := List.length_eq_zero_iff.mp length.symm
    cases made
    exact .nil
  | cons s ss ih =>
    cases ts with
    | nil => cases length
    | cons t ts =>
      rw [List.zip_cons_cons, List.mapM_cons] at made
      obtain ⟨first, met, made⟩ := Option.bind_eq_some_iff.mp made
      obtain ⟨others, rest, made⟩ := Option.bind_eq_some_iff.mp made
      cases made
      obtain ⟨loose, looses⟩ := List.forall_mem_cons.mp hs
      obtain ⟨regular, regulars⟩ := List.forall_mem_cons.mp ht
      exact .cons (joins _ _ _ loose regular met)
        (ih (Nat.succ.inj length) looses regulars rest)

variable (coh : voc.classes.Coherent) (answers : Extends voc.order.compare le)
  (joins : ∀ s t u, s.Loose voc → t.Regular voc false → join s t = some u → voc.Covers s t u)
include coh

theorem bounds_object (hi : i.toTy.Regular voc true) (hj : j.toTy.Regular voc false) :
    ∃ k : Instance, voc.order.objectType = k.toTy ∧ voc.Bounds i j k := by
  obtain ⟨k, made, regular, above⟩ := coh.exists_object
  exact ⟨k, made, above hi, above hj, regular.loosen, fun _ => regular⟩

include answers joins

theorem bounds_joinSameClass (hi : i.toTy.Regular voc true) (hj : j.toTy.Regular voc false)
    (same : i.cls = j.cls) (joined : voc.order.joinSameClass le join i j = some u) :
    ∃ k : Instance, u = k.toTy ∧ voc.Bounds i j k := by
  have fits {l r : Ty} (answer : le l r = some true) : voc.order.isSubtype l r = true :=
    compare_eq_some_true.mp (answers l r true answer)
  have selfLe {k : Instance} {static : Bool} (hk : k.toTy.Regular voc static) :
      voc.order.isSubtype k.toTy k.toTy = true := hk.isSubtype_self coh.decides
  obtain ⟨known, length, args⟩ := Ty.Regular.inst_iff.mp hi
  obtain ⟨-, length', args'⟩ := Ty.Regular.inst_iff.mp hj
  unfold joinSameClass at joined
  simp only [Option.bind_eq_bind, Option.bind_eq_some_iff] at joined
  obtain ⟨below, answer, joined⟩ := joined
  cases below with
  | true => exact ⟨j, (Option.some.inj joined).symm, fits answer, selfLe hj, hj, id⟩
  | false =>
    obtain ⟨above, answer', joined⟩ := Option.bind_eq_some_iff.mp joined
    cases above with
    | true =>
      exact ⟨i, (Option.some.inj joined).symm, selfLe hi, fits answer', hi.loosen, fun _ => hi⟩
    | false =>
      obtain ⟨us, made, joined⟩ := Option.bind_eq_some_iff.mp joined
      have each := coversEach_of_mapM joins (by rw [length, length', same])
        (fun a member => .static (args a member)) args' made
      by_cases failed : us.any Ty.isError = true
      · rw [if_pos failed] at joined
        rw [← Option.some.inj joined]
        exact bounds_object coh hi hj
      · rw [if_neg failed] at joined
        refine ⟨⟨i.cls, i.name, us⟩, (Option.some.inj joined).symm, ?_⟩
        clear joined
        obtain ⟨c, n, as⟩ := i
        obtain ⟨d, m, bs⟩ := j
        cases same
        refine ⟨?_, ?_, ?_, ?_⟩
        · exact coh.decides.inst_le_of_args (each.keeps (fun a member => (args a member).loosen)
            (List.forall₂_same.mpr fun a member => (args a member).isSubtype_self coh.decides))
        · exact coh.decides.inst_le_of_args each.above
        · exact .inst known (each.length_eq.trans length) each.regular
        · intro static
          obtain ⟨-, -, others⟩ := Ty.Regular.inst_iff.mp static
          exact .inst known (each.length_eq.trans length) (each.static args others)

theorem bounds_joinInstances (hi : i.toTy.Regular voc true) (hj : j.toTy.Regular voc false)
    (joined : voc.order.joinInstances le join i j = some u) :
    ∃ k : Instance, u = k.toTy ∧ voc.Bounds i j k := by
  have other (h : some voc.order.objectType = some u) : ∃ k : Instance, u = k.toTy ∧ voc.Bounds i j k :=
    Option.some.inj h ▸ bounds_object coh hi hj
  unfold joinInstances at joined
  split at joined
  · exact bounds_joinSameClass coh answers joins hi hj ‹_› joined
  · split at joined
    · exact other joined
    · split at joined
      · rename_i left right seen seen'
        have same : left.cls = right.cls := (ClassTable.view?_cls seen).trans (ClassTable.view?_cls seen').symm
        have regular := coh.regular_view? hi seen
        have regular' := coh.regular_view? hj seen'
        obtain ⟨k, rfl, bounds⟩ := bounds_joinSameClass coh answers joins regular regular' same joined
        exact ⟨k, rfl, coh.le_of_view_le hi bounds.regular seen bounds.left,
          coh.le_of_view_le hj bounds.regular seen' bounds.right, bounds.regular,
          fun static => bounds.static (coh.regular_view? static seen')⟩
      · exact other joined

omit answers joins in
/-- Apart from markers, what is no type variable takes part in joins as an instance. -/
theorem exists_countsAs (ht : t.Regular voc false) (known : t.isDynamic = false) (value : t ≠ .void)
    (present : t ≠ .noneType) (bounded : ∀ v, t ≠ .typeVar v) : ∃ i, voc.CountsAs t i := by
  cases ht with
  | dynamic marked =>
    rw [known] at marked
    cases marked
  | void => exact absurd rfl value
  | noneType => exact absurd rfl present
  | typeVar => exact absurd rfl (bounded _)
  | @inst _ c n args inside length each =>
    exact ⟨⟨c, n, args⟩, rfl, fun _ _ _ h => h, fun _ h => h, .inst inside length each,
      fun loose => loose.static_of (by simp) rfl (by simp)⟩
  | tuple each =>
    obtain ⟨i, regular, fallen⟩ := coh.exists_fallback_tuple
    refine ⟨i, ?_, fun _ x hx => ?_, fun k below => ?_, regular.loosen, fun _ => regular⟩
    · rw [joinInstance?, fallen, Option.some_or]
    · refine coh.le_of_le_tuple hx regular.ne_void fun xs _ _ => ?_
      exact (coh.decides.tuple_le_inst_iff (fallen xs)).mpr (regular.isSubtype_self coh.decides)
    · exact (coh.decides.tuple_le_inst_iff (fallen _)).mpr below
  | callable plain args ret =>
    obtain ⟨i, regular, fallen⟩ := coh.exists_fallback_callable
    have counts (k : Instance) := coh.decides.callable_le_inst_iff (j := k) (fallen _ plain)
    refine ⟨i, ?_, fun loose x hx below => ?_, fun k => (counts k).mpr, regular.loosen,
      fun _ => regular⟩
    · rw [joinInstance?, fallen _ plain, Option.some_or]
    · exact coh.isSubtype_trans hx (loose.static_of (by simp) rfl (by simp)) regular.loosen below
        ((counts i).mpr (regular.isSubtype_self coh.decides))

theorem covers_joinFallbacks (hs : s.Loose voc) (first : ∃ i, voc.CountsAs s i)
    (second : ∃ j, voc.CountsAs t j) (joined : voc.order.joinFallbacks le join s t = some u) :
    voc.Covers s t u := by
  obtain ⟨i, first⟩ := first
  obtain ⟨j, second⟩ := second
  have static := first.static hs
  rw [joinFallbacks, first.found, second.found] at joined
  obtain ⟨k, rfl, bounds⟩ := bounds_joinInstances coh answers joins static second.regular joined
  refine ⟨fun x hx below => ?_, second.passes k bounds.right, bounds.regular,
    fun loose => .static (bounds.static (second.static loose)),
    fun _ ht => bounds.static (second.static (.static ht))⟩
  exact coh.isSubtype_trans hx static bounds.regular (first.keeps hs x hx below) bounds.left

theorem covers_functions {l r : Signature} (hl : (Ty.callable l).Loose voc)
    (hr : (Ty.callable r).Regular voc false)
    (met : (Meeting.functions l r).answer voc.order le join = some u) :
    voc.Covers (.callable l) (.callable r) u := by
  have static : (Ty.callable l).Regular voc true := hl.static_of (by simp) rfl (by simp)
  obtain ⟨below, answer, met⟩ := Option.bind_eq_some_iff.mp met
  cases below with
  | true =>
    cases met
    have fits := compare_eq_some_true.mp (answers _ _ true answer)
    exact .of_static coh static hr fits (hr.isSubtype_self coh.decides) id id
  | false =>
    obtain ⟨above, answer', met⟩ := Option.bind_eq_some_iff.mp met
    cases above with
    | true =>
      cases met
      have fits := compare_eq_some_true.mp (answers _ _ true answer')
      exact ⟨fun _ _ h => h, fits, hl.regular, fun _ => hl, fun h _ => h⟩
    | false =>
      exact covers_joinFallbacks coh answers joins hl
        (exists_countsAs coh hl.regular rfl (by simp) (by simp) (by simp))
        (exists_countsAs coh hr rfl (by simp) (by simp) (by simp)) met

omit answers in
theorem covers_tuples {as bs us : List Ty} (length : as.length = bs.length)
    (has : (Ty.tuple as).Loose voc) (hbs : (Ty.tuple bs).Regular voc false)
    (made : ((as.zip bs).mapM fun (a, b) => join a b) = some us) :
    voc.Covers (.tuple as) (.tuple bs) (.tuple us) := by
  have each := coversEach_of_mapM joins length has.items (Ty.Regular.tuple_iff.mp hbs) made
  refine ⟨fun x hx => ?_, coh.decides.tuple_le_iff.mpr each.above, .tuple each.regular,
    fun loose => .tuple (each.loose loose.items), fun left right =>
      .tuple (each.static (Ty.Regular.tuple_iff.mp left) (Ty.Regular.tuple_iff.mp right))⟩
  refine coh.le_of_le_tuple hx (by simp) fun xs regular below => ?_
  rw [coh.decides.tuple_le_iff] at below ⊢
  exact each.keeps (Ty.Regular.tuple_iff.mp regular) below

omit answers in
theorem covers_bound_left {v : TypeVar} (hv : (Ty.typeVar v).Loose voc) (ht : t.Regular voc false)
    (joined : join v.upperBound t = some u) : voc.Covers (.typeVar v) t u := by
  have static : (Ty.typeVar v).Regular voc true := hv.static_of (by simp) rfl (by simp)
  obtain ⟨-, bound⟩ := Ty.Regular.typeVar_iff.mp static
  have covers := joins _ _ _ (.static bound) ht joined
  have below : voc.order.isSubtype (.typeVar v) v.upperBound = true :=
    (coh.decides.typeVar_le_iff bound.ne_void).mpr (.inr (bound.isSubtype_self coh.decides))
  exact ⟨fun x hx first => covers.keeps x hx (coh.isSubtype_trans hx static bound.loosen first below),
    covers.above, covers.regular, covers.loose, fun _ => covers.static bound⟩

omit answers in
theorem covers_bound_right {w : TypeVar} (hs : s.Loose voc) (hw : (Ty.typeVar w).Regular voc false)
    (joined : join s w.upperBound = some u) : voc.Covers s (.typeVar w) u := by
  obtain ⟨-, bound⟩ := Ty.Regular.typeVar_iff.mp hw
  have covers := joins _ _ _ hs bound.loosen joined
  have value : u ≠ .void := bound.ne_void_of_le coh.decides covers.above
  exact ⟨covers.keeps, (coh.decides.typeVar_le_iff value).mpr (.inr covers.above), covers.regular,
    fun _ => covers.loose (.static bound), fun static _ => covers.static static bound⟩

theorem covers_meeting (hs : s.Loose voc) (ht : t.Regular voc false)
    (met : (meeting s t).answer voc.order le join = some u) : voc.Covers s t u := by
  have decides := coh.decides
  revert met
  fun_cases meeting s t with
  | case1 | case3 | case4 | case8 =>
    rintro ⟨⟩
    exact .of_dynamic decides rfl (.inl (by rintro ⟨⟩))
  | case2 | case5 | case6 | case9 =>
    rintro ⟨⟩
    exact .of_dynamic decides rfl (.inr (by rintro ⟨⟩))
  | case7 =>
    rintro ⟨⟩
    exact ⟨fun _ _ h => h, decides.void_le_iff.mpr (.inr rfl), .void, id, fun h _ => h⟩
  | case10 t _ _ _ value =>
    rintro ⟨⟩
    exact .of_static coh .noneType ht (decides.noneType_le value) (ht.isSubtype_self decides) id id
  | case11 s _ _ _ value =>
    rintro ⟨⟩
    exact ⟨fun _ _ h => h, decides.noneType_le value, hs.regular, fun _ => hs, fun h _ => h⟩
  | case12 s t _ _ _ _ _ _ _ _ _ _ _ same =>
    rintro ⟨⟩
    have both := hs.regular.orderly.isSubtype_of_isSame decides ht.orderly same
    exact ⟨fun _ _ h => h, both.2, hs.regular, fun _ => hs, fun h _ => h⟩
  | case13 v => exact covers_bound_left coh joins hs ht
  | case14 s w => exact covers_bound_right coh joins hs ht
  | case15 as bs length =>
    intro met
    obtain ⟨us, made, rfl⟩ := Option.map_eq_some_iff.mp met
    exact covers_tuples coh joins length hs ht made
  | case16 as bs =>
    exact covers_joinFallbacks coh answers joins hs
      (exists_countsAs coh hs.regular rfl (by simp) (by simp) (by simp))
      (exists_countsAs coh ht rfl (by simp) (by simp) (by simp))
  | case17 s t => exact covers_functions coh answers joins hs ht
  | case18 s t =>
    exact covers_joinFallbacks coh answers joins hs
      (exists_countsAs coh hs.regular (Ty.isDynamic_eq_false ‹_› ‹_› ‹_›) ‹_› ‹_› ‹_›)
      (exists_countsAs coh ht (Ty.isDynamic_eq_false ‹_› ‹_› ‹_›) ‹_› ‹_› ‹_›)

omit answers joins in
/-- The induction is on the steps. What one step compares and joins has answers with fewer steps. -/
theorem covers_joinWithin {steps : Nat} (hs : s.Loose voc) (ht : t.Regular voc false)
    (joined : voc.order.joinWithin steps s t = some u) : voc.Covers s t u := by
  induction steps generalizing s t u with
  | zero => cases joined
  | succ steps ih =>
    rw [joinWithin_succ] at joined
    exact covers_meeting coh (coh.decides.compare_extends steps) (fun _ _ _ => ih) hs ht joined

omit answers joins in
/-- The join is above both types, and keeps what was below the first one. -/
theorem covers_join (hs : s.Loose voc) (ht : t.Regular voc false) :
    voc.Covers s t (voc.order.join s t) := by
  obtain ⟨u, joined⟩ := Option.isSome_iff_exists.mp (join?_isSome coh.earlier s t)
  have known : voc.order.join? s t = some u := joined
  rw [join, known]
  exact covers_joinWithin coh hs ht known

end Joins

end Gradual
