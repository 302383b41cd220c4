import Gradual.Proofs.Coherence

/-!
Subtyping through a type in the middle. A type that is dynamic, or has dynamic parts, fits much that
does not fit together. Through a static type nothing of the kind gets by: what is a subtype of it is
a subtype of whatever it is a subtype of.
-/

namespace Gradual

/-! ### Signatures -/

namespace Signature

/-- Formals that take one positional argument each are taken by their places, and the others, if none
is by keyword only, by their kinds. -/
theorem forall_mem_zip_takersFrom (l : Signature) (holds : Ty → Option Ty → Prop)
    (fixed types : List Ty) {ks : List (ArgKind × Option String)} (unnamed : .named ∉ ks.map (·.1)) :
    (∀ p ∈ types.zip (l.takersFrom fixed ks), holds p.1 p.2) ↔
      (∀ (q : Nat) t, ((((ks.map (·.1)).zip types).filter (·.1.isFixed)).map (·.2))[q]? = some t →
        holds t (fixed[q]?.or (l.typeOfKind? .star))) ∧
      ∀ p ∈ (ks.map (·.1)).zip types, p.1.isFixed = false → holds p.2 (l.typeOfKind? p.1) := by
  induction types generalizing fixed ks with
  | nil => simp
  | cons type types ih =>
    cases ks with
    | nil => simp [takersFrom]
    | cons k rest =>
      obtain ⟨kind, name⟩ := k
      rw [List.map_cons, List.mem_cons, not_or] at unnamed
      rw [takersFrom, List.zip_cons_cons, List.forall_mem_cons, ih _ unnamed.2, List.map_cons,
        List.zip_cons_cons, List.forall_mem_cons]
      cases kind with
      | named => exact absurd rfl unnamed.1
      | pos | opt =>
        simp only [ArgKind.isFixed, List.filter_cons_of_pos, List.map_cons, forall_getElem?_cons,
          taker?, List.head?_eq_getElem?, List.getElem?_tail, if_true, and_assoc,
          Bool.true_eq_false, false_implies, true_and]
      | star | star2 => simp [ArgKind.isFixed, taker?, and_left_comm]

variable {s l m r : Signature} {constructs : Bool} {le : Ty → Ty → Option Bool}

theorem Plain.length_fixedTypes (plain : s.Plain constructs) : s.fixedTypes.length = s.maxFixedArgs := by
  have keys : s.argKinds = (s.argKinds.zip s.argTypes).map (·.1) :=
    (List.map_fst_zip (Nat.le_of_eq plain.formals.length_kinds)).symm
  rw [fixedTypes, List.length_map, ← List.countP_eq_length_filter, maxFixedArgs]
  conv_rhs => rw [keys, List.countP_map]
  rfl

theorem minArgs_le_maxFixedArgs : s.minArgs ≤ s.maxFixedArgs :=
  List.countP_mono_left fun kind _ pos => by simp_all [ArgKind.isFixed]

/-- With a formal for the remaining arguments, all formals before it must be given. -/
theorem Plain.maxFixedArgs_eq (plain : s.Plain constructs) (rest : s.isVarArg = true) :
    s.maxFixedArgs = s.minArgs := by
  have given := plain.settled (List.contains_iff_mem.mp rest)
  refine List.countP_congr fun kind member => ?_
  cases kind with
  | opt => exact absurd member given
  | pos | star | named | star2 => simp [ArgKind.isFixed]

theorem isVarArg_of_typeOfKind? {t : Ty} (h : s.typeOfKind? .star = some t) : s.isVarArg = true := by
  obtain ⟨p, found, -⟩ := Option.map_eq_some_iff.mp h
  have kind : p.1 = .star := by simpa using List.find?_some found
  have listed := (List.of_mem_zip (List.mem_of_find?_eq_some found)).1
  rw [kind] at listed
  exact List.contains_iff_mem.mpr listed

theorem mem_of_typeOfKind? {kind : ArgKind} {t : Ty} (h : s.typeOfKind? kind = some t) :
    (kind, t) ∈ s.argKinds.zip s.argTypes := by
  obtain ⟨p, found, rfl⟩ := Option.map_eq_some_iff.mp h
  have same : p.1 = kind := by simpa using List.find?_some found
  exact same ▸ List.mem_of_find?_eq_some found

theorem countsFit_iff : l.countsFit r = true ↔
    l.minArgs ≤ r.minArgs ∧ (r.isVarArg = true → l.isVarArg = true) ∧
      (r.maxFixedArgs ≤ l.maxFixedArgs ∨ l.isVarArg = true) := by
  simp only [countsFit, Bool.and_eq_true, Bool.or_eq_true, decide_eq_true_eq]
  grind

theorem countsFit_trans (first : l.countsFit m = true) (second : m.countsFit r = true) :
    l.countsFit r = true := by
  rw [countsFit_iff] at first second ⊢
  obtain ⟨min, rest, max⟩ := first
  obtain ⟨min', rest', max'⟩ := second
  refine ⟨Nat.le_trans min min', fun given => rest (rest' given), ?_⟩
  rcases max' with max' | given
  · exact max.imp_left (Nat.le_trans max')
  · exact .inr (rest given)

/-- A signature with a kind and perhaps a name for each formal, of which none takes its argument by
keyword only and at most one takes the remaining arguments of a kind. -/
structure Orderly (s : Signature) : Prop where
  length_kinds : s.argKinds.length = s.argTypes.length
  length_names : s.argNames.length = s.argTypes.length
  oneStar : s.argKinds.count .star ≤ 1
  oneStar2 : s.argKinds.count .star2 ≤ 1
  unnamed : .named ∉ s.argKinds

theorem Plain.orderly (plain : s.Plain constructs) : s.Orderly :=
  ⟨plain.formals.length_kinds, plain.formals.length_names, plain.formals.oneStar,
    plain.formals.oneStar2, plain.unnamed⟩

/-- The formals of a signature and what takes them. -/
theorem Orderly.forall_taken_iff (orderly : r.Orderly) :
    (∀ p ∈ r.argTypes.zip (l.takers r), ∃ taker, p.2 = some taker ∧ le p.1 taker = some true) ↔
      (∀ (q : Nat) t, r.fixedTypes[q]? = some t → ∃ taker,
        l.fixedTypes[q]?.or (l.typeOfKind? .star) = some taker ∧ le t taker = some true) ∧
      ∀ p ∈ r.argKinds.zip r.argTypes, p.1.isFixed = false → ∃ taker,
        l.typeOfKind? p.1 = some taker ∧ le p.2 taker = some true := by
  have kinds : (r.argKinds.zip r.argNames).map (·.1) = r.argKinds :=
    List.map_fst_zip (Nat.le_of_eq (orderly.length_kinds.trans orderly.length_names.symm))
  have unnamed := orderly.unnamed
  rw [← kinds] at unnamed
  have taken := l.forall_mem_zip_takersFrom
    (fun t taker? => ∃ taker, taker? = some taker ∧ le t taker = some true)
    l.fixedTypes r.argTypes unnamed
  rw [kinds] at taken
  exact taken

end Signature

namespace TypeOrder

variable {le : Ty → Ty → Option Bool} {l m r : Signature} {constructs : Bool}

/-- Where the parts of signatures compare through the one in the middle, so do the signatures. -/
theorem PlainFits.trans (left : l.Plain constructs) (middle : m.Plain constructs)
    (right : r.Plain constructs) (result : le l.ret r.ret = some true)
    (each : ∀ a ∈ r.argTypes, ∀ b ∈ m.argTypes, ∀ c ∈ l.argTypes,
      le a b = some true → le b c = some true → le a c = some true)
    (first : PlainFits le l m) (second : PlainFits le m r) : PlainFits le l r := by
  have counts := Signature.countsFit_trans first.counts second.counts
  refine ⟨fun _ => left.constructs.trans (right.constructs.symm.trans ‹_›), result, counts, ?_⟩
  obtain ⟨fixed, others⟩ := middle.orderly.forall_taken_iff.mp first.formals
  obtain ⟨fixed', others'⟩ := right.orderly.forall_taken_iff.mp second.formals
  refine right.orderly.forall_taken_iff.mpr ⟨fun q t listed => ?_, fun p listed kind => ?_⟩
  · have inside : t ∈ r.argTypes := r.fixedTypes_subset (List.mem_of_getElem? listed)
    obtain ⟨taker, taken, below⟩ := fixed' q t listed
    rcases Option.or_eq_some_iff.mp taken with place | ⟨beyond, rest⟩
    · obtain ⟨taker', taken', below'⟩ := fixed q taker place
      have inside' : taker' ∈ l.argTypes :=
        (Option.or_eq_some_iff.mp taken').elim
          (fun found => l.fixedTypes_subset (List.mem_of_getElem? found))
          fun found => Signature.typeOfKind?_mem found.2
      exact ⟨taker', taken', each t inside taker (m.fixedTypes_subset (List.mem_of_getElem? place))
        taker' inside' below below'⟩
    · -- What the middle takes as one of the rest is one of the rest for the first one too.
      have listed' := Signature.mem_of_typeOfKind? rest
      obtain ⟨taker', taken', below'⟩ := others _ listed' rfl
      have places : l.fixedTypes[q]? = none := by
        have all := left.maxFixedArgs_eq (Signature.isVarArg_of_typeOfKind? taken')
        have fewer : l.minArgs ≤ m.minArgs := (Signature.countsFit_iff.mp first.counts).1
        have few := m.minArgs_le_maxFixedArgs
        have short := List.getElem?_eq_none_iff.mp beyond
        rw [middle.length_fixedTypes] at short
        rw [List.getElem?_eq_none_iff, left.length_fixedTypes]
        omega
      refine ⟨taker', Option.or_eq_some_iff.mpr (.inr ⟨places, taken'⟩), ?_⟩
      exact each t inside taker (List.of_mem_zip listed').2 taker' (Signature.typeOfKind?_mem taken')
        below below'
  · obtain ⟨taker, taken, below⟩ := others' p listed kind
    have listed' := Signature.mem_of_typeOfKind? taken
    obtain ⟨taker', taken', below'⟩ := others _ listed' kind
    exact ⟨taker', taken', each _ (List.of_mem_zip listed).2 _ (List.of_mem_zip listed').2 _
      (Signature.typeOfKind?_mem taken') below below'⟩

theorem forall₂_trans {α : Type} {le : α → α → Prop} {as bs cs : List α}
    (each : ∀ a ∈ as, ∀ b ∈ bs, ∀ c ∈ cs, le a b → le b c → le a c) (first : List.Forall₂ le as bs)
    (second : List.Forall₂ le bs cs) : List.Forall₂ le as cs := by
  induction first generalizing cs with
  | nil => exact second
  | cons below _ ih =>
    cases second with
    | cons below' rest =>
      refine .cons (each _ (by simp) _ (by simp) _ (by simp) below below') (ih ?_ rest)
      exact fun a ha b hb c hc => each a (by simp [ha]) b (by simp [hb]) c (by simp [hc])

end TypeOrder

/-! ### What types fall back to -/

namespace ClassTable.Coherent

open TypeOrder

variable {voc : Vocabulary} {static static' : Bool} {l r : Ty} (coh : voc.classes.Coherent)
include coh

theorem exists_instance {c : Option ClassId} (listed : c ∈ voc.order.fallbackClasses) :
    ∃ i : Instance, i.toTy.Regular voc true ∧ voc.order.instance? c = some i := by
  obtain ⟨d, known, rfl, arity⟩ := coh.fallbacks c listed
  refine ⟨_, ?_, rfl⟩
  exact .inst known arity.symm (List.forall_mem_nil _)

/-- All tuples count as one instance. -/
theorem exists_fallback_tuple : ∃ i : Instance, i.toTy.Regular voc true ∧
    ∀ items, voc.order.fallback? (.tuple items) = some i := by
  obtain ⟨i, regular, made⟩ := coh.exists_instance (c := voc.order.basic.tuple) (by simp [fallbackClasses])
  exact ⟨i, regular, fun _ => made⟩

/-- So do all functions. -/
theorem exists_fallback_callable : ∃ i : Instance, i.toTy.Regular voc true ∧
    ∀ s : Signature, s.Plain voc.constructs → voc.order.fallback? (.callable s) = some i := by
  obtain ⟨i, regular, made⟩ := coh.exists_instance
    (c := if voc.constructs then voc.order.basic.type else voc.order.basic.function)
    (by cases voc.constructs <;> simp [fallbackClasses])
  refine ⟨i, regular, fun s plain => ?_⟩
  have own : (Ty.callable s).isTypeObject = voc.constructs := plain.constructs
  rw [fallback?, own, ← made]
  cases voc.constructs <;> rfl

/-! ### Where types of each form fit -/

theorem inst_le_cases {i : Instance} (hr : r.Regular voc static)
    (h : voc.order.isSubtype i.toTy r = true) : r.isDynamic = true ∨ ∃ j : Instance, r = j.toTy := by
  cases hr with
  | dynamic marked => exact .inl marked
  | @inst _ c n args => exact .inr ⟨⟨c, n, args⟩, rfl⟩
  | void | noneType | tuple | callable | typeVar => cases coh.decides.isSubtype_iff.mp h

theorem tuple_le_cases {items : List Ty} (hr : r.Regular voc static)
    (h : voc.order.isSubtype (.tuple items) r = true) :
    r.isDynamic = true ∨ (∃ j : Instance, r = j.toTy) ∨ ∃ others, r = .tuple others := by
  cases hr with
  | dynamic marked => exact .inl marked
  | @inst _ c n args => exact .inr (.inl ⟨⟨c, n, args⟩, rfl⟩)
  | tuple => exact .inr (.inr ⟨_, rfl⟩)
  | void | noneType | callable | typeVar => cases coh.decides.isSubtype_iff.mp h

theorem callable_le_cases {s : Signature} (hr : r.Regular voc static)
    (h : voc.order.isSubtype (.callable s) r = true) :
    r.isDynamic = true ∨ (∃ j : Instance, r = j.toTy) ∨ ∃ other, r = .callable other := by
  cases hr with
  | dynamic marked => exact .inl marked
  | @inst _ c n args => exact .inr (.inl ⟨⟨c, n, args⟩, rfl⟩)
  | callable => exact .inr (.inr ⟨_, rfl⟩)
  | void | noneType | tuple | typeVar => cases coh.decides.isSubtype_iff.mp h

end ClassTable.Coherent

/-! ### Through a static type -/

/-- Up to some weight, subtyping leads through static types. -/
def Vocabulary.TransitiveBelow (voc : Vocabulary) (n : Nat) : Prop :=
  ∀ x m u : Ty, x.Regular voc false → m.Regular voc true → u.Regular voc false →
    voc.order.weight x + voc.order.weight m + voc.order.weight u < n →
    voc.order.isSubtype x m = true → voc.order.isSubtype m u = true → voc.order.isSubtype x u = true

namespace Vocabulary.TransitiveBelow

open TypeOrder

variable {voc : Vocabulary} {n : Nat} (trans : voc.TransitiveBelow n) (coh : voc.classes.Coherent)
include trans coh

theorem inst {i j k : Instance} (hi : i.toTy.Regular voc false) (hj : j.toTy.Regular voc true)
    (hk : k.toTy.Regular voc false)
    (low : voc.order.weight i.toTy + voc.order.weight j.toTy + voc.order.weight k.toTy ≤ n)
    (first : voc.order.isSubtype i.toTy j.toTy = true)
    (second : voc.order.isSubtype j.toTy k.toTy = true) :
    voc.order.isSubtype i.toTy k.toTy = true := by
  have weighs : voc.order.Weighs voc.order.weight := weighs_of_mentionsEarlier coh.earlier
  obtain ⟨between, seen, args⟩ := (coh.inst_le_iff hi hj).mp first
  obtain ⟨last, seen', args'⟩ := (coh.inst_le_iff hj hk).mp second
  have same := ClassTable.view?_cls seen
  have regular := coh.regular_view? hi seen
  have derived := coh.derives_of_view? hj seen'
  rw [← same] at derived
  obtain ⟨first, seen''⟩ := coh.exists_view? regular derived
  have greater := coh.view?_mono regular hj same seen'' seen' args
  rw [coh.view?_view? hi seen (same ▸ derived)] at seen''
  refine (coh.inst_le_iff hi hk).mpr ⟨first, seen'', forall₂_trans ?_ greater args'⟩
  intro a ha b hb c hc
  obtain ⟨-, -, regular⟩ := Ty.Regular.inst_iff.mp (coh.regular_view? hi seen'')
  obtain ⟨-, -, regular'⟩ := Ty.Regular.inst_iff.mp (coh.regular_view? hj seen')
  obtain ⟨-, -, regular''⟩ := Ty.Regular.inst_iff.mp hk
  have left := weighs.part first.toTy a ha
  have middle := weighs.part last.toTy b hb
  have right := weighs.part k.toTy c hc
  have seenLess := weighs.view i k.cls first seen''
  have seenLess' := weighs.view j k.cls last seen'
  exact trans a b c (regular a ha) (regular' b hb) (regular'' c hc) (by omega)

theorem callable {l m r : Signature} (hl : (Ty.callable l).Regular voc false)
    (hm : (Ty.callable m).Regular voc true) (hr : (Ty.callable r).Regular voc false)
    (low : voc.order.weight (.callable l) + voc.order.weight (.callable m) +
      voc.order.weight (.callable r) ≤ n)
    (first : voc.order.isSubtype (.callable l) (.callable m) = true)
    (second : voc.order.isSubtype (.callable m) (.callable r) = true) :
    voc.order.isSubtype (.callable l) (.callable r) = true := by
  have weighs : voc.order.Weighs voc.order.weight := weighs_of_mentionsEarlier coh.earlier
  obtain ⟨left, formals, ret⟩ := Ty.Regular.callable_iff.mp hl
  obtain ⟨middle, formals', ret'⟩ := Ty.Regular.callable_iff.mp hm
  obtain ⟨right, formals'', ret''⟩ := Ty.Regular.callable_iff.mp hr
  rw [coh.decides.callable_le_iff left.quantified middle.quantified] at first
  rw [coh.decides.callable_le_iff middle.quantified right.quantified] at second
  have lessL := weighs.part (.callable l)
  have lessM := weighs.part (.callable m)
  have lessR := weighs.part (.callable r)
  rw [coh.decides.callable_le_iff left.quantified right.quantified]
  refine first.trans left middle right ?_ ?_ second
  · have below := compare_eq_some_true.mp first.ret
    have below' := compare_eq_some_true.mp second.ret
    rw [compare_eq_some_true]
    by_cases value : m.ret = .void
    · rw [value] at below below'
      exact coh.decides.le_of_le_void below below'
    · have small := lessL l.ret List.mem_cons_self
      have small' := lessM m.ret List.mem_cons_self
      have small'' := lessR r.ret List.mem_cons_self
      exact trans _ _ _ (Ty.Regular.of_value ret) (ret' value) (Ty.Regular.of_value ret'')
        (by omega) below below'
  · intro a ha b hb c hc below below'
    have small := lessR a (List.mem_cons_of_mem _ ha)
    have small' := lessM b (List.mem_cons_of_mem _ hb)
    have small'' := lessL c (List.mem_cons_of_mem _ hc)
    rw [compare_eq_some_true] at below below' ⊢
    exact trans a b c (formals'' a ha) (formals' b hb) (formals c hc) (by omega) below below'

theorem fallback {l : Ty} {i j k : Instance} (fallen : voc.order.fallback? l = some i)
    (counts : ∀ k : Instance, voc.order.isSubtype l k.toTy = true ↔
      voc.order.isSubtype i.toTy k.toTy = true)
    (hi : i.toTy.Regular voc true) (hj : j.toTy.Regular voc true) (hk : k.toTy.Regular voc false)
    (low : voc.order.weight l + voc.order.weight j.toTy + voc.order.weight k.toTy ≤ n)
    (first : voc.order.isSubtype l j.toTy = true)
    (second : voc.order.isSubtype j.toTy k.toTy = true) : voc.order.isSubtype l k.toTy = true := by
  have weighs : voc.order.Weighs voc.order.weight := weighs_of_mentionsEarlier coh.earlier
  have less := weighs.fallback l i fallen
  rw [counts] at first ⊢
  exact trans.inst coh hi.loosen hj hk (by omega) first second

theorem tuple {as bs cs : List Ty} (has : (Ty.tuple as).Regular voc false)
    (hbs : (Ty.tuple bs).Regular voc true) (hcs : (Ty.tuple cs).Regular voc false)
    (low : voc.order.weight (.tuple as) + voc.order.weight (.tuple bs) +
      voc.order.weight (.tuple cs) ≤ n)
    (first : voc.order.isSubtype (.tuple as) (.tuple bs) = true)
    (second : voc.order.isSubtype (.tuple bs) (.tuple cs) = true) :
    voc.order.isSubtype (.tuple as) (.tuple cs) = true := by
  have weighs : voc.order.Weighs voc.order.weight := weighs_of_mentionsEarlier coh.earlier
  rw [coh.decides.tuple_le_iff] at first second ⊢
  refine forall₂_trans (fun a ha b hb c hc => ?_) first second
  have left := weighs.part (.tuple as) a ha
  have middle := weighs.part (.tuple bs) b hb
  have right := weighs.part (.tuple cs) c hc
  exact trans a b c (Ty.Regular.tuple_iff.mp has a ha) (Ty.Regular.tuple_iff.mp hbs b hb)
    (Ty.Regular.tuple_iff.mp hcs c hc) (by omega)

theorem succ : voc.TransitiveBelow (n + 1) := by
  have weighs : voc.order.Weighs voc.order.weight := weighs_of_mentionsEarlier coh.earlier
  intro x m u hx hm hu low first second
  have proper : m.isDynamic = true → False := by simp [hm.not_dynamic]
  by_cases marked : u.isDynamic = true
  · exact coh.decides.le_dynamic marked
  have value : u ≠ .void := hm.ne_void_of_le coh.decides second
  cases hx with
  | dynamic dynamic => exact coh.decides.dynamic_le dynamic
  | void =>
    rcases coh.decides.void_le_iff.mp first with dynamic | void
    · exact (proper dynamic).elim
    · exact absurd void hm.ne_void
  | noneType => exact coh.decides.noneType_le value
  | @inst _ c n args known length each =>
    have hx : (Instance.mk c n args).toTy.Regular voc false := .inst known length each
    have form : Ty.inst c n args = (Instance.mk c n args).toTy := rfl
    rw [form] at low first ⊢
    rcases coh.inst_le_cases hm first with dynamic | ⟨j, rfl⟩
    · exact (proper dynamic).elim
    rcases coh.inst_le_cases hu second with dynamic | ⟨k, rfl⟩
    · exact absurd dynamic marked
    exact trans.inst coh hx hm hu (Nat.le_of_lt_succ low) first second
  | @tuple _ items each =>
    obtain ⟨i, regular, fallen⟩ := coh.exists_fallback_tuple
    rcases coh.tuple_le_cases hm first with dynamic | ⟨j, rfl⟩ | ⟨others, rfl⟩
    · exact (proper dynamic).elim
    · rcases coh.inst_le_cases hu second with dynamic | ⟨k, rfl⟩
      · exact absurd dynamic marked
      exact trans.fallback coh (fallen items)
        (fun _ => coh.decides.tuple_le_inst_iff (fallen items)) regular hm hu
        (Nat.le_of_lt_succ low) first second
    · rcases coh.tuple_le_cases hu second with dynamic | ⟨k, rfl⟩ | ⟨last, rfl⟩
      · exact absurd dynamic marked
      · rw [coh.decides.tuple_le_inst_iff (fallen others)] at second
        exact (coh.decides.tuple_le_inst_iff (fallen items)).mpr second
      · exact trans.tuple coh (.tuple each) hm hu (Nat.le_of_lt_succ low) first second
  | @callable _ s plain args ret =>
    obtain ⟨i, regular, fallen⟩ := coh.exists_fallback_callable
    rcases coh.callable_le_cases hm first with dynamic | ⟨j, rfl⟩ | ⟨other, rfl⟩
    · exact (proper dynamic).elim
    · rcases coh.inst_le_cases hu second with dynamic | ⟨k, rfl⟩
      · exact absurd dynamic marked
      exact trans.fallback coh (fallen s plain)
        (fun _ => coh.decides.callable_le_inst_iff (fallen s plain)) regular hm hu
        (Nat.le_of_lt_succ low) first second
    · rcases coh.callable_le_cases hu second with dynamic | ⟨k, rfl⟩ | ⟨last, rfl⟩
      · exact absurd dynamic marked
      · obtain ⟨plain', -⟩ := Ty.Regular.callable_iff.mp hm
        rw [coh.decides.callable_le_inst_iff (fallen other plain')] at second
        exact (coh.decides.callable_le_inst_iff (fallen s plain)).mpr second
      · exact trans.callable coh (.callable plain args ret) hm hu (Nat.le_of_lt_succ low) first second
  | @typeVar _ v same bound =>
    rw [coh.decides.typeVar_le_iff hm.ne_void] at first
    rw [coh.decides.typeVar_le_iff value]
    rcases first with ⟨w, rfl, id⟩ | below
    · rw [coh.decides.typeVar_le_iff value] at second
      obtain ⟨same', -⟩ := Ty.Regular.typeVar_iff.mp hm
      rw [same, id, ← same']
      exact second
    · have less := weighs.part (.typeVar v) v.upperBound List.mem_cons_self
      exact .inr (trans _ m u bound.loosen hm hu (by omega) below second)

end Vocabulary.TransitiveBelow

/-- What is a subtype of a static type is a subtype of whatever that is a subtype of. -/
theorem ClassTable.Coherent.isSubtype_trans {voc : Vocabulary} (coh : voc.classes.Coherent)
    {x m u : Ty} (hx : x.Regular voc false) (hm : m.Regular voc true) (hu : u.Regular voc false)
    (first : voc.order.isSubtype x m = true) (second : voc.order.isSubtype m u = true) :
    voc.order.isSubtype x u = true := by
  have trans (n : Nat) : voc.TransitiveBelow n := by
    induction n with
    | zero => exact fun _ _ _ _ _ _ low => absurd low (Nat.not_lt_zero _)
    | succ n ih => exact ih.succ coh
  exact trans _ x m u hx hm hu (Nat.lt_succ_self _) first second

end Gradual
