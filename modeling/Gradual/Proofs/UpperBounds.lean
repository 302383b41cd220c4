import Gradual.Proofs.Alike
import Gradual.Proofs.Growth

/-!
Joins are above both types. This takes no more than a class that all classes derive from, the classes
that types fall back to, and types without alternatives and arguments by keyword only: the types may
have dynamic parts and type arguments in any number.
-/

namespace Gradual

/-- The type arguments of all bases are orderly. -/
def ClassTable.OrderlyBases (t : ClassTable) : Prop := ∀ c, ∀ base ∈ t.bases c, base.toTy.Orderly t

instance (t : ClassTable) : Decidable t.OrderlyBases :=
  decidable_of_iff (∀ c < t.size, ∀ base ∈ t.bases c, base.toTy.Orderly t) ClassTable.forall_bases_iff

/-- The third type is above the other two. -/
structure TypeOrder.Above (o : TypeOrder) (s t u : Ty) : Prop where
  left : o.isSubtype s u = true
  right : o.isSubtype t u = true

/-- The type takes part in joins as this instance, and whatever instance that is a subtype of, the type is
a subtype of too. -/
structure ClassTable.CountsAs (classes : ClassTable) (t : Ty) (i : Instance) : Prop where
  found : (TypeOrder.ofClasses classes).joinInstance? t = some i
  orderly : i.toTy.Orderly classes
  passes : ∀ k : Instance, (TypeOrder.ofClasses classes).isSubtype i.toTy k.toTy = true →
    (TypeOrder.ofClasses classes).isSubtype t k.toTy = true

variable {classes : ClassTable} {s t u : Ty} {i j k view : Instance} {c : ClassId}

namespace TypeOrder

theorem Decides.le_of_view_le {o : TypeOrder} (decides : o.Decides)
    (seen : o.classes.view? i k.cls = some view) (below : o.isSubtype view.toTy k.toTy = true) :
    o.isSubtype i.toTy k.toTy = true := by
  obtain ⟨own, seen', args⟩ := decides.inst_le_iff.mp below
  rw [← ClassTable.view?_cls seen, ClassTable.view?_self] at seen'
  cases seen'
  exact decides.inst_le_iff.mpr ⟨view, seen, args⟩

theorem objectType_eq (found : classes.basic.object = some c) :
    (ofClasses classes).objectType = (classes.instanceOf c []).toTy := by
  have basic : (ofClasses classes).basic.object = some c := found
  rw [objectType, instance?, basic]
  rfl

theorem above_of_mapM {R : Ty → Ty → Prop} {join : Ty → Ty → Option Ty} {as bs us : List Ty}
    (joins : ∀ a ∈ as, ∀ b ∈ bs, ∀ u, join a b = some u → R a u ∧ R b u)
    (made : ((as.zip bs).mapM fun (a, b) => join a b) = some us) :
    us.length = min as.length bs.length ∧ (∀ p ∈ as.zip us, R p.1 p.2) ∧ ∀ p ∈ bs.zip us, R p.1 p.2 := by
  induction as generalizing bs us with
  | nil =>
    cases made
    simp
  | cons a as ih =>
    cases bs with
    | nil =>
      cases made
      simp
    | cons b bs =>
      rw [List.zip_cons_cons, List.mapM_cons] at made
      obtain ⟨first, met, made⟩ := Option.bind_eq_some_iff.mp made
      obtain ⟨others, rest, made⟩ := Option.bind_eq_some_iff.mp made
      cases made
      obtain ⟨left, right⟩ := joins a List.mem_cons_self b List.mem_cons_self first met
      obtain ⟨length, lefts, rights⟩ := ih (fun x hx y hy =>
        joins x (List.mem_cons_of_mem _ hx) y (List.mem_cons_of_mem _ hy)) rest
      refine ⟨by simp [length], ?_, ?_⟩
      · exact List.forall_mem_cons.mpr ⟨left, lefts⟩
      · exact List.forall_mem_cons.mpr ⟨right, rights⟩

end TypeOrder

theorem ClassTable.OrderlyBases.view? (orderly : classes.OrderlyBases) (hi : i.toTy.Orderly classes)
    (seen : classes.view? i c = some view) : view.toTy.Orderly classes := by
  refine viewWithin_induction (fun k => k.toTy.Orderly classes) (fun k hk base member => ?_) seen hi
  obtain ⟨known, args⟩ := Ty.Orderly.inst_iff.mp (orderly k.cls base member)
  refine .inst known (List.forall_mem_map.mpr fun a listed => ?_)
  exact (args a listed).expandBy (Ty.Orderly.inst_iff.mp hk).2

namespace ClassTable.Rooted

open TypeOrder

variable (rooted : classes.Rooted)
include rooted

theorem decides : (ofClasses classes).Decides := decides_of_mentionsEarlier rooted.earlier

theorem exists_object : ∃ k : Instance, (ofClasses classes).objectType = k.toTy ∧
    ∀ i : Instance, i.cls < classes.size → (ofClasses classes).isSubtype i.toTy k.toTy = true := by
  obtain ⟨c, -, found, above⟩ := rooted.object
  refine ⟨classes.instanceOf c [], objectType_eq found, fun i known => ?_⟩
  obtain ⟨view, seen⟩ := Option.isSome_iff_exists.mp
    ((isSome_view?_iff rooted.linearized rooted.earlier.basesEarlier known).mpr (above _ known))
  exact rooted.decides.inst_le_iff.mpr ⟨view, seen, by simp [instanceOf]⟩

/-- Apart from markers, what is no type variable takes part in joins as an instance. -/
theorem exists_countsAs (ht : t.Orderly classes) (known : t.isDynamic = false) (value : t ≠ .void)
    (present : t ≠ .noneType) (bounded : ∀ v, t ≠ .typeVar v) : ∃ i, classes.CountsAs t i := by
  have fallback {c : Option ClassId} (listed : c ∈ (ofClasses classes).fallbackClasses) :
      ∃ i : Instance, (ofClasses classes).instance? c = some i ∧ i.toTy.Orderly classes := by
    obtain ⟨d, known, rfl⟩ := rooted.fallbacks c listed
    exact ⟨_, rfl, .inst known (List.forall_mem_nil _)⟩
  cases ht with
  | dynamic marked =>
    rw [known] at marked
    cases marked
  | void => exact absurd rfl value
  | noneType => exact absurd rfl present
  | typeVar => exact absurd rfl (bounded _)
  | @inst c n args inside each => exact ⟨⟨c, n, args⟩, rfl, .inst inside each, fun _ h => h⟩
  | @tuple items =>
    obtain ⟨i, found, orderly⟩ := fallback (c := (ofClasses classes).basic.tuple) (by simp [fallbackClasses])
    have fallen : (ofClasses classes).fallback? (.tuple items) = some i := found
    refine ⟨i, ?_, orderly, fun k => (rooted.decides.tuple_le_inst_iff fallen).mpr⟩
    rw [joinInstance?, fallen, Option.some_or]
  | @callable s =>
    obtain ⟨i, fallen, orderly⟩ : ∃ i : Instance,
        (ofClasses classes).fallback? (.callable s) = some i ∧ i.toTy.Orderly classes := by
      rw [fallback?]
      split
      · exact fallback (by simp [fallbackClasses])
      · exact fallback (by simp [fallbackClasses])
    refine ⟨i, ?_, orderly, fun k => (rooted.decides.callable_le_inst_iff fallen).mpr⟩
    rw [joinInstance?, fallen, Option.some_or]

/-! ### One step of a join -/

section Step

variable {le : Ty → Ty → Option Bool} {join : Ty → Ty → Option Ty} (orderly : classes.OrderlyBases)
  (answers : Extends (ofClasses classes).compare le)
  (joins : ∀ s t u, s.Orderly classes → t.Orderly classes → join s t = some u →
    (ofClasses classes).Above s t u)

include answers joins in
/-- Instances of one class have a join of that class, or one of no particular class. -/
theorem above_joinSameClass (hi : i.toTy.Orderly classes) (hj : j.toTy.Orderly classes)
    (same : i.cls = j.cls) (joined : (ofClasses classes).joinSameClass le join i j = some u) :
    u = (ofClasses classes).objectType ∨
      ∃ k : Instance, u = k.toTy ∧ k.cls = i.cls ∧ (ofClasses classes).Above i.toTy j.toTy k.toTy := by
  have decides := rooted.decides
  have fits {l r : Ty} (answer : le l r = some true) : (ofClasses classes).isSubtype l r = true :=
    compare_eq_some_true.mp (answers l r true answer)
  unfold joinSameClass at joined
  simp only [Option.bind_eq_bind, Option.bind_eq_some_iff] at joined
  obtain ⟨below, answer, joined⟩ := joined
  cases below with
  | true =>
    exact .inr ⟨j, (Option.some.inj joined).symm, same.symm, fits answer, hj.isSubtype_self decides⟩
  | false =>
    obtain ⟨above, answer', joined⟩ := Option.bind_eq_some_iff.mp joined
    cases above with
    | true =>
      exact .inr ⟨i, (Option.some.inj joined).symm, rfl, hi.isSubtype_self decides, fits answer'⟩
    | false =>
      obtain ⟨us, made, joined⟩ := Option.bind_eq_some_iff.mp joined
      by_cases failed : us.any Ty.isError = true
      · rw [if_pos failed] at joined
        exact .inl (Option.some.inj joined).symm
      · rw [if_neg failed] at joined
        obtain ⟨-, args⟩ := Ty.Orderly.inst_iff.mp hi
        obtain ⟨-, args'⟩ := Ty.Orderly.inst_iff.mp hj
        obtain ⟨-, lefts, rights⟩ := above_of_mapM (R := fun a u => (ofClasses classes).isSubtype a u = true)
          (fun a ha b hb u met =>
            have above := joins a b u (args a ha) (args' b hb) met
            ⟨above.left, above.right⟩) made
        refine .inr ⟨⟨i.cls, i.name, us⟩, (Option.some.inj joined).symm, rfl, ?_, ?_⟩
        · exact decides.inst_le_iff.mpr ⟨i, view?_self _ i, lefts⟩
        · exact decides.inst_le_iff.mpr ⟨j, same ▸ view?_self _ j, rights⟩

include orderly answers joins

theorem above_joinInstances (hi : i.toTy.Orderly classes) (hj : j.toTy.Orderly classes)
    (joined : (ofClasses classes).joinInstances le join i j = some u) :
    ∃ k : Instance, u = k.toTy ∧ (ofClasses classes).Above i.toTy j.toTy k.toTy := by
  obtain ⟨top, object, above⟩ := rooted.exists_object
  have other (h : u = (ofClasses classes).objectType) :
      ∃ k : Instance, u = k.toTy ∧ (ofClasses classes).Above i.toTy j.toTy k.toTy :=
    ⟨top, h.trans object, above i (Ty.Orderly.inst_iff.mp hi).1, above j (Ty.Orderly.inst_iff.mp hj).1⟩
  unfold joinInstances at joined
  split at joined
  · rcases rooted.above_joinSameClass answers joins hi hj ‹_› joined with top | ⟨k, rfl, -, both⟩
    · exact other top
    · exact ⟨k, rfl, both⟩
  · split at joined
    · exact other (Option.some.inj joined).symm
    · split at joined
      · rename_i left right seen seen'
        have same : left.cls = right.cls := (view?_cls seen).trans (view?_cls seen').symm
        rcases rooted.above_joinSameClass answers joins (orderly.view? hi seen)
          (orderly.view? hj seen') same joined with top | ⟨k, rfl, cls, both⟩
        · exact other top
        · have cls' := cls.trans (view?_cls seen)
          exact ⟨k, rfl, rooted.decides.le_of_view_le (cls' ▸ seen) both.left,
            rooted.decides.le_of_view_le (cls' ▸ seen') both.right⟩
      · exact other (Option.some.inj joined).symm

theorem above_joinFallbacks (first : ∃ i, classes.CountsAs s i) (second : ∃ j, classes.CountsAs t j)
    (joined : (ofClasses classes).joinFallbacks le join s t = some u) : (ofClasses classes).Above s t u := by
  obtain ⟨i, found, hi, passes⟩ := first
  obtain ⟨j, found', hj, passes'⟩ := second
  rw [joinFallbacks, found, found'] at joined
  obtain ⟨k, rfl, above⟩ := rooted.above_joinInstances orderly answers joins hi hj joined
  exact ⟨passes k above.left, passes' k above.right⟩

theorem above_functions {l r : Signature} (hl : (Ty.callable l).Orderly classes)
    (hr : (Ty.callable r).Orderly classes)
    (met : (Meeting.functions l r).answer (ofClasses classes) le join = some u) :
    (ofClasses classes).Above (.callable l) (.callable r) u := by
  have fits {s t : Ty} (answer : le s t = some true) : (ofClasses classes).isSubtype s t = true :=
    compare_eq_some_true.mp (answers s t true answer)
  obtain ⟨below, answer, met⟩ := Option.bind_eq_some_iff.mp met
  cases below with
  | true =>
    cases met
    exact ⟨fits answer, hr.isSubtype_self rooted.decides⟩
  | false =>
    obtain ⟨above, answer', met⟩ := Option.bind_eq_some_iff.mp met
    cases above with
    | true =>
      cases met
      exact ⟨hl.isSubtype_self rooted.decides, fits answer'⟩
    | false =>
      exact rooted.above_joinFallbacks orderly answers joins
        (rooted.exists_countsAs hl rfl (by simp) (by simp) (by simp))
        (rooted.exists_countsAs hr rfl (by simp) (by simp) (by simp)) met

omit orderly answers in
theorem above_tuples {as bs us : List Ty} (length : as.length = bs.length)
    (has : (Ty.tuple as).Orderly classes) (hbs : (Ty.tuple bs).Orderly classes)
    (made : ((as.zip bs).mapM fun (a, b) => join a b) = some us) :
    (ofClasses classes).Above (.tuple as) (.tuple bs) (.tuple us) := by
  obtain ⟨size, lefts, rights⟩ := above_of_mapM (R := fun a u => (ofClasses classes).isSubtype a u = true)
    (fun a ha b hb u met =>
      have above := joins a b u (Ty.Orderly.tuple_iff.mp has a ha) (Ty.Orderly.tuple_iff.mp hbs b hb) met
      ⟨above.left, above.right⟩) made
  constructor
  · rw [rooted.decides.tuple_le_iff, List.forall₂_iff_zip]
    exact ⟨by omega, fun {a u} member => lefts (a, u) member⟩
  · rw [rooted.decides.tuple_le_iff, List.forall₂_iff_zip]
    exact ⟨by omega, fun {b u} member => rights (b, u) member⟩

theorem above_meeting (hs : s.Orderly classes) (ht : t.Orderly classes)
    (met : (meeting s t).answer (ofClasses classes) le join = some u) :
    (ofClasses classes).Above s t u := by
  have decides := rooted.decides
  -- What is above the bound of a type variable is above the type variable, if there are values of it.
  have value {r : Ty} (known : r.isDynamic = false) (value : r ≠ .void)
      (below : (ofClasses classes).isSubtype r u = true) : u ≠ .void := by
    rintro rfl
    rcases decides.le_void_iff.mp below with marked | void
    · rw [known] at marked
      cases marked
    · exact value void
  revert met
  fun_cases meeting s t with
  | case1 | case2 | case3 | case4 | case5 | case6 | case8 | case9 =>
    rintro ⟨⟩
    exact ⟨decides.le_dynamic rfl, decides.le_dynamic rfl⟩
  | case7 =>
    rintro ⟨⟩
    exact ⟨decides.void_le_iff.mpr (.inr rfl), decides.void_le_iff.mpr (.inr rfl)⟩
  | case10 t _ _ _ present =>
    rintro ⟨⟩
    exact ⟨decides.noneType_le present, ht.isSubtype_self decides⟩
  | case11 s _ _ _ present =>
    rintro ⟨⟩
    exact ⟨hs.isSubtype_self decides, decides.noneType_le present⟩
  | case12 s t _ _ _ _ _ _ _ _ _ _ _ same =>
    rintro ⟨⟩
    exact ⟨hs.isSubtype_self decides, (hs.isSubtype_of_isSame decides ht same).2⟩
  | case13 v =>
    intro met
    have above := joins _ _ _ hs.upperBound ht met
    have values := value (Ty.isDynamic_eq_false ‹_› ‹_› ‹_›) ‹_› above.right
    exact ⟨(decides.typeVar_le_iff values).mpr (.inr above.left), above.right⟩
  | case14 s w =>
    intro met
    have above := joins _ _ _ hs ht.upperBound met
    have values := value (Ty.isDynamic_eq_false ‹_› ‹_› ‹_›) ‹_› above.left
    exact ⟨above.left, (decides.typeVar_le_iff values).mpr (.inr above.right)⟩
  | case15 as bs length =>
    intro met
    obtain ⟨us, made, rfl⟩ := Option.map_eq_some_iff.mp met
    exact rooted.above_tuples joins length hs ht made
  | case16 as bs =>
    exact rooted.above_joinFallbacks orderly answers joins
      (rooted.exists_countsAs hs rfl (by simp) (by simp) (by simp))
      (rooted.exists_countsAs ht rfl (by simp) (by simp) (by simp))
  | case17 s t => exact rooted.above_functions orderly answers joins hs ht
  | case18 s t =>
    exact rooted.above_joinFallbacks orderly answers joins
      (rooted.exists_countsAs hs (Ty.isDynamic_eq_false ‹_› ‹_› ‹_›) ‹_› ‹_› ‹_›)
      (rooted.exists_countsAs ht (Ty.isDynamic_eq_false ‹_› ‹_› ‹_›) ‹_› ‹_› ‹_›)

end Step

theorem above_joinWithin (orderly : classes.OrderlyBases) {steps : Nat} (hs : s.Orderly classes)
    (ht : t.Orderly classes) (joined : (ofClasses classes).joinWithin steps s t = some u) :
    (ofClasses classes).Above s t u := by
  induction steps generalizing s t u with
  | zero => cases joined
  | succ steps ih =>
    rw [joinWithin_succ] at joined
    -- What one step compares and joins has its answers with fewer steps.
    exact rooted.above_meeting orderly (rooted.decides.compare_extends steps) (fun _ _ _ => ih) hs ht
      joined

end ClassTable.Rooted

/-- Over the classes that grow from what the language provides, any two types without alternatives and
arguments by keyword only have a join, which both are subtypes of, though it may be the error type. -/
theorem join_above_both {b : Builder} (grown : b.Grown) (orderly : b.classes.OrderlyBases) (s t : Ty)
    (hs : s.Orderly b.classes) (ht : t.Orderly b.classes) :
    ∃ u, (TypeOrder.ofClasses b.classes).join? s t = some u ∧
      (TypeOrder.ofClasses b.classes).join s t = u ∧
      (TypeOrder.ofClasses b.classes).isSubtype s u = true ∧
      (TypeOrder.ofClasses b.classes).isSubtype t u = true := by
  have rooted := grown.rooted.1
  obtain ⟨u, joined⟩ := Option.isSome_iff_exists.mp (TypeOrder.join?_isSome rooted.earlier s t)
  have above := rooted.above_joinWithin orderly hs ht joined
  have known : (TypeOrder.ofClasses b.classes).join s t = u := by rw [TypeOrder.join, joined, Option.getD_some]
  exact ⟨u, joined, known, above.left, above.right⟩

/-- What the language provides and a class of lists of functions. -/
def Builder.withActions : Builder :=
  let action : Ty := .callable (.positional [.typeVar (.plain "T" 1 .any)] .void)
  ((newClass "Actions" ["T"] [⟨13, "builtins.list", [action]⟩]).run .new).2

theorem Builder.withActions_grown : Builder.withActions.Grown :=
  .newClass .new ["T"] (by decide +kernel) (by decide +kernel)

/-- Lists of functions that take numbers and sets of functions that take truth values are both iterables
of the latter. -/
theorem actions_join_above :
    let o := TypeOrder.ofClasses Builder.withActions.classes
    let action : Ty := .callable (.positional [.inst 8 "builtins.bool" []] .void)
    let left : Ty := .tuple [.inst 18 "__main__.Actions" [.inst 3 "builtins.int" []], .noneType]
    let right : Ty := .tuple [.inst 14 "builtins.set" [action], .tuple [.any]]
    ∃ u, o.join? left right = some u ∧ o.isSubtype left u = true ∧ o.isSubtype right u = true ∧
      u.isSame (.tuple [.inst 11 "builtins.Iterable" [action], .tuple [.any]]) = true := by
  intro o action left right
  obtain ⟨u, joined, known, first, second⟩ := join_above_both Builder.withActions_grown
    (by decide +kernel) left right (by decide +kernel) (by decide +kernel)
  have shown : (o.join left right).isSame
      (.tuple [.inst 11 "builtins.Iterable" [action], .tuple [.any]]) = true := by decide +kernel
  exact ⟨u, joined, first, second, known ▸ shown⟩

end Gradual
