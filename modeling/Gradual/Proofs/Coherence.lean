import Gradual.Proofs.Regular

/-!
Classes whose bases give one view of an instance, whichever way one goes through them. Over such
classes the view of an instance as one of a class behind its own is again made of types over the same
vocabulary, can be taken in steps, and is greater where the type arguments are.
-/

namespace Gradual

/-- The classes that types fall back to are there, all classes derive from the first one, all type
arguments of bases are given, and an instance is seen as one of a class behind its own in the same way
through each base that leads there. -/
structure ClassTable.Coherent (t : ClassTable) : Prop where
  linearized : t.Linearized
  earlier : t.MentionsEarlier t.basic
  bases : ∀ c, ∀ base ∈ t.bases c, base.toTy.Pattern t (t.arity c)
  paths : ∀ i : Instance, i.args.length = t.arity i.cls → ∀ base ∈ t.bases i.cls, ∀ c,
    t.derives base.cls c = true → t.view? (base.expandBy i.args) c = t.view? i c
  object : ∃ c < t.size, t.basic.object = some c ∧ t.arity c = 0 ∧
    ∀ d < t.size, t.derives d c = true
  fallbacks : ∀ c ∈ (TypeOrder.ofClasses t).fallbackClasses, ∃ d < t.size, c = some d ∧ t.arity d = 0

namespace ClassTable

variable {t : ClassTable} {c : ClassId} {i : Instance}

theorem MentionsEarlier.basesEarlier {b : BasicClasses} (earlier : t.MentionsEarlier b) :
    t.BasesEarlier :=
  fun c base member => earlier c base member base.cls List.mem_cons_self

/-- Where no class has several bases, there is one way to each class. -/
theorem Coherent.of_single (lin : t.Linearized) (earlier : t.MentionsEarlier t.basic)
    (bases : ∀ c < t.size, ∀ base ∈ t.bases c, base.toTy.Pattern t (t.arity c))
    (single : ∀ c < t.size, (t.bases c).length ≤ 1)
    (object : ∃ c < t.size, t.basic.object = some c ∧ t.arity c = 0 ∧
      ∀ d < t.size, t.derives d c = true)
    (fallbacks : ∀ c ∈ (TypeOrder.ofClasses t).fallbackClasses, ∃ d < t.size,
      c = some d ∧ t.arity d = 0) : t.Coherent := by
  refine ⟨lin, earlier, forall_bases_iff.mp bases, ?_, object, fallbacks⟩
  intro i _ base member c derived
  have known := lt_size_of_mem_bases member
  have only : t.bases i.cls = [base] := by
    obtain ⟨first, rest, listed⟩ := List.exists_cons_of_ne_nil (List.ne_nil_of_mem member)
    have short := single i.cls known
    rw [listed] at short member ⊢
    have none : rest = [] := List.length_eq_zero_iff.mp (by simpa using short)
    rw [none] at member ⊢
    rw [List.mem_singleton.mp member]
  have before := earlier.basesEarlier i.cls base member
  obtain ⟨-, reached⟩ := (derives_iff_reaches lin earlier.basesEarlier).mp derived
  have low := reached.le earlier.basesEarlier
  have other : i.cls ≠ c := by
    rintro rfl
    exact absurd (Nat.lt_of_lt_of_le before low) (Nat.lt_irrefl _)
  have behind : t.derives i.cls c = true := (derives_iff_reaches lin earlier.basesEarlier).mpr
    ⟨known, reaches_iff.mpr (.inr ⟨base, member, reached⟩)⟩
  rw [view?_of_ne earlier.basesEarlier other, if_pos behind, only]
  cases seen : t.view? (base.expandBy i.args) c <;> simp [seen]

end ClassTable

namespace ClassTable.Coherent

open TypeOrder

variable {voc : Vocabulary} {static static' : Bool} {i j view view' : Instance} {c e : ClassId}
  (coh : voc.classes.Coherent)
include coh

theorem decides : voc.order.Decides := decides_of_mentionsEarlier coh.earlier

theorem regular_base (h : i.toTy.Regular voc static) {base : Instance}
    (member : base ∈ voc.classes.bases i.cls) : (base.expandBy i.args).toTy.Regular voc static := by
  obtain ⟨-, length, args⟩ := Ty.Regular.inst_iff.mp h
  have pattern := coh.bases i.cls base member
  rw [← length] at pattern
  have made : (base.expandBy i.args).toTy = base.toTy.expandBy i.args :=
    (Ty.expandBy_inst base.cls base.name base.args i.args).symm
  rw [made]
  exact pattern.regular args

theorem regular_view? (h : i.toTy.Regular voc static) (seen : voc.classes.view? i c = some view) :
    view.toTy.Regular voc static :=
  viewWithin_induction (fun k => k.toTy.Regular voc static)
    (fun _ regular _ member => coh.regular_base regular member) seen h

/-- What sees an instance derives from the class it is seen as. -/
theorem derives_of_view? (h : i.toTy.Regular voc static)
    (seen : voc.classes.view? i c = some view) : voc.classes.derives i.cls c = true := by
  obtain ⟨known, -⟩ := Ty.Regular.inst_iff.mp h
  exact (isSome_view?_iff coh.linearized coh.earlier.basesEarlier known).mp
    (Option.isSome_of_eq_some seen)

theorem exists_view? (h : i.toTy.Regular voc static) (derived : voc.classes.derives i.cls c = true) :
    ∃ view, voc.classes.view? i c = some view := by
  obtain ⟨known, -⟩ := Ty.Regular.inst_iff.mp h
  exact Option.isSome_iff_exists.mp
    ((isSome_view?_iff coh.linearized coh.earlier.basesEarlier known).mpr derived)

/-- The base through which an instance of another class is seen, and through which any instance of
its class is. -/
theorem exists_base (h : i.toTy.Regular voc static) (derived : voc.classes.derives i.cls c = true)
    (other : i.cls ≠ c) :
    ∃ base ∈ voc.classes.bases i.cls, base.cls < i.cls ∧ voc.classes.derives base.cls c = true ∧
      ∀ k : Instance, k.cls = i.cls → k.args.length = i.args.length →
        voc.classes.view? k c = voc.classes.view? (base.expandBy k.args) c := by
  obtain ⟨-, length, -⟩ := Ty.Regular.inst_iff.mp h
  obtain ⟨base, member, behind⟩ :=
    exists_base_of_derives coh.linearized coh.earlier.basesEarlier derived other
  refine ⟨base, member, coh.earlier.basesEarlier _ base member, behind, fun k same size => ?_⟩
  rw [← same] at member length
  exact (coh.paths k (size.trans length) base member c behind).symm

/-- A view can be taken in two steps. -/
theorem view?_view? (h : i.toTy.Regular voc static) (seen : voc.classes.view? i c = some view)
    (derived : voc.classes.derives c e = true) :
    voc.classes.view? view e = voc.classes.view? i e := by
  induction known : i.cls using Nat.strongRecOn generalizing i with
  | ind n ih =>
    by_cases same : i.cls = c
    · subst same
      rw [view?_self] at seen
      rw [Option.some.inj seen]
    · have behind := coh.derives_of_view? h seen
      obtain ⟨base, member, before, rest, through⟩ := coh.exists_base h behind same
      rw [through i rfl rfl] at seen
      have regular := coh.regular_base h member
      have further : voc.classes.derives base.cls e = true :=
        derives_trans coh.linearized coh.earlier.basesEarlier rest derived
      obtain ⟨-, length, -⟩ := Ty.Regular.inst_iff.mp h
      rw [ih base.cls (known ▸ before) regular seen rfl]
      exact coh.paths i length base member e further

/-- The view of an instance is greater where its type arguments are. -/
theorem view?_mono (hi : i.toTy.Regular voc static) (hj : j.toTy.Regular voc static')
    (same : i.cls = j.cls) (seen : voc.classes.view? i c = some view)
    (seen' : voc.classes.view? j c = some view')
    (args : List.Forall₂ (fun a b => voc.order.isSubtype a b = true) i.args j.args) :
    List.Forall₂ (fun a b => voc.order.isSubtype a b = true) view.args view'.args := by
  induction known : i.cls using Nat.strongRecOn generalizing i j with
  | ind n ih =>
    by_cases own : i.cls = c
    · have own' : j.cls = c := same.symm.trans own
      subst own
      rw [view?_self] at seen
      rw [← own', view?_self] at seen'
      rw [← Option.some.inj seen, ← Option.some.inj seen']
      exact args
    · have behind := coh.derives_of_view? hi seen
      obtain ⟨base, member, before, -, through⟩ := coh.exists_base hi behind own
      have length := args.length_eq
      rw [through i rfl rfl] at seen
      rw [through j same.symm length.symm] at seen'
      have pattern := coh.bases i.cls base member
      have member' : base ∈ voc.classes.bases j.cls := same ▸ member
      obtain ⟨-, arity, -⟩ := Ty.Regular.inst_iff.mp hi
      rw [← arity] at pattern
      obtain _ | ⟨-, -, each⟩ := pattern
      refine ih base.cls (known ▸ before) (coh.regular_base hi member) (coh.regular_base hj member')
        rfl seen seen' ?_ rfl
      refine List.forall₂_map_left_iff.mpr (List.forall₂_map_right_iff.mpr
        (List.forall₂_same.mpr fun a listed => ?_))
      exact (each a listed).expandBy_le coh.decides args

/-- Instances compare by all type arguments of the view of the one. -/
theorem inst_le_iff (hi : i.toTy.Regular voc static) (hj : j.toTy.Regular voc static') :
    voc.order.isSubtype i.toTy j.toTy = true ↔
      ∃ view, voc.classes.view? i j.cls = some view ∧
        List.Forall₂ (fun a b => voc.order.isSubtype a b = true) view.args j.args := by
  rw [coh.decides.inst_le_iff]
  refine exists_congr fun view => and_congr_right fun seen => ?_
  obtain ⟨-, length, -⟩ := Ty.Regular.inst_iff.mp (coh.regular_view? hi seen)
  obtain ⟨-, length', -⟩ := Ty.Regular.inst_iff.mp hj
  have count : view.args.length = j.args.length := by
    rw [length, length', view?_cls seen]
  rw [List.forall₂_iff_zip]
  exact ⟨fun each => ⟨count, fun member => each _ member⟩, fun both p member => both.2 member⟩

/-- What the view of an instance is a subtype of, the instance is a subtype of. -/
theorem le_of_view_le (h : i.toTy.Regular voc static) (hj : j.toTy.Regular voc static')
    (seen : voc.classes.view? i c = some view)
    (below : voc.order.isSubtype view.toTy j.toTy = true) :
    voc.order.isSubtype i.toTy j.toTy = true := by
  have regular := coh.regular_view? h seen
  rw [coh.inst_le_iff regular hj] at below
  obtain ⟨further, seen', args⟩ := below
  have derived := coh.derives_of_view? regular seen'
  rw [view?_cls seen] at derived
  rw [coh.view?_view? h seen derived] at seen'
  exact (coh.inst_le_iff h hj).mpr ⟨further, seen', args⟩

end ClassTable.Coherent
end Gradual
