import Gradual.Proofs.LookupOrder

/-!
Instances seen as instances of the classes behind their own. Where bases come before the classes that
have them, the ids suffice as steps, so the search can be read without its steps, and an instance is
seen as one of every class that its own derives from.
-/

namespace Gradual.ClassTable

/-- How many type variables a class has. -/
def arity (t : ClassTable) (c : ClassId) : Nat := (t.info c).typeVars.length

variable {t : ClassTable} {i j : Instance} {c d : ClassId} {depth depth' : Nat}

theorem findSome?_congr {α β : Type} {f g : α → Option β} {xs : List α} (h : ∀ x ∈ xs, f x = g x) :
    xs.findSome? f = xs.findSome? g := by
  induction xs with
  | nil => rfl
  | cons x xs ih =>
    obtain ⟨first, later⟩ := List.forall_mem_cons.mp h
    rw [List.findSome?_cons, List.findSome?_cons, first, ih later]

theorem bases_eq_nil (earlier : t.BasesEarlier) (first : c ≤ 0) : t.bases c = [] := by
  refine List.eq_nil_iff_forall_not_mem.mpr fun base member => ?_
  have before := Nat.lt_of_lt_of_le (earlier c base member) first
  exact Nat.not_lt_zero _ before

/-- A class behind another one is behind one of its bases. -/
theorem exists_base_of_derives (lin : t.Linearized) (earlier : t.BasesEarlier)
    (derived : t.derives c d = true) (other : c ≠ d) :
    ∃ base ∈ t.bases c, t.derives base.cls d = true := by
  obtain ⟨known, reached⟩ := (derives_iff_reaches lin earlier).mp derived
  rcases reaches_iff.mp reached with back | ⟨base, member, rest⟩
  · exact absurd back.symm other
  · have before := Nat.lt_trans (earlier c base member) known
    exact ⟨base, member, (derives_iff_reaches lin earlier).mpr ⟨before, rest⟩⟩

/-- As many steps as the id of the class are enough. -/
theorem viewWithin_eq (earlier : t.BasesEarlier) (enough : i.cls ≤ depth) (enough' : i.cls ≤ depth') :
    t.viewWithin depth i c = t.viewWithin depth' i c := by
  induction depth generalizing i depth' with
  | zero =>
    have none := bases_eq_nil earlier enough
    cases depth' <;> simp [viewWithin, none]
  | succ depth ih =>
    cases depth' with
    | zero =>
      have none := bases_eq_nil earlier enough'
      simp [viewWithin, none]
    | succ depth' =>
      rw [viewWithin, viewWithin]
      refine if_congr Iff.rfl rfl (if_congr Iff.rfl (findSome?_congr fun base member => ?_) rfl)
      have before : base.cls < i.cls := earlier i.cls base member
      exact ih (Nat.le_of_lt_succ (Nat.lt_of_lt_of_le before enough))
        (Nat.le_of_lt_succ (Nat.lt_of_lt_of_le before enough'))

/-- An instance of another class is seen by the first base that leads there. -/
theorem view?_of_ne (earlier : t.BasesEarlier) (other : i.cls ≠ c) :
    t.view? i c =
      if t.derives i.cls c then
        (t.bases i.cls).findSome? fun base => t.view? (base.expandBy i.args) c
      else none := by
  rw [view?, viewWithin_eq earlier (Nat.le_refl _) (Nat.le_succ i.cls), viewWithin, if_neg other]
  refine if_congr Iff.rfl (findSome?_congr fun base member => ?_) rfl
  have before : base.cls < i.cls := earlier i.cls base member
  exact viewWithin_eq earlier (Nat.le_of_lt before) (Nat.le_refl _)

/-- An instance is seen as one of exactly the classes that its class derives from. -/
theorem isSome_view?_iff (lin : t.Linearized) (earlier : t.BasesEarlier) (known : i.cls < t.size) :
    (t.view? i c).isSome = true ↔ t.derives i.cls c = true := by
  constructor
  · intro seen
    obtain ⟨j, seen⟩ := Option.isSome_iff_exists.mp seen
    rcases derives_of_view? seen with rfl | derived
    · exact derives_self lin earlier known
    · exact derived
  · rw [derives_iff_reaches lin earlier]
    rintro ⟨-, reached⟩
    induction h : i.cls using Nat.strongRecOn generalizing i with
    | ind n ih =>
      by_cases same : i.cls = c
      · simp [← same]
      · have derived := (derives_iff_reaches lin earlier).mpr ⟨known, reached⟩
        rcases reaches_iff.mp reached with back | ⟨base, member, rest⟩
        · exact absurd back.symm same
        · have before := earlier i.cls base member
          have later := ih base.cls (h ▸ before) (i := base.expandBy i.args)
            (Nat.lt_trans before known) rest rfl
          rw [view?_of_ne earlier same, if_pos derived, List.findSome?_isSome_iff]
          exact ⟨base, member, later⟩

end Gradual.ClassTable
