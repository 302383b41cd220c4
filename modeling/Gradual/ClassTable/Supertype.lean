import Gradual.ClassTable.Basic
import Gradual.Ty.Subst

/-!
Instances seen as instances of the classes that they derive from: the type arguments of a base are
those written in the class, with the type arguments of the instance put in.
-/

namespace Gradual

/-- A base of a class, as a base of an instance with the given type arguments. -/
def Instance.expandBy (base : Instance) (args : List Ty) : Instance :=
  { base with args := base.args.map (·.expandBy args) }

namespace ClassTable

/-- Searches the bases, in order and depth first, through at most `depth` steps of inheritance. -/
def viewWithin (t : ClassTable) : (depth : Nat) → Instance → ClassId → Option Instance
  | 0, i, c => if i.cls = c then some i else none
  | depth + 1, i, c =>
    if i.cls = c then some i
    else if t.derives i.cls c then
      (t.bases i.cls).findSome? fun base => t.viewWithin depth (base.expandBy i.args) c
    else none

/-- An instance seen as an instance of the class `c`, if it derives from it. A base has a smaller
id than the class, so the id bounds the steps of inheritance. -/
def view? (t : ClassTable) (i : Instance) (c : ClassId) : Option Instance :=
  t.viewWithin i.cls i c

@[simp] theorem view?_self (t : ClassTable) (i : Instance) : t.view? i i.cls = some i := by
  cases h : i.cls <;> simp [view?, viewWithin, h]

theorem viewWithin_cls {t : ClassTable} {depth : Nat} {i j : Instance} {c : ClassId}
    (h : t.viewWithin depth i c = some j) : j.cls = c := by
  induction depth generalizing i with
  | zero =>
    simp only [viewWithin, Option.ite_none_right_eq_some, Option.some.injEq] at h
    exact h.2 ▸ h.1
  | succ depth ih =>
    simp only [viewWithin] at h
    split at h
    · simp_all
    · split at h
      · obtain ⟨base, _, hb⟩ := List.exists_of_findSome?_eq_some h
        exact ih hb
      · simp at h

/-- What passes from an instance to its bases holds of every instance that it is seen as. -/
theorem viewWithin_induction {t : ClassTable} (holds : Instance → Prop)
    (pass : ∀ i, holds i → ∀ base ∈ t.bases i.cls, holds (base.expandBy i.args)) {depth : Nat}
    {i j : Instance} {c : ClassId} (h : t.viewWithin depth i c = some j) (start : holds i) :
    holds j := by
  induction depth generalizing i with
  | zero =>
    rw [viewWithin, Option.ite_none_right_eq_some] at h
    exact Option.some.inj h.2 ▸ start
  | succ depth ih =>
    rw [viewWithin] at h
    split at h
    · exact Option.some.inj h ▸ start
    · obtain ⟨-, h⟩ := Option.ite_none_right_eq_some.mp h
      obtain ⟨base, member, seen⟩ := List.exists_of_findSome?_eq_some h
      exact ih seen (pass i start base member)

theorem view?_cls {t : ClassTable} {i j : Instance} {c : ClassId} (h : t.view? i c = some j) :
    j.cls = c :=
  viewWithin_cls h

end ClassTable
end Gradual
