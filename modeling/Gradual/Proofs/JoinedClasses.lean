import Gradual.Proofs.UpperBounds

/-!
Joins of instances against one class. Two instances are joined in the first class of the lookup order of the
first one that the second one derives from too, or in the class of all objects. So whether a join is below a
class is decided by where its two sides meet, and not by whether both sides are below that class.
-/

namespace Gradual

/-- The first class in the lookup order of the one class that the other derives from too. -/
def ClassTable.firstCommon? (t : ClassTable) (c d : ClassId) : Option ClassId := (t.mro c).find? (t.derives d)

namespace TypeOrder

/-- The two types are instances that meet in a class below `b`, and have a join there. -/
def MeetBelow (o : TypeOrder) (b : ClassId) (s t : Ty) : Prop :=
  ∃ i j c, s.toInstance? = some i ∧ t.toInstance? = some j ∧ o.classes.firstCommon? i.cls j.cls = some c ∧
    o.classes.derives c b = true ∧ o.join s t ≠ o.objectType

/-- Instances of one class have a join of that class, or one of no particular class. -/
theorem joinSameClass_cases {o : TypeOrder} {le : Ty → Ty → Option Bool} {join : Ty → Ty → Option Ty}
    {i j : Instance} {u : Ty} (same : i.cls = j.cls) (joined : o.joinSameClass le join i j = some u) :
    u = o.objectType ∨ ∃ k : Instance, u = k.toTy ∧ k.cls = i.cls := by
  unfold joinSameClass at joined
  obtain ⟨below, -, joined⟩ := Option.bind_eq_some_iff.mp joined
  cases below with
  | true => exact .inr ⟨j, (Option.some.inj joined).symm, same.symm⟩
  | false =>
    obtain ⟨above, -, joined⟩ := Option.bind_eq_some_iff.mp joined
    cases above with
    | true => exact .inr ⟨i, (Option.some.inj joined).symm, rfl⟩
    | false =>
      obtain ⟨args, -, joined⟩ := Option.bind_eq_some_iff.mp joined
      split at joined
      · exact .inl (Option.some.inj joined).symm
      · exact .inr ⟨⟨i.cls, i.name, args⟩, (Option.some.inj joined).symm, rfl⟩

end TypeOrder

/-- The type is an instance of a class in the table. -/
def Ty.IsInstance (classes : ClassTable) (type : Ty) : Prop := ∃ i : Instance, type = i.toTy ∧ i.cls < classes.size

namespace ClassTable

variable {classes : ClassTable} {i j : Instance} {b c d : ClassId} {t u : Ty}

theorem derives_of_firstCommon? (found : classes.firstCommon? c d = some b) :
    classes.derives c b = true ∧ classes.derives d b = true :=
  ⟨derives_iff.mpr (List.mem_of_find?_eq_some found), List.find?_some (p := classes.derives d) found⟩

namespace Rooted

open TypeOrder

variable (rooted : classes.Rooted)
include rooted

theorem firstCommon?_self (known : c < classes.size) : classes.firstCommon? c c = some c := by
  have basesEarlier := rooted.earlier.basesEarlier
  have self : classes.derives c c = true := derives_self rooted.linearized basesEarlier known
  rw [firstCommon?, rooted.linearized c known (basesEarlier c), List.find?_cons_of_pos self]

/-- Instances are joined in the first class that both derive from, or in no particular class. -/
theorem join_cases (hi : i.cls < classes.size) :
    (ofClasses classes).join i.toTy j.toTy = (ofClasses classes).objectType ∨
      ∃ k : Instance, (ofClasses classes).join i.toTy j.toTy = k.toTy ∧
        classes.firstCommon? i.cls j.cls = some k.cls := by
  obtain ⟨u, joined⟩ := Option.isSome_iff_exists.mp (join?_isSome rooted.earlier i.toTy j.toTy)
  rw [join, joined, Option.getD_some]
  rw [join?, joinWithin_succ] at joined
  have own : i.cls = j.cls → classes.firstCommon? i.cls j.cls = some i.cls := by
    rintro same
    rw [← same]
    exact rooted.firstCommon?_self hi
  have met : meeting i.toTy j.toTy =
      if i.toTy.isSame j.toTy then .settled i.toTy else .fallbacks i.toTy j.toTy := rfl
  rw [met] at joined
  split at joined
  · rename_i alike
    have same : i.cls = j.cls := by
      rw [Instance.toTy, Instance.toTy, Ty.isSame, Bool.and_eq_true, beq_iff_eq] at alike
      exact alike.1
    exact .inr ⟨i, (Option.some.inj joined).symm, own same⟩
  · have instances : (ofClasses classes).joinInstances ((ofClasses classes).subtypeWithin _)
        ((ofClasses classes).joinWithin _) i j = some u := joined
    unfold joinInstances at instances
    split at instances
    · rename_i same
      refine (joinSameClass_cases same instances).imp_right ?_
      rintro ⟨k, rfl, cls⟩
      exact ⟨k, rfl, cls ▸ own same⟩
    · split at instances
      · exact .inl (Option.some.inj instances).symm
      · rename_i c found
        split at instances
        · rename_i l r seen seen'
          have same : l.cls = r.cls := (view?_cls seen).trans (view?_cls seen').symm
          refine (joinSameClass_cases same instances).imp_right ?_
          rintro ⟨k, rfl, cls⟩
          exact ⟨k, rfl, (cls.trans (view?_cls seen)) ▸ found⟩
        · exact .inl (Option.some.inj instances).symm

variable (below : classes.basic.object ≠ some b)

/-- Instances are below a class if theirs derives from it. -/
theorem inst_le_iff {n : String} (known : i.cls < classes.size) :
    (ofClasses classes).isSubtype i.toTy (.inst b n []) = true ↔ classes.derives i.cls b = true := by
  rw [← isSome_view?_iff rooted.linearized rooted.earlier.basesEarlier known, Option.isSome_iff_exists]
  refine (rooted.decides.inst_le_iff (j := ⟨b, n, []⟩)).trans (exists_congr fun view => ?_)
  exact and_iff_left (by simp)

include below

theorem exists_object_apart : ∃ k : Instance, (ofClasses classes).objectType = k.toTy ∧ k.cls < classes.size ∧
    ¬ classes.derives k.cls b = true := by
  have basesEarlier := rooted.earlier.basesEarlier
  obtain ⟨c, known, found, all⟩ := rooted.object
  refine ⟨classes.instanceOf c [], objectType_eq found, known, fun derived => ?_⟩
  obtain ⟨-, reached⟩ := (derives_iff_reaches rooted.linearized basesEarlier).mp derived
  have back := all b (Nat.lt_of_le_of_lt (reached.le basesEarlier) known)
  have same : c = b := acyclic rooted.linearized basesEarlier c b derived back
  exact below (same ▸ found)

/-- The join of two instances is one of a class below `b` exactly if they meet below `b`. -/
theorem join_below_iff {n : String} (ht : t.IsInstance classes) (hu : u.IsInstance classes) :
    ((ofClasses classes).join t u).IsInstance classes ∧
      ((ofClasses classes).isSubtype ((ofClasses classes).join t u) (.inst b n []) = true ↔
        (ofClasses classes).MeetBelow b t u) := by
  obtain ⟨i, rfl, known⟩ := ht
  obtain ⟨j, rfl, -⟩ := hu
  by_cases lost : (ofClasses classes).join i.toTy j.toTy = (ofClasses classes).objectType
  · obtain ⟨top, object, inside, apart⟩ := rooted.exists_object_apart below
    rw [lost, object]
    refine ⟨⟨top, rfl, inside⟩, iff_of_false (mt (rooted.inst_le_iff inside).mp apart) ?_⟩
    rintro ⟨-, -, -, -, -, -, -, kept⟩
    exact kept lost
  · obtain ⟨k, joined, met⟩ := (rooted.join_cases known).resolve_left lost
    obtain ⟨derived, -⟩ := derives_of_firstCommon? met
    have inside : k.cls < classes.size := by
      obtain ⟨-, reached⟩ := (derives_iff_reaches rooted.linearized rooted.earlier.basesEarlier).mp derived
      exact Nat.lt_of_le_of_lt (reached.le rooted.earlier.basesEarlier) known
    rw [joined]
    refine ⟨⟨k, rfl, inside⟩, (rooted.inst_le_iff inside).trans ⟨fun under => ?_, ?_⟩⟩
    · exact ⟨i, j, k.cls, rfl, rfl, met, under, lost⟩
    · rintro ⟨i', j', c, hi, hj, met', under, -⟩
      cases hi
      cases hj
      cases met.symm.trans met'
      exact under

omit below in
/-- What meets below a class is below it. -/
theorem below_of_meetBelow {n : String} (ht : t.IsInstance classes) (hu : u.IsInstance classes)
    (meet : (ofClasses classes).MeetBelow b t u) :
    (ofClasses classes).isSubtype t (.inst b n []) = true ∧
      (ofClasses classes).isSubtype u (.inst b n []) = true := by
  have basesEarlier := rooted.earlier.basesEarlier
  obtain ⟨i, rfl, known⟩ := ht
  obtain ⟨j, rfl, known'⟩ := hu
  obtain ⟨i', j', c, hi, hj, met, under, -⟩ := meet
  cases hi
  cases hj
  obtain ⟨left, right⟩ := derives_of_firstCommon? met
  exact ⟨(rooted.inst_le_iff known).mpr (derives_trans rooted.linearized basesEarlier left under),
    (rooted.inst_le_iff known').mpr (derives_trans rooted.linearized basesEarlier right under)⟩

end Rooted
end ClassTable
end Gradual
