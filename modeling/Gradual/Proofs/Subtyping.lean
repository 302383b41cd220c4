import Gradual.TypeOrder.Join
import Gradual.TypeOrder.Proper

/-!
Which types can be used as others: what is dynamic as anything, and an instance as one of a class
that its own derives from.
-/

namespace Gradual

/-- No two classes derive from each other. -/
def ClassTable.Acyclic (t : ClassTable) : Prop :=
  ∀ c d, t.derives c d = true → t.derives d c = true → c = d

namespace ClassTable

variable {t : ClassTable} {i j : Instance} {c : ClassId}

theorem derives_of_viewWithin {depth : Nat} (h : t.viewWithin depth i c = some j) :
    i.cls = c ∨ t.derives i.cls c = true := by
  cases depth with
  | zero =>
    simp only [viewWithin, Option.ite_none_right_eq_some] at h
    exact .inl h.1
  | succ depth =>
    simp only [viewWithin] at h
    by_cases same : i.cls = c
    · exact .inl same
    · rw [if_neg same] at h
      by_cases derived : t.derives i.cls c = true
      · exact .inr derived
      · rw [if_neg derived] at h
        cases h

theorem derives_of_view? (h : t.view? i c = some j) : i.cls = c ∨ t.derives i.cls c = true :=
  derives_of_viewWithin h

end ClassTable

namespace TypeOrder

variable {o : TypeOrder}

theorem budget_pos (s t : Ty) : 0 < o.budget s t := by
  unfold budget
  omega

theorem subtypeWithin_inst {steps : Nat} {c d : ClassId} {m n : String} {as bs : List Ty} :
    o.subtypeWithin (steps + 1) (.inst c m as) (.inst d n bs) =
      o.instanceLe (o.subtypeWithin steps) ⟨c, m, as⟩ ⟨d, n, bs⟩ := rfl

theorem one_le_depth_inst {height : ClassId → Nat} {c : ClassId} {m : String} {as : List Ty} :
    1 ≤ (Ty.inst c m as).depth height := by
  rw [Ty.depth]
  omega

theorem subtypeWithin_any {steps : Nat} {t : Ty} : o.subtypeWithin (steps + 1) .any t = some true := by
  simp [subtypeWithin, Ty.isDynamic]

theorem isSubtype_any_left (t : Ty) : o.isSubtype .any t = true := by
  obtain ⟨steps, enough⟩ := Nat.exists_eq_add_one.mpr (budget_pos (o := o) .any t)
  unfold isSubtype subtype?
  rw [enough, subtypeWithin_any]
  rfl

/-! ### Joins -/

theorem join_any : o.join .any .any = .any := by
  unfold join join?
  simp [joinWithin]

theorem join_noneType_any : o.join .noneType .any = .any := by
  unfold join join?
  simp [joinWithin]

theorem foldl_join_any {types : List Ty} (h : ∀ t ∈ types, t = .any) : types.foldl o.join .any = .any := by
  induction types with
  | nil => rfl
  | cons t rest ih =>
    rw [List.foldl_cons, h t List.mem_cons_self, join_any]
    exact ih fun u member => h u (List.mem_cons_of_mem _ member)

/-- Dynamic types have a join. -/
theorem isError_foldl_join {types : List Ty} (h : ∀ t ∈ types, t = .any) :
    (types.foldl o.join .noneType).isError = false := by
  cases types with
  | nil => rfl
  | cons t rest =>
    rw [List.foldl_cons, h t List.mem_cons_self, join_noneType_any,
      foldl_join_any fun u member => h u (List.mem_cons_of_mem _ member)]
    rfl

/-! ### Instances -/

theorem argsLe_any {le : Ty → Ty → Option Bool} (any : ∀ t, le .any t = some true) (as bs : List Ty)
    (h : ∀ a ∈ as, a = .any) : argsLe le as bs = some true := by
  unfold argsLe
  induction as generalizing bs with
  | nil => rfl
  | cons a as ih =>
    cases bs with
    | nil => rfl
    | cons b bs =>
      have later := ih bs fun x member => h x (by simp [member])
      have first : le a b = some true := by
        rw [h a (by simp)]
        exact any b
      simp only [List.zip_cons_cons, List.allM, first]
      exact later

/-- An instance all of whose type arguments are dynamic fits every instance of its class. -/
theorem isSubtype_of_same_class {c : ClassId} {m n : String} {as bs : List Ty}
    (h : ∀ a ∈ as, a = .any) : o.isSubtype (.inst c m as) (.inst c n bs) = true := by
  obtain ⟨steps, enough⟩ : ∃ steps, o.budget (.inst c m as) (.inst c n bs) = steps + 2 := by
    have deep : 1 ≤ (Ty.inst c m as).depth o.height := one_le_depth_inst
    refine ⟨o.budget (.inst c m as) (.inst c n bs) - 2, ?_⟩
    unfold budget
    omega
  have view : o.classes.view? ⟨c, m, as⟩ c = some ⟨c, m, as⟩ := ClassTable.view?_self _ ⟨c, m, as⟩
  have args : argsLe (o.subtypeWithin (steps + 1)) as bs = some true :=
    argsLe_any (fun _ => subtypeWithin_any) as bs h
  unfold isSubtype subtype?
  rw [enough, subtypeWithin_inst, instanceLe, view]
  exact congrArg (·.getD false) args

/-- An instance that is a subtype of an instance is of a class that derives from the other. -/
theorem derives_of_isSubtype {c d : ClassId} {m n : String} {as bs : List Ty}
    (h : o.isSubtype (.inst c m as) (.inst d n bs) = true) :
    c = d ∨ o.classes.derives c d = true := by
  obtain ⟨steps, enough⟩ := Nat.exists_eq_add_one.mpr (budget_pos (o := o) (.inst c m as) (.inst d n bs))
  unfold isSubtype subtype? at h
  rw [enough, subtypeWithin_inst, instanceLe] at h
  cases view : o.classes.view? ⟨c, m, as⟩ d with
  | none => simp [view] at h
  | some i => exact ClassTable.derives_of_view? view

/-- What is properly a subtype of an instance is an instance of a class that derives from the other
or a tuple. -/
theorem properSubtype_cases {t : Ty} {d : ClassId} {n : String} {bs : List Ty}
    (h : o.isProperSubtype t (.inst d n bs) = true) :
    (∃ c m as, t = .inst c m as ∧ (c = d ∨ o.classes.derives c d = true)) ∨
      ∃ items, t = .tuple items := by
  obtain ⟨steps, enough⟩ := Nat.exists_eq_add_one.mpr (budget_pos (o := o) t (.inst d n bs))
  unfold isProperSubtype proper? at h
  rw [enough] at h
  cases t with
  | inst c m as =>
    simp only [properWithin, instanceLe] at h
    cases view : o.classes.view? ⟨c, m, as⟩ d with
    | none => simp [view] at h
    | some i => exact .inl ⟨c, m, as, rfl, ClassTable.derives_of_view? view⟩
  | tuple items => exact .inr ⟨items, rfl⟩
  | any | void | noneType | callable | overloaded | typeVar | unbound | error =>
    simp [properWithin, Ty.isSame] at h

theorem isSubtype_tuple {c : ClassId} {m : String} {as items : List Ty} :
    o.isSubtype (.inst c m as) (.tuple items) = false := by
  obtain ⟨steps, enough⟩ := Nat.exists_eq_add_one.mpr (budget_pos (o := o) (.inst c m as) (.tuple items))
  unfold isSubtype subtype?
  rw [enough]
  simp [subtypeWithin, Ty.isDynamic]

/-- Where a type is properly a subtype of an instance with dynamic type arguments, the converse holds
of the instances of that class alone. -/
theorem isSubtype_of_properSubtype_iff {t : Ty} {c : ClassId} {n : String} {as : List Ty}
    (acyclic : o.classes.Acyclic) (dynamic : ∀ a ∈ as, a = .any)
    (proper : o.isProperSubtype t (.inst c n as) = true) :
    o.isSubtype (.inst c n as) t = true ↔ ∃ m bs, t = .inst c m bs := by
  constructor
  · intro fits
    rcases properSubtype_cases proper with ⟨d, m, bs, rfl, above⟩ | ⟨items, rfl⟩
    · have below := derives_of_isSubtype fits
      have same : c = d := by
        rcases above with same | above
        · exact same.symm
        · rcases below with same | below
          · exact same
          · exact acyclic c d below above
      exact ⟨m, bs, by rw [same]⟩
    · rw [isSubtype_tuple] at fits
      cases fits
  · rintro ⟨m, bs, rfl⟩
    exact isSubtype_of_same_class dynamic

end TypeOrder
end Gradual
