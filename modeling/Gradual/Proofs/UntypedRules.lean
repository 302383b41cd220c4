import Gradual.Proofs.Untyped

/-!
Assignments, displays and iteration in code that declares no types.
-/

namespace Gradual

variable {r : Option Ty}

/-- A target that is indexed is dynamic; whatever any other one states, a dynamic value fits. -/
def Target.Untyped (r : Option Ty) : Target → Prop
  | .indexed base index => Check.Keeps (.untyped r) base (· = .any) ∧ index.Untyped r
  | .typed _ | .inferred _ => True

structure Item.Untyped (r : Option Ty) (item : Item) : Prop where
  operand : item.operand.Untyped r
  bare : item.isPlaceholder = false

/-- A value that is written out or known, and no placeholder. -/
def ValueForm.Untyped (r : Option Ty) : ValueForm → Prop
  | .known | .expr => True
  | .placeholder .. => False
  | .display _ _ items => ∀ item ∈ items, item.Untyped r

structure Value.Untyped (r : Option Ty) (value : Value) : Prop where
  operand : value.operand.Untyped r
  form : value.form.Untyped r

theorem Value.untyped_known : (Value.known .any).Untyped r := ⟨Check.known_untyped, True.intro⟩

theorem Item.Untyped.toValue {item : Item} (h : item.Untyped r) : item.toValue.Untyped r := by
  refine ⟨h.operand, ?_⟩
  unfold Item.toValue
  rw [h.bare]
  exact True.intro

/-- A type that a variable can be given. -/
structure Ty.Introduces (t : Ty) : Prop where
  value : t.isVoid = false
  specific : t.isSpecific = true

theorem Ty.Introduces.any : Ty.any.Introduces := ⟨rfl, rfl⟩

theorem Ty.Introduces.tuple {types : List Ty} (h : ∀ t ∈ types, t = .any) :
    (Ty.tuple types).Introduces := by
  refine ⟨rfl, ?_⟩
  show Ty.isSpecific.allSpecific types = true
  induction types with
  | nil => rfl
  | cons t rest ih =>
    rw [Ty.isSpecific.allSpecific, h t List.mem_cons_self,
      ih fun u member => h u (List.mem_cons_of_mem _ member)]
    rfl

namespace Check

/-! ### Assignment -/

/-- A value is found to be dynamic, unless it goes through a target that is indexed. -/
theorem assignOne_untyped {target : Target} {value : Value} {span : Span} {p : Problem}
    (ht : target.Untyped r) (hv : value.Untyped r) :
    Keeps (.untyped r) (assignOne target value span p) (∀ type ∈ ·, type = .any) := by
  unfold assignOne
  split
  · rename_i placed
    have form := hv.form
    rw [placed] at form
    exact form.elim
  · apply (hv.operand _).bind
    intro _ answer
    subst answer
    exact checkSubtype_untyped.seq fun _ => .pure fun _ same => (Option.some.inj same).symm
  · apply ht.1.bind
    intro _ answer
    subst answer
    refine (checkMethodCall_untyped ?_).trivial.discard.seq fun _ => .pure fun _ none => nomatch none
    simpa using ⟨ht.2, hv.operand⟩
  · apply (hv.operand _).bind
    intro _ answer
    subst answer
    exact .pure fun _ same => (Option.some.inj same).symm

theorem assignKnown_untyped {targets : List Target} {types : List Ty} {span : Span} {p : Problem}
    (ht : ∀ t ∈ targets, t.Untyped r) (h : ∀ type ∈ types, type = .any) :
    Keeps (.untyped r) (assignKnown targets types span p) := by
  refine .forM fun (target, type) member => ?_
  have both := List.of_mem_zip member
  rw [h type both.2]
  exact (assignOne_untyped (ht _ both.1) Value.untyped_known).trivial.discard

theorem assignItems_untyped {targets : List Target} {items : List Item} {p : Problem}
    (ht : ∀ t ∈ targets, t.Untyped r) (hi : ∀ item ∈ items, item.Untyped r) :
    Keeps (.untyped r) (assignItems targets items p) (∀ type ∈ ·, type = .any) := by
  refine .mapM fun (target, item) member => ?_
  have both := List.of_mem_zip member
  refine (assignOne_untyped (ht _ both.1) (hi _ both.2).toValue).bind fun type answer => .pure ?_
  cases type with
  | none => rfl
  | some type => exact answer type rfl

theorem unpack_untyped {targets : List Target} {span : Span} {p : Problem}
    (ht : ∀ t ∈ targets, t.Untyped r) : Keeps (.untyped r) (unpack targets .any span p) :=
  assignKnown_untyped ht (by simp)

/-- Items that are written out are counted, and nothing else about them can be wrong. -/
theorem assignMany_untyped {targets : List Target} {value : Value} {span : Span} {p : Problem}
    (ht : ∀ t ∈ targets, t.Untyped r) (hv : value.Untyped r) :
    Keeps (.untyped r) (assignMany targets value span p) Ty.Introduces := by
  have form := hv.form
  unfold assignMany
  split
  · rename_i placed
    rw [placed] at form
    exact form.elim
  · rename_i placed
    rw [placed] at form
    split
    · apply (assignItems_untyped ht form).bind
      intro types all
      exact store_untyped.seq fun _ => store_untyped.seq fun _ => .pure (.tuple all)
    · apply (report_untyped (.inl rfl)).seq
      intro _
      exact (hv.operand _).trivial.discard.seq fun _ => .pure .any
  · apply (hv.operand _).bind
    intro _ answer
    subst answer
    exact (unpack_untyped ht).seq fun _ => .pure .any
  · apply (hv.operand _).bind
    intro _ answer
    subst answer
    have dynamic : Keeps (.untyped r) (pure Ty.any) (· = .any) := .pure rfl
    apply dynamic.bind
    intro _ answer
    subst answer
    exact (unpack_untyped ht).seq fun _ => .pure .any

theorem introduceEach_untyped {names : List (Option Introduced)} {types : List Ty} :
    Keeps (.untyped r) (introduceEach names types) := by
  refine .forM fun (name, type) _ => ?_
  dsimp only
  split
  · apply inferVar_untyped.seq
    intro _
    split
    · exact typeOfVar_keeps.seq fun _ => store_untyped
    · exact .done
  · exact .done

theorem inferTypes_untyped {names : List (Option Introduced)} {type : Ty} {call : Option String}
    {span : Span} (h : type.Introduces) : Keeps (.untyped r) (inferTypes names type call span) := by
  unfold inferTypes
  rw [h.value, h.specific]
  split
  · contradiction
  · split
    · contradiction
    · split <;> exact introduceEach_untyped

theorem assign_untyped {targets : List (NodeId × Check Target)} {value : Value} {span : Span}
    (ht : ∀ t ∈ targets, Keeps (.untyped r) t.2 (·.Untyped r)) (hv : value.Untyped r) :
    Keeps (.untyped r) (assign targets value span) := by
  unfold assign
  split
  · rename_i node target
    apply (ht (node, target) (by simp)).bind
    intro kind kept
    split
    · apply (hv.operand _).bind
      intro _ answer
      subst answer
      exact inferTypes_untyped .any
    · exact (assignOne_untyped kept hv).trivial.discard
  · apply (Keeps.mapM ht).bind
    intro kinds kept
    apply (assignMany_untyped kept hv).bind
    intro type introduces
    split
    · exact inferTypes_untyped introduces
    · exact .done

/-! ### Displays -/

theorem expectedArgs?_untyped {fullName : String} {count : Nat} :
    Keeps (.untyped r) (expectedArgs? fullName count) := by
  apply expectedType_keeps.seq
  intro expected
  split
  · exact .done
  · exact .done

theorem expectedItem?_untyped {fullName : String} : Keeps (.untyped r) (expectedItem? fullName) :=
  expectedArgs?_untyped.seq fun _ => .done

theorem checkItems_untyped {display : Display} {item : Ty} {i : Nat}
    {items : List (Operand × Span)} (h : ∀ c ∈ items, c.1.Untyped r) :
    Keeps (.untyped r) (checkItems display item i items) := by
  induction items generalizing i with
  | nil => exact .done
  | cons c rest ih =>
    apply (h c (by simp) _).bind
    intro _ answer
    subst answer
    apply isSubtype_untyped.bind
    intro _ answer
    subst answer
    exact ih fun c hc => h c (by simp [hc])

theorem joinItems_untyped {items : List (Operand × Span)} (h : ∀ c ∈ items, c.1.Untyped r) :
    Keeps (.untyped r) (joinItems items) (·.isError = false) := by
  have each : Keeps (.untyped r) (items.mapM fun c => c.1.accept none) (∀ type ∈ ·, type = .any) :=
    .mapM fun c hc => h c hc none
  exact each.bind fun types all => joinAll_untyped all

theorem sequenceDisplay_untyped {display : Display} {items : List (Operand × Span)}
    (h : ∀ c ∈ items, c.1.Untyped r) : Keeps (.untyped r) (sequenceDisplay display items) := by
  apply expectedItem?_untyped.seq
  intro expected
  split
  · exact (checkItems_untyped h).seq fun _ => named_untyped
  · apply (joinItems_untyped h).bind
    intro joined known
    rw [known]
    exact named_untyped

/-- Both parts of an entry are dynamic. -/
structure DictEntry.Untyped (r : Option Ty) (e : DictEntry) : Prop where
  key : e.key.Untyped r
  value : e.value.Untyped r

theorem checkEntries_untyped {key value : Ty} {i : Nat} {entries : List DictEntry}
    (h : ∀ e ∈ entries, DictEntry.Untyped r e) :
    Keeps (.untyped r) (checkEntries key value i entries) := by
  induction entries generalizing i with
  | nil => exact .done
  | cons e rest ih =>
    have first := h e (by simp)
    apply (first.key _).bind
    intro _ answer
    subst answer
    apply (first.value _).bind
    intro _ answer
    subst answer
    apply isSubtype_untyped.bind
    intro _ answer
    subst answer
    apply isSubtype_untyped.bind
    intro _ answer
    subst answer
    exact ih fun e he => h e (by simp [he])

theorem dictDisplay_untyped {entries : List DictEntry} {span : Span}
    (h : ∀ e ∈ entries, DictEntry.Untyped r e) : Keeps (.untyped r) (dictDisplay entries span) := by
  apply expectedArgs?_untyped.seq
  intro expected
  split
  · exact (checkEntries_untyped h).seq fun _ => named_untyped
  · have each : Keeps (.untyped r)
        (entries.mapM fun e => return (← e.key.accept none, ← e.value.accept none))
        (∀ types ∈ ·, types = (.any, .any)) := by
      refine .mapM fun e he => ?_
      apply ((h e he).key _).bind
      intro _ answer
      subst answer
      apply ((h e he).value _).bind
      intro _ answer
      subst answer
      exact .pure rfl
    apply each.bind
    intro types all
    have keysAll : ∀ t ∈ types.map (·.1), t = .any := by
      simp only [List.mem_map]
      rintro _ ⟨pair, member, rfl⟩
      rw [all pair member]
    have valuesAll : ∀ t ∈ types.map (·.2), t = .any := by
      simp only [List.mem_map]
      rintro _ ⟨pair, member, rfl⟩
      rw [all pair member]
    apply (joinAll_untyped keysAll).bind
    intro keys known
    refine (joinAll_untyped valuesAll).bind fun values known' => ?_
    rw [known, known']
    exact named_untyped

theorem tupleDisplay_untyped {items : List Operand} (h : ∀ o ∈ items, o.Untyped r) :
    Keeps (.untyped r) (tupleDisplay items) := by
  apply expectedType_keeps.seq
  intro expected
  extract_lets inferred
  have inferredKeeps : ∀ types, Keeps (.untyped r) (inferred types) := fun types =>
    (Keeps.mapM_trivial fun (item, type) member =>
      (h item (List.of_mem_zip member).1 type).trivial).seq fun _ => .done
  split
  · exact Keeps.done.seq inferredKeeps
  · exact Keeps.done.seq inferredKeeps

/-! ### Iteration -/

theorem itemType_untyped {sequence : Operand} {span : Span} (h : sequence.Untyped r) :
    Keeps (.untyped r) (itemType sequence span) (· = .any) := by
  apply (h none).bind
  intro _ answer
  subst answer
  refine Keeps.seq (x := checkHasValue .any sequence.call span) .done fun _ => ?_
  refine named_untyped.seq fun expected => isSubtype_untyped.bind ?_
  rintro _ rfl
  apply (checkMethodCall_untyped (by simp)).bind
  intro _ answer
  subst answer
  exact read_keeps.seq fun env => checkMethodCall_untyped (by simp)

end Check
end Gradual
