import Gradual.Checker.Display
import Gradual.Checker.Iteration
import Gradual.Proofs.CallEffects

/-!
The effects of assignments, displays and iteration, from those of the values and the targets that
are in them.
-/

namespace Gradual

namespace Target

/-- A target that is indexed calls what its base has, and a variable without type gets one. -/
def Keeps (w : Effects) : Target → Prop
  | .indexed base index => Check.Keeps w base ∧ index.Keeps w
  | .inferred v => w.infers v.id
  | .typed _ => True

/-- What a value goes through on its way into a target: only one that is indexed calls something. -/
def Stores (w : Effects) : Target → Prop
  | .indexed base index => Check.Keeps w base ∧ index.Keeps w
  | .inferred _ | .typed _ => True

theorem Stores.typed {w : Effects} {type : Ty} : (Target.typed type).Stores w := True.intro

theorem Keeps.stores {w : Effects} {t : Target} (h : t.Keeps w) : t.Stores w := by
  cases t with
  | indexed => exact h
  | inferred | typed => exact True.intro

end Target

structure Item.Keeps (w : Effects) (item : Item) : Prop where
  operand : item.operand.Keeps w
  id : w.nodes item.id

/-- What the rules of assignment look at can be recorded. -/
def ValueForm.Keeps (w : Effects) : ValueForm → Prop
  | .known | .expr => True
  | .placeholder id inner _ => w.nodes id ∧ w.nodes inner
  | .display id inner items => w.nodes id ∧ w.nodes inner ∧ ∀ item ∈ items, item.Keeps w

structure Value.Keeps (w : Effects) (value : Value) : Prop where
  operand : value.operand.Keeps w
  form : value.form.Keeps w

namespace Check

variable {w : Effects}

theorem Value.known_keeps {type : Ty} : (Value.known type).Keeps w :=
  ⟨Check.known_keeps, True.intro⟩

theorem Item.toValue_keeps {item : Item} (h : item.Keeps w) : item.toValue.Keeps w := by
  refine ⟨h.operand, ?_⟩
  unfold Item.toValue
  dsimp only
  split
  · exact ⟨h.id, h.id⟩
  · exact True.intro

/-! ### Assignment -/

theorem assignOne_keeps {target : Target} {value : Value} {span : Span} {p : Problem}
    (ht : target.Stores w) (hv : value.Keeps w) : Keeps w (assignOne target value span p) := by
  unfold assignOne
  split
  · rename_i placed
    have form := hv.form
    rw [placed] at form
    exact (store_keeps form.1).seq fun _ => .done
  · exact (hv.operand _).seq fun _ => checkSubtype_keeps.seq fun _ => .done
  · apply ht.1.seq
    intro base
    refine (checkMethodCall_keeps ?_).discard.seq fun _ => .done
    simpa using ⟨ht.2, hv.operand⟩
  · exact (hv.operand _).seq fun _ => .done

theorem assignKnown_keeps {targets : List Target} {types : List Ty} {span : Span} {p : Problem}
    (h : ∀ t ∈ targets, t.Stores w) : Keeps w (assignKnown targets types span p) := by
  refine .forM fun (target, type) member => ?_
  exact (assignOne_keeps (h _ (List.of_mem_zip member).1) Value.known_keeps).discard

theorem assignItems_keeps {targets : List Target} {items : List Item} {p : Problem}
    (ht : ∀ t ∈ targets, t.Stores w) (hi : ∀ item ∈ items, item.Keeps w) :
    Keeps w (assignItems targets items p) := by
  refine .mapM_trivial fun (target, item) member => ?_
  have both := List.of_mem_zip member
  exact (assignOne_keeps (ht _ both.1) (Item.toValue_keeps (hi _ both.2))).seq fun _ => .done

theorem unpack_keeps {targets : List Target} {type : Ty} {span : Span} {p : Problem}
    (h : ∀ t ∈ targets, t.Stores w) : Keeps w (unpack targets type span p) := by
  unfold unpack
  split
  · split
    · exact assignKnown_keeps h
    · exact report_keeps
  · split
    · exact assignKnown_keeps h
    · exact report_keeps
  · exact assignKnown_keeps h
  · exact assignKnown_keeps h
  · exact assignKnown_keeps h
  · exact report_keeps

theorem assignMany_keeps {targets : List Target} {value : Value} {span : Span} {p : Problem}
    (ht : ∀ t ∈ targets, t.Stores w) (hv : value.Keeps w) :
    Keeps w (assignMany targets value span p) := by
  have form := hv.form
  unfold assignMany
  split
  · rename_i placed
    rw [placed] at form
    exact (store_keeps form.2).seq fun _ => .done
  · rename_i placed
    rw [placed] at form
    obtain ⟨outer, inner, items⟩ := form
    split
    · apply (assignItems_keeps ht items).seq
      intro types
      exact (store_keeps inner).seq fun _ => (store_keeps outer).seq fun _ => .done
    · exact report_keeps.seq fun _ => (hv.operand _).discard.seq fun _ => .done
  · exact (hv.operand _).seq fun _ => (unpack_keeps ht).seq fun _ => .done
  · apply (hv.operand _).seq
    intro type
    split
    · exact (hv.operand _).seq fun _ => (unpack_keeps ht).seq fun _ => .done
    · exact Keeps.done.seq fun _ => (unpack_keeps ht).seq fun _ => .done

/-! ### Types of variables -/

theorem allSpecific_iff {types : List Ty} :
    Ty.isSpecific.allSpecific types = true ↔ ∀ t ∈ types, t.isSpecific = true := by
  induction types with
  | nil => simp [Ty.isSpecific.allSpecific]
  | cons t types ih => simp [Ty.isSpecific.allSpecific, ih]

theorem isSpecific_stripped {type : Ty} (h : type.isSpecific = true) :
    type.stripped.isSpecific = true := by
  cases type <;> exact h

/-- The items of a value are as specific as the value. -/
theorem isSpecific_itemTypes {count : Nat} {type : Ty} (h : type.isSpecific = true) :
    ∀ t ∈ itemTypes count type, t.isSpecific = true := by
  have dynamic : ∀ t ∈ List.replicate count Ty.any, t.isSpecific = true := by
    intro t member
    rw [List.eq_of_mem_replicate member]
    rfl
  cases type with
  | tuple items =>
    by_cases fit : items.length = count
    · rw [itemTypes, if_pos fit]
      exact allSpecific_iff.mp h
    · rw [itemTypes, if_neg fit]
      exact dynamic
  | inst c name args =>
    intro t member
    rw [List.eq_of_mem_replicate member]
    split
    · cases args with
      | nil => rfl
      | cons arg args => exact allSpecific_iff.mp h arg List.mem_cons_self
    · rfl
  | any | void | noneType | callable | overloaded | typeVar | unbound | error => exact dynamic

/-- The variable may get the type of a value, and the occurrence that introduces it be recorded. -/
structure Introduced.Keeps (w : Effects) (i : Introduced) : Prop where
  var : w.infers i.var.id
  node : ∀ node ∈ i.node, w.nodes node

theorem introduce_keeps {i : Introduced} {type : Ty} (h : i.Keeps w)
    (specific : type.isSpecific = true) : Keeps w (introduce i type) := by
  apply (inferVar_keeps h.var (isSpecific_stripped specific)).seq
  intro _
  split
  · rename_i node known
    exact typeOfVar_keeps.seq fun _ => store_keeps (h.node node known)
  · exact .done

theorem introduceEach_keeps {names : List (Option Introduced)} {types : List Ty}
    (h : ∀ i, some i ∈ names → i.Keeps w) (specific : ∀ t ∈ types, t.isSpecific = true) :
    Keeps w (introduceEach names types) := by
  refine .forM fun (name, type) member => ?_
  have both := List.of_mem_zip member
  dsimp only
  split
  · exact introduce_keeps (h _ both.1) (specific _ both.2)
  · exact .done

theorem inferTypes_keeps {names : List (Option Introduced)} {type : Ty} {call : Option String}
    {span : Span} (h : ∀ i, some i ∈ names → i.Keeps w) :
    Keeps w (inferTypes names type call span) := by
  have dynamic : ∀ t ∈ names.map fun _ => Ty.any, t.isSpecific = true := by
    intro t member
    obtain ⟨name, -, rfl⟩ := List.mem_map.mp member
    rfl
  unfold inferTypes
  split
  · exact report_keeps.seq fun _ => introduceEach_keeps h dynamic
  · split
    · exact report_keeps.seq fun _ => introduceEach_keeps h dynamic
    · rename_i specific
      have known : type.isSpecific = true := by simpa using specific
      split
      · exact introduceEach_keeps h (by simpa using known)
      · exact introduceEach_keeps h (isSpecific_itemTypes known)

theorem assign_keeps {targets : List (NodeId × Check Target)} {value : Value} {span : Span}
    (ids : ∀ t ∈ targets, w.nodes t.1) (ht : ∀ t ∈ targets, Keeps w t.2 (·.Keeps w))
    (hv : value.Keeps w) : Keeps w (assign targets value span) := by
  unfold assign
  split
  · rename_i node target
    apply (ht (node, target) (by simp)).bind
    intro kind kept
    split
    · rename_i v
      refine (hv.operand _).seq fun _ => inferTypes_keeps fun i same => ?_
      obtain rfl : i = ⟨v, some node⟩ := by simpa using same
      exact ⟨kept, by simpa using ids (node, target) (by simp)⟩
    · exact (assignOne_keeps kept.stores hv).discard
  · apply (Keeps.mapM ht).bind
    intro kinds kept
    apply (assignMany_keeps (fun t member => (kept t member).stores) hv).seq
    intro type
    split
    · refine inferTypes_keeps fun i named => ?_
      obtain ⟨⟨⟨node, target⟩, kind⟩, paired, introduced⟩ := List.mem_map.mp named
      obtain ⟨v, known, rfl⟩ := Option.map_eq_some_iff.mp introduced
      have both := List.of_mem_zip paired
      refine ⟨?_, by simpa using ids _ both.1⟩
      cases kind with
      | inferred u =>
        cases known
        exact kept _ both.2
      | typed | indexed => cases known
    · exact .done

/-! ### Displays -/

theorem expectedArgs?_keeps {fullName : String} {count : Nat} :
    Keeps w (expectedArgs? fullName count) := by
  apply expectedType_keeps.seq
  intro expected
  split
  · exact .done
  · exact .done

theorem expectedItem?_keeps {fullName : String} : Keeps w (expectedItem? fullName) :=
  expectedArgs?_keeps.seq fun _ => .done

theorem checkItems_keeps {display : Display} {item : Ty} {i : Nat} {items : List (Operand × Span)}
    (h : ∀ c ∈ items, c.1.Keeps w) : Keeps w (checkItems display item i items) := by
  induction items generalizing i with
  | nil => exact .done
  | cons c rest ih =>
    have later : Keeps w (checkItems display item (i + 1) rest) := ih fun c hc => h c (by simp [hc])
    refine (h c (by simp) _).seq fun type => isSubtype_keeps.seq fun fits => ?_
    dsimp only
    split
    · exact report_keeps.seq fun _ => later
    · exact later

theorem joinItems_keeps {items : List (Operand × Span)} (h : ∀ c ∈ items, c.1.Keeps w) :
    Keeps w (joinItems items) :=
  (Keeps.mapM_trivial fun c hc => h c hc none).seq fun _ => joinAll_keeps

theorem sequenceDisplay_keeps {display : Display} {items : List (Operand × Span)}
    (h : ∀ c ∈ items, c.1.Keeps w) : Keeps w (sequenceDisplay display items) := by
  apply expectedItem?_keeps.seq
  intro expected
  split
  · exact (checkItems_keeps h).seq fun _ => named_keeps
  · apply (joinItems_keeps h).seq
    intro joined
    split
    · split
      · exact report_keeps.seq fun _ => named_keeps
      · exact named_keeps
    · exact named_keeps

/-- Both parts of an entry stay within the effects. -/
structure DictEntry.Keeps (w : Effects) (e : DictEntry) : Prop where
  key : e.key.Keeps w
  value : e.value.Keeps w

theorem checkEntries_keeps {key value : Ty} {i : Nat} {entries : List DictEntry}
    (h : ∀ e ∈ entries, DictEntry.Keeps w e) : Keeps w (checkEntries key value i entries) := by
  induction entries generalizing i with
  | nil => exact .done
  | cons e rest ih =>
    have first := h e (by simp)
    have later : Keeps w (checkEntries key value (i + 1) rest) :=
      ih fun e he => h e (by simp [he])
    refine (first.key _).seq fun k => (first.value _).seq fun v => ?_
    refine isSubtype_keeps.seq fun keyFits => isSubtype_keeps.seq fun valueFits => ?_
    dsimp only
    split
    · exact report_keeps.seq fun _ => later
    · exact later

theorem dictDisplay_keeps {entries : List DictEntry} {span : Span}
    (h : ∀ e ∈ entries, DictEntry.Keeps w e) : Keeps w (dictDisplay entries span) := by
  apply expectedArgs?_keeps.seq
  intro expected
  split
  · exact (checkEntries_keeps h).seq fun _ => named_keeps
  · refine (Keeps.mapM_trivial fun e he => ?_).seq fun types => ?_
    · exact ((h e he).key _).seq fun _ => ((h e he).value _).seq fun _ => .done
    · refine joinAll_keeps.seq fun keys => joinAll_keeps.seq fun values => ?_
      split
      · exact report_keeps.seq fun _ => named_keeps
      · exact named_keeps

theorem tupleDisplay_keeps {items : List Operand} (h : ∀ o ∈ items, o.Keeps w) :
    Keeps w (tupleDisplay items) := by
  apply expectedType_keeps.seq
  intro expected
  extract_lets inferred
  have inferredKeeps : ∀ types, Keeps w (inferred types) := fun types =>
    (Keeps.mapM_trivial fun (item, type) member =>
      h item (List.of_mem_zip member).1 type).seq fun _ => .done
  split
  · exact Keeps.done.seq inferredKeeps
  · exact Keeps.done.seq inferredKeeps

/-! ### Iteration -/

theorem itemType_keeps {sequence : Operand} {span : Span} (h : sequence.Keeps w) :
    Keeps w (itemType sequence span) := by
  refine (h none).seq fun iterable => checkHasValue_keeps.seq fun _ => ?_
  split
  · exact .done
  · apply joinAll_keeps.seq
    intro joined
    split
    · exact report_keeps.seq fun _ => .done
    · exact .done
  · refine named_keeps.seq fun expected => isSubtype_keeps.seq fun fits => ?_
    split
    · exact report_keeps.seq fun _ => .done
    · refine (checkMethodCall_keeps (by simp)).seq fun iterator => read_keeps.seq fun env => ?_
      exact checkMethodCall_keeps (by simp)

end Check
end Gradual
