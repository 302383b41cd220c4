import Gradual.Checker.Display
import Gradual.Checker.Iteration
import Gradual.Proofs.CallAgreement

/-!
Agreement of assignments, displays and iteration, with values and targets that agree.
-/

namespace Gradual

variable {ρ : NodeId → NodeId}

/-- Targets that need the same from a value. -/
inductive Target.Alike (ρ : NodeId → NodeId) : Target → Target → Prop
  | typed (type : Ty) : Alike ρ (.typed type) (.typed type)
  | indexed {base base' : Check Ty} {index index' : Operand} (called : Check.Same ρ base base')
    (by_ : index.Alike ρ index') : Alike ρ (.indexed base index) (.indexed base' index')
  | inferred (v : Var) : Alike ρ (.inferred v) (.inferred v)

structure Item.Alike (ρ : NodeId → NodeId) (i j : Item) : Prop where
  id : j.id = ρ i.id
  span : j.span = i.span
  operand : i.operand.Alike ρ j.operand
  isPlaceholder : j.isPlaceholder = i.isPlaceholder

inductive ValueForm.Alike (ρ : NodeId → NodeId) : ValueForm → ValueForm → Prop
  | known : Alike ρ .known .known
  | expr : Alike ρ .expr .expr
  | placeholder (id inner : NodeId) (inParens : Bool) :
    Alike ρ (.placeholder id inner inParens) (.placeholder (ρ id) (ρ inner) inParens)
  | display (id inner : NodeId) {items items' : List Item}
    (h : List.Forall₂ (Item.Alike ρ) items items') :
    Alike ρ (.display id inner items) (.display (ρ id) (ρ inner) items')

structure Value.Alike (ρ : NodeId → NodeId) (v u : Value) : Prop where
  operand : v.operand.Alike ρ u.operand
  form : v.form.Alike ρ u.form

abbrev TargetsAlike (ρ : NodeId → NodeId) : List Target → List Target → Prop :=
  List.Forall₂ (Target.Alike ρ)

theorem Target.Alike.type?_eq {t u : Target} (h : t.Alike ρ u) : u.type? = t.type? := by
  cases h <;> rfl

theorem Target.Alike.var?_eq {t u : Target} (h : t.Alike ρ u) : u.var? = t.var? := by
  cases h <;> rfl

theorem TargetsAlike.map_eq {γ : Type} {f : Target → γ} {targets targets' : List Target}
    (h : TargetsAlike ρ targets targets') (same : ∀ t u, t.Alike ρ u → f u = f t) :
    targets'.map f = targets.map f := by
  induction h with
  | nil => rfl
  | cons first _ ih => rw [List.map_cons, List.map_cons, same _ _ first, ih]

namespace Check

theorem Value.known_alike {type : Ty} : (Value.known type).Alike ρ (.known type) :=
  ⟨Check.known_alike, .known⟩

theorem Item.toValue_alike {i j : Item} (h : i.Alike ρ j) : i.toValue.Alike ρ j.toValue := by
  refine ⟨h.operand, ?_⟩
  unfold Item.toValue
  dsimp only
  rw [h.isPlaceholder, h.id]
  split
  · exact .placeholder ..
  · exact .expr

/-! ### Assignment -/

theorem assignOne_same {t u : Target} {value value' : Value} {span : Span} {p : Problem}
    (ht : t.Alike ρ u) (hv : value.Alike ρ value') :
    Same ρ (assignOne t value span p) (assignOne u value' span p) := by
  obtain ⟨operand, form⟩ := value
  obtain ⟨operand', form'⟩ := value'
  obtain ⟨ho, hf⟩ := hv
  have call : operand'.call = operand.call := ho.call
  have compared : ∀ type, Same ρ
      (do let t ← operand.accept (some type); checkSubtype t type span p operand.call; return some t)
      (do let t ← operand'.accept (some type); checkSubtype t type span p operand'.call;
          return some t) := by
    intro type
    rw [call]
    exact (ho.accept _).seq fun _ => checkSubtype_blind.seq fun _ => .done
  cases ht with
  | typed type =>
    cases hf with
    | known | expr | display => exact compared type
    | placeholder id inner inParens =>
      cases inParens with
      | false => exact store_same.seq fun _ => .done
      | true => exact compared type
  | indexed called by_ =>
    refine called.seq fun base => (checkMethodCall_same ?_).discard.seq fun _ => .done
    exact .cons by_ (.cons ho .nil)
  | inferred v => exact (ho.accept _).seq fun _ => .done

theorem assignKnown_same {targets targets' : List Target} {types : List Ty} {span : Span} {p : Problem}
    (h : TargetsAlike ρ targets targets') :
    Same ρ (assignKnown targets types span p) (assignKnown targets' types span p) := by
  refine .forM ((forall₂_zip_zip h (List.forall₂_same.mpr fun type _ => Eq.refl type)).imp ?_)
  rintro ⟨target, type⟩ ⟨target', _⟩ ⟨alike, rfl⟩
  exact (assignOne_same alike Value.known_alike).discard

theorem assignItems_same {targets targets' : List Target} {items items' : List Item} {p : Problem}
    (ht : TargetsAlike ρ targets targets') (hi : List.Forall₂ (Item.Alike ρ) items items') :
    Same ρ (assignItems targets items p) (assignItems targets' items' p) := by
  refine .mapM_eq ((forall₂_zip_zip ht hi).imp ?_)
  rintro ⟨target, item⟩ ⟨target', item'⟩ ⟨alike, same⟩
  dsimp only
  rw [same.span]
  exact (assignOne_same alike (Item.toValue_alike same)).seq fun _ => .done

theorem wantedTuple_eq {targets targets' : List Target} {items : List Ty}
    (h : TargetsAlike ρ targets targets') : wantedTuple targets' items = wantedTuple targets items := by
  have told : ∀ targets : List Target, wantedTuple targets items =
      .tuple (((targets.map (·.type?)).mapIdx fun i type => type.or items[i]?).filterMap id) := by
    intro targets
    unfold wantedTuple
    congr 2
    exact List.ext_getElem? fun i => by simp [List.getElem?_mapIdx, Function.comp_def]
  rw [told, told, TargetsAlike.map_eq h fun _ _ alike => alike.type?_eq]

theorem unpack_same {targets targets' : List Target} {type : Ty} {span : Span} {p : Problem}
    (h : TargetsAlike ρ targets targets') :
    Same ρ (unpack targets type span p) (unpack targets' type span p) := by
  have known : ∀ types, Same ρ (assignKnown targets types span p) (assignKnown targets' types span p) :=
    fun _ => assignKnown_same h
  have count : targets'.length = targets.length := h.length_eq.symm
  have anys : ∀ type : Ty, (targets'.map fun _ => type) = targets.map fun _ => type := fun type =>
    TargetsAlike.map_eq h fun _ _ _ => rfl
  cases type with
  | tuple items =>
    show Same ρ (if _ then _ else _) (if _ then _ else _)
    rw [count]
    split
    · exact known items
    · exact report_blind
  | inst c name args =>
    show Same ρ (if _ then _ else _) (if _ then _ else _)
    rw [anys]
    split
    · exact known _
    · exact report_blind
  | any | error | unbound =>
    show Same ρ (assignKnown _ _ _ _) (assignKnown _ _ _ _)
    rw [anys]
    exact known _
  | void | noneType | callable | overloaded | typeVar => exact report_blind

theorem assignMany_same {targets targets' : List Target} {value value' : Value} {span : Span}
    {p : Problem} (ht : TargetsAlike ρ targets targets') (hv : value.Alike ρ value') :
    Same ρ (assignMany targets value span p) (assignMany targets' value' span p) := by
  obtain ⟨operand, form⟩ := value
  obtain ⟨operand', form'⟩ := value'
  obtain ⟨ho, hf⟩ := hv
  have stated : (targets'.map fun t => t.type?.getD .any) = targets.map fun t => t.type?.getD .any :=
    TargetsAlike.map_eq ht fun _ _ alike => by rw [alike.type?_eq]
  cases hf with
  | known => exact (ho.accept _).seq fun _ => (unpack_same ht).seq fun _ => .done
  | expr =>
    refine (ho.accept _).seq fun type => ?_
    cases type with
    | tuple items =>
      dsimp only
      rw [wantedTuple_eq ht]
      exact (ho.accept _).seq fun _ => (unpack_same ht).seq fun _ => .done
    | any | void | noneType | inst | callable | overloaded | typeVar | unbound | error =>
      exact Agree.done.seq fun _ => (unpack_same ht).seq fun _ => .done
  | placeholder id inner inParens =>
    unfold assignMany
    dsimp only
    rw [stated]
    exact store_same.seq fun _ => .done
  | display id inner items =>
    unfold assignMany
    dsimp only
    rw [← ht.length_eq, ← items.length_eq]
    split
    · refine (assignItems_same ht items).seq fun types => ?_
      exact store_same.seq fun _ => store_same.seq fun _ => .done
    · exact report_blind.seq fun _ => (ho.accept _).discard.seq fun _ => .done

/-! ### Types of variables -/

/-- The variable with another id for what introduces it. -/
def Introduced.renumber (ρ : NodeId → NodeId) (i : Introduced) : Introduced :=
  { i with node := i.node.map ρ }

theorem introduce_same {i : Introduced} {type : Ty} :
    Same ρ (introduce i type) (introduce (i.renumber ρ) type) := by
  obtain ⟨v, node⟩ := i
  apply inferVar_blind.seq
  intro _
  cases node with
  | none => exact .done
  | some node => exact typeOfVar_blind.seq fun _ => store_same

theorem introduceEach_same {names : List (Option Introduced)} {types : List Ty} :
    Same ρ (introduceEach names types)
      (introduceEach (names.map (Option.map (Introduced.renumber ρ))) types) := by
  have named : List.Forall₂ (fun name name' => name' = name.map (Introduced.renumber ρ)) names
      (names.map (Option.map (Introduced.renumber ρ))) := by
    rw [List.forall₂_map_right_iff, List.forall₂_same]
    exact fun _ _ => rfl
  refine .forM ((forall₂_zip_zip named (List.forall₂_same.mpr fun type _ => Eq.refl type)).imp ?_)
  rintro ⟨name, type⟩ ⟨_, _⟩ ⟨rfl, rfl⟩
  cases name with
  | none => exact .done
  | some i => exact introduce_same

theorem inferTypes_same (names : List (Option Introduced)) (type : Ty) (call : Option String)
    (span : Span) :
    Same ρ (inferTypes names type call span)
      (inferTypes (names.map (Option.map (Introduced.renumber ρ))) type call span) := by
  have anys : ((names.map (Option.map (Introduced.renumber ρ))).map fun _ => Ty.any) =
      names.map fun _ => Ty.any := by
    rw [List.map_map, Function.comp_def]
  unfold inferTypes
  rw [anys]
  split
  · exact report_blind.seq fun _ => introduceEach_same
  · split
    · exact report_blind.seq fun _ => introduceEach_same
    · rcases names with _ | ⟨first, _ | ⟨second, rest⟩⟩
      · exact introduceEach_same
      · exact introduceEach_same
      · show Same ρ (introduceEach (first :: second :: rest) (itemTypes _ type))
          (introduceEach _ (itemTypes (List.map _ (first :: second :: rest)).length type))
        rw [List.length_map]
        exact introduceEach_same

/-- Targets that are given with their ids. -/
abbrev PlacedAlike (ρ : NodeId → NodeId) (t u : NodeId × Check Target) : Prop :=
  u.1 = ρ t.1 ∧ Agree (State.Alike ρ) (Target.Alike ρ) t.2 u.2

theorem introduced_eq {targets targets' : List (NodeId × Check Target)} {kinds kinds' : List Target}
    (placed : List.Forall₂ (PlacedAlike ρ) targets targets') (alike : TargetsAlike ρ kinds kinds') :
    ((targets'.zip kinds').map fun ((node, _), kind) => kind.var?.map fun v => Introduced.mk v node) =
      ((targets.zip kinds).map fun ((node, _), kind) => kind.var?.map fun v => Introduced.mk v node).map
        (Option.map (Introduced.renumber ρ)) := by
  induction placed generalizing kinds kinds' with
  | nil => rfl
  | cons first _ ih =>
    cases alike with
    | nil => rfl
    | cons kind rest =>
      simp only [List.zip_cons_cons, List.map_cons, ih rest, kind.var?_eq, first.1, Option.map_map]
      rfl

theorem assign_same {targets targets' : List (NodeId × Check Target)} {value value' : Value}
    {span : Span} (ht : List.Forall₂ (PlacedAlike ρ) targets targets') (hv : value.Alike ρ value') :
    Same ρ (assign targets value span) (assign targets' value' span) := by
  have call : value'.operand.call = value.operand.call := hv.operand.call
  unfold assign
  split
  · rename_i node target
    obtain _ | ⟨⟨same, alike⟩, rest⟩ := ht
    obtain _ | _ := rest
    apply alike.bind
    rintro _ _ (type | ⟨called, by_⟩ | v)
    · exact (assignOne_same (.typed type) hv).discard
    · exact (assignOne_same (.indexed called by_) hv).discard
    · apply (hv.operand.accept _).seq
      intro type
      rw [call, same]
      exact inferTypes_same [some ⟨v, some node⟩] type value.operand.call span
  · rename_i several
    split
    · obtain _ | ⟨_, rest⟩ := ht
      obtain _ | _ := rest
      exact (several _ _ rfl).elim
    · refine (Agree.mapM (ht.imp fun _ _ placed => placed.2)).bind fun kinds kinds' alike => ?_
      apply (assignMany_same alike hv).seq
      intro type
      have vars : kinds'.map (·.var?) = kinds.map (·.var?) :=
        TargetsAlike.map_eq alike fun _ _ same => same.var?_eq
      have inferred : kinds'.any (·.var?.isSome) = kinds.any (·.var?.isSome) := by
        simpa [Function.comp_def] using congrArg (List.any · Option.isSome) vars
      rw [call, inferred, introduced_eq ht alike]
      split
      · exact inferTypes_same _ type value.operand.call span
      · exact .done

/-! ### Displays -/

theorem expectedArgs?_blind {fullName : String} {count : Nat} :
    Blind ρ (expectedArgs? fullName count) := by
  apply expectedType_blind.bind
  intro expected
  split
  · exact .done
  · exact .done

theorem expectedItem?_blind {fullName : String} : Blind ρ (expectedItem? fullName) :=
  expectedArgs?_blind.bind fun _ => .done

/-- Operands that are given with their places. -/
abbrev ItemsAlike (ρ : NodeId → NodeId) : List (Operand × Span) → List (Operand × Span) → Prop :=
  List.Forall₂ fun c d => c.1.Alike ρ d.1 ∧ d.2 = c.2

theorem checkItems_same {display : Display} {item : Ty} {i : Nat} {items items' : List (Operand × Span)}
    (h : ItemsAlike ρ items items') :
    Same ρ (checkItems display item i items) (checkItems display item i items') := by
  induction h generalizing i with
  | nil => exact .done
  | cons first _ ih =>
    refine (first.1.accept _).seq fun type => isSubtype_blind.seq fun fits => ?_
    dsimp only
    rw [first.2]
    split
    · exact report_blind.seq fun _ => ih
    · exact ih

theorem joinItems_same {items items' : List (Operand × Span)} (h : ItemsAlike ρ items items') :
    Same ρ (joinItems items) (joinItems items') :=
  (Agree.mapM_eq (h.imp fun _ _ alike => alike.1.accept none)).seq fun _ => joinAll_blind

theorem sequenceDisplay_same {display : Display} {items items' : List (Operand × Span)}
    (h : ItemsAlike ρ items items') :
    Same ρ (sequenceDisplay display items) (sequenceDisplay display items') := by
  apply expectedItem?_blind.seq
  intro expected
  cases expected with
  | some item => exact (checkItems_same h).seq fun _ => named_blind
  | none =>
    apply (joinItems_same h).seq
    intro joined
    dsimp only
    split
    · cases h with
      | nil => exact named_blind
      | cons first _ =>
        dsimp only [List.head?_cons]
        rw [first.2]
        exact report_blind.seq fun _ => named_blind
    · exact named_blind

/-- Entries that agree in both parts. -/
structure DictEntry.Alike (ρ : NodeId → NodeId) (e f : DictEntry) : Prop where
  key : e.key.Alike ρ f.key
  value : e.value.Alike ρ f.value
  span : f.span = e.span

theorem checkEntries_same {key value : Ty} {i : Nat} {entries entries' : List DictEntry}
    (h : List.Forall₂ (DictEntry.Alike ρ) entries entries') :
    Same ρ (checkEntries key value i entries) (checkEntries key value i entries') := by
  induction h generalizing i with
  | nil => exact .done
  | cons first _ ih =>
    refine (first.key.accept _).seq fun k => (first.value.accept _).seq fun v => ?_
    refine isSubtype_blind.seq fun keyFits => isSubtype_blind.seq fun valueFits => ?_
    dsimp only
    rw [first.span]
    split
    · exact report_blind.seq fun _ => ih
    · exact ih

theorem dictDisplay_same {entries entries' : List DictEntry} {span : Span}
    (h : List.Forall₂ (DictEntry.Alike ρ) entries entries') :
    Same ρ (dictDisplay entries span) (dictDisplay entries' span) := by
  have inferred : Same ρ
      (entries.mapM fun e => return (← e.key.accept none, ← e.value.accept none))
      (entries'.mapM fun e => return (← e.key.accept none, ← e.value.accept none)) :=
    .mapM_eq <| h.imp fun _ _ alike =>
      (alike.key.accept _).seq fun _ => (alike.value.accept _).seq fun _ => .done
  apply expectedArgs?_blind.seq
  intro expected
  split
  · exact (checkEntries_same h).seq fun _ => named_blind
  · refine inferred.seq fun types => joinAll_blind.seq fun keys => joinAll_blind.seq fun values => ?_
    show Blind ρ _
    split
    · exact report_blind.bind fun _ => named_blind
    · exact named_blind

/-- Items that are inferred one by one, each with a type that is expected of it. -/
theorem acceptEach_same {items items' : List Operand} (types : List (Option Ty))
    (h : List.Forall₂ (Operand.Alike ρ) items items') :
    Same ρ (do return Ty.tuple (← (items.zip types).mapM fun (item, type) => item.accept type))
      (do return Ty.tuple (← (items'.zip types).mapM fun (item, type) => item.accept type)) := by
  refine (Agree.mapM_eq ?_).seq fun _ => .done
  refine (forall₂_zip_zip h (List.forall₂_same.mpr fun type _ => Eq.refl type)).imp ?_
  rintro ⟨item, type⟩ ⟨item', _⟩ ⟨alike, rfl⟩
  exact alike.accept _

theorem tupleDisplay_same {items items' : List Operand}
    (h : List.Forall₂ (Operand.Alike ρ) items items') :
    Same ρ (tupleDisplay items) (tupleDisplay items') := by
  have noTypes : (items'.map fun _ => (none : Option Ty)) = items.map fun _ => none := by
    rw [List.map_const', List.map_const', h.length_eq]
  unfold tupleDisplay
  rw [noTypes, ← h.length_eq]
  apply expectedType_blind.seq
  intro expected
  split
  · exact Agree.done.seq fun types => acceptEach_same types h
  · exact Agree.done.seq fun types => acceptEach_same types h

/-! ### Iteration -/

theorem itemType_same {sequence sequence' : Operand} {span : Span} (h : sequence.Alike ρ sequence') :
    Same ρ (itemType sequence span) (itemType sequence' span) := by
  unfold itemType
  rw [h.call]
  refine (h.accept none).seq fun iterable => ?_
  show Blind ρ _
  refine checkHasValue_blind.bind fun _ => ?_
  have called : ∀ name base, Blind ρ (checkMethodCall name base [] span) := fun _ _ =>
    checkMethodCall_same .nil
  split
  · exact .done
  · apply joinAll_blind.bind
    intro joined
    split
    · exact report_blind.bind fun _ => .done
    · exact .done
  · refine named_blind.bind fun expected => isSubtype_blind.bind fun fits => ?_
    split
    · exact report_blind.bind fun _ => .done
    · exact (called _ _).bind fun iterator => read_blind.bind fun env => called _ _

end Check
end Gradual
