import Gradual.Proofs.Alike
import Gradual.Proofs.NominalSubtyping

/-!
Simple types: instances without type arguments, tuples and the type of `None`. Their comparisons need no
more steps than the first type is nested deeply, and what they answer can be read off the classes. So
subtyping orders them as far as derivation orders the classes.
-/

namespace Gradual

/-- Types made of instances without type arguments and of tuples, and also of the type of `None` where
that may occur. -/
inductive Ty.Simple (t : ClassTable) (mayBeNone : Bool) : Ty → Prop
  | noneType : mayBeNone = true → Simple t mayBeNone .noneType
  | inst {c : ClassId} {name : String} : c < t.size → Simple t mayBeNone (.inst c name [])
  | tuple {items : List Ty} : (∀ a ∈ items, Simple t mayBeNone a) → Simple t mayBeNone (.tuple items)

mutual

/-- How simple types are ordered: `None` comes first, instances as their classes, tuples of one length as
their items, and any tuple as the class of tuples. -/
def Ty.simplyBelow (t : ClassTable) : Ty → Ty → Bool
  | .noneType, _ => true
  | .inst c _ _, .inst d _ _ => t.derives c d
  | .tuple as, .tuple bs => simplyBelowEach t as bs
  | .tuple _, .inst d _ _ => (t.find? "builtins.tuple").any (t.derives · d)
  | _, _ => false

def simplyBelowEach (t : ClassTable) : List Ty → List Ty → Bool
  | [], [] => true
  | a :: as, b :: bs => a.simplyBelow t b && simplyBelowEach t as bs
  | _, _ => false

end

variable {t : ClassTable} {mayBeNone : Bool} {l m r : Ty} {as bs : List Ty} {i : Instance}

theorem simplyBelowEach_iff :
    simplyBelowEach t as bs = true ↔ List.Forall₂ (fun a b => a.simplyBelow t b = true) as bs := by
  induction as generalizing bs with
  | nil => cases bs <;> simp [simplyBelowEach]
  | cons a as ih => cases bs <;> simp [simplyBelowEach, ih]

/-! ### Comparing simple types -/

namespace TypeOrder

variable {le : Ty → Ty → Option Bool}

/-- One step of either comparison, as far as simple types go: there both do the same. -/
def simpleStep (t : ClassTable) (le : Ty → Ty → Option Bool) : Ty → Ty → Option Bool
  | .noneType, _ => some true
  | .inst c name as, .inst d name' bs => (ofClasses t).instanceLe le ⟨c, name, as⟩ ⟨d, name', bs⟩
  | .tuple as, .tuple bs => if as.length = bs.length then argsLe le as bs else some false
  | .tuple items, .inst d name bs =>
    match (ofClasses t).fallback? (.tuple items) with
    | some i => (ofClasses t).instanceLe le i ⟨d, name, bs⟩
    | none => some false
  | _, _ => some false

section Rules

variable (lin : t.Linearized) (earlier : t.BasesEarlier)
include lin earlier

theorem instanceLe_without_args (d : ClassId) (name : String) (known : i.cls < t.size) :
    (ofClasses t).instanceLe le i ⟨d, name, []⟩ = some (t.derives i.cls d) := by
  have seen : (t.view? i d).isSome = t.derives i.cls d :=
    Bool.eq_iff_iff.mpr (ClassTable.isSome_view?_iff lin earlier known)
  rw [← seen]
  unfold instanceLe
  cases view : t.view? i d with
  | none =>
    have unseen : (ofClasses t).classes.view? i d = none := view
    rw [unseen]
    rfl
  | some found =>
    have asked : (ofClasses t).classes.view? i d = some found := view
    rw [asked]
    exact congrArg (List.allM _) List.zip_nil_right

theorem simpleStep_tuple_inst (d : ClassId) (name : String) (items : List Ty) :
    simpleStep t le (.tuple items) (.inst d name []) = some ((t.find? "builtins.tuple").any (t.derives · d)) := by
  have fallen : (ofClasses t).fallback? (.tuple items) =
      (t.find? "builtins.tuple").map fun c => t.instanceOf c [] := rfl
  rw [simpleStep, fallen]
  cases found : t.find? "builtins.tuple" with
  | none => rfl
  | some c => exact instanceLe_without_args lin earlier d name (ClassTable.lt_size_of_find? found)

end Rules

theorem argsLe_cons (a b : Ty) (as bs : List Ty) : argsLe le (a :: as) (b :: bs) =
    (le a b).bind fun below => if below then argsLe le as bs else some false := allM_cons_eq _

theorem simpleStep_tuple (each : ∀ a ∈ as, ∀ b ∈ bs, le a b = some (a.simplyBelow t b)) :
    simpleStep t le (.tuple as) (.tuple bs) = some (simplyBelowEach t as bs) := by
  rw [simpleStep]
  induction as generalizing bs with
  | nil => cases bs <;> rfl
  | cons a as ih =>
    cases bs with
    | nil => rfl
    | cons b bs =>
      have first := each a List.mem_cons_self b List.mem_cons_self
      have later := ih fun x hx y hy => each x (List.mem_cons_of_mem a hx) y (List.mem_cons_of_mem b hy)
      simp only [simplyBelowEach, argsLe_cons, first, Option.bind_some, List.length_cons,
        Nat.add_right_cancel_iff]
      cases a.simplyBelow t b with
      | true => exact later
      | false => exact ite_self _

/-- A comparison that goes on so for simple types answers by the classes, if it is given as many steps as the
first type is nested deeply. -/
theorem within_simple {within : Nat → Ty → Ty → Option Bool} {steps : Nat} (height : ClassId → Nat)
    (lin : t.Linearized) (earlier : t.BasesEarlier)
    (step : ∀ steps l r, l.Simple t mayBeNone → r.Simple t mayBeNone →
      within (steps + 1) l r = simpleStep t (within steps) l r)
    (hl : l.Simple t mayBeNone) (hr : r.Simple t mayBeNone) (enough : l.depth height ≤ steps) :
    within steps l r = some (l.simplyBelow t r) := by
  obtain ⟨steps, rfl⟩ := Nat.exists_eq_add_one.mpr (Nat.lt_of_lt_of_le (l.depth_pos height) enough)
  -- Only tuples are compared in further steps, by their items, which are nested less deeply.
  induction hl generalizing r steps with
  | noneType allowed =>
    rw [step steps _ _ (.noneType allowed) hr]
    rfl
  | inst known =>
    rw [step steps _ _ (.inst known) hr]
    cases hr with
    | noneType | tuple => rfl
    | inst => exact instanceLe_without_args lin earlier _ _ known
  | @tuple items simple ih =>
    rw [step steps _ _ (.tuple simple) hr]
    cases hr with
    | noneType => rfl
    | inst => exact simpleStep_tuple_inst lin earlier _ _ items
    | tuple others =>
      refine simpleStep_tuple fun a ha b hb => ?_
      have less := Ty.depth_lt_of_mem_parts (t := .tuple items) height ha
      have deep := a.depth_pos height
      obtain ⟨fewer, rfl⟩ : ∃ fewer, steps = fewer + 1 := ⟨steps - 1, by omega⟩
      exact ih a ha (others b hb) fewer (by omega)

section Answers

variable (lin : t.Linearized) (earlier : t.BasesEarlier)
include lin earlier

theorem subtype?_simple (hl : l.Simple t mayBeNone) (hr : r.Simple t mayBeNone) :
    (ofClasses t).subtype? l r = some (l.simplyBelow t r) := by
  have enough : l.depth (ofClasses t).height ≤ (ofClasses t).budget l r := by unfold budget; omega
  refine within_simple _ lin earlier (fun steps l r hl hr => ?_) hl hr enough
  cases hl <;> cases hr <;> rfl

theorem isSubtype_simple (hl : l.Simple t mayBeNone) (hr : r.Simple t mayBeNone) :
    (ofClasses t).isSubtype l r = l.simplyBelow t r := by
  rw [isSubtype, subtype?_simple lin earlier hl hr, Option.getD_some]

theorem proper?_simple (hl : l.Simple t false) (hr : r.Simple t false) :
    (ofClasses t).proper? l r = some (l.simplyBelow t r) := by
  have enough : l.depth (ofClasses t).height ≤ (ofClasses t).budget l r := by unfold budget; omega
  refine within_simple _ lin earlier (fun steps l r hl hr => ?_) hl hr enough
  cases hl with
  | noneType missing => cases missing
  | inst =>
    cases hr with
    | noneType missing => cases missing
    | inst => rfl
    | tuple => simp [properWithin, Ty.isSame, simpleStep]
  | tuple =>
    cases hr with
    | noneType missing => cases missing
    | inst | tuple => rfl

end Answers

end TypeOrder

/-! ### The order -/

namespace Ty.Simple

section Laws

variable (lin : t.Linearized) (earlier : t.BasesEarlier)
include lin earlier

theorem simplyBelow_self (h : l.Simple t mayBeNone) : l.simplyBelow t l = true := by
  induction h with
  | noneType => rfl
  | inst known => exact ClassTable.derives_self lin earlier known
  | tuple _ ih => exact simplyBelowEach_iff.mpr (List.forall₂_same.mpr ih)

theorem simplyBelow_trans (hl : l.Simple t mayBeNone) (hm : m.Simple t mayBeNone)
    (hr : r.Simple t mayBeNone) (first : l.simplyBelow t m = true) (second : m.simplyBelow t r = true) :
    l.simplyBelow t r = true := by
  induction hl generalizing m r with
  | noneType => rfl
  | inst =>
    cases hm with
    | noneType | tuple => cases first
    | inst =>
      cases hr with
      | noneType | tuple => cases second
      | inst => exact ClassTable.derives_trans lin earlier first second
  | tuple _ ih =>
    cases hm with
    | noneType => cases first
    | inst =>
      cases hr with
      | noneType | tuple => cases second
      | inst =>
        -- The first type counts as the class of tuples, so the classes behind that decide.
        obtain ⟨c, found, derived⟩ := (Option.any_eq_true _ _).mp first
        exact (Option.any_eq_true _ _).mpr ⟨c, found, ClassTable.derives_trans lin earlier derived second⟩
    | tuple hm =>
      cases hr with
      | noneType => cases second
      | inst => exact second
      | tuple hr =>
        refine simplyBelowEach_iff.mpr (TypeOrder.forall₂_trans (fun a ha b hb c hc => ?_)
          (simplyBelowEach_iff.mp first) (simplyBelowEach_iff.mp second))
        exact ih a ha (hm b hb) (hr c hc)

theorem isSame_of_simplyBelow (hl : l.Simple t mayBeNone) (hr : r.Simple t mayBeNone)
    (below : l.simplyBelow t r = true) (above : r.simplyBelow t l = true) : l.isSame r = true := by
  induction hl generalizing r with
  | noneType =>
    cases hr with
    | noneType => simp [isSame]
    | inst | tuple => cases above
  | inst =>
    cases hr with
    | noneType | tuple => cases below
    | inst => simpa [isSame, isSameEach] using ClassTable.acyclic lin earlier _ _ below above
  | tuple _ ih =>
    cases hr with
    | noneType => cases below
    | inst => cases above
    | tuple hr =>
      have falls := List.Forall₂.flip (simplyBelowEach_iff.mp above)
      have meets := List.Forall₂.mp (fun _ _ => And.intro) (simplyBelowEach_iff.mp below) falls
      rw [isSame, isSameEach_iff]
      exact TypeOrder.forall₂_of_mem (fun a ha b hb both => ih a ha (hr b hb) both.1 both.2) meets

end Laws

end Ty.Simple

open Builder

/-- Over the classes that a builder can make, comparisons of simple types come to an end, and by subtyping
these types are in a partial order, in which types with the same parts are the same whatever their classes
are called. Without `None`, proper subtyping is this order too. -/
theorem simple_types_ordered {made : List Expr} {b : Builder} (built : Built made b)
    (earlier : b.classes.BasesEarlier) :
    let t := b.classes
    let o := TypeOrder.ofClasses t
    (∀ l r : Ty, l.Simple t true → r.Simple t true → (o.subtype? l r).isSome = true) ∧
    (∀ l : Ty, l.Simple t true → o.isSubtype l l = true) ∧
    (∀ l m r : Ty, l.Simple t true → m.Simple t true → r.Simple t true → o.isSubtype l m = true →
      o.isSubtype m r = true → o.isSubtype l r = true) ∧
    (∀ l r : Ty, l.Simple t true → r.Simple t true → o.isSubtype l r = true → o.isSubtype r l = true →
      l.isSame r = true) ∧
    ∀ l r : Ty, l.Simple t false → r.Simple t false →
      (o.proper? l r).isSome = true ∧ o.isProperSubtype l r = o.isSubtype l r := by
  intro t o
  have lin : t.Linearized := built.linearized
  have answer {mayBeNone : Bool} {l r : Ty} (hl : l.Simple t mayBeNone) (hr : r.Simple t mayBeNone) :
      o.isSubtype l r = l.simplyBelow t r := TypeOrder.isSubtype_simple lin earlier hl hr
  refine ⟨fun l r hl hr => ?_, fun l hl => ?_, fun l m r hl hm hr first second => ?_,
    fun l r hl hr below above => ?_, fun l r hl hr => ?_⟩
  · rw [TypeOrder.subtype?_simple lin earlier hl hr, Option.isSome_some]
  · rw [answer hl hl]
    exact hl.simplyBelow_self lin earlier
  · rw [answer hl hm] at first
    rw [answer hm hr] at second
    rw [answer hl hr]
    exact hl.simplyBelow_trans lin earlier hm hr first second
  · rw [answer hl hr] at below
    rw [answer hr hl] at above
    exact hl.isSame_of_simplyBelow lin earlier hr below above
  · have proper := TypeOrder.proper?_simple lin earlier hl hr
    rw [answer hl hr, TypeOrder.isProperSubtype, proper]
    exact ⟨rfl, rfl⟩

/-- A builder with a class behind a class of tuples. -/
def Builder.sequences : Builder :=
  let declared : Build Unit := do
    let root ← newPlainClass "Root" []
    let sequence ← newPlainClass "Sequence" [root]
    discard <| newPlainClass "tuple" [sequence]
    discard <| newPlainClass "Leaf" [root]
  (declared.run .bare).2

theorem Builder.sequences_built : Built [] .sequences :=
  (Declares.newPlainClass.bind fun _ => Declares.newPlainClass.bind fun _ =>
    Declares.newPlainClass.discard.bind fun _ => Declares.newPlainClass.discard) [] .bare .bare

/-- A tuple of tuples is a sequence by way of a tuple of sequences, and nothing leads back. -/
theorem tuples_below_sequences :
    let t := Builder.sequences.classes
    let o := TypeOrder.ofClasses t
    let sequence : Ty := .inst 1 "builtins.Sequence" []
    let leaf : Ty := .inst 3 "builtins.Leaf" []
    let nested : Ty := .tuple [.noneType, .tuple [leaf]]
    let flat : Ty := .tuple [leaf, sequence]
    o.isSubtype nested nested = true ∧ o.isSubtype nested flat = true ∧ o.isSubtype flat sequence = true ∧
      o.isSubtype nested sequence = true ∧ o.isSubtype flat nested = false ∧
      o.isSubtype (.tuple [leaf]) sequence = true ∧ o.isProperSubtype (.tuple [leaf]) sequence = true ∧
      (o.subtype? leaf nested).isSome = true := by
  intro t o sequence leaf nested flat
  obtain ⟨ends, refl, trans, antisymm, proper⟩ :=
    simple_types_ordered Builder.sequences_built (by decide +kernel)
  have hleaf {mayBeNone : Bool} : leaf.Simple t mayBeNone := .inst (by decide +kernel)
  have hsequence {mayBeNone : Bool} : sequence.Simple t mayBeNone := .inst (by decide +kernel)
  have single {mayBeNone : Bool} : (Ty.tuple [leaf]).Simple t mayBeNone :=
    .tuple (List.forall_mem_singleton.mpr hleaf)
  have hnested : nested.Simple t true := .tuple (by simp [Ty.Simple.noneType, single])
  have hflat : flat.Simple t true := .tuple (by simp [hleaf, hsequence])
  have first : o.isSubtype nested flat = true := by decide +kernel
  have second : o.isSubtype flat sequence = true := by decide +kernel
  have listed : o.isSubtype (.tuple [leaf]) sequence = true := by decide +kernel
  refine ⟨refl nested hnested, first, second, trans nested flat sequence hnested hflat hsequence first second,
    Bool.eq_false_iff.mpr fun back => ?_, listed, ?_, ends leaf nested hleaf hnested⟩
  · have same := antisymm nested flat hnested hflat first back
    revert same
    decide +kernel
  · exact (proper (.tuple [leaf]) sequence single hsequence).2.trans listed

end Gradual
