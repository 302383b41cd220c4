import Gradual.Proofs.Alike
import Gradual.Proofs.Reflexivity

/-!
Identity of types, proper subtyping and subtyping. Types are the same exactly if nothing tells them
apart once their names are left out, so identity is an equivalence. What is the same is properly a
subtype, and where no type variables, overloaded types and keywords are met, what is properly a subtype
is a subtype.
-/

namespace Gradual

/-! ### Types without names -/

mutual

/-- A type without names. Of a type variable only its id is left. -/
def Ty.nameless : Ty → Ty
  | .any => .any
  | .void => .void
  | .noneType => .noneType
  | .inst c _ args => .inst c "" (namelessEach args)
  | .callable s => .callable s.nameless
  | .overloaded items => .overloaded (namelessSignatures items)
  | .tuple items => .tuple (namelessEach items)
  | .typeVar v => .typeVar (.plain "" v.id .any)
  | .unbound name => .unbound name
  | .error => .error

/-- A signature without names. Of the type variables that it quantifies only their number is left. -/
def Signature.nameless : Signature → Signature
  | ⟨argTypes, argKinds, _, ret, quantified, isTypeObject, _, _⟩ =>
    ⟨namelessEach argTypes, argKinds, [], ret.nameless,
      List.replicate quantified.length (.plain "" 0 .any), isTypeObject, none, false⟩

def namelessEach : List Ty → List Ty
  | [] => []
  | t :: ts => t.nameless :: namelessEach ts

def namelessSignatures : List Signature → List Signature
  | [] => []
  | s :: ss => s.nameless :: namelessSignatures ss

end

mutual

/-- Types are the same exactly if they are equal without names. -/
theorem Ty.isSame_iff_nameless : (a b : Ty) → (a.isSame b = true ↔ a.nameless = b.nameless)
  | .any, b | .void, b | .noneType, b | .error, b | .unbound _, b | .typeVar _, b => by
    cases b <;> simp [isSame, nameless, TypeVar.plain]
  | .inst _ _ as, b => by
    cases b with
    | inst _ _ bs => simp [isSame, nameless, isSameEach_iff_nameless as bs]
    | _ => simp [isSame, nameless]
  | .callable s, b => by
    cases b with
    | callable t => simp [isSame, nameless, isSameSignature_iff_nameless s t]
    | _ => simp [isSame, nameless]
  | .overloaded ss, b => by
    cases b with
    | overloaded ts => simp [isSame, nameless, isSameSignatures_iff_nameless ss ts]
    | _ => simp [isSame, nameless]
  | .tuple as, b => by
    cases b with
    | tuple bs => simp [isSame, nameless, isSameEach_iff_nameless as bs]
    | _ => simp [isSame, nameless]

theorem Ty.isSameSignature_iff_nameless :
    (s t : Signature) → (isSameSignature s t = true ↔ s.nameless = t.nameless)
  | ⟨types, _, _, ret, _, _, _, _⟩, ⟨types', _, _, ret', _, _, _, _⟩ => by
    rw [Ty.isSameSignature_iff]
    simp only [Signature.nameless, Signature.mk.injEq, isSameEach_iff_nameless types types',
      Ty.isSame_iff_nameless ret ret', List.replicate_inj]
    grind

theorem Ty.isSameEach_iff_nameless :
    (as bs : List Ty) → (isSameEach as bs = true ↔ namelessEach as = namelessEach bs)
  | [], [] | [], _ :: _ | _ :: _, [] => by simp [isSameEach, namelessEach]
  | a :: as, b :: bs => by
    simp [isSameEach, namelessEach, Ty.isSame_iff_nameless a b, isSameEach_iff_nameless as bs]

theorem Ty.isSameSignatures_iff_nameless :
    (ss ts : List Signature) →
      (isSameSignatures ss ts = true ↔ namelessSignatures ss = namelessSignatures ts)
  | [], [] | [], _ :: _ | _ :: _, [] => by simp [isSameSignatures, namelessSignatures]
  | s :: ss, t :: ts => by
    simp [isSameSignatures, namelessSignatures, isSameSignature_iff_nameless s t,
      isSameSignatures_iff_nameless ss ts]

end

theorem Ty.isSame_refl (t : Ty) : t.isSame t = true := (isSame_iff_nameless t t).mpr rfl

theorem Ty.isSame_symm {s t : Ty} (h : s.isSame t = true) : t.isSame s = true :=
  (isSame_iff_nameless t s).mpr ((isSame_iff_nameless s t).mp h).symm

theorem Ty.isSame_trans {s t u : Ty} (first : s.isSame t = true) (second : t.isSame u = true) :
    s.isSame u = true :=
  (isSame_iff_nameless s u).mpr
    (((isSame_iff_nameless s t).mp first).trans ((isSame_iff_nameless t u).mp second))

section Erasure

mutual

/-- It does not matter whether type variables or names are left out first. -/
theorem Ty.nameless_erase : (t : Ty) → t.erase.nameless = t.nameless.erase
  | .any | .void | .noneType | .unbound _ | .error | .typeVar _ => rfl
  | .inst c _ args => congrArg (Ty.inst c "") (namelessEach_erase args)
  | .callable s => congrArg Ty.callable (Signature.nameless_erased s)
  | .overloaded items => congrArg Ty.overloaded (namelessSignatures_erased items)
  | .tuple items => congrArg Ty.tuple (namelessEach_erase items)

theorem Signature.nameless_erased : (s : Signature) → s.erased.nameless = s.nameless.erased
  | ⟨argTypes, _, _, ret, _, _, _, _⟩ => by
    have args := namelessEach_erase argTypes
    have result := Ty.nameless_erase ret
    unfold Ty.erase at result
    simp [Signature.erased, Signature.nameless, Ty.substituteSignature, args, result]

theorem namelessEach_erase : (ts : List Ty) →
    namelessEach (Ty.substituteEach (fun _ => some .any) ts) =
      Ty.substituteEach (fun _ => some .any) (namelessEach ts)
  | [] => rfl
  | t :: ts => by
    have first : (t.substitute fun _ => some .any).nameless = t.nameless.substitute fun _ => some .any :=
      Ty.nameless_erase t
    rw [Ty.substituteEach, namelessEach, namelessEach, Ty.substituteEach, first, namelessEach_erase ts]

theorem namelessSignatures_erased : (ss : List Signature) →
    namelessSignatures (Ty.substituteSignatures (fun _ => some .any) ss) =
      Ty.substituteSignatures (fun _ => some .any) (namelessSignatures ss)
  | [] => rfl
  | s :: ss => by
    have first : (Ty.substituteSignature (fun _ => some .any) s).nameless =
        Ty.substituteSignature (fun _ => some .any) s.nameless := Signature.nameless_erased s
    rw [Ty.substituteSignatures, namelessSignatures, namelessSignatures, Ty.substituteSignatures, first,
      namelessSignatures_erased ss]

end

end Erasure

/-! ### Types without variables, alternatives and keywords -/

/-- The kinds that the given number of formals can have, if none is given by keyword only. -/
structure PositionalFormals (count : Nat) (kinds : List ArgKind) : Prop where
  length_kinds : kinds.length = count
  oneStar : kinds.count .star ≤ 1
  oneStar2 : kinds.count .star2 ≤ 1
  unnamed : .named ∉ kinds

instance (count : Nat) (kinds : List ArgKind) : Decidable (PositionalFormals count kinds) :=
  decidable_of_iff
    (kinds.length = count ∧ kinds.count .star ≤ 1 ∧ kinds.count .star2 ≤ 1 ∧ .named ∉ kinds)
    ⟨fun ⟨a, b, c, d⟩ => ⟨a, b, c, d⟩, fun ⟨a, b, c, d⟩ => ⟨a, b, c, d⟩⟩

mutual

/-- Types that use no type variables, alternatives and arguments by keyword only. Each formal in them
has a kind, and at most one formal takes the remaining arguments of a sort. -/
def Ty.isPositional : Ty → Bool
  | .any | .void | .noneType | .unbound _ | .error => true
  | .inst _ _ args => arePositional args
  | .callable s => s.isPositional
  | .tuple items => arePositional items
  | .overloaded _ | .typeVar _ => false

def Signature.isPositional : Signature → Bool
  | ⟨argTypes, argKinds, _, ret, _, _, _, _⟩ =>
    decide (PositionalFormals argTypes.length argKinds) && arePositional argTypes && ret.isPositional

def arePositional : List Ty → Bool
  | [] => true
  | t :: ts => t.isPositional && arePositional ts

end

theorem arePositional_eq_all (ts : List Ty) : arePositional ts = ts.all Ty.isPositional := by
  induction ts with
  | nil => rfl
  | cons t ts ih => rw [arePositional, ih, List.all_cons]

theorem Signature.isPositional_iff (s : Signature) :
    s.isPositional = true ↔ PositionalFormals s.argTypes.length s.argKinds ∧
      arePositional s.argTypes = true ∧ s.ret.isPositional = true := by
  cases s
  simp [isPositional, and_assoc]

theorem length_namelessEach (ts : List Ty) : (namelessEach ts).length = ts.length := by
  induction ts with
  | nil => rfl
  | cons t ts ih => rw [namelessEach, List.length_cons, List.length_cons, ih]

mutual

theorem Ty.isPositional_nameless : (t : Ty) → t.nameless.isPositional = t.isPositional
  | .any | .void | .noneType | .unbound _ | .error | .typeVar _ | .overloaded _ => rfl
  | .inst _ _ args => arePositional_nameless args
  | .callable s => Signature.isPositional_nameless s
  | .tuple items => arePositional_nameless items

theorem Signature.isPositional_nameless : (s : Signature) → s.nameless.isPositional = s.isPositional
  | ⟨argTypes, _, _, ret, _, _, _, _⟩ => by
    rw [Signature.nameless, Signature.isPositional, Signature.isPositional, length_namelessEach,
      arePositional_nameless argTypes, Ty.isPositional_nameless ret]

theorem arePositional_nameless : (ts : List Ty) → arePositional (namelessEach ts) = arePositional ts
  | [] => rfl
  | t :: ts => by
    rw [namelessEach, arePositional, arePositional, Ty.isPositional_nameless t,
      arePositional_nameless ts]

end

mutual

/-- The nesting does not depend on names. -/
theorem Ty.depth_nameless (height : ClassId → Nat) :
    (t : Ty) → t.isPositional = true → t.nameless.depth height = t.depth height
  | .any, _ | .void, _ | .noneType, _ | .unbound _, _ | .error, _ => rfl
  | .inst _ _ args, positional => by
    rw [Ty.nameless, Ty.depth, Ty.depth, depthEach_nameless height args positional]
  | .callable s, positional => by
    rw [Ty.nameless, Ty.depth, Ty.depth, Signature.depth_nameless height s positional]
  | .tuple items, positional => by
    rw [Ty.nameless, Ty.depth, Ty.depth, depthEach_nameless height items positional]

theorem Signature.depth_nameless (height : ClassId → Nat) :
    (s : Signature) → s.isPositional = true → s.nameless.depth height = s.depth height
  | ⟨argTypes, _, _, ret, _, _, _, _⟩, positional => by
    obtain ⟨-, args, result⟩ := (Signature.isPositional_iff _).mp positional
    rw [Signature.nameless, Signature.depth, Signature.depth, depthEach_nameless height argTypes args,
      Ty.depth_nameless height ret result]

theorem depthEach_nameless (height : ClassId → Nat) :
    (ts : List Ty) → arePositional ts = true → depthEach height (namelessEach ts) = depthEach height ts
  | [], _ => rfl
  | t :: ts, positional => by
    rw [arePositional, Bool.and_eq_true] at positional
    rw [namelessEach, depthEach, depthEach, Ty.depth_nameless height t positional.1,
      depthEach_nameless height ts positional.2]

end

mutual

theorem Ty.isPositional_substitute (f : Substitution) :
    (t : Ty) → t.isPositional = true → (t.substitute f).isPositional = true
  | .any, _ | .void, _ | .noneType, _ | .unbound _, _ | .error, _ => rfl
  | .inst _ _ args, positional => arePositional_substitute f args positional
  | .callable s, positional => Signature.isPositional_substitute f s positional
  | .tuple items, positional => arePositional_substitute f items positional

theorem Signature.isPositional_substitute (f : Substitution) : (s : Signature) →
    s.isPositional = true → (Ty.substituteSignature f s).isPositional = true
  | ⟨argTypes, _, _, ret, _, _, _, _⟩, positional => by
    rw [Signature.isPositional_iff] at positional ⊢
    obtain ⟨formals, args, result⟩ := positional
    refine ⟨?_, arePositional_substitute f argTypes args, Ty.isPositional_substitute f ret result⟩
    simpa only [Ty.substituteSignature, Ty.substituteEach_eq_map, List.length_map] using formals

theorem arePositional_substitute (f : Substitution) :
    (ts : List Ty) → arePositional ts = true → arePositional (Ty.substituteEach f ts) = true
  | [], _ => rfl
  | t :: ts, positional => by
    rw [arePositional, Bool.and_eq_true] at positional
    rw [Ty.substituteEach, arePositional, Ty.isPositional_substitute f t positional.1,
      arePositional_substitute f ts positional.2, Bool.and_true]

end

/-! ### Comparing types that are the same -/

section Same

variable {s t : Ty}

theorem Ty.isPositional_of_isSame (same : s.isSame t = true) : s.isPositional = t.isPositional := by
  rw [← Ty.isPositional_nameless s, (Ty.isSame_iff_nameless s t).mp same, Ty.isPositional_nameless]

theorem Ty.depth_of_isSame {height : ClassId → Nat} (same : s.isSame t = true)
    (positional : t.isPositional = true) : s.depth height = t.depth height := by
  rw [← Ty.depth_nameless height s ((Ty.isPositional_of_isSame same).trans positional),
    (Ty.isSame_iff_nameless s t).mp same, Ty.depth_nameless height t positional]

/-- Types that are the same are the same without their type variables. -/
theorem Ty.isSameSignature_erased {l r : Signature} (same : Ty.isSameSignature l r = true) :
    Ty.isSameSignature l.erased r.erased = true := by
  rw [Ty.isSameSignature_iff_nameless] at same ⊢
  rw [Signature.nameless_erased, Signature.nameless_erased, same]

end Same

namespace Signature

variable {l r : Signature}

/-- The signature with no name for any of its formals. -/
def unnamed (s : Signature) : Signature := { s with argNames := s.argKinds.map fun _ => none }

theorem orderly_unnamed (formals : PositionalFormals r.argTypes.length r.argKinds) :
    r.unnamed.Orderly :=
  ⟨formals.length_kinds, (List.length_map _).trans formals.length_kinds, formals.oneStar,
    formals.oneStar2, formals.unnamed⟩

/-- Names do not decide what takes the arguments of formals that are not given by keyword only. -/
theorem mem_zip_takersFrom_unnamed {kinds : List ArgKind} (positional : .named ∉ kinds)
    {names : List (Option String)} {fixed types : List Ty} {p : Ty × Option Ty}
    (member : p ∈ types.zip (l.takersFrom fixed (kinds.zip names))) :
    p ∈ types.zip (l.takersFrom fixed (kinds.zip (kinds.map fun _ => none))) := by
  induction kinds generalizing names fixed types with
  | nil => exact member
  | cons kind kinds ih =>
    obtain ⟨other, others⟩ := not_or.mp (mt List.mem_cons.mpr positional)
    cases names with
    | nil => simp [takersFrom] at member
    | cons name names =>
      cases types with
      | nil => simp at member
      | cons type types =>
        have first : l.taker? fixed.head? kind name = l.taker? fixed.head? kind none := by
          cases kind with
          | named => exact absurd rfl other
          | pos | opt | star | star2 => rfl
        rw [List.zip_cons_cons, takersFrom, List.zip_cons_cons, List.mem_cons, first] at member
        rw [List.map_cons, List.zip_cons_cons, takersFrom, List.zip_cons_cons, List.mem_cons]
        exact member.imp_right (ih others)

end Signature

namespace TypeOrder

variable {o : TypeOrder} {le : Ty → Ty → Option Bool} {l r : Signature} {bound : Nat}

theorem PlainFits.of_unnamed (positional : .named ∉ r.argKinds) (fits : PlainFits le l r.unnamed) :
    PlainFits le l r :=
  ⟨fits.constructs, fits.ret, fits.counts, fun p member =>
    fits.formals p (Signature.mem_zip_takersFrom_unnamed positional member)⟩

/-- A way to compare types that answers, for types of some nesting, that they fit where they are the
same. -/
def FitsSame (o : TypeOrder) (le : Ty → Ty → Option Bool) (bound : Nat) : Prop :=
  ∀ s t : Ty, t.isPositional = true → t.depth o.height ≤ bound → s.isSame t = true → le s t = some true

/-- Instances of one class are compared by their type arguments. -/
theorem instanceLe_of_same_class (o : TypeOrder) (c : ClassId) (n m : String) (as bs : List Ty) :
    o.instanceLe le ⟨c, n, as⟩ ⟨c, m, bs⟩ = argsLe le as bs := by
  have view : o.classes.view? ⟨c, n, as⟩ c = some ⟨c, n, as⟩ := ClassTable.view?_self _ ⟨c, n, as⟩
  rw [instanceLe, view]

theorem argsLe_of_isSameEach {as bs : List Ty} (same : Ty.isSameEach as bs = true)
    (each : ∀ a, ∀ b ∈ bs, a.isSame b = true → le a b = some true) : argsLe le as bs = some true := by
  obtain ⟨-, pairs⟩ := List.forall₂_iff_zip.mp (Ty.isSameEach_iff.mp same)
  rw [argsLe, allM_eq_some_true_iff]
  exact fun p member => each p.1 p.2 (List.of_mem_zip member).2 (pairs member)

namespace FitsSame

theorem args (fits : o.FitsSame le bound) {as bs : List Ty} (positional : arePositional bs = true)
    (low : depthEach o.height bs ≤ bound) (same : Ty.isSameEach as bs = true) :
    argsLe le as bs = some true := by
  rw [arePositional_eq_all, List.all_eq_true] at positional
  refine argsLe_of_isSameEach same fun a b member => fits a b (positional b member) ?_
  exact Nat.le_trans (Ty.depth_le_depthEach o.height member) low

theorem plainSignature (fits : o.FitsSame le bound) (positional : r.isPositional = true)
    (low : r.depth o.height ≤ bound) (same : Ty.isSameSignature l r = true) :
    plainSignatureLe le l r = some true := by
  obtain ⟨formals, args, result⟩ := r.isPositional_iff.mp positional
  obtain ⟨types, kinds, results, constructs, -⟩ := Ty.isSameSignature_iff.mp same
  rw [arePositional_eq_all, List.all_eq_true] at args
  rw [r.depth_eq] at low
  refine plainSignatureLe_eq_some_true_iff.mpr (.of_unnamed formals.unnamed ?_)
  refine .of_same_kinds (Signature.orderly_unnamed formals) constructs kinds ?_ ?_
  · exact fits l.ret r.ret result (Nat.le_trans (Nat.le_max_right _ _) low) results
  · -- Arguments are compared the other way round.
    obtain ⟨lengths, pairs⟩ := List.forall₂_iff_zip.mp (Ty.isSameEach_iff.mp types)
    refine List.Forall₂.flip (List.forall₂_iff_zip.mpr ⟨lengths, fun {a b} member => ?_⟩)
    have formal := (List.of_mem_zip member).2
    have given : a.isSame b = true := pairs member
    have deep : b.depth o.height ≤ depthEach o.height r.argTypes :=
      Ty.depth_le_depthEach o.height formal
    refine fits b a ((Ty.isPositional_of_isSame given).trans (args b formal)) ?_ (Ty.isSame_symm given)
    rw [Ty.depth_of_isSame given (args b formal)]
    omega

/-- Signatures with type variables of their own are compared without them. -/
theorem signature (fits : o.FitsSame le bound) (positional : r.isPositional = true)
    (low : r.depth o.height ≤ bound) (same : Ty.isSameSignature l r = true) :
    signatureLe le l r = some true := by
  unfold signatureLe
  split
  · exact fits.plainSignature positional low same
  · exact fits.plainSignature (Signature.isPositional_substitute _ r positional)
      (Nat.le_trans (r.depth_erased_le o.height) low) (Ty.isSameSignature_erased same)

end FitsSame

theorem fitsSame_subtypeWithin (steps : Nat) : o.FitsSame (o.subtypeWithin steps) steps := by
  induction steps with
  | zero => exact fun _ t _ low => absurd (t.depth_pos o.height) (by omega)
  | succ steps fits =>
    intro s t positional low same
    rw [subtypeWithin_succ]
    cases t with
    | any | void | noneType | unbound | error =>
      cases s <;> first | rfl | exact absurd same (by simp [Ty.isSame])
    | overloaded | typeVar => cases positional
    | inst d m bs =>
      cases s with
      | inst c n as =>
        rw [Ty.isSame, Bool.and_eq_true, beq_iff_eq] at same
        obtain ⟨rfl, each⟩ := same
        have asked : o.question (.inst c n as) (.inst c m bs) =
            .instances (some ⟨c, n, as⟩) ⟨c, m, bs⟩ := rfl
        have lower : depthEach o.height bs ≤ steps := by
          rw [Ty.depth] at low
          omega
        rw [asked, Question.answer, instanceLe_of_same_class]
        exact fits.args positional lower each
      | _ => simp [Ty.isSame] at same
    | callable r =>
      cases s with
      | callable l =>
        rw [Ty.depth] at low
        rw [Ty.isSame] at same
        exact fits.signature positional (by omega) same
      | _ => simp [Ty.isSame] at same
    | tuple bs =>
      cases s with
      | tuple as =>
        rw [Ty.isSame] at same
        have lengths := (Ty.isSameEach_iff.mp same).length_eq
        have asked : o.question (.tuple as) (.tuple bs) = .args as bs := if_pos lengths
        rw [Ty.depth] at low
        rw [asked]
        exact fits.args positional (by omega) same
      | _ => simp [Ty.isSame] at same

/-! ### Proper subtyping between the two -/

theorem properWithin_of_isSame {steps : Nat} {s t : Ty} (low : t.depth o.height ≤ steps)
    (same : s.isSame t = true) : o.properWithin steps s t = some true := by
  induction steps generalizing s t with
  | zero => exact absurd (t.depth_pos o.height) (by omega)
  | succ steps ih =>
    have each {ts : List Ty} (lower : depthEach o.height ts ≤ steps) (a : Ty) :
        ∀ b ∈ ts, a.isSame b = true → o.properWithin steps a b = some true :=
      fun b member => ih (Nat.le_trans (Ty.depth_le_depthEach o.height member) lower)
    cases t with
    | inst d m bs =>
      cases s with
      | inst c n as =>
        rw [Ty.isSame, Bool.and_eq_true, beq_iff_eq] at same
        obtain ⟨rfl, args⟩ := same
        have lower : depthEach o.height bs ≤ steps := by
          rw [Ty.depth] at low
          omega
        rw [properWithin, instanceLe_of_same_class]
        exact argsLe_of_isSameEach args (each lower)
      | _ => simp [Ty.isSame] at same
    | tuple bs =>
      cases s with
      | tuple as =>
        rw [Ty.depth] at low
        rw [Ty.isSame] at same
        rw [properWithin, if_pos (Ty.isSameEach_iff.mp same).length_eq]
        exact argsLe_of_isSameEach same (each (by omega))
      | _ => simp [Ty.isSame] at same
    | _ => cases s <;> exact congrArg some same

theorem isProperSubtype_of_isSame {s t : Ty} (same : s.isSame t = true) :
    o.isProperSubtype s t = true := by
  have enough : t.depth o.height ≤ o.budget s t := by
    unfold budget
    omega
  rw [isProperSubtype, proper?, properWithin_of_isSame enough same]
  rfl

theorem argsLe_mono {le' : Ty → Ty → Option Bool} {as bs : List Ty}
    (each : ∀ a, ∀ b ∈ bs, le a b = some true → le' a b = some true)
    (h : argsLe le as bs = some true) : argsLe le' as bs = some true := by
  rw [argsLe, allM_eq_some_true_iff] at h ⊢
  exact fun p member => each p.1 p.2 (List.of_mem_zip member).2 (h p member)

theorem instanceLe_mono {le' : Ty → Ty → Option Bool} {i j : Instance}
    (each : ∀ a, ∀ b ∈ j.args, le a b = some true → le' a b = some true)
    (h : o.instanceLe le i j = some true) : o.instanceLe le' i j = some true := by
  unfold instanceLe at h ⊢
  cases seen : o.classes.view? i j.cls with
  | none =>
    rw [seen] at h
    exact h
  | some view =>
    rw [seen] at h
    exact argsLe_mono each h

/-- Instances and tuples are compared by their parts both ways. Other types have to be the same. -/
theorem subtypeWithin_of_properWithin {steps : Nat} {s t : Ty} (positional : t.isPositional = true)
    (low : t.depth o.height ≤ steps) (proper : o.properWithin steps s t = some true) :
    o.subtypeWithin steps s t = some true := by
  induction steps generalizing s t with
  | zero => cases proper
  | succ steps ih =>
    have each {ts : List Ty} (parts : arePositional ts = true) (lower : depthEach o.height ts ≤ steps)
        (a : Ty) :
        ∀ b ∈ ts, o.properWithin steps a b = some true → o.subtypeWithin steps a b = some true := by
      rw [arePositional_eq_all, List.all_eq_true] at parts
      exact fun b member =>
        ih (parts b member) (Nat.le_trans (Ty.depth_le_depthEach o.height member) lower)
    have whole (same : s.isSame t = true) : o.subtypeWithin (steps + 1) s t = some true :=
      fitsSame_subtypeWithin _ s t positional low same
    cases t with
    | inst d m bs =>
      have lower : depthEach o.height bs ≤ steps := by
        rw [Ty.depth] at low
        omega
      cases s with
      | inst c n as => exact instanceLe_mono (each positional lower) proper
      | tuple items =>
        rw [properWithin] at proper
        have asked : o.question (.tuple items) (.inst d m bs) =
            .instances (o.fallback? (.tuple items)) ⟨d, m, bs⟩ := rfl
        rw [subtypeWithin_succ, asked]
        cases fallen : o.fallback? (.tuple items) with
        | none =>
          rw [fallen] at proper
          cases proper
        | some i =>
          rw [fallen] at proper
          exact instanceLe_mono (each positional lower) proper
      | _ => exact whole (Option.some.inj proper)
    | tuple bs =>
      cases s with
      | tuple as =>
        rw [Ty.depth] at low
        have asked : o.properWithin (steps + 1) (.tuple as) (.tuple bs) =
          if as.length = bs.length then argsLe (o.properWithin steps) as bs else some false := rfl
        rw [asked] at proper
        obtain ⟨lengths, args⟩ :
            as.length = bs.length ∧ argsLe (o.properWithin steps) as bs = some true := by
          split at proper
          · exact ⟨‹_›, proper⟩
          · cases proper
        have pairs : o.question (.tuple as) (.tuple bs) = .args as bs := if_pos lengths
        rw [subtypeWithin_succ, pairs]
        exact argsLe_mono (each positional (by omega)) args
      | _ => exact whole (Option.some.inj proper)
    | _ => cases s <;> exact whole (Option.some.inj proper)

theorem isSubtype_of_isProperSubtype {s t : Ty} (positional : t.isPositional = true)
    (proper : o.isProperSubtype s t = true) : o.isSubtype s t = true := by
  have enough : t.depth o.height ≤ o.budget s t := by
    unfold budget
    omega
  unfold isProperSubtype proper? at proper
  have answer : o.properWithin (o.budget s t) s t = some true := by
    cases found : o.properWithin (o.budget s t) s t with
    | none => simp [found] at proper
    | some b => exact congrArg some (by simpa [found] using proper)
  rw [isSubtype, subtype?, subtypeWithin_of_properWithin positional enough answer]
  rfl

end TypeOrder

/-- Identity of types is reflexive, symmetric and transitive, and types that are the same are proper
subtypes of each other. What is a proper subtype of a type without type variables, alternatives and
keywords is a subtype of it. -/
theorem identity_below_subtyping (o : TypeOrder) :
    (∀ t : Ty, t.isSame t = true) ∧
    (∀ s t : Ty, s.isSame t = true → t.isSame s = true) ∧
    (∀ s t u : Ty, s.isSame t = true → t.isSame u = true → s.isSame u = true) ∧
    (∀ s t : Ty, s.isSame t = true →
      o.isProperSubtype s t = true ∧ o.isProperSubtype t s = true) ∧
    ∀ s t : Ty, t.isPositional = true → o.isProperSubtype s t = true → o.isSubtype s t = true :=
  ⟨Ty.isSame_refl, fun _ _ => Ty.isSame_symm, fun _ _ _ => Ty.isSame_trans,
    fun _ _ same => ⟨TypeOrder.isProperSubtype_of_isSame same,
      TypeOrder.isProperSubtype_of_isSame (Ty.isSame_symm same)⟩,
    fun _ _ => TypeOrder.isSubtype_of_isProperSubtype⟩

/-- What a tuple is a box of, with a name for the argument. -/
def Ty.boxedFunction (arg : String) : Ty :=
  .callable (.ofFormals [.inst 1 "Box" [.inst 3 "builtins.function" []]] [.pos] [some arg] .any)

/-- A tuple is properly a box of functions, whatever their arguments are called. -/
theorem boxed_functions_same :
    (Ty.boxedFunction "x").isSame (.boxedFunction "y") = true ∧
    (TypeOrder.ofClasses .boxes).isProperSubtype (.boxedFunction "x") (.boxedFunction "y") = true ∧
    (TypeOrder.ofClasses .boxes).isProperSubtype (.boxedFunction "y") (.boxedFunction "x") = true ∧
    (TypeOrder.ofClasses .boxes).isProperSubtype (.tuple []) (.inst 1 "Box" [.boxedFunction "x"]) = true ∧
    (TypeOrder.ofClasses .boxes).isSubtype (.tuple []) (.inst 1 "Box" [.boxedFunction "x"]) = true := by
  obtain ⟨-, -, -, proper, below⟩ := identity_below_subtyping (.ofClasses .boxes)
  have same : (Ty.boxedFunction "x").isSame (.boxedFunction "y") = true :=
    (Ty.isSame_iff_nameless _ _).mpr rfl
  have positional : (Ty.inst 1 "Box" [.boxedFunction "x"]).isPositional = true := by decide
  have properly : (TypeOrder.ofClasses .boxes).isProperSubtype (.tuple [])
      (.inst 1 "Box" [.boxedFunction "x"]) = true := by decide +kernel
  exact ⟨same, (proper _ _ same).1, (proper _ _ same).2, properly, below _ _ positional properly⟩

end Gradual
