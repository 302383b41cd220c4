import Gradual.Ty.Subst

/-!
Types as declarations make them: every signature in them has a kind and perhaps a name for each of
its formals, and every overloaded type has an alternative.
-/

namespace Gradual

/-- The kinds and names that the given number of formals can have. -/
structure WellFormedFormals (count : Nat) (kinds : List ArgKind) (names : List (Option String)) :
    Prop where
  length_kinds : kinds.length = count
  length_names : names.length = count
  oneStar : kinds.count .star ≤ 1
  oneStar2 : kinds.count .star2 ≤ 1
  named : ∀ p ∈ kinds.zip names, p.1 = .named → p.2.isSome = true
  distinct : ∀ name ∈ names, name.isSome = true → names.count name ≤ 1

instance (count : Nat) (kinds : List ArgKind) (names : List (Option String)) :
    Decidable (WellFormedFormals count kinds names) :=
  decidable_of_iff
    (kinds.length = count ∧ names.length = count ∧ kinds.count .star ≤ 1 ∧ kinds.count .star2 ≤ 1 ∧
      (∀ p ∈ kinds.zip names, p.1 = .named → p.2.isSome = true) ∧
      ∀ name ∈ names, name.isSome = true → names.count name ≤ 1)
    ⟨fun ⟨a, b, c, d, e, f⟩ => ⟨a, b, c, d, e, f⟩, fun ⟨a, b, c, d, e, f⟩ => ⟨a, b, c, d, e, f⟩⟩

mutual

/-- Is every signature in the type well formed? -/
def Ty.isWellFormed : Ty → Bool
  | .any | .void | .noneType | .typeVar _ | .unbound _ | .error => true
  | .inst _ _ args => areWellFormed args
  | .callable sig => sig.isWellFormed
  | .overloaded items => !items.isEmpty && areWellFormedSignatures items
  | .tuple items => areWellFormed items

def Signature.isWellFormed : Signature → Bool
  | ⟨argTypes, argKinds, argNames, ret, _, _, _, _⟩ =>
    decide (WellFormedFormals argTypes.length argKinds argNames) && areWellFormed argTypes
      && ret.isWellFormed

def areWellFormed : List Ty → Bool
  | [] => true
  | t :: ts => t.isWellFormed && areWellFormed ts

def areWellFormedSignatures : List Signature → Bool
  | [] => true
  | s :: ss => s.isWellFormed && areWellFormedSignatures ss

end

theorem areWellFormed_eq_all (ts : List Ty) : areWellFormed ts = ts.all Ty.isWellFormed := by
  induction ts with
  | nil => rfl
  | cons t ts ih => rw [areWellFormed, ih, List.all_cons]

theorem Signature.isWellFormed_iff (s : Signature) :
    s.isWellFormed = true ↔ WellFormedFormals s.argTypes.length s.argKinds s.argNames ∧
      areWellFormed s.argTypes = true ∧ s.ret.isWellFormed = true := by
  cases s
  simp [isWellFormed, and_assoc]

section Substitution

variable {f : Substitution}

mutual

/-- Types that are well formed can take the places of type variables. -/
theorem Ty.isWellFormed_substitute (h : ∀ v u, f v = some u → u.isWellFormed = true) :
    (t : Ty) → t.isWellFormed = true → (t.substitute f).isWellFormed = true
  | .any, _ | .void, _ | .noneType, _ | .unbound _, _ | .error, _ => rfl
  | .inst _ _ args, wf => areWellFormed_substituteEach h args wf
  | .callable s, wf => Signature.isWellFormed_substitute h s wf
  | .overloaded items, wf => by
    rw [Ty.isWellFormed, Bool.and_eq_true] at wf
    rw [Ty.substitute, Ty.isWellFormed, areWellFormed_substituteSignatures h items wf.2, Bool.and_true]
    cases items with
    | nil => exact wf.1
    | cons => rfl
  | .tuple items, wf => areWellFormed_substituteEach h items wf
  | .typeVar v, _ => by
    rw [Ty.substitute]
    cases replaced : f v with
    | none => rfl
    | some u => exact h v u replaced

theorem areWellFormed_substituteEach (h : ∀ v u, f v = some u → u.isWellFormed = true) :
    (ts : List Ty) → areWellFormed ts = true → areWellFormed (Ty.substituteEach f ts) = true
  | [], _ => rfl
  | t :: ts, wf => by
    rw [areWellFormed, Bool.and_eq_true] at wf
    rw [Ty.substituteEach, areWellFormed, Ty.isWellFormed_substitute h t wf.1,
      areWellFormed_substituteEach h ts wf.2, Bool.and_true]

theorem Signature.isWellFormed_substitute (h : ∀ v u, f v = some u → u.isWellFormed = true) :
    (s : Signature) → s.isWellFormed = true → (Ty.substituteSignature f s).isWellFormed = true
  | ⟨argTypes, _, _, ret, _, _, _, _⟩, wf => by
    rw [Signature.isWellFormed_iff] at wf ⊢
    obtain ⟨formals, types, result⟩ := wf
    refine ⟨?_, areWellFormed_substituteEach h argTypes types, Ty.isWellFormed_substitute h ret result⟩
    simpa only [Ty.substituteSignature, Ty.substituteEach_eq_map, List.length_map] using formals

theorem areWellFormed_substituteSignatures (h : ∀ v u, f v = some u → u.isWellFormed = true) :
    (ss : List Signature) → areWellFormedSignatures ss = true →
      areWellFormedSignatures (Ty.substituteSignatures f ss) = true
  | [], _ => rfl
  | s :: ss, wf => by
    rw [areWellFormedSignatures, Bool.and_eq_true] at wf
    rw [Ty.substituteSignatures, areWellFormedSignatures, Signature.isWellFormed_substitute h s wf.1,
      areWellFormed_substituteSignatures h ss wf.2, Bool.and_true]

end

end Substitution

end Gradual
