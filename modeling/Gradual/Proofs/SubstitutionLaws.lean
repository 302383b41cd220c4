import Gradual.Proofs.FreeVariables
import Gradual.Proofs.Substitution

/-!
Laws of substitution. What is put in depends only on the type variables that occur in a type, standing
in it or quantified by a signature in it, and to put types in twice is to put them in once: this holds
without conditions, as substitution does not look at what a signature quantifies around a type variable.
-/

namespace Gradual

mutual

/-- The type variables that the signatures in a type quantify. -/
def Ty.quantifiedVars : Ty → List TypeVar
  | .inst _ _ args => quantifiedVarsOfEach args
  | .tuple items => quantifiedVarsOfEach items
  | .callable s => s.quantifiedVars
  | .overloaded items => quantifiedVarsOfSignatures items
  | .any | .void | .noneType | .typeVar _ | .unbound _ | .error => []

def Signature.quantifiedVars : Signature → List TypeVar
  | ⟨argTypes, _, _, ret, quantified, _, _, _⟩ =>
    quantified ++ (quantifiedVarsOfEach argTypes ++ ret.quantifiedVars)

def quantifiedVarsOfEach : List Ty → List TypeVar
  | [] => []
  | t :: ts => t.quantifiedVars ++ quantifiedVarsOfEach ts

def quantifiedVarsOfSignatures : List Signature → List TypeVar
  | [] => []
  | s :: ss => s.quantifiedVars ++ quantifiedVarsOfSignatures ss

end

theorem mem_quantifiedVarsOfEach {v : TypeVar} {ts : List Ty} :
    v ∈ quantifiedVarsOfEach ts ↔ ∃ t ∈ ts, v ∈ t.quantifiedVars := by
  induction ts with
  | nil => simp [quantifiedVarsOfEach]
  | cons t ts ih => simp [quantifiedVarsOfEach, ih]

theorem mem_typeVarsOfEach {v : TypeVar} {ts : List Ty} :
    v ∈ typeVarsOfEach ts ↔ ∃ t ∈ ts, v ∈ t.typeVars := by
  induction ts with
  | nil => simp [typeVarsOfEach]
  | cons t ts ih => simp [typeVarsOfEach, ih]

/-! ### Agreeing substitutions -/

section Agreeing

variable {f g : Substitution}

mutual

/-- Substitutions that agree on the type variables of a type make the same of it. -/
theorem Ty.substitute_congr : (t : Ty) → (∀ v ∈ t.typeVars, f v = g v) →
    (∀ v ∈ t.quantifiedVars, (f v).isNone = (g v).isNone) → t.substitute f = t.substitute g
  | .any, _, _ | .void, _, _ | .noneType, _, _ | .unbound _, _, _ | .error, _, _ => rfl
  | .typeVar v, standing, _ => by
    rw [Ty.substitute, Ty.substitute, standing v (List.mem_singleton.mpr rfl)]
  | .inst c n args, standing, quantified =>
    congrArg (Ty.inst c n) (Ty.substituteEach_congr args standing quantified)
  | .tuple items, standing, quantified =>
    congrArg Ty.tuple (Ty.substituteEach_congr items standing quantified)
  | .callable s, standing, quantified =>
    congrArg Ty.callable (Ty.substituteSignature_congr s standing quantified)
  | .overloaded items, standing, quantified =>
    congrArg Ty.overloaded (Ty.substituteSignatures_congr items standing quantified)

theorem Ty.substituteEach_congr : (ts : List Ty) → (∀ v ∈ typeVarsOfEach ts, f v = g v) →
    (∀ v ∈ quantifiedVarsOfEach ts, (f v).isNone = (g v).isNone) →
    Ty.substituteEach f ts = Ty.substituteEach g ts
  | [], _, _ => rfl
  | t :: ts, standing, quantified => by
    obtain ⟨standing, standing'⟩ := List.forall_mem_append.mp standing
    obtain ⟨quantified, quantified'⟩ := List.forall_mem_append.mp quantified
    rw [Ty.substituteEach, Ty.substituteEach, Ty.substitute_congr t standing quantified,
      Ty.substituteEach_congr ts standing' quantified']

theorem Ty.substituteSignature_congr : (s : Signature) → (∀ v ∈ s.typeVars, f v = g v) →
    (∀ v ∈ s.quantifiedVars, (f v).isNone = (g v).isNone) →
    Ty.substituteSignature f s = Ty.substituteSignature g s
  | ⟨argTypes, _, _, ret, own, _, _, _⟩, standing, quantified => by
    obtain ⟨standing, standing'⟩ := List.forall_mem_append.mp standing
    obtain ⟨dropped, quantified⟩ := List.forall_mem_append.mp quantified
    obtain ⟨quantified, quantified'⟩ := List.forall_mem_append.mp quantified
    have kept : own.filter (fun v => (f v).isNone) = own.filter fun v => (g v).isNone :=
      List.filter_congr dropped
    rw [Ty.substituteSignature, Ty.substituteSignature, kept,
      Ty.substituteEach_congr argTypes standing quantified,
      Ty.substitute_congr ret standing' quantified']

theorem Ty.substituteSignatures_congr : (ss : List Signature) →
    (∀ v ∈ typeVarsOfSignatures ss, f v = g v) →
    (∀ v ∈ quantifiedVarsOfSignatures ss, (f v).isNone = (g v).isNone) →
    Ty.substituteSignatures f ss = Ty.substituteSignatures g ss
  | [], _, _ => rfl
  | s :: ss, standing, quantified => by
    obtain ⟨standing, standing'⟩ := List.forall_mem_append.mp standing
    obtain ⟨quantified, quantified'⟩ := List.forall_mem_append.mp quantified
    rw [Ty.substituteSignatures, Ty.substituteSignatures,
      Ty.substituteSignature_congr s standing quantified,
      Ty.substituteSignatures_congr ss standing' quantified']

end

mutual

/-- Where nothing is put in, a type stays as it is. -/
theorem Ty.substitute_none : (t : Ty) → (t.substitute fun _ => none) = t
  | .any | .void | .noneType | .unbound _ | .error | .typeVar _ => rfl
  | .inst c n args => congrArg (Ty.inst c n) (Ty.substituteEach_none args)
  | .tuple items => congrArg Ty.tuple (Ty.substituteEach_none items)
  | .callable s => congrArg Ty.callable (Ty.substituteSignature_none s)
  | .overloaded items => congrArg Ty.overloaded (Ty.substituteSignatures_none items)

theorem Ty.substituteEach_none : (ts : List Ty) → Ty.substituteEach (fun _ => none) ts = ts
  | [] => rfl
  | t :: ts => by rw [Ty.substituteEach, Ty.substitute_none t, Ty.substituteEach_none ts]

theorem Ty.substituteSignature_none :
    (s : Signature) → Ty.substituteSignature (fun _ => none) s = s
  | ⟨argTypes, _, _, ret, own, _, _, _⟩ => by
    have kept : own.filter (fun _ => (none : Option Ty).isNone) = own := List.filter_true own
    rw [Ty.substituteSignature, kept, Ty.substituteEach_none argTypes, Ty.substitute_none ret]

theorem Ty.substituteSignatures_none :
    (ss : List Signature) → Ty.substituteSignatures (fun _ => none) ss = ss
  | [] => rfl
  | s :: ss => by
    rw [Ty.substituteSignatures, Ty.substituteSignature_none s, Ty.substituteSignatures_none ss]

end

end Agreeing

/-! ### One substitution after another -/

/-- Puts in what `f` says and then, in that and for what is left, what `g` says. -/
def Substitution.andThen (f g : Substitution) : Substitution := fun v =>
  match f v with
  | some u => some (u.substitute g)
  | none => g v

namespace Ty

variable (f g : Substitution)

theorem isNone_andThen (v : TypeVar) :
    (f.andThen g v).isNone = ((f v).isNone && (g v).isNone) := by
  rw [Substitution.andThen]
  cases f v <;> simp

mutual

/-- To put types in twice is to put them in once. -/
theorem substitute_substitute : (t : Ty) → (t.substitute f).substitute g = t.substitute (f.andThen g)
  | .any | .void | .noneType | .unbound _ | .error => rfl
  | .typeVar v => by
    rw [substitute, substitute, Substitution.andThen]
    cases f v <;> rfl
  | .inst c n args => congrArg (Ty.inst c n) (substituteEach_substituteEach args)
  | .tuple items => congrArg Ty.tuple (substituteEach_substituteEach items)
  | .callable s => congrArg Ty.callable (substituteSignature_substituteSignature s)
  | .overloaded items => congrArg Ty.overloaded (substituteSignatures_substituteSignatures items)

theorem substituteEach_substituteEach : (ts : List Ty) →
    substituteEach g (substituteEach f ts) = substituteEach (f.andThen g) ts
  | [] => rfl
  | t :: ts => by
    rw [substituteEach, substituteEach, substituteEach, substitute_substitute t,
      substituteEach_substituteEach ts]

theorem substituteSignature_substituteSignature : (s : Signature) →
    substituteSignature g (substituteSignature f s) = substituteSignature (f.andThen g) s
  | ⟨argTypes, _, _, ret, own, _, _, _⟩ => by
    have kept : (own.filter fun v => (f v).isNone).filter (fun v => (g v).isNone) =
        own.filter fun v => (f.andThen g v).isNone := by
      rw [List.filter_filter]
      refine List.filter_congr fun v _ => ?_
      rw [isNone_andThen, Bool.and_comm]
    rw [substituteSignature, substituteSignature, substituteSignature, kept,
      substituteEach_substituteEach argTypes, substitute_substitute ret]

theorem substituteSignatures_substituteSignatures : (ss : List Signature) →
    substituteSignatures g (substituteSignatures f ss) = substituteSignatures (f.andThen g) ss
  | [] => rfl
  | s :: ss => by
    rw [substituteSignatures, substituteSignatures, substituteSignatures,
      substituteSignature_substituteSignature s, substituteSignatures_substituteSignatures ss]

end

end Ty

/-! ### Type arguments -/

namespace TypeArgs

variable {s : TypeArgs} {x : Int} {u : Ty}

theorem lookup?_eq_none_iff : s.lookup? x = none ↔ ∀ p ∈ s, p.1 ≠ x := by
  simp [lookup?]

theorem mem_of_lookup? (h : s.lookup? x = some u) : (x, u) ∈ s := by
  obtain ⟨p, found, rfl⟩ := Option.map_eq_some_iff.mp h
  have same := List.find?_some found
  rw [beq_iff_eq] at same
  exact same ▸ List.mem_reverse.mp (List.mem_of_find?_eq_some found)

end TypeArgs

namespace Ty

/-- An instance without type arguments puts nothing in. -/
theorem expandBy_eq_substitute (t : Ty) (args : List Ty) :
    t.expandBy args = t.substitute (.ofIds (argument? args)) := by
  by_cases given : args = []
  · subst given
    have nothing : Substitution.ofIds (argument? []) = fun _ => none := by
      funext v
      simp [Substitution.ofIds, argument?]
    rw [nothing, substitute_none]
    rfl
  · exact t.expandBy_eq given

theorem expand_eq_substitute (t : Ty) (s : TypeArgs) :
    t.expand s = t.substitute (.ofIds s.lookup?) := by
  cases s with
  | nil => exact t.substitute_none.symm
  | cons => rfl

end Ty
end Gradual
