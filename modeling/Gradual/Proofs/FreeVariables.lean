import Gradual.Ty.Subst

/-!
Free type variables. To put types in for type variables leaves free what nothing is put in for, and
brings in at most what is free in those types. So the type arguments of an instance make a type of the
class closed where they are closed and there are enough of them.
-/

namespace Gradual

mutual

/-- The ids of the type variables that stand in a type, outside the bounds and the values of others,
where no signature around them quantifies them. -/
def Ty.freeVars : Ty → List Int
  | .typeVar v => [v.id]
  | .inst _ _ args => freeVarsOfEach args
  | .tuple items => freeVarsOfEach items
  | .callable s => s.freeVars
  | .overloaded items => freeVarsOfSignatures items
  | .any | .void | .noneType | .unbound _ | .error => []

def Signature.freeVars : Signature → List Int
  | ⟨argTypes, _, _, ret, quantified, _, _, _⟩ =>
    (freeVarsOfEach argTypes ++ ret.freeVars).filter fun id => quantified.all (·.id != id)

def freeVarsOfEach : List Ty → List Int
  | [] => []
  | t :: ts => t.freeVars ++ freeVarsOfEach ts

def freeVarsOfSignatures : List Signature → List Int
  | [] => []
  | s :: ss => s.freeVars ++ freeVarsOfSignatures ss

end

variable {x : Int}

theorem mem_freeVarsOfEach {ts : List Ty} : x ∈ freeVarsOfEach ts ↔ ∃ t ∈ ts, x ∈ t.freeVars := by
  induction ts with
  | nil => simp [freeVarsOfEach]
  | cons t ts ih => simp [freeVarsOfEach, ih]

theorem mem_freeVarsOfSignatures {ss : List Signature} :
    x ∈ freeVarsOfSignatures ss ↔ ∃ s ∈ ss, x ∈ s.freeVars := by
  induction ss with
  | nil => simp [freeVarsOfSignatures]
  | cons s ss ih => simp [freeVarsOfSignatures, ih]

theorem Signature.mem_freeVars {s : Signature} :
    x ∈ s.freeVars ↔ ((∃ t ∈ s.argTypes, x ∈ t.freeVars) ∨ x ∈ s.ret.freeVars) ∧
      ∀ v ∈ s.quantified, v.id ≠ x := by
  cases s
  simp [Signature.freeVars, mem_freeVarsOfEach, or_and_right]

/-! ### Substitution -/

section Substitution

/-- Type variables of one id are replaced alike. -/
def Substitution.ofIds (g : Int → Option Ty) : Substitution := fun v => g v.id

variable {g : Int → Option Ty}

mutual

/-- A free type variable for which nothing is put in stays. -/
theorem Ty.mem_freeVars_substitute_of_none (kept : g x = none) :
    (t : Ty) → x ∈ t.freeVars → x ∈ (t.substitute (.ofIds g)).freeVars
  | .typeVar v, free => by
    rw [Ty.freeVars, List.mem_singleton] at free
    have same : Substitution.ofIds g v = none := by rw [Substitution.ofIds, ← free, kept]
    rw [Ty.substitute, same, free]
    exact List.mem_singleton.mpr rfl
  | .inst _ _ args, free => mem_freeVars_substituteEach_of_none kept args free
  | .tuple items, free => mem_freeVars_substituteEach_of_none kept items free
  | .callable s, free => Signature.mem_freeVars_substitute_of_none kept s free
  | .overloaded items, free => mem_freeVars_substituteSignatures_of_none kept items free

theorem mem_freeVars_substituteEach_of_none (kept : g x = none) : (ts : List Ty) →
    x ∈ freeVarsOfEach ts → x ∈ freeVarsOfEach (Ty.substituteEach (.ofIds g) ts)
  | t :: ts, free => by
    rw [freeVarsOfEach, List.mem_append] at free
    rw [Ty.substituteEach, freeVarsOfEach, List.mem_append]
    exact free.imp (Ty.mem_freeVars_substitute_of_none kept t)
      (mem_freeVars_substituteEach_of_none kept ts)

theorem Signature.mem_freeVars_substitute_of_none (kept : g x = none) : (s : Signature) →
    x ∈ s.freeVars → x ∈ (Ty.substituteSignature (.ofIds g) s).freeVars
  | ⟨argTypes, _, _, ret, _, _, _, _⟩, free => by
    simp only [Signature.freeVars, Ty.substituteSignature, List.mem_filter, List.mem_append,
      List.all_eq_true] at free ⊢
    refine ⟨free.1.imp (mem_freeVars_substituteEach_of_none kept argTypes)
      (Ty.mem_freeVars_substitute_of_none kept ret), fun v member => ?_⟩
    exact free.2 v member.1

theorem mem_freeVars_substituteSignatures_of_none (kept : g x = none) : (ss : List Signature) →
    x ∈ freeVarsOfSignatures ss → x ∈ freeVarsOfSignatures (Ty.substituteSignatures (.ofIds g) ss)
  | s :: ss, free => by
    rw [freeVarsOfSignatures, List.mem_append] at free
    rw [Ty.substituteSignatures, freeVarsOfSignatures, List.mem_append]
    exact free.imp (Signature.mem_freeVars_substitute_of_none kept s)
      (mem_freeVars_substituteSignatures_of_none kept ss)

end

/-- Free after types are put in is what was free before and stays, or what is free in one of them. -/
def FreeAfter (g : Int → Option Ty) (before : List Int) (x : Int) : Prop :=
  x ∈ before ∧ g x = none ∨ ∃ y u, g y = some u ∧ x ∈ u.freeVars

theorem FreeAfter.mono {before before' : List Int} (h : FreeAfter g before x)
    (more : x ∈ before → x ∈ before') : FreeAfter g before' x := h.imp_left (And.imp_left more)

mutual

theorem Ty.freeAfter_substitute : (t : Ty) → x ∈ (t.substitute (.ofIds g)).freeVars →
    FreeAfter g t.freeVars x
  | .typeVar v, free => by
    rw [Ty.substitute] at free
    cases replaced : g v.id with
    | none =>
      have same : Substitution.ofIds g v = none := replaced
      rw [same] at free
      have id : x = v.id := List.mem_singleton.mp free
      exact .inl ⟨free, id ▸ replaced⟩
    | some u =>
      have same : Substitution.ofIds g v = some u := replaced
      rw [same] at free
      exact .inr ⟨v.id, u, replaced, free⟩
  | .inst _ _ args, free => freeAfter_substituteEach args free
  | .tuple items, free => freeAfter_substituteEach items free
  | .callable s, free => Signature.freeAfter_substitute s free
  | .overloaded items, free => freeAfter_substituteSignatures items free

theorem freeAfter_substituteEach : (ts : List Ty) →
    x ∈ freeVarsOfEach (Ty.substituteEach (.ofIds g) ts) → FreeAfter g (freeVarsOfEach ts) x
  | t :: ts, free => by
    rw [Ty.substituteEach, freeVarsOfEach, List.mem_append] at free
    rcases free with first | later
    · exact (Ty.freeAfter_substitute t first).mono (List.mem_append_left _)
    · exact (freeAfter_substituteEach ts later).mono (List.mem_append_right _)

theorem Signature.freeAfter_substitute : (s : Signature) →
    x ∈ (Ty.substituteSignature (.ofIds g) s).freeVars → FreeAfter g s.freeVars x
  | ⟨argTypes, _, _, ret, quantified, _, _, _⟩, free => by
    simp only [Signature.freeVars, Ty.substituteSignature, List.mem_filter, List.mem_append,
      List.all_eq_true, and_imp] at free
    -- What was quantified and stays is not free, as it is still quantified.
    have outside (kept : g x = none) : quantified.all (·.id != x) = true := by
      rw [List.all_eq_true]
      intro v member
      by_cases id : v.id = x
      · exact free.2 v member (by simp [Substitution.ofIds, id, kept])
      · simpa using id
    rcases free.1 with inside | inside
    · rcases freeAfter_substituteEach argTypes inside with ⟨before, kept⟩ | brought
      · exact .inl ⟨List.mem_filter.mpr ⟨List.mem_append_left _ before, outside kept⟩, kept⟩
      · exact .inr brought
    · rcases Ty.freeAfter_substitute ret inside with ⟨before, kept⟩ | brought
      · exact .inl ⟨List.mem_filter.mpr ⟨List.mem_append_right _ before, outside kept⟩, kept⟩
      · exact .inr brought

theorem freeAfter_substituteSignatures : (ss : List Signature) →
    x ∈ freeVarsOfSignatures (Ty.substituteSignatures (.ofIds g) ss) →
      FreeAfter g (freeVarsOfSignatures ss) x
  | s :: ss, free => by
    rw [Ty.substituteSignatures, freeVarsOfSignatures, List.mem_append] at free
    rcases free with first | later
    · exact (Signature.freeAfter_substitute s first).mono (List.mem_append_left _)
    · exact (freeAfter_substituteSignatures ss later).mono (List.mem_append_right _)

end

end Substitution

/-! ### Type arguments -/

/-- The type argument for the type variable of an id. -/
def argument? (args : List Ty) (id : Int) : Option Ty :=
  if 1 ≤ id then args[(id - 1).toNat]? else none

theorem Ty.expandBy_eq (t : Ty) {args : List Ty} (given : args ≠ []) :
    t.expandBy args = t.substitute (.ofIds (argument? args)) := by
  cases args with
  | nil => exact absurd rfl given
  | cons a as => rfl

theorem argument?_eq_none_iff {args : List Ty} (one : 1 ≤ x) :
    argument? args x = none ↔ (args.length : Int) < x := by
  rw [argument?, if_pos one, List.getElem?_eq_none_iff]
  omega

theorem mem_of_argument? {args : List Ty} {u : Ty} (h : argument? args x = some u) : u ∈ args :=
  List.mem_of_getElem? (Option.ite_none_right_eq_some.mp h).2

/-- Of the type variables of a class, at most the first `n` are free in the type. -/
def Ty.OnlyFirst (n : Nat) (t : Ty) : Prop := ∀ x ∈ t.freeVars, 1 ≤ x → x ≤ n

/-- A type variable of the class stays free exactly if there is no type argument for it. -/
theorem Ty.mem_freeVars_expandBy_iff {t : Ty} {args : List Ty}
    (closed : ∀ a ∈ args, a.OnlyFirst 0) (one : 1 ≤ x) :
    x ∈ (t.expandBy args).freeVars ↔ x ∈ t.freeVars ∧ (args.length : Int) < x := by
  by_cases given : args = []
  · subst given
    have missing : (([] : List Ty).length : Int) < x := one
    exact ⟨fun free => ⟨free, missing⟩, And.left⟩
  · rw [t.expandBy_eq given, ← argument?_eq_none_iff one]
    constructor
    · intro free
      rcases t.freeAfter_substitute free with kept | ⟨y, u, put, inside⟩
      · exact kept
      · have low := closed u (mem_of_argument? put) x inside one
        omega
    · rintro ⟨free, kept⟩
      exact Ty.mem_freeVars_substitute_of_none kept t free

/-- With a type argument for each type variable only those of the type arguments are left. -/
theorem Ty.OnlyFirst.expandBy {t : Ty} {args : List Ty} {n : Nat} (own : t.OnlyFirst args.length)
    (each : ∀ a ∈ args, a.OnlyFirst n) : (t.expandBy args).OnlyFirst n := by
  by_cases given : args = []
  · subst given
    intro x free one
    have low : x ≤ (0 : Nat) := own x free one
    omega
  · rw [t.expandBy_eq given]
    intro x free one
    rcases t.freeAfter_substitute free with ⟨before, kept⟩ | ⟨y, u, put, inside⟩
    · have low := own x before one
      rw [argument?_eq_none_iff one] at kept
      omega
    · exact each u (mem_of_argument? put) x inside one

end Gradual
