import Gradual.Proofs.Alike
import Gradual.Proofs.Cores
import Gradual.Proofs.OverloadSelection

/-!
Types that are the same but for names. Whether types are the same is told without the names of arguments; where
those of them agree that count, the types are the same in all that counts.
-/

namespace Gradual

mutual

/-- Do the names of arguments agree that count on a side? Forms of types are not compared. -/
def Ty.namesAgree (side : Side) : Ty → Ty → Bool
  | .inst _ _ as, .inst _ _ bs | .tuple as, .tuple bs => namesAgreeEach side as bs
  | .callable s, .callable t => s.namesAgree side t
  | .overloaded ss, .overloaded ts => namesAgreeSignatures side ss ts
  | _, _ => true
termination_by structural t => t

def Signature.namesAgree (side : Side) : Signature → Signature → Bool
  | ⟨argTypes, argKinds, argNames, ret, _, _, _, _⟩, t =>
    side.names argKinds argNames == side.names t.argKinds t.argNames
      && namesAgreeEach .given argTypes t.argTypes && ret.namesAgree side t.ret
termination_by structural s => s

def namesAgreeEach (side : Side) : List Ty → List Ty → Bool
  | a :: as, b :: bs => a.namesAgree side b && namesAgreeEach side as bs
  | _, _ => true
termination_by structural as => as

def namesAgreeSignatures (side : Side) : List Signature → List Signature → Bool
  | s :: ss, t :: ts => s.namesAgree side t && namesAgreeSignatures side ss ts
  | _, _ => true
termination_by structural ss => ss

end

mutual

/-- Types without type variables that are the same are so in all that counts if their names agree. -/
theorem Ty.core_eq_of_isSame {side : Side} : (a b : Ty) → a.typeVars = [] → a.quantifiedVars = [] →
    a.isSame b = true → a.namesAgree side b = true → a.core side = b.core side
  | .any, b, _, _, same, _ | .void, b, _, _, same, _ | .noneType, b, _, _, same, _
  | .error, b, _, _, same, _ => by
    cases b <;> first | rfl | exact absurd same (by simp [Ty.isSame])
  | .unbound m, b, _, _, same, _ => by
    cases b with
    | unbound n => rw [beq_iff_eq.mp (show (m == n) = true by simpa [Ty.isSame] using same)]
    | _ => simp [Ty.isSame] at same
  | .typeVar v, _, standing, _, _, _ => nomatch standing
  | .inst c m as, b, standing, quantified, same, names => by
    cases b with
    | inst d n bs =>
      rw [Ty.isSame, Bool.and_eq_true, beq_iff_eq] at same
      rw [Ty.namesAgree] at names
      obtain ⟨rfl, each⟩ := same
      exact congrArg (Ty.inst c "") (coreEach_eq_of_isSame as bs standing quantified each names)
    | _ => simp [Ty.isSame] at same
  | .tuple as, b, standing, quantified, same, names => by
    cases b with
    | tuple bs =>
      rw [Ty.isSame] at same
      rw [Ty.namesAgree] at names
      exact congrArg Ty.tuple (coreEach_eq_of_isSame as bs standing quantified same names)
    | _ => simp [Ty.isSame] at same
  | .callable s, b, standing, quantified, same, names => by
    cases b with
    | callable t =>
      rw [Ty.isSame] at same
      rw [Ty.namesAgree] at names
      exact congrArg Ty.callable (Signature.core_eq_of_isSame s t standing quantified same names)
    | _ => simp [Ty.isSame] at same
  | .overloaded ss, b, standing, quantified, same, names => by
    cases b with
    | overloaded ts =>
      rw [Ty.isSame] at same
      rw [Ty.namesAgree] at names
      exact congrArg Ty.overloaded (coreSignatures_eq_of_isSame ss ts standing quantified same names)
    | _ => simp [Ty.isSame] at same

theorem Signature.core_eq_of_isSame {side : Side} : (s t : Signature) → s.typeVars = [] →
    s.quantifiedVars = [] → Ty.isSameSignature s t = true → s.namesAgree side t = true →
    s.core side = t.core side
  | ⟨types, _, _, ret, own, _, _, _⟩, ⟨types', _, _, ret', own', _, _, _⟩, standing, quantified, same,
      names => by
    obtain ⟨each, kinds, result, constructs, lengths⟩ := Ty.isSameSignature_iff.mp same
    obtain ⟨standingTypes, standingRet⟩ := List.append_eq_nil_iff.mp standing
    obtain ⟨none, quantified⟩ := List.append_eq_nil_iff.mp quantified
    obtain ⟨quantifiedTypes, quantifiedRet⟩ := List.append_eq_nil_iff.mp quantified
    rw [Signature.namesAgree, Bool.and_eq_true, Bool.and_eq_true, beq_iff_eq] at names
    obtain ⟨⟨named, inner⟩, resultNames⟩ := names
    dsimp only at each kinds result constructs lengths named inner resultNames
    have unquantified : own = own' := by
      rw [none] at lengths ⊢
      exact (List.eq_nil_of_length_eq_zero lengths.symm).symm
    rw [Signature.core, Signature.core, named, kinds, constructs, unquantified,
      coreEach_eq_of_isSame types types' standingTypes quantifiedTypes each inner,
      Ty.core_eq_of_isSame ret ret' standingRet quantifiedRet result resultNames]

theorem coreEach_eq_of_isSame {side : Side} : (as bs : List Ty) → typeVarsOfEach as = [] →
    quantifiedVarsOfEach as = [] → Ty.isSameEach as bs = true → namesAgreeEach side as bs = true →
    coreEach side as = coreEach side bs
  | [], [], _, _, _, _ => rfl
  | [], _ :: _, _, _, same, _ | _ :: _, [], _, _, same, _ => by simp [Ty.isSameEach] at same
  | a :: as, b :: bs, standing, quantified, same, names => by
    obtain ⟨standing, standing'⟩ := List.append_eq_nil_iff.mp standing
    obtain ⟨quantified, quantified'⟩ := List.append_eq_nil_iff.mp quantified
    rw [Ty.isSameEach, Bool.and_eq_true] at same
    rw [namesAgreeEach, Bool.and_eq_true] at names
    rw [coreEach, coreEach, Ty.core_eq_of_isSame a b standing quantified same.1 names.1,
      coreEach_eq_of_isSame as bs standing' quantified' same.2 names.2]

theorem coreSignatures_eq_of_isSame {side : Side} : (ss ts : List Signature) →
    typeVarsOfSignatures ss = [] → quantifiedVarsOfSignatures ss = [] →
    Ty.isSameSignatures ss ts = true → namesAgreeSignatures side ss ts = true →
    coreSignatures side ss = coreSignatures side ts
  | [], [], _, _, _, _ => rfl
  | [], _ :: _, _, _, same, _ | _ :: _, [], _, _, same, _ => by simp [Ty.isSameSignatures] at same
  | s :: ss, t :: ts, standing, quantified, same, names => by
    obtain ⟨standing, standing'⟩ := List.append_eq_nil_iff.mp standing
    obtain ⟨quantified, quantified'⟩ := List.append_eq_nil_iff.mp quantified
    rw [Ty.isSameSignatures, Bool.and_eq_true] at same
    rw [namesAgreeSignatures, Bool.and_eq_true] at names
    rw [coreSignatures, coreSignatures, Signature.core_eq_of_isSame s t standing quantified same.1 names.1,
      coreSignatures_eq_of_isSame ss ts standing' quantified' same.2 names.2]

end

/-- The formals of signatures that are the same take the same arguments if the names in their types agree. -/
theorem Signature.IsConcrete.map_core_eq {s t : Signature} (concrete : s.IsConcrete)
    (same : Ty.isSameEach s.argTypes t.argTypes = true)
    (names : namesAgreeEach .expected s.argTypes t.argTypes = true) :
    s.argTypes.map (Ty.core .expected) = t.argTypes.map (Ty.core .expected) := by
  cases s
  have standing := (List.append_eq_nil_iff.mp concrete.standing).1
  have quantified := (List.append_eq_nil_iff.mp (List.append_eq_nil_iff.mp concrete.quantified).2).1
  rw [← coreEach_eq_map, ← coreEach_eq_map]
  exact coreEach_eq_of_isSame _ _ standing quantified same names

end Gradual
