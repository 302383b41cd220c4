import Gradual.Checker.Module
import Gradual.Proofs.Termination

/-!
What it takes for a method to override another one without a report. Signatures that take as many
arguments are compared one argument at a time, whatever their kinds and names; all others are asked
whether the one fits where the other is expected.
-/

namespace Gradual

/-- By the kinds and names of its formals `new` takes as many arguments as `old`, each as its own
argument at the same position, and it creates instances if `old` does. -/
structure Signature.TakesInPlace (new old : Signature) : Prop where
  constructs : old.isTypeObject = true → new.isTypeObject = true
  counts : new.countsFit old = true
  taken : new.takers old = new.argTypes.map some

namespace TypeOrder

variable {o : TypeOrder} {name supertype : String} {new old : Signature}

theorem overrideProblems_eq_nil_iff_of_same_counts
    (same : new.argTypes.length = old.argTypes.length ∧ new.minArgs = old.minArgs) :
    o.overrideProblems name supertype (.callable new) (.callable old) = [] ↔
      (∀ p ∈ old.argTypes.zip new.argTypes, o.isEquivalent p.1 p.2 = true) ∧
        o.isSubtype new.ret old.ret = true := by
  rw [overrideProblems]
  dsimp only
  rw [if_pos same, List.append_eq_nil_iff, List.filterMap_eq_nil_iff]
  refine and_congr ?_ (by simp)
  constructor
  · intro none p member
    obtain ⟨i, inside, rfl⟩ := List.mem_iff_getElem.mp member
    have absent := none _ (List.mem_mapIdx.mpr ⟨i, inside, rfl⟩)
    simpa using absent
  · intro all q listed
    obtain ⟨i, inside, rfl⟩ := List.mem_mapIdx.mp listed
    have equivalent := all _ (List.getElem_mem inside)
    simpa using equivalent

theorem overrideProblems_eq_nil_iff_of_whole {s t : Ty}
    (whole : ∀ n m, s = .callable n → t = .callable m →
      ¬ (n.argTypes.length = m.argTypes.length ∧ n.minArgs = m.minArgs)) :
    o.overrideProblems name supertype s t = [] ↔ o.isSubtype s t = true := by
  have asked : o.overrideProblems name supertype s t =
      if o.isSubtype s t then [] else [.overrideSignature name supertype] := by
    cases s <;> cases t <;> first | rfl | exact if_neg (whole _ _ rfl rfl)
  rw [asked]
  cases o.isSubtype s t <;> simp

/-- Signatures that quantify nothing fit where their parts do. -/
theorem isSubtype_callable_of_fits (plain : new.quantified = []) (plain' : old.quantified = [])
    (fits : PlainFits (fun s t => some (o.isSubtype s t)) new old) :
    o.isSubtype (.callable new) (.callable old) = true := by
  obtain ⟨steps, asked, enough, suffice⟩ := o.subtype?_callable plain plain'
  have part {s t : Ty} (enough : o.budget s t ≤ steps) (h : some (o.isSubtype s t) = some true) :
      o.subtypeWithin steps s t = some true :=
    subtypeWithin_extends enough s t true (subtype?_of_isSubtype (Option.some.inj h))
  have within : PlainFits (o.subtypeWithin steps) new old := by
    refine ⟨fits.constructs, part enough fits.ret, fits.counts, fun p member => ?_⟩
    obtain ⟨taker, same, taken⟩ := fits.formals p member
    obtain ⟨first, second⟩ := List.of_mem_zip member
    exact ⟨taker, same,
      part (suffice _ first _ (Signature.taker_mem_argTypes (same ▸ second))) taken⟩
  rw [isSubtype, asked, plainSignatureLe_eq_some_true_iff.mpr within]
  rfl

/-- A method that is accepted argument by argument fits if it takes the arguments in place. -/
theorem isSubtype_of_overrideProblems_eq_nil (plain : new.quantified = [])
    (plain' : old.quantified = [])
    (inPlace : new.argTypes.length = old.argTypes.length → new.minArgs = old.minArgs →
      new.TakesInPlace old)
    (accepted : o.overrideProblems name supertype (.callable new) (.callable old) = []) :
    o.isSubtype (.callable new) (.callable old) = true := by
  by_cases same : new.argTypes.length = old.argTypes.length ∧ new.minArgs = old.minArgs
  · obtain ⟨args, ret⟩ := (overrideProblems_eq_nil_iff_of_same_counts same).mp accepted
    obtain ⟨constructs, counts, taken⟩ := inPlace same.1 same.2
    refine isSubtype_callable_of_fits plain plain'
      ⟨constructs, congrArg some ret, counts, fun p member => ?_⟩
    rw [taken, List.zip_map_right] at member
    obtain ⟨pair, listed, rfl⟩ := List.mem_map.mp member
    have equivalent := args pair listed
    rw [isEquivalent, Bool.and_eq_true] at equivalent
    exact ⟨pair.2, rfl, congrArg some equivalent.1⟩
  · refine (overrideProblems_eq_nil_iff_of_whole ?_).mp accepted
    intro n m isNew isOld
    cases isNew
    cases isOld
    exact same

end TypeOrder

namespace Env

/-- Seen from a class that derives from its own, a signature has other types and the same formals. -/
theorem fromSupertype_callable (env : Env) (s : Signature) (sub sup : ClassId) :
    ∃ u : Signature, env.fromSupertype (.callable s) sub sup = .callable u ∧
      u.argTypes.length = s.argTypes.length ∧ u.argKinds = s.argKinds ∧ u.argNames = s.argNames ∧
      u.isTypeObject = s.isTypeObject ∧ (s.quantified = [] → u.quantified = []) := by
  have substituted (f : Substitution) : ∃ u : Signature, (Ty.callable s).substitute f = .callable u ∧
      u.argTypes.length = s.argTypes.length ∧ u.argKinds = s.argKinds ∧ u.argNames = s.argNames ∧
      u.isTypeObject = s.isTypeObject ∧ (s.quantified = [] → u.quantified = []) := by
    refine ⟨Ty.substituteSignature f s, rfl, ?_⟩
    cases s
    simp +contextual [Ty.substituteSignature, Ty.substituteEach_eq_map]
  rw [fromSupertype]
  cases env.classes.view? (env.selfInstance sub) sup with
  | none => exact ⟨s, rfl, rfl, rfl, rfl, rfl, id⟩
  | some view =>
    dsimp only
    cases view.args with
    | nil => exact ⟨s, rfl, rfl, rfl, rfl, rfl, id⟩
    | cons => exact substituted _

end Env

/-- A method that is accepted as an override of one that a class behind it declares fits where that
one is expected, as long as it takes the arguments in place wherever it has as many of them and must
be given as many. -/
theorem accepted_override_fits (env : Env) (vars : VarTypes) (name : String) (c base : ClassId)
    (symbol : Symbol) (type : Ty) (old : Signature) (own : env.classes.own? base name = some symbol)
    (declared : symbol.declaredType? vars = some (.callable old)) (plain : old.quantified = [])
    (override : ∀ new, type = .callable new → new.quantified = [] ∧
      (new.bound.argTypes.length = old.bound.argTypes.length → new.bound.minArgs = old.bound.minArgs →
        new.bound.TakesInPlace old.bound))
    (accepted : env.overrideProblems vars name c type base = []) :
    env.order.isSubtype type.boundMethod (env.fromSupertype (Ty.callable old).boundMethod c base) =
      true := by
  obtain ⟨u, seen, lengths, kinds, names, constructs, quantified⟩ :=
    env.fromSupertype_callable old.bound c base
  have compared : env.order.overrideProblems name (env.classes.info base).name type.boundMethod
      (.callable u) = [] := by
    rw [← seen]
    rw [Env.overrideProblems, own] at accepted
    dsimp only at accepted
    rw [declared] at accepted
    exact accepted
  have mapped : env.fromSupertype (Ty.callable old).boundMethod c base = .callable u := seen
  rw [mapped]
  cases type with
  | callable new =>
    obtain ⟨plainNew, inPlace⟩ := override new rfl
    refine TypeOrder.isSubtype_of_overrideProblems_eq_nil plainNew (quantified plain) ?_ compared
    intro length least
    have sameMin : u.minArgs = old.bound.minArgs := by rw [Signature.minArgs, kinds, Signature.minArgs]
    have sameCounts : new.bound.countsFit u = new.bound.countsFit old.bound := by
      rw [Signature.countsFit, Signature.countsFit, sameMin, Signature.isVarArg, Signature.maxFixedArgs,
        kinds]
      rfl
    have sameTakers : new.bound.takers u = new.bound.takers old.bound := by
      rw [Signature.takers, Signature.takers, kinds, names]
    obtain ⟨creates, counts, taken⟩ := inPlace (length.trans lengths) (least.trans sameMin)
    exact ⟨fun h => creates (constructs ▸ h), sameCounts.trans counts, sameTakers.trans taken⟩
  | any | void | noneType | inst | overloaded | tuple | typeVar | unbound | error =>
    refine (TypeOrder.overrideProblems_eq_nil_iff_of_whole fun n m new => ?_).mp compared
    cases new

/-- A method of one argument behind the receiver, an instance of the first class below. -/
def Signature.numeric (owner : ClassId) (receiver : String) (kind : ArgKind) (name : String) :
    Signature :=
  .ofFormals [.inst owner receiver [], .inst 0 "Num" []] [.pos, kind] [some "self", some name]
    (.inst 0 "Num" [])

/-- A class with a method of one argument and one of any number of arguments, and a class that
derives from it. -/
def ClassTable.numeric : ClassTable :=
  ⟨#[⟨"Num", "Num", [], [0], ∅, [], false⟩,
    ⟨"Base", "Base", [], [1],
      .ofList [
        ("add", Symbol.func ⟨"add", "Base.add", some 1, .callable (.numeric 1 "Base" .pos "x"), false⟩),
        ("sum", Symbol.func ⟨"sum", "Base.sum", some 1, .callable (.numeric 1 "Base" .star "xs"), false⟩)],
      [], false⟩,
    ⟨"Derived", "Derived", [⟨1, "Base", []⟩], [2, 1], ∅, [], false⟩]⟩

def Program.numeric : Program := ⟨∅, .numeric, 1, ⟨0, ∅⟩⟩

/-- A positional argument may have another name. -/
theorem renamed_argument_fits :
    (Env.ofProgram .numeric default).overrideProblems .empty "add" 2
        (.callable (.numeric 2 "Derived" .pos "y")) 1 = [] ∧
      (Env.ofProgram .numeric default).order.isSubtype
        (Ty.callable (.numeric 2 "Derived" .pos "y")).boundMethod
        ((Env.ofProgram .numeric default).fromSupertype
          (Ty.callable (.numeric 1 "Base" .pos "x")).boundMethod 2 1) = true := by
  have accepted : (Env.ofProgram .numeric default).overrideProblems .empty "add" 2
      (.callable (.numeric 2 "Derived" .pos "y")) 1 = [] := by
    rw [← List.isEmpty_iff]
    decide +kernel
  have inPlace : (Signature.numeric 2 "Derived" .pos "y").bound.TakesInPlace
      (Signature.numeric 1 "Base" .pos "x").bound := ⟨nofun, rfl, rfl⟩
  refine ⟨accepted, accepted_override_fits _ .empty "add" 2 1 _ _ _ rfl rfl rfl ?_ accepted⟩
  intro new same
  cases same
  exact ⟨rfl, fun _ _ => inPlace⟩

/-- An argument that need not be given is accepted in the place of one that collects any number of
arguments, for which it does not stand in. -/
theorem single_argument_unfit :
    ((Env.ofProgram .numeric default).overrideProblems .empty "sum" 2
        (.callable (.numeric 2 "Derived" .opt "x")) 1).isEmpty = true ∧
      (Env.ofProgram .numeric default).order.isSubtype
        (Ty.callable (.numeric 2 "Derived" .opt "x")).boundMethod
        ((Env.ofProgram .numeric default).fromSupertype
          (Ty.callable (.numeric 1 "Base" .star "xs")).boundMethod 2 1) = false := by
  decide +kernel

end Gradual
