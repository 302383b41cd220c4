import Gradual.Proofs.Transitivity

/-!
Types that are the same up to names. Messages tell functions and arguments apart by names, but what
fits where does not depend on them, as long as no argument is given by keyword only and no type is
overloaded. So every such type is a subtype of itself.
-/

namespace Gradual

theorem Ty.isSameEach_iff {as bs : List Ty} :
    isSameEach as bs = true ↔ List.Forall₂ (fun a b => a.isSame b = true) as bs := by
  induction as generalizing bs with
  | nil => cases bs <;> simp [isSameEach]
  | cons a as ih => cases bs <;> simp [isSameEach, ih]

theorem Ty.isSameSignature_iff {s t : Signature} : isSameSignature s t = true ↔
    isSameEach s.argTypes t.argTypes = true ∧ s.argKinds = t.argKinds ∧ s.ret.isSame t.ret = true ∧
      s.isTypeObject = t.isTypeObject ∧ s.quantified.length = t.quantified.length := by
  cases s
  simp [isSameSignature, and_assoc]

theorem Ty.isSame_void {t : Ty} (h : Ty.void.isSame t = true) : t = .void := by
  cases t with
  | void => rfl
  | _ => simp [isSame] at h

namespace TypeOrder

variable {R : Ty → Ty → Prop} {as bs : List Ty} {l r : Signature} {le : Ty → Ty → Option Bool}

theorem forall₂_zip (kinds : List ArgKind) (h : List.Forall₂ R as bs) :
    List.Forall₂ (fun p q => p.1 = q.1 ∧ R p.2 q.2) (kinds.zip as) (kinds.zip bs) := by
  induction h generalizing kinds with
  | nil => simp
  | cons first _ ih =>
    cases kinds with
    | nil => exact .nil
    | cons kind kinds => exact .cons ⟨rfl, first⟩ (ih kinds)

theorem exists_getElem? {α β : Type} {R : α → β → Prop} {xs : List α} {ys : List β} {q : Nat} {x : α}
    (h : List.Forall₂ R xs ys) (found : xs[q]? = some x) : ∃ y, ys[q]? = some y ∧ R x y := by
  induction h generalizing q with
  | nil => cases found
  | cons first _ ih =>
    cases q with
    | zero =>
      cases found
      exact ⟨_, rfl, first⟩
    | succ q => exact ih found

/-- Signatures whose formals have the same kinds fit by their parts. -/
theorem PlainFits.of_same_kinds (right : r.Orderly)
    (constructs : l.isTypeObject = r.isTypeObject) (kinds : l.argKinds = r.argKinds)
    (result : le l.ret r.ret = some true)
    (args : List.Forall₂ (fun a b => le a b = some true) r.argTypes l.argTypes) :
    PlainFits le l r := by
  have alike := forall₂_zip r.argKinds args
  have lengths : l.argKinds.length = l.argTypes.length := by
    rw [kinds, right.length_kinds, args.length_eq]
  refine ⟨constructs.trans, result, ?_, ?_⟩
  · rw [Signature.countsFit_iff]
    simp only [Signature.minArgs, Signature.maxFixedArgs, Signature.isVarArg, kinds]
    simp
  · refine right.forall_taken_iff.mpr ⟨fun q t listed => ?_, fun p listed kind => ?_⟩
    · have fixed : List.Forall₂ (fun p q => p.1 = q.1 ∧ le p.2 q.2 = some true)
          ((r.argKinds.zip r.argTypes).filter (·.1.isFixed))
          ((r.argKinds.zip l.argTypes).filter (·.1.isFixed)) :=
        List.rel_filter (fun _ _ both => iff_of_eq (by dsimp only; rw [both.1])) alike
      obtain ⟨p, found, rfl⟩ := Option.map_eq_some_iff.mp (List.getElem?_map.symm.trans listed)
      obtain ⟨p', found', -, below⟩ := exists_getElem? fixed found
      have own : l.fixedTypes[q]? = some p'.2 := by
        rw [Signature.fixedTypes, kinds, List.getElem?_map, found']
        rfl
      exact ⟨p'.2, by rw [own, Option.some_or], below⟩
    · obtain ⟨j, found⟩ := List.mem_iff_getElem?.mp listed
      obtain ⟨kindAt, typeAt⟩ := List.getElem?_zip_eq_some.mp found
      obtain ⟨taker, takerAt, below⟩ := exists_getElem? args typeAt
      have once : l.argKinds.count p.1 ≤ 1 := by
        cases form : p.1 with
        | pos | opt => simp [form, ArgKind.isFixed] at kind
        | named => exact absurd (List.mem_of_getElem? (form ▸ kindAt)) right.unnamed
        | star => exact kinds ▸ right.oneStar
        | star2 => exact kinds ▸ right.oneStar2
      exact ⟨taker, Signature.typeOfKind?_eq (Nat.le_of_eq lengths) once
        (kinds ▸ kindAt) takerAt, below⟩

/-- Signatures fit if they do both as they are and without their type variables. -/
theorem Decides.callable_le {o : TypeOrder} (decides : o.Decides) (plain : PlainFits o.compare l r)
    (erased : PlainFits o.compare l.erased r.erased) :
    o.isSubtype (.callable l) (.callable r) = true := by
  have asked : o.question (.callable l) (.callable r) = .signatures l r := rfl
  rw [decides.isSubtype_iff, asked, Question.answer, signatureLe]
  split
  · exact plainSignatureLe_eq_some_true_iff.mpr plain
  · exact plainSignatureLe_eq_some_true_iff.mpr erased

end TypeOrder

/-! ### Orderly types -/

/-- Types over known classes without alternatives, whose signatures are orderly. -/
inductive Ty.Orderly (t : ClassTable) : Ty → Prop
  | dynamic {s : Ty} : s.isDynamic = true → Orderly t s
  | void : Orderly t .void
  | noneType : Orderly t .noneType
  | inst {c : ClassId} {n : String} {args : List Ty} :
    c < t.size → (∀ a ∈ args, Orderly t a) → Orderly t (.inst c n args)
  | tuple {items : List Ty} : (∀ a ∈ items, Orderly t a) → Orderly t (.tuple items)
  | callable {s : Signature} : s.Orderly → (∀ a ∈ s.argTypes, Orderly t a) → Orderly t s.ret →
    Orderly t (.callable s)
  | typeVar {v : TypeVar} : Orderly t v.upperBound → Orderly t (.typeVar v)

theorem Ty.erase_inst (c : ClassId) (n : String) (args : List Ty) :
    (Ty.inst c n args).erase = .inst c n (args.map Ty.erase) :=
  congrArg (Ty.inst c n) (Ty.substituteEach_eq_map _ args)

theorem Ty.erase_tuple (items : List Ty) : (Ty.tuple items).erase = .tuple (items.map Ty.erase) :=
  congrArg Ty.tuple (Ty.substituteEach_eq_map _ items)

namespace Signature

variable {s : Signature} {f : Substitution}

theorem argTypes_substitute : (Ty.substituteSignature f s).argTypes = s.argTypes.map (·.substitute f) := by
  cases s
  exact Ty.substituteEach_eq_map _ _

theorem ret_substitute : (Ty.substituteSignature f s).ret = s.ret.substitute f := by
  cases s
  rfl

theorem argKinds_substitute : (Ty.substituteSignature f s).argKinds = s.argKinds := by
  cases s
  rfl

theorem argNames_substitute : (Ty.substituteSignature f s).argNames = s.argNames := by
  cases s
  rfl

theorem Orderly.substitute (h : s.Orderly) : (Ty.substituteSignature f s).Orderly := by
  obtain ⟨kinds, names, star, star2, unnamed⟩ := h
  constructor
  all_goals simpa only [argKinds_substitute, argNames_substitute, argTypes_substitute, List.length_map]

end Signature

namespace Ty.Orderly

open TypeOrder

variable {classes : ClassTable} {o : TypeOrder} {s t : Ty}

theorem inst_iff {c : ClassId} {n : String} {args : List Ty} : (Ty.inst c n args).Orderly classes ↔
    c < classes.size ∧ ∀ a ∈ args, a.Orderly classes := by
  constructor
  · rintro (⟨⟨⟩⟩ | _ | _ | ⟨known, args⟩)
    exact ⟨known, args⟩
  · exact fun ⟨known, args⟩ => .inst known args

theorem tuple_iff {items : List Ty} :
    (Ty.tuple items).Orderly classes ↔ ∀ a ∈ items, a.Orderly classes := by
  constructor
  · rintro (⟨⟨⟩⟩ | _ | _ | _ | items)
    exact items
  · exact .tuple

theorem upperBound {v : TypeVar} (h : (Ty.typeVar v).Orderly classes) :
    v.upperBound.Orderly classes := by
  rcases h with ⟨⟨⟩⟩ | _ | _ | _ | _ | _ | bound
  exact bound

theorem substitute {f : Substitution} (h : s.Orderly classes)
    (given : ∀ v u, f v = some u → u.Orderly classes) : (s.substitute f).Orderly classes := by
  induction h with
  | @dynamic s marked =>
    cases s with
    | any | unbound | error => exact .dynamic rfl
    | void | noneType | inst | callable | overloaded | tuple | typeVar => cases marked
  | void => exact .void
  | noneType => exact .noneType
  | inst known _ ih =>
    rw [Ty.substitute, substituteEach_eq_map]
    exact .inst known (List.forall_mem_map.mpr ih)
  | tuple _ ih =>
    rw [Ty.substitute, substituteEach_eq_map]
    exact .tuple (List.forall_mem_map.mpr ih)
  | callable orderly _ _ args ret =>
    refine .callable orderly.substitute ?_ ?_
    · rw [Signature.argTypes_substitute]
      exact List.forall_mem_map.mpr args
    · rw [Signature.ret_substitute]
      exact ret
  | @typeVar v bound _ =>
    rw [Ty.substitute]
    cases replaced : f v with
    | none => exact .typeVar bound
    | some u => exact given v u replaced

theorem expandBy {args : List Ty} (h : s.Orderly classes) (given : ∀ a ∈ args, a.Orderly classes) :
    (s.expandBy args).Orderly classes := by
  cases args with
  | nil => exact h
  | cons a as =>
    refine h.substitute fun v u replaced => given u ?_
    exact List.mem_of_getElem? (Option.ite_none_right_eq_some.mp replaced).2

theorem isSame_self (h : s.Orderly classes) : s.isSame s = true := by
  induction h with
  | @dynamic s marked => cases s <;> simp_all [isSame, isDynamic]
  | void | noneType => simp [isSame]
  | inst _ _ ih => simpa [isSame, isSameEach_iff, List.forall₂_same] using ih
  | tuple _ ih => simpa [isSame, isSameEach_iff, List.forall₂_same] using ih
  | callable _ _ _ args ret =>
    rw [isSame, isSameSignature_iff, isSameEach_iff, List.forall₂_same]
    exact ⟨args, rfl, ret, rfl, rfl⟩
  | typeVar => simp [isSame]

end Ty.Orderly

/-! ### Deciding which types are orderly -/

instance (s : Signature) : Decidable s.Orderly :=
  decidable_of_iff
    (s.argKinds.length = s.argTypes.length ∧ s.argNames.length = s.argTypes.length ∧
      s.argKinds.count .star ≤ 1 ∧ s.argKinds.count .star2 ≤ 1 ∧ .named ∉ s.argKinds)
    ⟨fun ⟨a, b, c, d, e⟩ => ⟨a, b, c, d, e⟩, fun ⟨a, b, c, d, e⟩ => ⟨a, b, c, d, e⟩⟩

mutual

def Ty.isOrderly (t : ClassTable) : Ty → Bool
  | .any | .void | .noneType | .unbound _ | .error => true
  | .inst c _ args => decide (c < t.size) && areOrderly t args
  | .callable s => decide s.Orderly && s.isOrderly t
  | .overloaded _ => false
  | .tuple items => areOrderly t items
  | .typeVar ⟨_, _, _, upperBound⟩ => upperBound.isOrderly t

/-- Are the parts of the signature orderly? -/
def Signature.isOrderly (t : ClassTable) : Signature → Bool
  | ⟨argTypes, _, _, ret, _, _, _, _⟩ => areOrderly t argTypes && ret.isOrderly t

def areOrderly (t : ClassTable) : List Ty → Bool
  | [] => true
  | s :: ss => s.isOrderly t && areOrderly t ss

end

section Deciding

variable {t : ClassTable}

theorem areOrderly_eq_all (ss : List Ty) : areOrderly t ss = ss.all (·.isOrderly t) := by
  induction ss with
  | nil => rfl
  | cons s ss ih => rw [areOrderly, ih, List.all_cons]

theorem Signature.isOrderly_iff {s : Signature} : s.isOrderly t = true ↔
    (∀ a ∈ s.argTypes, a.isOrderly t = true) ∧ s.ret.isOrderly t = true := by
  cases s
  simp [isOrderly, areOrderly_eq_all]

mutual

theorem Ty.orderly_of_isOrderly : (s : Ty) → s.isOrderly t = true → s.Orderly t
  | .any, _ | .unbound _, _ | .error, _ => .dynamic rfl
  | .void, _ => .void
  | .noneType, _ => .noneType
  | .inst c n args, h => by
    rw [Ty.isOrderly, Bool.and_eq_true, decide_eq_true_eq] at h
    exact .inst h.1 (orderly_of_areOrderly args h.2)
  | .callable s, h => by
    rw [Ty.isOrderly, Bool.and_eq_true, decide_eq_true_eq] at h
    exact Signature.orderly_of_isOrderly s h.1 h.2
  | .overloaded _, h => by cases h
  | .tuple items, h => .tuple (orderly_of_areOrderly items h)
  | .typeVar ⟨_, _, _, upperBound⟩, h => .typeVar (Ty.orderly_of_isOrderly upperBound h)

theorem Signature.orderly_of_isOrderly :
    (s : Signature) → s.Orderly → s.isOrderly t = true → (Ty.callable s).Orderly t
  | ⟨argTypes, _, _, ret, _, _, _, _⟩, formals, h => by
    rw [Signature.isOrderly, Bool.and_eq_true] at h
    exact .callable formals (orderly_of_areOrderly argTypes h.1) (Ty.orderly_of_isOrderly ret h.2)

theorem orderly_of_areOrderly : (ss : List Ty) → areOrderly t ss = true → ∀ s ∈ ss, s.Orderly t
  | [], _ => List.forall_mem_nil _
  | s :: ss, h => by
    rw [areOrderly, Bool.and_eq_true] at h
    exact List.forall_mem_cons.mpr ⟨Ty.orderly_of_isOrderly s h.1, orderly_of_areOrderly ss h.2⟩

end

theorem Ty.Orderly.isOrderly {s : Ty} (h : s.Orderly t) : s.isOrderly t = true := by
  induction h with
  | @dynamic s marked => cases s <;> simp_all [Ty.isOrderly, Ty.isDynamic]
  | void | noneType => simp [Ty.isOrderly]
  | inst known _ ih => simpa [Ty.isOrderly, known, areOrderly_eq_all] using ih
  | tuple _ ih => simpa [Ty.isOrderly, areOrderly_eq_all] using ih
  | callable formals _ _ args ret =>
    rw [Ty.isOrderly, decide_eq_true formals, Bool.true_and, Signature.isOrderly_iff]
    exact ⟨args, ret⟩
  | @typeVar v _ ih =>
    cases v
    exact ih

instance (s : Ty) : Decidable (s.Orderly t) :=
  decidable_of_iff (s.isOrderly t = true) ⟨s.orderly_of_isOrderly, fun h => h.isOrderly⟩

end Deciding

/-! ### Types that are the same -/

namespace TypeOrder

variable {classes : ClassTable} {o : TypeOrder} {s t : Ty} {as bs : List Ty} {l r : Signature}

theorem isEquivalent_iff : o.isEquivalent s t = true ↔
    o.isSubtype s t = true ∧ o.isSubtype t s = true := Bool.and_eq_true_iff

/-- Each of the types fits in the place of the other one, also without their type variables. The two go
together, since signatures that quantify type variables compare without them. -/
structure Alike (o : TypeOrder) (s t : Ty) : Prop where
  fit : o.isEquivalent s t = true
  erased : o.isEquivalent s.erase t.erase = true

namespace Alike

theorem symm (h : o.Alike s t) : o.Alike t s := by
  obtain ⟨fit, erased⟩ := h
  rw [isEquivalent_iff] at fit erased
  exact ⟨isEquivalent_iff.mpr fit.symm, isEquivalent_iff.mpr erased.symm⟩

theorem erase (h : o.Alike s t) : o.Alike s.erase t.erase := by
  have twice (u : Ty) : u.erase.erase = u.erase := Ty.substitute_erase _ u
  refine ⟨h.erased, ?_⟩
  rw [twice, twice]
  exact h.erased

theorem of_erase_eq (self : s.erase = s) (self' : t.erase = t) (fit : o.isEquivalent s t = true) :
    o.Alike s t := ⟨fit, by rw [self, self']; exact fit⟩

theorem map_erase (h : List.Forall₂ o.Alike as bs) :
    List.Forall₂ o.Alike (as.map Ty.erase) (bs.map Ty.erase) :=
  List.forall₂_map_left_iff.mpr (List.forall₂_map_right_iff.mpr (h.imp fun _ _ both => both.erase))

variable (decides : o.Decides)
include decides

theorem dynamic (marked : s.isDynamic = true) (marked' : s.erase.isDynamic = true) : o.Alike s t where
  fit := isEquivalent_iff.mpr ⟨decides.dynamic_le marked, decides.le_dynamic marked⟩
  erased := isEquivalent_iff.mpr ⟨decides.dynamic_le marked', decides.le_dynamic marked'⟩

theorem inst {c : ClassId} {m n : String} (h : List.Forall₂ o.Alike as bs) :
    o.Alike (.inst c m as) (.inst c n bs) := by
  have fit {m n : String} {as bs : List Ty} (h : List.Forall₂ o.Alike as bs) :
      o.isEquivalent (.inst c m as) (.inst c n bs) = true := by
    have both := h.imp fun _ _ alike => isEquivalent_iff.mp alike.fit
    exact isEquivalent_iff.mpr ⟨decides.inst_le_of_args (both.imp fun _ _ h => h.1),
      decides.inst_le_of_args (both.imp fun _ _ h => h.2).flip⟩
  refine ⟨fit h, ?_⟩
  rw [Ty.erase_inst, Ty.erase_inst]
  exact fit (map_erase h)

theorem tuple (h : List.Forall₂ o.Alike as bs) : o.Alike (.tuple as) (.tuple bs) := by
  have fit {as bs : List Ty} (h : List.Forall₂ o.Alike as bs) :
      o.isEquivalent (.tuple as) (.tuple bs) = true := by
    have both := h.imp fun _ _ alike => isEquivalent_iff.mp alike.fit
    exact isEquivalent_iff.mpr ⟨decides.tuple_le_iff.mpr (both.imp fun _ _ h => h.1),
      decides.tuple_le_iff.mpr (both.imp fun _ _ h => h.2).flip⟩
  refine ⟨fit h, ?_⟩
  rw [Ty.erase_tuple, Ty.erase_tuple]
  exact fit (map_erase h)

end Alike

/-- Signatures that are the same but for their parts, which are alike. -/
structure AlikeSignatures (o : TypeOrder) (l r : Signature) : Prop where
  left : l.Orderly
  right : r.Orderly
  constructs : l.isTypeObject = r.isTypeObject
  kinds : l.argKinds = r.argKinds
  args : List.Forall₂ o.Alike l.argTypes r.argTypes
  ret : o.Alike l.ret r.ret

namespace AlikeSignatures

theorem symm (h : o.AlikeSignatures l r) : o.AlikeSignatures r l :=
  ⟨h.right, h.left, h.constructs.symm, h.kinds.symm, (h.args.imp fun _ _ alike => alike.symm).flip,
    h.ret.symm⟩

theorem erased (h : o.AlikeSignatures l r) : o.AlikeSignatures l.erased r.erased where
  left := h.left.substitute
  right := h.right.substitute
  constructs := by
    rw [Signature.erased, Signature.erased, isTypeObject_substituteSignature, isTypeObject_substituteSignature]
    exact h.constructs
  kinds := by
    rw [Signature.erased, Signature.erased, Signature.argKinds_substitute, Signature.argKinds_substitute]
    exact h.kinds
  args := by
    rw [Signature.erased, Signature.erased, Signature.argTypes_substitute, Signature.argTypes_substitute]
    exact Alike.map_erase h.args
  ret := by
    rw [Signature.erased, Signature.erased, Signature.ret_substitute, Signature.ret_substitute]
    exact h.ret.erase

theorem plainFits (h : o.AlikeSignatures l r) : PlainFits o.compare l r := by
  refine .of_same_kinds h.right h.constructs h.kinds ?_ ?_
  · exact compare_eq_some_true.mpr (isEquivalent_iff.mp h.ret.fit).1
  · exact (h.args.imp fun _ _ alike => compare_eq_some_true.mpr (isEquivalent_iff.mp alike.fit).2).flip

theorem alike (decides : o.Decides) (h : o.AlikeSignatures l r) :
    o.Alike (.callable l) (.callable r) := by
  have le {l r : Signature} (h : o.AlikeSignatures l r) :
      o.isSubtype (.callable l) (.callable r) = true := decides.callable_le h.plainFits h.erased.plainFits
  exact ⟨isEquivalent_iff.mpr ⟨le h, le h.symm⟩, isEquivalent_iff.mpr ⟨le h.erased, le h.erased.symm⟩⟩

end AlikeSignatures
end TypeOrder

namespace Ty.Orderly

open TypeOrder

variable {classes : ClassTable} {o : TypeOrder} {s t : Ty} (decides : o.Decides)
include decides

theorem alike_of_isSame (hs : s.Orderly classes) (ht : t.Orderly classes) (same : s.isSame t = true) :
    o.Alike s t := by
  induction hs generalizing t with
  | @dynamic s marked =>
    refine .dynamic decides marked ?_
    cases s with
    | any | unbound | error => rfl
    | void | noneType | inst | callable | overloaded | tuple | typeVar => cases marked
  | void =>
    rw [isSame_void same]
    have self := decides.void_le_iff.mpr (.inr rfl)
    exact .of_erase_eq rfl rfl (isEquivalent_iff.mpr ⟨self, self⟩)
  | noneType =>
    cases t with
    | noneType =>
      have self : o.isSubtype .noneType .noneType = true := decides.noneType_le (by simp)
      exact .of_erase_eq rfl rfl (isEquivalent_iff.mpr ⟨self, self⟩)
    | _ => simp [isSame] at same
  | inst _ _ ih =>
    cases ht with
    | @inst d m bs _ others =>
      rw [isSame, Bool.and_eq_true, beq_iff_eq, isSameEach_iff] at same
      obtain ⟨rfl, each⟩ := same
      exact .inst decides (forall₂_of_mem (fun a ha b hb => ih a ha (others b hb)) each)
    | dynamic marked => cases t <;> simp_all [isSame, isDynamic]
    | void | noneType | tuple | callable | typeVar => simp [isSame] at same
  | tuple _ ih =>
    cases ht with
    | @tuple bs others =>
      rw [isSame, isSameEach_iff] at same
      exact .tuple decides (forall₂_of_mem (fun a ha b hb => ih a ha (others b hb)) same)
    | dynamic marked => cases t <;> simp_all [isSame, isDynamic]
    | void | noneType | inst | callable | typeVar => simp [isSame] at same
  | callable orderly _ _ args ret =>
    cases ht with
    | @callable u orderly' others result =>
      rw [isSame] at same
      obtain ⟨types, kinds, results, constructs, -⟩ := isSameSignature_iff.mp same
      exact AlikeSignatures.alike decides ⟨orderly, orderly', constructs, kinds,
        forall₂_of_mem (fun a ha b hb => args a ha (others b hb)) (isSameEach_iff.mp types),
        ret result results⟩
    | dynamic marked => cases t <;> simp_all [isSame, isDynamic]
    | void | noneType | inst | tuple | typeVar => simp [isSame] at same
  | typeVar =>
    cases t with
    | typeVar w =>
      rw [isSame, beq_iff_eq] at same
      refine ⟨isEquivalent_iff.mpr ⟨?_, ?_⟩, isEquivalent_iff.mpr ⟨?_, ?_⟩⟩
      · exact (decides.typeVar_le_iff (by simp)).mpr (.inl ⟨_, rfl, same⟩)
      · exact (decides.typeVar_le_iff (by simp)).mpr (.inl ⟨_, rfl, same.symm⟩)
      · exact decides.dynamic_le rfl
      · exact decides.dynamic_le rfl
    | _ => simp [isSame] at same

/-- Types that are the same fit in each other's place. -/
theorem isSubtype_of_isSame (hs : s.Orderly classes) (ht : t.Orderly classes)
    (same : s.isSame t = true) : o.isSubtype s t = true ∧ o.isSubtype t s = true :=
  isEquivalent_iff.mp (hs.alike_of_isSame decides ht same).fit

/-- A type fits in its own place. -/
theorem isSubtype_self (h : s.Orderly classes) : o.isSubtype s s = true :=
  (h.isSubtype_of_isSame decides h h.isSame_self).1

end Ty.Orderly

theorem Ty.Regular.orderly {voc : Vocabulary} {static : Bool} {t : Ty} (h : t.Regular voc static) :
    t.Orderly voc.classes := by
  induction h with
  | dynamic marked => exact .dynamic marked
  | void => exact .void
  | noneType => exact .noneType
  | inst known _ _ ih => exact .inst known ih
  | tuple _ ih => exact .tuple ih
  | @callable _ s plain _ _ args ret =>
    refine .callable plain.orderly args ?_
    by_cases value : s.ret = .void
    · exact value ▸ .void
    · exact ret value
  | typeVar _ _ bound => exact .typeVar bound

end Gradual
