import Gradual.Proofs.Coherence
import Gradual.Proofs.Views

/-!
Subtyping of instances through an instance in the middle. Where views can be taken in steps and all type
arguments are given, what is a subtype of an instance is a subtype of whatever that is a subtype of, if
there are no dynamic types and no functions in the other two.
-/

namespace Gradual

/-! ### Types with all type arguments -/

/-- Types in which all type arguments are given, with the first `n` type variables of a class, and in
which other type variables of one id have one bound. Only those that are not nominal have dynamic types
and functions in them. -/
inductive Ty.Applied (t : ClassTable) (bound : Int → Ty) : (nominal : Bool) → (n : Nat) → Ty → Prop
  | loose {n : Nat} {s : Ty} : (s.isDynamic || s.isFunctionLike) = true → Applied t bound false n s
  | void {nominal : Bool} {n : Nat} : Applied t bound nominal n .void
  | noneType {nominal : Bool} {n : Nat} : Applied t bound nominal n .noneType
  | inst {nominal : Bool} {n : Nat} {c : ClassId} {name : String} {args : List Ty} :
    c < t.size → args.length = t.arity c → (∀ a ∈ args, Applied t bound nominal n a) →
      Applied t bound nominal n (.inst c name args)
  | tuple {nominal : Bool} {n : Nat} {items : List Ty} :
    (∀ a ∈ items, Applied t bound nominal n a) → Applied t bound nominal n (.tuple items)
  | classVar {nominal : Bool} {n : Nat} {v : TypeVar} :
    1 ≤ v.id → v.id ≤ n → Applied t bound nominal n (.typeVar v)
  | typeVar {nominal : Bool} {n : Nat} {v : TypeVar} : v.upperBound = bound v.id →
    Applied t bound false 0 v.upperBound → Applied t bound nominal n (.typeVar v)

/-- All type arguments of bases are given. -/
def ClassTable.AppliedBases (t : ClassTable) (bound : Int → Ty) : Prop :=
  ∀ c, ∀ base ∈ t.bases c, base.toTy.Applied t bound false (t.arity c)

variable {t : ClassTable} {bound : Int → Ty} {nominal : Bool} {n : Nat} {s u x y z : Ty}
  {i j k view : Instance} {c : ClassId} {as bs cs : List Ty}

namespace Ty.Applied

theorem inst_iff {name : String} {args : List Ty} : (Ty.inst c name args).Applied t bound nominal n ↔
    c < t.size ∧ args.length = t.arity c ∧ ∀ a ∈ args, a.Applied t bound nominal n := by
  constructor
  · rintro (⟨⟨⟩⟩ | _ | _ | ⟨known, length, args⟩)
    exact ⟨known, length, args⟩
  · exact fun ⟨known, length, args⟩ => .inst known length args

theorem tuple_iff {items : List Ty} :
    (Ty.tuple items).Applied t bound nominal n ↔ ∀ a ∈ items, a.Applied t bound nominal n := by
  constructor
  · rintro (⟨⟨⟩⟩ | _ | _ | _ | items)
    exact items
  · exact .tuple

theorem not_dynamic (h : s.Applied t bound true n) : s.isDynamic = false := by
  cases h <;> rfl

theorem expandBy (h : s.Applied t bound nominal as.length)
    (given : ∀ a ∈ as, a.Applied t bound nominal 0) : (s.expandBy as).Applied t bound nominal 0 := by
  generalize size : as.length = n at h
  induction h with
  | @loose n s form =>
    refine .loose ?_
    cases s with
    | any | unbound | error | callable | overloaded => cases as <;> rfl
    | void | noneType | inst | tuple | typeVar => cases form
  | void => cases as <;> exact .void
  | noneType =>
    rw [expandBy_noneType]
    exact .noneType
  | inst known length _ ih =>
    rw [expandBy_inst]
    refine .inst known (by rw [List.length_map, length]) (List.forall_mem_map.mpr fun a member => ?_)
    exact ih a member given size
  | tuple _ ih =>
    rw [expandBy_tuple]
    exact .tuple (List.forall_mem_map.mpr fun a member => ih a member given size)
  | classVar one low =>
    obtain ⟨inside, replaced⟩ := expandBy_classVar one (size ▸ low)
    exact replaced ▸ given _ (List.getElem_mem inside)
  | @typeVar nominal _ v same below =>
    have kept : (Ty.typeVar v).Applied t bound nominal 0 := .typeVar same below
    cases as with
    | nil => exact kept
    | cons a rest =>
      rw [Ty.expandBy.eq_2 _ _ (List.cons_ne_nil a rest), substitute]
      cases replaced : (if 1 ≤ v.id then (a :: rest)[(v.id - 1).toNat]? else none) with
      | none => exact kept
      | some u => exact given u (List.mem_of_getElem? (Option.ite_none_right_eq_some.mp replaced).2)

end Ty.Applied

theorem ClassTable.AppliedBases.view? (bases : t.AppliedBases bound)
    (hi : i.toTy.Applied t bound false 0) (seen : t.view? i c = some view) :
    view.toTy.Applied t bound false 0 := by
  refine viewWithin_induction (fun k => k.toTy.Applied t bound false 0) (fun k hk base member => ?_) seen hi
  obtain ⟨-, length, args⟩ := Ty.Applied.inst_iff.mp hk
  have applied := bases k.cls base member
  rw [← length] at applied
  have made : base.toTy.expandBy k.args = (base.expandBy k.args).toTy :=
    Ty.expandBy_inst base.cls base.name base.args k.args
  exact made ▸ applied.expandBy args

/-- All type arguments of bases are given, the classes that types fall back to have none, and the views of
instances can be taken in steps. -/
structure ClassTable.Univocal (t : ClassTable) (bound : Int → Ty) : Prop where
  linearized : t.Linearized
  earlier : t.MentionsEarlier t.basic
  bases : t.AppliedBases bound
  fallbacks : ∀ c, some c ∈ (TypeOrder.ofClasses t).fallbackClasses → t.arity c = 0
  paths : ∀ i : Instance, i.toTy.Applied t bound false 0 → t.PathIndependent i

theorem ClassTable.lt_size_of_find? {name : String} (found : t.find? name = some c) : c < t.size := by
  obtain ⟨inside, -⟩ := Array.findIdx?_eq_some_iff_getElem.mp found
  exact inside

/-- Type arguments are put into functions signature by signature. -/
theorem Ty.exists_expandBy_signature (as : List Ty) : ∃ g : Signature → Signature,
    (∀ l, (g l).isTypeObject = l.isTypeObject) ∧ (∀ l, (Ty.callable l).expandBy as = .callable (g l)) ∧
      ∀ items, (Ty.overloaded items).expandBy as = .overloaded (items.map g) := by
  cases as with
  | nil => exact ⟨id, fun _ => rfl, fun _ => rfl, fun items => by rw [List.map_id]; rfl⟩
  | cons a rest =>
    exact ⟨_, isTypeObject_substituteSignature, fun _ => rfl, fun items =>
      congrArg Ty.overloaded (substituteSignatures_eq_map _ items)⟩

namespace TypeOrder

/-! ### What nominal types are above -/

section Above

variable {o : TypeOrder} (decides : o.Decides)
include decides

theorem Decides.isSubtype_congr (asked : o.question s u = o.question x u) :
    o.isSubtype s u = true ↔ o.isSubtype x u = true := by
  rw [decides.isSubtype_iff, decides.isSubtype_iff, asked]

theorem Decides.inst_le_nominal (hz : z.Applied t bound true n)
    (below : o.isSubtype i.toTy z = true) : ∃ k : Instance, z = k.toTy := by
  cases hz with
  | @inst _ _ c name args => exact ⟨⟨c, name, args⟩, rfl⟩
  | void | noneType | tuple | classVar | typeVar => cases decides.isSubtype_iff.mp below

theorem Decides.tuple_le_nominal (hz : z.Applied t bound true n)
    (below : o.isSubtype (.tuple as) z = true) :
    (∃ k : Instance, z = k.toTy) ∨ ∃ bs, z = .tuple bs := by
  cases hz with
  | @inst _ _ c name args => exact .inl ⟨⟨c, name, args⟩, rfl⟩
  | tuple => exact .inr ⟨_, rfl⟩
  | void | noneType | classVar | typeVar => cases decides.isSubtype_iff.mp below

theorem Decides.callable_le_nominal {l : Signature} (hz : z.Applied t bound true n)
    (below : o.isSubtype (.callable l) z = true) : ∃ k : Instance, z = k.toTy := by
  cases hz with
  | @inst _ _ c name args => exact ⟨⟨c, name, args⟩, rfl⟩
  | void | noneType | tuple | classVar | typeVar => cases decides.isSubtype_iff.mp below

theorem Decides.callable_le_congr {l r : Signature} (same : l.isTypeObject = r.isTypeObject)
    (hz : z.Applied t bound true n) :
    o.isSubtype (.callable l) z = true ↔ o.isSubtype (.callable r) z = true := by
  have le {l r : Signature} (same : l.isTypeObject = r.isTypeObject)
      (below : o.isSubtype (.callable l) z = true) : o.isSubtype (.callable r) z = true := by
    obtain ⟨k, rfl⟩ := decides.callable_le_nominal hz below
    have constructs : (Ty.callable l).isTypeObject = (Ty.callable r).isTypeObject := same
    have fallen : o.fallback? (.callable l) = o.fallback? (.callable r) := by
      rw [fallback?, fallback?, constructs]
    have asked (s : Signature) : o.question (.callable s) k.toTy =
        .instances (o.fallback? (.callable s)) k := rfl
    exact (decides.isSubtype_congr (by rw [asked, asked, fallen])).mp below
  exact ⟨le same, le same.symm⟩

theorem Decides.overloaded_le_nominal_iff {items : List Signature} (hz : z.Applied t bound true n) :
    o.isSubtype (.overloaded items) z = true ↔ ∃ l ∈ items, o.isSubtype (.callable l) z = true := by
  have choice (asked : o.question (.overloaded items) z = .oneOf items z) :
      o.isSubtype (.overloaded items) z = true ↔ ∃ l ∈ items, o.isSubtype (.callable l) z = true := by
    rw [decides.isSubtype_iff, asked]
    constructor
    · intro found
      obtain ⟨l, member, fits⟩ := exists_of_anyM_eq_some_true found
      exact ⟨l, member, compare_eq_some_true.mp fits⟩
    · rintro ⟨l, member, fits⟩
      exact anyM_eq_some_true_of_mem (fun _ _ => rfl) member (compare_eq_some_true.mpr fits)
  cases hz with
  | noneType | inst | tuple => exact choice rfl
  | void | classVar | typeVar =>
    constructor
    · intro below
      cases decides.isSubtype_iff.mp below
    · rintro ⟨l, -, below⟩
      cases decides.isSubtype_iff.mp below

end Above

/-- Whatever nominal type, nested less deeply than that, the second type is a subtype of, the first one is
one of. -/
def Below (o : TypeOrder) (bound : Int → Ty) (n : Nat) (a b : Ty) : Prop :=
  ∀ z : Ty, z.Applied o.classes bound true 0 → z.depth (fun _ => 0) < n →
    o.isSubtype b z = true → o.isSubtype a z = true

theorem Below.mono {o : TypeOrder} {m : Nat} (few : m ≤ n) (h : o.Below bound n s u) :
    o.Below bound m s u :=
  fun z hz low => h z hz (Nat.lt_of_lt_of_le low few)

theorem forall_mem_zip_trans {α : Type} {R P : α → α → Prop} {as bs cs : List α}
    (first : List.Forall₂ R as bs) (second : ∀ p ∈ bs.zip cs, P p.1 p.2)
    (trans : ∀ a b, ∀ c ∈ cs, R a b → P b c → P a c) : ∀ p ∈ as.zip cs, P p.1 p.2 := by
  induction first generalizing cs with
  | nil => exact List.forall_mem_nil _
  | cons below _ ih =>
    cases cs with
    | nil => exact List.forall_mem_nil _
    | cons c cs =>
      rw [List.zip_cons_cons, List.forall_mem_cons] at second ⊢
      exact ⟨trans _ _ c List.mem_cons_self below second.1,
        ih second.2 fun a b d member => trans a b d (List.mem_cons_of_mem c member)⟩

section Parts

variable (decides : (ofClasses t).Decides)
include decides

theorem Decides.le_of_view? {other : Instance} (hk : k.toTy.Applied t bound true 0)
    (low : k.toTy.depth (fun _ => 0) < n + 1) (seen : t.view? i k.cls = some other)
    (args : List.Forall₂ ((ofClasses t).Below bound n) other.args bs)
    (fits : ∀ p ∈ bs.zip k.args, (ofClasses t).isSubtype p.1 p.2 = true) :
    (ofClasses t).isSubtype i.toTy k.toTy = true := by
  obtain ⟨-, -, parts⟩ := Ty.Applied.inst_iff.mp hk
  refine decides.inst_le_iff.mpr
    ⟨other, seen, forall_mem_zip_trans args fits fun a b c member h => h c (parts c member) ?_⟩
  have less := Ty.depth_lt_of_mem_parts (t := k.toTy) (fun _ => 0) member
  omega

theorem Decides.below_tuple (items : List.Forall₂ ((ofClasses t).Below bound n) as bs) :
    (ofClasses t).Below bound (n + 1) (.tuple as) (.tuple bs) := by
  intro z hz low below
  rcases decides.tuple_le_nominal hz below with ⟨k, rfl⟩ | ⟨cs, rfl⟩
  · have asked : (ofClasses t).question (.tuple as) k.toTy = (ofClasses t).question (.tuple bs) k.toTy := rfl
    exact (decides.isSubtype_congr asked).mpr below
  · rw [decides.tuple_le_iff, List.forall₂_iff_zip] at below ⊢
    obtain ⟨length, fits⟩ := below
    refine ⟨items.length_eq.trans length, fun {a c} member => ?_⟩
    refine forall_mem_zip_trans (P := fun a c => (ofClasses t).isSubtype a c = true) items
      (fun p member => fits member) (fun a b c member h => ?_) (a, c) member
    have less := Ty.depth_lt_of_mem_parts (t := .tuple cs) (fun _ => 0) member
    exact h c (Ty.Applied.tuple_iff.mp hz c member) (by omega)

end Parts

theorem below_expandBy_typeVar {o : TypeOrder} (v : TypeVar) (args : List.Forall₂ (o.Below bound n) as bs) :
    o.Below bound n ((Ty.typeVar v).expandBy as) ((Ty.typeVar v).expandBy bs) := by
  intro z hz low below
  cases args with
  | nil => exact below
  | @cons a b as bs first rest =>
    have args := List.Forall₂.cons first rest
    rw [Ty.expandBy.eq_2 _ _ (List.cons_ne_nil _ _), Ty.substitute] at below ⊢
    by_cases one : 1 ≤ v.id
    · rw [if_pos one] at below ⊢
      cases found : (a :: as)[(v.id - 1).toNat]? with
      | none =>
        have short := args.length_eq ▸ List.getElem?_eq_none_iff.mp found
        rw [List.getElem?_eq_none_iff.mpr short] at below
        exact below
      | some u =>
        obtain ⟨inside, rfl⟩ := List.getElem?_eq_some_iff.mp found
        have inside' := args.length_eq ▸ inside
        rw [List.getElem?_eq_getElem inside'] at below
        exact args.get inside inside' z hz low below
    · rw [if_neg one] at below ⊢
      exact below

section Views

variable (lin : t.Linearized) (earlier : t.BasesEarlier)

include lin earlier in
/-- Where type arguments may be put in for greater ones, views are greater where type arguments are. -/
theorem below_view?
    (passes : ∀ (as bs : List Ty) (p : Ty), List.Forall₂ ((ofClasses t).Below bound n) as bs →
      (ofClasses t).Below bound n (p.expandBy as) (p.expandBy bs))
    (same : i.cls = j.cls) (args : List.Forall₂ ((ofClasses t).Below bound n) i.args j.args)
    (seen : t.view? j c = some view) :
    ∃ other, t.view? i c = some other ∧ List.Forall₂ ((ofClasses t).Below bound n) other.args view.args := by
  induction known : j.cls using Nat.strongRecOn generalizing i j with
  | ind d ih =>
    by_cases own : j.cls = c
    · subst own
      rw [ClassTable.view?_self] at seen
      cases seen
      exact ⟨i, same ▸ ClassTable.view?_self t i, args⟩
    · rcases ClassTable.derives_of_view? seen with there | derived
      · exact absurd there own
      obtain ⟨before, base, after, listed, apart, leads⟩ :=
        ClassTable.exists_first_base lin earlier derived own
      have inside := ClassTable.lt_size_of_derives derived
      have first : base.cls < j.cls := earlier j.cls base (by simp [listed])
      rw [ClassTable.view?_eq_of_first lin earlier inside listed apart leads] at seen
      rw [ClassTable.view?_eq_of_first lin earlier (same ▸ inside) (same ▸ listed) apart leads]
      refine ih base.cls (known ▸ first) (i := base.expandBy i.args) (j := base.expandBy j.args) rfl ?_
        seen rfl
      exact List.forall₂_map_left_iff.mpr (List.forall₂_map_right_iff.mpr
        (List.forall₂_same.mpr fun p _ => passes _ _ p args))

end Views
end TypeOrder

/-! ### Through a nominal type -/

namespace ClassTable.Univocal

open TypeOrder

variable (uni : t.Univocal bound)
include uni

theorem decides : (ofClasses t).Decides := decides_of_mentionsEarlier uni.earlier

/-- Type arguments may be put in for greater ones. -/
theorem below_expandBy (p : Ty) (args : List.Forall₂ ((ofClasses t).Below bound n) as bs) :
    (ofClasses t).Below bound n (p.expandBy as) (p.expandBy bs) := by
  have decides := uni.decides
  -- The induction is on how deeply the nominal types above are nested. A view may be larger than what is
  -- viewed, but it is compared with type arguments of less depth.
  induction n generalizing as bs p with
  | zero => exact fun _ _ low => absurd low (Nat.not_lt_zero _)
  | succ n ih =>
    intro z hz low below
    have fewer : List.Forall₂ ((ofClasses t).Below bound n) as bs :=
      args.imp fun _ _ h => h.mono (Nat.le_succ n)
    have each (ps : List Ty) : List.Forall₂ ((ofClasses t).Below bound n) (ps.map (·.expandBy as))
        (ps.map (·.expandBy bs)) :=
      List.forall₂_map_left_iff.mpr (List.forall₂_map_right_iff.mpr
        (List.forall₂_same.mpr fun p _ => ih p fewer))
    cases p with
    | any | void | noneType | unbound | error =>
      cases args with
      | nil => exact below
      | cons => exact below
    | typeVar v => exact below_expandBy_typeVar v args z hz low below
    | inst c name ps =>
      have made (args : List Ty) : (Ty.inst c name ps).expandBy args =
          ((Instance.mk c name ps).expandBy args).toTy := Ty.expandBy_inst c name ps args
      rw [made] at below ⊢
      obtain ⟨k, rfl⟩ := decides.inst_le_nominal hz below
      obtain ⟨view, seen, fits⟩ := decides.inst_le_iff.mp below
      obtain ⟨other, seen', args'⟩ := below_view? uni.linearized uni.earlier.basesEarlier
        (fun _ _ p args => ih p args) (i := (Instance.mk c name ps).expandBy as)
        (j := (Instance.mk c name ps).expandBy bs) rfl (each ps) seen
      exact decides.le_of_view? hz low seen' args' fits
    | tuple ps =>
      rw [Ty.expandBy_tuple] at below ⊢
      exact decides.below_tuple (each ps) z hz low below
    | callable l =>
      obtain ⟨f, kept, made, -⟩ := Ty.exists_expandBy_signature as
      obtain ⟨g, kept', made', -⟩ := Ty.exists_expandBy_signature bs
      rw [made'] at below
      rw [made]
      exact (decides.callable_le_congr ((kept' l).trans (kept l).symm) hz).mp below
    | overloaded items =>
      obtain ⟨f, kept, -, made⟩ := Ty.exists_expandBy_signature as
      obtain ⟨g, kept', -, made'⟩ := Ty.exists_expandBy_signature bs
      rw [made', decides.overloaded_le_nominal_iff hz] at below
      rw [made, decides.overloaded_le_nominal_iff hz]
      obtain ⟨l, member, below⟩ := below
      obtain ⟨own, listed, rfl⟩ := List.mem_map.mp member
      exact ⟨f own, List.mem_map_of_mem listed,
        (decides.callable_le_congr ((kept' own).trans (kept own).symm) hz).mp below⟩

theorem exists_fallback (asked : (ofClasses t).question s j.toTy = .instances ((ofClasses t).fallback? s) j)
    (below : (ofClasses t).isSubtype s j.toTy = true) :
    ∃ i : Instance, (ofClasses t).fallback? s = some i ∧ i.toTy.Applied t bound false 0 := by
  have decides := uni.decides
  rw [decides.isSubtype_iff, asked] at below
  cases fallen : (ofClasses t).fallback? s with
  | none =>
    rw [fallen] at below
    cases below
  | some i =>
    obtain ⟨c, rfl, listed⟩ := exists_of_fallback? fallen
    have known : c < t.size := by
      simp only [fallbackClasses, List.mem_cons, List.not_mem_nil, or_false] at listed
      rcases listed with found | found | found <;> exact ClassTable.lt_size_of_find? found.symm
    exact ⟨_, rfl, .inst known (uni.fallbacks c listed).symm (List.forall_mem_nil _)⟩

section Through

variable (trans : ∀ x y : Ty, x.Applied t bound false 0 → y.Applied t bound true 0 →
  (ofClasses t).isSubtype x y = true → (ofClasses t).Below bound n x y)
include trans

theorem inst_trans (hi : i.toTy.Applied t bound false 0) (hj : j.toTy.Applied t bound true 0)
    (hk : k.toTy.Applied t bound true 0) (low : k.toTy.depth (fun _ => 0) < n + 1)
    (first : (ofClasses t).isSubtype i.toTy j.toTy = true)
    (second : (ofClasses t).isSubtype j.toTy k.toTy = true) :
    (ofClasses t).isSubtype i.toTy k.toTy = true := by
  have decides := uni.decides
  obtain ⟨between, seen, args⟩ := decides.inst_le_iff.mp first
  obtain ⟨view, seen', args'⟩ := decides.inst_le_iff.mp second
  have same := ClassTable.view?_cls seen
  obtain ⟨-, length, parts⟩ := Ty.Applied.inst_iff.mp (uni.bases.view? hi seen)
  obtain ⟨known, length', parts'⟩ := Ty.Applied.inst_iff.mp hj
  have each : List.Forall₂ ((ofClasses t).Below bound n) between.args j.args := by
    refine List.forall₂_iff_zip.mpr ⟨by rw [length, length', same], fun {a b} member => ?_⟩
    obtain ⟨left, right⟩ := List.of_mem_zip member
    exact trans a b (parts a left) (parts' b right) (args (a, b) member)
  obtain ⟨last, seen'', args''⟩ := below_view? uni.linearized uni.earlier.basesEarlier
    (fun _ _ p args => uni.below_expandBy p args) same each seen'
  have through : t.view? i k.cls = some last := by
    have seen : t.view? i j.cls = some between := seen
    obtain ⟨inside, -⟩ := Ty.Applied.inst_iff.mp hi
    have earlier := uni.earlier.basesEarlier
    have behind := (isSome_view?_iff uni.linearized earlier inside).mp (Option.isSome_of_eq_some seen)
    have further := (isSome_view?_iff uni.linearized earlier known).mp (Option.isSome_of_eq_some seen')
    rw [← uni.paths i hi j.cls (derives_iff.mp behind) k.cls (derives_iff.mp further), seen,
      Option.bind_some, seen'']
  exact decides.le_of_view? hk low through args'' args'

theorem fallback_trans (asked : ∀ k : Instance,
      (ofClasses t).question s k.toTy = .instances ((ofClasses t).fallback? s) k)
    (hj : j.toTy.Applied t bound true 0) (hk : k.toTy.Applied t bound true 0)
    (low : k.toTy.depth (fun _ => 0) < n + 1) (first : (ofClasses t).isSubtype s j.toTy = true)
    (second : (ofClasses t).isSubtype j.toTy k.toTy = true) :
    (ofClasses t).isSubtype s k.toTy = true := by
  obtain ⟨i, fallen, hi⟩ := uni.exists_fallback (asked j) first
  have counts (k : Instance) : (ofClasses t).isSubtype s k.toTy = true ↔
      (ofClasses t).isSubtype i.toTy k.toTy = true := by
    refine uni.decides.isSubtype_congr ?_
    rw [asked, fallen]
    rfl
  rw [counts] at first ⊢
  exact uni.inst_trans trans hi hj hk low first second

theorem callable_trans {l : Signature} (hy : y.Applied t bound true 0) (hz : z.Applied t bound true 0)
    (low : z.depth (fun _ => 0) < n + 1) (first : (ofClasses t).isSubtype (.callable l) y = true)
    (second : (ofClasses t).isSubtype y z = true) : (ofClasses t).isSubtype (.callable l) z = true := by
  obtain ⟨j, rfl⟩ := uni.decides.callable_le_nominal hy first
  obtain ⟨k, rfl⟩ := uni.decides.inst_le_nominal hz second
  exact uni.fallback_trans trans (fun _ => rfl) hy hz low first second

theorem tuple_trans (has : (Ty.tuple as).Applied t bound false 0) (hy : y.Applied t bound true 0)
    (hz : z.Applied t bound true 0) (low : z.depth (fun _ => 0) < n + 1)
    (first : (ofClasses t).isSubtype (.tuple as) y = true)
    (second : (ofClasses t).isSubtype y z = true) : (ofClasses t).isSubtype (.tuple as) z = true := by
  have decides := uni.decides
  rcases decides.tuple_le_nominal hy first with ⟨j, rfl⟩ | ⟨bs, rfl⟩
  · obtain ⟨k, rfl⟩ := decides.inst_le_nominal hz second
    exact uni.fallback_trans trans (fun _ => rfl) hy hz low first second
  rw [decides.tuple_le_iff] at first
  have each : List.Forall₂ ((ofClasses t).Below bound n) as bs :=
    forall₂_of_mem (fun a ha b hb => trans a b (Ty.Applied.tuple_iff.mp has a ha)
      (Ty.Applied.tuple_iff.mp hy b hb)) first
  exact decides.below_tuple each z hz low second

theorem below_succ (hx : x.Applied t bound false 0) (hy : y.Applied t bound true 0)
    (first : (ofClasses t).isSubtype x y = true) : (ofClasses t).Below bound (n + 1) x y := by
  have decides := uni.decides
  intro z hz low second
  by_cases value : z = .void
  · rcases decides.le_void_iff.mp (value ▸ second) with marked | rfl
    · rw [hy.not_dynamic] at marked
      cases marked
    · exact value ▸ first
  generalize loose : false = nominal at hx
  generalize closed : 0 = m at hx
  -- The bound of a type variable is compared with the same types, so the induction is on the first type.
  induction hx with
  | @loose _ s form =>
    cases s with
    | any | unbound | error => exact decides.dynamic_le rfl
    | callable l => exact uni.callable_trans trans hy hz low first second
    | overloaded items =>
      rw [decides.overloaded_le_nominal_iff hy] at first
      obtain ⟨l, member, first⟩ := first
      rw [decides.overloaded_le_nominal_iff hz]
      exact ⟨l, member, uni.callable_trans trans hy hz low first second⟩
    | void | noneType | inst | tuple | typeVar => cases form
  | void =>
    rcases decides.void_le_iff.mp first with marked | rfl
    · rw [hy.not_dynamic] at marked
      cases marked
    · exact second
  | noneType => exact decides.noneType_le value
  | @inst _ _ c name args known length parts =>
    cases loose
    cases closed
    have form : Ty.inst c name args = (Instance.mk c name args).toTy := rfl
    rw [form] at first ⊢
    obtain ⟨j, rfl⟩ := decides.inst_le_nominal hy first
    obtain ⟨k, rfl⟩ := decides.inst_le_nominal hz second
    exact uni.inst_trans trans (.inst known length parts) hy hz low first second
  | tuple parts =>
    cases loose
    cases closed
    exact uni.tuple_trans trans (.tuple parts) hy hz low first second
  | classVar one short => omega
  | @typeVar _ _ v same bounded ih =>
    have given : y ≠ .void := by
      rintro rfl
      rcases decides.le_void_iff.mp first with marked | void
      · cases marked
      · cases void
    rw [decides.typeVar_le_iff value]
    rcases (decides.typeVar_le_iff given).mp first with ⟨w, rfl, id⟩ | below
    · rw [decides.typeVar_le_iff value] at second
      rcases hy with _ | _ | _ | _ | _ | ⟨one, short⟩ | ⟨same', -⟩
      · omega
      · rw [same, id, ← same']
        exact second
    · exact .inr (ih below rfl rfl)

end Through

theorem isSubtype_trans (hx : x.Applied t bound false 0)
    (hy : y.Applied t bound true 0) (hz : z.Applied t bound true 0)
    (first : (ofClasses t).isSubtype x y = true) (second : (ofClasses t).isSubtype y z = true) :
    (ofClasses t).isSubtype x z = true := by
  have trans (n : Nat) (x y : Ty) (hx : x.Applied t bound false 0) (hy : y.Applied t bound true 0)
      (first : (ofClasses t).isSubtype x y = true) : (ofClasses t).Below bound n x y := by
    induction n generalizing x y with
    | zero => exact fun _ _ low => absurd low (Nat.not_lt_zero _)
    | succ n ih => exact uni.below_succ ih hx hy first
  exact trans _ x y hx hy first z hz (Nat.lt_succ_self _) second

end ClassTable.Univocal

open Builder

/-- Over the classes that a builder can make, views can be taken through any class in between exactly for
the instances that lead to no two instances of one class. Where these are all instances with all type
arguments, also in bases and for tuples and functions, what is a subtype of a nominal instance is a
subtype of whatever nominal instance that is a subtype of. -/
theorem paths_agree_iff_unambiguous {made : List Expr} {b : Builder} (built : Built made b)
    (earlier : b.classes.BasesEarlier) :
    let t := b.classes
    let o := TypeOrder.ofClasses t
    (∀ i : Instance, i.cls < t.size → (t.PathIndependent i ↔ t.Unambiguous i)) ∧
    ∀ bound : Int → Ty, t.MentionsEarlier t.basic → t.AppliedBases bound →
      (∀ c, some c ∈ o.fallbackClasses → t.arity c = 0) →
      (∀ i : Instance, i.toTy.Applied t bound false 0 → t.Unambiguous i) →
      ∀ i j k : Instance, i.toTy.Applied t bound false 0 → j.toTy.Applied t bound true 0 →
        k.toTy.Applied t bound true 0 → o.isSubtype i.toTy j.toTy = true →
        o.isSubtype j.toTy k.toTy = true → o.isSubtype i.toTy k.toTy = true := by
  intro t o
  have paths {i : Instance} (known : i.cls < t.size) : t.PathIndependent i ↔ t.Unambiguous i :=
    ClassTable.pathIndependent_iff built.linearized earlier known
  refine ⟨fun i => paths, fun bound mentions bases fallbacks one i j k hi hj hk first second => ?_⟩
  have uni : t.Univocal bound := ⟨built.linearized, mentions, bases, fallbacks, fun i hi =>
    (paths (Ty.Applied.inst_iff.mp hi).1).mpr (one i hi)⟩
  exact uni.isSubtype_trans hi hj hk first second

/-- A builder with a class that has a further base behind its first one, with another type argument. -/
def Builder.shelved : Builder :=
  let item : Ty := .typeVar (.plain "T" 1 .any)
  let declared : Build Unit := do
    let root ← newPlainClass "Root" []
    discard <| newPlainClass "Leaf" [root]
    let box ← newClass "Box" ["T"] []
    let full ← newClass "Full" ["T"] [⟨box, "builtins.Box", [item]⟩]
    discard <| newClass "Shelf" ["T"]
      [⟨full, "builtins.Full", [item]⟩, ⟨box, "builtins.Box", [.any]⟩]
  (declared.run .bare).2

theorem Builder.shelved_built : Built [] .shelved :=
  (Declares.newPlainClass.bind fun _ => Declares.newPlainClass.discard.bind fun _ =>
    Declares.newClass.bind fun _ => Declares.newClass.bind fun _ => Declares.newClass.discard)
      [] .bare .bare

theorem Builder.shelved_appliedBases (bound : Int → Ty) : Builder.shelved.classes.AppliedBases bound := by
  have given : ∀ c < Builder.shelved.classes.size, ∀ base ∈ Builder.shelved.classes.bases c,
      base.cls < Builder.shelved.classes.size ∧
        base.args.length = Builder.shelved.classes.arity base.cls ∧
        ∀ a ∈ base.args, (match a with
          | .any => true
          | .typeVar v => decide (1 ≤ v.id ∧ v.id ≤ Builder.shelved.classes.arity c)
          | _ => false) = true := by decide +kernel
  refine ClassTable.forall_bases_iff.mp fun c known base member => ?_
  obtain ⟨inside, length, args⟩ := given c known base member
  refine .inst inside length fun a listed => ?_
  have form := args a listed
  cases a with
  | any => exact .loose rfl
  | typeVar v => exact .classVar (of_decide_eq_true form).1 (of_decide_eq_true form).2
  | void | noneType | inst | callable | overloaded | tuple | unbound | error => cases form

/-- The further base, which would make every shelf a box of anything, is passed over. -/
theorem shelf_below_boxes :
    let t := Builder.shelved.classes
    let o := TypeOrder.ofClasses t
    let root : Ty := .inst 0 "builtins.Root" []
    let shelf : Instance := ⟨4, "builtins.Shelf", [.inst 1 "builtins.Leaf" []]⟩
    let full : Instance := ⟨3, "builtins.Full", [root]⟩
    let box : Instance := ⟨2, "builtins.Box", [root]⟩
    t.PathIndependent shelf ∧ o.isSubtype shelf.toTy full.toTy = true ∧
      o.isSubtype full.toTy box.toTy = true ∧ o.isSubtype shelf.toTy box.toTy = true := by
  intro t o root shelf full box
  have earlier : t.BasesEarlier := by decide +kernel
  have behind : ∀ c < t.size, ∀ first ∈ (t.bases c).head?, ∀ base ∈ (t.bases c).tail,
      t.derives first.cls base.cls = true := by decide +kernel
  have one (i : Instance) : t.Unambiguous i := by
    refine ClassTable.unambiguous_of_behind_first earlier fun c first head => ?_
    exact behind c (ClassTable.lt_size_of_mem_bases (List.mem_of_mem_head? head)) first head
  obtain ⟨paths, trans⟩ := paths_agree_iff_unambiguous Builder.shelved_built earlier
  have applied {nominal : Bool} : root.Applied t (fun _ => .any) nominal 0 :=
    .inst (by decide +kernel) (by decide +kernel) (List.forall_mem_nil _)
  have first : o.isSubtype shelf.toTy full.toTy = true := by decide +kernel
  have second : o.isSubtype full.toTy box.toTy = true := by decide +kernel
  refine ⟨(paths shelf (by decide +kernel)).mpr (one shelf), first, second, ?_⟩
  refine trans (fun _ => .any) (by decide +kernel) (Builder.shelved_appliedBases _) ?_ (fun i _ => one i)
    shelf full box ?_ ?_ ?_ first second
  · intro c listed
    have none : o.fallbackClasses = [none, none, none] := by decide +kernel
    have listed : some c ∈ o.fallbackClasses := listed
    simp [none] at listed
  · exact .inst (by decide +kernel) (by decide +kernel) (List.forall_mem_singleton.mpr
      (.inst (by decide +kernel) (by decide +kernel) (List.forall_mem_nil _)))
  · exact .inst (by decide +kernel) (by decide +kernel) (List.forall_mem_singleton.mpr applied)
  · exact .inst (by decide +kernel) (by decide +kernel) (List.forall_mem_singleton.mpr applied)

/-- What the language provides, boxes, a class that is a box of numbers by one base and one of texts by the
other, boxes of functions that take what a type argument says, and boxes of lists of nothing in
particular. -/
def Builder.divided : Builder :=
  let declared : Build Unit := do
    let box ← newClass "Box" ["T"] []
    let boxOf (content : Ty) : Instance := ⟨box, "__main__.Box", [content]⟩
    let numbers ← newClass "Numbers" [] [boxOf (.inst 3 "builtins.int" [])]
    let texts ← newClass "Texts" [] [boxOf (.inst 5 "builtins.str" [])]
    discard <| newPlainClass "Both" [numbers, texts]
    discard <| newClass "Sink" ["T"]
      [boxOf (.callable (.positional [.typeVar (.plain "T" 1 (.inst 0 "builtins.object" []))] .void))]
    discard <| newClass "Rack" [] [boxOf (.inst 13 "builtins.list" [])]
  (declared.run .new).2

theorem Builder.divided_built : Built [] .divided :=
  (Declares.newClass.bind fun _ => Declares.newClass.bind fun _ => Declares.newClass.bind fun _ =>
    Declares.newPlainClass.discard.bind fun _ => Declares.newClass.discard.bind fun _ =>
      Declares.newClass.discard) [] .new .new

/-- A builder with a class of tuples that has a type variable. -/
def Builder.tupled : Builder :=
  let declared : Build Unit := do
    discard <| newClass "Box" ["T"] []
    let rows ← newClass "Rows" ["T"] []
    discard <| newClass "tuple" ["T"] [⟨rows, "builtins.Rows", [.typeVar (.plain "T" 1 .any)]⟩]
  (declared.run .bare).2

theorem Builder.tupled_built : Built [] .tupled :=
  (Declares.newClass.discard.bind fun _ => Declares.newClass.bind fun _ => Declares.newClass.discard)
    [] .bare .bare

/-- All bases have their type arguments, and yet the box that a class is by its first base is not the box
that it is as its second base. Where views can be taken in steps, the middle one of three types may still be
one too much: functions take arguments the other way round, classes as functions are no functions, type
variables of one id need not have one bound, a list in a base may have no type argument, and neither has
the class that tuples count as. -/
theorem both_seen_as_two_boxes :
    let t := Builder.divided.classes
    let o := TypeOrder.ofClasses t
    let both : Instance := ⟨21, "__main__.Both", []⟩
    let int : Ty := .inst 3 "builtins.int" []
    let str : Ty := .inst 5 "builtins.str" []
    let object : Ty := .inst 0 "builtins.object" []
    let box (content : Ty) : Ty := .inst 18 "__main__.Box" [content]
    let sink (taken : Ty) : Ty := .inst 22 "__main__.Sink" [taken]
    let make : Signature := .positional [] int
    let element (bound : Ty) : Ty := .typeVar (.plain "E" (-1) bound)
    let list (args : List Ty) : Ty := .inst 13 "builtins.list" args
    let boxed (content : Ty) : Ty := .inst 0 "builtins.Box" [content]
    Built [] .divided ∧ Built [] .tupled ∧
    (∀ c < t.size, ∀ base ∈ t.bases c, base.args.length = t.arity base.cls) ∧
    both.args.length = t.arity both.cls ∧ 20 ∈ t.mro both.cls ∧ 18 ∈ t.mro 20 ∧
    (t.view? both 20).bind (t.view? · 18) ≠ t.view? both 18 ∧
    ∀ p ∈ [(o, sink int, sink object, box (.callable (.positional [object] .void))),
        (o, box (.callable { make with isTypeObject := true }), box (.callable make),
          box (.inst 2 "builtins.function" [])),
        (o, box (element int), box (element str), box str),
        (o, .inst 23 "__main__.Rack" [], box (list [int]), box (.inst 11 "builtins.Iterable" [int])),
        (.ofClasses Builder.tupled.classes, boxed (.tuple []), boxed (.inst 2 "builtins.tuple" [.void]),
          boxed (.inst 1 "builtins.Rows" [.void]))],
      p.1.isSubtype p.2.1 p.2.2.1 = true ∧ p.1.isSubtype p.2.2.1 p.2.2.2 = true ∧
        p.1.isSubtype p.2.1 p.2.2.2 = false := by
  intro t o both int str object box sink make element list boxed
  refine ⟨Builder.divided_built, Builder.tupled_built, by decide +kernel, by decide +kernel,
    by decide +kernel, by decide +kernel, fun same => ?_, by decide +kernel⟩
  have seen : ((t.view? both 20).bind (t.view? · 18)).map (·.toTy.isSame (box int)) ≠
      (t.view? both 18).map (·.toTy.isSame (box int)) := by decide +kernel
  exact seen (congrArg _ same)

end Gradual
